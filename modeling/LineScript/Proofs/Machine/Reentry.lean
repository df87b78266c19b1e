/-
# Extensions that lead back to themselves

A keyword of an extension can have lines executed, whose keywords may belong to other extensions or to its own.  While
it runs its extension is out of the slot, and so are those of the keywords that it is nested in, and no others
(`CalledDuring.occupied`).  A statement that leads back to one of them is refused, and when the keyword comes back,
whether it failed or not, its extension is in the slot again.

* `Row.ReachesCall.runNested`: a statement that passes all checks ends as its call does;
* `HostsAs.occupied`: between the calls of a host all extensions are in their slots;
* `Visited.hostsAs`: this is about all hosts, their extensions behaving as their own code says.

Main statement: `extensions_never_reenter`.
-/
import LineScript.Proofs.Machine.Conduct
import LineScript.Proofs.Machine.Invariants
import LineScript.Proofs.Machine.Keywords
import LineScript.Proofs.Machine.Rows

namespace LineScript

open Act Machine Text

/-! ## Statements that call an extension -/

/-- The statement of a row as its keyword gets it. -/
def Row.invocation (r : Row) : Invocation := r.machine.invocation r.statement

/-- A row passes all checks up to the call of its keyword: it is not to be skipped, it begins with labels that may stand
before a keyword that is not gone, the arguments fit, and no warning about them is a fault. -/
structure Row.ReachesCall (r : Row) (owned : Owned) (k : Machine) : Prop where
  heeded : r.ignored = false
  word : r.statement.keyword.isWord = true
  labels : checkLabels r.machine.registry r.statement.keyword.text r.statement.labels = .ok ()
  current : replacements.lookup r.statement.keyword.text = none
  registered : r.machine.registry.keywords.find? r.statement.keyword.text = some owned
  warned : warnUntyped r.statement.keyword.text owned.descriptors r.machine = (.ok (), k)
  valid : validate r.statement.keyword.text owned.descriptors r.statement.args = .ok ()

/-- How a row ends whose keyword belongs to an extension. -/
def Row.endWith (r : Row) : Except Fault Unit × Machine → Except Fault (Option Nat) × Machine
  | (.ok (), k) => (.ok none, k.leaveContext r.statement.keyword.text r.depth)
  | (.error f, k) => (.error f, k)

section ReachesCall

variable {m k : Machine} {first : Token} {rest : List Token} {depth : Nat} {owned : Owned}

/-- A keyword that passes all checks is called behind the warnings. -/
theorem Row.ReachesCall.runKeyword {r : Row} (h : r.ReachesCall owned k) (inv : Invoke) :
    Machine.runKeyword inv r.invocation r.depth r.machine =
      (inv owned.owner r.invocation >>= fun _ => pure .following) k := by
  have hcurrent : replacements.lookup r.invocation.keyword = none := h.current
  have hregistered : r.machine.registry.keywords.find? r.invocation.keyword = some owned := h.registered
  have hvalid : Act.ofExcept (validate r.invocation.keyword owned.descriptors r.invocation.args) k = (.ok (), k) :=
    congrArg (·, k) h.valid
  unfold Machine.runKeyword
  rw [hcurrent]
  dsimp only
  rw [get_bind_apply, hregistered]
  exact (bind_of_ok h.warned).trans (bind_of_ok hvalid)

/-- **A statement that passes all checks ends as its call does.** -/
theorem Row.ReachesCall.runNested (h : (m.row first rest depth).ReachesCall owned k) (inv : Invoke) (bound : Nat) :
    Machine.runNested inv (bound + 1) (first :: rest) depth m =
      (m.row first rest depth).endWith (inv owned.owner (m.row first rest depth).invocation k) := by
  have hkeyword : Machine.runKeyword inv (m.row first rest depth).invocation depth (m.row first rest depth).machine = _ :=
    h.runKeyword inv
  rw [runNested_row, h.heeded, if_neg Bool.false_ne_true, bind_apply, dispatch_apply inv depth h.word h.labels,
    bind_apply, ← Row.invocation, hkeyword, bind_apply]
  rcases inv owned.owner (m.row first rest depth).invocation k with ⟨f | x, l⟩ <;> rfl

/-- The warnings leave the registry alone. -/
theorem Row.ReachesCall.registry (h : (m.row first rest depth).ReachesCall owned k) : k.registry = m.registry := by
  have hR := congruence_registry m.registry
  have hwarned := hR.toCongruence.agree_warnUntyped (fun h => congrArg Machine.warnedArguments h.1)
    (m.row first rest depth).statement.keyword.text owned.descriptors
  obtain ⟨-, -, hlast⟩ := hwarned (m.row first rest depth).machine _ (hR.openContext depth ⟨rfl, rfl⟩)
  rw [h.warned] at hlast
  exact hlast

/-- **A line of the host that passes all checks calls its keyword.** -/
theorem callsAt_executeWith {text : String} (hstatement : isPassive (hostLine text) = false)
    (htokens : tokenize m.registry.types (some (resolver m.symbols m.objects)) (hostLine text) = .ok (first :: rest))
    (h : ((m.withExecuting none).row first rest 0).ReachesCall owned k) (inv : Invoke) :
    CallsAt (executeWith · text) inv m owned.owner ((m.withExecuting none).row first rest 0).invocation k := by
  let r := (m.withExecuting none).row first rest 0
  let ends : Except Fault Unit × Machine → Except Fault Unit × Machine := fun ended =>
    (ended.1, (r.endWith ended).2.closeLine)
  have happly : ∀ inv, executeWith inv text m = ends (inv owned.owner r.invocation k) := by
    intro inv
    have hline : runLine inv (hostLine text) { m with executing := none } = _ := runLine_apply inv htokens
    rw [List.length_cons] at hline
    unfold executeWith
    rw [← hostLine, hstatement, Bool.not_false, if_pos rfl, modify_bind_apply, bind_apply, hline]
    have hrow : runNested inv (rest.length + 1) (first :: rest) 0 { m with executing := none } = _ := h.runNested inv _
    rw [hrow]
    rcases inv owned.owner r.invocation k with ⟨f | x, l⟩ <;> rfl
  exact callsAt_of_apply happly fun _ => rfl

end ReachesCall

/-! ## Hosts -/

namespace Machine

variable {manner : Manner} {es : List Extension} {m k : Machine}

/-- The machines of hosts with these extensions, whatever their keywords do.  Besides registering extensions a host has
lines run, of the script or its own, and does all that leaves the registry alone. -/
inductive HostsAs (manner : Manner) : List Extension → Machine → Prop
  | new (s : Settings) (search : Search) : HostsAs manner [] (ofSettings s search)
  | registered {es : List Extension} {m k : Machine} (debug : Bool) (e : Extension) : HostsAs manner es m →
      register debug e m = some (.ok (), k) → HostsAs manner (es ++ [e]) k
  | refused {es : List Extension} {m k : Machine} {f : Fault} (debug : Bool) (e : Extension) : HostsAs manner es m →
      register debug e m = some (.error f, k) → HostsAs manner es k
  | line {es : List Extension} {m : Machine} : HostsAs manner es m →
      HostsAs manner es (guarded (runCursorLine (callAs manner m.nesting)) m).2
  | execute {es : List Extension} {m : Machine} (text : String) : HostsAs manner es m →
      HostsAs manner es (executeWith (callAs manner m.nesting) text m).2
  | aside {es : List Extension} {m k : Machine} : HostsAs manner es m → k.registry = m.registry → HostsAs manner es k

/-- Lines leave the registry alone. -/
theorem registry_line (manner : Manner) (bound : Nat) (m : Machine) :
    (guarded (runCursorLine (callAs manner bound)) m).2.registry = m.registry := by
  have hline := (congruence_registry m.registry).agree_guarded
    (steady_runCursorLine m.registry _ _ fun _ owned _ => agreeOn_callAs m.registry manner bound owned.owner)
  exact (hline m m ⟨rfl, rfl⟩).2.2

theorem registry_executeWith (manner : Manner) (bound : Nat) (text : String) (m : Machine) :
    (executeWith (callAs manner bound) text m).2.registry = m.registry := by
  have hline : AgreeOn m.registry (executeWith (callAs manner bound) text) (executeWith (callAs manner bound) text) :=
    steady_executeWith m.registry text _ _ fun _ owned _ => agreeOn_callAs m.registry manner bound owned.owner
  obtain ⟨-, -, hlast⟩ := hline m m ⟨rfl, rfl⟩
  exact hlast

/-- The registry holds the extensions of the host, one behind the other. -/
theorem HostsAs.registers (h : m.HostsAs manner es) :
    ∃ done, m.registry.Registers done ∧ Registry.Registration.extensions done = es := by
  induction h with
  | new s search =>
    have hglobal := Registry.registers_empty.addLabel ⟨"global", ["var", "set"]⟩
    exact ⟨_, hglobal.addLabel ⟨"non-destructive", ["restart"]⟩, rfl⟩
  | registered debug e _ hregister ih =>
    obtain ⟨done, hdone, rfl⟩ := ih
    obtain ⟨_ | r, hinsert, hk⟩ := Option.map_eq_some_iff.mp hregister <;> cases hk
    exact ⟨_, hdone.insert hinsert, Registry.Registration.extensions_extension done e⟩
  | refused debug e _ hregister ih =>
    obtain ⟨_ | r, -, hk⟩ := Option.map_eq_some_iff.mp hregister <;> cases hk
    exact ih
  | line _ ih =>
    rw [registry_line]
    exact ih
  | execute text _ ih =>
    rw [registry_executeWith]
    exact ih
  | aside _ hsame ih =>
    rw [hsame]
    exact ih

/-- **Between the calls of a host every extension is in its slot.** -/
theorem HostsAs.occupied (h : m.HostsAs manner es) : m.registry.Occupied es [] := by
  obtain ⟨done, hdone, rfl⟩ := h.registers
  exact hdone.occupied

/-- Calls of a host leave the registry alone. -/
theorem callInvariant_registry (r : Registry) : CallInvariant fun m => m.registry = r where
  congruence := (congruence_registry r).toCongruence
  line bound line := by
    rw [← callAs_own]
    exact (congruence_registry r).agree_runLine (fun _ _ owned _ => agreeOn_callAs r .own bound owned.owner) line
  load {m} text name hm := (load_registry text name m).trans hm
  hardReset hm := hm
  budget _ hm := hm
  lastKey _ hm := hm

/-- **The machines that hosts reach**, between two calls or in the middle of a run, are such machines. -/
theorem Visited.hostsAs (h : m.Visited) : ∃ es, m.HostsAs .own es := by
  induction h with
  | new s search => exact ⟨[], .new s search⟩
  | @call m k answer c _ _ hc ih =>
    obtain ⟨es, hes⟩ := ih
    exact ⟨es, .aside hes ((callInvariant_registry m.registry).call rfl hc)⟩
  | @register m k answer debug e _ _ hregister ih =>
    obtain ⟨es, hes⟩ := ih
    cases answer with
    | error f => exact ⟨es, .refused debug e hes hregister⟩
    | ok x => exact ⟨es ++ [e], .registered debug e hes hregister⟩
  | clock now _ ih =>
    obtain ⟨es, hes⟩ := ih
    exact ⟨es, .aside hes rfl⟩
  | @launch m n _ ih =>
    obtain ⟨es, hes⟩ := ih
    exact ⟨es, .aside hes ((callInvariant_registry m.registry).launch rfl)⟩
  | @move m t _ hmove ih =>
    obtain ⟨es, hes⟩ := ih
    exact ⟨es, .aside hes ((callInvariant_registry m.registry).move rfl hmove)⟩

end Machine

/-! ## Calls while keywords are running -/

/-- The calls that happen while the keywords of some slots are running, the innermost first: the extension in a slot is
called with a statement, on some machine, and its keyword may nest so deep.  The first call is made by a line of the
script or of the host, and every other one by what the innermost keyword does. -/
inductive CalledDuring (manner : Manner) (es : List Extension) :
    (running : List Nat) → (bound owner : Nat) → Invocation → Machine → Prop
  | line {m k : Machine} {owner : Nat} {i : Invocation} : m.HostsAs manner es →
      CallsAt runCursorLine (callAs manner m.nesting) m owner i k → CalledDuring manner es [] m.nesting owner i k
  | execute {m k : Machine} {owner : Nat} {i : Invocation} (text : String) : m.HostsAs manner es →
      CallsAt (executeWith · text) (callAs manner m.nesting) m owner i k →
      CalledDuring manner es [] m.nesting owner i k
  | nested {running : List Nat} {bound owner other : Nat} {i j : Invocation} {k l : Machine} {e : Extension}
      {r : Registry} : CalledDuring manner es running (bound + 1) owner i k → k.registry.take owner = .ok (e, r) →
      CallsAt (fun inv => runConduct id inv (manner e i (k.entered e i r))) (callAs manner bound) (k.entered e i r) other j l →
      CalledDuring manner es (owner :: running) bound other j l

variable {manner : Manner} {es : List Extension} {running : List Nat} {bound owner : Nat} {i : Invocation}

/-- A step that is steady makes its calls on the registry that it finds, to extensions that are registered. -/
theorem Steady.callsAt_occupied {α : Type} {a : Invoke → Act α} {m k : Machine} (ha : Steady m.registry a)
    (hm : m.registry.Occupied es running) (h : CallsAt a (callAs manner bound) m owner i k) :
    k.registry.Occupied es running ∧ owner < es.length := by
  obtain ⟨hregistry, keyword, owned, hfound, rfl⟩ := ha.callsAt (agreeOn_callAs m.registry manner bound) h
  rw [hregistry]
  exact ⟨hm, hm.owned keyword owned hfound⟩

/-- **The extensions that are taken are those whose keywords are running**, and they may nest as deep as there are
others. -/
theorem CalledDuring.occupied {k : Machine} (h : CalledDuring manner es running bound owner i k) :
    k.registry.Occupied es running ∧ owner < es.length ∧ bound + running.length = es.length := by
  induction h with
  | line hm hcall =>
    obtain ⟨hk, howner⟩ := (steady_runCursorLine _).callsAt_occupied hm.occupied hcall
    exact ⟨hk, howner, hm.occupied.size_slots⟩
  | execute text hm hcall =>
    obtain ⟨hk, howner⟩ := (steady_executeWith _ text).callsAt_occupied hm.occupied hcall
    exact ⟨hk, howner, hm.occupied.size_slots⟩
  | nested _ htake hcall ih =>
    obtain ⟨hk, howner, hbound⟩ := ih
    -- The keyword that makes the call has come out of its slot, and stands in front of the others from then on.
    obtain ⟨-, -, hr⟩ := hk.of_take_eq_ok howner htake
    obtain ⟨hl, hother⟩ := (steady_runConduct _ _).callsAt_occupied hr hcall
    refine ⟨hl, hother, ?_⟩
    rw [List.length_cons]
    omega

/-- A statement that leads back to a running keyword fails, and changes nothing behind its warnings. -/
theorem Row.ReachesCall.refused {m k : Machine} {first : Token} {rest : List Token} {depth : Nat} {owned : Owned}
    {e : Extension} (h : (m.row first rest depth).ReachesCall owned k) (hm : m.registry.Occupied es running)
    (he : es[owned.owner]? = some e) (hmem : owned.owner ∈ running) (n : Nat) :
    Machine.runNested (callAs manner bound) (n + 1) (first :: rest) depth m =
      (.error (.extensionReentered (trim e.id)), k) := by
  have hrefused : k.registry.take owned.owner = .error (.extensionReentered (trim e.id)) := by
    rw [h.registry]
    exact hm.take_of_mem he hmem
  rw [h.runNested, callAs_of_refused hrefused]
  rfl

/-- **Extensions are never lost, and never enter themselves again.**  Whatever the keywords of a host's extensions do:

* between the calls of the host every extension is in its slot;
* when an extension is called, those extensions are out of their slots whose keywords are running, and no others.  One
  of these is refused, with an internal fault and nothing changed.  Any other one comes out of its slot and its keyword
  runs, and when that comes back, with a fault or without, the registry is what it was;
* a statement that leads back to a running keyword, and passes all checks, fails so, behind its warnings.

The hosts of extensions that behave as their own code says are among these, between calls and in the middle of runs. -/
theorem extensions_never_reenter (manner : Manner) (es : List Extension) :
    (∀ m : Machine, m.HostsAs manner es → m.registry.Occupied es []) ∧
    (∀ running bound owner i k, CalledDuring manner es running bound owner i k →
      k.registry.Occupied es running ∧ ∃ e, es[owner]? = some e ∧
        (owner ∈ running → callAs manner bound owner i k = (.error (.extensionReentered (trim e.id)), k)) ∧
        (owner ∉ running → ∃ deeper r, bound = deeper + 1 ∧ k.registry.take owner = .ok (e, r) ∧
          r.Occupied es (owner :: running) ∧
          let ended := runConduct id (callAs manner deeper) (manner e i (k.entered e i r)) (k.entered e i r)
          callAs manner bound owner i k = (ended.1, ended.2.restoreExtension owner)) ∧
        (callAs manner bound owner i k).2.registry = k.registry) ∧
    (∀ running (m : Machine) first rest depth owned k, m.registry.Occupied es running → owned.owner ∈ running →
      (m.row first rest depth).ReachesCall owned k → ∃ e, es[owned.owner]? = some e ∧
        ∀ bound n, runNested (callAs manner bound) (n + 1) (first :: rest) depth m =
          (.error (.extensionReentered (trim e.id)), k)) ∧
    (∀ id, (Fault.extensionReentered id).kind = .internal) ∧
    (∀ m : Machine, m.Visited → ∃ registered, m.HostsAs .own registered) ∧
    ∀ bound, callAs .own bound = invoke bound := by
  refine ⟨fun m hm => hm.occupied, ?_, ?_, fun _ => rfl, fun m hm => hm.hostsAs, callAs_own⟩
  · intro running bound owner i k hcalled
    obtain ⟨hk, howner, hbound⟩ := hcalled.occupied
    have he := List.getElem?_eq_getElem howner
    refine ⟨hk, es[owner], he, fun hmem => callAs_of_refused (hk.take_of_mem he hmem), fun hfree => ?_,
      registry_callAs manner bound owner i k⟩
    obtain ⟨r, htake, hr⟩ := hk.take_of_not_mem he hfree
    -- The bound is not used up, since some extension is still in its slot.
    obtain ⟨deeper, rfl⟩ : ∃ deeper, bound = deeper + 1 := by
      have hlength := hk.length_lt howner hfree
      exact ⟨bound - 1, by omega⟩
    exact ⟨deeper, r, rfl, htake, hr, callAs_of_taken htake⟩
  · intro running m first rest depth owned k hm hmem hreaches
    have he := List.getElem?_eq_getElem (hm.known _ hmem)
    exact ⟨_, he, fun bound n => hreaches.refused hm he hmem n⟩

/-! ## A circle of extensions -/

namespace Machine

/-- An extension whose one keyword, of the same name, has a line executed. -/
def relay (name line : String) : Extension where
  id := name
  keywords := [{ name := name }]
  call _ _ := .demand (.execute line) (.answer (.ok ()))

/-- A machine with two extensions whose keywords lead to each other. -/
def circle : Machine := withExtension (relay "pong" "ping") (withExtension (relay "ping" "pong") (ofSettings {} noPatterns))

/-- The row that a word on its own is, as a line of the host. -/
def loneRow (word : String) (m : Machine) : Row := (m.withExecuting none).row (wordToken [] word) [] 0

/-- Do all checks pass for a word on its own, so that it calls the extension in a slot? -/
structure Leads (m : Machine) (word : String) (owner : Nat) : Prop where
  statement : isPassive (hostLine word) = false
  tokens : tokenize m.registry.types (some (resolver m.symbols m.objects)) (hostLine word) = .ok [wordToken [] word]
  heeded : (m.loneRow word).ignored = false
  isWord : (wordToken [] word).isWord = true
  current : replacements.lookup (wordToken [] word).text = none
  found : (m.loneRow word).machine.registry.keywords.find? (wordToken [] word).text = some ⟨owner, []⟩

theorem Leads.reachesCall {m : Machine} {word : String} {owner : Nat} (h : m.Leads word owner) :
    (m.loneRow word).ReachesCall ⟨owner, []⟩ (m.loneRow word).machine where
  heeded := h.heeded
  word := h.isWord
  labels := rfl
  current := h.current
  registered := h.found
  warned := rfl
  valid := rfl

theorem Leads.callsAt {m : Machine} {word : String} {owner : Nat} (h : m.Leads word owner) (inv : Invoke) :
    CallsAt (executeWith · word) inv m owner (m.loneRow word).invocation (m.loneRow word).machine :=
  callsAt_executeWith h.statement h.tokens h.reachesCall inv

/-- The machine as the keyword in a slot finds it that is called by a word on its own. -/
def inside (e : Extension) (owner : Nat) (m : Machine) : Machine :=
  (m.loneRow e.id).machine.entered e (m.loneRow e.id).invocation
    { m.registry with slots := m.registry.slots.modify owner fun slot => { slot with busy := true } }

/-- A keyword that relays has its line executed. -/
theorem runConduct_relay (name line : String) (i : Invocation) (m : Machine) (inv : Invoke) :
    runConduct id inv (Manner.own (relay name line) i m) = executeWith inv line := by
  rw [Manner.own, runConduct_through]
  exact (runConduct_demand Machine.look inv (.execute line) _).trans bind_pure_unit

end Machine

/-- A keyword that relays calls the keyword of its line. -/
theorem CalledDuring.relayed {name line : String} {m : Machine} {other : Nat}
    (h : CalledDuring .own es running (bound + 1) owner (m.loneRow name).invocation (m.loneRow name).machine)
    (htake : (m.loneRow name).machine.registry.take owner =
      .ok (relay name line, (m.inside (relay name line) owner).registry))
    (hleads : (m.inside (relay name line) owner).Leads line other) :
    CalledDuring .own es (owner :: running) bound other ((m.inside (relay name line) owner).loneRow line).invocation
      ((m.inside (relay name line) owner).loneRow line).machine := by
  have hinside : (m.loneRow name).machine.entered (relay name line) (m.loneRow name).invocation
      (m.inside (relay name line) owner).registry = m.inside (relay name line) owner := rfl
  refine .nested h htake ?_
  rw [hinside]
  simp only [runConduct_relay name line]
  exact hleads.callsAt (callAs .own bound)

/-- The first extension of the circle is refused when the second leads back to it. -/
theorem extensions_never_reenter_in_a_circle :
    circle.registry.Occupied [relay "ping" "pong", relay "pong" "ping"] [] ∧
    ∃ i k, CalledDuring .own [relay "ping" "pong", relay "pong" "ping"] [1, 0] 0 0 i k ∧
      callAs .own 0 0 i k = (.error (.extensionReentered "ping"), k) ∧
      (callAs .own 0 0 i k).2.registry = k.registry := by
  have hping : (ofSettings {} noPatterns).register false (relay "ping" "pong") =
      some (.ok (), withExtension (relay "ping" "pong") (ofSettings {} noPatterns)) := by rfl
  have hpong : (withExtension (relay "ping" "pong") (ofSettings {} noPatterns)).register false (relay "pong" "ping") =
      some (.ok (), circle) := by rfl
  have hcircle : circle.HostsAs .own [relay "ping" "pong", relay "pong" "ping"] :=
    .registered false _ (.registered false _ (.new {} _) hping) hpong
  have hfirst : circle.Leads "ping" 0 := ⟨by rfl, by rfl, by rfl, by rfl, by rfl, by rfl⟩
  have hsecond : (circle.inside (relay "ping" "pong") 0).Leads "pong" 1 := ⟨by rfl, by rfl, by rfl, by rfl, by rfl, by rfl⟩
  have hthird : ((circle.inside (relay "ping" "pong") 0).inside (relay "pong" "ping") 1).Leads "ping" 0 :=
    ⟨by rfl, by rfl, by rfl, by rfl, by rfl, by rfl⟩
  have hcalled₀ : CalledDuring .own [relay "ping" "pong", relay "pong" "ping"] [] 2 0 (circle.loneRow "ping").invocation
      (circle.loneRow "ping").machine := .execute "ping" hcircle (hfirst.callsAt _)
  have hcalled₂ := (hcalled₀.relayed (by rfl) hsecond).relayed (by rfl) hthird
  obtain ⟨hslots, hcalls, -⟩ := extensions_never_reenter .own [relay "ping" "pong", relay "pong" "ping"]
  obtain ⟨-, e, he, hrefused, -, hkept⟩ := hcalls _ _ _ _ _ hcalled₂
  obtain rfl : relay "ping" "pong" = e := Option.some.inj he
  exact ⟨hslots circle hcircle, _, _, hcalled₂, hrefused (by simp), hkept⟩

end LineScript
