/-
# Comparing stored values

Storing a value turns words into texts, at every depth of a group.  Comparisons look at numbers, at texts and at the
shape of groups, never at tags, so they cannot tell a value from its stored form.

* `sameRaw_of_text?`, `number_sameRaw` and so on: what the other side of an equality must be, one lemma for each kind of
  value, so that the laws of equality go by induction on one side alone;
* `sameRaw_normalized`, `display_normalized`: equality with a value and the text of a value are those of its stored form.

How texts are searched for patterns is up to the host (`compareWith`); `compare` searches with the patterns of the
language.

Main statement: storing the sides of a condition keeps its truth, or the kind of its fault, and equality is symmetric,
transitive and, away from NaN, reflexive (`storing_keeps_comparisons`).
-/
import Mathlib
import LineScript.Pattern.Condition
import LineScript.Proofs.Symbols.Typing

namespace LineScript

namespace Value

/-! ## What equals a value of some kind -/

section

variable (v : Value)

attribute [local simp] sameRaw

@[simp] theorem text_sameRaw (t : Tag) (s : String) : (text t s).sameRaw v = (v.text? == some s) := by
  cases v <;> simp [text?, BEq.comm (a := s)]

@[simp] theorem word_sameRaw (t : Tag) (s : String) : (word t s).sameRaw v = (v.text? == some s) := by
  cases v <;> simp [text?, BEq.comm (a := s)]

theorem number_sameRaw (n : Float) :
    (number n).sameRaw v = true ↔ ∃ m, v = number m ∧ (n == m) = true := by
  cases v <;> simp

theorem boolean_sameRaw (b : Bool) : (boolean b).sameRaw v = true ↔ v = boolean b := by
  cases v with
  | boolean c => simpa using eq_comm
  | _ => simp

theorem object_sameRaw (id : Nat) : (object id).sameRaw v = true ↔ v = object id := by
  cases v with
  | object other => simpa using eq_comm
  | _ => simp

theorem relpos_sameRaw (offset : Int) : (relpos offset).sameRaw v = true ↔ v = relpos offset := by
  cases v with
  | relpos other => simpa using eq_comm
  | _ => simp

theorem group_sameRaw (items : List Value) :
    (group items).sameRaw v = true ↔ ∃ others, v = group others ∧ sameRawAll items others = true := by
  cases v <;> simp

end

/-- What holds a text equals what holds the same text, be it a text or a word. -/
theorem sameRaw_of_text? {u : Value} {s : String} (v : Value) (hu : u.text? = some s) :
    u.sameRaw v = (v.text? == some s) := by
  cases u with
  | text t s' | word t s' =>
    cases hu
    simp
  | _ => cases hu

/-! ## Equality -/

mutual

theorem sameRaw_comm : (v w : Value) → v.sameRaw w = w.sameRaw v
  | text t s, w => by cases w <;> simp [sameRaw, BEq.comm (a := s)]
  | word t s, w => by cases w <;> simp [sameRaw, BEq.comm (a := s)]
  | number n, w => by cases w <;> simp [sameRaw, BEq.comm (a := n)]
  | boolean b, w => by cases w <;> simp [sameRaw, BEq.comm (a := b)]
  | group items, w => by
    cases w with
    | group others => simpa [sameRaw] using sameRawAll_comm items others
    | _ => simp [sameRaw]
  | object id, w => by cases w <;> simp [sameRaw, BEq.comm (a := id)]
  | relpos offset, w => by cases w <;> simp [sameRaw, BEq.comm (a := offset)]

theorem sameRawAll_comm : (vs ws : List Value) → sameRawAll vs ws = sameRawAll ws vs
  | [], [] => rfl
  | [], _ :: _ => by simp [sameRawAll]
  | _ :: _, [] => by simp [sameRawAll]
  | v :: vs, w :: ws => by simp only [sameRawAll, sameRaw_comm v w, sameRawAll_comm vs ws]

end

/-- Two values that equal one that holds a text hold this text as well. -/
theorem sameRaw_trans_of_text? {u v w : Value} {s : String} (hu : u.text? = some s) (hv : u.sameRaw v = true)
    (hw : v.sameRaw w = true) : u.sameRaw w = true := by
  rw [sameRaw_of_text? v hu, beq_iff_eq] at hv
  rw [sameRaw_of_text? w hv] at hw
  rwa [sameRaw_of_text? w hu]

mutual

theorem sameRaw_trans : (u : Value) → ∀ {v w : Value}, u.sameRaw v = true → v.sameRaw w = true →
    u.sameRaw w = true
  | text t s, _, _, hv, hw => sameRaw_trans_of_text? (s := s) rfl hv hw
  | word t s, _, _, hv, hw => sameRaw_trans_of_text? (s := s) rfl hv hw
  | number n, v, w, hv, hw => by
    obtain ⟨m, rfl, hm⟩ := (number_sameRaw v n).mp hv
    obtain ⟨k, rfl, hk⟩ := (number_sameRaw w m).mp hw
    exact (number_sameRaw _ n).mpr ⟨k, rfl, BEq.trans hm hk⟩
  | boolean b, v, w, hv, hw => by rwa [(boolean_sameRaw v b).mp hv] at hw
  | group items, v, w, hv, hw => by
    obtain ⟨others, rfl, hothers⟩ := (group_sameRaw v items).mp hv
    obtain ⟨last, rfl, hlast⟩ := (group_sameRaw w others).mp hw
    exact (group_sameRaw _ items).mpr ⟨last, rfl, sameRawAll_trans items hothers hlast⟩
  | object id, v, w, hv, hw => by rwa [(object_sameRaw v id).mp hv] at hw
  | relpos offset, v, w, hv, hw => by rwa [(relpos_sameRaw v offset).mp hv] at hw

theorem sameRawAll_trans : (us : List Value) → ∀ {vs ws : List Value},
    sameRawAll us vs = true → sameRawAll vs ws = true → sameRawAll us ws = true
  | [], [], _, _, hw => hw
  | u :: us, v :: vs, [], _, hw => by simp [sameRawAll] at hw
  | u :: us, v :: vs, w :: ws, hv, hw => by
    simp only [sameRawAll, Bool.and_eq_true] at hv hw ⊢
    exact ⟨sameRaw_trans u hv.1 hw.1, sameRawAll_trans us hv.2 hw.2⟩

end

/-- No number in a value, at any depth, is a NaN. -/
def IsFreeOfNaN (v : Value) : Prop := ∀ n, (number n).Part v → n.isNaN = false

theorem IsFreeOfNaN.of_mem {v : Value} {items : List Value} (h : (group items).IsFreeOfNaN) (hmem : v ∈ items) :
    v.IsFreeOfNaN :=
  fun n hn => h n (.element hmem hn)

theorem isFreeOfNaN_group {items : List Value} (h : ∀ v ∈ items, v.IsFreeOfNaN) : (group items).IsFreeOfNaN := by
  rintro n (_ | ⟨hmem, hpart⟩)
  exact h _ hmem n hpart

/-- What neither is a number nor has elements has no number inside. -/
theorem isFreeOfNaN_of_none {v : Value} (hnumber : v.number? = none) (hgroup : v.group? = none) : v.IsFreeOfNaN := by
  rintro n (_ | _)
  · cases hnumber
  · cases hgroup

mutual

theorem IsFreeOfNaN.sameRaw_self : (v : Value) → v.IsFreeOfNaN → v.sameRaw v = true
  | text _ _, _ => by simp [text?]
  | word _ _, _ => by simp [text?]
  | number n, h => (number_sameRaw _ n).mpr ⟨n, rfl, Float.beq_self_iff.mpr (by simpa using h n .self)⟩
  | boolean b, _ => (boolean_sameRaw _ b).mpr rfl
  | group items, h => (group_sameRaw _ items).mpr ⟨items, rfl, sameRawAll_self items fun _ hv => h.of_mem hv⟩
  | object id, _ => (object_sameRaw _ id).mpr rfl
  | relpos offset, _ => (relpos_sameRaw _ offset).mpr rfl

theorem sameRawAll_self : (items : List Value) → (∀ v ∈ items, v.IsFreeOfNaN) → sameRawAll items items = true
  | [], _ => rfl
  | v :: rest, h => by
    simp only [sameRawAll, Bool.and_eq_true]
    exact ⟨IsFreeOfNaN.sameRaw_self v (h v List.mem_cons_self),
      sameRawAll_self rest fun w hw => h w (List.mem_cons_of_mem v hw)⟩

end

/-- A NaN is the one number that differs from itself. -/
example : (number (0.0 / 0.0)).sameRaw (number (0.0 / 0.0)) = false := by decide

/-! ## Stored form -/

/-- The stored form of a text is a text of the same characters. -/
theorem exists_normalized_text (t : Tag) (s : String) : ∃ t', (text t s).normalized = text t' s := by
  cases t <;> exact ⟨_, by simp [normalized]; rfl⟩

theorem number?_normalized (v : Value) : v.normalized.number? = v.number? := by
  cases v with
  | text t s =>
    obtain ⟨t', ht⟩ := exists_normalized_text t s
    rw [ht]
    rfl
  | _ => simp [normalized, number?]

theorem group?_normalized (v : Value) : v.normalized.group? = v.group?.map normalizedAll := by
  cases v with
  | text t s =>
    obtain ⟨t', ht⟩ := exists_normalized_text t s
    rw [ht]
    rfl
  | _ => simp [normalized, group?]

mutual

/-- A value equals the same values as its stored form. -/
theorem normalized_sameRaw : (v w : Value) → v.normalized.sameRaw w = v.sameRaw w
  | text t s, w => by
    obtain ⟨t', ht⟩ := exists_normalized_text t s
    simp [ht]
  | word t s, w => by simp
  | number n, w => by simp [normalized]
  | boolean b, w => by simp [normalized]
  | group items, w => by
    cases w with
    | group others => simpa [sameRaw] using normalizedAll_sameRaw items others
    | _ => simp [sameRaw]
  | object id, w => by simp [normalized]
  | relpos offset, w => by simp [normalized]

theorem normalizedAll_sameRaw : (vs ws : List Value) → sameRawAll (normalizedAll vs) ws = sameRawAll vs ws
  | [], _ => by simp [normalizedAll]
  | _ :: _, [] => by simp [normalizedAll, sameRawAll]
  | v :: vs, w :: ws => by simp only [normalizedAll, sameRawAll, normalized_sameRaw v w, normalizedAll_sameRaw vs ws]

end

/-- **Equality does not see whether its sides are stored.** -/
theorem sameRaw_normalized (v w : Value) : v.normalized.sameRaw w.normalized = v.sameRaw w := by
  calc v.normalized.sameRaw w.normalized
      = v.sameRaw w.normalized := normalized_sameRaw v w.normalized
    _ = w.normalized.sameRaw v := sameRaw_comm v w.normalized
    _ = w.sameRaw v := normalized_sameRaw w v
    _ = v.sameRaw w := sameRaw_comm w v

mutual

/-- A value shows the same text as its stored form. -/
theorem display_normalized : (v : Value) → v.normalized.display = v.display
  | text t s => by
    obtain ⟨t', ht⟩ := exists_normalized_text t s
    simp [ht, display]
  | word t s => by simp [display]
  | number n => by simp [normalized]
  | boolean b => by simp [normalized]
  | group items => by simp [display, displayAll_normalized items]
  | object id => by simp [normalized]
  | relpos offset => by simp [normalized]

theorem displayAll_normalized : (items : List Value) → displayAll (normalizedAll items) = displayAll items
  | [] => by simp [normalizedAll]
  | v :: rest => by simp [normalizedAll, displayAll, display_normalized v, displayAll_normalized rest]

end

/-- Membership does not see whether group and element are stored. -/
theorem contains_normalized (v needle : Value) : v.normalized.contains needle.normalized = v.contains needle := by
  cases v with
  | text t s =>
    obtain ⟨t', ht⟩ := exists_normalized_text t s
    rw [ht]
    rfl
  | group items =>
    simp only [normalized_group, contains, normalizedAll_eq_map, List.any_map]
    congr 1
    funext item
    exact sameRaw_normalized item needle
  | _ => simp [normalized, contains]

end Value

/-! ## Conditions -/

section

variable (search : Search) (l : Value) (c : String) (r : Value)

theorem isInWith_of_not_group (h : r.group? = none) :
    isInWith search l r = match search l.display r.display with
      | some found => .ok found
      | none => .error (.badPattern l.display) := by
  cases r with
  | group items => cases h
  | _ => rfl

/-- A search does not see whether its sides are stored, since they show the same texts. -/
theorem isInWith_normalized : isInWith search l.normalized r.normalized = isInWith search l r := by
  cases hgroup : r.group? with
  | some items =>
    rw [Value.group?_eq_some] at hgroup
    subst hgroup
    have hcontains := Value.contains_normalized (.group items) l
    rw [Value.normalized_group] at hcontains ⊢
    exact congrArg Except.ok hcontains
  | none =>
    have hnormal : r.normalized.group? = none := by rw [Value.group?_normalized, hgroup]; rfl
    rw [isInWith_of_not_group _ _ _ hnormal, isInWith_of_not_group _ _ _ hgroup, Value.display_normalized,
      Value.display_normalized]

/-- An order of numbers fails on the same values, if with other tags in its fault. -/
theorem order_normalized (less : Float → Float → Bool) :
    (order c less l.normalized r.normalized).mapError Fault.kind = (order c less l r).mapError Fault.kind := by
  unfold order
  rw [Value.number?_normalized, Value.number?_normalized]
  cases l.number? <;> cases r.number? <;> rfl

theorem compareWith_normalized :
    (compareWith search l.normalized c r.normalized).mapError Fault.kind =
      (compareWith search l c r).mapError Fault.kind := by
  unfold compareWith
  simp only [Value.sameRaw_normalized, isInWith_normalized]
  split
  · rfl
  · rfl
  · exact order_normalized l _ r _
  · exact order_normalized l _ r _
  · rfl
  · rfl
  · rfl

end

/-- **Storing values changes no comparison**, whatever way texts are searched for patterns, and equality of values is what
its name says.

* Two values and their stored forms compare alike by every comparator: with the same truth, or with a fault of the same
  kind, and so they do with the patterns of the language.
* Equality is symmetric and transitive.
* A value without NaN equals itself.
* The stored form of a stored form is itself. -/
theorem storing_keeps_comparisons :
    (∀ search l c r, (compareWith search l.normalized c r.normalized).mapError Fault.kind =
      (compareWith search l c r).mapError Fault.kind) ∧
    (∀ l c r, compare l c r = compareWith Pattern.search? l c r ∧
      (compare l.normalized c r.normalized).mapError Fault.kind = (compare l c r).mapError Fault.kind) ∧
    (∀ v w : Value, v.sameRaw w = w.sameRaw v) ∧
    (∀ u v w : Value, u.sameRaw v = true → v.sameRaw w = true → u.sameRaw w = true) ∧
    (∀ v : Value, v.IsFreeOfNaN → v.sameRaw v = true) ∧
    ∀ v : Value, v.normalized.normalized = v.normalized := by
  exact ⟨compareWith_normalized, fun l c r => ⟨rfl, compareWith_normalized Pattern.search? l c r⟩, Value.sameRaw_comm,
    fun u _ _ => Value.sameRaw_trans u, Value.IsFreeOfNaN.sameRaw_self, Value.normalized_normalized⟩

/-- Groups that differ in tags, in the sign of a zero and in being stored. -/
theorem storing_keeps_comparisons_of_groups :
    (Value.group [.number 0, .identifier "a"]).sameRaw (.group [.number 0, .text (.custom "t") "a"]) = true ∧
      (Value.group [.number (-0), .identifier "a"]).IsFreeOfNaN ∧
      (Value.group [.number (-0), .identifier "a"]).sameRaw (.group [.number (-0), .identifier "a"]) = true := by
  obtain ⟨-, -, -, htrans, hself, -⟩ := storing_keeps_comparisons
  have hfree : (Value.group [.number (-0), .identifier "a"]).IsFreeOfNaN := by
    rintro n (_ | ⟨hmem, hpart⟩)
    rcases List.mem_cons.mp hmem with rfl | hrest
    · cases hpart
      decide
    · obtain rfl := List.mem_singleton.mp hrest
      cases hpart
  refine ⟨htrans _ (.group [.number (-0), .string "a"]) _ (by decide) (by decide), hfree, hself _ hfree⟩

end LineScript
