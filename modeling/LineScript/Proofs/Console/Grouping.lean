/-
# Grouping loses nothing

With grouping a message that repeats the one before it only raises a count, so the entries of the console are runs of
equal messages.  Grouping, tags and times may be switched at any moment (`Console.Command`), and yet the entries spell
out what has been printed: a message is merged with the last entry or becomes one, and nothing else happens to it
(`Console.Prints`).

* `written_print`, `Counted.print`, `Apart.print`: what a message adds, and what it keeps;
* `written_performAll`, `counted_performAll`, `apart_performAll`: the same of histories;
* `grouping_is_lossless`: the main statement.
-/
import LineScript.Console
import Mathlib.Data.List.Chain
import Mathlib.Data.List.DropRight

namespace LineScript

namespace Console

/-! ## One message -/

/-- How a message changes the entries: it raises the last one, if that has the same message and line, or it becomes an
entry of its own, and with grouping only if the last one differs. -/
inductive Prints (c : Console) (message : String) (line : Option Nat) : List Entry → Prop
  | raised (front : List Entry) (e : Entry) : c.entries.toList = front ++ [e] → e.message = message → e.line = line →
      Prints c message line (front ++ [{ e with count := e.count + 1 }])
  | added : (c.grouping = true → ∀ e, c.entries.toList.getLast? = some e → (e.message, e.line) ≠ (message, line)) →
      Prints c message line (c.entries.toList ++ [{ message := message, lead := c.lead, line := line }])

/-- **Every message raises the last entry or is added.** -/
theorem prints (c : Console) (message : String) (line : Option Nat) :
    c.Prints message line (c.print message line).entries.toList := by
  unfold print entryOf
  cases hrepeated : c.repeated? message line with
  | none =>
    -- With grouping, an entry that is not raised has another message or line.
    have hdiffers : c.grouping = true → ∀ e, c.entries.toList.getLast? = some e →
        (e.message, e.line) ≠ (message, line) := by
      intro hgrouping e hlast hsame
      obtain ⟨rfl, rfl⟩ := Prod.mk.inj hsame
      rw [Array.getLast?_toList] at hlast
      simp [repeated?, hlast, hgrouping] at hrepeated
    simpa using Prints.added hdiffers
  | some e =>
    obtain ⟨hlast, hsame⟩ := Option.filter_eq_some_iff.mp hrepeated
    simp only [Bool.and_eq_true, beq_iff_eq] at hsame
    obtain ⟨⟨-, hline⟩, hmessage⟩ := hsame
    rw [← Array.getLast?_toList] at hlast
    obtain ⟨front, hfront⟩ := List.getLast?_eq_some_iff.mp hlast
    have hraised := Prints.raised (c := c) front e hfront hmessage hline
    simpa [hfront] using hraised

/-- What printing shows is the entry that comes last then. -/
theorem getLast?_print (c : Console) (message : String) (line : Option Nat) :
    (c.print message line).entries.toList.getLast? = some (c.entryOf message line) := by
  simp [print]

/-- **A message is written behind all others.** -/
theorem written_print (c : Console) (message : String) (line : Option Nat) :
    (c.print message line).written = c.written ++ [(message, line)] := by
  have hprints := c.prints message line
  unfold written
  generalize (c.print message line).entries.toList = entries at hprints ⊢
  cases hprints with
  | raised front e hentries hmessage hline => simp [hentries, List.replicate_succ', hmessage, hline]
  | added => simp

/-- Every entry stands for some message. -/
def Counted (c : Console) : Prop := ∀ e ∈ c.entries.toList, 1 ≤ e.count

theorem Counted.print {c : Console} (h : c.Counted) (message : String) (line : Option Nat) :
    (c.print message line).Counted := by
  have hprints := c.prints message line
  unfold Counted
  generalize (c.print message line).entries.toList = entries at hprints ⊢
  cases hprints with
  | raised front e hentries =>
    intro e' he'
    rcases List.mem_append.mp he' with hfront | hlast
    · exact h e' (hentries ▸ List.mem_append_left _ hfront)
    · obtain rfl := List.mem_singleton.mp hlast
      exact Nat.succ_pos _
  | added =>
    intro e' he'
    rcases List.mem_append.mp he' with hold | hnew
    · exact h e' hold
    · obtain rfl := List.mem_singleton.mp hnew
      exact Nat.le_refl 1

/-- Entries next to each other differ in their message or in their line. -/
def Apart (c : Console) : Prop :=
  c.entries.toList.IsChain fun e e' => (e.message, e.line) ≠ (e'.message, e'.line)

/-- With grouping, entries stay apart. -/
theorem Apart.print {c : Console} (h : c.Apart) (hgrouping : c.grouping = true) (message : String)
    (line : Option Nat) : (c.print message line).Apart := by
  have hprints := c.prints message line
  unfold Apart at h ⊢
  generalize (c.print message line).entries.toList = entries at hprints ⊢
  cases hprints with
  | raised front e hentries =>
    rw [hentries, List.isChain_append] at h
    obtain ⟨hfront, -, hlast⟩ := h
    refine hfront.append (List.isChain_singleton _) ?_
    intro x hx y hy
    obtain rfl := Option.mem_some_iff.mp hy
    exact hlast x hx e rfl
  | added hdiffers =>
    refine h.append (List.isChain_singleton _) ?_
    intro x hx y hy
    obtain rfl := Option.mem_some_iff.mp hy
    exact hdiffers hgrouping x hx

/-! ## Histories -/

/-- What happens to a console.  The settings may change at any moment, and so does the time. -/
inductive Command
  | print (message : String) (line : Option Nat)
  | clear
  | grouping (on : Bool)
  | tag (tag : Option String)
  | timestamps (on : Bool)
  | clock (now : TimeOfDay)

/-- Is this the command that forgets all entries? -/
def Command.clears : Command → Bool
  | clear => true
  | _ => false

/-- The message that a command prints, with its line. -/
def Command.printed? : Command → Option (String × Option Nat)
  | print message line => some (message, line)
  | _ => none

/-- The console behind a command. -/
def perform (c : Console) : Command → Console
  | .print message line => c.print message line
  | .clear => c.clear
  | .grouping on => { c with grouping := on }
  | .tag tag => { c with tag := tag }
  | .timestamps on => { c with timestamps := on }
  | .clock now => { c with now := now }

/-- The console behind a history. -/
def performAll (c : Console) (commands : List Command) : Console := commands.foldl perform c

/-- The commands of a history since the console was last cleared. -/
def sinceClear (commands : List Command) : List Command := commands.rtakeWhile fun k => !k.clears

theorem performAll_concat (c : Console) (commands : List Command) (k : Command) :
    c.performAll (commands ++ [k]) = (c.performAll commands).perform k :=
  List.foldl_concat perform c k commands

theorem sinceClear_concat (commands : List Command) {k : Command} (hk : k.clears = false) :
    sinceClear (commands ++ [k]) = sinceClear commands ++ [k] :=
  List.rtakeWhile_concat_pos _ _ _ (by simp [hk])

variable {c : Console}

/-- **The entries spell out what has been printed**, by induction on the history. -/
theorem written_performAll (hc : c.entries = #[]) (commands : List Command) :
    (c.performAll commands).written = (sinceClear commands).filterMap Command.printed? := by
  induction commands using List.reverseRecOn with
  | nil => simp [performAll, written, hc, sinceClear]
  | append_singleton commands k ih =>
    rw [performAll_concat]
    cases k with
    | clear => simp [perform, clear, written, sinceClear, Command.clears]
    | print message line =>
      rw [sinceClear_concat _ rfl, List.filterMap_append, ← ih]
      exact written_print _ message line
    | grouping | tag | timestamps | clock =>
      rw [sinceClear_concat _ rfl, List.filterMap_append, ← ih]
      exact (List.append_nil _).symm

theorem counted_performAll (hc : c.entries = #[]) (commands : List Command) : (c.performAll commands).Counted := by
  induction commands using List.reverseRecOn with
  | nil => simp [performAll, Counted, hc]
  | append_singleton commands k ih =>
    rw [performAll_concat]
    cases k with
    | clear => simp [perform, clear, Counted]
    | print message line => exact ih.print message line
    | grouping | tag | timestamps | clock => exact ih

/-- Has grouping been on since the console was last cleared, or since the beginning? -/
def GroupedSinceClear (c : Console) (commands : List Command) : Prop :=
  ∀ before after, commands = before ++ after → (∀ k ∈ after, k.clears = false) →
    (c.performAll before).grouping = true

/-- It suffices to look at the beginnings of the history by their lengths. -/
theorem groupedSinceClear_iff (commands : List Command) :
    c.GroupedSinceClear commands ↔ ∀ n < commands.length + 1,
      (commands.drop n).all (fun k => !k.clears) = true → (c.performAll (commands.take n)).grouping = true := by
  constructor
  · intro h n _ hafter
    exact h _ _ (List.take_append_drop n commands).symm (by simpa using hafter)
  · rintro h before after rfl hafter
    have hbefore := h before.length (by rw [List.length_append]; omega)
    rw [List.drop_left, List.take_left] at hbefore
    exact hbefore (by simpa using hafter)

instance (c : Console) (commands : List Command) : Decidable (c.GroupedSinceClear commands) :=
  decidable_of_iff _ (groupedSinceClear_iff commands).symm

theorem GroupedSinceClear.of_concat {commands : List Command} {k : Command} (hk : k.clears = false)
    (h : c.GroupedSinceClear (commands ++ [k])) : c.GroupedSinceClear commands := by
  rintro before after rfl hafter
  refine h before (after ++ [k]) (List.append_assoc _ _ _) fun k' hk' => ?_
  rcases List.mem_append.mp hk' with hold | hnew
  · exact hafter k' hold
  · obtain rfl := List.mem_singleton.mp hnew
    exact hk

theorem apart_performAll (hc : c.entries = #[]) {commands : List Command} (h : c.GroupedSinceClear commands) :
    (c.performAll commands).Apart := by
  induction commands using List.reverseRecOn with
  | nil => simp [performAll, Apart, hc]
  | append_singleton commands k ih =>
    rw [performAll_concat]
    cases k with
    | clear => simp [perform, clear, Apart]
    | print message line =>
      have hgrouped := h.of_concat rfl
      exact (ih hgrouped).print (hgrouped commands [] (List.append_nil _).symm (by simp)) message line
    | grouping | tag | timestamps | clock => exact ih (h.of_concat rfl)

/-- **Grouping loses nothing.**  Whatever is done with a console, with grouping, tag and times being switched at any
moment:

* its entries, each written out as often as it counts, are the messages that have been printed since the console was
  last cleared, with their lines and in order;
* every entry counts at least one message;
* printing shows the entry that comes last then;
* if grouping has been on all the time since the console was last cleared, entries next to each other differ in their
  message or in their line. -/
theorem grouping_is_lossless (grouping timestamps : Bool) (tag : Option String) (now : TimeOfDay)
    (commands : List Command) :
    let start : Console := { grouping := grouping, tag := tag, timestamps := timestamps, now := now }
    let c := start.performAll commands
    c.written = (sinceClear commands).filterMap Command.printed? ∧
    (∀ e ∈ c.entries, 1 ≤ e.count) ∧
    (∀ message line, (c.print message line).entries.back?.map Entry.display = some (c.shown message line)) ∧
    (start.GroupedSinceClear commands → c.Apart) := by
  intro start c
  refine ⟨written_performAll rfl commands, ?_, ?_, apart_performAll rfl⟩
  · intro e he
    exact counted_performAll rfl commands e (Array.mem_toList_iff.mpr he)
  · intro message line
    rw [← Array.getLast?_toList, getLast?_print]
    rfl

/-- A message that is printed before the tag changes and again behind it is one entry, under the first tag. -/
theorem grouping_is_lossless_across_tags :
    let commands : List Command := [.print "old" none, .clear, .print "tick" (some 3), .tag (some "demo"),
      .print "tick" (some 3), .print "tick" (some 4), .timestamps true, .print "tock" (some 4)]
    let c := Console.performAll { grouping := true } commands
    c.output = ["tick (x2)", "[demo] tick", "00:00:00 [demo] tock"] ∧
    c.written = [("tick", some 3), ("tick", some 3), ("tick", some 4), ("tock", some 4)] ∧ c.Apart := by
  intro commands c
  have hlossless := grouping_is_lossless true false none {} commands
  refine ⟨by decide, ?_, hlossless.2.2.2 (by decide)⟩
  rw [hlossless.1]
  decide

end Console

end LineScript
