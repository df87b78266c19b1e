/-
# The app

An app runs a loaded script under the eyes of a user: it draws the panes, ticks the machine when a tick is
due, and takes keys.  A script that waits for a key gets all of them; otherwise they steer the run, move the
focus and scroll.

`App.play` is the whole of a session with its screens.
-/
import LineScript.App.Key
import LineScript.Pacer
import LineScript.Machine.Host
import LineScript.Pane.Source
import LineScript.Pane.Console
import LineScript.Pane.Symbols
import LineScript.Pane.Status

namespace LineScript

open LineScript.Pane LineScript.Screen LineScript.Decimal

/-! ## The state -/

/-- The pane that arrows scroll. -/
inductive Focus
  | source
  | console
  | symbols
  deriving DecidableEq, Repr, Inhabited

/-- The next pane in turn. -/
def Focus.next : Focus → Focus
  | source => console
  | console => symbols
  | symbols => source

/-- The name of a pane. -/
def Focus.name : Focus → String
  | source => "source"
  | console => "console"
  | symbols => "symbols"

/-- The state of an app. -/
structure App where
  machine : Machine
  pacer : Pacer
  focus : Focus := .source
  sourceScroll : SourceScroll := {}
  symbolsScroll : SymbolsScroll := {}
  /-- The number of items above the view of the console. -/
  consoleScroll : Nat := 0
  /-- The warnings since the script was last started. -/
  warnings : List String := []
  quitting : Bool := false
  /-- The last message in the status bar. -/
  message : String := "Ready!"
  deriving Inhabited

/-- The offset that asks for the end of a view. -/
def endOfView : Nat := 0xFFFFFFFFFFFFFFFF

/-- What the status bar tells of a fault. -/
def Fault.brief (f : Fault) : String := f.kind.name ++ ": " ++ f.message

namespace App

/-! ## Drawing -/

/-- The current line, counted from one; zero before a start.  A failed run points at the line that failed. -/
def currentLine (a : App) : Nat :=
  let m := a.machine
  match m.mode with
  | .idle => 0
  | .failed => (m.lastReport.bind (·.line)).getD (m.cursor + 1)
  | _ => m.cursor + 1

/-- The areas of the script, the console, the names and the status bar. -/
def layout (width height : Nat) : Area × Area × Area × Area :=
  let bar : Area := ⟨0, height - 1, width, 1⟩
  let (left, symbols) := (⟨0, 0, width, height - 1⟩ : Area).splitColumns 60
  let (source, console) := left.splitRows 65
  (source, console, symbols, bar)

/-- Draw the screen; views move to where they can show something. -/
def draw (width height : Nat) (a : App) : Grid × App :=
  let m := a.machine
  let (sourceArea, consoleArea, symbolsArea, bar) := layout width height
  let g := Grid.blank width height
  let (g, sourceScroll) :=
    (⟨m.script.lines.toList, a.currentLine, m.mode = .failed, a.focus = .source⟩ : SourceView).draw
      a.sourceScroll sourceArea g
  let (g, consoleScroll) :=
    (⟨m.console.output, a.warnings, m.lastReport, a.focus = .console⟩ : ConsoleView).draw
      a.consoleScroll consoleArea g
  let (g, symbolsScroll) :=
    (⟨m.symbols, m.objects, a.focus = .symbols⟩ : SymbolsView).draw a.symbolsScroll symbolsArea g
  let g := (⟨m.displayName, m.mode, a.currentLine, m.budget, a.message⟩ : StatusView).draw bar g
  (g, { a with
    sourceScroll := sourceScroll
    consoleScroll := consoleScroll
    symbolsScroll := symbolsScroll })

/-! ## Running -/

/-- The text of a warning among events. -/
def warningText? : Event → Option String
  | .warned w => some w.display
  | _ => none

/-- Take a machine over, with the warnings that it has given. -/
def adopt (a : App) (m : Machine) : App :=
  { a with
    machine := { m with events := #[] }
    warnings := a.warnings ++ m.events.toList.filterMap warningText? }

/-- Start the script from the beginning; `none` if `fuel` is not enough for a run to completion. -/
def restart (fuel : Nat) (a : App) : Option App :=
  (a.machine.stop.start fuel).map fun (result, m) =>
    let message := match result with
      | .ok () => "Running"
      | .error f => f.brief
    { ({ a with warnings := [], pacer := a.pacer.reset }.adopt m) with
      message := message
      consoleScroll := 0 }

/-- Tick if a tick is due. -/
def poll (now : Nat) (a : App) : App :=
  let (result, pacer, m) := a.pacer.poll now a.machine
  let a := { a.adopt m with pacer := pacer }
  match result with
  | .ok true => { a with consoleScroll := endOfView }
  | .ok false => a
  | .error f => { a with message := f.brief }

/-- Run one tick, and halt again if the script had halted. -/
def singleTick (a : App) : App :=
  let halted := a.machine.mode = .paused
  let (result, m) := Machine.tick a.machine.resume
  let m := if halted then m.pause else m
  let message := match result with
    | .ok () => "Ticked to line " ++ naturalText (m.cursor + 1)
    | .error f => f.brief
  { a.adopt m with message := message, consoleScroll := endOfView }

/-- Halt, go on, or start again. -/
def togglePause (fuel : Nat) (a : App) : Option App :=
  match a.machine.mode with
  | .paused => some { a with machine := a.machine.resume, message := "Resumed" }
  | .running | .waiting _ => some { a with machine := a.machine.pause, message := "Paused" }
  | .idle | .finished | .failed => a.restart fuel

/-! ## Keys -/

/-- Scroll the pane in focus up.  For the script that moves the current line down. -/
def scrollUp (a : App) : App :=
  match a.focus with
  | .source =>
    { a with sourceScroll.row := a.sourceScroll.row.map fun row => min (row + 1) endOfView }
  | .symbols => { a with symbolsScroll.offset := a.symbolsScroll.offset - 1 }
  | .console => { a with consoleScroll := a.consoleScroll - 1 }

/-- Scroll the pane in focus down. -/
def scrollDown (a : App) : App :=
  match a.focus with
  | .source => { a with sourceScroll.row := a.sourceScroll.row.map (· - 1) }
  | .symbols => { a with symbolsScroll.offset := min (a.symbolsScroll.offset + 1) endOfView }
  | .console => { a with consoleScroll := min (a.consoleScroll + 1) endOfView }

/-- Send a key to the script, if it has a name. -/
def send (a : App) (k : Key) : App :=
  match k.name? with
  | some name => { a with machine := a.machine.deliverKey name, message := s!"Sent '{name}'" }
  | none => a

/-- Take a key that steers the app. -/
def steer (fuel : Nat) (a : App) (k : Key) : Option App :=
  match k with
  | .tab => some { a with focus := a.focus.next }
  | .up => some a.scrollUp
  | .down => some a.scrollDown
  | _ =>
    match k.char? with
    | some 'q' | some 'Q' => some { a with quitting := true }
    | some ' ' => a.togglePause fuel
    | some 'r' | some 'R' => a.restart fuel
    | some 'n' | some 'N' => some a.singleTick
    | _ => some a

/-- Take a key. -/
def press (fuel : Nat) (a : App) (k : Key) : Option App :=
  if k.interrupts then some { a with quitting := true }
  else match a.machine.mode with
    | .waiting (.key _) => some (a.send k)
    | _ => a.steer fuel k

/-! ## Sessions -/

/-- Draw, tick and take keys in turn until the app quits or no key is left; time stands still. -/
def loop (fuel width height : Nat) : List Key → App → Option (List Grid × App)
  | keys, a =>
    let (g, a) := a.draw width height
    if a.quitting then some ([g], a)
    else
      let a := a.poll 0
      match keys with
      | [] => some ([g], a)
      | k :: keys => do
        let (gs, a) ← loop fuel width height keys (← a.press fuel k)
        return (g :: gs, a)

/-- Screens without those that equal the one before. -/
def changes : List Grid → List Grid
  | [] => []
  | [g] => [g]
  | g :: h :: rest => if g = h then changes (h :: rest) else g :: changes (h :: rest)

/-- Start the script and serve the app until it quits; the answer is the screens that it shows, and its
state at the end. -/
def play (fuel width height : Nat) (keys : List Key) (a : App) : Option (List Grid × App) := do
  let (gs, a) ← loop fuel width height keys (← a.restart fuel)
  return (changes gs, a)

end App

end LineScript
