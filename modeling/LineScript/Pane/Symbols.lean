/-
# The names on the screen

The pane lists the running calls, the variables and the functions.  Names that are left from an earlier pass
are dimmed, and objects are shown with their properties.
-/
import LineScript.Symbols
import LineScript.Objects
import LineScript.Screen.Drawing

namespace LineScript.Pane

open LineScript.Screen LineScript.Decimal

/-! ## Scrolling -/

/-- Where the view of the names is. -/
structure SymbolsScroll where
  /-- The number of items above the view. -/
  offset : Nat := 0
  /-- The number of items when the pane was last drawn. -/
  count : Nat := 0
  deriving DecidableEq, Repr, Inhabited

/-- Scroll a view of `visible` rows over `total` items: a view at the bottom follows new items. -/
def SymbolsScroll.follow (s : SymbolsScroll) (total visible : Nat) : SymbolsScroll where
  offset :=
    if s.count < total ∧ total - visible ≤ s.offset + 1 then total - visible
    else min s.offset (total - visible)
  count := total

/-! ## Texts -/

/-- Names with their values. -/
def pairTexts (entries : List (String × Value)) : List String :=
  entries.map fun (name, v) => name ++ "=" ++ v.display

/-- The properties that an object shows: its own, then those of its class that it does not own. -/
def shownProperties (objects : Objects) (o : Object) : List (String × Value) :=
  let inherited := match o.className.bind objects.class? with
    | some c => c.properties.entries.filter fun (name, _) => !o.properties.has name
    | none => []
  o.properties.entries ++ inherited

/-- A value, an object with its properties. -/
def describe (objects : Objects) (v : Value) : String :=
  match v.object?.bind fun id => objects.objects[id]? with
  | none => v.display
  | some o =>
    o.className.getD "object" ++ " \x7b" ++
      String.intercalate ", " (pairTexts (shownProperties objects o)) ++ "\x7d"

/-! ## Items -/

/-- A heading. -/
def headingItem (title : String) : Item :=
  .ofLine [⟨"▸ " ++ title, (Style.ofColor Palette.orange).inBold⟩]

/-- The item of an empty section. -/
def noneItem : Item := .ofText "  (none)" (.ofColor Palette.grey)

/-- A section under its heading. -/
def sectionItems (title : String) (items : List Item) : List Item :=
  headingItem title :: (if items.isEmpty then [noneItem] else items)

/-- A running call. -/
def callItem (f : Frame) : Item :=
  .ofLine [
    ⟨"  " ++ f.function, (Style.ofColor Palette.yellow).inBold⟩,
    ⟨"(" ++ String.intercalate ", " (pairTexts f.params) ++ ")", .ofColor Palette.plain⟩,
    ⟨"  ← line " ++ naturalText (f.returnLine + 1), .ofColor Palette.grey⟩]

/-- The running iteration. -/
def iterationItem (it : Iteration) : Item :=
  .ofText s!"  iterating {it.function} ({naturalText (it.index + 1)}/{naturalText it.items.length})"
    (.ofColor Palette.orange)

/-- A variable. -/
def variableItem (objects : Objects) (name : String) (v : Variable) : Item :=
  let style := Style.ofColor (if v.isOpen then Palette.plain else Palette.grey)
  let tag := (v.value.map fun v => v.tag.name).getD "untyped"
  let value := (v.value.map (describe objects)).getD "-"
  .ofLine [⟨"  " ++ name, style.inBold⟩, ⟨": " ++ tag, .ofColor Palette.teal⟩, ⟨" = " ++ value, style⟩]

/-- The lines of a function. -/
def linesText (f : Function) : String :=
  match f.finish with
  | some finish => s!"  lines {naturalText (f.start + 1)}-{naturalText (finish + 1)}"
  | none => "  (declaring)"

/-- A function. -/
def functionItem (name : String) (f : Function) : Item :=
  let params := String.intercalate ", " (f.params.map Parameter.display)
  .ofLine [
    ⟨"  " ++ name ++ "(" ++ params ++ ")",
      .ofColor (if f.declared then Palette.yellow else Palette.grey)⟩,
    ⟨linesText f, .ofColor Palette.grey⟩]

/-! ## The pane -/

/-- What the pane shows. -/
structure SymbolsView where
  symbols : Symbols
  objects : Objects
  focused : Bool := false

/-- The items of the pane. -/
def SymbolsView.items (v : SymbolsView) : List Item :=
  let rows (r : Roster Variable) := r.entries.map fun (name, x) => variableItem v.objects name x
  sectionItems "Call stack" (v.symbols.calls.map callItem) ++
    (v.symbols.iteration.map iterationItem).toList ++
    sectionItems "Locals" (rows v.symbols.locals) ++
    sectionItems "Globals" (rows v.symbols.globals) ++
    sectionItems "Functions" (v.symbols.functions.entries.map fun (name, f) => functionItem name f)

/-- Draw the pane; the answer tells where its view is now. -/
def SymbolsView.draw (v : SymbolsView) (s : SymbolsScroll) (a : Area) (g : Grid) : Grid × SymbolsScroll :=
  let visible := visibleRows a.height
  let s := s.follow v.items.length visible
  let g := drawBox " Symbols " (borderStyle v.focused) a g
  (drawItems a.inner g ((v.items.drop s.offset).take visible), s)

end LineScript.Pane
