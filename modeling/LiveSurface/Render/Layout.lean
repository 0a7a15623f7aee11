import LiveSurface.Render.Node
import LiveSurface.Text.Blank
import LiveSurface.Value.Conversion

/-!
# Plain text layout

The lines of plain text that a tree of nodes is laid out in. Each kind of node puts together the
blocks of lines of its children: below one another, side by side, in a box, behind marks. A width
reaches the dividers, less what stands to their left and right.
-/
namespace LiveSurface.Layout

/-- The width that is used where none is asked for. -/
def defaultWidth : Nat := 48

/-- The least width. -/
def minWidth : Nat := 8

/-- The width inside an indent. -/
def inside (width indent : Nat) : Nat := max minWidth (width - indent)

/-- More than a text or a list can hold. -/
def countLimit : Int := Int.pow 2 63

/-- Something as often as asked for; a negative count is none. -/
def repeated {α : Type} (n : Int) (a : α) : Except ValueFault (List α) :=
  if -countLimit ≤ n ∧ n < countLimit then .ok (List.replicate n.toNat a) else .error .tooMany

/-- The mark before each line of a heading. -/
def headingMark? (variant : String) : Option String :=
  (Catalog.headingLevel? variant).map fun level => String.ofList (List.replicate level '#') ++ " "

/-- The lines of a text; an empty text is one empty line. -/
def textLines (text : String) : List String :=
  match Text.lines text with
  | [] => [""]
  | lines => lines

/-- A line in the look of a variant of text. -/
def styled (variant : String) (line : String) : String :=
  match headingMark? variant with
  | some mark => mark ++ line
  | none => if variant = "caption" ∧ line ≠ "" then "(" ++ line ++ ")" else line

/-- The lines of a text in the look that the properties name. -/
def text (text : String) (props : Fields) : Except ValueFault (List String) := do
  let variant ← ((Entries.get? props "variant").getD (.str "body")).toKey?
  pure ((textLines text).map (styled (variant.getD "body")))

/-- The line of a button; a primary one stands in double brackets. -/
def button (label : String) (props : Fields) : String :=
  if ((Entries.get? props "primary").getD .null).truth then s!"[[ {label} ]]" else s!"[ {label} ]"

/-- The line of a divider, as wide as there is room unless it is vertical. -/
def divider (width : Nat) (props : Fields) : Except ValueFault (List String) := do
  if Entries.get? props "orientation" = some (.str "vertical") then pure ["|"]
  else
    let dashes ← repeated width '-'
    pure [String.ofList dashes]

/-- The empty lines of a spacer. -/
def spacer (props : Fields) : Except ValueFault (List String) := do
  let units ← ((Entries.get? props "units").getD (.int 1)).toWhole
  repeated units ""

/-- Blocks below one another. -/
def stacked (blocks : List (List String)) : List String := blocks.flatten

/-- Blocks side by side if each is a single line, and below one another if not. -/
def row (blocks : List (List String)) : List String :=
  if blocks.all fun block => block.length = 1 then
    if blocks.isEmpty then [] else ["  ".intercalate blocks.flatten]
  else stacked blocks

/-- A line filled up with spaces. -/
def padded (span : Nat) (line : String) : String :=
  line ++ String.ofList (List.replicate (span - line.length) ' ')

/-- The width inside a box, that of the longest line. -/
def span (lines : List String) : Nat := (lines.map String.length).foldl max minWidth

/-- The upper and the lower edge of a box. -/
def border (span : Nat) : String := "+" ++ String.ofList (List.replicate (span + 2) '-') ++ "+"

/-- Lines in a box. -/
def box (lines : List String) : List String :=
  let span := span lines
  [border span] ++ lines.map (fun line => "| " ++ padded span line ++ " |") ++ [border span]

/-- A block behind a mark; its further lines keep the place of the mark empty. -/
def item : List String → List String
  | [] => []
  | first :: rest => ("- " ++ first) :: rest.map ("  " ++ ·)

/-- Blocks with an empty line between them. -/
def separated : List (List String) → List String
  | [] => []
  | first :: rest => first ++ rest.flatMap ("" :: ·)

/-- The name of something that may have none. -/
def nameOf (name : Option String) : String := name.getD "None"

/-- The room that the children of a node lose. -/
def indent : NodeKind → Nat
  | .card => 4
  | .list => 2
  | .surface => 2
  | _ => 0

/-- Whether the children of a node are shown. -/
def showsChildren : NodeKind → Bool
  | .column | .row | .card | .list | .surface | .container => true
  | _ => false

/-- The width that the children of a node are laid out in. -/
def childWidth (kind : NodeKind) (width : Nat) : Nat :=
  if indent kind = 0 then width else inside width (indent kind)

/-- Puts the blocks of the children of a node together. -/
def arranged (kind : NodeKind) (id : Option String) (blocks : List (List String)) : List String :=
  match kind with
  | .column => stacked blocks
  | .row => row blocks
  | .card => box (stacked blocks)
  | .list => blocks.flatMap item
  | .surface => s!"== surface {nameOf id} ==" :: (stacked blocks).map ("  " ++ ·)
  | .container => separated blocks
  | _ => []

/-- The lines of a node without shown children. -/
def leaf (kind : NodeKind) (body : Option String) (props : Fields) (width : Nat) :
    Except ValueFault (List String) :=
  match kind with
  | .text => text (body.getD "") props
  | .button => pure [button (body.getD "") props]
  | .icon => pure [body.getD ""]
  | .divider => divider width props
  | .spacer => spacer props
  | .notFound | .cycle => pure ["[!] " ++ nameOf body]
  | .error => pure ["[x] " ++ nameOf body]
  | .missingRoot => pure ["(" ++ nameOf body ++ ")"]
  | _ => pure (body.filter (· ≠ "")).toList

mutual

/-- The lines of a node. -/
def lines : Node → Nat → Except ValueFault (List String)
  | .mk kind id body props _ children, width =>
    if showsChildren kind then do
      let blocks ← blocks children (childWidth kind width)
      pure (arranged kind id blocks)
    else leaf kind body props width
termination_by structural node => node

/-- The blocks of nodes. -/
def blocks : List Node → Nat → Except ValueFault (List (List String))
  | [], _ => pure []
  | node :: rest, width => do
    let block ← lines node width
    let others ← blocks rest width
    pure (block :: others)
termination_by structural nodes => nodes

end

/-- The printed text of a tree; nothing is printed as no text at all. -/
def print (tree : Option Node) (width : Value) : Except ValueFault String :=
  match tree with
  | none => pure ""
  | some node => do
    let width ← width.toWhole
    let lines ← lines node (max minWidth width.toNat)
    pure ("\n".intercalate lines)

theorem blocks_eq_mapM (nodes : List Node) (width : Nat) :
    blocks nodes width = nodes.mapM fun node => lines node width := by
  induction nodes with
  | nil => rfl
  | cons node rest ih => simp [blocks, ih]

end LiveSurface.Layout
