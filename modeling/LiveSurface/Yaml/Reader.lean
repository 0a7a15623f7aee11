import LiveSurface.Yaml.Line

/-!
# Reading YAML

The part of YAML that configurations are written in: block lists and block mappings of plain
scalars, nested by their indents, with comments. The empty list and the empty mapping may also be
written in brackets, and a scalar may go on over lines that are indented further than what it stands
in. A text without any content is null.
-/
namespace LiveSurface.Yaml

/-- The most characters from the start of a name to its colon. -/
def maxSpan : Nat := 1024

/-- A node, and the lines after it. -/
abbrev Parsed := Except Fault (Node × List Line)

/-- What stands between two parts of a scalar: a space for a line feed between them, any other line
end itself, and the ends of the empty lines. -/
def separator (stop : Char) (stops : List Char) : List Char :=
  (if stop ≠ '\n' then [stop] else if stops.isEmpty then [' '] else []) ++ stops

/-- Follows a scalar over the lines after it that are indented to a column, where `stops` are the
ends of the empty lines passed. Gives its text, what stands behind it on its last line, and the
lines after that. -/
def folded (least : Nat) (text : List Char) (tail : Line) (stops : List Char) :
    List Line → List Char × Line × List Line
  | [] => (text, tail, [])
  | [last] => (text, tail, [last])
  | line :: rest =>
    if !tail.content.isEmpty then (text, tail, line :: rest)
    else if line.content.isEmpty then folded least text tail (stops ++ [line.stop]) rest
    else if line.isDivision || line.isEmpty || line.indent < least then (text, tail, line :: rest)
    else
      match plain [] line.content with
      | [] => (text, tail, line :: rest)
      | part =>
        folded least (text ++ separator tail.stop stops ++ part) (line.drop part.length) [] rest

/-- Nothing but a comment may stand behind a node. -/
def ended (node : Node) (tail : Line) (rest : List Line) : Parsed :=
  if tail.isEmpty then .ok (node, rest)
  else
    match tail.content.head? with
    | some ':' => .error (.misplacedValue tail.place)
    | some '\t' => .error (.startsNothing '\t' tail.place)
    | _ => .error .unsupported

/-- Reads a scalar from its first line on. -/
def wordFrom (least : Nat) (word : Word) (tail : Line) (rest : List Line) : Parsed :=
  let (text, tail, rest) := folded least word.text.toList tail [] rest
  ended (.word ⟨word.place, String.ofList text⟩) tail rest

/-- The fault of a scalar where a name has to stand. It is noticed where the scalar ends, or at what
follows if that is on the line of the scalar. -/
def nameAlone (least : Nat) (word : Word) (tail : Line) (rest : List Line) : Fault :=
  let (_, tail, rest) := folded least word.text.toList tail [] rest
  if tail.content.isEmpty then .nameAlone word.place (rest.head?.getD tail).place
  else if tail.number ≠ word.place.line then .nameAlone word.place tail.place
  else if tail.isEmpty then .nameAlone word.place (((Line.skip rest).head?.getD tail).place)
  else .startsNothing '\t' tail.place

/-- The value behind a name on its line. -/
def inline (least : Nat) (line : Line) (rest : List Line) : Parsed :=
  if line.startsMark ':' then .error (.misplacedValue line.place)
  else if line.startsMark '?' then .error (.misplacedName line.place)
  else do
    match ← line.start with
    | .item _ => .error (.misplacedItem line.place)
    | .name _ _ colon => .error (.misplacedValue colon.place)
    | .word word tail => wordFrom least word tail rest
    | .empty node tail =>
      if tail.content.head? = some ':' then .error .unsupported else ended node tail rest

/-- The node that stands for nothing, at a place. -/
def nothing (place : Place) : Node := .word ⟨place, ""⟩

mutual

/-- Reads the block that the first line starts, with at most so many steps. Its scalar may go on
over lines from a column on. -/
def block : Nat → Nat → List Line → Parsed
  | 0, _, _ | _, _, [] => .error .unsupported
  | steps + 1, least, line :: rest => do
    match ← line.start with
    | .item _ => items steps line.place [] (line :: rest)
    | .name .. => entries steps line.place [] (line :: rest)
    | .word word tail => wordFrom least word tail rest
    | .empty node tail =>
      if tail.content.head? = some ':' then .error .unsupported else ended node tail rest

/-- Reads the block below a mark or a name at a column, and nothing if no line is indented
further. -/
def below : Nat → Nat → Place → List Line → Parsed
  | 0, _, _, _ => .error .unsupported
  | steps + 1, column, place, lines =>
    match Line.skip lines with
    | line :: rest =>
      if !line.isEmpty && column < line.indent then block steps (column + 1) (line :: rest)
      else .ok (nothing place, line :: rest)
    | [] => .ok (nothing place, [])

/-- Reads the items of the list that starts at a place, onto the ones read, the last one first. -/
def items : Nat → Place → List Node → List Line → Parsed
  | 0, _, _, _ => .error .unsupported
  | steps + 1, place, read, lines =>
    match Line.skip lines with
    | [] => .ok (.list place read.reverse, [])
    | line :: rest =>
      if line.isEmpty || line.indent < place.column then
        .ok (.list place read.reverse, line :: rest)
      else if place.column < line.indent then .error .unsupported
      else if !line.startsItem then .ok (.list place read.reverse, line :: rest)
      else do
        let item := line.drop 1
        let (node, rest) ←
          if item.isEmpty then below steps place.column ⟨line.number, line.indent + 1⟩ rest
          else block steps (place.column + 1) (item :: rest)
        items steps place (node :: read) rest

/-- Reads the entries of the mapping that starts at a place, onto the ones read, the last one
first. A list may stand below a name without being indented further. -/
def entries : Nat → Place → List (Word × Node) → List Line → Parsed
  | 0, _, _, _ => .error .unsupported
  | steps + 1, place, read, lines =>
    match Line.skip lines with
    | [] => .ok (.mapping place read.reverse, [])
    | line :: rest =>
      if line.isEmpty || line.indent < place.column then
        .ok (.mapping place read.reverse, line :: rest)
      else if place.column < line.indent then .error .unsupported
      else do
        match ← line.start with
        | .item _ | .empty .. => .error .unsupported
        | .word word tail => .error (nameAlone (place.column + 1) word tail rest)
        | .name word span colon =>
          if maxSpan < span then
            .error (if read.isEmpty then .misplacedValue colon.place
              else .nameAlone word.place colon.place)
          else do
            let value := colon.drop 1
            let next := ((Line.skip rest).head?.filter fun next =>
              next.indent = place.column && next.startsItem)
            let (node, rest) ←
              if !value.isEmpty then inline (place.column + 1) value rest
              else
                match next with
                | some next => items steps next.place [] rest
                | none => below steps place.column ⟨colon.number, colon.indent + 1⟩ rest
            entries steps place ((word, node) :: read) rest

end

/-- The first character that no text may have. -/
def unprintable? (cs : List Char) : Option Fault :=
  let before := cs.takeWhile isPrintable
  (cs.drop before.length).head?.map fun c => .unprintable c before.length

/-- Passes over the mark of the start of a document. -/
def withoutMark (lines : List Line) : List Line :=
  match Line.skip lines with
  | line :: rest =>
    if line.isDivision && line.content.head? = some '-' && (line.drop 3).isEmpty then rest
    else line :: rest
  | [] => []

/-- The node that a text is, none if it has no content. Between two lines at most three steps are
taken. -/
def nodeOf (cs : List Char) : Except Fault (Option Node) := do
  let cs := if cs.head? = some orderMark then cs.tail else cs
  match Line.skip (withoutMark (Line.list cs)) with
  | [] => pure none
  | line :: rest =>
    if line.isEmpty then pure none
    else
      let (node, rest) ← block (cs.length + 3 * rest.length + 3) 0 (line :: rest)
      if (Line.skip rest).all Line.isEmpty then pure (some node) else .error .unsupported

/-- The value that a text writes. -/
def read (text : String) : Except Fault Value :=
  match unprintable? text.toList with
  | some fault => .error fault
  | none => do
    match ← nodeOf text.toList with
    | some node => node.value
    | none => pure .null

end LiveSurface.Yaml
