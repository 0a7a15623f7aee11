import LiveSurface.Yaml.Node

/-!
# Lines of YAML

The lines of a text, and what a line starts with: the mark of a list item, a name with its colon, a
plain scalar, or an empty list or mapping in brackets. A part of a line is a line of its own that
starts further to the right.
-/
namespace LiveSurface.Yaml

/-- A line, or the part of it from a column on. -/
structure Line where
  number : Nat
  /-- The column of the content. -/
  indent : Nat
  /-- What stands after the spaces at the start, a comment included. -/
  content : List Char
  /-- The character that ends the line; the common line ends are all line feeds. -/
  stop : Char
deriving DecidableEq, Repr

/-- The characters that a text may have. -/
def isPrintable (c : Char) : Bool :=
  c == '\t' || c == '\n' || c == '\r' || (' ' ≤ c && c ≤ '~') || c == '\x85' ||
    ('\xa0' ≤ c && c ≤ '\ufffd') || 0x10000 ≤ c.toNat

/-- The mark of the byte order, which has no width. -/
def orderMark : Char := '\ufeff'

/-- The columns that characters take up. -/
def width (cs : List Char) : Nat := (cs.filter (· ≠ orderMark)).length

/-- The characters that end a line. -/
def endsLine (c : Char) : Bool := c == '\n' || c == '\x85' || c == '\u2028' || c == '\u2029'

/-- The blanks inside a line. -/
def isBlank (c : Char) : Bool := c == ' ' || c == '\t'

/-- Whether a text is at its end or starts with a blank. -/
def startsBlank (cs : List Char) : Bool := (cs.head?.map isBlank).getD true

namespace Line

/-- The place of the content of a line. -/
def place (line : Line) : Place := ⟨line.number, line.indent⟩

/-- A line without its first characters and the spaces after them. -/
def drop (line : Line) (count : Nat) : Line :=
  let rest := line.content.drop count
  { line with
    indent := line.indent + width (line.content.take count) + (rest.takeWhile (· = ' ')).length
    content := rest.dropWhile (· = ' ') }

/-- Whether a line has nothing, or a comment only. -/
def isEmpty (line : Line) : Bool := (line.content.head?.map (· == '#')).getD true

/-- A line with a number, from what it holds. -/
def ofContent (number : Nat) (cs : List Char) (stop : Char) : Line :=
  drop ⟨number, 0, cs, stop⟩ 0

/-- The lines from a number on, given the reversed beginning of the first one. After them stands an
empty line at the place where the text ends. -/
def listFrom (number : Nat) (read : List Char) : List Char → List Line
  | [] =>
    [ofContent number read.reverse '\n', ⟨number, width read, [], '\n'⟩]
  | c :: rest =>
    if endsLine c then
      let stop := if c = '\x85' then '\n' else c
      ofContent number read.reverse stop :: listFrom (number + 1) [] rest
    else listFrom number (c :: read) rest

/-- The lines of a text, with the empty one at its end. -/
def list (cs : List Char) : List Line := listFrom 0 [] cs

/-- Passes over lines without content, up to the last line. -/
def skip : List Line → List Line
  | [] => []
  | [last] => [last]
  | line :: rest => if line.isEmpty then skip rest else line :: rest

/-- Whether a line is a mark between documents. -/
def isDivision (line : Line) : Bool :=
  line.indent == 0 && (line.content.take 3 == "---".toList || line.content.take 3 == "...".toList)
    && startsBlank (line.content.drop 3)

end Line

/-- The plain text at the start of a text, given the spaces before it. It ends before a tab, before
a colon at the end or with a blank after it, and before a comment; spaces at its end are no part of
it. -/
def plain (spaces : List Char) : List Char → List Char
  | [] => []
  | c :: rest =>
    if c = ' ' then plain (c :: spaces) rest
    else if c = '\t' ∨ (c = ':' ∧ startsBlank rest) ∨ (c = '#' ∧ !spaces.isEmpty) then []
    else spaces ++ c :: plain [] rest

/-- The characters that start something else than a plain scalar. -/
def indicators : List Char := ",[]{}#&*!|>'\"".toList

/-- The characters that start nothing. -/
def strays : List Char := "\t%@\x60".toList

/-- What a line starts with. The rest of the line is what follows. -/
inductive Start
  | item (rest : Line)
  /-- A name, the number of characters up to its colon, and the line from the colon on. -/
  | name (word : Word) (span : Nat) (colon : Line)
  | word (word : Word) (rest : Line)
  | empty (node : Node) (rest : Line)

/-- The number of characters up to a closing bracket that follows an opening one and spaces. -/
def bracketed? (opening closing : Char) (content : List Char) : Option Nat :=
  match content with
  | c :: rest =>
    let spaces := (rest.takeWhile (· = ' ')).length
    if c = opening ∧ rest[spaces]? = some closing then some (spaces + 2) else none
  | [] => none

namespace Line

/-- What a line with content starts with. -/
def start (line : Line) : Except Fault Start :=
  match line.content with
  | [] => .error .unsupported
  | c :: rest =>
    if line.isDivision || (c = '%' && line.indent = 0) then .error .unsupported
    else if c = '-' && startsBlank rest then .ok (.item (line.drop 1))
    else if strays.contains c then .error (.startsNothing c line.place)
    else
      match bracketed? '{' '}' line.content, bracketed? '[' ']' line.content with
      | some count, _ => .ok (.empty (.mapping line.place []) (line.drop count))
      | none, some count => .ok (.empty (.list line.place []) (line.drop count))
      | none, none =>
        if indicators.contains c || ((c = '?' || c = ':') && startsBlank rest) then
          .error .unsupported
        else
          let text := plain [] line.content
          let word : Word := ⟨line.place, String.ofList text⟩
          let after := line.drop text.length
          if after.content.head? = some ':' then
            .ok (.name word (line.content.length - after.content.length) after)
          else .ok (.word word after)

/-- Whether a line starts with a mark that stands by itself. -/
def startsMark (line : Line) (mark : Char) : Bool :=
  match line.content with
  | c :: rest => c == mark && startsBlank rest
  | [] => false

/-- Whether a line starts with the mark of a list item. -/
def startsItem (line : Line) : Bool := line.startsMark '-'

end Line
end LiveSurface.Yaml
