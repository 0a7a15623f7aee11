import LiveSurface.Value.Fault
import LiveSurface.Text.Quoted
import LiveSurface.Yaml.Timestamp

/-!
# Faults of YAML

Why a text was not read as YAML: its characters, its structure, or what its scalars stand for. The
wording of a fault names the file and the places in it.
-/
namespace LiveSurface.Yaml

/-- A place in a text: a line and a column, both counted from zero. -/
structure Place where
  line : Nat
  column : Nat
deriving DecidableEq, Repr

/-- The words for a place in a file, counted from one. -/
def Place.message (file : String) (place : Place) : String :=
  s!"  in \"{file}\", line {place.line + 1}, column {place.column + 1}"

/-- Why a text was not read. -/
inductive Fault
  /-- It is not in the part of YAML that is read. -/
  | unsupported
  /-- A character that no text may have. -/
  | unprintable (c : Char) (offset : Nat)
  /-- A character that starts nothing. -/
  | startsNothing (c : Char) (place : Place)
  /-- A value where no name may stand. -/
  | misplacedValue (place : Place)
  /-- The mark of a name where none may stand. -/
  | misplacedName (place : Place)
  /-- An item of a list where none may stand. -/
  | misplacedItem (place : Place)
  /-- A text in the place of a name, with something else than a colon after it. -/
  | nameAlone (name next : Place)
  /-- A scalar that is a mark and stands for nothing. -/
  | mark (tag : String) (place : Place)
  /-- Something other than a mapping or a list of them was merged into a mapping. -/
  | notMergeable (mapping : Place) (found : String) (part : Place)
  /-- Something other than a mapping in a list was merged into a mapping. -/
  | notMergeableItem (mapping : Place) (found : String) (part : Place)
  | value (fault : ValueFault)
  | time (fault : Timestamp.Fault)
deriving DecidableEq, Repr

/-- What was being done and where, what was wrong and where. A place that both share is named
once. -/
def Fault.report (file doing : String) (start : Option Place) (problem : String) (place : Place) :
    String :=
  let start := start.filter (· ≠ place)
  "\n".intercalate ([doing] ++ (start.map (Place.message file)).toList
    ++ [problem, place.message file])

/-- The wording of a fault in a file. -/
def Fault.message (file : String) : Fault → String
  | unsupported => "only block lists and block mappings of plain scalars are supported"
  | unprintable c offset =>
    let code := String.ofList (Text.Quoted.hexDigits 4 c.toNat)
    s!"unacceptable character #x{code}: special characters are not allowed\n"
      ++ s!"  in \"{file}\", position {offset}"
  | startsNothing c place =>
    let written := Text.Quoted.text (String.singleton c)
    report file "while scanning for the next token" none
      s!"found character {written} that cannot start any token" place
  | misplacedValue place => "mapping values are not allowed here\n" ++ place.message file
  | misplacedName place => "mapping keys are not allowed here\n" ++ place.message file
  | misplacedItem place => "sequence entries are not allowed here\n" ++ place.message file
  | nameAlone name next =>
    report file "while scanning a simple key" (some name) "could not find expected ':'" next
  | mark tag place =>
    s!"could not determine a constructor for the tag 'tag:yaml.org,2002:{tag}'\n"
      ++ place.message file
  | notMergeable mapping found part =>
    report file "while constructing a mapping" (some mapping)
      s!"expected a mapping or list of mappings for merging, but found {found}" part
  | notMergeableItem mapping found part =>
    report file "while constructing a mapping" (some mapping)
      s!"expected a mapping for merging, but found {found}" part
  | value fault => fault.message
  | time fault => fault.message

end LiveSurface.Yaml
