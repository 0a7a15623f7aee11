import LiveSurface.Data.Binding

/-!
# Validation of records

A check reads a value into a typed one or says what is wrong with it. The fields of a record are
checked one after another and every complaint is kept, in the order of the fields. A lenient
reading drops the fields that have complaints and reads the rest.
-/
namespace LiveSurface.Validation

/-- What is wrong with a value. -/
inductive Reason
  | missing
  | stringType
  | stringTooShort
  | floatType
  | floatParsing
  | boolType
  | boolParsing
  | listType
  | dictType
  | modelType
  | valueError
deriving DecidableEq, Repr

/-- The written name of a reason. -/
def Reason.name : Reason → String
  | missing => "missing"
  | stringType => "string_type"
  | stringTooShort => "string_too_short"
  | floatType => "float_type"
  | floatParsing => "float_parsing"
  | boolType => "bool_type"
  | boolParsing => "bool_parsing"
  | listType => "list_type"
  | dictType => "dict_type"
  | modelType => "model_type"
  | valueError => "value_error"

/-- A step from a value to a part of it. -/
inductive Step
  | field (name : String)
  | item (index : Nat)
deriving DecidableEq, Repr

/-- The written form of a step. -/
def Step.text : Step → String
  | field name => name
  | item index => toString index

/-- A reason with the place it applies to. -/
structure Complaint where
  place : List Step
  reason : Reason
deriving DecidableEq, Repr

/-- The written form of a complaint. -/
def Complaint.text (c : Complaint) : String :=
  ".".intercalate (c.place.map Step.text) ++ ": " ++ c.reason.name

/-- A typed value, or at least one complaint. -/
inductive Checked (α : Type)
  | valid (a : α)
  | invalid (first : Complaint) (rest : List Complaint)
deriving DecidableEq, Repr

namespace Checked

variable {α β : Type}

/-- A single complaint about the value itself. -/
def refuse (reason : Reason) : Checked α := .invalid ⟨[], reason⟩ []

/-- Changes a valid value. -/
def map (f : α → β) : Checked α → Checked β
  | .valid a => .valid (f a)
  | .invalid first rest => .invalid first rest

/-- Applies a checked function to a checked value; the complaints of both are kept. -/
def apply : Checked (α → β) → Checked α → Checked β
  | .valid f, .valid a => .valid (f a)
  | .valid _, .invalid first rest => .invalid first rest
  | .invalid first rest, .valid _ => .invalid first rest
  | .invalid first rest, .invalid next more => .invalid first (rest ++ next :: more)

instance : Applicative Checked where
  pure := .valid
  map f a := a.map f
  seq f a := f.apply (a ())

/-- A further check of a value that is valid so far. -/
def andThen (a : Checked α) (check : α → Checked β) : Checked β :=
  match a with
  | .valid a => check a
  | .invalid first rest => .invalid first rest

/-- Places the complaints about a part below the step that leads to it. -/
def under (step : Step) : Checked α → Checked α
  | .valid a => .valid a
  | .invalid first rest =>
    let place (c : Complaint) : Complaint := ⟨step :: c.place, c.reason⟩
    .invalid (place first) (rest.map place)

/-- All complaints. -/
def complaints : Checked α → List Complaint
  | .valid _ => []
  | .invalid first rest => first :: rest

/-- The valid value. -/
def toOption : Checked α → Option α
  | .valid a => some a
  | .invalid _ _ => none

end Checked

/-- A reading of values of one type. -/
abbrev Check (α : Type) := Value → Checked α

/-- A text. -/
def text : Check String
  | .str s => .valid s
  | _ => .refuse .stringType

/-- A text with at least one character. -/
def nonEmpty : Check String
  | .str s => if s = "" then .refuse .stringTooShort else .valid s
  | _ => .refuse .stringType

/-- A binary64 number: a number, a boolean, or a text that writes a number. -/
def real : Check Double
  | .bool b => .valid (if b then .one else .zero false)
  | .int n =>
    match Double.ofInt? n with
    | some d => .valid d
    | none => .refuse .floatType
  | .real d => .valid d
  | .str s =>
    match Numeral.field? s with
    | some d => .valid d
    | none => .refuse .floatParsing
  | _ => .refuse .floatType

/-- The words for false, in lower case. -/
def falseWords : List String := ["0", "off", "f", "false", "n", "no"]

/-- The words for true, in lower case. -/
def trueWords : List String := ["1", "on", "t", "true", "y", "yes"]

/-- A boolean, one of the numbers zero and one, or one of the words for true and false. -/
def flag : Check Bool
  | .bool b => .valid b
  | .int n =>
    if n = 0 then .valid false
    else if n = 1 then .valid true
    else if -Int.pow 2 63 ≤ n ∧ n < Int.pow 2 63 then .refuse .boolParsing
    else .refuse .boolType
  | .real d =>
    if d.isZero then .valid false else if d = .one then .valid true else .refuse .boolType
  | .str s =>
    let word := s.map Char.toLower
    if word ∈ falseWords then .valid false
    else if word ∈ trueWords then .valid true
    else .refuse .boolParsing
  | _ => .refuse .boolType

/-- An object of any fields. -/
def object : Check Fields
  | .obj fields => .valid fields
  | _ => .refuse .dictType

/-- A list of anything. -/
def anyList : Check (List Value)
  | .list items => .valid items
  | _ => .refuse .listType

/-- Items checked one after another from a given index on. -/
def itemsFrom {α : Type} (check : Check α) : Nat → List Value → Checked (List α)
  | _, [] => .valid []
  | index, item :: rest =>
    (((check item).under (.item index)).map List.cons).apply (itemsFrom check (index + 1) rest)

/-- A list of items of one type. -/
def listOf {α : Type} (check : Check α) : Check (List α)
  | .list items => itemsFrom check 0 items
  | _ => .refuse .listType

/-- A value that may be null. -/
def nullable {α : Type} (check : Check α) : Check (Option α)
  | .null => .valid none
  | v => (check v).map some

/-- A record, read from the fields of an object. -/
def record {α : Type} (read : Fields → Checked α) : Check α
  | .obj fields => read fields
  | _ => .refuse .modelType

/-- A field that must be present. -/
def required {α : Type} (name : String) (check : Check α) (body : Fields) : Checked α :=
  match Entries.get? body name with
  | none => .invalid ⟨[.field name], .missing⟩ []
  | some v => (check v).under (.field name)

/-- A field that has a default when it is absent. -/
def optional {α : Type} (name : String) (check : Check α) (default : α) (body : Fields) :
    Checked α :=
  match Entries.get? body name with
  | none => .valid default
  | some v => (check v).under (.field name)

/-- A field that may be absent or null. -/
def maybe {α : Type} (name : String) (check : Check α) (body : Fields) : Checked (Option α) :=
  optional name (nullable check) none body

/-- The field in which a complaint lies. -/
def Complaint.topField? (c : Complaint) : Option String :=
  match c.place with
  | .field name :: _ => some name
  | _ => none

/-- Reads a record and, where fields have complaints, reads it once more without those fields. It
fails when a complaint is about the whole record, or when what is left does not make a record. -/
def leniently {α : Type} (read : Fields → Checked α) (body : Fields) : Option α :=
  match read body with
  | .valid a => some a
  | .invalid first rest =>
    match (first :: rest).filterMap Complaint.topField? with
    | [] => none
    | bad => (read (body.filter fun field => field.1 ∉ bad)).toOption

/-- The complaints about a value that was to become a record of a named kind. -/
structure Invalid where
  model : String
  first : Complaint
  rest : List Complaint
deriving DecidableEq, Repr

/-- The wording of a failure: the number of complaints, then each on a line of its own. -/
def Invalid.message (failure : Invalid) : String :=
  let complaints := failure.first :: failure.rest
  let count := complaints.length
  let noun := if count = 1 then "error" else "errors"
  let model := failure.model
  "\n".intercalate (s!"{count} validation {noun} for {model}" :: complaints.map Complaint.text)

/-- A checked value as the result of reading a record of a named kind. -/
def Checked.named {α : Type} (model : String) : Checked α → Except Invalid α
  | .valid a => .ok a
  | .invalid first rest => .error ⟨model, first, rest⟩

end LiveSurface.Validation
