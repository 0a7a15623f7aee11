/-!
# Faults of values

Why a value could not be used as asked, and the wording of each reason.
-/
namespace LiveSurface

/-- A value that was not what an operation needs. Types and texts are in their written form. -/
inductive ValueFault
  /-- A value without elements was walked through. -/
  | notIterable (type : String)
  /-- A list or an object was looked up as a key. -/
  | unhashable (type : String)
  /-- A value without a number was asked for a whole number. -/
  | notNumeric (type : String)
  /-- A text that is no whole number. -/
  | notWhole (written : String)
  /-- A text with more digits than are read. -/
  | tooManyDigits (digits : Nat)
  /-- A whole number with more digits than are written. -/
  | unwritten
  /-- A text that only announces the digits of a base. -/
  | noDigits (base : Nat)
  /-- An infinite number was asked for a whole number. -/
  | infinite
  /-- NaN was asked for a whole number. -/
  | notANumber
  /-- A whole number that no binary64 number is near to. -/
  | tooLarge
  /-- A count that no list can have. -/
  | tooMany
  /-- An element of a list of pairs that has no parts. -/
  | notPair (index : Nat)
  /-- An element of a list of pairs with the wrong number of parts. -/
  | pairLength (index length : Nat)
  /-- A value without fields was asked for them. -/
  | noFields (type : String)
  /-- A message was built without some of its parts. -/
  | missingArguments (builder : String) (names : List String)
  /-- A message was built with a part that it does not have. -/
  | unknownArgument (builder name : String)
  /-- A value that has no form in JSON. -/
  | notJson (type : String)
  /-- A path with the null character in it. -/
  | nullInPath
deriving DecidableEq, Repr

namespace ValueFault

/-- Names in a row, with a word before the last one. -/
def listing : List String → String
  | [] => ""
  | [a] => a
  | [a, b] => a ++ " and " ++ b
  | names => ", ".intercalate names.dropLast ++ ", and " ++ names.getLast?.getD ""

/-- The wording of a fault. -/
def message : ValueFault → String
  | notIterable type => s!"'{type}' object is not iterable"
  | unhashable type => s!"unhashable type: '{type}'"
  | notNumeric type =>
    s!"int() argument must be a string, a bytes-like object or a real number, not '{type}'"
  | notWhole written => s!"invalid literal for int() with base 10: {written}"
  | tooManyDigits digits =>
    s!"Exceeds the limit (4300 digits) for integer string conversion: value has {digits} digits; "
      ++ "use sys.set_int_max_str_digits() to increase the limit"
  | unwritten =>
    "Exceeds the limit (4300 digits) for integer string conversion; "
      ++ "use sys.set_int_max_str_digits() to increase the limit"
  | noDigits base => s!"invalid literal for int() with base {base}: ''"
  | infinite => "cannot convert float infinity to integer"
  | notANumber => "cannot convert float NaN to integer"
  | tooLarge => "int too large to convert to float"
  | tooMany => "cannot fit 'int' into an index-sized integer"
  | notPair index => s!"cannot convert dictionary update sequence element #{index} to a sequence"
  | pairLength index length =>
    s!"dictionary update sequence element #{index} has length {length}; 2 is required"
  | noFields type => s!"'{type}' object has no attribute 'items'"
  | missingArguments builder names =>
    let count := names.length
    let noun := if count = 1 then "argument" else "arguments"
    let quoted := listing (names.map fun name => s!"'{name}'")
    s!"{builder}() missing {count} required keyword-only {noun}: {quoted}"
  | unknownArgument builder name => s!"{builder}() got an unexpected keyword argument '{name}'"
  | notJson type => s!"Object of type {type} is not JSON serializable"
  | nullInPath => "embedded null byte"

end ValueFault
end LiveSurface
