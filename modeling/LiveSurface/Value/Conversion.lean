import LiveSurface.Number.Numeral
import LiveSurface.Value.Basic
import LiveSurface.Value.Fault

/-!
# Conversions of values

Whole numbers, binary64 numbers, keys, elements and pairs taken from values, with the reason where
a value does not give one.
-/
namespace LiveSurface.Value

/-- Bytes outside ASCII are never part of a numeral. -/
def byteNumeral (s : String) : List Char :=
  s.toList.map fun c => if c.toNat < 128 then c else '?'

/-- The fault of a text that is no whole number; at most 200 characters of it are shown. -/
def wholeFault (written : String) : Numeral.Fault → ValueFault
  | .malformed => .notWhole (String.ofList (written.toList.take 200))
  | .tooLong digits => .tooManyDigits digits

/-- The whole number of a value: truth counts as one, a fraction is cut off, a text is read. -/
def toWhole : Value → Except ValueFault Int
  | .bool b => .ok (if b then 1 else 0)
  | .int n => .ok n
  | .real d =>
    match d.truncate? with
    | some n => .ok n
    | none => .error (match d with | .nan => .notANumber | _ => .infinite)
  | .str s => (Numeral.whole s).mapError (wholeFault (Text.Quoted.text s))
  | .bytes s => (Numeral.wholeAscii (byteNumeral s)).mapError (wholeFault (Text.Quoted.bytes s))
  | v => .error (.notNumeric v.typeName)

/-- The binary64 number of a value, or none when it writes no number. -/
def toReal? : Value → Except ValueFault (Option Double)
  | .bool b => .ok (some (if b then .one else .zero false))
  | .int n =>
    match Double.ofInt? n with
    | some d => .ok (some d)
    | none => .error .tooLarge
  | .real d => .ok (some d)
  | .str s => .ok (Numeral.decimal? s)
  | .bytes s => .ok (Numeral.decimalAscii? (byteNumeral s))
  | _ => .ok none

/-- The key that a value is when something is looked up by text; other plain values are never
found. -/
def toKey? : Value → Except ValueFault (Option String)
  | .str s => .ok (some s)
  | .list items => .error (.unhashable (Value.list items).typeName)
  | .obj fields => .error (.unhashable (Value.obj fields).typeName)
  | _ => .ok none

/-- The parts of a value: the items of a list, the keys of an object, the characters of a text and
the numbers of bytes. -/
def parts? : Value → Option (List Value)
  | .list items => some items
  | .obj fields => some (fields.map fun field => .str field.1)
  | .str s => some (s.toList.map fun c => .str (String.singleton c))
  | .bytes s => some (s.toList.map fun c => .int c.toNat)
  | _ => none

/-- The elements of a value that can be walked through. -/
def elements (v : Value) : Except ValueFault (List Value) :=
  match v.parts? with
  | some parts => .ok parts
  | none => .error (.notIterable v.typeName)

/-- The elements of a value, none of an untrue one. -/
def elementsOrNone (v : Value) : Except ValueFault (List Value) :=
  if v.truth then v.elements else .ok []

/-- The class of keys that a key belongs to: equal numbers are one key whatever their type. -/
def keyClass : Value → Value
  | .bool b => .int (if b then 1 else 0)
  | .real d =>
    match d.toInt? with
    | some n => .int n
    | none => .real d
  | v => v

/-- Whether two keys are one; NaN is no key twice. -/
def sameKey (a b : Value) : Bool :=
  a ≠ .real .nan && a.keyClass = b.keyClass

/-- Puts a value under a key, at the key's place or at the end. -/
def setPair : List (Value × Value) → Value → Value → List (Value × Value)
  | [], key, value => [(key, value)]
  | (k, v) :: rest, key, value =>
    if sameKey k key then (k, value) :: rest else (k, v) :: setPair rest key value

/-- Reads an element of a list of pairs. -/
def toPair (index : Nat) (element : Value) : Except ValueFault (Value × Value) :=
  match element.parts? with
  | none => .error (.notPair index)
  | some [key, value] => do
    discard key.toKey?
    pure (key, value)
  | some parts => .error (.pairLength index parts.length)

/-- Reads the elements of a list of pairs one after another, onto the pairs read before. -/
def pairsFrom (pairs : List (Value × Value)) (index : Nat) :
    List Value → Except ValueFault (List (Value × Value))
  | [] => .ok pairs
  | element :: rest => do
    let (key, value) ← toPair index element
    pairsFrom (setPair pairs key value) (index + 1) rest

/-- The pairs of a value: the fields of an object, or a list of pairs with later ones winning. -/
def pairs : Value → Except ValueFault (List (Value × Value))
  | .obj fields => .ok (fields.map fun field => (.str field.1, field.2))
  | v => do pairsFrom [] 0 (← v.elements)

/-- An object made from the pairs of a value, under the wordings of their keys. -/
def toObject (v : Value) : Except ValueFault Value := do
  let pairs ← v.pairs
  pure (.obj (Entries.update [] (pairs.map fun pair => (pair.1.wording, pair.2))))

end LiveSurface.Value
