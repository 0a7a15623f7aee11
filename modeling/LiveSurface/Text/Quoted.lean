import LiveSurface.Text.Printable

/-!
# Quoted text

A text inside a larger printed value stands between quotes, with escapes for the quote, the
backslash and every character that would not show. `encode` writes the body between the quotes;
`text` and `bytes` are the two quoted forms.
-/
namespace LiveSurface.Text.Quoted

/-- The lower-case hexadecimal digit of a number below sixteen. -/
def hexDigit (n : Nat) : Char :=
  if n < 10 then Char.ofNat (48 + n) else Char.ofNat (87 + n)

/-- The lowest hexadecimal digits of a number, as many as asked for. -/
def hexDigits : Nat → Nat → List Char
  | 0, _ => []
  | count + 1, n => hexDigits count (n / 16) ++ [hexDigit (n % 16)]

/-- A character that does not show is written by the shortest numeric escape that holds it. -/
def numericEscape (c : Char) : List Char :=
  if c.toNat < 0x100 then '\\' :: 'x' :: hexDigits 2 c.toNat
  else if c.toNat < 0x10000 then '\\' :: 'u' :: hexDigits 4 c.toNat
  else '\\' :: 'U' :: hexDigits 8 c.toNat

/-- The written form of one character between given quotes, where `shows` says which characters
need no numeric escape. -/
def encodeChar (shows : Char → Bool) (quote c : Char) : List Char :=
  if c = quote ∨ c = '\\' then ['\\', c]
  else if c = '\t' then ['\\', 't']
  else if c = '\n' then ['\\', 'n']
  else if c = '\r' then ['\\', 'r']
  else if shows c then [c]
  else numericEscape c

/-- The body of a quoted text. -/
def encode (shows : Char → Bool) (quote : Char) (cs : List Char) : List Char :=
  cs.flatMap (encodeChar shows quote)

/-- Single quotes are used unless the text holds one and holds no double quote. -/
def quoteFor (cs : List Char) : Char :=
  if cs.contains '\'' && !cs.contains '"' then '"' else '\''

/-- A text between the quotes it asks for. -/
def between (shows : Char → Bool) (cs : List Char) : List Char :=
  let quote := quoteFor cs
  quote :: (encode shows quote cs ++ [quote])

/-- The quoted form of a text: every printable character shows. -/
def text (s : String) : String :=
  String.ofList (between isPrintable s.toList)

/-- Of bytes only the visible ASCII characters and the space show. -/
def showsAsByte (c : Char) : Bool :=
  32 ≤ c.toNat && c.toNat < 127

/-- The quoted form of bytes, given as one character a byte. -/
def bytes (s : String) : String :=
  String.ofList ('b' :: between showsAsByte s.toList)

end LiveSurface.Text.Quoted
