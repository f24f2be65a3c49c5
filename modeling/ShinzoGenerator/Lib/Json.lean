import ShinzoGenerator.Lib.Hex

/-! JSON texts as bytes. The reader follows the standard library's decoder: it takes
one value with space around it, refuses values nested more than ten thousand deep,
and keeps the members of an object in their order, repeated names included. -/

set_option autoImplicit false

namespace Json

abbrev Bytes := List UInt8

/-- The byte of an ASCII character. -/
def byte (char : Char) : UInt8 := UInt8.ofNat char.toNat

def ascii (text : String) : Bytes := text.toList.map byte

inductive Value where
  | null
  | bool (value : Bool)
  | num (text : Bytes)
  | str (text : Bytes)
  | arr (items : List Value)
  | obj (members : List (Bytes × Value))

/-! ### Reading -/

def isSpace (char : UInt8) : Bool :=
  char = byte ' ' || char = byte '\t' || char = byte '\r' || char = byte '\n'

def skipSpace (input : Bytes) : Bytes := input.dropWhile isSpace

/-- A piece of a string: a byte, or a code unit that was written as an escape. -/
inductive Piece where
  | raw (char : UInt8)
  | unit (code : Nat)

def unit? (first second third fourth : UInt8) : Option Nat := do
  let first ← Hex.value? (Char.ofNat first.toNat)
  let second ← Hex.value? (Char.ofNat second.toNat)
  let third ← Hex.value? (Char.ofNat third.toNat)
  let fourth ← Hex.value? (Char.ofNat fourth.toNat)
  some (((first * 16 + second) * 16 + third) * 16 + fourth)

def escaped? (kind : UInt8) : Option UInt8 :=
  if kind = byte '"' ∨ kind = byte '\\' ∨ kind = byte '/' then some kind
  else if kind = byte 'b' then some 8
  else if kind = byte 'f' then some 12
  else if kind = byte 'n' then some 10
  else if kind = byte 'r' then some 13
  else if kind = byte 't' then some 9
  else none

/-- A string behind its opening quote. -/
def parsePieces : Bytes → Option (List Piece × Bytes)
  | [] => none
  | first :: rest =>
      if first = byte '"' then some ([], rest)
      else if first < 32 then none
      else if first = byte '\\' then
        match rest with
        | [] => none
        | kind :: rest =>
            if kind = byte 'u' then
              match rest with
              | a :: b :: c :: d :: rest => do
                  let code ← unit? a b c d
                  let (pieces, rest) ← parsePieces rest
                  some (.unit code :: pieces, rest)
              | _ => none
            else do
              let char ← escaped? kind
              let (pieces, rest) ← parsePieces rest
              some (.raw char :: pieces, rest)
      else do
        let (pieces, rest) ← parsePieces rest
        some (.raw first :: pieces, rest)

def isHighSurrogate (code : Nat) : Bool := 0xD800 ≤ code && code < 0xDC00

def isLowSurrogate (code : Nat) : Bool := 0xDC00 ≤ code && code < 0xE000

/-- A surrogate without its partner is replaced. -/
def encodeUnit (code : Nat) : Bytes :=
  String.utf8EncodeChar
    (Char.ofNat (if isHighSurrogate code || isLowSurrogate code then 0xFFFD else code))

def encodePair (high low : Nat) : Bytes :=
  String.utf8EncodeChar (Char.ofNat (0x10000 + (high - 0xD800) * 0x400 + (low - 0xDC00)))

/-- The text that the pieces of a string stand for. -/
def render : List Piece → Bytes
  | [] => []
  | .raw char :: rest => char :: render rest
  | .unit high :: .unit low :: rest =>
      if isHighSurrogate high && isLowSurrogate low then encodePair high low ++ render rest
      else encodeUnit high ++ render (.unit low :: rest)
  | .unit code :: rest => encodeUnit code ++ render rest

def isDigit (char : UInt8) : Bool := byte '0' ≤ char && char ≤ byte '9'

def parseDigits (input : Bytes) : Option (Bytes × Bytes) :=
  if input.takeWhile isDigit = [] then none
  else some (input.takeWhile isDigit, input.dropWhile isDigit)

/-- No other digit follows a leading zero. -/
def parseWhole : Bytes → Option (Bytes × Bytes)
  | [] => none
  | first :: rest =>
      if first = byte '0' then some ([first], rest) else parseDigits (first :: rest)

def parseFraction : Bytes → Option (Bytes × Bytes)
  | [] => some ([], [])
  | first :: rest =>
      if first = byte '.' then (parseDigits rest).map fun read => (first :: read.1, read.2)
      else some ([], first :: rest)

def parseSigned : Bytes → Option (Bytes × Bytes)
  | [] => none
  | first :: rest =>
      if first = byte '+' ∨ first = byte '-' then
        (parseDigits rest).map fun read => (first :: read.1, read.2)
      else parseDigits (first :: rest)

def parseExponent : Bytes → Option (Bytes × Bytes)
  | [] => some ([], [])
  | first :: rest =>
      if first = byte 'e' ∨ first = byte 'E' then
        (parseSigned rest).map fun read => (first :: read.1, read.2)
      else some ([], first :: rest)

def parseMagnitude (input : Bytes) : Option (Bytes × Bytes) := do
  let (whole, rest) ← parseWhole input
  let (fraction, rest) ← parseFraction rest
  let (exponent, rest) ← parseExponent rest
  some (whole ++ fraction ++ exponent, rest)

/-- The text of a number. -/
def parseNumber : Bytes → Option (Bytes × Bytes)
  | [] => none
  | first :: rest =>
      if first = byte '-' then (parseMagnitude rest).map fun read => (first :: read.1, read.2)
      else parseMagnitude (first :: rest)

def parseWord (word : String) (value : Value) (input : Bytes) : Option (Value × Bytes) :=
  if (ascii word).isPrefixOf input then some (value, input.drop word.length) else none

def parseScalar : Bytes → Option (Value × Bytes)
  | [] => none
  | first :: rest =>
      if first = byte '"' then (parsePieces rest).map fun read => (.str (render read.1), read.2)
      else if first = byte 't' then parseWord "true" (.bool true) (first :: rest)
      else if first = byte 'f' then parseWord "false" (.bool false) (first :: rest)
      else if first = byte 'n' then parseWord "null" .null (first :: rest)
      else (parseNumber (first :: rest)).map fun read => (.num read.1, read.2)

section Nested

variable (value : Bytes → Option (Value × Bytes))

/-- The items of an array up to its end; `fuel` bounds their number. -/
def parseItems : Nat → Bytes → Option (List Value × Bytes)
  | 0, _ => none
  | fuel + 1, input => do
      let (item, rest) ← value (skipSpace input)
      match skipSpace rest with
      | [] => none
      | next :: rest =>
          if next = byte ']' then some ([item], rest)
          else if next = byte ',' then do
            let (items, rest) ← parseItems fuel rest
            some (item :: items, rest)
          else none

def parseArray (input : Bytes) : Option (Value × Bytes) :=
  match skipSpace input with
  | [] => none
  | first :: rest =>
      if first = byte ']' then some (.arr [], rest)
      else (parseItems value input.length input).map fun read => (.arr read.1, read.2)

/-- A member of an object behind the space before its name. -/
def parseMember : Bytes → Option ((Bytes × Value) × Bytes)
  | [] => none
  | first :: rest =>
      if first = byte '"' then do
        let (name, rest) ← parsePieces rest
        match skipSpace rest with
        | [] => none
        | colon :: rest =>
            if colon = byte ':' then do
              let (member, rest) ← value (skipSpace rest)
              some ((render name, member), rest)
            else none
      else none

def parseMembers : Nat → Bytes → Option (List (Bytes × Value) × Bytes)
  | 0, _ => none
  | fuel + 1, input => do
      let (member, rest) ← parseMember value (skipSpace input)
      match skipSpace rest with
      | [] => none
      | next :: rest =>
          if next = byte '}' then some ([member], rest)
          else if next = byte ',' then do
            let (members, rest) ← parseMembers fuel rest
            some (member :: members, rest)
          else none

def parseObject (input : Bytes) : Option (Value × Bytes) :=
  match skipSpace input with
  | [] => none
  | first :: rest =>
      if first = byte '}' then some (.obj [], rest)
      else (parseMembers value input.length input).map fun read => (.obj read.1, read.2)

end Nested

/-- A value at the head of the input; `depth` bounds the nesting. -/
def parseValue : Nat → Bytes → Option (Value × Bytes)
  | 0, input => parseScalar input
  | _ + 1, [] => none
  | depth + 1, first :: rest =>
      if first = byte '{' then parseObject (parseValue depth) rest
      else if first = byte '[' then parseArray (parseValue depth) rest
      else parseScalar (first :: rest)

def maxNestingDepth : Nat := 10000

/-- A text that is one value with space around it. -/
def unmarshal (input : Bytes) : Option Value := do
  let (value, rest) ← parseValue maxNestingDepth (skipSpace input)
  if skipSpace rest = [] then some value else none

/-! ### Numbers as floats -/

/-- Half a step above the largest 64-bit float; numbers from here on are refused. -/
def floatLimit : Nat := Nat.pow 2 1024 - Nat.pow 2 970

def digitsValue (digits : Bytes) : Nat :=
  digits.foldl (fun value digit => value * 10 + (digit - byte '0').toNat) 0

/-- The exponent that a text with its letter in front stands for. -/
def exponentValue : Bytes → Int
  | [] => 0
  | _ :: digits =>
      if digits.head? = some (byte '-') then -(digitsValue digits.tail : Int)
      else if digits.head? = some (byte '+') then digitsValue digits.tail
      else digitsValue digits

/-- Whether the number of a text is inside the range of 64-bit floats. -/
def fitsFloat (text : Bytes) : Bool :=
  let isMantissa := fun char : UInt8 => char ≠ byte 'e' ∧ char ≠ byte 'E'
  let mantissa := text.takeWhile isMantissa
  let decimals := (mantissa.dropWhile fun char => char ≠ byte '.').length - 1
  let digits := (mantissa.filter isDigit).dropWhile fun char => char = byte '0'
  -- the number of digits in front of the point, without leading zeros
  let size : Int := digits.length - decimals + exponentValue (text.dropWhile isMantissa)
  if digits.isEmpty ∨ size < 309 then true
  else if 309 < size then false
  else
    digitsValue digits * Nat.pow 10 (309 - digits.length) <
      floatLimit * Nat.pow 10 (digits.length - 309)

example : fitsFloat (ascii "-179.76931348623158e306") = true ∧
    fitsFloat (ascii "1.7976931348623159E+308") = false := by decide +kernel

mutual

/-- Whether every number inside a value is in range. -/
def Value.fits : Value → Bool
  | .num text => fitsFloat text
  | .arr items => fitItems items
  | .obj members => fitMembers members
  | .null | .bool _ | .str _ => true

def fitItems : List Value → Bool
  | [] => true
  | item :: items => item.fits && fitItems items

def fitMembers : List (Bytes × Value) → Bool
  | [] => true
  | (_, value) :: members => value.fits && fitMembers members

end

/-! ### Writing -/

/-- Bytes that a string holds as they are. -/
def isPlain (char : UInt8) : Bool :=
  32 ≤ char && char < 128 && char != byte '"' && char != byte '\\' && char != byte '<' &&
    char != byte '>' && char != byte '&'

/-- A text that is written between quotes without an escape. -/
structure PlainText where
  text : Bytes
  plain : text.all isPlain = true

def quoted (text : Bytes) : Bytes := byte '"' :: text ++ [byte '"']

def marshalInt (number : Int) : Bytes := ascii (toString number)

/-- The texts with commas between them. -/
def commas : List Bytes → Bytes
  | [] => []
  | [text] => text
  | text :: next :: texts => text ++ byte ',' :: commas (next :: texts)

def marshalArray (items : List Bytes) : Bytes := byte '[' :: commas items ++ [byte ']']

def marshalMember (member : PlainText × Bytes) : Bytes :=
  quoted member.1.text ++ byte ':' :: member.2

def marshalObject (members : List (PlainText × Bytes)) : Bytes :=
  byte '{' :: commas (members.map marshalMember) ++ [byte '}']

end Json
