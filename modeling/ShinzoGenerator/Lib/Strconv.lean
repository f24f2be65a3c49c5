import Mathlib.Data.Nat.Notation

/-! Reading 64-bit integers as `strconv.ParseInt` does: signs, base prefixes and
underscores, and values that are clamped when they do not fit. Quoting as `strconv.Quote`
does it. -/

set_option autoImplicit false

namespace Strconv

inductive NumError where
  | syntaxError
  | range
deriving DecidableEq, Repr

/-- What stands for a control character behind the backslash. -/
def controlEscape : Nat → List Char
  | 7 => ['a']
  | 8 => ['b']
  | 9 => ['t']
  | 10 => ['n']
  | 11 => ['v']
  | 12 => ['f']
  | 13 => ['r']
  | code => ['x', Nat.digitChar (code / 16), Nat.digitChar (code % 16)]

/-- Code points above ASCII count as printable. -/
def escape (char : Char) : List Char :=
  if char = '"' ∨ char = '\\' then ['\\', char]
  else if char.toNat < 32 ∨ char.toNat = 127 then '\\' :: controlEscape char.toNat
  else [char]

def quote (text : String) : String :=
  "\"" ++ String.ofList (text.toList.flatMap escape) ++ "\""

/-- The error's text for the function and its input. -/
def NumError.text (function input : String) (error : NumError) : String :=
  "strconv." ++ function ++ ": parsing " ++ quote input ++ ": " ++
    match error with
    | .syntaxError => "invalid syntax"
    | .range => "value out of range"

def maxUint64 : Nat := 18446744073709551615
def maxInt64 : Int := 9223372036854775807
def minInt64 : Int := -9223372036854775808

def lowerChar (char : Char) : Char :=
  if 'A' ≤ char ∧ char ≤ 'Z' then Char.ofNat (char.toNat + 32) else char

def digitValue? (char : Char) : Option Nat :=
  if '0' ≤ char ∧ char ≤ '9' then some (char.toNat - '0'.toNat)
  else if 'a' ≤ lowerChar char ∧ lowerChar char ≤ 'z' then
    some ((lowerChar char).toNat - 'a'.toNat + 10)
  else none

/-- The digits one by one; the first that does not fit ends the reading. Underscores are
passed over where a base prefix may stand. -/
def readDigits (base : Nat) (underscores : Bool) : List Char → Nat → Except NumError Nat
  | [], value => .ok value
  | char :: rest, value =>
      if underscores && char = '_' then readDigits base underscores rest value
      else
        match digitValue? char with
        | none => .error .syntaxError
        | some digit =>
            if base ≤ digit then .error .syntaxError
            else if maxUint64 < value * base + digit then .error .range
            else readDigits base underscores rest (value * base + digit)

/-- The base that a leading zero announces, and the digits behind it. -/
def announcedBase : List Char → Nat × List Char
  | ['0'] => (8, [])
  | '0' :: letter :: rest =>
      if rest = [] then (8, letter :: rest)
      else if lowerChar letter = 'b' then (2, rest)
      else if lowerChar letter = 'o' then (8, rest)
      else if lowerChar letter = 'x' then (16, rest)
      else (8, letter :: rest)
  | digits => (10, digits)

/-- What `underscoreOK` saw last. -/
inductive Saw where
  | start
  | digit
  | underscore
  | other
deriving DecidableEq

def underscoresStand (hex : Bool) : List Char → Saw → Bool
  | [], saw => saw ≠ .underscore
  | char :: rest, saw =>
      if ('0' ≤ char ∧ char ≤ '9') ∨ (hex ∧ 'a' ≤ lowerChar char ∧ lowerChar char ≤ 'f') then
        underscoresStand hex rest .digit
      else if char = '_' then
        if saw = .digit then underscoresStand hex rest .underscore else false
      else if saw = .underscore then false
      else underscoresStand hex rest .other

/-- Underscores stand only between digits, or behind a base prefix. -/
def underscoreOK : List Char → Bool
  | '0' :: letter :: rest =>
      if lowerChar letter = 'b' ∨ lowerChar letter = 'o' ∨ lowerChar letter = 'x' then
        underscoresStand (lowerChar letter = 'x') rest .digit
      else underscoresStand false ('0' :: letter :: rest) .start
  | digits => underscoresStand false digits .start

/-- Base zero stands for the announced one. -/
def parseUint (digits : List Char) (base : Nat) : Except NumError Nat :=
  if digits = [] then .error .syntaxError
  else if base = 0 then
    let announced := announcedBase digits
    match readDigits announced.1 true announced.2 0 with
    | .error error => .error error
    | .ok value =>
        if '_' ∈ announced.2 ∧ underscoreOK digits = false then .error .syntaxError else .ok value
  else readDigits base false digits 0

/-- The value is zero on a syntax error and the nearest one on a range error. -/
def parseInt (text : String) (base : Nat) : Int × Option NumError :=
  let signed := text.toList
  let negative := signed.head? = some '-'
  let digits := if negative ∨ signed.head? = some '+' then signed.tail else signed
  match parseUint digits base with
  | .error .syntaxError => (0, some .syntaxError)
  | .error .range => (if negative then minInt64 else maxInt64, some .range)
  | .ok value =>
      if negative then
        if -(value : Int) < minInt64 then (minInt64, some .range) else (-(value : Int), none)
      else if maxInt64 < (value : Int) then (maxInt64, some .range)
      else (value, none)

example : parseInt "0x1b4" 0 = (436, none) ∧ parseInt "-017" 0 = (-15, none) ∧
    parseInt "1_000" 0 = (1000, none) ∧ parseInt "1__0" 0 = (0, some .syntaxError) ∧
    parseInt "9223372036854775808" 10 = (9223372036854775807, some .range) := by
  decide +kernel

/-- Quoting brings in no blank. -/
theorem blank_not_mem_quote {text : String} (plain : ' ' ∉ text.toList) :
    ' ' ∉ (quote text).toList := by
  have escaped : ' ' ∉ text.toList.flatMap escape := by
    intro inside
    obtain ⟨char, member, printed⟩ := List.mem_flatMap.mp inside
    unfold escape at printed
    split at printed
    · rename_i special
      rcases special with rfl | rfl <;> simp at printed
    · split at printed
      · rename_i control
        have bounded : char.toNat < 128 := by omega
        have blankless : ∀ code < 128, ' ' ∉ controlEscape code := by decide
        rcases List.mem_cons.mp printed with slash | printed
        · cases slash
        · exact blankless _ bounded printed
      · rw [List.mem_singleton.mp printed] at plain
        exact plain member
  unfold quote
  rw [String.toList_append, String.toList_append, String.toList_ofList]
  simp [escaped]

end Strconv
