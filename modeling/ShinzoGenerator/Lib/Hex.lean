import Mathlib.Data.List.Basic
import Mathlib.Data.UInt

/-! Bytes written as pairs of hexadecimal digits. Writing uses the lowercase
digits; reading accepts both cases, so only lowercase texts are written back as
they were read. -/

set_option autoImplicit false

namespace Hex

def lowerDigits : List Char := "0123456789abcdef".toList

def upperDigits : List Char := "0123456789ABCDEF".toList

/-- The lowercase digit of a value below sixteen. -/
def digit (value : Nat) : Char := lowerDigits.getD value '0'

def value? (char : Char) : Option Nat :=
  match lowerDigits.idxOf? char with
  | some value => some value
  | none => upperDigits.idxOf? char

def encode (bytes : List UInt8) : List Char :=
  bytes.flatMap fun byte => [digit (byte.toNat / 16), digit (byte.toNat % 16)]

/-- Fails on an odd number of digits and on the first character that is no digit. -/
def decode : List Char → Option (List UInt8)
  | [] => some []
  | [_] => none
  | high :: low :: rest => do
      let upper ← value? high
      let lower ← value? low
      let bytes ← decode rest
      some (UInt8.ofNat (upper * 16 + lower) :: bytes)

/-- The bytes before the first pair that is not read. -/
def decodeUpTo : List Char → List UInt8
  | high :: low :: rest =>
      match value? high, value? low with
      | some upper, some lower => UInt8.ofNat (upper * 16 + lower) :: decodeUpTo rest
      | _, _ => []
  | _ => []

/-- Only lowercase digits. -/
def Lower (text : List Char) : Prop := ∀ char ∈ text, char ∈ lowerDigits

instance (text : List Char) : Decidable (Lower text) :=
  List.decidableBAll (fun char : Char => char ∈ lowerDigits) text

theorem lower_append {left right : List Char} :
    Lower (left ++ right) ↔ Lower left ∧ Lower right := List.forall_mem_append

theorem value?_of_lower {char : Char} (lower : char ∈ lowerDigits) :
    ∃ value < 16, value? char = some value ∧ digit value = char := by
  have digits : lowerDigits.all (fun char =>
      (value? char).any fun value => value < 16 ∧ digit value = char) = true := by decide
  have found := List.all_eq_true.mp digits char lower
  rw [Option.any_eq_true] at found
  obtain ⟨value, read, bound⟩ := found
  rw [decide_eq_true_eq] at bound
  exact ⟨value, bound.1, read, bound.2⟩

theorem digit_lower {value : Nat} (small : value < 16) : digit value ∈ lowerDigits := by
  have digits : ∀ value < 16, digit value ∈ lowerDigits := by decide
  exact digits value small

theorem encode_lower (bytes : List UInt8) : Lower (encode bytes) := by
  intro char member
  obtain ⟨byte, _, written⟩ := List.mem_flatMap.mp member
  have bound := byte.toNat_lt
  simp only [List.mem_cons, List.not_mem_nil, or_false] at written
  rcases written with rfl | rfl
  · exact digit_lower (by omega)
  · exact digit_lower (by omega)

@[simp] theorem length_encode (bytes : List UInt8) : (encode bytes).length = 2 * bytes.length := by
  simp [encode, List.length_flatMap, Nat.mul_comm]

/-- An even number of lowercase digits is read, and written back as it was. -/
theorem decode_of_lower : ∀ {text : List Char}, Lower text → text.length % 2 = 0 →
    ∃ bytes, decode text = some bytes ∧ encode bytes = text
  | [], _, _ => ⟨[], rfl, rfl⟩
  | [_], _, even => by simp at even
  | high :: low :: rest, lower, even => by
      obtain ⟨upperValue, upperBound, upperRead, upperDigit⟩ := value?_of_lower (lower high (by simp))
      obtain ⟨lowerValue, lowerBound, lowerRead, lowerDigit⟩ := value?_of_lower (lower low (by simp))
      have restLower : Lower rest := fun char member => lower char (by simp [member])
      have restEven : rest.length % 2 = 0 := by
        simp only [List.length_cons] at even
        omega
      obtain ⟨bytes, restRead, restWritten⟩ := decode_of_lower restLower restEven
      refine ⟨UInt8.ofNat (upperValue * 16 + lowerValue) :: bytes, ?_, ?_⟩
      · simp [decode, upperRead, lowerRead, restRead]
      · have small : upperValue * 16 + lowerValue < 2 ^ 8 := by omega
        have high : (upperValue * 16 + lowerValue) / 16 = upperValue := by omega
        have low : (upperValue * 16 + lowerValue) % 16 = lowerValue := by omega
        simp only [encode, List.flatMap_cons, UInt8.toNat_ofNat', Nat.mod_eq_of_lt small, high, low,
          upperDigit, lowerDigit, List.cons_append, List.nil_append]
        rw [← restWritten]
        rfl

theorem value?_digit {value : Nat} (small : value < 16) : value? (digit value) = some value := by
  have digits : ∀ value < 16, value? (digit value) = some value := by decide
  exact digits value small

/-- The two digits of a byte are read as the byte. -/
theorem encode_cons (byte : UInt8) (bytes : List UInt8) :
    ∃ high low upper lower, encode (byte :: bytes) = high :: low :: encode bytes ∧
      value? high = some upper ∧ value? low = some lower ∧
      UInt8.ofNat (upper * 16 + lower) = byte := by
  have bound := byte.toNat_lt
  have whole : byte.toNat / 16 * 16 + byte.toNat % 16 = byte.toNat := by omega
  refine ⟨_, _, _, _, rfl, value?_digit (show byte.toNat / 16 < 16 by omega),
    value?_digit (show byte.toNat % 16 < 16 by omega), ?_⟩
  rw [whole, UInt8.ofNat_toNat]

/-- What was written is read back. -/
theorem decode_encode (bytes : List UInt8) : decode (encode bytes) = some bytes := by
  induction bytes with
  | nil => rfl
  | cons byte bytes ih =>
      obtain ⟨high, low, upper, lower, written, first, second, read⟩ := encode_cons byte bytes
      simp only [written, decode, first, second, ih, Option.bind_eq_bind, Option.bind_some, read]

theorem decodeUpTo_encode (bytes : List UInt8) : decodeUpTo (encode bytes) = bytes := by
  induction bytes with
  | nil => simp [encode, decodeUpTo]
  | cons byte bytes ih =>
      obtain ⟨high, low, upper, lower, written, first, second, read⟩ := encode_cons byte bytes
      simp only [written, decodeUpTo, first, second, ih, read]

/-! ### Letter case -/

theorem toLower_of_lower {char : Char} (lower : char ∈ lowerDigits) : char.toLower = char := by
  have digits : lowerDigits.all (fun char => char.toLower = char) = true := by decide
  exact of_decide_eq_true (List.all_eq_true.mp digits char lower)

end Hex
