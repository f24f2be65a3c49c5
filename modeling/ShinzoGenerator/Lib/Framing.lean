import Mathlib.Data.List.Basic
import Mathlib.Data.UInt

/-! Length-prefixed records behind each other, closed by a length of zero. -/

set_option autoImplicit false

namespace Framing

/-- The first length that four bytes cannot hold. -/
def lengthLimit : Nat := 4294967296

/-- Four bytes, the highest first; a longer number loses its upper part. -/
def be32 (number : Nat) : List UInt8 :=
  [UInt8.ofNat (number / 16777216), UInt8.ofNat (number / 65536), UInt8.ofNat (number / 256),
    UInt8.ofNat number]

def readBe32 : List UInt8 → Option (Nat × List UInt8)
  | a :: b :: c :: d :: rest =>
      some (((a.toNat * 256 + b.toNat) * 256 + c.toNat) * 256 + d.toNat, rest)
  | _ => none

theorem readBe32_be32 (number : Nat) (rest : List UInt8) :
    readBe32 (be32 number ++ rest) = some (number % lengthLimit, rest) := by
  simp only [be32, List.cons_append, List.nil_append, readBe32, UInt8.toNat_ofNat', lengthLimit,
    Option.some.injEq, Prod.mk.injEq, and_true]
  omega

def sentinel : List UInt8 := be32 0

/-- A record with its length in front. -/
def frame (record : List UInt8) : List UInt8 := be32 record.length ++ record

def frames (records : List (List UInt8)) : List UInt8 := records.flatMap frame

theorem frames_append (first second : List (List UInt8)) :
    frames (first ++ second) = frames first ++ frames second := List.flatMap_append

/-- A record that a frame can carry and that is not taken for the end. -/
def Framed (record : List UInt8) : Prop := record ≠ [] ∧ record.length < lengthLimit

/-- Reads records up to the sentinel; `fuel` bounds their number. -/
def readFrames : Nat → List UInt8 → Option (List (List UInt8) × List UInt8)
  | 0, _ => none
  | fuel + 1, input => do
      let (length, rest) ← readBe32 input
      if length = 0 then some ([], rest)
      else if rest.length < length then none
      else do
        let (records, behind) ← readFrames fuel (rest.drop length)
        some (rest.take length :: records, behind)

theorem readFrames_sentinel (fuel : Nat) (rest : List UInt8) :
    readFrames (fuel + 1) (sentinel ++ rest) = some ([], rest) := by
  rw [readFrames, sentinel, readBe32_be32]
  rfl

theorem readFrames_frame {record : List UInt8} (framed : Framed record) (fuel : Nat) (rest : List UInt8) :
    readFrames (fuel + 1) (frame record ++ rest) =
      (readFrames fuel rest).map fun read => (record :: read.1, read.2) := by
  have size : record.length % lengthLimit = record.length := Nat.mod_eq_of_lt framed.2
  have solid : record.length ≠ 0 := fun empty => framed.1 (List.length_eq_zero_iff.mp empty)
  have enough : ¬ (record ++ rest).length < record.length := by
    rw [List.length_append]
    omega
  have split : frame record ++ rest = be32 record.length ++ (record ++ rest) := by
    rw [frame, List.append_assoc]
  rw [readFrames, split, readBe32_be32, size]
  simp only [Option.bind_eq_bind, Option.bind_some, if_neg solid, if_neg enough, List.drop_left,
    List.take_left]
  cases readFrames fuel rest <;> rfl

/-- Records are read back up to their sentinel. -/
theorem readFrames_frames {records : List (List UInt8)} (framed : ∀ record ∈ records, Framed record)
    (rest : List UInt8) {fuel : Nat} (enough : records.length < fuel) :
    readFrames fuel (frames records ++ sentinel ++ rest) = some (records, rest) := by
  induction records generalizing fuel with
  | nil =>
      cases fuel with
      | zero => cases enough
      | succ fuel => exact readFrames_sentinel fuel rest
  | cons record records ih =>
      cases fuel with
      | zero => cases enough
      | succ fuel =>
          have others := ih (fun other member => framed other (List.mem_cons_of_mem _ member))
            (show records.length < fuel by simpa using enough)
          have split : frames (record :: records) ++ sentinel ++ rest =
              frame record ++ (frames records ++ sentinel ++ rest) := by
            simp [frames]
          rw [split, readFrames_frame (framed record List.mem_cons_self), others]
          rfl

theorem length_frames (records : List (List UInt8)) : records.length ≤ (frames records).length := by
  induction records with
  | nil => exact Nat.zero_le _
  | cons record records ih =>
      simp only [frames, List.flatMap_cons, List.length_append, List.length_cons, frame, be32] at ih ⊢
      omega

/-- The records up to the sentinel, and what follows it. -/
def readAll (input : List UInt8) : Option (List (List UInt8) × List UInt8) :=
  readFrames input.length input

theorem readAll_frames {records : List (List UInt8)} (framed : ∀ record ∈ records, Framed record) :
    readAll (frames records ++ sentinel) = some (records, []) := by
  have size : (sentinel : List UInt8).length = 4 := rfl
  have enough : records.length < (frames records ++ sentinel).length := by
    have bound := length_frames records
    rw [List.length_append, size]
    omega
  have read := readFrames_frames framed [] enough
  rw [List.append_nil] at read
  exact read

end Framing
