import ShinzoGenerator.Lib.Numerals

/-! Printed numbers. What `%d` and `%x` print is read back as it was, in its own base and,
for decimals, in the base that is announced. -/

set_option autoImplicit false

namespace Strconv

theorem digitValue?_digitChar {digit : Nat} (small : digit < 16) :
    digitValue? digit.digitChar = some digit := by
  have digits : ∀ digit < 16, digitValue? digit.digitChar = some digit := by decide
  exact digits digit small

theorem readDigits_digitChar {base digit value : Nat} (small : digit < base) (most : base ≤ 16)
    (fits : value * base + digit ≤ maxUint64) :
    readDigits base false [digit.digitChar] value = .ok (value * base + digit) := by
  have valued := digitValue?_digitChar (Nat.lt_of_lt_of_le small most)
  simp only [readDigits, Bool.false_and, Bool.false_eq_true, if_false, valued]
  rw [if_neg (Nat.not_le.mpr small), if_neg (Nat.not_lt.mpr fits)]

/-- The digits of a number are worth the number. -/
theorem readDigits_toDigits {base : Nat} (least : 1 < base) (most : base ≤ 16) {number : Nat}
    (fits : number ≤ maxUint64) :
    readDigits base false (Nat.toDigits base number) 0 = .ok number := by
  induction number using Nat.strong_induction_on with
  | _ number hypothesis =>
    by_cases single : number < base
    · rw [Nat.toDigits_of_lt_base single, readDigits_digitChar single most (by omega)]
      simp
    · have shorter : number / base < number :=
        Nat.div_lt_self (by omega) least
      have whole : number / base * base + number % base = number := Nat.div_add_mod' number base
      rw [Nat.toDigits_of_base_le least (Nat.le_of_not_lt single), readDigits_append,
        hypothesis _ shorter (by omega)]
      have last := readDigits_digitChar (Nat.mod_lt number (Nat.lt_of_succ_lt least)) most
        (whole.symm ▸ fits)
      rw [whole] at last
      exact last

/-- A positive number is printed without a leading zero. -/
theorem head_toDigits {base : Nat} (least : 1 < base) (most : base ≤ 16) {number : Nat}
    (positive : 0 < number) : (Nat.toDigits base number).head? ≠ some '0' := by
  induction number using Nat.strong_induction_on with
  | _ number hypothesis =>
    by_cases single : number < base
    · have digits : ∀ digit < 16, 0 < digit → digit.digitChar ≠ '0' := by decide
      rw [Nat.toDigits_of_lt_base single, List.head?_cons, Ne, Option.some.injEq]
      exact digits number (by omega) positive
    · have quotient : 0 < number / base := Nat.div_pos (by omega) (by omega)
      rw [Nat.toDigits_of_base_le least (Nat.le_of_not_lt single),
        List.head?_append_of_ne_nil _ Nat.toDigits_ne_nil]
      exact hypothesis _ (Nat.div_lt_self positive least) quotient

theorem toList_toString (number : Nat) : (toString number).toList = Nat.toDigits 10 number := by
  rw [Nat.toString_eq_ofList_toDigits, String.toList_ofList]

theorem announcedBase_toDigits {number : Nat} (positive : 0 < number) :
    announcedBase (Nat.toDigits 10 number) = (10, Nat.toDigits 10 number) := by
  have lead : (Nat.toDigits 10 number).head? ≠ some '0' :=
    head_toDigits (by decide) (by decide) positive
  unfold announcedBase
  split
  · rename_i spelled
    simp [spelled] at lead
  · rename_i spelled
    simp [spelled] at lead
  · rfl

/-- A printed number is read as itself in base 10 and in the base it announces. -/
theorem parseUint_toDigits {number base : Nat} (fits : number ≤ maxUint64)
    (decimal : base = 0 ∨ base = 10) : parseUint (Nat.toDigits 10 number) base = .ok number := by
  have read : readDigits 10 false (Nat.toDigits 10 number) 0 = .ok number :=
    readDigits_toDigits (by decide) (by decide) fits
  unfold parseUint
  rw [if_neg Nat.toDigits_ne_nil]
  rcases decimal with rfl | rfl
  · rw [if_pos rfl]
    by_cases zero : number = 0
    · subst zero
      rfl
    · rw [announcedBase_toDigits (Nat.pos_of_ne_zero zero)]
      have plain : (Nat.toDigits 10 number).filter (· ≠ '_') = Nat.toDigits 10 number := by
        refine List.filter_eq_self.mpr fun char member => decide_eq_true ?_
        rintro rfl
        exact Nat.underscore_not_in_toDigits member
      simp only [readDigits_true, plain, read, Nat.underscore_not_in_toDigits, false_and, if_false]
  · exact read

theorem unsigned_toDigits (number : Nat) :
    (Nat.toDigits 10 number).head? ≠ some '-' ∧ (Nat.toDigits 10 number).head? ≠ some '+' := by
  have digit : ∀ char, (Nat.toDigits 10 number).head? = some char → char.isDigit = true :=
    fun char first => Nat.isDigit_of_mem_toDigits (by decide) (by decide) (List.mem_of_head? first)
  exact ⟨fun first => absurd (digit _ first) (by decide),
    fun first => absurd (digit _ first) (by decide)⟩

/-- The printed number is read back if it fits, and clamped otherwise. -/
theorem parseInt_toString {number base : Nat} (fits : number ≤ maxUint64)
    (decimal : base = 0 ∨ base = 10) :
    parseInt (toString number) base =
      if maxInt64 < (number : Int) then (maxInt64, some .range) else ((number : Int), none) := by
  obtain ⟨positive, unsigned⟩ := unsigned_toDigits number
  unfold parseInt
  simp only [toList_toString, positive, unsigned, or_self, if_false,
    parseUint_toDigits fits decimal]

end Strconv
