import Mathlib.Data.Nat.Digits.Defs
import Mathlib.Data.Nat.Digits.Lemmas
import ShinzoGenerator.Lib.Strconv

/-! Numerals that `strconv.ParseInt` reads alike with base 0, where a leading zero announces
the base and underscores are passed over, and with base 10, where errors are dropped. -/

set_option autoImplicit false

namespace Strconv

/-! ### Digits -/

/-- A decimal digit's value determines it. -/
theorem eq_of_digitValue? {char : Char} {digit : Nat} (valued : digitValue? char = some digit)
    (decimal : digit < 10) : char = Char.ofNat (digit + 48) := by
  unfold digitValue? at valued
  split at valued
  · rename_i range
    have low : 48 ≤ char.toNat := range.1
    cases valued
    change char = Char.ofNat (char.toNat - 48 + 48)
    rw [Nat.sub_add_cancel low, Char.ofNat_toNat]
  · split at valued
    · cases valued
      omega
    · cases valued

theorem eq_zero_of_digitValue? {char : Char} (valued : digitValue? char = some 0) : char = '0' :=
  eq_of_digitValue? valued (by decide)

/-- The letter of a base prefix is no decimal digit. -/
theorem digitValue?_letter {char : Char}
    (letter : lowerChar char = 'b' ∨ lowerChar char = 'o' ∨ lowerChar char = 'x') :
    ∃ digit, digitValue? char = some digit ∧ 10 ≤ digit := by
  have range : 'a' ≤ lowerChar char ∧ lowerChar char ≤ 'z' := by
    rcases letter with same | same | same <;> rw [same] <;> decide
  have high : ¬ ('0' ≤ char ∧ char ≤ '9') := by
    intro decimal
    have small : ¬ ('A' ≤ char ∧ char ≤ 'Z') := fun upper =>
      absurd (Char.le_trans upper.1 decimal.2) (by decide)
    rw [lowerChar, if_neg small] at range
    exact absurd (Char.le_trans range.1 decimal.2) (by decide)
  exact ⟨_, by rw [digitValue?, if_neg high, if_pos range], Nat.le_add_left _ _⟩

/-! ### Reading -/

theorem readDigits_true (base : Nat) (chars : List Char) (value : Nat) :
    readDigits base true chars value = readDigits base false (chars.filter (· ≠ '_')) value := by
  induction chars generalizing value with
  | nil => rfl
  | cons char chars hypothesis =>
    by_cases underscore : char = '_'
    · simp [readDigits, underscore, hypothesis]
    · simp [readDigits, underscore, hypothesis]

theorem readDigits_append (base : Nat) (front back : List Char) (value : Nat) :
    readDigits base false (front ++ back) value =
      (readDigits base false front value).bind (readDigits base false back) := by
  induction front generalizing value with
  | nil => rfl
  | cons char front hypothesis =>
    simp only [List.cons_append, readDigits, Bool.false_and, Bool.false_eq_true, if_false]
    split
    · rfl
    · split
      · rfl
      · split
        · rfl
        · exact hypothesis _

/-- One digit is read, and then the others. -/
theorem readDigits_cons_ok {base : Nat} {char : Char} {chars : List Char} {value result : Nat}
    (read : readDigits base false (char :: chars) value = .ok result) :
    ∃ digit, digitValue? char = some digit ∧ digit < base ∧
      readDigits base false chars (value * base + digit) = .ok result := by
  simp only [readDigits, Bool.false_and, Bool.false_eq_true, if_false] at read
  cases valued : digitValue? char with
  | none => simp [valued] at read
  | some digit =>
    simp only [valued] at read
    split at read
    · cases read
    · rename_i small
      split at read
      · cases read
      · exact ⟨digit, rfl, Nat.lt_of_not_le small, read⟩

/-- The digits before an underscore are all that base 10 reads. -/
theorem readDigits_underscore {base : Nat} {front back : List Char} {value result : Nat}
    (read : readDigits base false front value = .ok result) :
    readDigits base false (front ++ '_' :: back) value = .error .syntaxError := by
  rw [readDigits_append, read]
  rfl

theorem le_of_readDigits {base : Nat} (positive : 0 < base) {chars : List Char}
    {value result : Nat} (read : readDigits base false chars value = .ok result) :
    value ≤ result := by
  induction chars generalizing value with
  | nil =>
    cases read
    exact Nat.le_refl _
  | cons char chars hypothesis =>
    obtain ⟨digit, _, _, later⟩ := readDigits_cons_ok read
    have grown : value ≤ value * base := Nat.le_mul_of_pos_right value positive
    exact (grown.trans (Nat.le_add_right _ _)).trans (hypothesis later)

theorem readDigits_eq_zero_iff {base : Nat} (positive : 0 < base) {chars : List Char}
    {result : Nat} (read : readDigits base false chars 0 = .ok result) :
    result = 0 ↔ ∀ char ∈ chars, char = '0' := by
  induction chars with
  | nil =>
    cases read
    simp
  | cons char chars hypothesis =>
    obtain ⟨digit, valued, _, later⟩ := readDigits_cons_ok read
    rw [Nat.zero_mul, Nat.zero_add] at later
    constructor
    · intro zero
      have none : digit = 0 := Nat.le_zero.mp (zero ▸ le_of_readDigits positive later)
      subst none
      exact List.forall_mem_cons.mpr ⟨eq_zero_of_digitValue? valued, (hypothesis later).mp zero⟩
    · intro zeros
      obtain ⟨rfl, others⟩ := List.forall_mem_cons.mp zeros
      cases valued
      exact (hypothesis later).mpr others

theorem readDigits_zero (base : Nat) (positive : 0 < base) (chars : List Char) :
    readDigits base false ('0' :: chars) 0 = readDigits base false chars 0 := by
  have valued : digitValue? '0' = some 0 := rfl
  simp [readDigits, valued, positive.ne']

/-- The same digits are worth more in the larger base. -/
theorem readDigits_octal_le {chars : List Char} {octal decimal less more : Nat}
    (readOctal : readDigits 8 false chars less = .ok octal)
    (readDecimal : readDigits 10 false chars more = .ok decimal) (ordered : less ≤ more) :
    octal ≤ decimal ∧ (less < more → octal < decimal) := by
  induction chars generalizing less more with
  | nil =>
    cases readOctal
    cases readDecimal
    exact ⟨ordered, id⟩
  | cons char chars hypothesis =>
    obtain ⟨digit, valued, _, laterOctal⟩ := readDigits_cons_ok readOctal
    obtain ⟨same, valuedSame, _, laterDecimal⟩ := readDigits_cons_ok readDecimal
    rw [valued] at valuedSame
    cases valuedSame
    obtain ⟨least, strict⟩ := hypothesis laterOctal laterDecimal (by omega)
    exact ⟨least, fun _ => strict (by omega)⟩

/-- The digits in the usual order of their weights. -/
def digitValues (chars : List Char) : List Nat :=
  (chars.map fun char => (digitValue? char).getD 0).reverse

theorem readDigits_ofDigits {base : Nat} {chars : List Char} {value result : Nat}
    (read : readDigits base false chars value = .ok result) :
    (∀ char ∈ chars, ∃ digit, digitValue? char = some digit ∧ digit < base) ∧
      result = value * base ^ chars.length + Nat.ofDigits base (digitValues chars) := by
  induction chars generalizing value with
  | nil =>
    cases read
    simp [digitValues]
  | cons char chars hypothesis =>
    obtain ⟨digit, valued, small, later⟩ := readDigits_cons_ok read
    obtain ⟨others, total⟩ := hypothesis later
    refine ⟨List.forall_mem_cons.mpr ⟨⟨digit, valued, small⟩, others⟩, ?_⟩
    have split : digitValues (char :: chars) = digitValues chars ++ [digit] := by
      simp [digitValues, valued]
    have length : (digitValues chars).length = chars.length := by simp [digitValues]
    rw [total, split, Nat.ofDigits_append, length, Nat.ofDigits_singleton, List.length_cons,
      pow_succ]
    ring

theorem eq_map_digitValues {chars : List Char}
    (decimals : ∀ char ∈ chars, ∃ digit, digitValue? char = some digit ∧ digit < 10) :
    chars = (digitValues chars).reverse.map fun digit => Char.ofNat (digit + 48) := by
  have each : ∀ char ∈ chars,
      Char.ofNat ((digitValue? char).getD 0 + 48) = id char := by
    intro char member
    obtain ⟨digit, found, small⟩ := decimals char member
    rw [found, id, eq_of_digitValue? found small]
    rfl
  rw [digitValues, List.reverse_reverse, List.map_map]
  exact ((List.map_congr_left each).trans (List.map_id chars)).symm

/-- Without a leading zero, the digits are those of the value. -/
theorem digits_eq_digitValues {base : Nat} (large : 1 < base) {chars : List Char} {result : Nat}
    (read : readDigits base false chars 0 = .ok result) (lead : chars.head? ≠ some '0') :
    Nat.digits base result = digitValues chars := by
  obtain ⟨valued, total⟩ := readDigits_ofDigits read
  rw [total, Nat.zero_mul, Nat.zero_add]
  apply Nat.digits_ofDigits base large
  · intro digit listed
    simp only [digitValues, List.mem_reverse, List.mem_map] at listed
    obtain ⟨char, member, rfl⟩ := listed
    obtain ⟨digit, found, small⟩ := valued char member
    rw [found]
    exact small
  · intro nonempty
    cases chars with
    | nil => exact absurd rfl nonempty
    | cons char chars =>
      obtain ⟨digit, found, small⟩ := valued char (.head _)
      have last : digitValues (char :: chars) = digitValues chars ++ [digit] := by
        simp [digitValues, found]
      intro zero
      simp only [last, List.getLast_append_singleton] at zero
      subst zero
      exact lead (by rw [List.head?_cons, eq_zero_of_digitValue? found])

/-- A value has one numeral without leading zeros. -/
theorem readDigits_inj {base : Nat} (large : 1 < base) (decimal : base ≤ 10)
    {left right : List Char} {result : Nat}
    (readLeft : readDigits base false left 0 = .ok result)
    (readRight : readDigits base false right 0 = .ok result)
    (leadLeft : left.head? ≠ some '0') (leadRight : right.head? ≠ some '0') : left = right := by
  have decimals : ∀ {chars : List Char}, readDigits base false chars 0 = .ok result →
      ∀ char ∈ chars, ∃ digit, digitValue? char = some digit ∧ digit < 10 := by
    intro chars read char member
    obtain ⟨digit, found, small⟩ := (readDigits_ofDigits read).1 char member
    exact ⟨digit, found, small.trans_le decimal⟩
  rw [eq_map_digitValues (decimals readLeft), eq_map_digitValues (decimals readRight),
    ← digits_eq_digitValues large readLeft leadLeft, digits_eq_digitValues large readRight leadRight]

/-! ### The ends of the range -/

/-- How far a value of the sign may be from zero. -/
def limit (negative : Bool) : Nat := if negative then 9223372036854775808 else 9223372036854775807

/-- The octal numeral of the limit. -/
def limitDigits (negative : Bool) : List Char :=
  if negative then '1' :: List.replicate 21 '0' else List.replicate 21 '7'

theorem readDigits_limitDigits (negative : Bool) :
    readDigits 8 false (limitDigits negative) 0 = .ok (limit negative) := by
  cases negative <;> decide

theorem limitDigits_lead (negative : Bool) : (limitDigits negative).head? ≠ some '0' := by
  cases negative <;> decide

/-- In base 10 these digits go out of range at the last but one, and not before. -/
theorem readDigits_limitDigits_take (negative : Bool) :
    readDigits 10 false ((limitDigits negative).take ((limitDigits negative).length - 1)) 0 =
        .error .range ∧
      ∀ count < (limitDigits negative).length - 1,
        ∃ value, readDigits 10 false ((limitDigits negative).take count) 0 = .ok value := by
  have within : ∀ count < (limitDigits negative).length - 1,
      (readDigits 10 false ((limitDigits negative).take count) 0).toOption.isSome := by
    cases negative <;> decide
  refine ⟨by cases negative <;> decide, fun count few => ?_⟩
  obtain ⟨value, found⟩ := Option.isSome_iff_exists.mp (within count few)
  cases read : readDigits 10 false ((limitDigits negative).take count) 0 with
  | error error => simp [read, Except.toOption] at found
  | ok value => exact ⟨value, rfl⟩

/-- Without underscores the characters are the octal numeral of the limit; base 10 goes out
of range before the first underscore. -/
def Saturated (negative : Bool) (chars : List Char) : Prop :=
  chars.filter (· ≠ '_') = limitDigits negative ∧
    '_' ∉ chars.take ((limitDigits negative).length - 1)

theorem filter_underscore_of_not_mem {chars : List Char} (none : '_' ∉ chars) :
    chars.filter (· ≠ '_') = chars :=
  List.filter_eq_self.mpr fun _ member => decide_eq_true fun same => none (same ▸ member)

/-- What stands before the first underscore begins the numeral. -/
theorem eq_take_of_filter {front back numeral : List Char} (none : '_' ∉ front)
    (filtered : (front ++ back).filter (· ≠ '_') = numeral) :
    front = numeral.take front.length := by
  rw [List.filter_append, filter_underscore_of_not_mem none] at filtered
  rw [← filtered, List.take_left]

theorem saturated_iff_range {negative : Bool} {chars : List Char}
    (numeral : chars.filter (· ≠ '_') = limitDigits negative) :
    Saturated negative chars ↔ readDigits 10 false chars 0 = .error .range := by
  obtain ⟨early, before⟩ := readDigits_limitDigits_take negative
  have split := List.take_append_drop ((limitDigits negative).length - 1) chars
  rw [Saturated, and_iff_right numeral]
  constructor
  · intro late
    have long : (limitDigits negative).length ≤ chars.length :=
      numeral ▸ List.length_filter_le _ _
    have front := eq_take_of_filter late (split.symm ▸ numeral)
    rw [List.length_take, min_eq_left (by omega)] at front
    rw [← split, readDigits_append, front, early]
    rfl
  · intro range inside
    obtain ⟨front, back, parted, none⟩ := List.eq_append_cons_of_mem inside
    rw [parted, List.append_assoc] at split
    have short : front.length < (limitDigits negative).length - 1 := by
      have length := congrArg List.length parted
      rw [List.length_take, List.length_append, List.length_cons] at length
      omega
    obtain ⟨value, read⟩ := before front.length short
    rw [← eq_take_of_filter none (split.symm ▸ numeral)] at read
    rw [← split, List.cons_append, readDigits_underscore read] at range
    cases range

/-! ### Octal numerals in base 10 -/

/-- The distance from zero that is returned, clamped or zero on an error. -/
def magnitude (negative : Bool) : Except NumError Nat → Nat
  | .ok value => min value (limit negative)
  | .error .syntaxError => 0
  | .error .range => limit negative

theorem underscore_not_mem_of_readDigits {base : Nat} {chars : List Char} {value result : Nat}
    (read : readDigits base false chars value = .ok result) : '_' ∉ chars := by
  intro inside
  obtain ⟨digit, valued, _⟩ := (readDigits_ofDigits read).1 '_' inside
  have none : digitValue? '_' = none := by decide
  rw [none] at valued
  cases valued

theorem readDigits_single {char : Char} {value : Nat}
    (read : readDigits 8 false [char] 0 = .ok value) : readDigits 10 false [char] 0 = .ok value := by
  obtain ⟨digit, valued, small, rest⟩ := readDigits_cons_ok read
  cases rest
  have decimal : ¬ 10 ≤ digit := by omega
  have fits : ¬ maxUint64 < digit := by
    unfold maxUint64
    omega
  simp [readDigits, valued, decimal, fits]

/-- From the second digit on, the decimal reading is ahead. -/
theorem readDigits_octal_lt {first second : Char} {chars : List Char} {octal decimal : Nat}
    (lead : first ≠ '0')
    (readOctal : readDigits 8 false (first :: second :: chars) 0 = .ok octal)
    (readDecimal : readDigits 10 false (first :: second :: chars) 0 = .ok decimal) :
    octal < decimal := by
  obtain ⟨digit, valued, _, laterOctal⟩ := readDigits_cons_ok readOctal
  obtain ⟨same, valuedSame, _, laterDecimal⟩ := readDigits_cons_ok readDecimal
  rw [valued] at valuedSame
  cases valuedSame
  have positive : digit ≠ 0 := fun zero => lead (eq_zero_of_digitValue? (zero ▸ valued))
  obtain ⟨next, valued, _, lastOctal⟩ := readDigits_cons_ok laterOctal
  obtain ⟨same, valuedSame, _, lastDecimal⟩ := readDigits_cons_ok laterDecimal
  rw [valued] at valuedSame
  cases valuedSame
  exact (readDigits_octal_le lastOctal lastDecimal (by omega)).2 (by omega)

theorem Saturated.value {negative : Bool} {chars : List Char} {value : Nat}
    (saturated : Saturated negative chars)
    (read : readDigits 8 false (chars.filter (· ≠ '_')) 0 = .ok value) :
    value = limit negative := by
  rw [saturated.1, readDigits_limitDigits] at read
  exact (Except.ok.inj read).symm

theorem significant_ne_zero {base : Nat} {first : Char} {chars : List Char} {value : Nat}
    (lead : first ≠ '0') (digit : first ≠ '_') (positive : 0 < base)
    (read : readDigits base false ((first :: chars).filter (· ≠ '_')) 0 = .ok value) :
    value ≠ 0 := by
  intro zero
  have zeros := (readDigits_eq_zero_iff positive read).mp zero
  exact lead (zeros first (List.mem_filter.mpr ⟨.head _, decide_eq_true digit⟩))

/-- A numeral that begins with an octal digit other than zero. -/
theorem magnitude_significant {negative : Bool} {first : Char} {chars : List Char} {value : Nat}
    (lead : first ≠ '0') (digit : first ≠ '_')
    (read : readDigits 8 false ((first :: chars).filter (· ≠ '_')) 0 = .ok value)
    (fits : value ≤ limit negative) :
    magnitude negative (readDigits 10 false (first :: chars) 0) = value ↔
      chars = [] ∨ Saturated negative (first :: chars) := by
  have front : (first :: chars).filter (· ≠ '_') = first :: chars.filter (· ≠ '_') := by
    simp [digit]
  have positive := significant_ne_zero lead digit (by decide) read
  have numeral : value = limit negative →
      (first :: chars).filter (· ≠ '_') = limitDigits negative := by
    intro same
    subst same
    refine readDigits_inj (by decide) (by decide) read (readDigits_limitDigits negative) ?_
      (limitDigits_lead negative)
    rw [front, List.head?_cons]
    exact fun same => lead (Option.some.inj same)
  have single : chars = [] → readDigits 10 false (first :: chars) 0 = .ok value := by
    intro none
    subst none
    exact readDigits_single (front ▸ read)
  cases decimal : readDigits 10 false (first :: chars) 0 with
  | error error =>
    have several : chars ≠ [] := fun none => by
      rw [single none] at decimal
      cases decimal
    rw [or_iff_right several]
    cases error with
    | syntaxError =>
      refine iff_of_false (fun zero => positive zero.symm) fun saturated => ?_
      rw [(saturated_iff_range saturated.1).mp saturated] at decimal
      cases decimal
    | range =>
      constructor
      · intro same
        exact (saturated_iff_range (numeral same.symm)).mpr decimal
      · intro saturated
        exact (saturated.value read).symm
  | ok result =>
    have plain := filter_underscore_of_not_mem (underscore_not_mem_of_readDigits decimal)
    have unsaturated : ¬ Saturated negative (first :: chars) := by
      intro saturated
      rw [(saturated_iff_range saturated.1).mp saturated] at decimal
      cases decimal
    rw [or_iff_left unsaturated]
    cases chars with
    | nil =>
      rw [single rfl] at decimal
      cases decimal
      exact iff_of_true (min_eq_left fits) rfl
    | cons second chars =>
      have ahead := readDigits_octal_lt lead (plain ▸ read) decimal
      refine iff_of_false (fun same => unsaturated ?_) (by simp)
      have most : value = limit negative := by
        have clamped : min result (limit negative) = value := same
        omega
      refine ⟨numeral most, fun early => ?_⟩
      exact underscore_not_mem_of_readDigits decimal (List.mem_of_mem_take early)

/-- The octal reading agrees with the decimal one for zero, for a single digit behind
zeros, and at the limit. -/
theorem magnitude_octal {negative : Bool} {chars : List Char} {value : Nat}
    (read : readDigits 8 false (chars.filter (· ≠ '_')) 0 = .ok value)
    (fits : value ≤ limit negative) :
    magnitude negative (readDigits 10 false chars 0) = value ↔
      value = 0 ∨ (∀ char ∈ chars.dropLast, char = '0') ∨
        Saturated negative (chars.dropWhile (· = '0')) := by
  induction chars with
  | nil =>
    cases read
    exact iff_of_true (Nat.zero_min _) (.inl rfl)
  | cons first chars hypothesis =>
    by_cases zero : first = '0'
    · subst zero
      have front : ('0' :: chars).filter (· ≠ '_') = '0' :: chars.filter (· ≠ '_') := by simp
      rw [front, readDigits_zero 8 (by decide)] at read
      rw [readDigits_zero 10 (by decide), hypothesis read, List.dropWhile_cons_of_pos (by simp)]
      cases chars with
      | nil =>
        cases read
        exact iff_of_true (.inl rfl) (.inl rfl)
      | cons second chars => simp
    · rw [List.dropWhile_cons_of_neg (by simpa using zero)]
      by_cases underscore : first = '_'
      · subst underscore
        have unread : readDigits 10 false ('_' :: chars) 0 = .error .syntaxError := rfl
        rw [unread]
        constructor
        · intro same
          exact .inl same.symm
        · intro agreed
          rcases agreed with none | zeros | saturated
          · exact none.symm
          · cases chars with
            | nil =>
              cases read
              rfl
            | cons second chars => exact absurd (zeros '_' (by simp)) (by decide)
          · refine absurd saturated.2 (not_not.mpr ?_)
            cases negative <;> exact .head _
      · have positive := significant_ne_zero zero underscore (by decide) read
        rw [magnitude_significant zero underscore read fits, or_iff_right positive]
        have several : chars = [] ↔ ∀ char ∈ (first :: chars).dropLast, char = '0' := by
          cases chars with
          | nil => simp
          | cons second chars => simp [zero]
        rw [several]

/-! ### Announced bases -/

/-- The ways a base is announced. -/
inductive Announced (digits : List Char) : Nat × List Char → Prop where
  | decimal (lead : digits.head? ≠ some '0') : Announced digits (10, digits)
  | lettered {base : Nat} {letter : Char} {rest : List Char}
      (shape : digits = '0' :: letter :: rest) (several : rest ≠ []) (positive : 0 < base)
      (named : lowerChar letter = 'b' ∨ lowerChar letter = 'o' ∨ lowerChar letter = 'x') :
      Announced digits (base, rest)
  | octal {rest : List Char} (shape : digits = '0' :: rest) : Announced digits (8, rest)

theorem announced (digits : List Char) : Announced digits (announcedBase digits) := by
  unfold announcedBase
  split
  · exact .octal rfl
  · rename_i letter rest
    split
    · exact .octal rfl
    · rename_i several
      split
      · rename_i named
        exact .lettered rfl several (by decide) (.inl named)
      · split
        · rename_i named
          exact .lettered rfl several (by decide) (.inr (.inl named))
        · split
          · rename_i named
            exact .lettered rfl several (by decide) (.inr (.inr named))
          · exact .octal rfl
  · rename_i notSingle notMore
    refine .decimal fun lead => ?_
    cases digits with
    | nil => cases lead
    | cons first rest =>
      cases lead
      cases rest with
      | nil => exact notSingle rfl
      | cons letter rest => exact notMore letter rest rfl

theorem parseUint_zero_ok {digits : List Char} {value : Nat}
    (read : parseUint digits 0 = .ok value) :
    digits ≠ [] ∧
      readDigits (announcedBase digits).1 false ((announcedBase digits).2.filter (· ≠ '_')) 0 =
        .ok value ∧
      ('_' ∈ (announcedBase digits).2 → underscoreOK digits = true) := by
  unfold parseUint at read
  split at read
  · cases read
  · rename_i nonempty
    rw [if_pos rfl] at read
    dsimp only at read
    rw [← readDigits_true]
    cases result : readDigits (announcedBase digits).1 true (announcedBase digits).2 0 with
    | error error => simp [result] at read
    | ok total =>
      simp only [result] at read
      split at read
      · cases read
      · rename_i standing
        cases read
        refine ⟨nonempty, rfl, fun inside => ?_⟩
        cases verdict : underscoreOK digits with
        | true => rfl
        | false => exact absurd ⟨inside, verdict⟩ standing

/-! ### Numerals that are read alike -/

/-- The digits mean the same in base 10 as in the base they announce. -/
inductive ReadsAlike (negative : Bool) (digits : List Char) : Prop where
  /-- A decimal numeral without underscores. -/
  | plain (lead : digits.head? ≠ some '0') (none : '_' ∉ digits)
  /-- Zero, in whatever base and with whatever underscores. -/
  | zero (lead : digits.head? = some '0')
      (zeros : ∀ char ∈ (announcedBase digits).2, char = '0' ∨ char = '_')
  /-- One digit, behind zeros or alone. -/
  | single (zeros : ∀ char ∈ digits.dropLast, char = '0')
  /-- The octal numeral of the limit, where base 10 is clamped. -/
  | saturated (limited : Saturated negative (digits.dropWhile (· = '0')))

theorem readDigits_limitDigits_ten (negative : Bool) :
    readDigits 10 false (limitDigits negative) 0 = .error .range := by
  cases negative <;> decide

theorem forall_filter_underscore {chars : List Char} :
    (∀ char ∈ chars.filter (· ≠ '_'), char = '0') ↔ ∀ char ∈ chars, char = '0' ∨ char = '_' := by
  simp only [List.mem_filter, decide_eq_true_eq, and_imp]
  exact forall₂_congr fun char _ => or_iff_not_imp_right.symm

theorem underscoreOK_underscore (rest : List Char) : underscoreOK ('_' :: rest) = false := by
  simp [underscoreOK, underscoresStand]

section Readings

variable {negative : Bool} {digits rest : List Char} {value : Nat}

theorem magnitude_decimal (nonempty : digits ≠ []) (lead : digits.head? ≠ some '0')
    (read : readDigits 10 false (digits.filter (· ≠ '_')) 0 = .ok value)
    (standing : '_' ∈ digits → underscoreOK digits = true) (fits : value ≤ limit negative) :
    magnitude negative (readDigits 10 false digits 0) = value ↔ ReadsAlike negative digits := by
  by_cases inside : '_' ∈ digits
  · obtain ⟨first, rest, rfl⟩ := List.exists_cons_of_ne_nil nonempty
    have digit : first ≠ '_' := by
      intro same
      have refused := standing inside
      rw [same, underscoreOK_underscore] at refused
      cases refused
    have significant : first ≠ '0' := fun same => lead (by rw [same, List.head?_cons])
    have positive := significant_ne_zero significant digit (by decide) read
    obtain ⟨front, back, split, none⟩ := List.eq_append_cons_of_mem inside
    have unread : readDigits 10 false (first :: rest) 0 = .error .syntaxError := by
      rw [split, List.filter_append, filter_underscore_of_not_mem none, readDigits_append] at read
      rw [split]
      cases begun : readDigits 10 false front 0 with
      | error error =>
        rw [begun] at read
        cases read
      | ok middle => exact readDigits_underscore begun
    rw [unread]
    refine iff_of_false (fun same => positive same.symm) fun alike => ?_
    cases alike with
    | plain _ none => exact none inside
    | zero zero _ => exact lead zero
    | single zeros =>
      cases rest with
      | nil => exact digit (List.mem_singleton.mp inside).symm
      | cons second rest => exact significant (zeros first (by simp))
    | saturated limited =>
      rw [List.dropWhile_cons_of_neg (by simpa using significant)] at limited
      rw [limited.1, readDigits_limitDigits_ten] at read
      cases read
  · rw [filter_underscore_of_not_mem inside] at read
    rw [read]
    exact iff_of_true (min_eq_left fits) (.plain lead inside)

theorem magnitude_lettered {base : Nat} {letter : Char} (several : rest ≠ []) (positive : 0 < base)
    (announces : announcedBase ('0' :: letter :: rest) = (base, rest))
    (named : lowerChar letter = 'b' ∨ lowerChar letter = 'o' ∨ lowerChar letter = 'x')
    (read : readDigits base false (rest.filter (· ≠ '_')) 0 = .ok value) :
    magnitude negative (readDigits 10 false ('0' :: letter :: rest) 0) = value ↔
      ReadsAlike negative ('0' :: letter :: rest) := by
  obtain ⟨digit, valued, large⟩ := digitValue?_letter named
  have unread : readDigits 10 false ('0' :: letter :: rest) 0 = .error .syntaxError := by
    rw [readDigits_zero 10 (by decide)]
    simp [readDigits, valued, large]
  have significant : letter ≠ '0' := by
    intro same
    subst same
    cases valued
    omega
  have zeros : value = 0 ↔ ∀ char ∈ rest, char = '0' ∨ char = '_' := by
    rw [readDigits_eq_zero_iff positive read, forall_filter_underscore]
  rw [unread]
  constructor
  · intro same
    refine .zero rfl ?_
    rw [announces]
    exact zeros.mp same.symm
  · intro alike
    cases alike with
    | plain lead _ => exact absurd rfl lead
    | zero _ zeroed =>
      rw [announces] at zeroed
      exact (zeros.mpr zeroed).symm
    | single zeroed =>
      cases rest with
      | nil => exact absurd rfl several
      | cons second rest => exact absurd (zeroed letter (by simp)) significant
    | saturated limited =>
      rw [List.dropWhile_cons_of_pos (by simp),
        List.dropWhile_cons_of_neg (by simpa using significant)] at limited
      have kept : letter ∈ limitDigits negative := by
        rw [← limited.1]
        refine List.mem_filter.mpr ⟨.head _, decide_eq_true fun same => ?_⟩
        subst same
        cases valued
      obtain ⟨octal, valuedOctal, small⟩ :=
        (readDigits_ofDigits (readDigits_limitDigits negative)).1 letter kept
      rw [valued] at valuedOctal
      cases valuedOctal
      omega

theorem readsAlike_octal (announces : announcedBase ('0' :: rest) = (8, rest))
    (read : readDigits 8 false (rest.filter (· ≠ '_')) 0 = .ok value) :
    ReadsAlike negative ('0' :: rest) ↔
      value = 0 ∨ (∀ char ∈ rest.dropLast, char = '0') ∨
        Saturated negative (rest.dropWhile (· = '0')) := by
  have zeros : value = 0 ↔ ∀ char ∈ rest, char = '0' ∨ char = '_' := by
    rw [readDigits_eq_zero_iff (by decide) read, forall_filter_underscore]
  have dropped : ('0' :: rest).dropWhile (· = '0') = rest.dropWhile (· = '0') :=
    List.dropWhile_cons_of_pos (by simp)
  have last : (∀ char ∈ ('0' :: rest).dropLast, char = '0') ↔ ∀ char ∈ rest.dropLast, char = '0' := by
    cases rest <;> simp
  constructor
  · intro alike
    cases alike with
    | plain lead _ => exact absurd rfl lead
    | zero _ zeroed =>
      rw [announces] at zeroed
      exact .inl (zeros.mpr zeroed)
    | single zeroed => exact .inr (.inl (last.mp zeroed))
    | saturated limited => exact .inr (.inr (dropped ▸ limited))
  · intro agreed
    rcases agreed with zero | single | limited
    · refine .zero rfl ?_
      rw [announces]
      exact zeros.mp zero
    · exact .single (last.mpr single)
    · exact .saturated (dropped.symm ▸ limited)

theorem magnitude_ten_iff (parsed : parseUint digits 0 = .ok value)
    (fits : value ≤ limit negative) :
    magnitude negative (parseUint digits 10) = value ↔ ReadsAlike negative digits := by
  obtain ⟨nonempty, read, standing⟩ := parseUint_zero_ok parsed
  have ten : parseUint digits 10 = readDigits 10 false digits 0 := by simp [parseUint, nonempty]
  rw [ten]
  have view := announced digits
  cases announces : announcedBase digits with
  | mk base rest =>
    rw [announces] at view read standing
    cases view with
    | decimal lead => exact magnitude_decimal nonempty lead read standing fits
    | lettered shape several positive named =>
      subst shape
      exact magnitude_lettered several positive announces named read
    | octal shape =>
      subst shape
      rw [readDigits_zero 10 (by decide), magnitude_octal read fits,
        readsAlike_octal announces read]

end Readings

/-! ### Signed numerals -/

def isNegative (text : String) : Bool := text.toList.head? = some '-'

/-- The text behind its sign. -/
def unsigned (text : String) : List Char :=
  if text.toList.head? = some '-' ∨ text.toList.head? = some '+' then text.toList.tail
  else text.toList

def withSign (negative : Bool) (value : Nat) : Int := if negative then -(value : Int) else value

theorem withSign_inj {negative : Bool} {left right : Nat} :
    withSign negative left = withSign negative right ↔ left = right := by
  cases negative <;> simp [withSign]

/-- Both signs are read by one rule. -/
theorem parseInt_eq (text : String) (base : Nat) :
    parseInt text base =
      (withSign (isNegative text) (magnitude (isNegative text) (parseUint (unsigned text) base)),
        match parseUint (unsigned text) base with
        | .ok value => if limit (isNegative text) < value then some .range else none
        | .error error => some error) := by
  unfold parseInt
  by_cases negative : text.toList.head? = some '-'
  · simp only [isNegative, unsigned, negative, true_or, if_true, decide_true]
    cases parseUint text.toList.tail base with
    | error error => cases error <;> rfl
    | ok value =>
      have out : -(value : Int) < minInt64 ↔ limit true < value := by
        simp only [minInt64, limit, if_true]
        omega
      simp only [withSign, magnitude, if_true]
      by_cases large : limit true < value
      · rw [if_pos (out.mpr large), if_pos large, min_eq_right large.le]
        rfl
      · rw [if_neg (mt out.mp large), if_neg large, min_eq_left (Nat.le_of_not_lt large)]
  · simp only [isNegative, unsigned, negative, false_or, if_false, decide_false]
    cases parseUint (if text.toList.head? = some '+' then text.toList.tail else text.toList) base with
    | error error => cases error <;> rfl
    | ok value =>
      have out : maxInt64 < (value : Int) ↔ limit false < value := by
        simp only [maxInt64, limit, Bool.false_eq_true, if_false]
        omega
      simp only [withSign, magnitude, Bool.false_eq_true, if_false]
      by_cases large : limit false < value
      · rw [if_pos (out.mpr large), if_pos large, min_eq_right large.le]
        rfl
      · rw [if_neg (mt out.mp large), if_neg large, min_eq_left (Nat.le_of_not_lt large)]

theorem parseInt_ok {text : String} {base : Nat} {value : Int}
    (read : parseInt text base = (value, none)) :
    ∃ magnitude, parseUint (unsigned text) base = .ok magnitude ∧
      magnitude ≤ limit (isNegative text) ∧ value = withSign (isNegative text) magnitude := by
  rw [parseInt_eq, Prod.mk.injEq] at read
  obtain ⟨clamped, fine⟩ := read
  cases parsed : parseUint (unsigned text) base with
  | error error => simp [parsed] at fine
  | ok magnitude =>
    have fits : magnitude ≤ limit (isNegative text) := by simpa [parsed] using fine
    refine ⟨magnitude, rfl, fits, ?_⟩
    rw [← clamped, parsed, Strconv.magnitude, min_eq_left fits]

/-- A numeral of base 0 has its value in base 10 too exactly if it is of one of the kinds
that are read alike. -/
theorem parseInt_ten_eq_iff {text : String} {value : Int} (read : parseInt text 0 = (value, none)) :
    (parseInt text 10).1 = value ↔ ReadsAlike (isNegative text) (unsigned text) := by
  obtain ⟨magnitude, digits, fits, rfl⟩ := parseInt_ok read
  rw [parseInt_eq, withSign_inj]
  exact magnitude_ten_iff digits fits

end Strconv
