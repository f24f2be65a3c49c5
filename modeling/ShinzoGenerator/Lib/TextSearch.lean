import Mathlib.Data.List.Infix
import Mathlib.Data.Nat.Digits.Defs

/-! Substring search in texts that are put together from pieces. A word that
occurs in such a text occurs in one of the pieces, or it lies across a seam; the
lemmas here exclude the seam by looking at one of its two sides. -/

set_option autoImplicit false

namespace TextSearch

def contains (text word : String) : Bool := decide (word.toList <:+: text.toList)

theorem contains_iff {text word : String} :
    contains text word = true ↔ word.toList <:+: text.toList := by
  simp [contains]

section Seams

variable {α : Type}

/-- Where a word can occur in two joined pieces. -/
theorem infix_append_cases {word left right : List α} (occurs : word <:+: left ++ right) :
    word <:+: left ∨ word <:+: right ∨
      ∃ first second, word = first ++ second ∧ first ≠ [] ∧ second ≠ [] ∧
        first <:+ left ∧ second <+: right := by
  obtain ⟨before, after, joined⟩ := occurs
  rw [List.append_assoc] at joined
  rcases List.append_eq_append_iff.mp joined with ⟨rest, rfl, tail⟩ | ⟨rest, rfl, tail⟩
  · rcases List.append_eq_append_iff.mp tail with ⟨more, rfl, _⟩ | ⟨more, rfl, ending⟩
    · exact .inl ⟨before, more, by simp⟩
    · by_cases none : rest = []
      · subst none
        exact .inr (.inl ⟨[], after, ending.symm⟩)
      · by_cases whole : more = []
        · subst whole
          exact .inl ⟨before, [], by simp⟩
        · exact .inr (.inr ⟨rest, more, rfl, none, whole, ⟨before, rfl⟩, ⟨after, ending.symm⟩⟩)
  · exact .inr (.inl ⟨rest, after, by simp [tail]⟩)

theorem length_lt_of_split {word first second : List α} (split : word = first ++ second)
    (more : second ≠ []) : first.length < word.length := by
  have rest := List.length_pos_iff.mpr more
  rw [split, List.length_append]
  omega

end Seams

variable {text word : String}

/-- A piece that neither contains the word nor ends like the beginning of it. -/
def InertBefore (piece word : String) : Prop :=
  contains piece word = false ∧ ∀ length < word.toList.length, 0 < length →
    ¬ word.toList.take length <:+ piece.toList

/-- A piece that neither contains the word nor begins like the end of it. -/
def InertAfter (piece word : String) : Prop :=
  contains piece word = false ∧ ∀ length < word.toList.length, 0 < length →
    ¬ word.toList.drop length <+: piece.toList

instance (piece word : String) : Decidable (InertBefore piece word) :=
  inferInstanceAs (Decidable (_ ∧ _))

instance (piece word : String) : Decidable (InertAfter piece word) :=
  inferInstanceAs (Decidable (_ ∧ _))

section Characters

/-- One of the two begins with the other. -/
def beginAlike : List Char → List Char → Bool
  | left :: lefts, right :: rights => left = right && beginAlike lefts rights
  | _, _ => true

/-- No end of the piece and the word begin alike. -/
def endsApart (word : List Char) : List Char → Bool
  | [] => true
  | char :: chars => !beginAlike (char :: chars) word && endsApart word chars

theorem beginAlike_append_left (front back : List Char) :
    beginAlike (front ++ back) front = true := by
  induction front with
  | nil => cases back <;> rfl
  | cons char front hypothesis => simpa [beginAlike] using hypothesis

theorem beginAlike_append_right (front back : List Char) :
    beginAlike front (front ++ back) = true := by
  induction front with
  | nil => rfl
  | cons char front hypothesis => simpa [beginAlike] using hypothesis

theorem endsApart_suffix {word piece ending : List Char} (apart : endsApart word piece = true)
    (suffix : ending <:+ piece) (some : ending ≠ []) : beginAlike ending word = false := by
  induction piece with
  | nil => exact absurd (List.suffix_nil.mp suffix) some
  | cons char chars hypothesis =>
    rw [endsApart, Bool.and_eq_true, Bool.not_eq_true'] at apart
    cases List.suffix_cons_iff.mp suffix with
    | inl whole => exact whole ▸ apart.1
    | inr later => exact hypothesis apart.2 later

/-- Inert pieces are found without taking the texts apart again for every end. -/
theorem inertBefore_ofList {word piece : List Char} (long : word ≠ [])
    (apart : endsApart word piece = true) : InertBefore (.ofList piece) (.ofList word) := by
  unfold InertBefore
  rw [← Bool.not_eq_true, contains_iff, String.toList_ofList, String.toList_ofList]
  constructor
  · intro occurs
    obtain ⟨before, after, joined⟩ := occurs
    have ends : word ++ after <:+ piece := ⟨before, by rw [← List.append_assoc, joined]⟩
    have alike := endsApart_suffix apart ends (by simp [long])
    rw [beginAlike_append_left] at alike
    cases alike
  · intro length shorter positive ends
    have some : word.take length ≠ [] := by
      rw [Ne, List.take_eq_nil_iff, not_or]
      exact ⟨by omega, long⟩
    have alike := beginAlike_append_right (word.take length) (word.drop length)
    rw [List.take_append_drop, endsApart_suffix apart ends some] at alike
    cases alike

end Characters

theorem contains_before {piece : String} (inert : InertBefore piece word) (text : String) :
    contains (piece ++ text) word = contains text word := by
  rw [Bool.eq_iff_iff, contains_iff, contains_iff, String.toList_append]
  constructor
  · intro occurs
    rcases infix_append_cases occurs with inside | found | ⟨first, second, split, some, more, ends, _⟩
    · have absent := inert.1
      rw [← Bool.not_eq_true, contains_iff] at absent
      exact absurd inside absent
    · exact found
    · refine absurd ?_ (inert.2 first.length (length_lt_of_split split more)
        (List.length_pos_iff.mpr some))
      rw [split, List.take_left']
      · exact ends
      · rfl
  · exact fun occurs => occurs.trans (List.suffix_append _ _).isInfix

theorem contains_after {piece : String} (inert : InertAfter piece word) (text : String) :
    contains (text ++ piece) word = contains text word := by
  rw [Bool.eq_iff_iff, contains_iff, contains_iff, String.toList_append]
  constructor
  · intro occurs
    rcases infix_append_cases occurs with
      found | inside | ⟨first, second, split, some, more, _, begins⟩
    · exact found
    · have absent := inert.1
      rw [← Bool.not_eq_true, contains_iff] at absent
      exact absurd inside absent
    · refine absurd ?_ (inert.2 first.length (length_lt_of_split split more)
        (List.length_pos_iff.mpr some))
      rw [split, List.drop_left']
      · exact begins
      · rfl
  · exact fun occurs => occurs.trans (List.prefix_append _ _).isInfix

/-- No character of the piece occurs in the word. -/
def Foreign (piece word : String) : Prop :=
  ∀ char ∈ piece.toList, char ∉ word.toList

instance (piece word : String) : Decidable (Foreign piece word) :=
  List.decidableBAll (fun char => char ∉ word.toList) piece.toList

theorem Foreign.inertBefore {piece : String} (foreign : Foreign piece word) (long : word ≠ "") :
    InertBefore piece word := by
  have letters : word.toList ≠ [] := by simpa using long
  constructor
  · rw [← Bool.not_eq_true, contains_iff]
    intro occurs
    obtain ⟨char, first⟩ := List.exists_mem_of_ne_nil _ letters
    exact foreign char (occurs.subset first) first
  · intro length shorter positive ends
    obtain ⟨char, first⟩ := List.exists_mem_of_ne_nil (word.toList.take length) (by
      rw [Ne, List.take_eq_nil_iff, not_or]
      exact ⟨by omega, letters⟩)
    exact foreign char (ends.subset first) (List.mem_of_mem_take first)

/-- A piece that is foreign to the word separates two texts. -/
theorem contains_separated {piece : String} (foreign : Foreign piece word) (long : word ≠ "")
    (some : piece ≠ "") (left right : String) :
    contains (left ++ (piece ++ right)) word = (contains left word || contains right word) := by
  have inert := contains_before (foreign.inertBefore long) right
  rw [Bool.eq_iff_iff, Bool.or_eq_true, ← inert, contains_iff, contains_iff, contains_iff,
    String.toList_append]
  constructor
  · intro occurs
    rcases infix_append_cases occurs with
      found | found | ⟨first, second, split, _, more, _, begins⟩
    · exact .inl found
    · exact .inr found
    · exfalso
      obtain ⟨char, rest, rfl⟩ := List.exists_cons_of_ne_nil more
      obtain ⟨head, tail, spelled⟩ := List.exists_cons_of_ne_nil
        (show piece.toList ≠ [] by simpa using some)
      rw [String.toList_append, spelled, List.cons_append, List.cons_prefix_cons] at begins
      exact foreign char (by simp [spelled, begins.1]) (by simp [split])
  · rintro (found | found)
    · exact found.trans (List.prefix_append _ _).isInfix
    · exact found.trans (List.suffix_append _ _).isInfix

/-- A text without blanks does not contain a word that has one. -/
theorem contains_of_absent {char : Char} (absent : char ∉ text.toList)
    (present : char ∈ word.toList) : contains text word = false := by
  rw [← Bool.not_eq_true, contains_iff]
  exact fun occurs => absent (occurs.subset present)

/-! ### Texts joined by a separator -/

/-- What stands before the first separator and what stands behind it. -/
theorem append_separator_inj {α : Type} {separator : α} {left other right rest : List α}
    (absent : separator ∉ left) (alsoAbsent : separator ∉ other)
    (same : left ++ separator :: right = other ++ separator :: rest) :
    left = other ∧ right = rest := by
  rcases List.append_eq_append_iff.mp same with ⟨more, rfl, tail⟩ | ⟨more, rfl, tail⟩
  · cases more with
    | nil => simpa using tail
    | cons first more =>
        rw [List.cons_append, List.cons.injEq] at tail
        exact absurd (by simp [tail.1]) alsoAbsent
  · cases more with
    | nil => simpa using tail.symm
    | cons first more =>
        rw [List.cons_append, List.cons.injEq] at tail
        exact absurd (by simp [tail.1]) absent

/-- Non-empty pieces without the separator can be read off the joined text. -/
theorem intercalate_inj {separator : Char} {left right : List (List Char)}
    (solid : ∀ piece ∈ left, piece ≠ [] ∧ separator ∉ piece)
    (alsoSolid : ∀ piece ∈ right, piece ≠ [] ∧ separator ∉ piece)
    (same : [separator].intercalate left = [separator].intercalate right) : left = right := by
  have starts : ∀ {pieces : List (List Char)}, (∀ piece ∈ pieces, piece ≠ [] ∧ separator ∉ piece) →
      [separator].intercalate pieces = [] → pieces = [] := by
    intro pieces solid empty
    cases pieces with
    | nil => rfl
    | cons piece pieces =>
        have some := (solid piece List.mem_cons_self).1
        cases pieces <;> simp_all [List.intercalate]
  by_cases none : left = []
  · subst none
    exact (starts alsoSolid same.symm).symm
  · have alsoSome : right ≠ [] := by
      rintro rfl
      exact none (starts solid same)
    rw [← List.splitOn_intercalate separator (fun piece member => (solid piece member).2) none,
      same, List.splitOn_intercalate separator (fun piece member => (alsoSolid piece member).2)
        alsoSome]

/-- The word has neither digits nor signs. -/
def Lettered (word : String) : Prop :=
  ∀ char ∈ word.toList, char.isDigit = false ∧ char ≠ '-'

instance (word : String) : Decidable (Lettered word) :=
  List.decidableBAll (fun char : Char => char.isDigit = false ∧ char ≠ '-') word.toList

theorem foreign_natToString (lettered : Lettered word) (count : Nat) :
    Foreign (toString count) word := by
  intro char printed inWord
  rw [Nat.toString_eq_ofList_toDigits, String.toList_ofList] at printed
  have digit := Nat.isDigit_of_mem_toDigits (by decide) (by decide) printed
  rw [(lettered char inWord).1] at digit
  cases digit

theorem foreign_intToString (lettered : Lettered word) (number : Int) :
    Foreign (toString number) word := by
  cases number with
  | ofNat count => exact foreign_natToString lettered count
  | negSucc count =>
      intro char printed
      have signed : toString (Int.negSucc count) = "-" ++ toString (count + 1) := rfl
      rw [signed, String.toList_append, List.mem_append] at printed
      rcases printed with sign | digits
      · intro inWord
        exact (lettered char inWord).2 (by simpa using sign)
      · exact foreign_natToString lettered (count + 1) char digits

end TextSearch
