import Mathlib.Data.List.Infix
import Mathlib.Tactic.Tauto
import Mathlib.Data.List.TakeWhile
import ShinzoGenerator.Lib.Json

/-! What the reader of JSON texts leaves of its input, and that it reads back what the
writer writes. -/

set_option autoImplicit false

namespace Json

/-! ### What a reader leaves -/

/-- What is left over is the end of the input. -/
def Consumes {α : Type} (parse : Bytes → Option (α × Bytes)) : Prop :=
  ∀ {input : Bytes} {read : α} {rest : Bytes}, parse input = some (read, rest) → rest <:+ input

theorem skipSpace_suffix (input : Bytes) : skipSpace input <:+ input := List.dropWhile_suffix _

theorem suffix_of_skipSpace {input rest : Bytes} {first : UInt8}
    (found : skipSpace input = first :: rest) : rest <:+ input :=
  (List.suffix_cons first rest).trans (found ▸ skipSpace_suffix input)

theorem parsePieces_consumes : Consumes parsePieces := by
  intro input pieces rest parsed
  fun_induction parsePieces input generalizing pieces with
  | case1 | case3 | case4 | case6 => cases parsed
  | case2 =>
      cases parsed
      exact List.suffix_cons _ _
  | case5 a b c d behind _ _ ih =>
      obtain ⟨code, _, parsed⟩ := Option.bind_eq_some_iff.mp parsed
      obtain ⟨read, inner, parsed⟩ := Option.bind_eq_some_iff.mp parsed
      cases parsed
      exact (ih inner).trans (List.suffix_append [_, _, a, b, c, d] behind)
  | case7 kind behind _ _ _ ih =>
      obtain ⟨char, _, parsed⟩ := Option.bind_eq_some_iff.mp parsed
      obtain ⟨read, inner, parsed⟩ := Option.bind_eq_some_iff.mp parsed
      cases parsed
      exact (ih inner).trans (List.suffix_append [_, kind] behind)
  | case8 first behind _ _ _ ih =>
      obtain ⟨read, inner, parsed⟩ := Option.bind_eq_some_iff.mp parsed
      cases parsed
      exact (ih inner).trans (List.suffix_cons first behind)

theorem parseDigits_consumes : Consumes parseDigits := by
  intro input digits rest parsed
  rw [parseDigits] at parsed
  split at parsed
  · cases parsed
  · cases parsed
    exact List.dropWhile_suffix _

theorem parseWhole_consumes : Consumes parseWhole := by
  intro input digits rest parsed
  cases input with
  | nil => cases parsed
  | cons first behind =>
      rw [parseWhole] at parsed
      split at parsed
      · cases parsed
        exact List.suffix_cons _ _
      · exact parseDigits_consumes parsed

/-- A reader that only changes what was read. -/
theorem Consumes.map {α β : Type} {parse : Bytes → Option (α × Bytes)} (consumes : Consumes parse)
    {change : α → β} {input : Bytes} {read : β} {rest : Bytes}
    (parsed : (parse input).map (fun result => (change result.1, result.2)) = some (read, rest)) :
    rest <:+ input := by
  obtain ⟨result, inner, same⟩ := Option.map_eq_some_iff.mp parsed
  cases same
  exact consumes inner

theorem parseFraction_consumes : Consumes parseFraction := by
  intro input digits rest parsed
  cases input with
  | nil =>
      cases parsed
      exact List.suffix_rfl
  | cons first behind =>
      rw [parseFraction] at parsed
      split at parsed
      · exact (parseDigits_consumes.map parsed).trans (List.suffix_cons _ _)
      · cases parsed
        exact List.suffix_rfl

theorem parseSigned_consumes : Consumes parseSigned := by
  intro input digits rest parsed
  cases input with
  | nil => cases parsed
  | cons first behind =>
      rw [parseSigned] at parsed
      split at parsed
      · exact (parseDigits_consumes.map parsed).trans (List.suffix_cons _ _)
      · exact parseDigits_consumes parsed

theorem parseExponent_consumes : Consumes parseExponent := by
  intro input digits rest parsed
  cases input with
  | nil =>
      cases parsed
      exact List.suffix_rfl
  | cons first behind =>
      rw [parseExponent] at parsed
      split at parsed
      · exact (parseSigned_consumes.map parsed).trans (List.suffix_cons _ _)
      · cases parsed
        exact List.suffix_rfl

theorem parseMagnitude_consumes : Consumes parseMagnitude := by
  intro input digits rest parsed
  obtain ⟨whole, first, parsed⟩ := Option.bind_eq_some_iff.mp parsed
  obtain ⟨fraction, second, parsed⟩ := Option.bind_eq_some_iff.mp parsed
  obtain ⟨exponent, third, parsed⟩ := Option.bind_eq_some_iff.mp parsed
  cases parsed
  exact (parseExponent_consumes third).trans
    ((parseFraction_consumes second).trans (parseWhole_consumes first))

theorem parseNumber_consumes : Consumes parseNumber := by
  intro input digits rest parsed
  cases input with
  | nil => cases parsed
  | cons first behind =>
      rw [parseNumber] at parsed
      split at parsed
      · exact (parseMagnitude_consumes.map parsed).trans (List.suffix_cons _ _)
      · exact parseMagnitude_consumes parsed

theorem parseWord_consumes (word : String) (value : Value) : Consumes (parseWord word value) := by
  intro input read rest parsed
  rw [parseWord] at parsed
  split at parsed
  · cases parsed
    exact List.drop_suffix _ _
  · cases parsed

theorem parseScalar_consumes : Consumes parseScalar := by
  intro input read rest parsed
  cases input with
  | nil => cases parsed
  | cons first behind =>
      rw [parseScalar] at parsed
      split at parsed
      · obtain ⟨pieces, inner, same⟩ := Option.map_eq_some_iff.mp parsed
        cases same
        exact (parsePieces_consumes inner).trans (List.suffix_cons _ _)
      · split at parsed
        · exact parseWord_consumes _ _ parsed
        · split at parsed
          · exact parseWord_consumes _ _ parsed
          · split at parsed
            · exact parseWord_consumes _ _ parsed
            · exact parseNumber_consumes.map parsed

section Nested

variable {value : Bytes → Option (Value × Bytes)}

/-- The items end with the closing bracket. -/
theorem parseItems_closed (consumes : Consumes value) (fuel : Nat) {input : Bytes}
    {items : List Value} {rest : Bytes} (parsed : parseItems value fuel input = some (items, rest)) :
    (byte ']' :: rest) <:+ input := by
  induction fuel generalizing input items with
  | zero => cases parsed
  | succ fuel ih =>
      obtain ⟨item, first, parsed⟩ := Option.bind_eq_some_iff.mp parsed
      have inner := (consumes first).trans (skipSpace_suffix input)
      cases next : skipSpace item.2 with
      | nil => simp [next] at parsed
      | cons char behind =>
          have outer : (char :: behind) <:+ input := (next ▸ skipSpace_suffix item.2).trans inner
          simp only [next] at parsed
          split at parsed
          · rename_i closes
            cases parsed
            exact closes ▸ outer
          · split at parsed
            · obtain ⟨others, remaining, parsed⟩ := Option.bind_eq_some_iff.mp parsed
              cases parsed
              exact (ih remaining).trans ((List.suffix_cons char behind).trans outer)
            · cases parsed

theorem parseArray_closed (consumes : Consumes value) {input : Bytes} {read : Value} {rest : Bytes}
    (parsed : parseArray value input = some (read, rest)) : (byte ']' :: rest) <:+ input := by
  rw [parseArray] at parsed
  cases next : skipSpace input with
  | nil => simp [next] at parsed
  | cons char behind =>
      simp only [next] at parsed
      split at parsed
      · rename_i closes
        cases parsed
        exact closes ▸ (next ▸ skipSpace_suffix input)
      · obtain ⟨items, inner, same⟩ := Option.map_eq_some_iff.mp parsed
        cases same
        exact parseItems_closed consumes _ inner

theorem parseMember_consumes (consumes : Consumes value) : Consumes (parseMember value) := by
  intro input member rest parsed
  cases input with
  | nil => cases parsed
  | cons first behind =>
      rw [parseMember] at parsed
      split at parsed
      · obtain ⟨name, named, parsed⟩ := Option.bind_eq_some_iff.mp parsed
        have outer := (parsePieces_consumes named).trans (List.suffix_cons first behind)
        cases next : skipSpace name.2 with
        | nil => simp [next] at parsed
        | cons colon after =>
            simp only [next] at parsed
            split at parsed
            · obtain ⟨read, inner, parsed⟩ := Option.bind_eq_some_iff.mp parsed
              cases parsed
              exact (consumes inner).trans ((skipSpace_suffix after).trans
                ((suffix_of_skipSpace next).trans outer))
            · cases parsed
      · cases parsed

/-- The members end with the closing brace. -/
theorem parseMembers_closed (consumes : Consumes value) (fuel : Nat) {input : Bytes}
    {members : List (Bytes × Value)} {rest : Bytes}
    (parsed : parseMembers value fuel input = some (members, rest)) :
    (byte '}' :: rest) <:+ input := by
  induction fuel generalizing input members with
  | zero => cases parsed
  | succ fuel ih =>
      obtain ⟨member, first, parsed⟩ := Option.bind_eq_some_iff.mp parsed
      have inner := (parseMember_consumes consumes first).trans (skipSpace_suffix input)
      cases next : skipSpace member.2 with
      | nil => simp [next] at parsed
      | cons char behind =>
          have outer : (char :: behind) <:+ input := (next ▸ skipSpace_suffix member.2).trans inner
          simp only [next] at parsed
          split at parsed
          · rename_i closes
            cases parsed
            exact closes ▸ outer
          · split at parsed
            · obtain ⟨others, remaining, parsed⟩ := Option.bind_eq_some_iff.mp parsed
              cases parsed
              exact (ih remaining).trans ((List.suffix_cons char behind).trans outer)
            · cases parsed

theorem parseObject_closed (consumes : Consumes value) {input : Bytes} {read : Value} {rest : Bytes}
    (parsed : parseObject value input = some (read, rest)) : (byte '}' :: rest) <:+ input := by
  rw [parseObject] at parsed
  cases next : skipSpace input with
  | nil => simp [next] at parsed
  | cons char behind =>
      simp only [next] at parsed
      split at parsed
      · rename_i closes
        cases parsed
        exact closes ▸ (next ▸ skipSpace_suffix input)
      · obtain ⟨members, inner, same⟩ := Option.map_eq_some_iff.mp parsed
        cases same
        exact parseMembers_closed consumes _ inner

end Nested

theorem parseValue_consumes (depth : Nat) : Consumes (parseValue depth) := by
  induction depth with
  | zero => exact parseScalar_consumes
  | succ depth ih =>
      intro input read rest parsed
      cases input with
      | nil => cases parsed
      | cons first behind =>
          rw [parseValue] at parsed
          split at parsed
          · exact ((List.suffix_cons _ _).trans (parseObject_closed ih parsed)).trans
              (List.suffix_cons _ _)
          · split at parsed
            · exact ((List.suffix_cons _ _).trans (parseArray_closed ih parsed)).trans
                (List.suffix_cons _ _)
            · exact parseScalar_consumes parsed

/-! ### Reading what was written -/

theorem parsePieces_quote (rest : Bytes) : parsePieces (byte '"' :: rest) = some ([], rest) := by
  unfold parsePieces
  exact if_pos rfl

theorem parsePieces_char {char : UInt8} (plain : isPlain char = true) (rest : Bytes) :
    parsePieces (char :: rest) =
      (parsePieces rest).map fun read => (.raw char :: read.1, read.2) := by
  simp only [isPlain, Bool.and_eq_true, decide_eq_true_eq, bne_iff_ne, ne_eq] at plain
  obtain ⟨⟨⟨⟨⟨⟨low, _⟩, quote⟩, slash⟩, _⟩, _⟩, _⟩ := plain
  have visible : ¬ char < 32 := UInt8.not_lt.mpr low
  rw [parsePieces.eq_def]
  simp only [if_neg quote, if_neg visible, if_neg slash]
  cases parsePieces rest <;> rfl

theorem parsePieces_plain {text : Bytes} (plain : text.all isPlain = true) (rest : Bytes) :
    parsePieces (text ++ byte '"' :: rest) = some (text.map .raw, rest) := by
  induction text with
  | nil => exact parsePieces_quote rest
  | cons char text ih =>
      rw [List.all_cons, Bool.and_eq_true] at plain
      rw [List.cons_append, parsePieces_char plain.1, ih plain.2]
      rfl

theorem render_raw (text : Bytes) : render (text.map .raw) = text := by
  induction text with
  | nil => rfl
  | cons char text ih => rw [List.map_cons, render, ih]

/-- The text reads as the value wherever the next byte does not continue a number. -/
def Ends (rest : Bytes) : Prop :=
  ∀ char ∈ rest.head?, isDigit char = false ∧ char ≠ byte '.' ∧ char ≠ byte 'e' ∧ char ≠ byte 'E'

def Reads (depth : Nat) (text : Bytes) (value : Value) : Prop :=
  ∀ rest, Ends rest → parseValue depth (text ++ rest) = some (value, rest)

theorem ends_comma (rest : Bytes) : Ends (byte ',' :: rest) := by
  intro char first
  cases first
  decide

theorem ends_bracket (rest : Bytes) : Ends (byte ']' :: rest) := by
  intro char first
  cases first
  decide

theorem ends_brace (rest : Bytes) : Ends (byte '}' :: rest) := by
  intro char first
  cases first
  decide

theorem parseValue_scalar {first : UInt8} (object : first ≠ byte '{') (array : first ≠ byte '[')
    (depth : Nat) (rest : Bytes) :
    parseValue depth (first :: rest) = parseScalar (first :: rest) := by
  cases depth with
  | zero => rfl
  | succ depth => rw [parseValue, if_neg object, if_neg array]

theorem parseValue_quoted {text : Bytes} (plain : text.all isPlain = true) (depth : Nat)
    (rest : Bytes) : parseValue depth (quoted text ++ rest) = some (.str text, rest) := by
  have split : quoted text ++ rest = byte '"' :: (text ++ byte '"' :: rest) := by
    simp [quoted]
  rw [split, parseValue_scalar (by decide) (by decide), parseScalar, if_pos rfl,
    parsePieces_plain plain, Option.map_some, render_raw]

/-- Digits without a superfluous zero. -/
structure Decimal (digits : Bytes) : Prop where
  all : ∀ char ∈ digits, isDigit char = true
  nonempty : digits ≠ []
  leading : digits.head? = some (byte '0') → digits = [byte '0']

theorem parseDigits_decimal {digits : Bytes} (decimal : Decimal digits) {rest : Bytes}
    (ends : Ends rest) : parseDigits (digits ++ rest) = some (digits, rest) := by
  have stops : rest.takeWhile isDigit = [] ∧ rest.dropWhile isDigit = rest := by
    cases rest with
    | nil => exact ⟨rfl, rfl⟩
    | cons char rest => simp [(ends char rfl).1]
  have taken : (digits ++ rest).takeWhile isDigit = digits := by
    rw [List.takeWhile_append_of_pos decimal.all, stops.1, List.append_nil]
  have dropped : (digits ++ rest).dropWhile isDigit = rest := by
    rw [List.dropWhile_append_of_pos decimal.all, stops.2]
  rw [parseDigits, taken, dropped, if_neg decimal.nonempty]

theorem parseMagnitude_decimal {digits : Bytes} (decimal : Decimal digits) {rest : Bytes}
    (ends : Ends rest) : parseMagnitude (digits ++ rest) = some (digits, rest) := by
  have whole : parseWhole (digits ++ rest) = some (digits, rest) := by
    cases spelled : digits with
    | nil => exact absurd spelled decimal.nonempty
    | cons first others =>
        rw [List.cons_append, parseWhole]
        split
        · rename_i zero
          have single := decimal.leading (by rw [spelled, zero]; rfl)
          rw [spelled] at single
          cases single
          rfl
        · rw [← List.cons_append, ← spelled]
          exact parseDigits_decimal decimal ends
  have fraction : parseFraction rest = some ([], rest) := by
    cases rest with
    | nil => rfl
    | cons char rest => rw [parseFraction, if_neg (ends char rfl).2.1]
  have exponent : parseExponent rest = some ([], rest) := by
    cases rest with
    | nil => rfl
    | cons char rest =>
        have other : ¬ (char = byte 'e' ∨ char = byte 'E') := by
          have := ends char rfl
          tauto
        rw [parseExponent, if_neg other]
  simp only [parseMagnitude, whole, fraction, exponent, Option.bind_eq_bind, Option.bind_some,
    List.append_nil]

private theorem digitChar_digit {digit : Nat} (small : digit < 10) :
    isDigit (byte digit.digitChar) = true ∧
      (0 < digit → byte digit.digitChar ≠ byte '0') := by
  revert digit
  decide

theorem isDigit_toDigits (number : Nat) :
    ∀ char ∈ (Nat.toDigits 10 number).map byte, isDigit char = true := by
  induction number using Nat.strongRecOn with
  | _ number ih =>
      rw [Nat.toDigits_eq_if (by decide)]
      split
      · rename_i small
        intro char member
        rw [List.map_singleton, List.mem_singleton] at member
        exact member ▸ (digitChar_digit small).1
      · intro char member
        rw [List.map_append, List.mem_append] at member
        rcases member with front | last
        · exact ih (number / 10) (by omega) char front
        · rw [List.map_singleton, List.mem_singleton] at last
          exact last ▸ (digitChar_digit (Nat.mod_lt _ (by decide))).1

theorem head_toDigits {number : Nat} (positive : 0 < number) :
    ((Nat.toDigits 10 number).map byte).head? ≠ some (byte '0') := by
  induction number using Nat.strongRecOn with
  | _ number ih =>
      rw [Nat.toDigits_eq_if (by decide)]
      split
      · rename_i small
        intro leading
        exact (digitChar_digit small).2 positive (Option.some.inj leading)
      · have front := ih (number / 10) (by omega) (by omega)
        cases spelled : Nat.toDigits 10 (number / 10) with
        | nil => exact absurd spelled Nat.toDigits_ne_nil
        | cons first others =>
            rw [spelled] at front
            exact front

theorem decimal_toDigits (number : Nat) : Decimal ((Nat.toDigits 10 number).map byte) where
  all := isDigit_toDigits number
  nonempty := by
    rw [ne_eq, List.map_eq_nil_iff]
    exact Nat.toDigits_ne_nil
  leading := by
    intro leading
    cases number with
    | zero => rw [Nat.toDigits_zero]; rfl
    | succ number => exact absurd leading (head_toDigits (Nat.succ_pos number))

theorem marshalInt_nat (number : Nat) :
    marshalInt (number : Int) = (Nat.toDigits 10 number).map byte := by
  have same : toString (number : Int) = toString number := rfl
  rw [marshalInt, ascii, same, Nat.toString_eq_ofList_toDigits, String.toList_ofList]

theorem marshalInt_neg (number : Nat) :
    marshalInt (Int.negSucc number) = byte '-' :: (Nat.toDigits 10 (number + 1)).map byte := by
  have same : toString (Int.negSucc number) = "-" ++ toString (number + 1) := rfl
  have digits : (toString (number + 1)).toList = Nat.toDigits 10 (number + 1) := by
    rw [Nat.toString_eq_ofList_toDigits, String.toList_ofList]
  rw [marshalInt, ascii, same, String.toList_append, List.map_append, digits]
  rfl

theorem reads_int (depth : Nat) (number : Int) :
    Reads depth (marshalInt number) (.num (marshalInt number)) := by
  intro rest ends
  have scalar : ∀ {first : UInt8} {text : Bytes}, first = byte '-' ∨ isDigit first = true →
      parseNumber (first :: text ++ rest) = some (first :: text, rest) →
      parseValue depth (first :: text ++ rest) = some (.num (first :: text), rest) := by
    intro first text start parsed
    have other : first ≠ byte '{' ∧ first ≠ byte '[' ∧ first ≠ byte '"' ∧ first ≠ byte 't' ∧
        first ≠ byte 'f' ∧ first ≠ byte 'n' := by
      refine ⟨?_, ?_, ?_, ?_, ?_, ?_⟩ <;> rintro rfl <;> revert start <;> decide
    obtain ⟨brace, bracket, quote, t, f, n⟩ := other
    rw [List.cons_append] at parsed ⊢
    rw [parseValue_scalar brace bracket, parseScalar, if_neg quote, if_neg t, if_neg f, if_neg n,
      parsed]
    rfl
  cases number with
  | ofNat number =>
      have decimal := decimal_toDigits number
      have magnitude := parseMagnitude_decimal decimal ends
      rw [Int.ofNat_eq_natCast, marshalInt_nat]
      cases spelled : (Nat.toDigits 10 number).map byte with
      | nil => exact absurd spelled decimal.nonempty
      | cons first others =>
          rw [spelled] at decimal magnitude
          have digit := decimal.all first List.mem_cons_self
          refine scalar (.inr digit) ?_
          have unsigned : first ≠ byte '-' := by
            rintro rfl
            revert digit
            decide
          rw [List.cons_append, parseNumber, if_neg unsigned]
          exact magnitude
  | negSucc number =>
      rw [marshalInt_neg]
      refine scalar (.inl rfl) ?_
      rw [List.cons_append, parseNumber, if_pos rfl,
        parseMagnitude_decimal (decimal_toDigits (number + 1)) ends]
      rfl

/-- A value starts with no space. -/
theorem skipSpace_of_parsed {depth : Nat} {input : Bytes} {read : Value × Bytes}
    (parsed : parseValue depth input = some read) : skipSpace input = input := by
  cases input with
  | nil => rfl
  | cons first rest =>
      have solid : isSpace first = false := by
        rw [Bool.eq_false_iff]
        intro space
        have none : ∀ {first : UInt8}, isSpace first = true → ∀ rest,
            parseValue depth (first :: rest) = none := by
          intro first space rest
          simp only [isSpace, Bool.or_eq_true, decide_eq_true_eq] at space
          rcases space with ((rfl | rfl) | rfl) | rfl <;>
            rw [parseValue_scalar (by decide) (by decide)] <;> rfl
        rw [none space] at parsed
        cases parsed
      rw [skipSpace, List.dropWhile_cons_of_neg (by simp [solid])]

theorem skipSpace_cons {first : UInt8} (solid : isSpace first = false) (rest : Bytes) :
    skipSpace (first :: rest) = first :: rest := by
  rw [skipSpace, List.dropWhile_cons_of_neg (by simp [solid])]

theorem skipSpace_comma (rest : Bytes) : skipSpace (byte ',' :: rest) = byte ',' :: rest :=
  skipSpace_cons (by decide) rest

theorem skipSpace_colon (rest : Bytes) : skipSpace (byte ':' :: rest) = byte ':' :: rest :=
  skipSpace_cons (by decide) rest

theorem skipSpace_brace (rest : Bytes) : skipSpace (byte '}' :: rest) = byte '}' :: rest :=
  skipSpace_cons (by decide) rest

theorem parseItems_written {depth : Nat} {texts : List Bytes} {values : List Value}
    (reads : List.Forall₂ (Reads depth) texts values) (nonempty : texts ≠ []) (rest : Bytes)
    {fuel : Nat} (enough : texts.length ≤ fuel) :
    parseItems (parseValue depth) fuel (commas texts ++ byte ']' :: rest) = some (values, rest) := by
  induction reads generalizing fuel with
  | nil => exact absurd rfl nonempty
  | @cons text value texts values first others ih =>
      cases fuel with
      | zero => simp at enough
      | succ fuel =>
          cases others with
          | nil =>
              have parsed := first (byte ']' :: rest) (ends_bracket rest)
              simp only [commas, parseItems, skipSpace_of_parsed parsed, parsed]
              rfl
          | @cons next _ texts _ _ _ =>
              have parsed := first (byte ',' :: (commas (next :: texts) ++ byte ']' :: rest))
                (ends_comma _)
              have written : commas (text :: next :: texts) ++ byte ']' :: rest =
                  text ++ byte ',' :: (commas (next :: texts) ++ byte ']' :: rest) := by
                simp [commas]
              have remaining := ih (by simp) (show (next :: texts).length ≤ fuel by
                simpa using enough)
              have unclosed : byte ',' ≠ byte ']' := by decide
              rw [written]
              simp only [parseItems, skipSpace_of_parsed parsed, parsed, Option.bind_eq_bind,
                Option.bind_some, skipSpace_comma, if_neg unclosed, if_true, remaining]

theorem Reads.ne_nil {depth : Nat} {text : Bytes} {value : Value} (reads : Reads depth text value) :
    text ≠ [] := by
  rintro rfl
  have parsed := reads [] (by intro char first; cases first)
  cases depth <;> cases parsed

theorem length_commas {texts : List Bytes} (solid : ∀ text ∈ texts, text ≠ []) :
    texts.length ≤ (commas texts).length := by
  induction texts with
  | nil => exact Nat.zero_le _
  | cons text texts ih =>
      have first := List.length_pos_of_ne_nil (solid text List.mem_cons_self)
      cases texts with
      | nil =>
          simp only [commas, List.length_singleton]
          omega
      | cons next texts =>
          have others := ih fun other member => solid other (List.mem_cons_of_mem _ member)
          simp only [commas, List.length_append, List.length_cons] at others ⊢
          omega

/-- The first text stands in front of a comma or of the closing byte. -/
theorem commas_cons (text : Bytes) (texts : List Bytes) {close : UInt8}
    (ends : ∀ rest, Ends (close :: rest)) (rest : Bytes) :
    ∃ tail, Ends tail ∧ commas (text :: texts) ++ close :: rest = text ++ tail := by
  cases texts with
  | nil => exact ⟨close :: rest, ends rest, rfl⟩
  | cons next texts =>
      exact ⟨byte ',' :: (commas (next :: texts) ++ close :: rest), ends_comma _, by simp [commas]⟩

theorem first_of_parsed {depth : Nat} {first : UInt8} {rest : Bytes} {read : Value × Bytes}
    (parsed : parseValue depth (first :: rest) = some read) : first ≠ byte ']' := by
  rintro rfl
  rw [parseValue_scalar (by decide) (by decide)] at parsed
  cases parsed

theorem parseValue_array {depth : Nat} {texts : List Bytes} {values : List Value}
    (reads : List.Forall₂ (Reads depth) texts values) (rest : Bytes) :
    parseValue (depth + 1) (marshalArray texts ++ rest) = some (.arr values, rest) := by
  have written : marshalArray texts ++ rest = byte '[' :: (commas texts ++ byte ']' :: rest) := by
    simp [marshalArray]
  have other : byte '[' ≠ byte '{' := by decide
  have solid : ∀ text ∈ texts, text ≠ [] := by
    intro text member
    obtain ⟨index, bound, rfl⟩ := List.mem_iff_getElem.mp member
    exact (reads.get bound (reads.length_eq ▸ bound)).ne_nil
  rw [written, parseValue, if_neg other, if_pos rfl, parseArray]
  cases texts with
  | nil =>
      cases reads
      rfl
  | cons text texts =>
      have enough : (text :: texts).length ≤ (commas (text :: texts) ++ byte ']' :: rest).length := by
        have bound := length_commas solid
        rw [List.length_append]
        omega
      rw [parseItems_written reads (by simp) rest enough]
      obtain ⟨tail, ends, same⟩ := commas_cons text texts ends_bracket rest
      cases reads with
      | cons first others =>
          have parsed := first tail ends
          rw [same, skipSpace_of_parsed parsed]
          cases spelled : text ++ tail with
          | nil =>
              rw [List.append_eq_nil_iff] at spelled
              exact absurd spelled.1 first.ne_nil
          | cons head behind =>
              rw [spelled] at parsed
              simp only [if_neg (first_of_parsed parsed), Option.map_some]

/-- The member reads as the name and the value. -/
def ReadsMember (depth : Nat) (member : PlainText × Bytes) (read : Bytes × Value) : Prop :=
  read.1 = member.1.text ∧ Reads depth member.2 read.2

theorem parseMember_written {depth : Nat} {member : PlainText × Bytes} {read : Bytes × Value}
    (reads : ReadsMember depth member read) {rest : Bytes} (ends : Ends rest) :
    parseMember (parseValue depth) (marshalMember member ++ rest) = some (read, rest) := by
  have written : marshalMember member ++ rest =
      byte '"' :: (member.1.text ++ byte '"' :: byte ':' :: (member.2 ++ rest)) := by
    simp [marshalMember, quoted]
  have parsed := reads.2 rest ends
  rw [written, parseMember, if_pos rfl, parsePieces_plain member.1.plain]
  simp only [Option.bind_eq_bind, Option.bind_some, skipSpace_colon, if_true,
    skipSpace_of_parsed parsed, parsed, render_raw, ← reads.1]

theorem parseMembers_written {depth : Nat} {members : List (PlainText × Bytes)}
    {reads : List (Bytes × Value)} (written : List.Forall₂ (ReadsMember depth) members reads)
    (nonempty : members ≠ []) (rest : Bytes) {fuel : Nat} (enough : members.length ≤ fuel) :
    parseMembers (parseValue depth) fuel
      (commas (members.map marshalMember) ++ byte '}' :: rest) = some (reads, rest) := by
  induction written generalizing fuel with
  | nil => exact absurd rfl nonempty
  | @cons member read members reads first others ih =>
      have start : ∀ tail, skipSpace (marshalMember member ++ tail) = marshalMember member ++ tail := by
        intro tail
        exact skipSpace_cons (by decide) _
      cases fuel with
      | zero => simp at enough
      | succ fuel =>
          cases others with
          | nil =>
              have parsed := parseMember_written first (ends_brace rest)
              simp only [List.map_singleton, commas, parseMembers, start, parsed,
                Option.bind_eq_bind, Option.bind_some, skipSpace_brace, if_true]
          | @cons next _ members _ _ _ =>
              have parsed := parseMember_written first
                (ends_comma (commas ((next :: members).map marshalMember) ++ byte '}' :: rest))
              have split : commas ((member :: next :: members).map marshalMember) ++ byte '}' :: rest =
                  marshalMember member ++
                    byte ',' :: (commas ((next :: members).map marshalMember) ++ byte '}' :: rest) := by
                simp [commas]
              have remaining := ih (by simp) (show (next :: members).length ≤ fuel by
                simpa using enough)
              have unclosed : byte ',' ≠ byte '}' := by decide
              rw [split]
              simp only [parseMembers, start, parsed, Option.bind_eq_bind, Option.bind_some,
                skipSpace_comma, if_neg unclosed, if_true, remaining]

theorem parseValue_object {depth : Nat} {members : List (PlainText × Bytes)}
    {reads : List (Bytes × Value)} (written : List.Forall₂ (ReadsMember depth) members reads)
    (rest : Bytes) :
    parseValue (depth + 1) (marshalObject members ++ rest) = some (.obj reads, rest) := by
  have split : marshalObject members ++ rest =
      byte '{' :: (commas (members.map marshalMember) ++ byte '}' :: rest) := by
    simp [marshalObject]
  rw [split, parseValue, if_pos rfl, parseObject]
  cases members with
  | nil =>
      cases written
      rfl
  | cons member members =>
      have solid : ∀ text ∈ (member :: members).map marshalMember, text ≠ [] := by
        intro text written
        obtain ⟨other, _, rfl⟩ := List.mem_map.mp written
        simp [marshalMember, quoted]
      have enough : (member :: members).length ≤
          (commas ((member :: members).map marshalMember) ++ byte '}' :: rest).length := by
        have bound := length_commas solid
        rw [List.length_map] at bound
        rw [List.length_append]
        omega
      rw [parseMembers_written written (by simp) rest enough]
      obtain ⟨tail, _, same⟩ := commas_cons (marshalMember member) (members.map marshalMember)
        ends_brace rest
      rw [List.map_cons, same]
      rfl

/-! ### Whole texts -/

theorem parseScalar_not_obj {input : Bytes} {members : List (Bytes × Value)} {rest : Bytes} :
    parseScalar input ≠ some (.obj members, rest) := by
  intro parsed
  cases input with
  | nil => cases parsed
  | cons first behind =>
      have word : ∀ {text : String} {value : Value}, (∀ members, value ≠ .obj members) →
          parseWord text value (first :: behind) ≠ some (.obj members, rest) := by
        intro text value other read
        rw [parseWord] at read
        split at read
        · rw [Option.some.injEq, Prod.mk.injEq] at read
          exact other members read.1
        · cases read
      rw [parseScalar] at parsed
      split at parsed
      · obtain ⟨pieces, _, same⟩ := Option.map_eq_some_iff.mp parsed
        cases same
      · split at parsed
        · exact word (by simp) parsed
        · split at parsed
          · exact word (by simp) parsed
          · split at parsed
            · exact word (by simp) parsed
            · obtain ⟨number, _, same⟩ := Option.map_eq_some_iff.mp parsed
              cases same

theorem parseArray_not_obj {value : Bytes → Option (Value × Bytes)} {input : Bytes}
    {members : List (Bytes × Value)} {rest : Bytes} :
    parseArray value input ≠ some (.obj members, rest) := by
  intro parsed
  rw [parseArray] at parsed
  split at parsed
  · cases parsed
  · split at parsed
    · cases parsed
    · obtain ⟨items, _, same⟩ := Option.map_eq_some_iff.mp parsed
      cases same

/-- A text of an object starts with its brace and has only space behind the closing one. -/
theorem unmarshal_obj {input : Bytes} {members : List (Bytes × Value)}
    (read : unmarshal input = some (.obj members)) :
    ∃ behind rest, skipSpace input = byte '{' :: behind ∧
      parseObject (parseValue 9999) behind = some (.obj members, rest) ∧
      (byte '}' :: rest) <:+ behind ∧ skipSpace rest = [] := by
  obtain ⟨⟨value, rest⟩, parsed, read⟩ := Option.bind_eq_some_iff.mp read
  simp only at read
  split at read
  · rename_i blank
    cases read
    cases start : skipSpace input with
    | nil =>
        rw [start] at parsed
        cases parsed
    | cons first behind =>
        rw [start, maxNestingDepth, parseValue] at parsed
        split at parsed
        · rename_i brace
          exact ⟨behind, rest, by rw [brace], parsed,
            parseObject_closed (parseValue_consumes 9999) parsed, blank⟩
        · split at parsed
          · exact absurd parsed parseArray_not_obj
          · exact absurd parsed parseScalar_not_obj
  · cases read

/-- A written object, with something behind it. -/
theorem unmarshal_object {members : List (PlainText × Bytes)} {reads : List (Bytes × Value)}
    (written : List.Forall₂ (ReadsMember 9999) members reads) (rest : Bytes) :
    unmarshal (marshalObject members ++ rest) =
      if skipSpace rest = [] then some (.obj reads) else none := by
  have parsed := parseValue_object written rest
  have start : skipSpace (marshalObject members ++ rest) = marshalObject members ++ rest :=
    skipSpace_of_parsed parsed
  rw [unmarshal, start, maxNestingDepth, parsed]
  rfl

/-- A text that starts with a brace is an object or nothing. -/
theorem unmarshal_brace {behind : Bytes} {value : Value}
    (read : unmarshal (byte '{' :: behind) = some value) : ∃ members, value = .obj members := by
  obtain ⟨⟨parsed, rest⟩, found, read⟩ := Option.bind_eq_some_iff.mp read
  rw [skipSpace_cons (by decide), maxNestingDepth, parseValue, if_pos rfl, parseObject] at found
  simp only at read
  split at read
  · cases read
    split at found
    · cases found
    · split at found
      · cases found
        exact ⟨[], rfl⟩
      · obtain ⟨members, _, same⟩ := Option.map_eq_some_iff.mp found
        cases same
        exact ⟨members.1, rfl⟩
  · cases read

/-! ### Texts that are no object -/

theorem isSpace_of_skipSpace {input : Bytes} (blank : skipSpace input = []) :
    ∀ char ∈ input, isSpace char = true := List.dropWhile_eq_nil_iff.mp blank

theorem skipSpace_append {front : Bytes} (blank : ∀ char ∈ front, isSpace char = true)
    (rest : Bytes) : skipSpace (front ++ rest) = skipSpace rest :=
  List.dropWhile_append_of_pos blank

/-- The last byte of an object's text. -/
theorem unmarshal_obj_last {input : Bytes} {members : List (Bytes × Value)} {last : UInt8}
    (read : unmarshal (input ++ [last]) = some (.obj members)) :
    last = byte '}' ∨ isSpace last = true := by
  obtain ⟨behind, rest, start, _, closed, blank⟩ := unmarshal_obj read
  have suffix : (byte '}' :: rest) <:+ input ++ [last] :=
    (closed.trans (List.suffix_cons _ _)).trans (start ▸ skipSpace_suffix _)
  have same : (byte '}' :: rest).getLast (List.cons_ne_nil _ _) = last := by
    rw [suffix.getLast (List.cons_ne_nil _ _), List.getLast_concat]
  have member : last ∈ byte '}' :: rest := same ▸ List.getLast_mem _
  rw [List.mem_cons] at member
  exact member.imp_right (isSpace_of_skipSpace blank last)

/-- The first byte of an object's text. -/
theorem unmarshal_obj_first {first : UInt8} {input : Bytes} {members : List (Bytes × Value)}
    (read : unmarshal (first :: input) = some (.obj members)) :
    first = byte '{' ∨ isSpace first = true := by
  obtain ⟨behind, rest, start, _⟩ := unmarshal_obj read
  cases space : isSpace first with
  | true => exact .inr rfl
  | false =>
      rw [skipSpace_cons space] at start
      exact .inl (List.cons.inj start).1

theorem unmarshal_obj_length {input : Bytes} {members : List (Bytes × Value)}
    (read : unmarshal input = some (.obj members)) : 1 < input.length := by
  obtain ⟨behind, rest, start, _, closed, _⟩ := unmarshal_obj read
  have outer := (skipSpace_suffix input).length_le
  have inside := closed.length_le
  rw [start] at outer
  simp only [List.length_cons] at outer inside
  omega

section Braces

variable {value : Bytes → Option (Value × Bytes)}

/-- An object starts with a name or is closed. -/
theorem parseObject_first {input rest : Bytes} {first : UInt8}
    (start : skipSpace input = first :: rest) (open_ : first ≠ byte '}') (name : first ≠ byte '"') :
    parseObject value input = none := by
  cases input with
  | nil => cases start
  | cons char input =>
      simp only [parseObject, start, if_neg open_, List.length_cons, parseMembers, parseMember,
        if_neg name]
      rfl

/-- A name is followed by a colon. -/
theorem parseObject_name {text : Bytes} (plain : text.all isPlain = true) {next : UInt8}
    (solid : isSpace next = false) (other : next ≠ byte ':') (rest : Bytes) :
    parseObject value (quoted text ++ next :: rest) = none := by
  have split : quoted text ++ next :: rest =
      byte '"' :: (text ++ byte '"' :: next :: rest) := by
    simp [quoted]
  rw [parseObject, split, skipSpace_cons (by decide)]
  simp only [List.length_cons, parseMembers,
    skipSpace_cons (show isSpace (byte '"') = false by decide), parseMember,
    parsePieces_plain plain, Option.bind_eq_bind, Option.bind_some, skipSpace_cons solid,
    if_neg other]
  rfl

end Braces

/-- Two bytes in front of an object's text leave a text of an object only if they are space. -/
theorem isSpace_of_unmarshal {front : Bytes} (short : front.length ≤ 2) {next : UInt8}
    (solid : isSpace next = false) (other : next ≠ byte ':') {rest : Bytes}
    {members : List (Bytes × Value)}
    (read : unmarshal (front ++ byte '{' :: byte '"' :: next :: rest) = some (.obj members)) :
    ∀ char ∈ front, isSpace char = true := by
  obtain ⟨behind, tail, start, parsed, _, blank⟩ := unmarshal_obj read
  have brace : ∀ rest, skipSpace (byte '{' :: rest) = byte '{' :: rest :=
    skipSpace_cons (by decide)
  have twice : ∀ {input rest : Bytes}, skipSpace input = byte '{' :: rest →
      parseObject (parseValue 9999) input ≠ some (.obj members, tail) := by
    intro input rest start parsed
    rw [parseObject_first start (by decide) (by decide)] at parsed
    cases parsed
  match front with
  | [] => intro char member; cases member
  | [first] =>
      cases space : isSpace first with
      | true => simpa using space
      | false =>
          rw [List.singleton_append, skipSpace_cons space] at start
          rw [← (List.cons.inj start).2] at parsed
          exact absurd parsed (twice (brace _))
  | [first, second] =>
      cases space : isSpace first with
      | true =>
          cases secondSpace : isSpace second with
          | true => simpa using ⟨space, secondSpace⟩
          | false =>
              rw [show [first, second] = [first] ++ [second] from rfl, List.append_assoc,
                skipSpace_append (by simpa using space), List.singleton_append,
                skipSpace_cons secondSpace] at start
              rw [← (List.cons.inj start).2] at parsed
              exact absurd parsed (twice (brace _))
      | false =>
          rw [List.cons_append, skipSpace_cons space, List.singleton_append] at start
          rw [← (List.cons.inj start).2] at parsed
          cases secondSpace : isSpace second with
          | true =>
              have skipped : skipSpace (second :: byte '{' :: byte '"' :: next :: rest) =
                  byte '{' :: byte '"' :: next :: rest := by
                rw [← List.singleton_append, skipSpace_append (by simpa using secondSpace), brace]
              exact absurd parsed (twice skipped)
          | false =>
              by_cases closed : second = byte '}'
              · rw [closed, parseObject, skipSpace_cons (by decide)] at parsed
                simp only [if_true, Option.some.injEq, Prod.mk.injEq] at parsed
                rw [← parsed.2, brace] at blank
                cases blank
              · by_cases name : second = byte '"'
                · have none : parseObject (parseValue 9999) (quoted [byte '{'] ++ next :: rest) =
                      none := parseObject_name (by decide) solid other rest
                  rw [name] at parsed
                  exact absurd (none.symm.trans parsed) (by simp)
                · rw [parseObject_first (skipSpace_cons secondSpace _) closed name] at parsed
                  cases parsed

end Json
