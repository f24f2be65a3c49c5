import Mathlib.Data.List.Basic

/-! Texts as lines. A scanner cuts its input at line feeds and gives up on an input with
a line that its buffer cannot hold; the end of the input is found by a read of its own. -/

set_option autoImplicit false

namespace Lines

def lineFeed : UInt8 := 10

def carriageReturn : UInt8 := 13

/-- What stands before, between and behind the line feeds. -/
def pieces (input : List UInt8) : List (List UInt8) := input.splitOn lineFeed

def dropCR (line : List UInt8) : List UInt8 :=
  if line.getLast? = some carriageReturn then line.dropLast else line

/-- The lines; nothing behind the last line feed is no line. -/
def tokens (input : List UInt8) : List (List UInt8) :=
  let parts := pieces input
  (if parts.getLast? = some [] then parts.dropLast else parts).map dropCR

/-- A line and its line feed have to fit the buffer. -/
def Short (maxTokenSize : Nat) (input : List UInt8) : Prop :=
  ∀ piece ∈ pieces input, piece.length < maxTokenSize

instance (maxTokenSize : Nat) (input : List UInt8) : Decidable (Short maxTokenSize input) :=
  List.decidableBAll (fun piece : List UInt8 => piece.length < maxTokenSize) (pieces input)

def scan (maxTokenSize : Nat) (input : List UInt8) : Option (List (List UInt8)) :=
  if Short maxTokenSize input then some (tokens input) else none

/-- The lines between two line feeds of the input. -/
def inner (input : List UInt8) : List (List UInt8) := (pieces input).tail.dropLast

/-! ### Cutting a concatenation -/

theorem pieces_cons (char : UInt8) (input : List UInt8) :
    pieces (char :: input) =
      if char = lineFeed then [] :: pieces input else (pieces input).modifyHead (char :: ·) := by
  simp only [pieces, List.splitOn, List.splitOnP_cons_eq_if_modifyHead, beq_iff_eq]

theorem pieces_ne_nil (input : List UInt8) : pieces input ≠ [] := List.splitOnP_ne_nil _ _

theorem pieces_of_solid {input : List UInt8} (solid : lineFeed ∉ input) : pieces input = [input] := by
  induction input with
  | nil => rfl
  | cons char input ih =>
      rw [List.mem_cons, not_or] at solid
      rw [pieces_cons, if_neg (Ne.symm solid.1), ih solid.2]
      rfl

/-- The last line of the left part and the first one of the right part are joined. -/
theorem pieces_append (left right : List UInt8) :
    pieces (left ++ right) =
      (pieces left).dropLast ++ (pieces right).modifyHead ((pieces left).getLastD [] ++ ·) := by
  induction left with
  | nil => exact (congrFun List.modifyHead_id (pieces right)).symm
  | cons char left ih =>
      rw [List.cons_append, pieces_cons, pieces_cons, ih]
      cases cut : pieces left with
      | nil => exact absurd cut (pieces_ne_nil left)
      | cons first others =>
          split
          · rfl
          · cases others with
            | nil => cases pieces right <;> rfl
            | cons second others => rfl

/-- Bytes without a line feed belong to the line behind them. -/
theorem pieces_append_left {left : List UInt8} (solid : lineFeed ∉ left) (right : List UInt8) :
    pieces (left ++ right) = (pieces right).modifyHead (left ++ ·) := by
  rw [pieces_append, pieces_of_solid solid]
  rfl

/-- Bytes without a line feed belong to the line before them. -/
theorem pieces_append_right (left : List UInt8) {right : List UInt8} (solid : lineFeed ∉ right) :
    pieces (left ++ right) = (pieces left).dropLast ++ [(pieces left).getLastD [] ++ right] := by
  rw [pieces_append, pieces_of_solid solid]
  rfl

theorem dropCR_append {left : List UInt8} (ends : left.getLast? ≠ some carriageReturn)
    (right : List UInt8) : dropCR (left ++ right) = left ++ dropCR right := by
  cases right with
  | nil =>
      have none : dropCR [] = [] := by decide
      rw [dropCR, List.append_nil, if_neg ends, none, List.append_nil]
  | cons first right =>
      rw [dropCR, dropCR, List.getLast?_append_of_ne_nil _ (List.cons_ne_nil _ _)]
      split
      · rw [List.dropLast_append_of_ne_nil (List.cons_ne_nil _ _)]
      · rfl

theorem tokens_of_last {input : List UInt8} {front : List (List UInt8)} {last : List UInt8}
    (cut : pieces input = front ++ [last]) (solid : last ≠ []) :
    tokens input = (pieces input).map dropCR := by
  have kept : (pieces input).getLast? ≠ some [] := by
    rw [cut, List.getLast?_append_of_ne_nil _ (by simp)]
    simpa using solid
  rw [tokens, if_neg kept]

theorem pieces_line {line : List UInt8} (solid : lineFeed ∉ line) (rest : List UInt8) :
    pieces (line ++ lineFeed :: rest) = line :: pieces rest := by
  rw [pieces_append_left solid, pieces_cons, if_pos rfl, List.modifyHead_cons, List.append_nil]

/-- A line with its line feed is the first of the lines. -/
theorem tokens_line {line : List UInt8} (solid : lineFeed ∉ line) (rest : List UInt8) :
    tokens (line ++ lineFeed :: rest) = dropCR line :: tokens rest := by
  rw [tokens, tokens, pieces_line solid]
  cases others : pieces rest with
  | nil => exact absurd others (pieces_ne_nil rest)
  | cons next others =>
      rw [List.getLast?_cons_cons, List.dropLast_cons_cons]
      split <;> rfl

end Lines
