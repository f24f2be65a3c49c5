import ShinzoGenerator.Lib.TextSearch

/-! The classification of upstream errors by their texts. -/

set_option autoImplicit false

namespace ShinzoGenerator.Errors

open TextSearch

def errStrAlreadyExists : String := "already exists"
def errStrTransactionConflict : String := "transaction conflict"
def errStrDocumentDeleted : String := "has been deleted"

def errStrNotFound : String := "not found"
def errStrDoesNotExist : String := "does not exist"

def isErrNotFound (text : String) : Bool :=
  contains text errStrNotFound || contains text errStrDoesNotExist

def isErrAlreadyExists (text : String) : Bool := contains text errStrAlreadyExists
def isErrTransactionConflict (text : String) : Bool := contains text errStrTransactionConflict
def isErrDocumentDeleted (text : String) : Bool := contains text errStrDocumentDeleted

/-- The texts the store path looks for. -/
def markers : List String :=
  [errStrAlreadyExists, errStrTransactionConflict, errStrDocumentDeleted]

theorem markers_lettered : ∀ marker ∈ markers, Lettered marker ∧ marker ≠ "" ∧
    ' ' ∈ marker.toList := by
  decide

/-- Two texts that no classification tells apart. -/
def SameKind (left right : String) : Prop :=
  ∀ marker ∈ markers, contains left marker = contains right marker

theorem SameKind.trans {left middle right : String} (first : SameKind left middle)
    (second : SameKind middle right) : SameKind left right :=
  fun marker listed => (first marker listed).trans (second marker listed)

theorem SameKind.alreadyExists {left right : String} (same : SameKind left right) :
    isErrAlreadyExists left = isErrAlreadyExists right :=
  same _ (by decide)

theorem SameKind.transactionConflict {left right : String} (same : SameKind left right) :
    isErrTransactionConflict left = isErrTransactionConflict right :=
  same _ (by decide)

/-- The error does not claim that something exists. -/
def Truthful (text : String) : Prop := isErrAlreadyExists text = false

theorem SameKind.truthful {left right : String} (same : SameKind left right)
    (truthful : Truthful right) : Truthful left :=
  same.alreadyExists.trans truthful

/-- The error is none of those the store path looks for. -/
def Unmarked (text : String) : Prop := ∀ marker ∈ markers, contains text marker = false

theorem SameKind.unmarked {left right : String} (same : SameKind left right)
    (unmarked : Unmarked right) : Unmarked left :=
  fun marker listed => (same marker listed).trans (unmarked marker listed)

theorem Unmarked.truthful {text : String} (unmarked : Unmarked text) : Truthful text :=
  unmarked _ (by decide)

theorem Unmarked.not_conflict {text : String} (unmarked : Unmarked text) :
    isErrTransactionConflict text = false :=
  unmarked _ (by decide)

/-- The markers by their characters, so that a context is compared with them once. -/
theorem inert_markers {piece alreadyExists conflict deleted : List Char}
    (spelled : markers = [.ofList alreadyExists, .ofList conflict, .ofList deleted])
    (apart : ∀ word ∈ [alreadyExists, conflict, deleted], word ≠ [] ∧ endsApart word piece = true) :
    ∀ marker ∈ markers, InertBefore (.ofList piece) marker := by
  intro marker listed
  have known : ∃ word ∈ [alreadyExists, conflict, deleted], .ofList word = marker := by
    rw [spelled] at listed
    simpa [eq_comm] using listed
  obtain ⟨word, member, rfl⟩ := known
  obtain ⟨long, ends⟩ := apart word member
  exact inertBefore_ofList long ends

/-- Context that is put before an error keeps its kind. -/
theorem sameKind_before {piece : String} (inert : ∀ marker ∈ markers, InertBefore piece marker)
    (text : String) : SameKind (piece ++ text) text :=
  fun marker listed => contains_before (inert marker listed) text

theorem sameKind_after {piece : String} (inert : ∀ marker ∈ markers, InertAfter piece marker)
    (text : String) : SameKind (text ++ piece) text :=
  fun marker listed => contains_after (inert marker listed) text

theorem sameKind_natToString (count : Nat) (text : String) :
    SameKind (toString count ++ text) text := by
  intro marker listed
  obtain ⟨lettered, long, _⟩ := markers_lettered marker listed
  exact contains_before ((foreign_natToString lettered count).inertBefore long) text

theorem sameKind_intToString (number : Int) (text : String) :
    SameKind (toString number ++ text) text := by
  intro marker listed
  obtain ⟨lettered, long, _⟩ := markers_lettered marker listed
  exact contains_before ((foreign_intToString lettered number).inertBefore long) text

/-- What closes a name in the context of an error: nothing that matters, and a colon. -/
def Closes (close : String) : Prop :=
  ∃ middle, close = middle ++ ": " ∧ ∀ marker ∈ markers, InertAfter middle marker

theorem closes_colon : Closes ": " := ⟨"", by decide, by decide⟩

theorem closes_batch : Closes " batch: " := ⟨" batch", by decide, by decide⟩

theorem closes_perDocument : Closes " batch per-document: " :=
  ⟨" batch per-document", by decide, by decide⟩

/-- A context that mentions a name without blanks keeps the kind of its error. -/
theorem sameKind_context {lead name close : String}
    (inert : ∀ marker ∈ markers, InertBefore lead marker) (plain : ' ' ∉ name.toList)
    (closes : Closes close) (text : String) : SameKind (lead ++ name ++ close ++ text) text := by
  obtain ⟨middle, rfl, after⟩ := closes
  intro marker listed
  obtain ⟨lettered, long, blank⟩ := markers_lettered marker listed
  have colon : ∀ marker ∈ markers, Foreign ":" marker := by decide
  have space : ∀ marker ∈ markers, InertBefore " " marker := by decide
  have split : lead ++ name ++ (middle ++ ": ") ++ text =
      lead ++ ((name ++ middle) ++ (":" ++ (" " ++ text))) := by
    have spelled : ": " = ":" ++ " " := rfl
    simp only [spelled, String.append_assoc]
  rw [split, contains_before (inert marker listed), contains_separated (colon marker listed) long
    (by decide), contains_after (after marker listed), contains_of_absent plain blank,
    Bool.false_or, contains_before (space marker listed)]

end ShinzoGenerator.Errors
