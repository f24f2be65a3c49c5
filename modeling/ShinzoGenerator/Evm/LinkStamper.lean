import ShinzoGenerator.Defra.BlockHandler
import ShinzoGenerator.Lib.Strconv

/-! The link stamper of the EVM chains: it fills the fields `_blockID` and
`_transactionID` of the documents from the docIDs of the groups written before. -/

set_option autoImplicit false

namespace ShinzoGenerator.Evm

open Chains Defra Errors Strconv

/-- The names of a chain's collections all begin with the chain's own. -/
structure CollectionNames where
  chainPrefix : String
  plain : ' ' ∉ chainPrefix.toList

def CollectionNames.name (names : CollectionNames) (collection : Collection) : String :=
  names.chainPrefix ++ "__" ++ collection.suffix

def transactionHashFieldName : String := "transactionHash"

/-- The lookup state: the last id recorded for a hash comes first. -/
structure EvmLinks where
  txHashToID : List (String × String) := []
  blockID : String := ""
deriving DecidableEq

/-- An assignment to a key of the map. -/
def setField (fields : Fields) (name : String) (value : Value) : Fields :=
  fields.filter (·.1 ≠ name) ++ [(name, value)]

/-- The string at a field unless it is empty. -/
def filled? (fields : Fields) (name : String) : Option String :=
  (stringField? fields name).filter (· ≠ "")

def missingHash (kind : String) (index : Nat) (field : String) : String :=
  "link stamper: " ++ kind ++ " doc " ++ (toString index ++
    (" has missing, non-string, or empty " ++ quote field))

def missingBlock (kind : String) (index : Nat) : String :=
  "link stamper: no block docID registered before stamping " ++ kind ++ " doc " ++ toString index

/-- What transaction and log documents have in common: their hash field is checked, and
they get the block's docID. -/
def stampBlockID (kind field : String) (links : EvmLinks) (index : Nat) (doc : Fields) :
    Except String (String × Fields) :=
  match filled? doc field with
  | none => .error (missingHash kind index field)
  | some hash =>
      if links.blockID = "" then .error (missingBlock kind index)
      else .ok (hash, setField doc blockIDFieldName (.string links.blockID))

/-- A hash without a recorded id leaves the document as it is. -/
def linkTransaction (links : EvmLinks) (hash : String) (doc : Fields) : Fields :=
  match links.txHashToID.lookup hash with
  | some id => setField doc transactionIDFieldName (.string id)
  | none => doc

def stampTransaction (links : EvmLinks) (index : Nat) (doc : Fields) : Except String Fields :=
  (stampBlockID "transaction" hashFieldName links index doc).map (·.2)

def stampLog (links : EvmLinks) (index : Nat) (doc : Fields) : Except String Fields :=
  (stampBlockID "log" transactionHashFieldName links index doc).map fun stamped =>
    linkTransaction links stamped.1 stamped.2

def stampAccessListEntry (aleParentRefs : List String) (links : EvmLinks) (index : Nat)
    (doc : Fields) : Except String Fields :=
  match aleParentRefs[index]? with
  | some hash => .ok (linkTransaction links hash doc)
  | none => .ok doc

/-- The documents before one that fails stay stamped. -/
def stampEach (stamp : Nat → Fields → Except String Fields) :
    Nat → List Fields → List Fields × Option String
  | _, [] => ([], none)
  | index, doc :: docs =>
      match stamp index doc with
      | .error text => (doc :: docs, some text)
      | .ok stamped =>
          let rest := stampEach stamp (index + 1) docs
          (stamped :: rest.1, rest.2)

def unknownCollection (names : CollectionNames) (collection : Collection) : String :=
  "link stamper: unknown collection " ++ quote (names.name collection)

def stampGroup (names : CollectionNames) (aleParentRefs : List String) (collection : Collection)
    (docs : List Fields) (links : EvmLinks) : List Fields × Option String :=
  match collection with
  | .block => (docs, none)
  | .transaction => stampEach (stampTransaction links) 0 docs
  | .log => stampEach (stampLog links) 0 docs
  | .accessListEntry => stampEach (stampAccessListEntry aleParentRefs links) 0 docs
  | unknown => (docs, some (unknownCollection names unknown))

/-- Transactions behind the end of the ids are checked and not recorded. -/
def recordTransactions : Nat → List Fields → List String → EvmLinks → EvmLinks × Option String
  | _, [], _, links => (links, none)
  | index, doc :: docs, ids, links =>
      match filled? doc hashFieldName with
      | none => (links, some (missingHash "transaction" index hashFieldName))
      | some hash =>
          match ids with
          | [] => recordTransactions (index + 1) docs [] links
          | id :: ids =>
              recordTransactions (index + 1) docs ids
                { links with txHashToID := (hash, id) :: links.txHashToID }

def recordGroup (names : CollectionNames) (collection : Collection) (docs : List Fields)
    (ids : List String) (links : EvmLinks) : EvmLinks × Option String :=
  match collection with
  | .block =>
      match ids with
      | [] => (links, none)
      | id :: _ => ({ links with blockID := id }, none)
  | .transaction => recordTransactions 0 docs ids links
  | .log | .accessListEntry => (links, none)
  | unknown => (links, some (unknownCollection names unknown))

/-! ### The error texts -/

/-- A context that is put together from three literals. -/
theorem inert_joined {before kind after alreadyExists conflict deleted : List Char}
    (spelled : markers = [.ofList alreadyExists, .ofList conflict, .ofList deleted])
    (apart : ∀ word ∈ [alreadyExists, conflict, deleted],
      word ≠ [] ∧ TextSearch.endsApart word (before ++ kind ++ after) = true) :
    ∀ marker ∈ markers, TextSearch.InertBefore
      (.ofList before ++ .ofList kind ++ .ofList after) marker := by
  rw [← String.ofList_append, ← String.ofList_append]
  exact inert_markers spelled apart

theorem quoted_unmarked {text : String} (blank : ' ' ∉ text.toList) : Unmarked (quote text) :=
  fun marker listed => TextSearch.contains_of_absent (blank_not_mem_quote blank)
    (markers_lettered marker listed).2.2

theorem missingHash_unmarked {kind field : String} (index : Nat)
    (lead : ∀ marker ∈ markers, TextSearch.InertBefore ("link stamper: " ++ kind ++ " doc ") marker)
    (blank : ' ' ∉ field.toList) : Unmarked (missingHash kind index field) := by
  have before := (sameKind_before lead _).trans (sameKind_natToString index
    (" has missing, non-string, or empty " ++ quote field))
  have after : SameKind (" has missing, non-string, or empty " ++ quote field) (quote field) :=
    sameKind_before (inert_markers rfl (by decide)) _
  exact (before.trans after).unmarked (quoted_unmarked blank)

theorem missingBlock_unmarked {kind : String} (index : Nat)
    (lead : ∀ marker ∈ markers, TextSearch.InertBefore
      ("link stamper: no block docID registered before stamping " ++ kind ++ " doc ") marker) :
    Unmarked (missingBlock kind index) := by
  have number := sameKind_natToString index ""
  rw [String.append_empty] at number
  exact ((sameKind_before lead _).trans number).unmarked (by unfold Unmarked; decide)

theorem unknownCollection_unmarked (names : CollectionNames) (collection : Collection) :
    Unmarked (unknownCollection names collection) := by
  have blank : ' ' ∉ (names.name collection).toList := by
    have plain := names.plain
    unfold CollectionNames.name
    rw [String.toList_append, String.toList_append]
    cases collection <;> simp [plain, Collection.suffix]
  exact (sameKind_before (inert_markers rfl (by decide)) _).unmarked (quoted_unmarked blank)

theorem stampBlockID_unmarked {kind field : String}
    (hash : ∀ index, Unmarked (missingHash kind index field))
    (block : ∀ index, Unmarked (missingBlock kind index)) {links : EvmLinks} {index : Nat}
    {doc : Fields} {text : String}
    (failed : stampBlockID kind field links index doc = .error text) : Unmarked text := by
  unfold stampBlockID at failed
  split at failed
  · cases failed
    exact hash index
  · split at failed
    · cases failed
      exact block index
    · cases failed

theorem missingTransactionHash_unmarked (index : Nat) :
    Unmarked (missingHash "transaction" index hashFieldName) :=
  missingHash_unmarked index (inert_joined rfl (by decide)) (by decide)

theorem stampTransaction_unmarked {links : EvmLinks} {index : Nat} {doc : Fields} {text : String}
    (failed : stampTransaction links index doc = .error text) : Unmarked text := by
  unfold stampTransaction at failed
  cases checked : stampBlockID "transaction" hashFieldName links index doc with
  | ok stamped =>
      rw [checked] at failed
      cases failed
  | error other =>
      rw [checked] at failed
      cases failed
      exact stampBlockID_unmarked missingTransactionHash_unmarked
        (fun index => missingBlock_unmarked index (inert_joined rfl (by decide))) checked

theorem stampLog_unmarked {links : EvmLinks} {index : Nat} {doc : Fields} {text : String}
    (failed : stampLog links index doc = .error text) : Unmarked text := by
  unfold stampLog at failed
  cases checked : stampBlockID "log" transactionHashFieldName links index doc with
  | ok stamped =>
      rw [checked] at failed
      cases failed
  | error other =>
      rw [checked] at failed
      cases failed
      exact stampBlockID_unmarked
        (fun index => missingHash_unmarked index (inert_joined rfl (by decide)) (by decide))
        (fun index => missingBlock_unmarked index (inert_joined rfl (by decide))) checked

/-! ### The stamper -/

theorem stampEach_length (stamp : Nat → Fields → Except String Fields) (index : Nat)
    (docs : List Fields) : (stampEach stamp index docs).1.length = docs.length := by
  induction docs generalizing index with
  | nil => rfl
  | cons doc docs ih =>
      unfold stampEach
      cases stamp index doc with
      | error text => rfl
      | ok stamped => exact congrArg (· + 1) (ih (index + 1))

theorem stampEach_error {stamp : Nat → Fields → Except String Fields} {index : Nat}
    {docs : List Fields} {text : String} (failed : (stampEach stamp index docs).2 = some text) :
    ∃ position doc, stamp position doc = .error text := by
  induction docs generalizing index with
  | nil => cases failed
  | cons doc docs ih =>
      unfold stampEach at failed
      cases stamping : stamp index doc with
      | error other =>
          rw [stamping] at failed
          cases failed
          exact ⟨index, doc, stamping⟩
      | ok stamped =>
          rw [stamping] at failed
          exact ih failed

theorem recordTransactions_unmarked {index : Nat} {docs : List Fields} {ids : List String}
    {links : EvmLinks} {text : String}
    (failed : (recordTransactions index docs ids links).2 = some text) : Unmarked text := by
  induction docs generalizing index ids links with
  | nil => cases failed
  | cons doc docs ih =>
      unfold recordTransactions at failed
      split at failed
      · cases failed
        exact missingTransactionHash_unmarked index
      · split at failed
        · exact ih failed
        · exact ih failed

theorem stampGroup_unmarked {names : CollectionNames} {refs : List String}
    {collection : Collection} {docs : List Fields} {links : EvmLinks} {text : String}
    (failed : (stampGroup names refs collection docs links).2 = some text) : Unmarked text := by
  cases collection with
  | block => cases failed
  | transaction =>
      obtain ⟨_, _, stamping⟩ := stampEach_error failed
      exact stampTransaction_unmarked stamping
  | log =>
      obtain ⟨_, _, stamping⟩ := stampEach_error failed
      exact stampLog_unmarked stamping
  | accessListEntry =>
      obtain ⟨_, _, stamping⟩ := stampEach_error failed
      unfold stampAccessListEntry at stamping
      split at stamping <;> cases stamping
  | blockSignature =>
      cases failed
      exact unknownCollection_unmarked names .blockSignature
  | snapshotSignature =>
      cases failed
      exact unknownCollection_unmarked names .snapshotSignature

theorem recordGroup_unmarked {names : CollectionNames} {collection : Collection}
    {docs : List Fields} {ids : List String} {links : EvmLinks} {text : String}
    (failed : (recordGroup names collection docs ids links).2 = some text) : Unmarked text := by
  cases collection with
  | block => cases ids <;> cases failed
  | transaction => exact recordTransactions_unmarked failed
  | log => cases failed
  | accessListEntry => cases failed
  | blockSignature =>
      cases failed
      exact unknownCollection_unmarked names .blockSignature
  | snapshotSignature =>
      cases failed
      exact unknownCollection_unmarked names .snapshotSignature

/-- The stamper that `newEvmLinkStamper` makes for the parent references. -/
def evmLinkStamper (names : CollectionNames) (aleParentRefs : List String) :
    LinkStamper EvmLinks where
  stampBeforeWrite collection docs links :=
    (links, stampGroup names aleParentRefs collection docs links)
  recordDocIDs := recordGroup names
  inPlace := by
    intro collection docs links
    cases collection with
    | block => rfl
    | transaction => exact stampEach_length _ 0 docs
    | log => exact stampEach_length _ 0 docs
    | accessListEntry => exact stampEach_length _ 0 docs
    | blockSignature => rfl
    | snapshotSignature => rfl
  stampErrors _ _ _ _ failed := (stampGroup_unmarked failed).truthful
  recordErrors _ _ _ _ _ failed := (recordGroup_unmarked failed).truthful

end ShinzoGenerator.Evm
