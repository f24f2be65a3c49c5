import Mathlib.Data.List.Sort
import ShinzoGenerator.Defra.Database
import ShinzoGenerator.Errors
import ShinzoGenerator.Lib.Attempt

/-! `BlockHandler.Store`: the block document in its own transaction, then the other
groups in batches, each batch with its retries and its per-document fallback. -/

set_option autoImplicit false

namespace ShinzoGenerator.Defra

open Chains Errors

/-! ### The handler and what it meets -/

/-- `docID` and `cid` name a document by its content. -/
structure BlockHandler where
  chainName : String
  maxDocsPerTxn : Nat
  docID : Doc → String
  cid : Doc → String
  positive : 0 < maxDocsPerTxn
  plain : ' ' ∉ chainName.toList

def BlockHandler.collectionName (handler : BlockHandler) (collection : Collection) : String :=
  handler.chainName ++ "__" ++ collection.suffix

/-- A chain's resolver of links between documents, with its lookup state. Stamping
changes documents in place, and the text of an existing block stays reserved. -/
structure LinkStamper (σ : Type) where
  stampBeforeWrite : Collection → List Fields → σ → σ × List Fields × Option String
  recordDocIDs : Collection → List Fields → List String → σ → σ × Option String
  inPlace : ∀ collection docs links,
    (stampBeforeWrite collection docs links).2.1.length = docs.length
  stampErrors : ∀ collection docs links text,
    (stampBeforeWrite collection docs links).2.2 = some text → isErrAlreadyExists text = false
  recordErrors : ∀ collection docs ids links text,
    (recordDocIDs collection docs ids links).2 = some text → isErrAlreadyExists text = false

/-- How the database, the signer and the context behave, by the number of the call.
Only content that is stored answers that it already exists; a bulk insertion may also
meet content that is purged before its fallback looks. -/
structure Environment where
  failure : Nat → Option String
  cancelled : Nat → Bool
  leaked : Nat → Nat
  purged : Nat → Bool := fun _ => false
  sign : Nat → List String → Option Fields
  reserved : ∀ call text, failure call = some text → isErrAlreadyExists text = false

/-- The state of one `Store` call; `collector` holds the CIDs gathered for signing. -/
structure Session (σ : Type) where
  db : DB
  links : σ
  collector : List String := []
  calls : Nat := 0

/-- An error with the ids that were written before it. -/
structure StoreError where
  text : String
  docIDs : List String := []
deriving DecidableEq

abbrev Write (σ α : Type) := Attempt (Session σ) StoreError α

def contextCanceled : String := "context canceled"

def documentDeletedText : String := "a document with the given ID has been deleted"

variable {σ : Type}

/-- One call to the database; `context` is what its error is wrapped in. -/
def call (env : Environment) (context : String) : Write σ Unit := fun session =>
  match env.failure session.calls with
  | some text => (.error { text := context ++ text }, { session with calls := session.calls + 1 })
  | none => (.ok (), { session with calls := session.calls + 1 })

/-- A successful insertion puts the document's CID into the collector, whatever
becomes of the transaction. -/
def collect (handler : BlockHandler) (docs : List Doc) : Write σ Unit :=
  Attempt.change fun session =>
    { session with collector := session.collector ++ docs.map handler.cid }

def commit (env : Environment) (context : String) (db : DB) : Write σ Unit := do
  call env context
  Attempt.change fun session => { session with db }

/-! ### The block document -/

/-- Creates the block document in its own transaction. -/
def storeBlockDoc (env : Environment) (handler : BlockHandler) (doc : Doc) : Write σ String := do
  call env "create txn for block: "
  call env "get block collection: "
  call env "build block document: "
  call env "create block: "
  let session ← Attempt.read
  match session.db.add doc with
  | .error .alreadyExists => Attempt.fail { text := "block already exists" }
  | .error .deleted => Attempt.fail { text := "create block: " ++ documentDeletedText }
  | .ok db =>
      collect handler [doc]
      commit env "commit block: " db
      pure (handler.docID doc)

/-! ### One batch -/

/-- The per-document fallback inside its transaction: the transaction's documents,
what was written and how many were skipped. -/
def addEach (env : Environment) (handler : BlockHandler) (name : String) :
    List Doc → DB → Write σ (DB × List Doc × Nat)
  | [], db => pure (db, [], 0)
  | doc :: docs, db => do
      call env ("create doc in " ++ name ++ ": ")
      call env ("add document to " ++ name ++ ": ")
      match db.add doc with
      | .error .alreadyExists =>
          let rest ← addEach env handler name docs db
          pure (rest.1, rest.2.1, rest.2.2 + 1)
      | .error .deleted =>
          Attempt.fail { text := "add document to " ++ name ++ ": " ++ documentDeletedText }
      | .ok next =>
          collect handler [doc]
          let rest ← addEach env handler name docs next
          pure (rest.1, doc :: rest.2.1, rest.2.2)

def addDocsSkipExisting (env : Environment) (handler : BlockHandler) (name : String)
    (docs : List Doc) : Write σ (List Doc × Nat) := do
  call env ("create txn for " ++ name ++ ": ")
  call env ("get collection " ++ name ++ ": ")
  let session ← Attempt.read
  let added ← addEach env handler name docs session.db
  if added.2.1 = [] then pure added.2
  else
    commit env ("commit " ++ name ++ " batch: ") added.1
    pure added.2

/-- Any skipped document makes the batch fail, with a text of its own. -/
def writeBatchSkipExisting (env : Environment) (handler : BlockHandler) (name : String)
    (docs : List Doc) : Write σ (List String) := do
  let outcome ← (addDocsSkipExisting env handler name docs).mapError fun error =>
    { text := "write " ++ name ++ " batch per-document: " ++ error.text }
  if 0 < outcome.2 then
    Attempt.fail
      { text := name ++ " batch: " ++ toString outcome.2 ++ " of " ++ toString docs.length ++
          " documents were previously stored"
        docIDs := outcome.1.map handler.docID }
  else pure (outcome.1.map handler.docID)

/-- The bulk insertion; `none` says that some document is already stored. A failed
one may leave CIDs in the collector. -/
def addManyDocuments (env : Environment) (handler : BlockHandler) (name : String)
    (docs : List Doc) : Write σ (Option DB) := fun session =>
  let failed :=
    { session with
      calls := session.calls + 1
      collector := session.collector ++ (docs.take (env.leaked session.calls)).map handler.cid }
  match env.failure session.calls with
  | some text => (.error { text := "add documents to " ++ name ++ ": " ++ text }, failed)
  | none =>
      if env.purged session.calls then (.ok none, failed)
      else
        match session.db.addAll docs with
        | .error .alreadyExists => (.ok none, failed)
        | .error .deleted =>
            (.error { text := "add documents to " ++ name ++ ": " ++ documentDeletedText }, failed)
        | .ok db =>
            (.ok (some db),
              { session with
                calls := session.calls + 1
                collector := session.collector ++ docs.map handler.cid })

/-- The documents are built from their data maps one by one. -/
def buildDocs (env : Environment) (name : String) : List Doc → Write σ Unit
  | [] => pure ()
  | _ :: docs => do
      call env ("create doc in " ++ name ++ ": ")
      buildDocs env name docs

def createDocsInTxn (env : Environment) (handler : BlockHandler) (name : String)
    (docs : List Doc) : Write σ (List String) := do
  call env ("create txn for " ++ name ++ ": ")
  call env ("get collection " ++ name ++ ": ")
  buildDocs env name docs
  if docs = [] then pure []
  else
    match ← addManyDocuments env handler name docs with
    | none => writeBatchSkipExisting env handler name docs
    | some db =>
        commit env ("commit " ++ name ++ " batch: ") db
        pure (docs.map handler.docID)

/-- A test of the context. -/
def cancelled (env : Environment) : Write σ Bool := fun session =>
  (.ok (env.cancelled session.calls), { session with calls := session.calls + 1 })

def maxBatchRetries : Nat := 3

/-- Runs a batch, and again on a transaction conflict; a failed try gives its CIDs back. -/
def writeBatchWithRetry (env : Environment) (write : Write σ (List String)) :
    Nat → Write σ (List String)
  | 0 => pure []
  | remaining + 1 =>
      write.recover fun before error => do
        Attempt.change fun after =>
          { after with collector := after.collector.take before.collector.length }
        if isErrTransactionConflict error.text = false ∨ remaining = 0 then Attempt.fail error
        else if ← cancelled env then
          Attempt.fail { text := contextCanceled, docIDs := error.docIDs }
        else writeBatchWithRetry env write remaining

/-! ### Groups -/

/-- Consecutive batches of at most `size` documents. -/
def batches (size : Nat) : Nat → List Doc → List (List Doc)
  | 0, _ => []
  | fuel + 1, docs =>
      if docs = [] then [] else docs.take size :: batches size fuel (docs.drop size)

/-- The batches one after the other, up to the first that fails. -/
def writeBatches (env : Environment) (handler : BlockHandler) (name : String) :
    List (List Doc) → Write σ (List String)
  | [] => pure []
  | batch :: rest => do
      let ids ← writeBatchWithRetry env (createDocsInTxn env handler name batch) maxBatchRetries
      let more ← (writeBatches env handler name rest).mapError fun error =>
        { error with docIDs := ids ++ error.docIDs }
      pure (ids ++ more)

def createDocBatch (env : Environment) (handler : BlockHandler) (name : String) (docs : List Doc)
    (batchSize : Nat) : Write σ (List String) :=
  writeBatches env handler name (batches batchSize docs.length docs)

def writeGroup (env : Environment) (handler : BlockHandler) (group : DocumentGroup) :
    Write σ (List String) :=
  createDocBatch env handler (handler.collectionName group.collection) group.stored
    (if group.batchSize = 0 then handler.maxDocsPerTxn else group.batchSize)

/-- Stamps a group in place; without a stamper nothing happens. -/
def stampBeforeWrite (stamper : Option (LinkStamper σ)) (group : DocumentGroup)
    (session : Session σ) : DocumentGroup × Option String × Session σ :=
  match stamper with
  | none => (group, none, session)
  | some stamper =>
      let stamped := stamper.stampBeforeWrite group.collection group.docs session.links
      ({ group with docs := stamped.2.1 }, stamped.2.2, { session with links := stamped.1 })

def recordDocIDs (stamper : Option (LinkStamper σ)) (group : DocumentGroup) (ids : List String)
    (session : Session σ) : Option String × Session σ :=
  match stamper with
  | none => (none, session)
  | some stamper =>
      let recorded := stamper.recordDocIDs group.collection group.docs ids session.links
      (recorded.2, { session with links := recorded.1 })

/-- The groups behind the block group: what they look like afterwards, the ids
written per collection, and the error that stopped them. -/
structure GroupsWritten (σ : Type) where
  groups : List DocumentGroup
  otherDocIDs : List (Collection × List String)
  error : Option String
  session : Session σ

/-- Stamp, write and record one group after the other, up to the first failure. -/
def writeGroups (env : Environment) (handler : BlockHandler) (stamper : Option (LinkStamper σ)) :
    List DocumentGroup → Session σ → GroupsWritten σ
  | [], session => ⟨[], [], none, session⟩
  | group :: rest, session =>
      match stampBeforeWrite stamper group session with
      | (stamped, some error, session) => ⟨stamped :: rest, [], some error, session⟩
      | (stamped, none, session) =>
          match (writeGroup env handler stamped).run session with
          | (.error error, session) =>
              ⟨stamped :: rest, [(group.collection, error.docIDs)], some error.text, session⟩
          | (.ok ids, session) =>
              match recordDocIDs stamper stamped ids session with
              | (some error, session) =>
                  ⟨stamped :: rest, [(group.collection, ids)], some error, session⟩
              | (none, session) =>
                  let written := writeGroups env handler stamper rest session
                  { written with
                    groups := stamped :: written.groups
                    otherDocIDs := (group.collection, ids) :: written.otherDocIDs }

/-! ### The signature -/

def cidCountFieldName : String := "cidCount"
def cidsFieldName : String := "cids"
def blockHashFieldName : String := "blockHash"

/-- The signature document over the CIDs; the signer contributes its own fields. -/
def buildBlockSignatureDocument (blockNumber : Int) (blockHash : String) (cids : List String)
    (collection : Collection) (fields : Fields) : Doc :=
  { collection
    fields :=
      [(blockNumberFieldName, .int64 blockNumber), (blockHashFieldName, .string blockHash),
        (cidCountFieldName, .int cids.length),
        (cidsFieldName, .strings (cids.insertionSort (· ≤ ·)))] ++ fields }

/-- Signs the CIDs and stores the signature. -/
def signBlockOverCIDs (env : Environment) (handler : BlockHandler) (blockNumber : Int)
    (blockHash : String) (cids : List String) (collection : Collection) : Write σ String := do
  let session ← Attempt.read
  match env.sign session.calls cids with
  | none => Attempt.fail { text := "failed to sign block" }
  | some fields =>
      call env "failed to create signing transaction: "
      call env "failed to get block signature collection: "
      call env "failed to build block signature document: "
      call env "failed to create block signature document: "
      let doc := buildBlockSignatureDocument blockNumber blockHash cids collection fields
      let session ← Attempt.read
      match session.db.add doc with
      | .error .alreadyExists =>
          Attempt.fail { text := "failed to create block signature document: already exists" }
      | .error .deleted =>
          Attempt.fail
            { text := "failed to create block signature document: " ++ documentDeletedText }
      | .ok db =>
          commit env "failed to commit block signature: " db
          pure (handler.docID doc)

/-- A block is signed only when every write went through and each document has
left one CID; a failed signature is only logged. -/
def signStoredBlock (env : Environment) (handler : BlockHandler) (blockNumber : Int)
    (blockHash : String) (allDocIDs : List String) (batchErrors : List String)
    (collection : Collection) (session : Session σ) : String × Session σ :=
  if batchErrors ≠ [] ∨ session.collector.length ≠ allDocIDs.length then ("", session)
  else
    match (signBlockOverCIDs env handler blockNumber blockHash session.collector collection).run
        session with
    | (.ok signatureID, after) => (signatureID, after)
    | (.error _, after) => ("", after)

/-! ### Store -/

structure BlockCreationResult where
  blockNumber : Int
  blockID : String
  blockSignatureID : String
  blockSignatureCollection : Collection
  otherDocIDs : List (Collection × List String)

/-- What a `Store` call leaves: its result and error, the stamped groups and the session. -/
structure StoreReply (σ : Type) where
  created : Option BlockCreationResult := none
  error : Option String := none
  groups : List DocumentGroup
  session : Session σ

/-- The Go type of a field value that is not a number. -/
def goType : Option Value → String
  | some (.string _) => "string"
  | some (.strings _) => "[]string"
  | some (.int64 _) => "int64"
  | some (.int _) => "int"
  | some (.float64 _) => "float64"
  | some (.bool _) => "bool"
  | some .null | none => "<nil>"

def partiallyIndexed (blockNumber : Int) (batchErrors : List String) (first : String) : String :=
  "block " ++ toString blockNumber ++ " partially indexed with " ++ toString batchErrors.length ++
    " batch errors (first: " ++ first ++ ")"

/-- Everything behind the block document. -/
def storeOthers (env : Environment) (handler : BlockHandler) (stamper : Option (LinkStamper σ))
    (converted : ConversionResult) (blockNumber : Int) (blockHash : String)
    (blockGroup : DocumentGroup) (others : List DocumentGroup) (blockID : String)
    (session : Session σ) : StoreReply σ :=
  let recorded := recordDocIDs stamper blockGroup [blockID] session
  let written := writeGroups env handler stamper others recorded.2
  let batchErrors := recorded.1.toList ++ written.error.toList
  let signed := signStoredBlock env handler blockNumber blockHash
    (blockID :: written.otherDocIDs.flatMap (·.2)) batchErrors converted.signatureCollection
    written.session
  { created := some
      { blockNumber
        blockID
        blockSignatureID := signed.1
        blockSignatureCollection := converted.signatureCollection
        otherDocIDs := written.otherDocIDs }
    error := batchErrors.head?.map (partiallyIndexed blockNumber batchErrors)
    groups := blockGroup :: written.groups
    session := signed.2 }

def store (env : Environment) (handler : BlockHandler) (stamper : Option (LinkStamper σ))
    (converted : ConversionResult) (session : Session σ) : StoreReply σ :=
  match converted.groups with
  | [] => { error := some "no document groups to store", groups := [], session }
  | blockGroup :: others =>
      match blockGroup.docs with
      | [] =>
          { error := some "no block document in groups", groups := blockGroup :: others, session }
      | blockData :: _ =>
          match toInt64? (blockData.lookup blockGroup.blockNumField) with
          | none =>
              { error := some ("invalid block number: expected numeric type, got " ++
                  goType (blockData.lookup blockGroup.blockNumField))
                groups := blockGroup :: others
                session }
          | some blockNumber =>
              match stampBeforeWrite stamper blockGroup { session with collector := [] } with
              | (stamped, some error, session) =>
                  { error := some ("stamp block group: " ++ error)
                    groups := stamped :: others
                    session }
              | (stamped, none, session) =>
                  match (storeBlockDoc env handler
                      ⟨stamped.collection, stamped.docs.headD blockData⟩).run session with
                  | (.error error, session) =>
                      { error := some error.text, groups := stamped :: others, session }
                  | (.ok blockID, session) =>
                      storeOthers env handler stamper converted blockNumber
                        ((stringField? blockData blockGroup.blockHashField).getD "") stamped others
                        blockID session

end ShinzoGenerator.Defra
