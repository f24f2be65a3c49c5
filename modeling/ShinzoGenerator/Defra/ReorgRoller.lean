import Mathlib.Data.List.AList
import Mathlib.Data.List.Sort
import ShinzoGenerator.Defra.Database

/-! The rollback primitive of the reorg procedure. A height is deleted only
when its stored hash disagrees with the verified hash the caller passes for it;
the deletes are not transactional, so a run may stop between any two chunks.
`budget` counts the chunk deletions that succeed before the database stops
answering. -/

set_option autoImplicit false

namespace ShinzoGenerator.Defra

open Chains

/-- A Go map keyed by block heights. -/
abbrev HeightMap (α : Type) := AList (fun _ : Int => α)

/-- The collections `GetDocIDsByBlockRange` reads, with their height fields. -/
def blockScoped : List Collection :=
  [.block, .transaction, .log, .accessListEntry, .blockSignature]

/-- The collections that hold something at the height; an empty one gets no map entry. -/
def getDocIDsByBlockRange (db : DB) (height : Int) : List Collection :=
  blockScoped.filter fun collection => docsAt db height collection ≠ []

/-- `sort.Strings` on names that share the chain part. -/
def sortByName (collections : List Collection) : List Collection :=
  collections.insertionSort fun left right => left.suffix ≤ right.suffix

/-- Children in reverse registration order, other collections after them. -/
def childOrder (cols : List Collection) : List Collection :=
  cols.foldl (fun ordered col =>
      if col = .block ∨ col ∈ ordered then ordered else ordered ++ [col])
    (allCollections.reverse.filter fun known => known ≠ .block ∧ known ∈ cols)

/-- The block collection goes last. -/
def deleteOrder (cols : List Collection) : List Collection :=
  if Collection.block ∈ cols then childOrder cols ++ [.block] else childOrder cols

def chunkSize : Nat := 100

/-- Consecutive chunks of at most `chunkSize` documents. -/
def chunked : Nat → List Doc → List (List Doc)
  | 0, _ => []
  | fuel + 1, docs =>
      if docs = [] then []
      else docs.take chunkSize :: chunked fuel (docs.drop chunkSize)

/-- The error with the database as the failed rollback leaves it. -/
abbrev RollbackM (α : Type) := Except (String × DB) α

/-- One `DeleteDocumentsWithFilter` per chunk. -/
def deleteChunks : List (List Doc) → Nat × DB → RollbackM (Nat × DB)
  | [], state => .ok state
  | _ :: _, (0, db) => .error ("soft-delete documents: interrupted", db)
  | chunk :: chunks, (budget + 1, db) =>
      deleteChunks chunks (budget, db.softDelete fun doc => doc ∈ chunk)

def softDeleteCollectionDocs (docIDs : List Doc) (state : Nat × DB) : RollbackM (Nat × DB) :=
  deleteChunks (chunked docIDs.length docIDs) state

def deleteCollections (db : DB) (height : Int) :
    List Collection → Nat × DB → RollbackM (Nat × DB)
  | [], state => .ok state
  | col :: cols, state =>
      match softDeleteCollectionDocs (docsAt db height col) state with
      | .error failure => .error failure
      | .ok next => deleteCollections db height cols next

def rollbackHeight (chainHashes : HeightMap String) (height : Int) (state : Nat × DB) :
    RollbackM (Nat × DB) :=
  match chainHashes.lookup height with
  | none => .ok state
  | some chainHash =>
      if chainHash = "" then .ok state
      else
        match getStoredBlockHash state.2 height with
        | .error error => .error (error, state.2)
        | .ok stored =>
            if stored = "" ∨ stored = chainHash then .ok state
            else
              let cols := sortByName (getDocIDsByBlockRange state.2 height)
              deleteCollections state.2 height (deleteOrder cols) state

def rollbackHeights (chainHashes : HeightMap String) :
    List Int → Nat × DB → RollbackM (Nat × DB)
  | [], state => .ok state
  | height :: heights, state =>
      match rollbackHeight chainHashes height state with
      | .error failure => .error failure
      | .ok next => rollbackHeights chainHashes heights next

/-- The heights of the range, highest first. -/
def descending (low high : Int) : List Int :=
  (List.range (high - low + 1).toNat).map fun offset : Nat => high - offset

def rollbackBlocks (low high : Int) (chainHashes : HeightMap String) (budget : Nat) (db : DB) :
    RollbackM (Nat × DB) :=
  (rollbackHeights chainHashes (descending low high) (budget, db)).mapError fun failure =>
    ("rollback blocks [" ++ toString low ++ ", " ++ toString high ++ "]: " ++ failure.1, failure.2)

/-- The database a rollback leaves, whether it succeeds or is interrupted. -/
def leftBy : RollbackM (Nat × DB) → DB
  | .ok state => state.2
  | .error failure => failure.2

end ShinzoGenerator.Defra
