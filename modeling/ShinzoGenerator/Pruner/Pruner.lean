import ShinzoGenerator.Defra.BlockHandler
import ShinzoGenerator.Defra.ReorgRoller
import ShinzoGenerator.Indexer.StartHeight
import ShinzoGenerator.Pruner.IndexerQueue

/-! The prune cycles. The startup cleanup and the filter-based cycle work on the span
between the lowest and the highest stored block; the queue-based cycle drains the queue
and purges what it hands out. -/

set_option autoImplicit false

namespace ShinzoGenerator.Pruner

open Chains Defra Indexer KeyedLists

/-- The defaults replace a retention target that is not positive. -/
structure PrunerConfig where
  maxBlocks : Int
  maxBlocksPerCycle : Int := 0
  positive : 0 < maxBlocks

/-- How the database answers during one cycle; purges fail by collection. -/
structure PruneEnvironment where
  lowestFails : Bool := false
  highestFails : Bool := false
  rangeFails : Option String := none
  collectionFails : String → Option String := fun _ => none
  purgeFails : String → Option String := fun _ => none

/-- The prunable documents: the database, and the queue with its file. -/
structure PruneState where
  db : DB
  queue : IndexerQueue := {}
  files : Files := ∅

def collectionNames (handler : BlockHandler) : CollectionNames where
  block := handler.collectionName .block
  blockSignature := handler.collectionName .blockSignature
  named := by
    intro empty
    simp [BlockHandler.collectionName, Collection.suffix] at empty
  apart := by
    intro same
    simp [BlockHandler.collectionName, Collection.suffix] at same

/-! ### The stored range -/

def getLowestStoredBlockNumber (queryFails : Bool) (db : DB) : Except HighestBlockError Int :=
  if queryFails then .error .queryFailed
  else
    match (blockNumbers db).min? with
    | some number => .ok number
    | none =>
        if db.visible.any (·.collection = .block) then .error .blockNumberCorrupt
        else .error .documentNotFound

inductive BlockRangeError where
  | noBlocks
  | failed (text : String)
deriving DecidableEq

/-- `which` names the end of the range that was asked for. -/
def blockRangeError (which : String) : HighestBlockError → BlockRangeError
  | .documentNotFound => .noBlocks
  | .blockNumberCorrupt =>
      .failed ("get " ++ which ++ " block: blocks exist but none have a valid block number")
  | .queryFailed => .failed ("get " ++ which ++ " block: query failed")

def getBlockRange (env : PruneEnvironment) (db : DB) : Except BlockRangeError (Int × Int) := do
  let lowest ← (getLowestStoredBlockNumber env.lowestFails db).mapError (blockRangeError "lowest")
  let highest ← (getHighestStoredBlockNumber env.highestFails db).mapError
    (blockRangeError "highest")
  .ok (lowest, highest)

/-- The visible documents of one collection inside the range. -/
def docsInRange (db : DB) (startBlock endBlock : Int) (collection : Collection) : List Doc :=
  db.visible.filter fun doc => doc.collection = collection ∧
    ∃ height ∈ doc.height?, startBlock ≤ height ∧ height ≤ endBlock

/-- The docIDs of every block-scoped collection that holds something in the range. -/
def docIDsByRange (handler : BlockHandler) (db : DB) (startBlock endBlock : Int) :
    AList (fun _ : String => List String) :=
  blockScoped.foldl (fun result collection =>
      let docIDs := (docsInRange db startBlock endBlock collection).map handler.docID
      if docIDs = [] then result else result.insert (handler.collectionName collection) docIDs) ∅

/-! ### Purging -/

/-- The database with the documents purged so far, their number, and the failures. -/
structure Purge where
  db : DB
  purged : Int := 0
  errors : List String := []

/-- Selects documents by their collection's name and their docID. -/
def named (handler : BlockHandler) (collectionName : String) (docIDs : List String)
    (doc : Doc) : Bool :=
  handler.collectionName doc.collection = collectionName ∧ handler.docID doc ∈ docIDs

/-- Purges the documents of one collection, or none of them. -/
def purgeByDocIDs (env : PruneEnvironment) (handler : BlockHandler) (collectionName : String)
    (docIDs : List String) (db : DB) : Except String DB :=
  match env.collectionFails collectionName with
  | some text => .error ("failed to get collection " ++ collectionName ++ ": " ++ text)
  | none =>
      match env.purgeFails collectionName with
      | some text => .error text
      | none => .ok (db.purge (named handler collectionName docIDs))

def purgeCollection (env : PruneEnvironment) (handler : BlockHandler)
    (docIDsByCollection : AList (fun _ : String => List String)) (progress : Purge)
    (colName : String) : Purge :=
  let docIDs := (docIDsByCollection.lookup colName).getD []
  if docIDs = [] then progress
  else
    match purgeByDocIDs env handler colName docIDs progress.db with
    | .error text =>
        { progress with errors := progress.errors ++ ["purge " ++ colName ++ ": " ++ text] }
    | .ok db => { progress with db, purged := progress.purged + docIDs.length }

/-- The collections in the order of their names; a failed one does not stop the others. -/
def purgeByDocIDsByCollection (env : PruneEnvironment) (handler : BlockHandler)
    (docIDsByCollection : AList (fun _ : String => List String)) (db : DB) : Purge :=
  (docIDsByCollection.keys.insertionSort (· ≤ ·)).foldl
    (purgeCollection env handler docIDsByCollection) { db }

def Purge.error (progress : Purge) : Option String :=
  if progress.errors = [] then none
  else some ("collection purge errors: " ++ "\n".intercalate progress.errors)

/-! ### The cycles -/

/-- What a cycle leaves: the database, what it adds to the metrics, and its error. -/
structure CycleOutcome where
  db : DB
  blocksPruned : Int := 0
  docsPruned : Int := 0
  error : Option String := none

/-- Purges a range of heights, and says how many documents that were. -/
def pruneBlockRange (env : PruneEnvironment) (handler : BlockHandler) (db : DB)
    (startBlock endBlock : Int) : DB × Int × Option String :=
  match env.rangeFails with
  | some text => (db, 0, some ("get docIDs by block range: " ++ text))
  | none =>
      let pruned := purgeByDocIDsByCollection env handler
        (docIDsByRange handler db startBlock endBlock) db
      (pruned.db, pruned.purged, pruned.error)

/-- Prunes the span of stored heights from below down to the retention target. -/
def pruneExcess (context : String) (env : PruneEnvironment) (cfg : PrunerConfig)
    (handler : BlockHandler) (db : DB) : CycleOutcome :=
  match getBlockRange env db with
  | .error .noBlocks => { db }
  | .error (.failed text) => { db, error := some (context ++ "get block range: " ++ text) }
  | .ok (lowest, highest) =>
      let count := highest - lowest + 1
      if count ≤ cfg.maxBlocks then { db }
      else
        let excess := count - cfg.maxBlocks
        let cutoff := lowest + excess - 1
        match pruneBlockRange env handler db lowest cutoff with
        | (db, _, some text) => { db, error := some text }
        | (db, purged, none) => { db, blocksPruned := excess, docsPruned := purged }

def startupCleanup := pruneExcess "startup cleanup: "

def filterBasedPrune := pruneExcess "filter-based prune: "

/-- The metrics count the drained blocks even when their purge failed. -/
def purgeFromDrainResult (env : PruneEnvironment) (handler : BlockHandler) (result : DrainResult)
    (db : DB) : CycleOutcome :=
  let purged := purgeByDocIDsByCollection env handler result.docIDsByCollection db
  { db := purged.db
    blocksPruned := result.blockCount
    docsPruned := purged.purged
    error := purged.error }

/-- The entries a cycle leaves in the queue. -/
def keepEntries (cfg : PrunerConfig) (blockCount : Int) : Int :=
  if 0 < cfg.maxBlocksPerCycle ∧ cfg.maxBlocksPerCycle < blockCount - cfg.maxBlocks then
    blockCount - cfg.maxBlocksPerCycle
  else cfg.maxBlocks

/-- The queue is saved when the cycle ends, whatever became of it. -/
def runIndexerQueuePrune (env : PruneEnvironment) (sorter : EntrySorter) (cfg : PrunerConfig)
    (handler : BlockHandler) (state : PruneState) : Option (PruneState × CycleOutcome) :=
  let blockCount : Int := state.queue.entries.length
  if blockCount ≤ cfg.maxBlocks then
    let outcome := filterBasedPrune env cfg handler state.db
    some ({ state with db := outcome.db, files := state.queue.save state.files }, outcome)
  else
    match state.queue.drain sorter (keepEntries cfg blockCount) (collectionNames handler) with
    | none => none
    | some (none, queue) =>
        some ({ state with queue, files := queue.save state.files }, { db := state.db })
    | some (some result, queue) =>
        let outcome := purgeFromDrainResult env handler result state.db
        some ({ db := outcome.db, queue, files := queue.save state.files }, outcome)

end ShinzoGenerator.Pruner
