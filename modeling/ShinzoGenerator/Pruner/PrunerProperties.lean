import Mathlib.Data.Finset.Max
import Mathlib.Order.Interval.Finset.Basic
import ShinzoGenerator.Pruner.IndexerQueueProperties
import ShinzoGenerator.Pruner.Pruner

/-! What a prune cycle purges, in terms of the database and the queue it starts from. -/

set_option autoImplicit false

namespace ShinzoGenerator.Pruner

open Chains Defra Indexer KeyedLists

variable {handler : BlockHandler} {env : PruneEnvironment}

theorem collectionName_injective {left right : Collection}
    (same : handler.collectionName left = handler.collectionName right) : left = right := by
  have suffixes : left.suffix = right.suffix := by
    simpa [BlockHandler.collectionName] using same
  cases left <;> cases right <;> first | rfl | (revert suffixes; decide)

/-! ### Purging by collection -/

/-- The collection answers in this cycle. -/
def PruneEnvironment.Purges (env : PruneEnvironment) (name : String) : Prop :=
  env.collectionFails name = none ∧ env.purgeFails name = none

instance (env : PruneEnvironment) (name : String) : Decidable (env.Purges name) :=
  inferInstanceAs (Decidable (_ ∧ _))

/-- The documents that a purge of the given docIDs removes. -/
def purgedBy (env : PruneEnvironment) (handler : BlockHandler)
    (docIDsByCollection : AList (fun _ : String => List String)) (doc : Doc) : Bool :=
  env.Purges (handler.collectionName doc.collection) ∧
    handler.docID doc ∈ (docIDsByCollection.lookup (handler.collectionName doc.collection)).getD []

/-- The part of a purge that concerns the named collections. -/
def purgedWithin (env : PruneEnvironment) (handler : BlockHandler)
    (groups : AList (fun _ : String => List String)) (names : List String) (doc : Doc) : Bool :=
  decide (handler.collectionName doc.collection ∈ names) && purgedBy env handler groups doc

theorem purgedWithin_nil (groups : AList (fun _ : String => List String)) :
    purgedWithin env handler groups [] = fun _ => false := by
  funext doc
  simp [purgedWithin]

theorem purgedWithin_cons (groups : AList (fun _ : String => List String)) (name : String)
    (names : List String) :
    (fun doc => purgedWithin env handler groups [name] doc ||
        purgedWithin env handler groups names doc) =
      purgedWithin env handler groups (name :: names) := by
  funext doc
  rw [purgedWithin, purgedWithin, purgedWithin, ← Bool.and_or_distrib_right]
  simp

/-- Nothing is purged under a name that has no docIDs or does not answer. -/
theorem purgedWithin_eq_false {groups : AList (fun _ : String => List String)} {name : String}
    (idle : (groups.lookup name).getD [] = [] ∨ ¬ env.Purges name) :
    purgedWithin env handler groups [name] = fun _ => false := by
  funext doc
  by_cases own : handler.collectionName doc.collection = name
  · subst own
    rcases idle with none | fails
    · simp [purgedWithin, purgedBy, none]
    · simp [purgedWithin, purgedBy, fails]
  · simp [purgedWithin, own]

theorem purgeByDocIDs_purges {name : String} (answers : env.Purges name) (docIDs : List String)
    (db : DB) :
    purgeByDocIDs env handler name docIDs db = .ok (db.purge (named handler name docIDs)) := by
  rw [purgeByDocIDs, answers.1]
  simp only [answers.2]

theorem purgeByDocIDs_fails {name : String} (fails : ¬ env.Purges name) (docIDs : List String)
    (db : DB) : ∃ text, purgeByDocIDs env handler name docIDs db = .error text := by
  rw [purgeByDocIDs]
  cases known : env.collectionFails name with
  | some text => exact ⟨_, rfl⟩
  | none =>
      cases purged : env.purgeFails name with
      | some text => exact ⟨text, rfl⟩
      | none => exact absurd ⟨known, purged⟩ fails

theorem purgeCollection_db (groups : AList (fun _ : String => List String)) (progress : Purge)
    (colName : String) :
    (purgeCollection env handler groups progress colName).db =
      progress.db.purge (purgedWithin env handler groups [colName]) := by
  rw [purgeCollection]
  by_cases none : (groups.lookup colName).getD [] = []
  · rw [purgedWithin_eq_false (.inl none), SoftStore.purge_none]
    simp only [if_pos none]
  · simp only [if_neg none]
    by_cases answers : env.Purges colName
    · rw [purgeByDocIDs_purges answers]
      refine congrArg progress.db.purge (funext fun doc => ?_)
      by_cases own : handler.collectionName doc.collection = colName
      · subst own
        simp [purgedWithin, purgedBy, named, answers]
      · simp [purgedWithin, named, own]
    · obtain ⟨text, failed⟩ :=
        @purgeByDocIDs_fails handler env colName answers ((groups.lookup colName).getD []) progress.db
      rw [failed, purgedWithin_eq_false (.inr answers), SoftStore.purge_none]

theorem foldl_purgeCollection_db (groups : AList (fun _ : String => List String))
    (names : List String) (progress : Purge) :
    (names.foldl (purgeCollection env handler groups) progress).db =
      progress.db.purge (purgedWithin env handler groups names) := by
  induction names generalizing progress with
  | nil => rw [purgedWithin_nil, SoftStore.purge_none, List.foldl_nil]
  | cons name names ih =>
      rw [List.foldl_cons, ih, purgeCollection_db, SoftStore.purge_purge, purgedWithin_cons]

/-- A purge removes what it was given from the collections that answer. -/
theorem purgeByDocIDsByCollection_db (groups : AList (fun _ : String => List String)) (db : DB) :
    (purgeByDocIDsByCollection env handler groups db).db = db.purge (purgedBy env handler groups) := by
  rw [purgeByDocIDsByCollection, foldl_purgeCollection_db]
  refine congrArg db.purge (funext fun doc => ?_)
  by_cases listed : handler.collectionName doc.collection ∈ groups.keys
  · simp [purgedWithin, listed, List.mem_insertionSort]
  · have absent : groups.lookup (handler.collectionName doc.collection) = none :=
      AList.lookup_eq_none.mpr listed
    simp [purgedWithin, purgedBy, absent]

/-! ### The range of a span cycle -/

theorem lookup_docIDsByRange (db : DB) (startBlock endBlock : Int) (collection : Collection) :
    ((docIDsByRange handler db startBlock endBlock).lookup (handler.collectionName collection)).getD
        [] =
      if collection ∈ blockScoped then
        (docsInRange db startBlock endBlock collection).map handler.docID
      else [] := by
  let ids := fun collection =>
    (docsInRange db startBlock endBlock collection).map handler.docID
  have folded : ∀ (collections : List Collection) (result : AList (fun _ : String => List String)),
      collections.Nodup →
      ((collections.foldl (fun result collection =>
          if ids collection = [] then result
          else result.insert (handler.collectionName collection) (ids collection)) result).lookup
          (handler.collectionName collection)).getD [] =
        if collection ∈ collections then
          if ids collection = [] then (result.lookup (handler.collectionName collection)).getD []
          else ids collection
        else (result.lookup (handler.collectionName collection)).getD [] := by
    intro collections
    induction collections with
    | nil =>
        intro result _
        simp
    | cons first collections ih =>
        intro result distinct
        obtain ⟨unseen, distinctRest⟩ := List.nodup_cons.mp distinct
        rw [List.foldl_cons, ih _ distinctRest]
        by_cases same : collection = first
        · subst same
          by_cases empty : ids collection = []
          · simp [empty, unseen]
          · simp [empty, unseen]
        · have other : handler.collectionName collection ≠ handler.collectionName first :=
            fun equal => same (collectionName_injective equal)
          by_cases empty : ids first = []
          · simp [empty, same]
          · simp [empty, same, AList.lookup_insert_ne other]
  have result := folded blockScoped ∅ (by decide)
  rw [docIDsByRange]
  refine result.trans ?_
  simp only [AList.lookup_empty, Option.getD_none]
  split
  · split
    · rename_i empty
      exact empty.symm
    · rfl
  · rfl

theorem mem_docsInRange {db : DB} {startBlock endBlock : Int} {collection : Collection} {doc : Doc} :
    doc ∈ docsInRange db startBlock endBlock collection ↔
      doc ∈ db.visible ∧ doc.collection = collection ∧
        ∃ height, doc.height? = some height ∧ startBlock ≤ height ∧ height ≤ endBlock := by
  simp [docsInRange]

/-- A document is purged with the range if one of its collection and docID lies in it. -/
theorem purgedBy_docIDsByRange {db : DB} {startBlock endBlock : Int} {doc : Doc} :
    purgedBy env handler (docIDsByRange handler db startBlock endBlock) doc = true ↔
      env.Purges (handler.collectionName doc.collection) ∧ doc.collection ∈ blockScoped ∧
        ∃ other ∈ docsInRange db startBlock endBlock doc.collection,
          handler.docID other = handler.docID doc := by
  rw [purgedBy, decide_eq_true_eq, lookup_docIDsByRange]
  by_cases ranged : doc.collection ∈ blockScoped
  · simp [ranged]
  · simp [ranged]

/-- The lowest and the highest stored block. -/
def Spans (db : DB) (lowest highest : Int) : Prop :=
  (blockNumbers db).min? = some lowest ∧ (blockNumbers db).max? = some highest

theorem getBlockRange_spans {db : DB} {lowest highest : Int}
    (found : getBlockRange env db = .ok (lowest, highest)) : Spans db lowest highest := by
  simp only [getBlockRange, getLowestStoredBlockNumber, getHighestStoredBlockNumber] at found
  cases low : (blockNumbers db).min? with
  | none =>
      simp only [low] at found
      split at found
      · cases found
      · split at found <;> cases found
  | some number =>
      cases high : (blockNumbers db).max? with
      | none =>
          simp only [low, high] at found
          split at found
          · cases found
          · split at found
            · cases found
            · split at found <;> cases found
      | some top =>
          simp only [low, high] at found
          split at found
          · cases found
          · split at found
            · cases found
            · cases found
              exact ⟨low, high⟩

/-- A database that answers everything. -/
def PruneEnvironment.quiet : PruneEnvironment := {}

theorem getBlockRange_quiet {db : DB} {lowest highest : Int} (spans : Spans db lowest highest) :
    getBlockRange .quiet db = .ok (lowest, highest) := by
  simp only [getBlockRange, getLowestStoredBlockNumber, getHighestStoredBlockNumber, spans.1, spans.2]
  rfl

/-- The documents a span cycle removes from `lowest` up to the retention target. -/
def spanPurged (env : PruneEnvironment) (cfg : PrunerConfig) (handler : BlockHandler) (db : DB)
    (lowest highest : Int) : Doc → Bool :=
  purgedBy env handler (docIDsByRange handler db lowest (highest - cfg.maxBlocks))

theorem pruneExcess_of_range {cfg : PrunerConfig} {db : DB} {lowest highest : Int} (context : String)
    (found : getBlockRange env db = .ok (lowest, highest))
    (surplus : cfg.maxBlocks < highest - lowest + 1) :
    (pruneExcess context env cfg handler db).db =
      (pruneBlockRange env handler db lowest (highest - cfg.maxBlocks)).1 := by
  have cutoff : lowest + (highest - lowest + 1 - cfg.maxBlocks) - 1 = highest - cfg.maxBlocks := by
    omega
  rw [pruneExcess, found]
  simp only [if_neg (not_le.mpr surplus), cutoff]
  rcases pruneBlockRange env handler db lowest (highest - cfg.maxBlocks) with ⟨left, purged, error⟩
  cases error <;> rfl

/-- A span cycle changes nothing, or it purges everything below the retention target. -/
theorem pruneExcess_db (context : String) (cfg : PrunerConfig) (db : DB) :
    (pruneExcess context env cfg handler db).db = db ∨
      ∃ lowest highest, Spans db lowest highest ∧ cfg.maxBlocks < highest - lowest + 1 ∧
        (pruneExcess context env cfg handler db).db =
          db.purge (spanPurged env cfg handler db lowest highest) := by
  cases found : getBlockRange env db with
  | error failure =>
      left
      rw [pruneExcess, found]
      cases failure <;> rfl
  | ok range =>
      obtain ⟨lowest, highest⟩ := range
      by_cases surplus : cfg.maxBlocks < highest - lowest + 1
      · rw [pruneExcess_of_range context found surplus, pruneBlockRange]
        cases env.rangeFails with
        | some text => exact .inl rfl
        | none =>
            refine .inr ⟨lowest, highest, getBlockRange_spans found, surplus, ?_⟩
            rw [spanPurged, ← purgeByDocIDsByCollection_db]
      · left
        rw [pruneExcess, found]
        simp only [if_pos (not_lt.mp surplus)]

theorem pruneExcess_quiet (context : String) (cfg : PrunerConfig) {db : DB} {lowest highest : Int}
    (spans : Spans db lowest highest) (surplus : cfg.maxBlocks < highest - lowest + 1) :
    (pruneExcess context .quiet cfg handler db).db =
      db.purge (spanPurged .quiet cfg handler db lowest highest) := by
  rw [pruneExcess_of_range context (getBlockRange_quiet spans) surplus, spanPurged,
    ← purgeByDocIDsByCollection_db]
  rfl

/-! ### The queue cycle -/

theorem keepEntries_bounds (cfg : PrunerConfig) {blockCount : Int} (surplus : cfg.maxBlocks < blockCount) :
    cfg.maxBlocks ≤ keepEntries cfg blockCount ∧ keepEntries cfg blockCount < blockCount ∧
      (0 < cfg.maxBlocksPerCycle → blockCount - keepEntries cfg blockCount ≤ cfg.maxBlocksPerCycle) := by
  rw [keepEntries]
  split
  · omega
  · omega

/-- The entries a cycle drains. -/
def drainedEntries (sorter : EntrySorter) (cfg : PrunerConfig) (queue : IndexerQueue) :
    List BlockEntry :=
  (sorter.sort queue.entries).take
    (queue.entries.length - (keepEntries cfg queue.entries.length).toNat)

/-- The entries a cycle leaves. -/
def keptEntries (sorter : EntrySorter) (cfg : PrunerConfig) (queue : IndexerQueue) :
    List BlockEntry :=
  (sorter.sort queue.entries).drop
    (queue.entries.length - (keepEntries cfg queue.entries.length).toNat)

/-- A cycle with a full queue drains it, purges and saves what is left. -/
theorem runIndexerQueuePrune_drains (sorter : EntrySorter) (cfg : PrunerConfig) (state : PruneState)
    (full : cfg.maxBlocks < state.queue.entries.length) :
    ∃ outcome, runIndexerQueuePrune env sorter cfg handler state =
      some (
        let queue := { state.queue with entries := keptEntries sorter cfg state.queue }
        { db := state.db.purge (purgedBy env handler (IndexerQueue.buildDrainResult
            (drainedEntries sorter cfg state.queue) (collectionNames handler)).docIDsByCollection)
          queue
          files := queue.save state.files }, outcome) := by
  obtain ⟨above, below, _⟩ := keepEntries_bounds cfg full
  have positive := cfg.positive
  rw [runIndexerQueuePrune]
  simp only [if_neg (not_le.mpr full), IndexerQueue.drain, if_neg (not_le.mpr below),
    if_neg (not_lt.mpr (by omega : 0 ≤ keepEntries cfg state.queue.entries.length)),
    (sorter.perm state.queue.entries).length_eq, purgeFromDrainResult, purgeByDocIDsByCollection_db]
  exact ⟨_, rfl⟩

/-- With a queue that is not full, a cycle is the filter-based one. -/
theorem runIndexerQueuePrune_filters (sorter : EntrySorter) (cfg : PrunerConfig) (state : PruneState)
    (spare : (state.queue.entries.length : Int) ≤ cfg.maxBlocks) :
    runIndexerQueuePrune env sorter cfg handler state =
      some ({ state with
          db := (filterBasedPrune env cfg handler state.db).db
          files := state.queue.save state.files },
        filterBasedPrune env cfg handler state.db) := by
  rw [runIndexerQueuePrune]
  simp only [if_pos spare]

end ShinzoGenerator.Pruner
