import ShinzoGenerator.Pruner.Retention

/-! What becomes of the queued documents when purges fail. The queue is the only record
that a document is prunable, and the drain comes before the purge. -/

set_option autoImplicit false

namespace ShinzoGenerator.Pruner

open Chains Defra KeyedLists

variable {handler : BlockHandler}

/-! ### The file of the queue -/

theorem trackBlock_filePath (stored : StoredBlock) (queue : IndexerQueue) :
    (trackBlock handler stored queue).filePath = queue.filePath := by
  rw [trackBlock, IndexerQueue.trackBlockDocIDs]
  cases newEntry stored.number (handler.docID stored.block) (groupDocIDs handler stored.others)
      ((stored.signature.map handler.docID).getD "") <;> rfl

theorem loadFromFile_filePath (queue : IndexerQueue) (files : Files) (path : String) :
    (queue.loadFromFile files path).filePath = path := by
  rw [IndexerQueue.loadFromFile]
  cases files.lookup path with
  | none => rfl
  | some snap =>
      simp only
      split <;> rfl

theorem filePath_step (cfg : PrunerConfig) (state : PruneState) (move : PruneMove) :
    (move.effect cfg handler state).queue.filePath = state.queue.filePath := by
  cases move with
  | store stored =>
      simp only [PruneMove.effect]
      cases state.db.addAll stored.docs with
      | error failure => rfl
      | ok db => exact trackBlock_filePath stored state.queue
  | rollbackBlocks low high chainHashes budget => rfl
  | startupCleanup env => rfl
  | runPrune env sorter =>
      simp only [PruneMove.effect]
      by_cases full : cfg.maxBlocks < state.queue.entries.length
      · obtain ⟨outcome, ran⟩ := @runIndexerQueuePrune_drains handler env sorter cfg state full
        rw [ran]
      · rw [runIndexerQueuePrune_filters sorter cfg state (not_lt.mp full)]
  | restart saved => exact loadFromFile_filePath _ _ _

/-- The queue stays bound to the path it was opened with. -/
theorem filePath_path {cfg : PrunerConfig} {identities : Identities handler} {db : DB}
    {path : String} {state : PruneState}
    (reached : (pruneSystem cfg identities).Path (.opened db path) state) :
    state.queue.filePath = path :=
  reached.invariant (loadFromFile_filePath {} ∅ path)
    fun state move same _ => (filePath_step cfg state move).trans same

/-! ### Documents a cycle leaves behind -/

/-- The database holds a document under the given collection and docID, visible or not. -/
def HoldsKey (handler : BlockHandler) (db : DB) (key : String × String) : Prop :=
  ∃ doc, db.Holds doc ∧ purgeKey handler doc = key

/-- The queue and the file at its path both name the document. -/
def StillQueued (handler : BlockHandler) (state : PruneState) (key : String × String) : Prop :=
  key ∈ state.queue.docs (collectionNames handler) ∧
    ∃ snap, state.files.lookup state.queue.filePath = some snap ∧
      ∃ entry ∈ snap.entries, key ∈ entry.docs (collectionNames handler)

/-- Every document that was queued is gone from the database or still queued. -/
def Checkpointed (handler : BlockHandler) (before after : PruneState) : Prop :=
  ∀ key ∈ before.queue.docs (collectionNames handler),
    ¬ HoldsKey handler after.db key ∨ StillQueued handler after key

/-- The documents of the collections that fail are named by entries the cycle keeps. -/
def FailuresCovered (env : PruneEnvironment) (sorter : EntrySorter) (cfg : PrunerConfig)
    (handler : BlockHandler) (state : PruneState) : Prop :=
  (state.queue.entries.length : Int) ≤ cfg.maxBlocks ∨
    ∀ doc, state.db.Holds doc → ¬ env.Purges (handler.collectionName doc.collection) →
      purgeKey handler doc ∈ state.queue.docs (collectionNames handler) →
      ∃ entry ∈ keptEntries sorter cfg state.queue,
        purgeKey handler doc ∈ entry.docs (collectionNames handler)

theorem mem_queue_docs {names : CollectionNames} {queue : IndexerQueue} {key : String × String} :
    key ∈ queue.docs names ↔ ∃ entry ∈ queue.entries, key ∈ entry.docs names := by
  simp [IndexerQueue.docs, mem_sum]

/-- A bound queue that is saved with an entry has it in its file. -/
theorem stillQueued_save {queue : IndexerQueue} (bound : queue.filePath ≠ "") (db : DB)
    (files : Files) {entry : BlockEntry} (member : entry ∈ queue.entries) {key : String × String}
    (named : key ∈ entry.docs (collectionNames handler)) :
    StillQueued handler { db, queue, files := queue.save files } key := by
  have filled : queue.entries ≠ [] := List.ne_nil_of_mem member
  refine ⟨mem_queue_docs.mpr ⟨entry, member, named⟩, ?_⟩
  simp only [IndexerQueue.save, if_neg bound, if_neg filled, AList.lookup_insert]
  exact ⟨_, rfl, entry, member, named⟩

/-- A drained entry or a kept one: nothing else was in the queue. -/
theorem mem_drained_or_kept {sorter : EntrySorter} {cfg : PrunerConfig} {queue : IndexerQueue}
    {entry : BlockEntry} (member : entry ∈ queue.entries) :
    entry ∈ drainedEntries sorter cfg queue ∨ entry ∈ keptEntries sorter cfg queue := by
  rw [drainedEntries, keptEntries, ← List.mem_append, List.take_append_drop]
  exact (sorter.perm queue.entries).mem_iff.mpr member

/-- In every reachable state a cycle accounts for every queued document, in the database
or in the queue and its file, exactly if the failing collections are covered. -/
theorem cycle_checkpointed_iff (cfg : PrunerConfig) (identities : Identities handler) {db : DB}
    {path : String} (bound : path ≠ "") {state : PruneState}
    (known : ∀ doc, db.Holds doc → identities.docs doc)
    (reached : (pruneSystem cfg identities).Path (.opened db path) state)
    (env : PruneEnvironment) (sorter : EntrySorter) :
    (∃ after outcome, runIndexerQueuePrune env sorter cfg handler state = some (after, outcome) ∧
        Checkpointed handler state after) ↔
      FailuresCovered env sorter cfg handler state := by
  have accounted := accounted_path known reached
  have filePath : state.queue.filePath ≠ "" := by
    rw [filePath_path reached]
    exact bound
  by_cases full : cfg.maxBlocks < state.queue.entries.length
  · obtain ⟨outcome, ran⟩ := @runIndexerQueuePrune_drains handler env sorter cfg state full
    rw [ran]
    constructor
    · rintro ⟨after, _, same, checkpointed⟩
      cases same
      refine .inr fun doc held fails queued => ?_
      have stays : HoldsKey handler (state.db.purge (purgedBy env handler
          (IndexerQueue.buildDrainResult (drainedEntries sorter cfg state.queue)
            (collectionNames handler)).docIDsByCollection)) (purgeKey handler doc) := by
        refine ⟨doc, SoftStore.holds_purge.mpr ⟨held, Bool.eq_false_iff.mpr fun purged => ?_⟩, rfl⟩
        exact fails ((purgedBy_drained_iff accounted).mp purged).1
      rcases checkpointed _ queued with gone | still
      · exact absurd stays gone
      · exact mem_queue_docs.mp still.1
    · intro covered
      refine ⟨_, outcome, rfl, fun key queued => ?_⟩
      by_cases held : HoldsKey handler (state.db.purge (purgedBy env handler
          (IndexerQueue.buildDrainResult (drainedEntries sorter cfg state.queue)
            (collectionNames handler)).docIDsByCollection)) key
      · right
        obtain ⟨doc, remains, rfl⟩ := held
        obtain ⟨before, kept⟩ := SoftStore.holds_purge.mp remains
        have named : ∃ entry ∈ keptEntries sorter cfg state.queue,
            purgeKey handler doc ∈ entry.docs (collectionNames handler) := by
          by_cases answers : env.Purges (handler.collectionName doc.collection)
          · obtain ⟨entry, member, named⟩ := mem_queue_docs.mp queued
            rcases @mem_drained_or_kept sorter cfg _ _ member with drained | remaining
            · have purged := (purgedBy_drained_iff accounted).mpr ⟨answers, entry, drained, named⟩
              rw [purged] at kept
              cases kept
            · exact ⟨entry, remaining, named⟩
          · exact covered.resolve_left (not_le.mpr full) doc before answers queued
        obtain ⟨entry, remaining, named⟩ := named
        exact @stillQueued_save handler
          { state.queue with entries := keptEntries sorter cfg state.queue } filePath _ _ _
          remaining _ named
      · exact .inl held
  · have spare := not_lt.mp full
    rw [runIndexerQueuePrune_filters sorter cfg state spare]
    refine ⟨fun _ => .inl spare, fun _ => ⟨_, _, rfl, fun key queued => .inr ?_⟩⟩
    obtain ⟨entry, member, named⟩ := mem_queue_docs.mp queued
    exact stillQueued_save filePath _ _ member named

/-- The block collection cannot be purged. -/
def blockPurgeFails : PruneEnvironment where
  purgeFails name := if name = "Ethereum__Sepolia__Block" then some "disk full" else none

/-- Three blocks with a target of two: the oldest is drained, its purge fails, and then
neither the queue nor its file names it. -/
theorem failed_purge_strands_block :
    ∃ state after outcome, (pruneSystem retainTwo sampleIdentities).Path
        (.opened SoftStore.empty "prune_queue.gob") state ∧
      runIndexerQueuePrune blockPurgeFails .insertion retainTwo sampleHandler state =
        some (after, outcome) ∧ ¬ Checkpointed sampleHandler state after := by
  have stranded : (runIndexerQueuePrune blockPurgeFails .insertion retainTwo sampleHandler
      (sampleState retainTwo denseMoves)).map (fun result =>
        decide (sampleBlock 1 "" ∈ result.1.db.visible ∧
          purgeKey sampleHandler (sampleBlock 1 "") ∉
            result.1.queue.docs (collectionNames sampleHandler))) = some true := by
    decide +kernel
  obtain ⟨⟨after, outcome⟩, ran, left⟩ := Option.map_eq_some_iff.mp stranded
  obtain ⟨visible, unqueued⟩ := of_decide_eq_true left
  refine ⟨_, after, outcome, dense_reached retainTwo, ran, fun checkpointed => ?_⟩
  have queued : purgeKey sampleHandler (sampleBlock 1 "") ∈
      (sampleState retainTwo denseMoves).queue.docs (collectionNames sampleHandler) := by
    decide +kernel
  rcases checkpointed _ queued with gone | still
  · exact gone ⟨_, .inl visible, rfl⟩
  · exact unqueued still.1

/-- The same cycle with a database that answers. -/
theorem quiet_cycle_checkpointed :
    FailuresCovered .quiet .insertion retainTwo sampleHandler (sampleState retainTwo denseMoves) ∧
      ∃ after outcome, runIndexerQueuePrune .quiet .insertion retainTwo sampleHandler
          (sampleState retainTwo denseMoves) = some (after, outcome) ∧
        Checkpointed sampleHandler (sampleState retainTwo denseMoves) after := by
  have covered : FailuresCovered .quiet .insertion retainTwo sampleHandler
      (sampleState retainTwo denseMoves) :=
    .inr fun _ _ fails => absurd (quiet_purges _) fails
  exact ⟨covered, (cycle_checkpointed_iff retainTwo sampleIdentities (by decide)
    (by simp [SoftStore.Holds, SoftStore.empty]) (dense_reached retainTwo) .quiet .insertion).mpr
      covered⟩

end ShinzoGenerator.Pruner
