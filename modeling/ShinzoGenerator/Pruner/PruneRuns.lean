import ShinzoGenerator.Defra.ReorgRollerProperties
import ShinzoGenerator.Lib.GuardedSystem
import ShinzoGenerator.Pruner.PrunerProperties

/-! The database and the queue over whole runs of stores, rollbacks, prune cycles and
restarts. An entry of the queue names documents of its own height, whatever became of
its block. -/

set_option autoImplicit false

namespace ShinzoGenerator.Pruner

open Chains Defra Indexer KeyedLists

variable {handler : BlockHandler}

/-! ### Documents and their ids -/

/-- The documents of a deployment: their ids are canonical and tell them apart. -/
structure Identities (handler : BlockHandler) where
  docs : Doc → Prop
  canonical : ∀ doc, docs doc → CanonicalDocID (handler.docID doc)
  distinct : ∀ left right, docs left → docs right → left.collection = right.collection →
    handler.docID left = handler.docID right → left = right

/-- The collection and the docID under which a document is purged. -/
def purgeKey (handler : BlockHandler) (doc : Doc) : String × String :=
  (handler.collectionName doc.collection, handler.docID doc)

theorem Identities.eq_of_purgeKey (identities : Identities handler) {left right : Doc}
    (leftKnown : identities.docs left) (rightKnown : identities.docs right)
    (same : purgeKey handler left = purgeKey handler right) : left = right := by
  obtain ⟨names, ids⟩ := Prod.mk.inj same
  exact identities.distinct left right leftKnown rightKnown (collectionName_injective names) ids

/-- Drained entries name what their purge removes. -/
theorem purgedBy_buildDrainResult {env : PruneEnvironment} {drained : List BlockEntry} {doc : Doc}
    (foreign : ∀ entry ∈ drained, (collectionNames handler).block ∉ entry.otherDocIDs) :
    purgedBy env handler (IndexerQueue.buildDrainResult drained
        (collectionNames handler)).docIDsByCollection doc = true ↔
      env.Purges (handler.collectionName doc.collection) ∧
        ∃ entry ∈ drained, purgeKey handler doc ∈ entry.docs (collectionNames handler) := by
  have handed := IndexerQueue.pairs_buildDrainResult (collectionNames handler) foreign
  rw [purgedBy, decide_eq_true_eq, ← mem_pairs_id, handed, mem_sum]
  simp [purgeKey]

/-! ### Stores, rollbacks and cycles -/

/-- The documents one `Store` call writes. -/
structure StoredBlock where
  number : Int
  block : Doc
  others : List Doc
  signature : Option Doc

def StoredBlock.docs (stored : StoredBlock) : List Doc :=
  stored.block :: (stored.others ++ stored.signature.toList)

/-- The docIDs per collection, in the order they were written. -/
def groupDocIDs (handler : BlockHandler) (docs : List Doc) : AList (fun _ : String => List String) :=
  docs.foldl (fun groups doc =>
    append groups (handler.collectionName doc.collection) [handler.docID doc]) ∅

/-- A block whose docIDs cannot be tracked is only logged. -/
def trackBlock (handler : BlockHandler) (stored : StoredBlock) (queue : IndexerQueue) :
    IndexerQueue :=
  match queue.trackBlockDocIDs stored.number (handler.docID stored.block)
      (groupDocIDs handler stored.others) ((stored.signature.map handler.docID).getD "") with
  | .ok next => next
  | .error _ => queue

/-- All documents carry the block's height, and only the first one is in the block collection. -/
structure StoredBlock.Valid (identities : Identities handler) (stored : StoredBlock) : Prop where
  known : ∀ doc ∈ stored.docs, identities.docs doc
  height : ∀ doc ∈ stored.docs, doc.height? = some stored.number
  block : stored.block.collection = .block
  others : ∀ doc ∈ stored.others, doc.collection ≠ .block
  signature : ∀ doc ∈ stored.signature, doc.collection = .blockSignature

/-- What changes the database and the queue. A rollback keeps the entries of the blocks
it hides; a restart loads the queue file, saved by a clean stop or left by a crash. -/
inductive PruneMove where
  | store (stored : StoredBlock)
  | rollbackBlocks (low high : Int) (chainHashes : HeightMap String) (budget : Nat)
  | startupCleanup (env : PruneEnvironment)
  | runPrune (env : PruneEnvironment) (sorter : EntrySorter)
  | restart (saved : Bool)

def PruneMove.effect (cfg : PrunerConfig) (handler : BlockHandler) (state : PruneState) :
    PruneMove → PruneState
  | .store stored =>
      match state.db.addAll stored.docs with
      | .error _ => state
      | .ok db => { state with db, queue := trackBlock handler stored state.queue }
  | .rollbackBlocks low high chainHashes budget =>
      { state with db := leftBy (Defra.rollbackBlocks low high chainHashes budget state.db) }
  | .startupCleanup env => { state with db := (Pruner.startupCleanup env cfg handler state.db).db }
  | .runPrune env sorter =>
      match runIndexerQueuePrune env sorter cfg handler state with
      | none => state
      | some (next, _) => next
  | .restart saved =>
      let files := if saved then state.queue.save state.files else state.files
      { state with files, queue := IndexerQueue.loadFromFile {} files state.queue.filePath }

/-- Only the documents of a store are constrained. -/
def pruneSystem (cfg : PrunerConfig) (identities : Identities handler) :
    GuardedSystem PruneState PruneMove where
  enabled _ move := ∀ stored, move = .store stored → stored.Valid identities
  effect state move := move.effect cfg handler state

/-- The database of a deployment, with a new queue at its path. -/
def PruneState.opened (db : DB) (path : String) : PruneState where
  db := db
  queue := IndexerQueue.loadFromFile {} ∅ path

/-- Moves that are enabled everywhere can be made one after the other. -/
theorem path_foldl (cfg : PrunerConfig) (identities : Identities handler) {moves : List PruneMove}
    (valid : ∀ stored, PruneMove.store stored ∈ moves → stored.Valid identities)
    (start : PruneState) :
    (pruneSystem cfg identities).Path start
      (moves.foldl (fun state move => move.effect cfg handler state) start) := by
  induction moves generalizing start with
  | nil => exact .refl
  | cons move moves ih =>
      have enabled : (pruneSystem cfg identities).enabled start move := by
        intro stored same
        exact valid stored (same ▸ List.mem_cons_self)
      exact (GuardedSystem.Path.refl.step enabled).trans
        (ih (fun stored member => valid stored (List.mem_cons_of_mem _ member)) _)

/-! ### What the queue knows -/

/-- The entry names documents of its own height only. -/
structure EntryOf (identities : Identities handler) (entry : BlockEntry) : Prop where
  foreign : (collectionNames handler).block ∉ entry.otherDocIDs
  names : ∀ pair ∈ entry.docs (collectionNames handler), ∃ doc, identities.docs doc ∧
    purgeKey handler doc = pair ∧ doc.height? = some entry.blockNumber

structure Accounted (identities : Identities handler) (state : PruneState) : Prop where
  known : ∀ doc, state.db.Holds doc → identities.docs doc
  entries : ∀ entry ∈ state.queue.entries, EntryOf identities entry
  files : ∀ path snap, state.files.lookup path = some snap →
    ∀ entry ∈ snap.entries, EntryOf identities entry

theorem pairs_groupDocIDs (docs : List Doc) :
    pairs id (groupDocIDs handler docs) = ↑(docs.map (purgeKey handler)) := by
  have folded : ∀ groups : AList (fun _ : String => List String),
      pairs id (docs.foldl (fun groups doc =>
          append groups (handler.collectionName doc.collection) [handler.docID doc]) groups) =
        pairs id groups + ↑(docs.map (purgeKey handler)) := by
    induction docs with
    | nil => exact fun groups => (add_zero _).symm
    | cons doc docs ih =>
        intro groups
        rw [List.foldl_cons, ih, pairs_append, pairsAt_singleton, add_assoc]
        rfl
  rw [groupDocIDs, folded, pairs_empty, zero_add]

theorem mem_groupDocIDs {docs : List Doc} {name : String} (member : name ∈ groupDocIDs handler docs) :
    ∃ doc ∈ docs, handler.collectionName doc.collection = name := by
  have folded : ∀ groups : AList (fun _ : String => List String),
      name ∈ docs.foldl (fun groups doc =>
          append groups (handler.collectionName doc.collection) [handler.docID doc]) groups →
        name ∈ groups ∨ ∃ doc ∈ docs, handler.collectionName doc.collection = name := by
    clear member
    induction docs with
    | nil => exact fun groups inside => .inl inside
    | cons doc docs ih =>
        intro groups inside
        rcases ih _ inside with old | ⟨other, listed, same⟩
        · rcases mem_append.mp old with rfl | old
          · exact .inr ⟨doc, List.mem_cons_self, rfl⟩
          · exact .inl old
        · exact .inr ⟨other, List.mem_cons_of_mem _ listed, same⟩
  rcases folded ∅ member with empty | found
  · exact absurd empty (AList.notMem_empty _)
  · exact found

theorem StoredBlock.Valid.canonical {identities : Identities handler} {stored : StoredBlock}
    (valid : stored.Valid identities) :
    CanonicalBlock (collectionNames handler) (handler.docID stored.block)
      (groupDocIDs handler stored.others) ((stored.signature.map handler.docID).getD "") where
  block := identities.canonical _ (valid.known _ List.mem_cons_self)
  others := by
    intro entry member docID listed
    have paired : (entry.1, docID) ∈ pairs id (groupDocIDs handler stored.others) :=
      mem_pairs.mpr ⟨entry.2, member, listed⟩
    rw [pairs_groupDocIDs] at paired
    obtain ⟨doc, written, same⟩ := List.mem_map.mp (Multiset.mem_coe.mp paired)
    have ids : handler.docID doc = docID := (Prod.mk.inj same).2
    exact ids ▸ identities.canonical doc
      (valid.known doc (List.mem_cons_of_mem _ (List.mem_append_left _ written)))
  signature := by
    cases signed : stored.signature with
    | none => exact .inl rfl
    | some doc =>
        have member : doc ∈ stored.docs := by simp [StoredBlock.docs, signed]
        exact .inr (identities.canonical doc (valid.known doc member))
  foreign := by
    intro member
    obtain ⟨doc, written, same⟩ := mem_groupDocIDs member
    exact valid.others doc written (collectionName_injective same)

theorem trackedDocs_stored (stored : StoredBlock) (block : stored.block.collection = .block)
    (signature : ∀ doc ∈ stored.signature, doc.collection = .blockSignature)
    (signed : ∀ doc ∈ stored.signature, handler.docID doc ≠ "") :
    trackedDocs (collectionNames handler) (handler.docID stored.block)
        (groupDocIDs handler stored.others) ((stored.signature.map handler.docID).getD "") =
      ↑(stored.docs.map (purgeKey handler)) := by
  have own : ((collectionNames handler).block, handler.docID stored.block) =
      purgeKey handler stored.block := by
    rw [purgeKey, block]
    rfl
  rw [trackedDocs, pairs_groupDocIDs, own, StoredBlock.docs]
  cases given : stored.signature with
  | none => simp
  | some doc =>
      have key : ((collectionNames handler).blockSignature, handler.docID doc) =
          purgeKey handler doc := by
        rw [purgeKey, signature doc given]
        rfl
      simp only [Option.map_some, Option.getD_some, if_pos (signed doc given), key,
        Option.toList_some, List.map_cons, List.map_append, List.map_nil]
      rfl

/-- A stored block leaves an entry that names its documents. -/
theorem trackBlock_entries {identities : Identities handler} {stored : StoredBlock}
    (valid : stored.Valid identities) (queue : IndexerQueue) :
    ∃ entry, EntryOf identities entry ∧ entry.blockNumber = stored.number ∧
      entry.docs (collectionNames handler) = ↑(stored.docs.map (purgeKey handler)) ∧
      trackBlock handler stored queue = { queue with entries := queue.entries ++ [entry] } := by
  obtain ⟨entry, built, docs, number, foreign⟩ :=
    @newEntry_canonical (collectionNames handler) stored.number _ _ _ valid.canonical
  have signed : ∀ doc ∈ stored.signature, handler.docID doc ≠ "" := by
    intro doc given
    have member : doc ∈ stored.docs := by
      simp [StoredBlock.docs, Option.mem_def.mp given]
    exact (identities.canonical doc (valid.known doc member)).nonempty
  rw [trackedDocs_stored stored valid.block valid.signature signed] at docs
  refine ⟨entry, ⟨foreign, ?_⟩, number, docs, ?_⟩
  · intro pair member
    rw [docs, Multiset.mem_coe] at member
    obtain ⟨doc, written, same⟩ := List.mem_map.mp member
    exact ⟨doc, valid.known doc written, same, number ▸ valid.height doc written⟩
  · rw [trackBlock, IndexerQueue.trackBlockDocIDs, built]
    rfl

theorem save_entries {good : BlockEntry → Prop} {queue : IndexerQueue} {files : Files}
    (entries : ∀ entry ∈ queue.entries, good entry)
    (saved : ∀ path snap, files.lookup path = some snap → ∀ entry ∈ snap.entries, good entry) :
    ∀ path snap, (queue.save files).lookup path = some snap →
      ∀ entry ∈ snap.entries, good entry := by
  intro path snap found
  rw [IndexerQueue.save] at found
  split at found
  · exact saved path snap found
  · split at found
    · by_cases own : path = queue.filePath
      · subst own
        rw [AList.lookup_erase] at found
        cases found
      · rw [AList.lookup_erase_ne own] at found
        exact saved path snap found
    · by_cases own : path = queue.filePath
      · subst own
        rw [AList.lookup_insert, Option.some.injEq] at found
        subst found
        exact entries
      · rw [AList.lookup_insert_ne own] at found
        exact saved path snap found

theorem loadFromFile_entries {good : BlockEntry → Prop} {files : Files}
    (saved : ∀ path snap, files.lookup path = some snap → ∀ entry ∈ snap.entries, good entry)
    (path : String) :
    ∀ entry ∈ (IndexerQueue.loadFromFile {} files path).entries, good entry := by
  rw [IndexerQueue.loadFromFile]
  cases found : files.lookup path with
  | none => simp
  | some snap =>
      simp only
      split
      · simp
      · exact saved path snap found

theorem accounted_opened (identities : Identities handler) {db : DB}
    (known : ∀ doc, db.Holds doc → identities.docs doc) (path : String) :
    Accounted identities (.opened db path) :=
  ⟨known, loadFromFile_entries (by simp) path, by simp [PruneState.opened]⟩

theorem Accounted.purged {identities : Identities handler} {state : PruneState}
    (accounted : Accounted identities state) (selected : Doc → Bool) :
    ∀ doc, (state.db.purge selected).Holds doc → identities.docs doc :=
  fun doc held => accounted.known doc (SoftStore.holds_purge.mp held).1

theorem Accounted.pruneExcess {identities : Identities handler} {state : PruneState}
    (accounted : Accounted identities state) (context : String) (env : PruneEnvironment)
    (cfg : PrunerConfig) :
    ∀ doc, (Pruner.pruneExcess context env cfg handler state.db).db.Holds doc →
      identities.docs doc := by
  rcases @pruneExcess_db handler env context cfg state.db with same | ⟨_, _, _, _, purged⟩
  · rw [same]
    exact accounted.known
  · rw [purged]
    exact accounted.purged _

theorem mem_drainedEntries {sorter : EntrySorter} {cfg : PrunerConfig} {queue : IndexerQueue}
    {entry : BlockEntry} (member : entry ∈ drainedEntries sorter cfg queue) :
    entry ∈ queue.entries :=
  (sorter.perm queue.entries).mem_iff.mp (List.mem_of_mem_take member)

theorem mem_keptEntries {sorter : EntrySorter} {cfg : PrunerConfig} {queue : IndexerQueue}
    {entry : BlockEntry} (member : entry ∈ keptEntries sorter cfg queue) :
    entry ∈ queue.entries :=
  (sorter.perm queue.entries).mem_iff.mp (List.mem_of_mem_drop member)

theorem accounted_step {cfg : PrunerConfig} {identities : Identities handler} {state : PruneState}
    {move : PruneMove} (accounted : Accounted identities state)
    (enabled : (pruneSystem cfg identities).enabled state move) :
    Accounted identities (move.effect cfg handler state) := by
  cases move with
  | store stored =>
      have valid := enabled stored rfl
      simp only [PruneMove.effect]
      cases added : state.db.addAll stored.docs with
      | error failure => exact accounted
      | ok db =>
          obtain ⟨entry, own, _, _, tracked⟩ := trackBlock_entries valid state.queue
          refine ⟨?_, ?_, accounted.files⟩
          · intro doc held
            rcases SoftStore.holds_addAll added held with old | new
            · exact accounted.known doc old
            · exact valid.known doc new
          · simp only [tracked]
            intro other member
            rcases List.mem_append.mp member with old | new
            · exact accounted.entries other old
            · rw [List.mem_singleton.mp new]
              exact own
  | rollbackBlocks low high chainHashes budget =>
      refine ⟨?_, accounted.entries, accounted.files⟩
      intro doc held
      exact accounted.known doc ((rollbackBlocks_holds low high chainHashes budget state.db doc).mp held)
  | startupCleanup env =>
      exact ⟨accounted.pruneExcess _ env cfg, accounted.entries, accounted.files⟩
  | runPrune env sorter =>
      simp only [PruneMove.effect]
      by_cases full : cfg.maxBlocks < state.queue.entries.length
      · obtain ⟨outcome, ran⟩ :=
          @runIndexerQueuePrune_drains handler env sorter cfg state full
        rw [ran]
        have kept : ∀ entry ∈ keptEntries sorter cfg state.queue, EntryOf identities entry :=
          fun entry member => accounted.entries entry (mem_keptEntries member)
        exact ⟨accounted.purged _, kept, save_entries kept accounted.files⟩
      · rw [runIndexerQueuePrune_filters sorter cfg state (not_lt.mp full)]
        exact ⟨accounted.pruneExcess _ env cfg, accounted.entries,
          save_entries accounted.entries accounted.files⟩
  | restart saved =>
      have files : ∀ path snap,
          (if saved then state.queue.save state.files else state.files).lookup path = some snap →
          ∀ entry ∈ snap.entries, EntryOf identities entry := by
        cases saved with
        | false => exact accounted.files
        | true => exact save_entries accounted.entries accounted.files
      exact ⟨accounted.known, loadFromFile_entries files _, files⟩

theorem accounted_path {cfg : PrunerConfig} {identities : Identities handler} {db : DB}
    {path : String} {state : PruneState} (known : ∀ doc, db.Holds doc → identities.docs doc)
    (reached : (pruneSystem cfg identities).Path (.opened db path) state) :
    Accounted identities state :=
  reached.invariant (accounted_opened identities known path)
    fun _ _ accounted enabled => accounted_step accounted enabled

end ShinzoGenerator.Pruner
