import ShinzoGenerator.Lib.TopElements
import ShinzoGenerator.Pruner.PruneRuns
import ShinzoGenerator.Pruner.QueueConservation

/-! Which blocks the prune cycles retain. The target is a number of blocks, but the
span cycles measure the distance between the lowest and the highest block and the
queue cycle counts entries; both agree with the target only under conditions that are
made explicit here. -/

set_option autoImplicit false

namespace ShinzoGenerator.Pruner

open Chains Defra Indexer KeyedLists

variable {handler : BlockHandler}

/-! ### What a cycle should keep -/

/-- The heights of the visible blocks. -/
def visibleHeights (db : DB) : Finset Int := (blockNumbers db).toFinset

/-- No document of the highest visible blocks goes, as many as the target says. -/
def Retains (cfg : PrunerConfig) (before after : DB) : Prop :=
  ∀ doc ∈ before.visible, ∀ height, doc.height? = some height →
    AmongTop (visibleHeights before) cfg.maxBlocks height → doc ∈ after.visible

/-- The heights of the documents that are gone. -/
def purgedHeights (before after : DB) : Finset Int :=
  ((before.visible.filter (· ∉ after.visible)).filterMap Doc.height?).toFinset

def Capped (cfg : PrunerConfig) (before after : DB) : Prop :=
  0 < cfg.maxBlocksPerCycle → ((purgedHeights before after).card : Int) ≤ cfg.maxBlocksPerCycle

/-- The cycles of the pruner. -/
inductive PruneCycle where
  | startupCleanup
  | filterBasedPrune
  | runIndexerQueuePrune
deriving DecidableEq

/-- The database after a cycle; there is none if the cycle panics. -/
def PruneCycle.dbAfter (env : PruneEnvironment) (sorter : EntrySorter) (cfg : PrunerConfig)
    (handler : BlockHandler) (state : PruneState) : PruneCycle → Option DB
  | .startupCleanup => some (Pruner.startupCleanup env cfg handler state.db).db
  | .filterBasedPrune => some (Pruner.filterBasedPrune env cfg handler state.db).db
  | .runIndexerQueuePrune =>
      (Pruner.runIndexerQueuePrune env sorter cfg handler state).map (·.1.db)

/-- The top blocks stay, and the periodic cycle respects its cap. -/
def PruneCycle.Keeps (cfg : PrunerConfig) (before after : DB) (cycle : PruneCycle) : Prop :=
  Retains cfg before after ∧ (cycle = .runIndexerQueuePrune → Capped cfg before after)

theorem mem_visibleHeights {db : DB} {height : Int} :
    height ∈ visibleHeights db ↔ 0 ≤ height ∧ ∃ doc, doc ∈ blocksAt db height := by
  rw [visibleHeights, List.mem_toFinset, mem_blockNumbers]

theorem mem_purgedHeights {before after : DB} {height : Int} :
    height ∈ purgedHeights before after ↔
      ∃ doc ∈ before.visible, doc ∉ after.visible ∧ doc.height? = some height := by
  simp [purgedHeights, and_assoc]

theorem capped_refl (cfg : PrunerConfig) (db : DB) : Capped cfg db db := by
  intro capped
  have none : purgedHeights db db = ∅ := by
    refine Finset.eq_empty_of_forall_notMem fun height member => ?_
    obtain ⟨doc, present, gone, _⟩ := mem_purgedHeights.mp member
    exact gone present
  rw [none, Finset.card_empty]
  exact capped.le

/-! ### The span cycles -/

/-- A span above the target has no hole in the window of heights it keeps. -/
def SpanSafe (cfg : PrunerConfig) (db : DB) : Prop :=
  ∀ lowest highest, Spans db lowest highest → cfg.maxBlocks < highest - lowest + 1 →
    ∀ height, highest - cfg.maxBlocks < height → height ≤ highest → height ∈ visibleHeights db

/-- The heights with documents in a range. -/
def rangeHeights (db : DB) (startBlock endBlock : Int) : Finset Int :=
  ((blockScoped.flatMap (docsInRange db startBlock endBlock)).filterMap Doc.height?).toFinset

/-- A span above the target has few enough heights to purge. -/
def SpanCapped (cfg : PrunerConfig) (db : DB) : Prop :=
  ∀ lowest highest, Spans db lowest highest → cfg.maxBlocks < highest - lowest + 1 →
    0 < cfg.maxBlocksPerCycle →
      ((rangeHeights db lowest (highest - cfg.maxBlocks)).card : Int) ≤ cfg.maxBlocksPerCycle

theorem Spans.bounds {db : DB} {lowest highest : Int} (spans : Spans db lowest highest) :
    lowest ∈ visibleHeights db ∧
      ∀ height ∈ visibleHeights db, lowest ≤ height ∧ height ≤ highest := by
  obtain ⟨lowMember, below⟩ := List.min?_eq_some_iff.mp spans.1
  obtain ⟨_, above⟩ := List.max?_eq_some_iff.mp spans.2
  refine ⟨List.mem_toFinset.mpr lowMember, fun height member => ?_⟩
  have listed := List.mem_toFinset.mp member
  exact ⟨below height listed, above height listed⟩

/-- With ids that tell documents apart, exactly the documents of the range go. -/
theorem spanPurged_iff {identities : Identities handler} {state : PruneState}
    (accounted : Accounted identities state) {env : PruneEnvironment} {cfg : PrunerConfig}
    {lowest highest : Int} {doc : Doc} (visible : doc ∈ state.db.visible) :
    spanPurged env cfg handler state.db lowest highest doc = true ↔
      env.Purges (handler.collectionName doc.collection) ∧ doc.collection ∈ blockScoped ∧
        doc ∈ docsInRange state.db lowest (highest - cfg.maxBlocks) doc.collection := by
  rw [spanPurged, purgedBy_docIDsByRange]
  constructor
  · rintro ⟨answers, ranged, other, inside, same⟩
    obtain ⟨otherVisible, otherCollection, _⟩ := mem_docsInRange.mp inside
    have equal : other = doc :=
      identities.distinct other doc (accounted.known other (.inl otherVisible))
        (accounted.known doc (.inl visible)) otherCollection same
    exact ⟨answers, ranged, equal ▸ inside⟩
  · rintro ⟨answers, ranged, inside⟩
    exact ⟨answers, ranged, doc, inside, rfl⟩

theorem mem_rangeHeights {db : DB} {startBlock endBlock height : Int} :
    height ∈ rangeHeights db startBlock endBlock ↔
      ∃ doc, doc.collection ∈ blockScoped ∧
        doc ∈ docsInRange db startBlock endBlock doc.collection ∧ doc.height? = some height := by
  simp only [rangeHeights, List.mem_toFinset, List.mem_filterMap, List.mem_flatMap]
  constructor
  · rintro ⟨doc, ⟨collection, ranged, inside⟩, found⟩
    have own := (mem_docsInRange.mp inside).2.1
    subst own
    exact ⟨doc, ranged, inside, found⟩
  · rintro ⟨doc, ranged, inside, found⟩
    exact ⟨doc, ⟨_, ranged, inside⟩, found⟩

theorem quiet_purges (name : String) : PruneEnvironment.quiet.Purges name := ⟨rfl, rfl⟩

/-- A span cycle keeps the top blocks, however the database answers, exactly if the
window it keeps has no hole. -/
theorem pruneExcess_retains_iff {identities : Identities handler} {state : PruneState}
    (accounted : Accounted identities state) (cfg : PrunerConfig) (context : String) :
    (∀ env, Retains cfg state.db (pruneExcess context env cfg handler state.db).db) ↔
      SpanSafe cfg state.db := by
  constructor
  · intro retains lowest highest spans surplus
    obtain ⟨lowMember, bounds⟩ := spans.bounds
    refine (AmongTop.above_iff (fun value member => (bounds value member).2) lowMember
      (by omega)).mp fun height among => ?_
    by_contra below
    -- Its block document lies in the purged range.
    obtain ⟨_, doc, stored⟩ := mem_visibleHeights.mp among.1
    obtain ⟨visible, isBlock, located⟩ := mem_blocksAt.mp stored
    have kept := retains .quiet doc visible height located among
    rw [pruneExcess_quiet context cfg spans surplus, SoftStore.mem_purge] at kept
    have purged : spanPurged .quiet cfg handler state.db lowest highest doc = true := by
      rw [spanPurged_iff accounted visible, isBlock]
      exact ⟨quiet_purges _, by decide, mem_docsInRange.mpr
        ⟨visible, isBlock, height, located, (bounds height among.1).1, not_lt.mp below⟩⟩
    rw [purged] at kept
    exact absurd kept.2 (by decide)
  · intro safe env doc visible height located among
    rcases @pruneExcess_db handler env context cfg state.db with same | ⟨lowest, highest, spans,
      surplus, after⟩
    · rw [same]
      exact visible
    · rw [after, SoftStore.mem_purge]
      refine ⟨visible, Bool.eq_false_iff.mpr fun purged => ?_⟩
      obtain ⟨_, _, inside⟩ := (spanPurged_iff accounted visible).mp purged
      obtain ⟨_, _, found, sameHeight, _, low⟩ := mem_docsInRange.mp inside
      have equal : found = height := Option.some.inj (sameHeight.symm.trans located)
      have above := AmongTop.above_of_full (safe lowest highest spans surplus) among
      omega

theorem purgedHeights_span {identities : Identities handler} {state : PruneState}
    (accounted : Accounted identities state) (env : PruneEnvironment) (cfg : PrunerConfig)
    (lowest highest : Int) :
    purgedHeights state.db (state.db.purge (spanPurged env cfg handler state.db lowest highest)) ⊆
      rangeHeights state.db lowest (highest - cfg.maxBlocks) := by
  intro height member
  obtain ⟨doc, visible, gone, located⟩ := mem_purgedHeights.mp member
  have purged : spanPurged env cfg handler state.db lowest highest doc = true := by
    by_contra kept
    exact gone (SoftStore.mem_purge.mpr ⟨visible, Bool.eq_false_iff.mpr kept⟩)
  obtain ⟨_, ranged, inside⟩ := (spanPurged_iff accounted visible).mp purged
  exact mem_rangeHeights.mpr ⟨doc, ranged, inside, located⟩

theorem purgedHeights_span_quiet {identities : Identities handler} {state : PruneState}
    (accounted : Accounted identities state) (cfg : PrunerConfig) (lowest highest : Int) :
    rangeHeights state.db lowest (highest - cfg.maxBlocks) ⊆ purgedHeights state.db
      (state.db.purge (spanPurged .quiet cfg handler state.db lowest highest)) := by
  intro height member
  obtain ⟨doc, ranged, inside, located⟩ := mem_rangeHeights.mp member
  have visible := (mem_docsInRange.mp inside).1
  have purged : spanPurged .quiet cfg handler state.db lowest highest doc = true :=
    (spanPurged_iff accounted visible).mpr ⟨quiet_purges _, ranged, inside⟩
  refine mem_purgedHeights.mpr ⟨doc, visible, fun kept => ?_, located⟩
  rw [SoftStore.mem_purge, purged] at kept
  exact absurd kept.2 (by decide)

/-- The span cycles ignore the cap: it holds only if the range is small by itself. -/
theorem pruneExcess_capped_iff {identities : Identities handler} {state : PruneState}
    (accounted : Accounted identities state) (cfg : PrunerConfig) (context : String) :
    (∀ env, Capped cfg state.db (pruneExcess context env cfg handler state.db).db) ↔
      SpanCapped cfg state.db := by
  constructor
  · intro capped lowest highest spans surplus positive
    have few := capped .quiet positive
    rw [pruneExcess_quiet context cfg spans surplus] at few
    have size := Finset.card_le_card (purgedHeights_span_quiet accounted cfg lowest highest)
    omega
  · intro safe env positive
    rcases @pruneExcess_db handler env context cfg state.db with same | ⟨lowest, highest, spans,
      surplus, after⟩
    · rw [same]
      exact capped_refl cfg state.db positive
    · have few := safe lowest highest spans surplus positive
      have size := Finset.card_le_card (purgedHeights_span accounted env cfg lowest highest)
      rw [after]
      omega

/-! ### The queue cycle -/

/-- An entry that names a visible document of a top block has at most the kept number of
entries at or above its height, the retained entries of rolled-back blocks included. -/
def QueueSafe (cfg : PrunerConfig) (handler : BlockHandler) (state : PruneState) : Prop :=
  ∀ entry ∈ state.queue.entries, ∀ doc ∈ state.db.visible, ∀ height, doc.height? = some height →
    AmongTop (visibleHeights state.db) cfg.maxBlocks height →
    purgeKey handler doc ∈ entry.docs (collectionNames handler) →
      (state.queue.entries.countP (entry.blockNumber ≤ ·.blockNumber) : Int) ≤
        keepEntries cfg state.queue.entries.length

/-- A drained entry has more than the kept number of entries at or above its height. -/
theorem keepEntries_lt_countP {sorter : EntrySorter} {cfg : PrunerConfig} {queue : IndexerQueue}
    (full : cfg.maxBlocks < queue.entries.length) {entry : BlockEntry}
    (drained : entry ∈ drainedEntries sorter cfg queue) :
    keepEntries cfg queue.entries.length <
      (queue.entries.countP (entry.blockNumber ≤ ·.blockNumber) : Int) := by
  obtain ⟨above, below, _⟩ := keepEntries_bounds cfg full
  have positive := cfg.positive
  have ordered := sorter.ordered queue.entries
  have split := List.take_append_drop
    (queue.entries.length - (keepEntries cfg queue.entries.length).toNat) (sorter.sort queue.entries)
  rw [← split, List.pairwise_append] at ordered
  have kept : (keptEntries sorter cfg queue).countP (entry.blockNumber ≤ ·.blockNumber) =
      (keptEntries sorter cfg queue).length := by
    rw [List.countP_eq_length]
    intro other member
    exact decide_eq_true (ordered.2.2 entry drained other member)
  have own : 0 < (drainedEntries sorter cfg queue).countP (entry.blockNumber ≤ ·.blockNumber) :=
    List.countP_pos_iff.mpr ⟨entry, drained, decide_eq_true le_rfl⟩
  have total : queue.entries.countP (entry.blockNumber ≤ ·.blockNumber) =
      (drainedEntries sorter cfg queue).countP (entry.blockNumber ≤ ·.blockNumber) +
        (keptEntries sorter cfg queue).countP (entry.blockNumber ≤ ·.blockNumber) := by
    rw [← List.countP_append, drainedEntries, keptEntries, split]
    exact ((sorter.perm queue.entries).countP_eq _).symm
  have size : (keptEntries sorter cfg queue).length =
      (keepEntries cfg queue.entries.length).toNat := by
    rw [keptEntries, List.length_drop, (sorter.perm queue.entries).length_eq]
    omega
  omega

/-- The order that puts one entry before all others of its number. -/
def Before (preferred first second : BlockEntry) : Prop :=
  first.blockNumber < second.blockNumber ∨
    first.blockNumber = second.blockNumber ∧ (second = preferred → first = preferred)

instance (preferred : BlockEntry) : DecidableRel (Before preferred) := fun _ _ =>
  inferInstanceAs (Decidable (_ ∨ _ ∧ (_ → _)))

instance (preferred : BlockEntry) : Std.Total (Before preferred) where
  total first second := by
    rcases lt_trichotomy first.blockNumber second.blockNumber with less | same | greater
    · exact .inl (.inl less)
    · by_cases chosen : first = preferred
      · exact .inl (.inr ⟨same, fun _ => chosen⟩)
      · exact .inr (.inr ⟨same.symm, fun equal => absurd equal chosen⟩)
    · exact .inr (.inl greater)

instance (preferred : BlockEntry) : IsTrans BlockEntry (Before preferred) where
  trans first second third firstSecond secondThird := by
    rcases firstSecond with less | ⟨same, chosen⟩
    · rcases secondThird with more | ⟨equal, _⟩
      · exact .inl (less.trans more)
      · exact .inl (equal ▸ less)
    · rcases secondThird with more | ⟨equal, other⟩
      · exact .inl (same ▸ more)
      · exact .inr ⟨same.trans equal, fun last => chosen (other last)⟩

/-- A sort that takes the given entry for the oldest of its number. -/
def EntrySorter.preferring (preferred : BlockEntry) : EntrySorter where
  sort := List.insertionSort (Before preferred)
  perm := List.perm_insertionSort _
  ordered entries := by
    refine (List.pairwise_insertionSort (Before preferred) entries).imp fun related => ?_
    rcases related with less | ⟨same, _⟩
    · exact less.le
    · exact same.le

/-- Such an entry is drained by some sort. -/
theorem mem_drainedEntries_preferring {cfg : PrunerConfig} {queue : IndexerQueue}
    (full : cfg.maxBlocks < queue.entries.length) {entry : BlockEntry}
    (member : entry ∈ queue.entries)
    (many : keepEntries cfg queue.entries.length <
      (queue.entries.countP (entry.blockNumber ≤ ·.blockNumber) : Int)) :
    entry ∈ drainedEntries (.preferring entry) cfg queue := by
  by_contra absent
  obtain ⟨above, below, _⟩ := keepEntries_bounds cfg full
  have positive := cfg.positive
  have perm := (EntrySorter.preferring entry).perm queue.entries
  have split := List.take_append_drop
    (queue.entries.length - (keepEntries cfg queue.entries.length).toNat)
    ((EntrySorter.preferring entry).sort queue.entries)
  have kept : entry ∈ keptEntries (.preferring entry) cfg queue := by
    have sorted := perm.mem_iff.mpr member
    rw [← split, List.mem_append] at sorted
    exact sorted.resolve_left absent
  have ordered := List.pairwise_insertionSort (Before entry) queue.entries
  rw [show List.insertionSort (Before entry) queue.entries = _ from split.symm,
    List.pairwise_append] at ordered
  -- Everything before the entry is older, so the older ones fill the drained part.
  have older : (drainedEntries (.preferring entry) cfg queue).countP
      (fun other => ¬ entry.blockNumber ≤ other.blockNumber) =
        (drainedEntries (.preferring entry) cfg queue).length := by
    rw [List.countP_eq_length]
    intro other drained
    rcases ordered.2.2 other drained entry kept with less | ⟨_, chosen⟩
    · exact decide_eq_true (not_le.mpr less)
    · exact absurd (chosen rfl ▸ drained) absent
  have size : (drainedEntries (.preferring entry) cfg queue).length =
      queue.entries.length - (keepEntries cfg queue.entries.length).toNat := by
    rw [drainedEntries, List.length_take, perm.length_eq]
    omega
  have total := List.length_eq_countP_add_countP (fun other : BlockEntry =>
    decide (entry.blockNumber ≤ other.blockNumber)) (l := queue.entries)
  have part : (drainedEntries (.preferring entry) cfg queue).countP
      (fun other => ¬ entry.blockNumber ≤ other.blockNumber) ≤
        queue.entries.countP (fun other => ¬ entry.blockNumber ≤ other.blockNumber) := by
    rw [← perm.countP_eq]
    exact (List.take_sublist _ _).countP_le
  simp only [decide_not, decide_eq_true_eq] at older part total
  omega

/-- The drained entries name what a queue cycle purges. -/
theorem purgedBy_drained_iff {identities : Identities handler} {state : PruneState}
    (accounted : Accounted identities state) {env : PruneEnvironment} {sorter : EntrySorter}
    {cfg : PrunerConfig} {doc : Doc} :
    purgedBy env handler (IndexerQueue.buildDrainResult (drainedEntries sorter cfg state.queue)
        (collectionNames handler)).docIDsByCollection doc = true ↔
      env.Purges (handler.collectionName doc.collection) ∧
        ∃ entry ∈ drainedEntries sorter cfg state.queue,
          purgeKey handler doc ∈ entry.docs (collectionNames handler) :=
  purgedBy_buildDrainResult fun entry member =>
    (accounted.entries entry (mem_drainedEntries member)).foreign

/-- A queue cycle keeps the top blocks, whatever the database answers and however equal
numbers are sorted, exactly if the entries of the top blocks are among the kept ones. -/
theorem runIndexerQueuePrune_retains_iff {identities : Identities handler} {state : PruneState}
    (accounted : Accounted identities state) (cfg : PrunerConfig)
    (full : cfg.maxBlocks < state.queue.entries.length) :
    (∀ env sorter, Retains cfg state.db (state.db.purge (purgedBy env handler
        (IndexerQueue.buildDrainResult (drainedEntries sorter cfg state.queue)
          (collectionNames handler)).docIDsByCollection))) ↔
      QueueSafe cfg handler state := by
  constructor
  · intro retains entry member doc visible height located among named
    by_contra many
    have drained := mem_drainedEntries_preferring full member (not_le.mp many)
    have kept := retains .quiet (.preferring entry) doc visible height located among
    have purged := (purgedBy_drained_iff accounted).mpr ⟨quiet_purges _, entry, drained, named⟩
    rw [SoftStore.mem_purge, purged] at kept
    exact absurd kept.2 (by decide)
  · intro safe env sorter doc visible height located among
    refine SoftStore.mem_purge.mpr ⟨visible, Bool.eq_false_iff.mpr fun purged => ?_⟩
    obtain ⟨_, entry, drained, named⟩ := (purgedBy_drained_iff accounted).mp purged
    have few := safe entry (mem_drainedEntries drained) doc visible height located among named
    exact absurd (keepEntries_lt_countP full drained) (not_lt.mpr few)

/-- A queue cycle purges at most one height per drained entry. -/
theorem runIndexerQueuePrune_capped {identities : Identities handler} {state : PruneState}
    (accounted : Accounted identities state) (cfg : PrunerConfig)
    (full : cfg.maxBlocks < state.queue.entries.length) (env : PruneEnvironment)
    (sorter : EntrySorter) :
    Capped cfg state.db (state.db.purge (purgedBy env handler
      (IndexerQueue.buildDrainResult (drainedEntries sorter cfg state.queue)
        (collectionNames handler)).docIDsByCollection)) := by
  intro positive
  obtain ⟨above, below, cap⟩ := keepEntries_bounds cfg full
  have within : purgedHeights state.db (state.db.purge (purgedBy env handler
      (IndexerQueue.buildDrainResult (drainedEntries sorter cfg state.queue)
        (collectionNames handler)).docIDsByCollection)) ⊆
      ((drainedEntries sorter cfg state.queue).map (·.blockNumber)).toFinset := by
    intro height member
    obtain ⟨doc, visible, gone, located⟩ := mem_purgedHeights.mp member
    have purged : purgedBy env handler (IndexerQueue.buildDrainResult
        (drainedEntries sorter cfg state.queue) (collectionNames handler)).docIDsByCollection doc =
          true := by
      by_contra kept
      exact gone (SoftStore.mem_purge.mpr ⟨visible, Bool.eq_false_iff.mpr kept⟩)
    obtain ⟨_, entry, drained, named⟩ := (purgedBy_drained_iff accounted).mp purged
    obtain ⟨other, known, same, otherHeight⟩ :=
      (accounted.entries entry (mem_drainedEntries drained)).names _ named
    have equal := identities.eq_of_purgeKey known (accounted.known doc (.inl visible)) same
    rw [equal, located, Option.some.injEq] at otherHeight
    exact List.mem_toFinset.mpr (List.mem_map.mpr ⟨entry, drained, otherHeight.symm⟩)
  have size := (Finset.card_le_card within).trans (List.toFinset_card_le _)
  have drained : (drainedEntries sorter cfg state.queue).length ≤
      state.queue.entries.length - (keepEntries cfg state.queue.entries.length).toNat :=
    List.length_take_le _ _
  rw [List.length_map] at size
  have few := cap positive
  have target := cfg.positive
  omega

/-! ### Every cycle -/

/-- When a cycle keeps what it should: the span cycles need a window without holes, the
filter-driven cycle few enough heights below it as well, and the queue-driven cycle
entries of the top blocks that are not pushed out by older entries of their heights. -/
def PruneCycle.Safe (cfg : PrunerConfig) (handler : BlockHandler) (state : PruneState) :
    PruneCycle → Prop
  | .startupCleanup | .filterBasedPrune => SpanSafe cfg state.db
  | .runIndexerQueuePrune =>
      if (state.queue.entries.length : Int) ≤ cfg.maxBlocks then
        SpanSafe cfg state.db ∧ SpanCapped cfg state.db
      else QueueSafe cfg handler state

/-- In every state that stores, rollbacks, cycles and restarts lead to, a cycle keeps the
top blocks and its cap exactly if it is safe there. -/
theorem cycle_keeps_iff (cfg : PrunerConfig) (identities : Identities handler) {db : DB}
    {path : String} {state : PruneState} (known : ∀ doc, db.Holds doc → identities.docs doc)
    (reached : (pruneSystem cfg identities).Path (.opened db path) state) (cycle : PruneCycle) :
    (∀ env sorter, ∃ after, cycle.dbAfter env sorter cfg handler state = some after ∧
        cycle.Keeps cfg state.db after) ↔
      cycle.Safe cfg handler state := by
  have accounted := accounted_path known reached
  cases cycle with
  | startupCleanup =>
      rw [PruneCycle.Safe, ← pruneExcess_retains_iff accounted cfg "startup cleanup: "]
      simp only [PruneCycle.dbAfter, PruneCycle.Keeps, Option.some.injEq, exists_eq_left',
        reduceCtorEq, false_implies, and_true]
      exact ⟨fun keeps env => keeps env .insertion, fun keeps env _ => keeps env⟩
  | filterBasedPrune =>
      rw [PruneCycle.Safe, ← pruneExcess_retains_iff accounted cfg "filter-based prune: "]
      simp only [PruneCycle.dbAfter, PruneCycle.Keeps, Option.some.injEq, exists_eq_left',
        reduceCtorEq, false_implies, and_true]
      exact ⟨fun keeps env => keeps env .insertion, fun keeps env _ => keeps env⟩
  | runIndexerQueuePrune =>
      by_cases spare : (state.queue.entries.length : Int) ≤ cfg.maxBlocks
      · simp only [PruneCycle.Safe, if_pos spare, PruneCycle.dbAfter, PruneCycle.Keeps,
          runIndexerQueuePrune_filters _ cfg state spare, Option.map_some, Option.some.injEq,
          exists_eq_left', true_implies]
        rw [← pruneExcess_retains_iff accounted cfg "filter-based prune: ",
          ← pruneExcess_capped_iff accounted cfg "filter-based prune: "]
        exact ⟨fun keeps => ⟨fun env => (keeps env .insertion).1, fun env => (keeps env .insertion).2⟩,
          fun keeps env _ => ⟨keeps.1 env, keeps.2 env⟩⟩
      · have full := not_le.mp spare
        rw [PruneCycle.Safe, if_neg spare, ← runIndexerQueuePrune_retains_iff accounted cfg full]
        have after : ∀ env sorter, PruneCycle.dbAfter env sorter cfg handler state
            .runIndexerQueuePrune = some (state.db.purge (purgedBy env handler
              (IndexerQueue.buildDrainResult (drainedEntries sorter cfg state.queue)
                (collectionNames handler)).docIDsByCollection)) := by
          intro env sorter
          obtain ⟨outcome, ran⟩ := @runIndexerQueuePrune_drains handler env sorter cfg state full
          rw [PruneCycle.dbAfter, ran]
          rfl
        simp only [after, PruneCycle.Keeps, Option.some.injEq, exists_eq_left', true_implies]
        exact ⟨fun keeps env sorter => (keeps env sorter).1, fun keeps env sorter =>
          ⟨keeps env sorter, runIndexerQueuePrune_capped accounted cfg full env sorter⟩⟩

/-! ### Cycles on a small chain -/

/-- Blocks without other documents; `fork` tells blocks of one height apart. -/
def sampleBlock (height : Int) (fork : String) : Doc :=
  ⟨.block, [(numberFieldName, .int64 height), (hashFieldName, .string (toString height ++ fork))]⟩

def sampleBlocks : List Doc :=
  [sampleBlock 1 "", sampleBlock 2 "", sampleBlock 2 "'", sampleBlock 3 "", sampleBlock 10 ""]

def sampleHandler : BlockHandler where
  chainName := "Ethereum__Sepolia"
  maxDocsPerTxn := 500
  docID doc := sampleDocID (Hex.digit (sampleBlocks.findIdx fun other => decide (other = doc)))
  cid _ := ""
  positive := by decide
  plain := by decide

def sampleIdentities : Identities sampleHandler where
  docs doc := doc ∈ sampleBlocks
  canonical doc member := by
    have digits : ∀ doc ∈ sampleBlocks,
        Hex.digit (sampleBlocks.findIdx fun other => decide (other = doc)) ∈ Hex.lowerDigits := by
      decide +kernel
    exact sampleDocID_canonical (digits doc member)
  distinct left right leftMember rightMember _ same := by
    have apart : ∀ left ∈ sampleBlocks, ∀ right ∈ sampleBlocks,
        sampleHandler.docID left = sampleHandler.docID right → left = right := by decide +kernel
    exact apart left leftMember right rightMember same

def storeSample (height : Int) (fork : String) : PruneMove :=
  .store { number := height, block := sampleBlock height fork, others := [], signature := none }

def sampleState (cfg : PrunerConfig) (moves : List PruneMove) : PruneState :=
  moves.foldl (fun state move => move.effect cfg sampleHandler state)
    (.opened SoftStore.empty "prune_queue.gob")

theorem sampleState_reached (cfg : PrunerConfig) {moves : List PruneMove}
    (stores : ∀ stored, PruneMove.store stored ∈ moves →
      ∃ height fork, storeSample height fork = .store stored ∧ sampleBlock height fork ∈ sampleBlocks) :
    (pruneSystem cfg sampleIdentities).Path (.opened SoftStore.empty "prune_queue.gob")
      (sampleState cfg moves) := by
  refine path_foldl cfg sampleIdentities (fun stored member => ?_) _
  obtain ⟨height, fork, same, listed⟩ := stores stored member
  cases same
  refine ⟨?_, ?_, rfl, by simp, by simp⟩
  · intro doc written
    rw [List.mem_singleton.mp written]
    exact listed
  · intro doc written
    rw [List.mem_singleton.mp written]
    rfl

/-- Blocks with a hole behind them, as a skip-ahead leaves it. -/
def sparseMoves : List PruneMove := [storeSample 1 "", storeSample 10 ""]

/-- A block that was rolled back and stored again leaves two entries. -/
def reorgedMoves : List PruneMove :=
  [storeSample 1 "", storeSample 2 "", .rollbackBlocks 2 2 (AList.singleton 2 "2'") 10,
    storeSample 2 "'"]

def denseMoves : List PruneMove := [storeSample 1 "", storeSample 2 "", storeSample 3 ""]

/-- Blocks that a crash has taken out of the queue. -/
def backlogMoves : List PruneMove := denseMoves ++ [.restart false]

def retainTwo : PrunerConfig where
  maxBlocks := 2
  positive := by decide

def retainOneCapped : PrunerConfig where
  maxBlocks := 1
  maxBlocksPerCycle := 1
  positive := by decide

theorem not_retains_of_gone {cfg : PrunerConfig} {before after : DB} {height : Int} {fork : String}
    (visible : sampleBlock height fork ∈ before.visible)
    (top : AmongTop (visibleHeights before) cfg.maxBlocks height)
    (gone : sampleBlock height fork ∉ after.visible) : ¬ Retains cfg before after :=
  fun retains => gone (retains _ visible height rfl top)

theorem sparse_reached (cfg : PrunerConfig) :
    (pruneSystem cfg sampleIdentities).Path (.opened SoftStore.empty "prune_queue.gob")
      (sampleState cfg sparseMoves) := by
  refine sampleState_reached cfg fun stored member => ?_
  simp only [sparseMoves, List.mem_cons, List.not_mem_nil, or_false] at member
  rcases member with same | same
  · exact ⟨1, "", same.symm, by decide⟩
  · exact ⟨10, "", same.symm, by decide⟩

theorem reorged_reached (cfg : PrunerConfig) :
    (pruneSystem cfg sampleIdentities).Path (.opened SoftStore.empty "prune_queue.gob")
      (sampleState cfg reorgedMoves) := by
  refine sampleState_reached cfg fun stored member => ?_
  simp only [reorgedMoves, List.mem_cons, List.not_mem_nil, or_false, reduceCtorEq, false_or] at member
  rcases member with same | same | same
  · exact ⟨1, "", same.symm, by decide⟩
  · exact ⟨2, "", same.symm, by decide⟩
  · exact ⟨2, "'", same.symm, by decide⟩

theorem dense_stores {stored : StoredBlock} (member : PruneMove.store stored ∈ denseMoves) :
    ∃ height fork, storeSample height fork = .store stored ∧
      sampleBlock height fork ∈ sampleBlocks := by
  simp only [denseMoves, List.mem_cons, List.not_mem_nil, or_false] at member
  rcases member with same | same | same
  · exact ⟨1, "", same.symm, by decide⟩
  · exact ⟨2, "", same.symm, by decide⟩
  · exact ⟨3, "", same.symm, by decide⟩

theorem dense_reached (cfg : PrunerConfig) :
    (pruneSystem cfg sampleIdentities).Path (.opened SoftStore.empty "prune_queue.gob")
      (sampleState cfg denseMoves) :=
  sampleState_reached cfg fun _ => dense_stores

theorem backlog_reached (cfg : PrunerConfig) :
    (pruneSystem cfg sampleIdentities).Path (.opened SoftStore.empty "prune_queue.gob")
      (sampleState cfg backlogMoves) := by
  refine sampleState_reached cfg fun stored member => ?_
  rw [backlogMoves, List.mem_append, List.mem_singleton] at member
  exact dense_stores (member.resolve_right (by simp))

/-- A hole below the highest block, or a second entry for one height, lets a cycle purge
one of the two blocks it should retain; without entries the cap is ignored. -/
theorem cycles_purge_top_blocks :
    (∃ state after, (pruneSystem retainTwo sampleIdentities).Path
        (.opened SoftStore.empty "prune_queue.gob") state ∧
      PruneCycle.dbAfter .quiet .insertion retainTwo sampleHandler state .startupCleanup =
        some after ∧ ¬ Retains retainTwo state.db after) ∧
    (∃ state after, (pruneSystem retainTwo sampleIdentities).Path
        (.opened SoftStore.empty "prune_queue.gob") state ∧
      PruneCycle.dbAfter .quiet .insertion retainTwo sampleHandler state .runIndexerQueuePrune =
        some after ∧ ¬ Retains retainTwo state.db after) ∧
    ∃ state after, (pruneSystem retainOneCapped sampleIdentities).Path
        (.opened SoftStore.empty "prune_queue.gob") state ∧
      PruneCycle.dbAfter .quiet .insertion retainOneCapped sampleHandler state
        .runIndexerQueuePrune = some after ∧ ¬ Capped retainOneCapped state.db after := by
  refine ⟨⟨sampleState retainTwo sparseMoves, _, sparse_reached _, rfl,
    @not_retains_of_gone _ _ _ 1 "" ?_ ?_ ?_⟩, ?_, ?_⟩
  · decide +kernel
  · decide +kernel
  · decide +kernel
  · have pruned : (PruneCycle.dbAfter .quiet .insertion retainTwo sampleHandler
        (sampleState retainTwo reorgedMoves) .runIndexerQueuePrune).map
          (fun after => decide (sampleBlock 1 "" ∈ after.visible)) = some false := by
      decide +kernel
    obtain ⟨after, ran, gone⟩ := Option.map_eq_some_iff.mp pruned
    exact ⟨_, after, reorged_reached _, ran, not_retains_of_gone (by decide +kernel)
      (by decide +kernel) (of_decide_eq_false gone)⟩
  · have pruned : (PruneCycle.dbAfter .quiet .insertion retainOneCapped sampleHandler
        (sampleState retainOneCapped backlogMoves) .runIndexerQueuePrune).map
          (fun after => (purgedHeights (sampleState retainOneCapped backlogMoves).db after).card) =
            some 2 := by
      decide +kernel
    obtain ⟨after, ran, many⟩ := Option.map_eq_some_iff.mp pruned
    refine ⟨_, after, backlog_reached _, ran, fun capped => ?_⟩
    have few := capped (by decide)
    rw [many] at few
    exact absurd few (by decide)

/-- Blocks without a hole: one goes, the two highest stay. -/
theorem dense_blocks_retained :
    PruneCycle.Safe retainTwo sampleHandler (sampleState retainTwo denseMoves)
        .filterBasedPrune ∧
      ∃ after, PruneCycle.dbAfter .quiet .insertion retainTwo sampleHandler
          (sampleState retainTwo denseMoves) .filterBasedPrune = some after ∧
        PruneCycle.Keeps retainTwo (sampleState retainTwo denseMoves).db after
          .filterBasedPrune := by
  have safe : PruneCycle.Safe retainTwo sampleHandler (sampleState retainTwo denseMoves)
      .filterBasedPrune := by
    intro lowest highest spans _ height low high
    have top : (blockNumbers (sampleState retainTwo denseMoves).db).max? = some 3 := by
      decide +kernel
    have same : highest = 3 := Option.some.inj (spans.2.symm.trans top)
    have target : retainTwo.maxBlocks = 2 := rfl
    have cases : height = 2 ∨ height = 3 := by omega
    rcases cases with rfl | rfl
    · decide +kernel
    · decide +kernel
  exact ⟨safe, (cycle_keeps_iff retainTwo sampleIdentities
    (by simp [SoftStore.Holds, SoftStore.empty]) (dense_reached retainTwo) .filterBasedPrune).mpr
      safe .quiet .insertion⟩

end ShinzoGenerator.Pruner
