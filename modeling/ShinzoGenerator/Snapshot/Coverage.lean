import Mathlib.Data.Set.Insert
import ShinzoGenerator.Indexer.Resume
import ShinzoGenerator.Pruner.Pruner
import ShinzoGenerator.Snapshot.SnapshotterRuns

/-! Snapshot cycles beside the processor. A cycle reads only the two ends of what is
stored, so the range it decides on is stored as a whole only while nothing leaves a gap
between them. -/

set_option autoImplicit false

namespace ShinzoGenerator.Snapshot

open Chains Defra Indexer

/-! ### Sets of heights without gaps -/

def NoGap (heights : Set Int) : Prop :=
  ∀ low ∈ heights, ∀ high ∈ heights, ∀ middle, low ≤ middle → middle ≤ high → middle ∈ heights

theorem NoGap.insert {heights : Set Int} (noGap : NoGap heights) {height : Int}
    (next : heights = ∅ ∨ height - 1 ∈ heights ∨ height + 1 ∈ heights) :
    NoGap (insert height heights) := by
  -- what lies between the new height and an old one lies between the neighbour and the old one
  have below : ∀ other ∈ heights, ∀ middle, other ≤ middle → middle < height →
      middle ∈ heights := by
    intro other member middle above inside
    rcases next with rfl | lower | upper
    · cases member
    · exact noGap other member _ lower middle above (by omega)
    · exact noGap other member _ upper middle above (by omega)
  have above : ∀ other ∈ heights, ∀ middle, height < middle → middle ≤ other →
      middle ∈ heights := by
    intro other member middle inside below
    rcases next with rfl | lower | upper
    · cases member
    · exact noGap _ lower other member middle (by omega) below
    · exact noGap _ upper other member middle (by omega) below
  intro low lowMember high highMember middle lowBound highBound
  by_cases same : middle = height
  · exact .inl same
  right
  rcases lowMember with rfl | lowMember
  · rcases highMember with rfl | highMember
    · omega
    · exact above high highMember middle (by omega) highBound
  · rcases highMember with rfl | highMember
    · exact below low lowMember middle lowBound (by omega)
    · exact noGap low lowMember high highMember middle lowBound highBound

theorem NoGap.remove_top {heights kept : Set Int} (noGap : NoGap heights)
    (within : kept ⊆ heights)
    (top : ∀ height ∈ heights, height ∉ kept → ∀ other ∈ kept, other < height) : NoGap kept := by
  intro low lowKept high highKept middle lowBound highBound
  by_contra removed
  have stored := noGap low (within lowKept) high (within highKept) middle lowBound highBound
  have below := top middle stored removed high highKept
  omega

/-! ### The interleaving -/

/-- How far a cycle has come: the heights it has read. -/
inductive Cycle where
  | idle
  | lowest (lowest : Int)
  | range (lowest highest : Int)
deriving DecidableEq

/-- A decided range with the store at that moment. -/
structure Decision where
  startBlock : Int
  endBlock : Int
  db : DB

/-- `deletions` counts the chunks that the rollback at work has deleted. -/
structure Coverage where
  processor : Processor
  deletions : Nat := 0
  cycle : Cycle := .idle
  lastSnapshotBlock : Int := 0
  decided : List Decision := []

/-- The store as a query sees it, also in the middle of a rollback. -/
def Coverage.db (state : Coverage) : DB :=
  match state.processor.stage with
  | .rollingBack run point => leftBy
      (rollbackBlocks (point.forkPoint + 1) point.oldTip point.chainHashes state.deletions run.db)
  | stage => stage.db

inductive CoverageMove where
  | process (move : ProcessMove)
  | deleteChunk
  | readLowest (queryFails : Bool)
  | readHighest (queryFails : Bool)
  | decide (created : Bool)

/-- A rollback returns with the deletions it has made. -/
def coverageEnabled (state : Coverage) (move : CoverageMove) : Prop :=
  match move, state.processor.stage, state.cycle with
  | .process (.rollback budget _), .rollingBack _ _, _ => budget = state.deletions
  | .process move, _, _ => processBlocks.enabled state.processor move
  | .deleteChunk, .rollingBack _ _, _ => True
  | .readLowest _, _, .idle => True
  | .readHighest _, _, .lowest _ => True
  | .decide _, _, .range _ _ => True
  | _, _, _ => False

/-- A cycle of `checkAndSnapshot` reads the lowest height, then the highest, and then decides
on a range; the cursor advances if the file is created. -/
def coverageEffect (cfg : SnapshotConfig) (state : Coverage) (move : CoverageMove) : Coverage :=
  match move, state.cycle with
  | .process move, _ =>
      { state with processor := processBlocks.effect state.processor move, deletions := 0 }
  | .deleteChunk, _ => { state with deletions := state.deletions + 1 }
  | .readLowest queryFails, .idle =>
      match Pruner.getLowestStoredBlockNumber queryFails state.db with
      | .error _ => state
      | .ok lowest => { state with cycle := .lowest lowest }
  | .readHighest queryFails, .lowest lowest =>
      match getHighestStoredBlockNumber queryFails state.db with
      | .error _ => { state with cycle := .idle }
      | .ok highest => { state with cycle := .range lowest highest }
  | .decide created, .range lowest highest =>
      match decideSnapshot cfg state.lastSnapshotBlock lowest highest with
      | none => { state with cycle := .idle }
      | some (startBlock, endBlock) =>
          { state with
            cycle := .idle
            lastSnapshotBlock := if created then endBlock else state.lastSnapshotBlock
            decided := state.decided ++ [{ startBlock, endBlock, db := state.db }] }
  | _, _ => state

def coverage (cfg : SnapshotConfig) : GuardedSystem Coverage CoverageMove where
  enabled := coverageEnabled
  effect := coverageEffect cfg

instance (cfg : SnapshotConfig) (state : Coverage) (move : CoverageMove) :
    Decidable ((coverage cfg).enabled state move) := by
  change Decidable (coverageEnabled state move)
  unfold coverageEnabled
  split <;> infer_instance

/-! ### Stores and rollbacks that leave no gap -/

/-- The document is no block, or its height is vacant and next to a stored one. -/
def LandsNext (db : DB) (doc : Doc) : Prop :=
  doc.collection = .block → ∀ height ∈ doc.height?, blocksAt db height = [] ∧
    ((∀ other ∈ db.visible, other.collection ≠ .block) ∨ blocksAt db (height - 1) ≠ [] ∨
      blocksAt db (height + 1) ≠ [])

instance (db : DB) (doc : Doc) : Decidable (LandsNext db doc) :=
  inferInstanceAs (Decidable (_ → ∀ height ∈ doc.height?, _))

def StoresNext (run : Run) : Move → Prop
  | .pool (.commitBlock _ doc) => LandsNext run.db doc
  | _ => True

instance (run : Run) (move : Move) : Decidable (StoresNext run move) :=
  match move with
  | .pool (.commitBlock _ doc) => inferInstanceAs (Decidable (LandsNext run.db doc))
  | .pool (.take _) | .pool (.commitOthers _ _) | .pool (.finishStore _ _ _)
  | .pool (.report _) | .pool .release | .cancel | .dispatch _ | .collect _ | .closeCompletions
  | .finish => isTrue trivial

/-- Every block above the fork point is one that the rollback deletes. -/
def ClearsTop (db : DB) (point : RollbackPoint) : Prop :=
  ∀ doc ∈ db.visible, doc.collection = .block → ∀ height ∈ doc.height?, point.forkPoint < height →
    height ≤ point.oldTip ∧ Orphan db point.chainHashes height

/-- Blocks land next to the stored ones, and a rollback takes the top off and does not
delete under a running cycle. -/
def InOrder (state : Coverage) : CoverageMove → Prop
  | .process move => During (fun _ => StoresNext) state.processor move
  | .deleteChunk =>
      match state.processor.stage with
      | .rollingBack run point => state.cycle = .idle ∧ ClearsTop run.db point
      | _ => True
  | _ => True

instance (db : DB) (chainHashes : HeightMap String) (height : Int) :
    Decidable (Orphan db chainHashes height) :=
  decidable_of_iff
    (∃ chainHash ∈ chainHashes.lookup height, chainHash ≠ "" ∧
      ∃ stored ∈ (getStoredBlockHash db height).toOption, stored ≠ "" ∧ stored ≠ chainHash) (by
    unfold Orphan
    cases chainHashes.lookup height <;> cases getStoredBlockHash db height <;>
      simp [Except.toOption])

instance (db : DB) (point : RollbackPoint) : Decidable (ClearsTop db point) :=
  inferInstanceAs (Decidable (∀ doc ∈ db.visible, _ → ∀ height ∈ doc.height?, _))

instance (state : Coverage) (move : CoverageMove) : Decidable (InOrder state move) := by
  unfold InOrder
  split
  · infer_instance
  · split <;> infer_instance
  · infer_instance

instance (cfg : SnapshotConfig) (state : Coverage) (move : CoverageMove) :
    Decidable (((coverage cfg).restrict InOrder).enabled state move) :=
  inferInstanceAs (Decidable (_ ∧ _))

def storedHeights (db : DB) : Set Int := { height | blocksAt db height ≠ [] }

theorem mem_storedHeights {db : DB} {height : Int} :
    height ∈ storedHeights db ↔ ∃ doc, doc ∈ blocksAt db height := by
  constructor
  · exact List.exists_mem_of_ne_nil _
  · rintro ⟨doc, member⟩
    exact List.ne_nil_of_mem member

theorem storedHeights_congr {left right : DB}
    (same : ∀ height, blocksAt left height = blocksAt right height) :
    storedHeights left = storedHeights right := by
  ext height
  simp only [mem_storedHeights, same]

/-- At most one block a height, and no gap between the stored heights. -/
structure Gapless (db : DB) : Prop where
  single : SingleBlocks db
  noGap : NoGap (storedHeights db)

theorem Gapless.congr {db next : DB} (gapless : Gapless db)
    (same : ∀ height, blocksAt next height = blocksAt db height) : Gapless next := by
  refine ⟨fun height => ?_, ?_⟩
  · rw [same]
    exact gapless.single height
  · rw [storedHeights_congr same]
    exact gapless.noGap

theorem Gapless.add {db next : DB} (gapless : Gapless db) {doc : Doc}
    (added : db.add doc = .ok next) (lands : LandsNext db doc) :
    Gapless next ∧ storedHeights db ⊆ storedHeights next := by
  have visible := SoftStore.add_ok_visible added
  by_cases isBlock : doc.collection = .block
  · cases located : doc.height? with
    | none =>
        have same : ∀ height, blocksAt next height = blocksAt db height := by
          intro height
          simp [blocksAt, docsAt, visible, List.filter_append, located]
        exact ⟨gapless.congr same, (storedHeights_congr same).ge⟩
    | some height =>
        obtain ⟨vacant, adjacent⟩ := lands isBlock height located
        have rows : ∀ {other : Int} {row : Doc}, row ∈ blocksAt next other ↔
            row ∈ blocksAt db other ∨ row = doc ∧ other = height :=
          mem_blocksAt_add visible isBlock located
        have heights : storedHeights next = insert height (storedHeights db) := by
          ext other
          rw [Set.mem_insert_iff, mem_storedHeights, mem_storedHeights]
          constructor
          · rintro ⟨row, member⟩
            rcases rows.mp member with old | ⟨_, same⟩
            · exact .inr ⟨row, old⟩
            · exact .inl same
          · rintro (same | ⟨row, old⟩)
            · exact ⟨doc, rows.mpr (.inr ⟨rfl, same⟩)⟩
            · exact ⟨row, rows.mpr (.inl old)⟩
        refine ⟨⟨SingleBlocks.of_unique ?_, ?_⟩, ?_⟩
        · intro other left leftAt right rightAt
          rcases rows.mp leftAt with leftOld | ⟨rfl, rfl⟩
          · rcases rows.mp rightAt with rightOld | ⟨rfl, rfl⟩
            · exact gapless.single.unique leftOld rightOld
            · rw [vacant] at leftOld
              cases leftOld
          · rcases rows.mp rightAt with rightOld | ⟨rfl, _⟩
            · rw [vacant] at rightOld
              cases rightOld
            · rfl
        · rw [heights]
          refine gapless.noGap.insert ?_
          refine adjacent.imp_left fun none => Set.eq_empty_iff_forall_notMem.mpr ?_
          intro other stored
          obtain ⟨row, member⟩ := mem_storedHeights.mp stored
          obtain ⟨shown, block, _⟩ := mem_blocksAt.mp member
          exact none row shown block
        · rw [heights]
          exact Set.subset_insert _ _
  · have same := blocksAt_others (by simpa using isBlock) visible
    exact ⟨gapless.congr same, (storedHeights_congr same).ge⟩

/-- What a move of a run leaves, if block documents only land next to stored ones. -/
theorem Gapless.run_step {run : Run} {move : Move} (gapless : Gapless run.db)
    (enabled : (restricted StoresNext).enabled run move) :
    Gapless (processBlocksOnce.effect run move).db ∧
      storedHeights run.db ⊆ storedHeights (processBlocksOnce.effect run move).db := by
  cases move with
  | pool move =>
      obtain ⟨able, lands⟩ := enabled
      have enabled : poolEnabled run.setup.workers run.ledger.ctxDone run.pool run.db move := able
      change Gapless (poolEffect run.pool run.db move).2 ∧
        storedHeights run.db ⊆ storedHeights (poolEffect run.pool run.db move).2
      cases move with
      | take | finishStore | report | release => exact ⟨gapless, subset_rfl⟩
      | commitBlock item doc =>
          obtain ⟨db, added, effect⟩ := poolEffect_commitBlock enabled
          simp only [effect]
          exact gapless.add added lands
      | commitOthers item docs =>
          obtain ⟨db, added, effect⟩ := poolEffect_commitOthers enabled
          have same := blocksAt_others enabled.2.1 (SoftStore.addAll_ok_visible added)
          simp only [effect]
          exact ⟨gapless.congr same, (storedHeights_congr same).ge⟩
  | collect move =>
      have same : (processBlocksOnce.effect run (.collect move)).db = run.db :=
        (restricted_collect enabled).db_eq
      rw [same]
      exact ⟨gapless, subset_rfl⟩
  | cancel | dispatch | closeCompletions | finish => exact ⟨gapless, subset_rfl⟩

/-- A rollback that deletes everything above its fork point leaves no gap, wherever it
has come to: it works from the top down. -/
theorem Gapless.rollback {db : DB} (gapless : Gapless db) {point : RollbackPoint}
    (clears : ClearsTop db point) (budget : Nat) :
    Gapless (leftBy (rollbackBlocks (point.forkPoint + 1) point.oldTip point.chainHashes budget db)) := by
  obtain ⟨removed, left⟩ := rollbackBlocks_left gapless.single (point.forkPoint + 1) point.oldTip
    point.chainHashes budget
  refine ⟨singleBlocks_of_rollback gapless.single _ _ _ _, ?_⟩
  refine gapless.noGap.remove_top (fun height stored => ?_) ?_
  · obtain ⟨doc, member⟩ := mem_storedHeights.mp stored
    exact mem_storedHeights.mpr ⟨doc, ((mem_blocksAt_removed left.visible).mp member).1⟩
  · intro height stored gone other kept
    obtain ⟨doc, member⟩ := mem_storedHeights.mp stored
    obtain ⟨top, topMember⟩ := mem_storedHeights.mp kept
    obtain ⟨topStored, topKept⟩ := (mem_blocksAt_removed left.visible).mp topMember
    have deleted : doc ∈ removed := by
      by_contra spared
      exact gone (mem_storedHeights.mpr ⟨doc, (mem_blocksAt_removed left.visible).mpr ⟨member, spared⟩⟩)
    obtain ⟨_, _, _, listed, located, _⟩ := left.condemned doc deleted
    obtain ⟨_, _, atHeight⟩ := mem_blocksAt.mp member
    rw [atHeight, Option.some.injEq] at located
    subst located
    obtain ⟨low, high⟩ := mem_descending.mp listed
    by_contra higher
    obtain ⟨shown, isBlock, atOther⟩ := mem_blocksAt.mp topStored
    rcases eq_or_lt_of_le (not_lt.mp higher) with same | above
    · subst same
      exact topKept (gapless.single.unique member topStored ▸ deleted)
    · obtain ⟨within, orphan⟩ := clears top shown isBlock other atOther (by omega)
      have scope : top.collection ∈ blockScoped := by
        rw [isBlock]
        decide
      exact topKept (descending_pairwise left.sequential low above within ⟨doc, deleted, atHeight⟩
        top shown scope atOther orphan)

/-- Nothing is deleted before the first chunk. -/
theorem rollbackBlocks_unbegun (low high : Int) (chainHashes : HeightMap String) (db : DB) :
    leftBy (rollbackBlocks low high chainHashes 0 db) = db := by
  have chunk : ∀ chunks, deleteChunks chunks (0, db) = .ok (0, db) ∨
      ∃ error, deleteChunks chunks (0, db) = .error (error, db) := by
    intro chunks
    cases chunks with
    | nil => exact .inl rfl
    | cons => exact .inr ⟨_, rfl⟩
  have single : ∀ height, rollbackHeight chainHashes height (0, db) = .ok (0, db) ∨
      ∃ error, rollbackHeight chainHashes height (0, db) = .error (error, db) := by
    intro height
    unfold rollbackHeight
    split
    · exact .inl rfl
    · split
      · exact .inl rfl
      · split
        · exact .inr ⟨_, rfl⟩
        · split
          · exact .inl rfl
          · rw [deleteCollections_eq_plan]
            exact chunk _
  rw [rollbackBlocks_leftBy]
  induction descending low high with
  | nil => rfl
  | cons height heights ih =>
      rcases single height with kept | ⟨error, failed⟩
      · rw [rollbackHeights, kept]
        exact ih
      · rw [rollbackHeights, failed]
        rfl

/-! ### The invariant -/

/-- The heights a cycle has read are stored. -/
def Cycle.ReadFrom (heights : Set Int) : Cycle → Prop
  | .idle => True
  | .lowest low => 0 ≤ low ∧ low ∈ heights
  | .range low high => (0 ≤ low ∧ low ∈ heights) ∧ high ∈ heights

theorem Cycle.ReadFrom.mono {heights more : Set Int} {cycle : Cycle} (read : cycle.ReadFrom heights)
    (grown : heights ⊆ more) : cycle.ReadFrom more := by
  cases cycle with
  | idle => trivial
  | lowest low => exact ⟨read.1, grown read.2⟩
  | range low high => exact ⟨⟨read.1.1, grown read.1.2⟩, grown read.2⟩

/-- Every height of the range has a visible block. -/
def Decision.Complete (decision : Decision) : Prop :=
  ∀ height, decision.startBlock ≤ height → height ≤ decision.endBlock →
    height ∈ storedHeights decision.db

structure Covered (state : Coverage) : Prop where
  stored : Gapless state.processor.stage.db
  visible : Gapless state.db
  read : state.cycle.ReadFrom (storedHeights state.db)
  decided : ∀ decision ∈ state.decided, decision.Complete

theorem Coverage.db_unbegun (state : Coverage) :
    Coverage.db { state with deletions := 0 } = state.processor.stage.db := by
  unfold Coverage.db
  cases located : state.processor.stage with
  | rollingBack run point => exact rollbackBlocks_unbegun _ _ _ _
  | seeding | running | stopped => rfl

/-- A move of the processor keeps what is visible or adds to it. -/
theorem Covered.process {state : Coverage} (covered : Covered state) {processor : Processor}
    (stored : Gapless processor.stage.db)
    (grown : storedHeights state.db ⊆ storedHeights processor.stage.db) :
    Covered { state with processor, deletions := 0 } := by
  have view := Coverage.db_unbegun { state with processor }
  refine ⟨stored, ?_, ?_, covered.decided⟩
  · rw [view]
    exact stored
  · rw [view]
    exact covered.read.mono grown

theorem afterRun_db (run : Run) : (afterRun run).db = run.db := by
  unfold afterRun
  split
  · rfl
  · rfl
  · split <;> rfl

theorem afterRollback_db (run : Run) (point : RollbackPoint) (budget : Nat) (aborted : Bool) :
    (afterRollback run point budget aborted).db =
      leftBy (rollbackBlocks (point.forkPoint + 1) point.oldTip point.chainHashes budget run.db) := by
  unfold afterRollback
  split
  · rename_i failure failed
    rw [failed]
    rfl
  · rename_i rest db succeeded
    rw [succeeded]
    cases aborted <;> rfl

theorem Covered.process_step {state : Coverage} (covered : Covered state) {move : ProcessMove}
    (enabled : coverageEnabled state (.process move))
    (inOrder : During (fun _ => StoresNext) state.processor move) :
    Covered { state with processor := processBlocks.effect state.processor move, deletions := 0 } := by
  have stored := covered.stored
  have visible := covered.visible
  change Covered { state with processor := processEffect state.processor move, deletions := 0 }
  cases located : state.processor.stage with
  | seeding startBlock committedHashes guards db =>
      have view : state.db = db := by simp [Coverage.db, located, Stage.db]
      rw [located] at stored
      cases move with
      | seed queryFails =>
          have kept : (processEffect state.processor (.seed queryFails)).stage.db = db := by
            simp only [processEffect, located]
            split <;> rfl
          refine covered.process (kept ▸ stored) ?_
          rw [kept, view]
      | step | returned | rollback =>
          simp [coverageEnabled, processBlocks, processEnabled, located] at enabled
  | running run =>
      have view : state.db = run.db := by simp [Coverage.db, located, Stage.db]
      rw [located] at stored
      cases move with
      | step move =>
          have able : processBlocksOnce.enabled run move := by
            simpa [coverageEnabled, processBlocks, processEnabled, located] using enabled
          have lands : StoresNext run move := by simpa [During, located] using inOrder
          obtain ⟨next, grown⟩ := stored.run_step ⟨able, lands⟩
          have after : (processEffect state.processor (.step move)).stage =
              .running (processBlocksOnce.effect run move) := by
            simp only [processEffect, located]
          refine covered.process (by rw [after]; exact next) ?_
          rw [after, view]
          exact grown
      | returned =>
          have kept : (processEffect state.processor .returned).stage.db = run.db := by
            simp only [processEffect, located]
            exact afterRun_db run
          refine covered.process (kept ▸ stored) ?_
          rw [kept, view]
      | seed | rollback =>
          simp [coverageEnabled, processBlocks, processEnabled, located] at enabled
  | rollingBack run point =>
      cases move with
      | rollback budget aborted =>
          have spent : budget = state.deletions := by
            simpa [coverageEnabled, located] using enabled
          have kept : (processEffect state.processor (.rollback budget aborted)).stage.db =
              state.db := by
            simp only [processEffect, located, afterRollback_db, Coverage.db, spent]
          refine covered.process (kept ▸ visible) ?_
          rw [kept]
      | seed | step | returned =>
          simp [coverageEnabled, processBlocks, processEnabled, located] at enabled
  | stopped error db =>
      cases move <;> simp [coverageEnabled, processBlocks, processEnabled, located] at enabled

/-- A decided range lies within the heights that were read, wherever the cursor stands. -/
theorem decideSnapshot_within {cfg : SnapshotConfig} {last low high startBlock endBlock : Int}
    (positive : 0 ≤ low)
    (decided : decideSnapshot cfg last low high = some (startBlock, endBlock)) :
    low ≤ startBlock ∧ endBlock ≤ high := by
  rw [decideSnapshot] at decided
  split at decided
  · cases decided
  · rename_i nonzero
    have above := (alignUp_spec cfg.positive (by omega : 0 < low)).2
    have next : ∃ start, low ≤ start ∧ nextSnapshotRange cfg last low high =
        if high < start + cfg.blocksPerFile - 1 then none
        else some (start, start + cfg.blocksPerFile - 1) := by
      refine ⟨_, ?_, rfl⟩
      generalize (if last = 0 then alignUp cfg.blocksPerFile low else last + 1) = expected
      split
      · exact above
      · omega
    obtain ⟨start, bound, next⟩ := next
    rw [next] at decided
    split at decided
    · cases decided
    · rename_i inside
      cases decided
      exact ⟨bound, by omega⟩

theorem getLowestStoredBlockNumber_ok {queryFails : Bool} {db : DB} {low : Int}
    (found : Pruner.getLowestStoredBlockNumber queryFails db = .ok low) :
    0 ≤ low ∧ low ∈ storedHeights db := by
  unfold Pruner.getLowestStoredBlockNumber at found
  split at found
  · cases found
  · split at found
    · rename_i number bottom
      cases found
      obtain ⟨positive, stored⟩ := mem_blockNumbers.mp (List.min?_eq_some_iff.mp bottom).1
      exact ⟨positive, mem_storedHeights.mpr stored⟩
    · split at found <;> cases found

/-- With both ends stored and no gap between them, the whole range is stored. -/
theorem Covered.decide {state : Coverage} (covered : Covered state) {cfg : SnapshotConfig}
    {low high startBlock endBlock : Int} (read : state.cycle = .range low high)
    (decided : decideSnapshot cfg state.lastSnapshotBlock low high = some (startBlock, endBlock)) :
    Decision.Complete { startBlock, endBlock, db := state.db } := by
  have ends := covered.read
  rw [read] at ends
  obtain ⟨⟨positive, lowStored⟩, highStored⟩ := ends
  obtain ⟨above, below⟩ := decideSnapshot_within positive decided
  intro height from_start to_end
  simp only at from_start to_end
  exact covered.visible.noGap low lowStored high highStored height (by omega) (by omega)

theorem Covered.step {cfg : SnapshotConfig} {state : Coverage} {move : CoverageMove}
    (covered : Covered state) (enabled : ((coverage cfg).restrict InOrder).enabled state move) :
    Covered (((coverage cfg).restrict InOrder).effect state move) := by
  obtain ⟨enabled, inOrder⟩ := enabled
  change coverageEnabled state move at enabled
  change Covered (coverageEffect cfg state move)
  cases move with
  | process move => exact covered.process_step enabled inOrder
  | deleteChunk =>
      cases located : state.processor.stage with
      | rollingBack run point =>
          simp only [InOrder, located] at inOrder
          obtain ⟨idle, clears⟩ := inOrder
          have stored := covered.stored
          rw [located] at stored
          change Gapless run.db at stored
          have visible := stored.rollback clears (state.deletions + 1)
          refine ⟨covered.stored, ?_, ?_, covered.decided⟩
          · simpa only [coverageEffect, Coverage.db, located] using visible
          · simp only [coverageEffect, idle]
            trivial
      | seeding | running | stopped => simp [coverageEnabled, located] at enabled
  | readLowest queryFails =>
      cases read : state.cycle with
      | idle =>
          simp only [coverageEffect, read]
          split
          · exact covered
          · rename_i low found
            exact ⟨covered.stored, covered.visible, getLowestStoredBlockNumber_ok found,
              covered.decided⟩
      | lowest | range => simp [coverageEnabled, read] at enabled
  | readHighest queryFails =>
      cases read : state.cycle with
      | lowest low =>
          have before := covered.read
          rw [read] at before
          simp only [coverageEffect, read]
          split
          · exact ⟨covered.stored, covered.visible, trivial, covered.decided⟩
          · rename_i high found
            have stored := mem_storedHeights.mpr (getHighestStoredBlockNumber_ok found).1
            exact ⟨covered.stored, covered.visible, ⟨before, stored⟩, covered.decided⟩
      | idle | range => simp [coverageEnabled, read] at enabled
  | decide created =>
      cases read : state.cycle with
      | range low high =>
          simp only [coverageEffect, read]
          split
          · exact ⟨covered.stored, covered.visible, trivial, covered.decided⟩
          · rename_i startBlock endBlock decided
            refine ⟨covered.stored, covered.visible, trivial, fun decision member => ?_⟩
            rcases List.mem_append.mp member with old | new
            · exact covered.decided decision old
            · rw [List.mem_singleton.mp new]
              exact covered.decide read decided
      | idle | lowest => simp [coverageEnabled, read] at enabled

/-- The state in which a call and the snapshot loop start. -/
def Coverage.start (workers : Nat) (startBlock : Int) (known : Option Int)
    (committedHashes : HeightMap String) (db : DB) (lastSnapshotBlock : Int) : Coverage where
  processor := Processor.call workers startBlock known committedHashes db
  lastSnapshotBlock := lastSnapshotBlock

/-- Started on a store without gaps, every decided range is stored as a whole at the moment
of the decision, as long as blocks land next to the stored ones and a rollback takes the
top off, between cycles. -/
theorem decided_ranges_stored (cfg : SnapshotConfig) {workers : Nat} {startBlock : Int}
    {known : Option Int} {committedHashes : HeightMap String} {db : DB} {lastSnapshotBlock : Int}
    (gapless : Gapless db) {state : Coverage}
    (reached : ((coverage cfg).restrict InOrder).Path
      (Coverage.start workers startBlock known committedHashes db lastSnapshotBlock) state) :
    ∀ decision ∈ state.decided, ∀ height, decision.startBlock ≤ height →
      height ≤ decision.endBlock → blocksAt decision.db height ≠ [] := by
  have covered : Covered state := by
    refine reached.invariant ?_ fun _ _ covered enabled => covered.step enabled
    exact ⟨gapless, gapless, trivial, by simp [Coverage.start]⟩
  exact fun decision member => covered.decided decision member

/-! Two runs from a store that holds block 4 only, with files of two blocks. -/

theorem singleBlock_gapless : Gapless singleBlock := by
  have only : ∀ {height}, height ∈ storedHeights singleBlock → height = 4 := by
    intro height stored
    obtain ⟨doc, member⟩ := mem_storedHeights.mp stored
    by_contra other
    have none : blocksAt singleBlock height = [] :=
      (by decide : BlocksListed singleBlock [4]).blocksAt_eq_nil (by simpa using other)
    rw [none] at member
    cases member
  refine ⟨singleBlock_clear.single, fun low lowStored high highStored height above below => ?_⟩
  have lowIs := only lowStored
  have highIs := only highStored
  have same : height = low := by omega
  rw [same]
  exact lowStored

def cycleMoves : List CoverageMove := [.readLowest false, .readHighest false, .decide true]

/-- The moves of a run inside the call, and a cycle after them. -/
def cycleAfter (moves : List Move) : List CoverageMove :=
  .process (.seed false) :: moves.map (fun move => .process (.step move)) ++ cycleMoves

/-- Block 6 lands while the store of block 5 is still with the pool. -/
def outOfOrderMoves : List Move :=
  fetchMoves 5 (.ok (bareBlock 5 "0xa5" "0xa4")) ++
    handMoves (served 5 (bareBlock 5 "0xa5" "0xa4")) ++
    fetchMoves 6 (.ok (bareBlock 6 "0xa6" "0xa5")) ++
    handMoves (served 6 (bareBlock 6 "0xa6" "0xa5")) ++
    [.pool (.take (served 5 (bareBlock 5 "0xa5" "0xa4")))] ++
    storeMoves (served 6 (bareBlock 6 "0xa6" "0xa5")) ⟨.block, blockFields 6 "0xa6" "0xa5"⟩

/-- The cycle sees blocks 4 and 6 and decides on the range from 4 to 5, without block 5. -/
theorem decided_range_lacks_block :
    ∃ state, (coverage pairFiles).Path (Coverage.start 2 5 none ∅ singleBlock 0) state ∧
      ∃ decision ∈ state.decided, decision.startBlock = 4 ∧ decision.endBlock = 5 ∧
        blocksAt decision.db 5 = [] := by
  have executed : ((coverage pairFiles).run? (cycleAfter outOfOrderMoves)
      (Coverage.start 2 5 none ∅ singleBlock 0)).any (fun state =>
        state.decided.any fun decision => decision.startBlock = 4 ∧ decision.endBlock = 5 ∧
          blocksAt decision.db 5 = []) = true := by
    decide +kernel
  obtain ⟨state, reached, facts⟩ := GuardedSystem.exists_path_of_run? executed
  exact ⟨state, reached, by simpa using facts⟩

/-- With block 5 stored first, the same range is complete. -/
theorem decided_range_has_block :
    ∃ state decision, ((coverage pairFiles).restrict InOrder).Path
        (Coverage.start 2 5 none ∅ singleBlock 0) state ∧
      decision ∈ state.decided ∧ decision.startBlock = 4 ∧ decision.endBlock = 5 ∧
        blocksAt decision.db 5 ≠ [] := by
  have executed : (((coverage pairFiles).restrict InOrder).run?
      (cycleAfter (indexMoves 5 "0xa5" "0xa4" ++ indexMoves 6 "0xa6" "0xa5"))
      (Coverage.start 2 5 none ∅ singleBlock 0)).any (fun state =>
        state.decided.any fun decision => decision.startBlock = 4 ∧ decision.endBlock = 5) = true := by
    decide +kernel
  obtain ⟨state, reached, facts⟩ := GuardedSystem.exists_path_of_run? executed
  obtain ⟨decision, member, first, last⟩ : ∃ decision ∈ state.decided,
      decision.startBlock = 4 ∧ decision.endBlock = 5 := by simpa using facts
  exact ⟨state, decision, reached, member, first, last,
    decided_ranges_stored pairFiles singleBlock_gapless reached decision member 5 (by omega)
      (by omega)⟩

end ShinzoGenerator.Snapshot
