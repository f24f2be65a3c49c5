import ShinzoGenerator.Defra.ReorgRollerProperties
import ShinzoGenerator.Indexer.ProcessBlocks

/-! The visible block documents of a call. A run that starts above everything
stored only adds the blocks of its own items, one a height, and the rollback it
ends with clears every height above the fork point before the next run starts. -/

set_option autoImplicit false

namespace ShinzoGenerator.Indexer

open Chains Defra

variable {allowed : CollectMove → Prop} {run next : Run}

/-- A fetched item carries the block document of its own height, with a usable hash. -/
def Numbered (item : BlockResult) : Prop :=
  item.success = true → ∃ doc, item.converted.blockDoc? = some doc ∧ doc.collection = .block ∧
    doc.height? = some item.blockNum ∧ doc.hash = item.hash ∧ item.hash ≠ ""

instance (item : BlockResult) : Decidable (Numbered item) :=
  inferInstanceAs (Decidable (_ → ∃ doc ∈ item.converted.blockDoc?, _))

/-- A node that answers a fetch with a block of the requested height; which fork
it serves, and what it says about headers, is up to it. -/
def NumberedNode (_ : Run) : Move → Prop
  | .dispatch (.fetched height reply) => Numbered (fetchAndConvertBlock height reply)
  | .collect (.refetched item reply) => Numbered (fetchAndConvertBlock item.blockNum reply)
  | _ => True

instance (run : Run) (move : Move) : Decidable (NumberedNode run move) := by
  unfold NumberedNode
  split <;> infer_instance

theorem numberedNode_answers : Answers Numbered NumberedNode :=
  ⟨fun _ _ _ permitted => permitted, fun _ _ _ permitted => permitted⟩

/-! ### One run -/

/-- The completions of the run's stores, read or not. -/
def Run.completions (run : Run) : List StoreCompletion :=
  run.pool.reporting ++ run.pool.completionChan ++ run.trace.received

/-- At most one block document a height, all with usable hashes, and none from the height on. -/
structure ClearFrom (start : Int) (db : DB) : Prop where
  single : SingleBlocks db
  hashed : ∀ height, ∀ doc ∈ blocksAt db height, doc.hash ≠ ""
  clear : ∀ height, start ≤ height → blocksAt db height = []

theorem clearFrom_of_listed {db : DB} {heights : List Int} (listed : BlocksListed db heights)
    {start : Int} (below : ∀ height ∈ heights, height < start)
    (single : ∀ height ∈ heights, (blocksAt db height).length ≤ 1)
    (hashed : ∀ height ∈ heights, ∀ doc ∈ blocksAt db height, doc.hash ≠ "") :
    ClearFrom start db := by
  refine ⟨listed.single single, fun height doc present => ?_, fun height above => ?_⟩
  · by_cases member : height ∈ heights
    · exact hashed height member doc present
    · simp [listed.blocksAt_eq_nil member] at present
  · refine listed.blocksAt_eq_nil fun member => ?_
    have := below height member
    omega

/-- From its start height on, the run's store only holds blocks of items that were
handed over, so no store failure is verified as stale. -/
structure OwnBlocks (run : Run) : Prop where
  single : SingleBlocks run.db
  hashed : ∀ height, ∀ doc ∈ blocksAt run.db height, doc.hash ≠ ""
  own : ∀ height, run.setup.runStartBlock ≤ height → ∀ doc ∈ blocksAt run.db height,
    ∃ item ∈ run.trace.handed, item.blockNum = height ∧ item.converted.blockDoc? = some doc
  verified : ∀ completion ∈ run.completions, completion.stale = none

theorem ownBlocks_start {setup : Setup} {db : DB} (clear : ClearFrom setup.runStartBlock db)
    (episodeRollbacks : Nat) (heightRollbacks : HeightMap Nat) :
    OwnBlocks (Run.start setup episodeRollbacks heightRollbacks db) := by
  refine ⟨clear.single, clear.hashed, ?_, by simp [Run.start, Run.completions]⟩
  intro height above doc present
  rw [Run.start, clear.clear height above] at present
  cases present

/-- The document that a handed item stores. -/
theorem handed_blockDoc (known : Known run) (items : ItemsSatisfy Numbered run)
    {item : BlockResult} (handed : item ∈ run.trace.handed) :
    ∃ doc, item.converted.blockDoc? = some doc ∧ doc.collection = .block ∧
      doc.height? = some item.blockNum ∧ doc.hash = item.hash ∧ item.hash ≠ "" :=
  have inLine : item ∈ run.line := List.mem_append_left _ handed
  items.line item inLine (known.handoff.fetched item inLine)

/-- The store can only hold the item's own block at its height. -/
theorem OwnBlocks.row_of_handed (blocks : OwnBlocks run) (known : Known run)
    {item : BlockResult} (handed : item ∈ run.trace.handed) {doc : Doc}
    (present : doc ∈ blocksAt run.db item.blockNum) : item.converted.blockDoc? = some doc := by
  have above := (known.handoff.bounds item (List.mem_append_left _ handed)).1
  obtain ⟨other, otherHanded, same, stores⟩ := blocks.own item.blockNum above doc present
  rw [known.handoff.unique otherHanded handed same] at stores
  exact stores

theorem OwnBlocks.commit (blocks : OwnBlocks run) (known : Known run)
    (items : ItemsSatisfy Numbered run) {item : BlockResult} {doc : Doc} {db : DB}
    (handed : item ∈ run.trace.handed) (stores : item.converted.blockDoc? = some doc)
    (added : run.db.add doc = .ok db) : OwnBlocks { run with db } := by
  obtain ⟨block, same, isBlock, located, hash, usable⟩ := handed_blockDoc known items handed
  rw [stores, Option.some.injEq] at same
  subst same
  have rows : ∀ {height other}, other ∈ blocksAt db height ↔ other ∈ blocksAt run.db height ∨
      other = doc ∧ height = item.blockNum :=
    mem_blocksAt_add (SoftStore.add_ok_visible added) isBlock located
  -- the document was not visible before, so the height had no row
  have unseen : ∀ other, other ∉ blocksAt run.db item.blockNum := by
    intro other present
    have twin := blocks.row_of_handed known handed present
    rw [stores, Option.some.injEq] at twin
    exact (SoftStore.add_ok_fresh added).1 (twin ▸ (mem_blocksAt.mp present).1)
  refine ⟨SingleBlocks.of_unique ?_, ?_, ?_, blocks.verified⟩
  · intro height left leftAt right rightAt
    rcases rows.mp leftAt with leftOld | ⟨rfl, rfl⟩
    · rcases rows.mp rightAt with rightOld | ⟨rfl, rfl⟩
      · exact blocks.single.unique leftOld rightOld
      · exact absurd leftOld (unseen left)
    · rcases rows.mp rightAt with rightOld | ⟨rfl, _⟩
      · exact absurd rightOld (unseen right)
      · rfl
  · intro height other present
    rcases rows.mp present with old | ⟨rfl, _⟩
    · exact blocks.hashed height other old
    · rw [hash]
      exact usable
  · intro height above other present
    rcases rows.mp present with old | ⟨rfl, rfl⟩
    · exact blocks.own height above other old
    · exact ⟨item, handed, rfl, stores⟩

theorem OwnBlocks.others (blocks : OwnBlocks run) {docs : List Doc} {db : DB}
    (children : ∀ doc ∈ docs, doc.collection ≠ .block) (added : run.db.addAll docs = .ok db) :
    OwnBlocks { run with db } := by
  have same := blocksAt_others children (SoftStore.addAll_ok_visible added)
  refine ⟨fun height => ?_, fun height => ?_, fun height => ?_, blocks.verified⟩
  · rw [same]
    exact blocks.single height
  · rw [same]
    exact blocks.hashed height
  · rw [same]
    exact blocks.own height

/-- What stands at a handed item's height is the item's own block, so a failed
store of the item is not stale. -/
theorem OwnBlocks.not_stale (blocks : OwnBlocks run) (known : Known run)
    (items : ItemsSatisfy Numbered run) {item : BlockResult} (handed : item ∈ run.trace.handed)
    (computed : Except StoreFailure String) (queryFails : Bool) :
    (runStoreTask run.db item computed queryFails).stale = none := by
  have unverified : detectStaleOrphan (queryStoredHash queryFails run.db item.blockNum) item =
      none := by
    by_contra verified
    obtain ⟨signal, found⟩ := Option.ne_none_iff_exists'.mp verified
    obtain ⟨_, stored, answered, present, differs⟩ := detectStaleOrphan_some found
    obtain ⟨row, rows, hash⟩ := getStoredBlockHash_stored (queryStoredHash_ok answered) present
    have held : row ∈ blocksAt run.db item.blockNum := rows ▸ List.mem_singleton.mpr rfl
    obtain ⟨doc, stores, _, _, same, _⟩ := handed_blockDoc known items handed
    rw [blocks.row_of_handed known handed held, Option.some.injEq] at stores
    exact differs (hash.symm.trans (stores ▸ same))
  unfold runStoreTask
  split <;> first | rfl | exact unverified

/-- A pool move keeps the completions, and the end of a store adds one. -/
theorem pool_completions {move : PoolMove}
    (enabled : poolEnabled run.setup.workers run.ledger.ctxDone run.pool run.db move)
    (completion : StoreCompletion) :
    completion ∈ Run.completions
        { run with
          pool := (poolEffect run.pool run.db move).1
          db := (poolEffect run.pool run.db move).2 } ↔
      completion ∈ run.completions ∨ ∃ item computed queryFails,
        move = .finishStore item computed queryFails ∧
          completion = runStoreTask run.db item computed queryFails := by
  cases move with
  | take | commitBlock | commitOthers | release => simp [Run.completions, poolEffect]
  | finishStore item computed queryFails =>
      have added : (∃ other result fails, PoolMove.finishStore item computed queryFails =
          .finishStore other result fails ∧ completion = runStoreTask run.db other result fails) ↔
          completion = runStoreTask run.db item computed queryFails := by
        constructor
        · rintro ⟨_, _, _, ⟨⟩, same⟩
          exact same
        · exact fun same => ⟨_, _, _, rfl, same⟩
      rw [added]
      simp only [Run.completions, poolEffect, List.mem_append, List.mem_singleton]
      tauto
  | report reported =>
      simp only [Run.completions, poolEffect, List.mem_append, List.mem_singleton, reduceCtorEq,
        false_and, exists_false, or_false]
      by_cases same : completion = reported
      · have waiting : completion ∈ run.pool.reporting := same ▸ enabled.1
        tauto
      · rw [List.mem_erase_of_ne same]
        tauto

theorem OwnBlocks.pool (blocks : OwnBlocks run) (known : Known run)
    (items : ItemsSatisfy Numbered run) {move : PoolMove}
    (enabled : poolEnabled run.setup.workers run.ledger.ctxDone run.pool run.db move) :
    OwnBlocks
      { run with
        pool := (poolEffect run.pool run.db move).1
        db := (poolEffect run.pool run.db move).2 } := by
  have storing : ∀ {item}, item ∈ run.pool.storing → item ∈ run.trace.handed :=
    known.conserved.handed_of_storing
  have verified : ∀ completion ∈ Run.completions
      { run with
        pool := (poolEffect run.pool run.db move).1
        db := (poolEffect run.pool run.db move).2 }, completion.stale = none := by
    intro completion member
    rcases (pool_completions enabled completion).mp member with old | ⟨item, computed, fails, rfl, rfl⟩
    · exact blocks.verified completion old
    · exact blocks.not_stale known items (storing enabled.1) computed fails
  cases move with
  | take | finishStore | report | release =>
      exact ⟨blocks.single, blocks.hashed, blocks.own, verified⟩
  | commitBlock item doc =>
      obtain ⟨db, added, effect⟩ := poolEffect_commitBlock enabled
      obtain ⟨member, stores, _⟩ := enabled
      simp only [effect]
      exact blocks.commit known items (storing member) stores added
  | commitOthers item docs =>
      obtain ⟨db, added, effect⟩ := poolEffect_commitOthers enabled
      simp only [effect]
      exact blocks.others enabled.2.1 added

/-- The collector only hands over and receives. -/
theorem OwnBlocks.keep (blocks : OwnBlocks run) (setup : next.setup = run.setup)
    (db : next.db = run.db) (handed : run.trace.handed ⊆ next.trace.handed)
    (completions : next.completions ⊆ run.completions) : OwnBlocks next := by
  refine ⟨db ▸ blocks.single, db ▸ blocks.hashed, ?_, ?_⟩
  · intro height above doc present
    rw [setup] at above
    rw [db] at present
    obtain ⟨item, member, facts⟩ := blocks.own height above doc present
    exact ⟨item, handed member, facts⟩
  · exact fun completion member => blocks.verified completion (completions member)

/-- The collector moves completions from the channel to the received ones. -/
theorem CollectStep.completions (step : CollectStep allowed run next) :
    ∀ completion, completion ∈ next.completions ↔ completion ∈ run.completions := by
  have received : ∀ {completion}, run.pool.completionChan.head? = some completion →
      ∀ other, other ∈ (run.receive completion).completions ↔ other ∈ run.completions := by
    intro completion arrived other
    obtain ⟨tail, queue⟩ := List.head?_eq_some_iff.mp arrived
    simp only [Run.completions, Run.receive, queue, List.tail_cons, List.mem_append,
      List.mem_cons, List.not_mem_nil, or_false]
    tauto
  cases step with
  | receives _ _ _ arrived | receivesOpening _ _ _ _ arrived | drainReceives _ _ _ _ _ arrived =>
      exact received arrived
  | _ => exact fun _ => .rfl

theorem CollectStep.handed_subset (step : CollectStep allowed run next) :
    run.trace.handed ⊆ next.trace.handed := by
  cases step with
  | sends => exact List.subset_append_left _ _
  | _ => exact List.Subset.refl _

theorem OwnBlocks.collect (blocks : OwnBlocks run) (step : CollectStep allowed run next) :
    OwnBlocks next :=
  blocks.keep step.setup step.db_eq step.handed_subset fun completion =>
    (step.completions completion).mp

theorem OwnBlocks.step (run : Run) (move : Move) (known : Known run ∧ ItemsSatisfy Numbered run)
    (blocks : OwnBlocks run) (enabled : (restricted NumberedNode).enabled run move) :
    OwnBlocks ((restricted NumberedNode).effect run move) := by
  cases move with
  | pool move => exact blocks.pool known.1 known.2 enabled.1
  | collect move => exact blocks.collect (restricted_collect enabled)
  | cancel | dispatch | closeCompletions | finish =>
      exact ⟨blocks.single, blocks.hashed, blocks.own, blocks.verified⟩

/-- A run that starts on a store that is clear from its start height on. -/
theorem RunUnder.ownBlocks {setup : Setup} {db : DB}
    (reached : RunUnder NumberedNode setup db run) (clear : ClearFrom setup.runStartBlock db) :
    OwnBlocks run :=
  reached.invariant_under
    (fun _ reached => ⟨reached.known, reached.items numberedNode_answers⟩)
    (ownBlocks_start clear) OwnBlocks.step

/-! ### Rollback and restart -/

theorem singleBlocks_of_rollback {db : DB} (single : SingleBlocks db) (low high : Int)
    (chainHashes : HeightMap String) (budget : Nat) :
    SingleBlocks (leftBy (rollbackBlocks low high chainHashes budget db)) := by
  obtain ⟨removed, left⟩ := rollbackBlocks_left single low high chainHashes budget
  exact single.of_removed left.visible

/-- A visible block above the fork point is below the anchor of the walk-back,
which found that it disagrees with the chain. -/
theorem OwnBlocks.orphan_above (blocks : OwnBlocks run) {point : RollbackPoint}
    {episode : ReorgEpisode} (resolution : Resolution (fun _ _ => True) run point episode)
    {height : Int} (above : point.forkPoint < height) {doc : Doc}
    (present : doc ∈ blocksAt run.db height) :
    height ≤ run.dispatcher.dispatchedUpTo ∧ Orphan run.db point.chainHashes height := by
  have popTime : episode.stalePinned = false := by
    by_contra pinned
    obtain ⟨completion, received, stale⟩ := resolution.pinned (by simpa using pinned)
    simp [blocks.verified completion (by simp [Run.completions, received])] at stale
  have walkable : height ≤ episode.anchor.1 := by
    by_cases started : run.setup.runStartBlock ≤ height
    · obtain ⟨item, handed, same, _⟩ := blocks.own height started doc present
      rw [← same]
      exact resolution.below popTime item handed
    · have := resolution.started popTime
      omega
  obtain ⟨top, topHash, segment, covers, dispatched⟩ := resolution.segment
  obtain ⟨stored, answered, differs, _⟩ := resolution.walked height above walkable
  have listed : height ∈ point.chainHashes := (segment.keys height).mpr (by omega)
  obtain ⟨hash, found⟩ := Option.isSome_iff_exists.mp (AList.lookup_isSome.mpr listed)
  have usable := segment.usable height hash found
  have row := blocks.single.eq_singleton present
  have storedHash : stored = doc.hash := by
    rw [getStoredBlockHash, row, Except.ok.injEq] at answered
    exact answered.symm
  refine ⟨by omega, hash, stored, found, usable, answered, ?_, ?_⟩
  · rw [storedHash]
    exact blocks.hashed height doc present
  · rintro rfl
    exact differs found

theorem OwnBlocks.clear_of_rollback (blocks : OwnBlocks run) {point : RollbackPoint}
    {episode : ReorgEpisode} (resolution : Resolution (fun _ _ => True) run point episode)
    (tip : point.oldTip = run.dispatcher.dispatchedUpTo) {budget rest : Nat} {db : DB}
    (rolled : rollbackBlocks (point.forkPoint + 1) point.oldTip point.chainHashes budget run.db =
      .ok (rest, db)) : ClearFrom (point.forkPoint + 1) db := by
  have survives := rollbackBlocks_success blocks.single rolled
  have rows : ∀ {height doc}, doc ∈ blocksAt db height →
      doc ∈ blocksAt run.db height ∧
        ¬ Condemned run.db point.chainHashes (descending (point.forkPoint + 1) point.oldTip) doc := by
    intro height doc present
    obtain ⟨visible, isBlock⟩ := mem_blocksAt.mp present
    obtain ⟨before, spared⟩ := (survives doc).mp visible
    exact ⟨mem_blocksAt.mpr ⟨before, isBlock⟩, spared⟩
  refine ⟨?_, ?_, ?_⟩
  · have left := singleBlocks_of_rollback blocks.single (point.forkPoint + 1) point.oldTip
      point.chainHashes budget
    rwa [rolled] at left
  · exact fun height doc present => blocks.hashed height doc (rows present).1
  · intro height above
    refine List.eq_nil_iff_forall_not_mem.mpr fun doc present => ?_
    obtain ⟨before, spared⟩ := rows present
    obtain ⟨below, orphan⟩ := blocks.orphan_above resolution (by omega) before
    obtain ⟨_, isBlock, located⟩ := mem_blocksAt.mp before
    refine spared ⟨by simp [isBlock, blockScoped], height, ?_, located, orphan⟩
    exact mem_descending.mpr ⟨above, tip ▸ below⟩

/-- The run of a call started on a clear store. -/
def StartedClear (run : Run) : Prop :=
  ∃ setup db, RunUnder NumberedNode setup db run ∧ ClearFrom setup.runStartBlock db

/-- Each run of the call starts on a store that is clear from its start height on. -/
def StageClear (processor : Processor) : Prop :=
  match processor.stage with
  | .seeding startBlock _ _ db => ClearFrom startBlock db
  | .running run => StartedClear run
  | .rollingBack run point => StartedClear run ∧ run.dispatcher.phase = .ended ∧
      run.ledger.rollbackPoint = some point
  | .stopped _ db => SingleBlocks db

theorem StartedClear.ownBlocks (started : StartedClear run) : OwnBlocks run := by
  obtain ⟨setup, db, reached, clear⟩ := started
  exact reached.ownBlocks clear

theorem StageClear.step {processor next : Processor} (clear : StageClear processor)
    (step : ProcessStep (fun _ => NumberedNode) processor next) : StageClear next := by
  unfold StageClear at clear
  cases step with
  | seedFails startBlock committedHashes guards db error located =>
      simp only [located] at clear
      exact clear.single
  | starts startBlock committedHashes guards db queryFails seedHash located =>
      simp only [located] at clear
      exact ⟨_, db, ⟨_, _, .refl⟩, clear⟩
  | steps run move located able =>
      simp only [located] at clear
      obtain ⟨setup, db, reached, initial⟩ := clear
      exact ⟨setup, db, reached.step able, initial⟩
  | stops run error located =>
      simp only [located] at clear
      exact clear.ownBlocks.single
  | rollsBack run point located ended recorded =>
      simp only [located] at clear
      exact ⟨clear, ended, recorded⟩
  | rollbackStops run point budget error located =>
      simp only [located] at clear
      exact singleBlocks_of_rollback clear.1.ownBlocks.single _ _ _ _
  | restarts run point budget rest db located rolled =>
      simp only [located] at clear
      obtain ⟨started, ended, recorded⟩ := clear
      obtain ⟨setup, _, reached, _⟩ := id started
      have resolved : Resolved (fun _ _ => True) run :=
        reached.resolved (anyAnswers _) fun _ _ _ _ _ _ _ _ _ => trivial
      obtain ⟨episode, _, resolution⟩ := resolved point recorded
      exact started.ownBlocks.clear_of_rollback resolution (reached.tipped ended point recorded)
        rolled

/-- Started on a store that is clear from the start height on, the processor keeps
at most one visible block document at every height: whatever the node serves,
however the stores end, and through every rollback and restart. -/
theorem single_blocks_always {workers : Nat} {startBlock : Int} {known : Option Int}
    {committedHashes : HeightMap String} {db : DB} (clear : ClearFrom startBlock db)
    {processor : Processor}
    (reached : CallUnder (fun _ => NumberedNode)
      (Processor.call workers startBlock known committedHashes db) processor) :
    SingleBlocks processor.stage.db := by
  have clear : StageClear processor :=
    reached.invariant clear fun _ _ clear enabled => clear.step (process_step enabled)
  unfold StageClear at clear
  unfold Stage.db
  cases located : processor.stage with
  | seeding =>
      simp only [located] at clear
      exact clear.single
  | running =>
      simp only [located] at clear
      exact clear.ownBlocks.single
  | rollingBack =>
      simp only [located] at clear
      exact clear.1.ownBlocks.single
  | stopped =>
      simp only [located] at clear
      exact clear

theorem forkedStore_listed : BlocksListed forkedStore [3, 4] := by
  decide

theorem forkedStore_clear : ClearFrom 5 forkedStore :=
  clearFrom_of_listed forkedStore_listed (by decide) (by decide) (by decide)

/-- The call rolls the orphan at height 4 back and indexes the new block 4. -/
def reindexCall : List ProcessMove :=
  forkCall ++ [.rollback 1 false, .seed false] ++ (indexMoves 4 "0xa4" "0xa3").map .step

theorem single_blocks_after_reindex :
    ∃ processor, CallUnder (fun _ => NumberedNode) (Processor.call 2 5 none ∅ forkedStore)
        processor ∧
      blocksAt processor.stage.db 4 = [⟨.block, blockFields 4 "0xa4" "0xa3"⟩] ∧
      SingleBlocks processor.stage.db := by
  obtain ⟨processor, reached, facts⟩ := call_of_execution (fun _ => NumberedNode)
    (Processor.call 2 5 none ∅ forkedStore) reindexCall
    (fun processor => blocksAt processor.stage.db 4 =
      [⟨.block, blockFields 4 "0xa4" "0xa3"⟩]) (by decide +kernel)
  exact ⟨processor, reached, by simpa using facts, single_blocks_always forkedStore_clear reached⟩

end ShinzoGenerator.Indexer
