import ShinzoGenerator.Indexer.VisibleBlocks

/-! Where the block documents come from. Through all runs of a call, its rollbacks and its
restarts, a block document is held only if it was held at the start of the call or belongs
to a block that was fetched in it. -/

set_option autoImplicit false

namespace ShinzoGenerator.Indexer

open Chains Defra

variable {old db : DB} {origin : Doc → Prop}

/-- Every block document is held from before or of the origin. -/
def BlocksFrom (old : DB) (origin : Doc → Prop) (db : DB) : Prop :=
  ∀ doc, db.Holds doc → doc.collection = .block → old.Holds doc ∨ origin doc

/-- The block document of a fetched item is of the origin. -/
def FetchedFrom (origin : Doc → Prop) (item : BlockResult) : Prop :=
  item.success = true → ∀ doc, item.converted.blockDoc? = some doc → origin doc

theorem BlocksFrom.refl (db : DB) (origin : Doc → Prop) : BlocksFrom db origin db :=
  fun _ held _ => .inl held

theorem BlocksFrom.addAll (blocks : BlocksFrom old origin db) {docs : List Doc} {next : DB}
    (added : db.addAll docs = .ok next)
    (known : ∀ doc ∈ docs, doc.collection = .block → origin doc) :
    BlocksFrom old origin next := by
  intro doc held isBlock
  rcases SoftStore.holds_addAll added held with before | new
  · exact blocks doc before isBlock
  · exact .inr (known doc new isBlock)

theorem BlocksFrom.rollback (blocks : BlocksFrom old origin db) (low high : Int)
    (chainHashes : HeightMap String) (budget : Nat) :
    BlocksFrom old origin (leftBy (rollbackBlocks low high chainHashes budget db)) :=
  fun doc held isBlock =>
    blocks doc ((rollbackBlocks_holds low high chainHashes budget db doc).mp held) isBlock

/-! ### One run -/

section Run

variable {allowed : Run → Move → Prop} {run : Run}

theorem BlocksFrom.pool (blocks : BlocksFrom old origin run.db) (known : Known run)
    (items : ItemsSatisfy (FetchedFrom origin) run) {move : PoolMove}
    (enabled : poolEnabled run.setup.workers run.ledger.ctxDone run.pool run.db move) :
    BlocksFrom old origin (poolEffect run.pool run.db move).2 := by
  cases move with
  | take | finishStore | report | release => exact blocks
  | commitBlock item doc =>
      obtain ⟨next, added, effect⟩ := poolEffect_commitBlock enabled
      obtain ⟨storing, stores, _⟩ := enabled
      have inLine : item ∈ run.line :=
        List.mem_append_left _ (known.conserved.handed_of_storing storing)
      have fetched := items.line item inLine (known.handoff.fetched item inLine) doc stores
      have whole : run.db.addAll [doc] = .ok next := by
        rw [SoftStore.addAll, added]
        rfl
      rw [effect]
      exact blocks.addAll whole fun other listed _ => List.mem_singleton.mp listed ▸ fetched
  | commitOthers item docs =>
      obtain ⟨next, added, effect⟩ := poolEffect_commitOthers enabled
      rw [effect]
      exact blocks.addAll added fun doc listed isBlock => absurd isBlock (enabled.2.1 doc listed)

theorem BlocksFrom.step (run : Run) (move : Move)
    (known : Known run ∧ ItemsSatisfy (FetchedFrom origin) run)
    (blocks : BlocksFrom old origin run.db) (enabled : (restricted allowed).enabled run move) :
    BlocksFrom old origin ((restricted allowed).effect run move).db := by
  cases move with
  | pool move => exact blocks.pool known.1 known.2 enabled.1
  | collect move =>
      rw [(restricted_collect enabled).db_eq]
      exact blocks
  | cancel | dispatch | closeCompletions | finish => exact blocks

theorem RunUnder.blocksFrom {setup : Setup} (reached : RunUnder allowed setup db run)
    (answers : Answers (FetchedFrom origin) allowed) (blocks : BlocksFrom old origin db) :
    BlocksFrom old origin run.db :=
  reached.invariant_under
    (fun _ reached => ⟨reached.known, reached.items answers⟩)
    (fun _ _ => blocks) BlocksFrom.step

end Run

/-! ### The call -/

/-- The run goes on from a store whose blocks are accounted for. -/
def StartedFrom (old : DB) (origin : Doc → Prop) (allowed : Run → Move → Prop) (run : Run) : Prop :=
  ∃ setup db, RunUnder allowed setup db run ∧ BlocksFrom old origin db

def StageFrom (old : DB) (origin : Doc → Prop) (allowed : Run → Move → Prop)
    (processor : Processor) : Prop :=
  match processor.stage with
  | .seeding _ _ _ db | .stopped _ db => BlocksFrom old origin db
  | .running run | .rollingBack run _ => StartedFrom old origin allowed run

variable {allowed : Run → Move → Prop} {processor next : Processor}

theorem StartedFrom.blocks {run : Run} (started : StartedFrom old origin allowed run)
    (answers : Answers (FetchedFrom origin) allowed) : BlocksFrom old origin run.db := by
  obtain ⟨setup, db, reached, blocks⟩ := started
  exact reached.blocksFrom answers blocks

theorem StageFrom.step (answers : Answers (FetchedFrom origin) allowed)
    (stage : StageFrom old origin allowed processor)
    (step : ProcessStep (fun _ => allowed) processor next) : StageFrom old origin allowed next := by
  unfold StageFrom at stage
  cases step with
  | seedFails startBlock committedHashes guards db error located =>
      simp only [located] at stage
      exact stage
  | starts startBlock committedHashes guards db queryFails seedHash located =>
      simp only [located] at stage
      exact ⟨_, db, ⟨_, _, .refl⟩, stage⟩
  | steps run move located able =>
      simp only [located] at stage
      obtain ⟨setup, db, reached, blocks⟩ := stage
      exact ⟨setup, db, reached.step able, blocks⟩
  | stops run error located =>
      simp only [located] at stage
      exact stage.blocks answers
  | rollsBack run point located =>
      simp only [located] at stage
      exact stage
  | rollbackStops run point budget error located =>
      simp only [located] at stage
      exact (stage.blocks answers).rollback _ _ _ _
  | restarts run point budget rest db located rolled =>
      simp only [located] at stage
      have left := (stage.blocks answers).rollback (point.forkPoint + 1) point.oldTip
        point.chainHashes budget
      rwa [rolled] at left

theorem StageFrom.blocks (answers : Answers (FetchedFrom origin) allowed)
    (stage : StageFrom old origin allowed processor) :
    BlocksFrom old origin processor.stage.db := by
  unfold StageFrom at stage
  unfold Stage.db
  cases located : processor.stage with
  | seeding | stopped =>
      simp only [located] at stage
      exact stage
  | running | rollingBack =>
      simp only [located] at stage
      exact stage.blocks answers

/-- Every state of a call whose node answers with blocks of the origin. -/
theorem CallUnder.blocksFrom {workers : Nat} {startBlock : Int} {known : Option Int}
    {committedHashes : HeightMap String} (answers : Answers (FetchedFrom origin) allowed)
    (reached : CallUnder (fun _ => allowed)
      (Processor.call workers startBlock known committedHashes db) processor) :
    BlocksFrom db origin processor.stage.db := by
  have stage : StageFrom db origin allowed processor :=
    reached.invariant (BlocksFrom.refl db origin) fun _ _ stage enabled =>
      stage.step answers (process_step enabled)
  exact stage.blocks answers

/-! ### Calls under a stronger restriction -/

theorem during_mono {narrow wide : List Run → Run → Move → Prop}
    (weaker : ∀ history run move, narrow history run move → wide history run move)
    (processor : Processor) (move : ProcessMove) (permitted : During narrow processor move) :
    During wide processor move := by
  unfold During at permitted ⊢
  split at permitted
  · exact weaker _ _ _ permitted
  · trivial

theorem StageClear.single (clear : StageClear processor) : SingleBlocks processor.stage.db := by
  unfold StageClear at clear
  unfold Stage.db
  cases located : processor.stage with
  | seeding =>
      simp only [located] at clear
      exact clear.single
  | running =>
      simp only [located] at clear
      exact clear.ownBlocks.single
  | rollingBack =>
      simp only [located] at clear
      exact clear.1.ownBlocks.single
  | stopped =>
      simp only [located] at clear
      exact clear

theorem CallUnder.stageClear {workers : Nat} {startBlock : Int} {known : Option Int}
    {committedHashes : HeightMap String} (clear : ClearFrom startBlock db)
    (reached : CallUnder (fun _ => NumberedNode)
      (Processor.call workers startBlock known committedHashes db) processor) :
    StageClear processor :=
  reached.invariant clear fun _ _ clear enabled => clear.step (process_step enabled)

end ShinzoGenerator.Indexer
