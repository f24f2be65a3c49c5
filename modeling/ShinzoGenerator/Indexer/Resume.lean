import ShinzoGenerator.Indexer.StartHeight
import ShinzoGenerator.Indexer.VisibleBlocks

/-! Stopping and resuming. A stopped processor resumes right above the highest
visible block, so a checked block below it is skipped for good unless it is
stored. That cannot happen as long as block documents land in height order. -/

set_option autoImplicit false

namespace ShinzoGenerator.Indexer

open Chains Defra

variable {allowed : CollectMove → Prop} {run next : Run} {history : List Run}

/-! ### The condition -/

/-- The store failed, and not because the run was stopped. -/
def FailedOtherwise (completion : StoreCompletion) : Prop :=
  completion.succeeded = false ∧ storeCutOff completion.computed = false

instance (completion : StoreCompletion) : Decidable (FailedOtherwise completion) :=
  inferInstanceAs (Decidable (_ ∧ _))

/-- The height is visibly stored, or its store failed for another reason than the stop. -/
def SettledBy (runs : List Run) (db : DB) (height : Int) : Prop :=
  blocksAt db height ≠ [] ∨ ∃ run ∈ runs, ∃ completion ∈ run.completions,
    completion.item.blockNum = height ∧ FailedOtherwise completion

instance (runs : List Run) (db : DB) (height : Int) : Decidable (SettledBy runs db height) :=
  inferInstanceAs (Decidable (_ ∨ ∃ run ∈ runs, ∃ completion ∈ run.completions, _))

/-- A block document lands only when every lower checked height of the run is settled. -/
def LandsInOrder (run : Run) : Move → Prop
  | .pool (.commitBlock item _) => ∀ other ∈ run.trace.checked,
      other.blockNum < item.blockNum → SettledBy [run] run.db other.blockNum
  | _ => True

/-- No fetch fails at a height that passed the check before an internal restart. -/
def RefetchesChecked (history : List Run) : Move → Prop
  | .collect (.check next _) => next.success = false →
      ∀ old ∈ history, ∀ item ∈ old.trace.checked, item.blockNum ≠ next.blockNum
  | _ => True

instance (run : Run) (move : Move) : Decidable (LandsInOrder run move) := by
  unfold LandsInOrder
  split <;> infer_instance

instance (history : List Run) (move : Move) : Decidable (RefetchesChecked history move) := by
  unfold RefetchesChecked
  split <;> infer_instance

def Orderly (history : List Run) (run : Run) (move : Move) : Prop :=
  NumberedNode run move ∧ LandsInOrder run move ∧ RefetchesChecked history move

instance (history : List Run) (run : Run) (move : Move) : Decidable (Orderly history run move) :=
  inferInstanceAs (Decidable (_ ∧ _ ∧ _))

theorem SettledBy.mono {left right : List Run} {before after : DB} {height : Int}
    (settled : SettledBy left before height)
    (rows : blocksAt before height ≠ [] → blocksAt after height ≠ [])
    (runs : ∀ run ∈ left, ∃ later ∈ right, run.completions ⊆ later.completions) :
    SettledBy right after height := by
  rcases settled with stored | ⟨run, member, completion, found, failed⟩
  · exact .inl (rows stored)
  · obtain ⟨later, listed, kept⟩ := runs run member
    exact .inr ⟨later, listed, completion, kept found, failed⟩

theorem SettledBy.subset {left right : List Run} {db : DB} {height : Int}
    (settled : SettledBy left db height) (runs : left ⊆ right) : SettledBy right db height :=
  settled.mono id fun run member => ⟨run, runs member, List.Subset.refl _⟩

/-! ### One run -/

/-- Below a visible block every checked height of the run is settled. -/
structure Ordered (history : List Run) (run : Run) : Prop where
  line : run.line ⊆ run.trace.checked
  holes : ∀ height ∈ run.trace.holes, ∀ old ∈ history, ∀ item ∈ old.trace.checked,
    item.blockNum ≠ height
  settled : ∀ item ∈ run.trace.checked, ∀ height, blocksAt run.db height ≠ [] →
    item.blockNum ≤ height → SettledBy [run] run.db item.blockNum

theorem SettledBy.carry {height : Int} (settled : SettledBy [run] run.db height)
    (rows : blocksAt run.db height ≠ [] → blocksAt next.db height ≠ [])
    (completions : run.completions ⊆ next.completions) : SettledBy [next] next.db height := by
  refine settled.mono rows fun other member => ⟨next, .head _, ?_⟩
  rw [List.mem_singleton.mp member]
  exact completions

/-- A move that leaves the checked items, the holes and the block rows alone. -/
theorem Ordered.keep (ordered : Ordered history run) (line : next.line ⊆ run.line)
    (checked : next.trace.checked = run.trace.checked) (holes : next.trace.holes = run.trace.holes)
    (rows : ∀ height, blocksAt next.db height ≠ [] ↔ blocksAt run.db height ≠ [])
    (completions : run.completions ⊆ next.completions) : Ordered history next := by
  refine ⟨?_, holes ▸ ordered.holes, ?_⟩
  · rw [checked]
    exact List.Subset.trans line ordered.line
  · intro item member height present below
    rw [checked] at member
    exact (ordered.settled item member height ((rows height).mp present) below).carry
      (rows _).mpr completions

/-- A landed block document. -/
theorem Ordered.commit (ordered : Ordered history run) (known : Known run)
    (items : ItemsSatisfy Numbered run) {item : BlockResult} {doc : Doc} {db : DB}
    (handed : item ∈ run.trace.handed) (stores : item.converted.blockDoc? = some doc)
    (added : run.db.add doc = .ok db)
    (inOrder : ∀ other ∈ run.trace.checked, other.blockNum < item.blockNum →
      SettledBy [run] run.db other.blockNum) : Ordered history { run with db } := by
  obtain ⟨block, same, isBlock, located, _⟩ := handed_blockDoc known items handed
  rw [stores, Option.some.injEq] at same
  subst same
  have rows : ∀ {height other}, other ∈ blocksAt db height ↔ other ∈ blocksAt run.db height ∨
      other = doc ∧ other.collection = .block ∧ other.height? = some height := by
    intro height other
    rw [mem_blocksAt_append (SoftStore.add_ok_visible added), List.mem_singleton]
  have grow : ∀ {height}, blocksAt run.db height ≠ [] → blocksAt db height ≠ [] := by
    intro height present
    obtain ⟨other, member⟩ := List.exists_mem_of_ne_nil _ present
    exact List.ne_nil_of_mem (rows.mpr (.inl member))
  refine ⟨ordered.line, ordered.holes, ?_⟩
  intro other member height present below
  obtain ⟨row, rowAt⟩ := List.exists_mem_of_ne_nil _ present
  rcases rows.mp rowAt with old | ⟨rfl, _, at_height⟩
  · exact (ordered.settled other member height (List.ne_nil_of_mem old) below).carry grow
      (List.Subset.refl _)
  · rw [located, Option.some.injEq] at at_height
    by_cases same : other.blockNum = item.blockNum
    · refine .inl (List.ne_nil_of_mem (rows.mpr (.inr ⟨rfl, isBlock, ?_⟩)))
      rw [located, same]
    · exact (inOrder other member (by omega)).carry grow (List.Subset.refl _)

theorem Ordered.pool (ordered : Ordered history run) (known : Known run)
    (items : ItemsSatisfy Numbered run) {move : PoolMove}
    (enabled : poolEnabled run.setup.workers run.ledger.ctxDone run.pool run.db move)
    (inOrder : LandsInOrder run (.pool move)) :
    Ordered history
      { run with
        pool := (poolEffect run.pool run.db move).1
        db := (poolEffect run.pool run.db move).2 } := by
  have completions : run.completions ⊆ Run.completions
      { run with
        pool := (poolEffect run.pool run.db move).1
        db := (poolEffect run.pool run.db move).2 } :=
    fun completion member => (pool_completions enabled completion).mpr (.inl member)
  cases move with
  | take | finishStore | report | release =>
      exact ordered.keep (List.Subset.refl _) rfl rfl (fun _ => .rfl) completions
  | commitBlock item doc =>
      obtain ⟨db, added, effect⟩ := poolEffect_commitBlock enabled
      obtain ⟨member, stores, _⟩ := enabled
      have handed := known.conserved.handed_of_storing member
      simp only [effect]
      exact ordered.commit known items handed stores added inOrder
  | commitOthers item docs =>
      obtain ⟨db, added, effect⟩ := poolEffect_commitOthers enabled
      simp only [effect]
      refine ordered.keep (List.Subset.refl _) rfl rfl (fun height => ?_) (List.Subset.refl _)
      rw [blocksAt_others enabled.2.1 (SoftStore.addAll_ok_visible added)]

/-- The freshly checked item stands above every visible block. -/
theorem Ordered.pass (ordered : Ordered history run) (known : Known run) (blocks : OwnBlocks run)
    {popped : BlockResult} (located : run.pc = .check popped)
    (line : next.line = run.line ++ [popped])
    (checked : next.trace.checked = run.trace.checked ++ [popped])
    (holes : next.trace.holes = run.trace.holes) (db : next.db = run.db)
    (completions : run.completions ⊆ next.completions) : Ordered history next := by
  obtain ⟨_, _, _, numbered⟩ := known.control.posture.checking located
  obtain ⟨behind, started⟩ := known.handoff.behind popped located
  refine ⟨?_, holes ▸ ordered.holes, ?_⟩
  · rw [line, checked]
    exact List.append_subset.mpr ⟨List.Subset.trans ordered.line (List.subset_append_left _ _),
      List.subset_append_right _ _⟩
  · intro item member height present below
    rw [db] at present
    rw [checked] at member
    rcases List.mem_append.mp member with old | new
    · exact (ordered.settled item old height present below).carry (by rw [db]; exact id)
        completions
    · rw [List.mem_singleton] at new
      subst new
      obtain ⟨row, rowAt⟩ := List.exists_mem_of_ne_nil _ present
      obtain ⟨owner, handed, same, _⟩ := blocks.own height (by omega) row rowAt
      have bounds := known.handoff.bounds owner (List.mem_append_left _ handed)
      omega

theorem Ordered.collect {allowed : CollectMove → Prop} (ordered : Ordered history run)
    (known : Known run) (blocks : OwnBlocks run)
    (permitted : ∀ popped queryFails, allowed (.check popped queryFails) →
      RefetchesChecked history (.collect (.check popped queryFails)))
    (step : CollectStep allowed run next) : Ordered history next := by
  have dropped : (run.trace.handed ++ []) ⊆ run.line := by
    rw [List.append_nil]
    exact List.subset_append_left _ _
  have completions : run.completions ⊆ next.completions :=
    fun completion => (step.completions completion).mpr
  cases step with
  | hole popped located failed allowing =>
      obtain ⟨queryFails, allowing⟩ := allowing
      refine ⟨ordered.line, ?_, fun item member height present below =>
        (ordered.settled item member height present below).carry id completions⟩
      intro height member
      rcases List.mem_append.mp member with old | new
      · exact ordered.holes height old
      · rw [List.mem_singleton.mp new]
        exact permitted popped queryFails allowing failed
  | passes popped queryFails located =>
      obtain ⟨free, _⟩ := known.control.posture.checking located
      exact ordered.pass known blocks located (by simp [Run.line, free]) rfl rfl rfl completions
  | sends item located held =>
      exact ordered.keep (by simp [Run.line, held]) rfl rfl (fun _ => .rfl) completions
  | confirms | abandons | closesStore | receivesOpening | concludesOpening =>
      exact ordered.keep dropped rfl rfl (fun _ => .rfl) completions
  | _ => exact ordered.keep (List.Subset.refl _) rfl rfl (fun _ => .rfl) completions

theorem Ordered.step (run : Run) (move : Move)
    (known : Known run ∧ ItemsSatisfy Numbered run ∧ OwnBlocks run) (ordered : Ordered history run)
    (enabled : (restricted (Orderly history)).enabled run move) :
    Ordered history ((restricted (Orderly history)).effect run move) := by
  obtain ⟨known, items, blocks⟩ := known
  cases move with
  | pool move => exact ordered.pool known items enabled.1 enabled.2.2.1
  | collect move =>
      exact ordered.collect known blocks (fun _ _ permitted => permitted.2.2)
        (restricted_collect enabled)
  | cancel | dispatch | closeCompletions | finish =>
      exact ordered.keep (List.Subset.refl _) rfl rfl (fun _ => .rfl) (List.Subset.refl _)

theorem orderly_answers (history : List Run) : Answers Numbered (Orderly history) :=
  ⟨fun _ _ _ permitted => permitted.1, fun _ _ _ permitted => permitted.1⟩

theorem RunUnder.numbered {setup : Setup} {db : DB}
    (reached : RunUnder (Orderly history) setup db run) : RunUnder NumberedNode setup db run :=
  reached.mono fun _ _ permitted => permitted.1

theorem RunUnder.ordered {setup : Setup} {db : DB}
    (reached : RunUnder (Orderly history) setup db run) (clear : ClearFrom setup.runStartBlock db) :
    Ordered history run := by
  refine reached.invariant_under
    (fun _ reached => ⟨reached.known, reached.items (orderly_answers history),
      reached.numbered.ownBlocks clear⟩) (fun _ _ => ?_) Ordered.step
  refine ⟨by simp [Run.start, Run.line], by simp [Run.start], by simp [Run.start]⟩

/-! ### The runs of a call -/

/-- Below a visible block, every checked height from `start` on is settled. -/
def NothingSkipped (start : Int) (runs : List Run) (db : DB) : Prop :=
  ∀ run ∈ runs, ∀ item ∈ run.trace.checked, start ≤ item.blockNum →
    ∀ height, blocksAt db height ≠ [] → item.blockNum ≤ height →
      SettledBy runs db item.blockNum

/-- Every checked height from `start` to the bound is settled. -/
def SettledBelow (start bound : Int) (runs : List Run) (db : DB) : Prop :=
  ∀ run ∈ runs, ∀ item ∈ run.trace.checked, start ≤ item.blockNum → item.blockNum < bound →
    SettledBy runs db item.blockNum

/-- The run adds to what is settled below its start height. -/
theorem nothingSkipped_of_ordered {start : Int} {setup : Setup} {db : DB}
    (reached : RunUnder (Orderly history) setup db run) (clear : ClearFrom setup.runStartBlock db)
    (below : SettledBelow start setup.runStartBlock history run.db) :
    NothingSkipped start (history ++ [run]) run.db := by
  have ordered := reached.ordered clear
  have blocks := reached.numbered.ownBlocks clear
  have handoff := reached.known.handoff
  have same := reached.setup_eq
  have current : ∀ {height}, SettledBy [run] run.db height →
      SettledBy (history ++ [run]) run.db height :=
    fun settled => settled.subset (List.subset_append_right _ _)
  intro old member item checked above height present under
  rcases List.mem_append.mp member with earlier | this
  · by_cases started : setup.runStartBlock ≤ item.blockNum
    · -- this run has popped the height: it failed to fetch it or checked it again
      obtain ⟨row, rowAt⟩ := List.exists_mem_of_ne_nil _ present
      obtain ⟨owner, handed, number, _⟩ := blocks.own height (by rw [same]; omega) row rowAt
      rcases handoff.covered owner (List.mem_append_left _ handed) item.blockNum
        (by rw [same]; exact started) (by omega) with hole | ⟨again, inLine, again_eq⟩
      · exact absurd rfl (ordered.holes _ hole old earlier item checked)
      · rw [← again_eq]
        exact current (ordered.settled again (ordered.line inLine) height present (by omega))
    · exact (below old earlier item checked above (by omega)).subset (List.subset_append_left _ _)
  · rw [List.mem_singleton] at this
    subst this
    exact current (ordered.settled item checked height present under)

/-- A partial rollback deletes from the top, so what stays visible has nothing skipped below. -/
theorem NothingSkipped.interrupted {start : Int} {runs : List Run}
    (skipped : NothingSkipped start runs run.db) (blocks : OwnBlocks run) {point : RollbackPoint}
    {episode : ReorgEpisode} (resolution : Resolution (fun _ _ => True) run point episode)
    (tip : point.oldTip = run.dispatcher.dispatchedUpTo) (budget : Nat) :
    NothingSkipped start runs (leftBy (rollbackBlocks (point.forkPoint + 1) point.oldTip
      point.chainHashes budget run.db)) := by
  obtain ⟨removed, left⟩ := rollbackBlocks_left blocks.single (point.forkPoint + 1) point.oldTip
    point.chainHashes budget
  intro old member item checked above height present under
  obtain ⟨top, topAt⟩ := List.exists_mem_of_ne_nil _ present
  obtain ⟨topBefore, kept⟩ := (mem_blocksAt_removed left.visible).mp topAt
  rcases skipped old member item checked above height (List.ne_nil_of_mem topBefore) under with
    stored | failed
  · refine .inl ?_
    obtain ⟨row, rowAt⟩ := List.exists_mem_of_ne_nil _ stored
    by_cases higher : item.blockNum < height
    · refine List.ne_nil_of_mem ((mem_blocksAt_removed left.visible).mpr
        ⟨rowAt, fun gone => kept ?_⟩)
      obtain ⟨_, _, condemned, listed, located, _⟩ := left.condemned row gone
      have rowHeight := (mem_blocksAt.mp rowAt).2.2
      rw [rowHeight, Option.some.injEq] at located
      subst located
      have bottom := (mem_descending.mp listed).1
      obtain ⟨dispatched, orphan⟩ := blocks.orphan_above resolution (by omega) topBefore
      obtain ⟨visible, isBlock, topHeight⟩ := mem_blocksAt.mp topBefore
      exact descending_pairwise left.sequential bottom higher (tip ▸ dispatched)
        ⟨row, gone, rowHeight⟩ top visible (by simp [isBlock, blockScoped]) topHeight orphan
    · have same : item.blockNum = height := by omega
      rw [same]
      exact present
  · exact .inr failed

/-- The fork point is visible or below everything in question, so a restart above
it leaves nothing skipped. -/
theorem NothingSkipped.restart {start : Int} {runs : List Run}
    (skipped : NothingSkipped start runs run.db) (single : SingleBlocks run.db)
    {point : RollbackPoint} {episode : ReorgEpisode}
    (resolution : Resolution (fun _ _ => True) run point episode)
    (configured : run.setup.configuredStart ≤ start) {budget rest : Nat} {db : DB}
    (rolled : rollbackBlocks (point.forkPoint + 1) point.oldTip point.chainHashes budget run.db =
      .ok (rest, db)) : SettledBelow start (point.forkPoint + 1) runs db := by
  intro old member item checked above under
  have survive : blocksAt run.db item.blockNum ≠ [] → blocksAt db item.blockNum ≠ [] := by
    intro stored
    obtain ⟨row, rowAt⟩ := List.exists_mem_of_ne_nil _ stored
    obtain ⟨visible, isBlock, located⟩ := mem_blocksAt.mp rowAt
    refine List.ne_nil_of_mem (mem_blocksAt.mpr ⟨?_, isBlock, located⟩)
    refine (rollbackBlocks_success single rolled row).mpr ⟨visible, ?_⟩
    rintro ⟨_, height, listed, at_height, _⟩
    rw [located, Option.some.injEq] at at_height
    have := (mem_descending.mp listed).1
    omega
  rcases resolution.stops with ⟨hash, usable, answered⟩ | boundary
  · obtain ⟨row, rows, _⟩ := getStoredBlockHash_stored answered usable
    have settled := skipped old member item checked above point.forkPoint (by simp [rows])
      (by omega)
    exact settled.mono survive fun run listed => ⟨run, listed, List.Subset.refl _⟩
  · omega

/-- A run only adds documents. -/
theorem visible_grows {allowed : Run → Move → Prop} {move : Move}
    (enabled : (restricted allowed).enabled run move) :
    run.db.visible ⊆ (processBlocksOnce.effect run move).db.visible := by
  cases move with
  | collect move =>
      have same : (processBlocksOnce.effect run (.collect move)).db = run.db :=
        (restricted_collect enabled).db_eq
      rw [same]
      exact List.Subset.refl _
  | pool move =>
      change run.db.visible ⊆ (poolEffect run.pool run.db move).2.visible
      cases move with
      | commitBlock item doc =>
          cases added : run.db.add doc with
          | error => simp [poolEffect, added, Except.toOption]
          | ok db => simp [poolEffect, added, Except.toOption, SoftStore.add_ok_visible added]
      | commitOthers item docs =>
          cases added : run.db.addAll docs with
          | error => simp [poolEffect, added, Except.toOption]
          | ok db => simp [poolEffect, added, Except.toOption, SoftStore.addAll_ok_visible added]
      | take | finishStore | report | release => exact List.Subset.refl _
  | cancel | dispatch | closeCompletions | finish => exact List.Subset.refl _

theorem SettledBelow.grow {start bound : Int} {runs : List Run} {before after : DB}
    (below : SettledBelow start bound runs before) (visible : before.visible ⊆ after.visible) :
    SettledBelow start bound runs after := by
  intro run member item checked above under
  refine (below run member item checked above under).mono (fun stored => ?_)
    fun run listed => ⟨run, listed, List.Subset.refl _⟩
  obtain ⟨row, rowAt⟩ := List.exists_mem_of_ne_nil _ stored
  obtain ⟨seen, isBlock⟩ := mem_blocksAt.mp rowAt
  exact List.ne_nil_of_mem (mem_blocksAt.mpr ⟨visible seen, isBlock⟩)

/-- A run of the call on a store that was clear from its start height on. -/
def OrderedRun (history : List Run) (configuredStart : Int) (setup : Setup) (run : Run) : Prop :=
  ∃ db, RunUnder (Orderly history) setup db run ∧ ClearFrom setup.runStartBlock db ∧
    setup.configuredStart = configuredStart

def StageKept (start : Int) (processor : Processor) : Prop :=
  match processor.stage with
  | .seeding startBlock _ _ db =>
      ClearFrom startBlock db ∧ SettledBelow start startBlock processor.finished db
  | .running run => ∃ setup, OrderedRun processor.finished processor.configuredStart setup run ∧
      SettledBelow start setup.runStartBlock processor.finished run.db
  | .rollingBack run point =>
      (∃ history setup, OrderedRun history processor.configuredStart setup run) ∧
        run.dispatcher.phase = .ended ∧ run.ledger.rollbackPoint = some point ∧
        NothingSkipped start processor.finished run.db
  | .stopped _ db => NothingSkipped start processor.finished db

theorem nothingSkipped_of_clear {start bound : Int} {runs : List Run} {db : DB}
    (clear : ClearFrom bound db) (below : SettledBelow start bound runs db) :
    NothingSkipped start runs db := by
  intro run member item checked above height present under
  by_cases bounded : bound ≤ height
  · exact absurd (clear.clear height bounded) present
  · exact below run member item checked above (by omega)

theorem OrderedRun.nothingSkipped {start configuredStart : Int} {setup : Setup}
    (ordered : OrderedRun history configuredStart setup run)
    (below : SettledBelow start setup.runStartBlock history run.db) :
    NothingSkipped start (history ++ [run]) run.db := by
  obtain ⟨db, reached, clear, _⟩ := ordered
  exact nothingSkipped_of_ordered reached clear below

/-- What a finished run of the call says about its rollback point. -/
theorem OrderedRun.resolution {configuredStart : Int} {setup : Setup} {point : RollbackPoint}
    (ordered : OrderedRun history configuredStart setup run)
    (ended : run.dispatcher.phase = .ended) (recorded : run.ledger.rollbackPoint = some point) :
    OwnBlocks run ∧ point.oldTip = run.dispatcher.dispatchedUpTo ∧
      run.setup.configuredStart = configuredStart ∧
      ∃ episode, Resolution (fun _ _ => True) run point episode := by
  obtain ⟨db, reached, clear, configured⟩ := ordered
  have resolved : Resolved (fun _ _ => True) run :=
    reached.resolved (anyAnswers _) fun _ _ _ _ _ _ _ _ _ => trivial
  obtain ⟨episode, _, resolution⟩ := resolved point recorded
  exact ⟨reached.numbered.ownBlocks clear, reached.tipped ended point recorded,
    reached.setup_eq ▸ configured, episode, resolution⟩

def CallKept (start : Int) (processor : Processor) : Prop :=
  processor.configuredStart ≤ start ∧ StageKept start processor

theorem CallKept.step {start : Int} {processor next : Processor}
    (kept : CallKept start processor) (step : ProcessStep Orderly processor next) :
    CallKept start next := by
  obtain ⟨configured, kept⟩ := kept
  unfold StageKept at kept
  cases step with
  | seedFails startBlock committedHashes guards db error located =>
      simp only [located] at kept
      exact ⟨configured, nothingSkipped_of_clear kept.1 kept.2⟩
  | starts startBlock committedHashes guards db queryFails seedHash located =>
      simp only [located] at kept
      exact ⟨configured, processor.setup startBlock seedHash,
        ⟨db, ⟨_, _, .refl⟩, kept.1, rfl⟩, kept.2⟩
  | steps run move located able =>
      simp only [located] at kept
      obtain ⟨setup, ⟨db, reached, clear, same⟩, below⟩ := kept
      exact ⟨configured, setup, ⟨db, reached.step able, clear, same⟩,
        below.grow (visible_grows able)⟩
  | stops run error located =>
      simp only [located] at kept
      obtain ⟨setup, ordered, below⟩ := kept
      exact ⟨configured, ordered.nothingSkipped below⟩
  | rollsBack run point located ended recorded =>
      simp only [located] at kept
      obtain ⟨setup, ordered, below⟩ := kept
      exact ⟨configured, ⟨_, setup, ordered⟩, ended, recorded, ordered.nothingSkipped below⟩
  | rollbackStops run point budget error located =>
      simp only [located] at kept
      obtain ⟨⟨_, setup, ordered⟩, ended, recorded, skipped⟩ := kept
      obtain ⟨blocks, tip, _, episode, resolution⟩ := ordered.resolution ended recorded
      exact ⟨configured, skipped.interrupted blocks resolution tip budget⟩
  | restarts run point budget rest db located rolled =>
      simp only [located] at kept
      obtain ⟨⟨_, setup, ordered⟩, ended, recorded, skipped⟩ := kept
      obtain ⟨blocks, tip, same, episode, resolution⟩ := ordered.resolution ended recorded
      exact ⟨configured, blocks.clear_of_rollback resolution tip rolled,
        skipped.restart blocks.single resolution (same ▸ configured) rolled⟩

theorem callKept_start {start : Int} {db : DB} (clear : ClearFrom start db) (workers : Nat) :
    CallKept start (Processor.call workers start none ∅ db) := by
  refine ⟨Int.le_refl _, clear, ?_⟩
  intro run member
  cases member

/-- The runs of the call so far, the current one included. -/
def Processor.runs (processor : Processor) : List Run :=
  match processor.stage with
  | .running run => processor.finished ++ [run]
  | _ => processor.finished

theorem StageKept.nothingSkipped {start : Int} {processor : Processor}
    (kept : StageKept start processor) :
    NothingSkipped start processor.runs processor.stage.db := by
  unfold StageKept at kept
  unfold Processor.runs Stage.db
  cases located : processor.stage with
  | seeding =>
      simp only [located] at kept
      exact nothingSkipped_of_clear kept.1 kept.2
  | running =>
      simp only [located] at kept
      obtain ⟨setup, ordered, below⟩ := kept
      exact ordered.nothingSkipped below
  | rollingBack =>
      simp only [located] at kept
      exact kept.2.2.2
  | stopped =>
      simp only [located] at kept
      exact kept

/-- Stopped in any state of an orderly call, the processor resumes at a height
below which every checked block is stored, unless its store failed by itself. -/
theorem stop_skips_nothing {workers : Nat} {startBlock : Int} {db : DB}
    (clear : ClearFrom startBlock db) {processor : Processor}
    (reached : CallUnder Orderly (Processor.call workers startBlock none ∅ db) processor)
    (cfg : StartConfig) {highest chainTip resume : Int}
    (stored : getHighestStoredBlockNumber false processor.stage.db = .ok highest)
    (positive : 0 < highest) (close : chainTip - highest ≤ cfg.startBuffer)
    (resumed : resolveStartHeight cfg (getHighestStoredBlockNumber false processor.stage.db)
      (.ok chainTip) = .ok resume) :
    ∀ run ∈ processor.runs, ∀ item ∈ run.trace.checked, startBlock ≤ item.blockNum →
      item.blockNum < resume → SettledBy processor.runs processor.stage.db item.blockNum := by
  have kept : CallKept startBlock processor :=
    reached.invariant (callKept_start clear workers)
      fun _ _ kept enabled => kept.step (process_step enabled)
  rw [stored, resolveStartHeight_resumes cfg positive close, Except.ok.injEq] at resumed
  obtain ⟨row, rowAt⟩ := (getHighestStoredBlockNumber_ok stored).1
  intro run member item checked above under
  exact kept.2.nothingSkipped run member item checked above highest (List.ne_nil_of_mem rowAt)
    (by omega)

/-- A store that holds block 4 only. -/
def singleBlock : DB :=
  { visible := [⟨.block, blockFields 4 "0xa4" "0xa3"⟩]
    deleted := []
    nodup := by decide
    separate := by decide }

theorem singleBlock_clear : ClearFrom 5 singleBlock :=
  clearFrom_of_listed (by decide : BlocksListed singleBlock [4]) (by decide) (by decide) (by decide)

theorem stop_after_two_blocks :
    ∃ processor run item, CallUnder Orderly (Processor.call 2 5 none ∅ singleBlock) processor ∧
      run ∈ processor.runs ∧ item ∈ run.trace.checked ∧ item.blockNum = 5 ∧
      resolveStartHeight ⟨0, 10⟩ (getHighestStoredBlockNumber false processor.stage.db) (.ok 8) =
        .ok 7 ∧
      SettledBy processor.runs processor.stage.db item.blockNum := by
  obtain ⟨processor, reached, facts⟩ := call_of_execution Orderly
    (Processor.call 2 5 none ∅ singleBlock)
    (.seed false :: (indexMoves 5 "0xa5" "0xa4" ++ indexMoves 6 "0xa6" "0xa5").map .step)
    (fun processor => getHighestStoredBlockNumber false processor.stage.db = .ok 6 &&
      processor.runs.any fun run => run.trace.checked.any fun item => item.blockNum = 5)
    (by decide +kernel)
  simp only [Bool.and_eq_true, decide_eq_true_eq, List.any_eq_true] at facts
  obtain ⟨highest, run, member, item, checked, number⟩ := facts
  have resumed : resolveStartHeight ⟨0, 10⟩ (getHighestStoredBlockNumber false processor.stage.db)
      (.ok 8) = .ok 7 := by rw [highest]; decide
  exact ⟨processor, run, item, reached, member, checked, number, resumed,
    stop_skips_nothing singleBlock_clear reached ⟨0, 10⟩ highest (by decide) (by decide) resumed run
      member item checked (by omega) (by omega)⟩

/-- Blocks 5 and 6 are with the pool, 6 lands, and the stop cuts the store of 5 off. -/
def cutOffMoves : List Move :=
  fetchMoves 5 (.ok (bareBlock 5 "0xa5" "0xa4")) ++
    handMoves (served 5 (bareBlock 5 "0xa5" "0xa4")) ++
    fetchMoves 6 (.ok (bareBlock 6 "0xa6" "0xa5")) ++
    handMoves (served 6 (bareBlock 6 "0xa6" "0xa5")) ++
    [.pool (.take (served 5 (bareBlock 5 "0xa5" "0xa4")))] ++
    storeMoves (served 6 (bareBlock 6 "0xa6" "0xa5")) ⟨.block, blockFields 6 "0xa6" "0xa5"⟩ ++
    [.cancel,
      .pool (.finishStore (served 5 (bareBlock 5 "0xa5" "0xa4"))
        (.error (.cutOff "context canceled")) true),
      .pool (.report
        ⟨served 5 (bareBlock 5 "0xa5" "0xa4"), .error (.cutOff "context canceled"), none⟩),
      .pool .release, .collect .pop, .collect .hold,
      .collect (.recvCompletion
        ⟨served 5 (bareBlock 5 "0xa5" "0xa4"), .error (.cutOff "context canceled"), none⟩),
      .collect .pop] ++ shutdownMoves

/-- The stopped call resumes at 7 although block 5 was checked and never stored. -/
theorem stop_skips_cut_off_block :
    ∃ processor error db run item,
      CallUnder (fun _ => NumberedNode) (Processor.call 2 5 none ∅ singleBlock) processor ∧
      processor.stage = .stopped error db ∧
      resolveStartHeight ⟨0, 10⟩ (getHighestStoredBlockNumber false db) (.ok 8) = .ok 7 ∧
      run ∈ processor.runs ∧ item ∈ run.trace.checked ∧ item.blockNum = 5 ∧
      ¬ SettledBy processor.runs db 5 := by
  obtain ⟨processor, reached, facts⟩ := call_of_execution (fun _ => NumberedNode)
    (Processor.call 2 5 none ∅ singleBlock)
    (.seed false :: cutOffMoves.map .step ++ [.returned])
    (fun processor =>
      match processor.stage with
      | .stopped _ db => getHighestStoredBlockNumber false db = .ok 6 &&
          decide (¬ SettledBy processor.runs db 5) &&
          processor.runs.any fun run => run.trace.checked.any fun item => item.blockNum = 5
      | _ => false)
    (by decide +kernel)
  cases located : processor.stage with
  | stopped error db =>
      simp only [located, Bool.and_eq_true, decide_eq_true_eq, List.any_eq_true] at facts
      obtain ⟨⟨highest, lost⟩, run, member, item, checked, number⟩ := facts
      exact ⟨processor, error, db, run, item, reached, located, by rw [highest]; decide, member,
        checked, number, lost⟩
  | seeding | running | rollingBack => simp [located] at facts

end ShinzoGenerator.Indexer
