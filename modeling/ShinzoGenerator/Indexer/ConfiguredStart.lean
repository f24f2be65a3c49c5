import ShinzoGenerator.Indexer.Resume

/-! `configuredStart`, the bound below which the walk-back takes an empty height for
the end of what was ever stored. It is the lowest start of the processor's calls,
and a restart behind a rollback may go below it. -/

set_option autoImplicit false

namespace ShinzoGenerator.Indexer

open Chains Defra

/-! ### The calls of one processor -/

/-- A processor and the runs of its finished calls. -/
structure Lifetime where
  earlier : List Run := []
  processor : Processor

def Lifetime.runs (life : Lifetime) : List Run := life.earlier ++ life.processor.runs

/-- A call may find any store, since others write to it between the calls, and any
committed history of the calls before. -/
inductive LifeMove where
  | process (move : ProcessMove)
  | call (startBlock : Int) (committedHashes : HeightMap String) (db : DB)

def Lifetime.recall (life : Lifetime) (startBlock : Int) (committedHashes : HeightMap String)
    (db : DB) : Lifetime where
  earlier := life.runs
  processor := Processor.call life.processor.workers startBlock
    (some life.processor.configuredStart) committedHashes db

/-- The calls of a processor come one after the other. -/
def lifetime : GuardedSystem Lifetime LifeMove where
  enabled life
    | .process move => processBlocks.enabled life.processor move
    | .call _ _ _ => ∃ error db, life.processor.stage = .stopped error db
  effect life
    | .process move => { life with processor := processBlocks.effect life.processor move }
    | .call startBlock committedHashes db => life.recall startBlock committedHashes db

/-- Restricts the moves of the runs. -/
def Throughout (allowed : Run → Move → Prop) (life : Lifetime) : LifeMove → Prop
  | .process move => During (fun _ => allowed) life.processor move
  | .call _ _ _ => True

/-- The states of a new processor whose runs only make allowed moves. -/
def LifeUnder (allowed : Run → Move → Prop) (life : Lifetime) : Prop :=
  ∃ workers startBlock db, (lifetime.restrict (Throughout allowed)).Path
    { processor := Processor.call workers startBlock none ∅ db } life

/-! ### Runs that stay above the bound -/

/-- The walk-back starts above the height below the bound and does not pass it: on the
way down the store agrees with the chain, or it is empty right below the bound. -/
def StopsInTime (view : WalkView) (anchor : Int × String) : Prop :=
  view.configuredStart - 1 ≤ anchor.1 ∧ ¬ DescentPasses view anchor (view.configuredStart - 1)

instance (view : WalkView) (anchor : Int × String) : Decidable (StopsInTime view anchor) :=
  inferInstanceAs (Decidable (_ ∧ _))

/-- The moves of a run whose walk-backs stop in time. -/
def WalksInTime (run : Run) : Move → Prop
  | .collect (.walk _ episode oracle) => StopsInTime (run.walkView oracle) episode.anchor
  | _ => True

instance (run : Run) (move : Move) : Decidable (WalksInTime run move) :=
  match move with
  | .collect (.walk _ _ _) => inferInstanceAs (Decidable (StopsInTime _ _))
  | .collect .pop | .collect (.check _ _) | .collect (.resolve _) | .collect (.refetched _ _)
  | .collect .hold | .collect (.recvResult _) | .collect .recvResultsClosed
  | .collect (.recvCompletion _) | .collect .recvCompletionsClosed | .collect (.send _)
  | .collect .done | .collect (.drainRecv _ _) | .collect (.drainSettled _) | .collect (.drained _)
  | .cancel | .dispatch _ | .pool _ | .closeCompletions | .finish => .isTrue trivial

theorem stopsInTime_iff {view : WalkView} {anchor : Int × String} {forkPoint : Int}
    {chainHashes : HeightMap String}
    (resolved : resolveForkPoint view anchor.1 anchor.2 = .ok (forkPoint, chainHashes)) :
    StopsInTime view anchor ↔ view.configuredStart ≤ forkPoint + 1 := by
  have passes : DescentPasses view anchor (view.configuredStart - 1) ↔ _ :=
    descentPasses_iff resolved (view.configuredStart - 1)
  obtain ⟨_, _, trail, _⟩ := resolveForkPoint_trail resolved
  have ordered := trail.ordered
  unfold StopsInTime
  rw [passes]
  omega

/-- A recorded rollback point does not restart below the bound. -/
def RestartsAbove (run : Run) : Prop :=
  ∀ point, run.ledger.rollbackPoint = some point → run.setup.configuredStart ≤ point.forkPoint + 1

theorem RestartsAbove.step (run : Run) (move : Move) (above : RestartsAbove run)
    (enabled : (restricted WalksInTime).enabled run move) :
    RestartsAbove ((restricted WalksInTime).effect run move) := by
  cases move with
  | cancel | dispatch | pool | closeCompletions => exact above
  | collect move =>
      have step := restricted_collect enabled
      intro point recorded
      rw [step.setup]
      rcases step.rollbackPoint with ⟨same, _⟩ |
        ⟨fin, episode, oracle, forkPoint, hashes, inTime, _, _, walked, written, _⟩
      · rw [same] at recorded
        exact above point recorded
      · rw [written, Option.some.injEq] at recorded
        subst recorded
        exact (stopsInTime_iff walked).mp inTime
  | finish =>
      intro point recorded
      change Option.map _ _ = some point at recorded
      obtain ⟨before, found, rfl⟩ := Option.map_eq_some_iff.mp recorded
      exact above before found

theorem RunUnder.restartsAbove {setup : Setup} {db : DB} {run : Run}
    (reached : RunUnder WalksInTime setup db run) : RestartsAbove run := by
  refine reached.invariant (fun _ _ point recorded => ?_) RestartsAbove.step
  cases recorded

theorem RunUnder.handed_above {allowed : Run → Move → Prop} {setup : Setup} {db : DB} {run : Run}
    (reached : RunUnder allowed setup db run) {item : BlockResult}
    (handed : item ∈ run.trace.handed) : setup.runStartBlock ≤ item.blockNum := by
  have bounds := reached.handoff.bounds item (List.mem_append_left _ handed)
  rw [reached.setup_eq] at bounds
  exact bounds.1

/-! ### Calls that stay above the bound -/

/-- Every item the runs have handed to the store pool is at or above the bound. -/
def HandedAbove (bound : Int) (runs : List Run) : Prop :=
  ∀ run ∈ runs, ∀ item ∈ run.trace.handed, bound ≤ item.blockNum

/-- The stage of a call goes on at or above the bound. -/
def StageAbove (bound : Int) : Stage → Prop
  | .seeding startBlock _ _ _ => bound ≤ startBlock
  | .running run => ∃ setup db, RunUnder WalksInTime setup db run ∧ setup.configuredStart = bound ∧
      bound ≤ setup.runStartBlock
  | .rollingBack _ point => bound ≤ point.forkPoint + 1
  | .stopped _ _ => True

theorem HandedAbove.append {bound : Int} {runs : List Run} {run : Run}
    (above : HandedAbove bound runs) (stage : StageAbove bound (.running run)) :
    HandedAbove bound (runs ++ [run]) := by
  obtain ⟨setup, db, reached, _, start⟩ := stage
  intro other member item handed
  rcases List.mem_append.mp member with old | new
  · exact above other old item handed
  · rw [List.mem_singleton.mp new] at handed
    exact start.trans (reached.handed_above handed)

def CallAbove (processor : Processor) : Prop :=
  HandedAbove processor.configuredStart processor.finished ∧
    StageAbove processor.configuredStart processor.stage

theorem CallAbove.step {processor next : Processor} (above : CallAbove processor)
    (step : ProcessStep (fun _ => WalksInTime) processor next) : CallAbove next := by
  obtain ⟨finished, stage⟩ := above
  have grown : ∀ run, processor.stage = .running run →
      HandedAbove processor.configuredStart (processor.finished ++ [run]) := by
    intro run located
    rw [located] at stage
    exact finished.append stage
  cases step with
  | seedFails | rollbackStops => exact ⟨finished, trivial⟩
  | starts _ _ _ _ _ _ located =>
      rw [located] at stage
      exact ⟨finished, _, _, ⟨_, _, .refl⟩, rfl, stage⟩
  | steps run move located able =>
      rw [located] at stage
      obtain ⟨setup, db, reached, bound, start⟩ := stage
      exact ⟨finished, setup, db, reached.step able, bound, start⟩
  | stops run error located => exact ⟨grown run located, trivial⟩
  | rollsBack run point located _ recorded =>
      refine ⟨grown run located, ?_⟩
      rw [located] at stage
      obtain ⟨setup, db, reached, bound, _⟩ := stage
      have restarts := reached.restartsAbove point recorded
      rw [reached.setup_eq, bound] at restarts
      exact restarts
  | restarts run point _ _ _ located =>
      rw [located] at stage
      exact ⟨finished, stage⟩

theorem CallAbove.runs {processor : Processor} (above : CallAbove processor) :
    HandedAbove processor.configuredStart processor.runs := by
  obtain ⟨finished, stage⟩ := above
  unfold Processor.runs
  cases located : processor.stage with
  | seeding | rollingBack | stopped => exact finished
  | running run =>
      rw [located] at stage
      exact finished.append stage

/-! ### Every call of a processor -/

theorem call_above {workers : Nat} {startBlock : Int} {known : Option Int}
    {committedHashes : HeightMap String} {db : DB} :
    CallAbove (Processor.call workers startBlock known committedHashes db) := by
  refine ⟨fun run member => ?_, ?_⟩
  · cases member
  · cases known with
    | none => exact Int.le_refl _
    | some bound => exact Int.min_le_left _ _

/-- Everything handed over so far is at or above the bound, and so is what comes next. -/
def LifeAbove (life : Lifetime) : Prop :=
  HandedAbove life.processor.configuredStart life.earlier ∧ CallAbove life.processor

theorem LifeAbove.runs {life : Lifetime} (above : LifeAbove life) :
    HandedAbove life.processor.configuredStart life.runs := by
  intro run member
  rcases List.mem_append.mp member with old | new
  · exact above.1 run old
  · exact above.2.runs run new

theorem processStep_configuredStart {allowed : List Run → Run → Move → Prop}
    {processor next : Processor} (step : ProcessStep allowed processor next) :
    next.configuredStart = processor.configuredStart := by
  cases step <;> rfl

theorem LifeAbove.step (life : Lifetime) (move : LifeMove) (above : LifeAbove life)
    (enabled : (lifetime.restrict (Throughout WalksInTime)).enabled life move) :
    LifeAbove ((lifetime.restrict (Throughout WalksInTime)).effect life move) := by
  cases move with
  | process move =>
      have step : ProcessStep (fun _ => WalksInTime) life.processor
        (processBlocks.effect life.processor move) := process_step enabled
      refine ⟨?_, above.2.step step⟩
      change HandedAbove (processBlocks.effect life.processor move).configuredStart life.earlier
      rw [processStep_configuredStart step]
      exact above.1
  | call startBlock committedHashes db =>
      refine ⟨fun run member item handed => ?_, call_above⟩
      exact (Int.min_le_right _ _).trans (above.runs run member item handed)

/-- In every state of a processor whose walk-backs stop in time, each height that was
handed to the store pool is at or above `configuredStart`. A walk-back that does
not stop in time is one whose restart goes below it. -/
theorem handed_heights_above_configuredStart (life : Lifetime) :
    (LifeUnder WalksInTime life → ∀ run ∈ life.runs, ∀ item ∈ run.trace.handed,
      life.processor.configuredStart ≤ item.blockNum) ∧
    ∀ setup db run, RunOf setup db run → ∀ fin episode oracle forkPoint hashes,
      run.pc = .walk fin → run.ledger.episode = some episode →
      resolveForkPoint (run.walkView oracle) episode.anchor.1 episode.anchor.2 =
        .ok (forkPoint, hashes) →
      (run.setup.configuredStart ≤ forkPoint + 1 ↔
        WalksInTime run (.collect (.walk fin episode oracle))) := by
  constructor
  · intro reached
    obtain ⟨workers, startBlock, db, path⟩ := reached
    have above : LifeAbove life := by
      refine path.invariant ⟨fun run member => ?_, call_above⟩ LifeAbove.step
      cases member
    exact above.runs
  · intro setup db run _ fin episode oracle forkPoint hashes _ _ walked
    exact (stopsInTime_iff walked).symm

theorem CallUnder.life {allowed : Run → Move → Prop} {workers : Nat} {startBlock : Int} {db : DB}
    {processor : Processor}
    (reached : CallUnder (fun _ => allowed) (Processor.call workers startBlock none ∅ db)
      processor) : LifeUnder allowed { processor } := by
  refine ⟨workers, startBlock, db, ?_⟩
  induction reached with
  | refl => exact .refl
  | @step state move _ enabled ih =>
      have able : (lifetime.restrict (Throughout allowed)).enabled { processor := state }
        (.process move) := enabled
      exact ih.step able

/-- Block 5 fails over its orphan, and the walk-back stops at 4. -/
def staleRunMoves : List Move :=
  staleOpeningMoves ++
    [.collect .pop, .collect .hold,
      .collect (.recvCompletion (failedStore (served 5 (bareBlock 5 "0xa5" "0xa4")))),
      .collect (.drainSettled {}), .collect (.drained {}),
      .collect (.walk {} (staleEpisode (served 5 (bareBlock 5 "0xa5" "0xa4"))) scatteredNode),
      .collect .pop] ++ shutdownMoves

/-- The new run stores block 5. -/
def staleCall : List ProcessMove :=
  .seed false :: staleRunMoves.map .step ++ [.returned, .rollback 1 false, .seed false] ++
    (indexMoves 5 "0xa5" "0xa4").map .step

theorem restart_at_configuredStart :
    ∃ life run item, LifeUnder WalksInTime life ∧ life.runs.length = 2 ∧ run ∈ life.runs ∧
      item ∈ run.trace.handed ∧ life.processor.configuredStart ≤ item.blockNum := by
  obtain ⟨processor, reached, facts⟩ := call_of_execution (fun _ => WalksInTime)
    (Processor.call 2 5 none ∅ scatteredOrphans) staleCall
    (fun processor => processor.runs.length = 2 &&
      processor.runs.any fun run => run.trace.handed.any fun item => item.blockNum = 5)
    (by decide +kernel)
  simp only [Bool.and_eq_true, decide_eq_true_eq, List.any_eq_true] at facts
  obtain ⟨two, run, member, item, handed, _⟩ := facts
  have life := CallUnder.life reached
  exact ⟨_, run, item, life, two, member, handed,
    (handed_heights_above_configuredStart _).1 life run member item handed⟩

/-- The processor starts at 5, rolls the orphan at 4 back and hands the new block 4 to the pool. -/
theorem restart_below_configuredStart :
    ∃ life run item, LifeUnder (fun _ _ => True) life ∧ run ∈ life.runs ∧
      item ∈ run.trace.handed ∧ item.blockNum = 4 ∧ life.processor.configuredStart = 5 := by
  obtain ⟨processor, reached, facts⟩ := call_of_execution (fun _ _ _ => True)
    (Processor.call 2 5 none ∅ forkedStore) reindexCall
    (fun processor => processor.configuredStart = 5 &&
      processor.runs.any fun run => run.trace.handed.any fun item => item.blockNum = 4)
    (by decide +kernel)
  simp only [Bool.and_eq_true, decide_eq_true_eq, List.any_eq_true] at facts
  obtain ⟨bound, run, member, item, handed, number⟩ := facts
  exact ⟨{ processor }, run, item, CallUnder.life reached, member, handed, number, bound⟩

end ShinzoGenerator.Indexer
