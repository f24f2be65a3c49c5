import ShinzoGenerator.Indexer.StaleHeights

/-! `ProcessBlocks`: runs of the processor, each followed by the rollback of the
orphans it found and by a restart above the fork point. -/

set_option autoImplicit false

namespace ShinzoGenerator.Indexer

open Chains Defra

def maxRollbacksPerRun : Nat := 64
def maxRollbacksPerHeight : Nat := 3

/-- The hash the first block of a run should carry as its parent: the committed
history of the run before, else the stored predecessor. -/
def resolveSeed (startBlock : Int) (committedHashes : HeightMap String)
    (stored : Except String String) : Except String String :=
  if startBlock ≤ 0 then .ok ""
  else
    let seed := (committedHashes.lookup (startBlock - 1)).getD ""
    if seed ≠ "" then .ok seed
    else stored.mapError fun error =>
      "query seed hash for block " ++ toString (startBlock - 1) ++ ": " ++ error

/-- The rollback counters, which outlive a run until its next commit. -/
structure RollbackGuards where
  episodeRollbacks : Nat := 0
  heightRollbacks : HeightMap Nat := ∅

/-- The counters after one more rollback that restarts at the height. -/
def Ledger.countRollback (ledger : Ledger) (restart : Int) : RollbackGuards where
  episodeRollbacks := ledger.episodeRollbacks + 1
  heightRollbacks := ledger.heightRollbacks.insert restart
    ((ledger.heightRollbacks.lookup restart).getD 0 + 1)

/-- Why a counted rollback is refused. -/
def RollbackGuards.refusal (guards : RollbackGuards) (restart : Int) : Option String :=
  let heightCount := (guards.heightRollbacks.lookup restart).getD 0
  if maxRollbacksPerRun < guards.episodeRollbacks then
    some ("rollback guard: " ++ toString guards.episodeRollbacks ++
      " rollbacks exceed the per-run limit of " ++ toString maxRollbacksPerRun)
  else if maxRollbacksPerHeight < heightCount then
    some ("rollback guard: height " ++ toString restart ++ " rolled back " ++
      toString heightCount ++ " times, exceeding the limit of " ++
      toString maxRollbacksPerHeight ++ " - the RPC node may persistently serve forked data")
  else none

/-- Where the call stands. -/
inductive Stage where
  | seeding (startBlock : Int) (committedHashes : HeightMap String) (guards : RollbackGuards)
      (db : DB)
  | running (run : Run)
  | rollingBack (run : Run) (point : RollbackPoint)
  | stopped (error : String) (db : DB)

def Stage.db : Stage → DB
  | .seeding _ _ _ db | .stopped _ db => db
  | .running run | .rollingBack run _ => run.db

/-- `finished` lists the runs that have returned; no move reads it. -/
structure Processor where
  workers : Nat
  configuredStart : Int
  stage : Stage
  finished : List Run := []

/-- A call on a processor that knows the given bound and committed history from
its earlier calls; a new processor knows none. -/
def Processor.call (workers : Nat) (startBlock : Int) (configuredStart : Option Int)
    (committedHashes : HeightMap String) (db : DB) : Processor where
  workers := workers
  configuredStart := (configuredStart.map (min startBlock)).getD startBlock
  stage := .seeding startBlock committedHashes {} db

/-- A run has returned: a fatal error stops the call, a rollback point is counted
and rolled back, and anything else was a cancellation. -/
def afterRun (run : Run) : Stage :=
  match run.ledger.fatalErr, run.ledger.rollbackPoint with
  | some error, _ => .stopped error run.db
  | none, none => .stopped "context canceled" run.db
  | none, some point =>
      match (run.ledger.countRollback (point.forkPoint + 1)).refusal (point.forkPoint + 1) with
      | some error => .stopped error run.db
      | none => .rollingBack run point

def rollbackFailed (point : RollbackPoint) (error : String) : String :=
  "rollback blocks [" ++ toString (point.forkPoint + 1) ++ ", " ++ toString point.oldTip ++
    "]: " ++ error ++ " (partial rollback followed by re-indexing would leave duplicate " ++
    "heights; indexing stopped)"

/-- The rollback of a run's orphans; `aborted` is a query that fails behind the last deletion. -/
def afterRollback (run : Run) (point : RollbackPoint) (budget : Nat) (aborted : Bool) : Stage :=
  match rollbackBlocks (point.forkPoint + 1) point.oldTip point.chainHashes budget run.db with
  | .error failure => .stopped (rollbackFailed point failure.1) failure.2
  | .ok (_, db) =>
      if aborted then .stopped (rollbackFailed point "query failed") db
      else .seeding (point.forkPoint + 1) run.ledger.committedHashes
        (run.ledger.countRollback (point.forkPoint + 1)) db

inductive ProcessMove where
  | seed (queryFails : Bool)
  | step (move : Move)
  | returned
  | rollback (budget : Nat) (aborted : Bool)

def Processor.setup (processor : Processor) (startBlock : Int) (seedHash : String) : Setup where
  runStartBlock := startBlock
  seedHash := seedHash
  configuredStart := processor.configuredStart
  workers := processor.workers

def processEnabled (processor : Processor) (move : ProcessMove) : Prop :=
  match move, processor.stage with
  | .seed _, .seeding _ _ _ _ => True
  | .step move, .running run => processBlocksOnce.enabled run move
  | .returned, .running run => run.dispatcher.phase = .ended
  | .rollback _ _, .rollingBack _ _ => True
  | _, _ => False

instance (processor : Processor) (move : ProcessMove) :
    Decidable (processEnabled processor move) := by
  unfold processEnabled
  split <;> infer_instance

def processEffect (processor : Processor) (move : ProcessMove) : Processor :=
  match move, processor.stage with
  | .seed queryFails, .seeding startBlock committedHashes guards db =>
      { processor with
        stage :=
          match resolveSeed startBlock committedHashes
              (queryStoredHash queryFails db (startBlock - 1)) with
          | .error error => .stopped error db
          | .ok seedHash => .running (Run.start (processor.setup startBlock seedHash)
              guards.episodeRollbacks guards.heightRollbacks db) }
  | .step move, .running run =>
      { processor with stage := .running (processBlocksOnce.effect run move) }
  | .returned, .running run =>
      { processor with stage := afterRun run, finished := processor.finished ++ [run] }
  | .rollback budget aborted, .rollingBack run point =>
      { processor with stage := afterRollback run point budget aborted }
  | _, _ => processor

/-- The `ProcessBlocks` loop. -/
def processBlocks : GuardedSystem Processor ProcessMove where
  enabled := processEnabled
  effect := processEffect

instance (processor : Processor) (move : ProcessMove) :
    Decidable (processBlocks.enabled processor move) :=
  inferInstanceAs (Decidable (processEnabled processor move))

/-- Restricts the moves of the runs inside the call; what a run may do can depend
on the runs before it. -/
def During (allowed : List Run → Run → Move → Prop) (processor : Processor)
    (move : ProcessMove) : Prop :=
  match move, processor.stage with
  | .step move, .running run => allowed processor.finished run move
  | _, _ => True

instance (allowed : List Run → Run → Move → Prop)
    [∀ history run move, Decidable (allowed history run move)] (processor : Processor)
    (move : ProcessMove) : Decidable (During allowed processor move) := by
  unfold During
  split <;> infer_instance

/-- The states of a call whose runs only make allowed moves. -/
abbrev CallUnder (allowed : List Run → Run → Move → Prop) (start processor : Processor) : Prop :=
  (processBlocks.restrict (During allowed)).Path start processor

/-! ### What one move does -/

inductive ProcessStep (allowed : List Run → Run → Move → Prop) (processor : Processor) :
    Processor → Prop where
  | seedFails (startBlock : Int) (committedHashes : HeightMap String) (guards : RollbackGuards)
      (db : DB) (error : String) :
      processor.stage = .seeding startBlock committedHashes guards db →
      ProcessStep allowed processor { processor with stage := .stopped error db }
  | starts (startBlock : Int) (committedHashes : HeightMap String) (guards : RollbackGuards)
      (db : DB) (queryFails : Bool) (seedHash : String) :
      processor.stage = .seeding startBlock committedHashes guards db →
      resolveSeed startBlock committedHashes (queryStoredHash queryFails db (startBlock - 1)) =
        .ok seedHash →
      ProcessStep allowed processor
        { processor with
          stage := .running (Run.start (processor.setup startBlock seedHash)
            guards.episodeRollbacks guards.heightRollbacks db) }
  | steps (run : Run) (move : Move) : processor.stage = .running run →
      (restricted (allowed processor.finished)).enabled run move →
      ProcessStep allowed processor
        { processor with stage := .running (processBlocksOnce.effect run move) }
  | stops (run : Run) (error : String) : processor.stage = .running run →
      run.dispatcher.phase = .ended →
      ProcessStep allowed processor
        { processor with stage := .stopped error run.db, finished := processor.finished ++ [run] }
  | rollsBack (run : Run) (point : RollbackPoint) : processor.stage = .running run →
      run.dispatcher.phase = .ended → run.ledger.rollbackPoint = some point →
      ProcessStep allowed processor
        { processor with
          stage := .rollingBack run point
          finished := processor.finished ++ [run] }
  | rollbackStops (run : Run) (point : RollbackPoint) (budget : Nat) (error : String) :
      processor.stage = .rollingBack run point →
      ProcessStep allowed processor
        { processor with
          stage := .stopped error (leftBy
            (rollbackBlocks (point.forkPoint + 1) point.oldTip point.chainHashes budget run.db)) }
  | restarts (run : Run) (point : RollbackPoint) (budget rest : Nat) (db : DB) :
      processor.stage = .rollingBack run point →
      rollbackBlocks (point.forkPoint + 1) point.oldTip point.chainHashes budget run.db =
        .ok (rest, db) →
      ProcessStep allowed processor
        { processor with
          stage := .seeding (point.forkPoint + 1) run.ledger.committedHashes
            (run.ledger.countRollback (point.forkPoint + 1)) db }

variable {allowed : List Run → Run → Move → Prop} {processor : Processor}

theorem afterRun_step {run : Run} (located : processor.stage = .running run)
    (ended : run.dispatcher.phase = .ended) :
    ProcessStep allowed processor
      { processor with stage := afterRun run, finished := processor.finished ++ [run] } := by
  unfold afterRun
  split
  · exact .stops run _ located ended
  · exact .stops run _ located ended
  · rename_i point _ recorded
    split
    · exact .stops run _ located ended
    · exact .rollsBack run point located ended recorded

theorem afterRollback_step {run : Run} {point : RollbackPoint}
    (located : processor.stage = .rollingBack run point) (budget : Nat) (aborted : Bool) :
    ProcessStep allowed processor
      { processor with stage := afterRollback run point budget aborted } := by
  have stops : ∀ error, ProcessStep allowed processor
      { processor with
        stage := .stopped error (leftBy
          (rollbackBlocks (point.forkPoint + 1) point.oldTip point.chainHashes budget run.db)) } :=
    fun error => .rollbackStops run point budget error located
  unfold afterRollback
  cases ran : rollbackBlocks (point.forkPoint + 1) point.oldTip point.chainHashes budget run.db with
  | error failure =>
      rw [ran] at stops
      exact stops _
  | ok state =>
      rw [ran] at stops
      cases aborted with
      | true => exact stops _
      | false => exact .restarts run point budget state.1 state.2 located ran

theorem process_step {move : ProcessMove}
    (enabled : (processBlocks.restrict (During allowed)).enabled processor move) :
    ProcessStep allowed processor
      ((processBlocks.restrict (During allowed)).effect processor move) := by
  obtain ⟨enabled, permitted⟩ := enabled
  change processEnabled processor move at enabled
  change ProcessStep allowed processor (processEffect processor move)
  unfold processEnabled at enabled
  unfold processEffect
  cases move with
  | seed queryFails =>
      cases located : processor.stage with
      | seeding startBlock committedHashes guards db =>
          simp only
          cases seeded : resolveSeed startBlock committedHashes
              (queryStoredHash queryFails db (startBlock - 1)) with
          | error error => exact .seedFails _ _ _ _ error located
          | ok seedHash => exact .starts _ _ _ _ queryFails seedHash located seeded
      | running | rollingBack | stopped => simp [located] at enabled
  | step move =>
      cases located : processor.stage with
      | running run =>
          simp only [During, located] at enabled permitted
          exact .steps run move located ⟨enabled, permitted⟩
      | seeding | rollingBack | stopped => simp [located] at enabled
  | returned =>
      cases located : processor.stage with
      | running run =>
          rw [located] at enabled
          exact afterRun_step located enabled
      | seeding | rollingBack | stopped => simp [located] at enabled
  | rollback budget aborted =>
      cases located : processor.stage with
      | rollingBack run point => exact afterRollback_step located budget aborted
      | seeding | running | stopped => simp [located] at enabled

/-! ### The runs of a call -/

theorem RunUnder.step {allowed : Run → Move → Prop} {setup : Setup} {db : DB} {run : Run}
    {move : Move} (reached : RunUnder allowed setup db run)
    (enabled : (restricted allowed).enabled run move) :
    RunUnder allowed setup db (processBlocksOnce.effect run move) := by
  obtain ⟨episodeRollbacks, heightRollbacks, path⟩ := reached.path
  exact ⟨episodeRollbacks, heightRollbacks, path.step enabled⟩

/-- A run inside the call can go on. -/
theorem CallUnder.run_path {start : Processor} {run next : Run}
    (reached : CallUnder allowed start processor) (located : processor.stage = .running run)
    (path : (restricted (allowed processor.finished)).Path run next) :
    CallUnder allowed start { processor with stage := .running next } := by
  induction path with
  | refl => exact located ▸ reached
  | @step state move _ enabled ih =>
      have able : (processBlocks.restrict (During allowed)).enabled
          { processor with stage := .running state } (.step move) := ⟨enabled.1, enabled.2⟩
      exact ih.step able

theorem RunUnder.mono {narrow wide : Run → Move → Prop} {setup : Setup} {db : DB} {run : Run}
    (reached : RunUnder narrow setup db run)
    (weaker : ∀ run move, narrow run move → wide run move) : RunUnder wide setup db run := by
  obtain ⟨episodeRollbacks, heightRollbacks, path⟩ := reached.path
  exact ⟨episodeRollbacks, heightRollbacks, path.restrict_mono weaker⟩

/-- The current run is a run of `processBlocksOnce`, and a rollback works on a finished one. -/
def StageReached (allowed : List Run → Run → Move → Prop) (processor : Processor) : Prop :=
  match processor.stage with
  | .running run => ∃ setup db, RunUnder (allowed processor.finished) setup db run
  | .rollingBack run point => (∃ before setup db, RunUnder (allowed before) setup db run) ∧
      run.dispatcher.phase = .ended ∧ run.ledger.rollbackPoint = some point
  | _ => True

theorem StageReached.step {next : Processor} (sound : StageReached allowed processor)
    (step : ProcessStep allowed processor next) : StageReached allowed next := by
  unfold StageReached at sound
  cases step with
  | seedFails | stops | rollbackStops | restarts => exact trivial
  | starts => exact ⟨_, _, ⟨_, _, .refl⟩⟩
  | steps run move located able =>
      simp only [located] at sound
      obtain ⟨setup, db, reached⟩ := sound
      exact ⟨setup, db, reached.step able⟩
  | rollsBack run point located ended recorded =>
      simp only [located] at sound
      exact ⟨⟨_, sound⟩, ended, recorded⟩

theorem call_stageReached {workers : Nat} {startBlock : Int} {known : Option Int}
    {committedHashes : HeightMap String} {db : DB}
    (reached : CallUnder allowed (Processor.call workers startBlock known committedHashes db)
      processor) : StageReached allowed processor :=
  reached.invariant trivial fun _ _ sound enabled => sound.step (process_step enabled)

instance (allowed : List Run → Run → Move → Prop)
    [∀ history run move, Decidable (allowed history run move)] (processor : Processor)
    (move : ProcessMove) :
    Decidable ((processBlocks.restrict (During allowed)).enabled processor move) :=
  inferInstanceAs (Decidable (_ ∧ _))

/-- A state that an executed list of moves leads to, with what a test says about it. -/
theorem call_of_execution (allowed : List Run → Run → Move → Prop)
    [∀ history run move, Decidable (allowed history run move)] (start : Processor)
    (moves : List ProcessMove) (test : Processor → Bool)
    (executed : ((processBlocks.restrict (During allowed)).run? moves start).any test = true) :
    ∃ processor, CallUnder allowed start processor ∧ test processor = true :=
  GuardedSystem.exists_path_of_run? executed

/-- In every state of a call the in-flight counter counts the items that are
held, queued or with a worker, the store channel is closed at most once and not
sent on afterwards, and a walk-back and a rollback find a quiet pool. -/
theorem registrations_and_quiescence {workers : Nat} {startBlock : Int} {known : Option Int}
    {committedHashes : HeightMap String} {db : DB}
    (reached : CallUnder (fun _ _ _ => True)
      (Processor.call workers startBlock known committedHashes db) processor) :
    (∀ run, processor.stage = .running run →
      run.pool.inFlight = run.check.holdingDispatch.toList.length + run.pool.storeChan.length +
        (run.pool.storing.length + run.pool.reporting.length + run.pool.unreleased) ∧
      run.trace.closes ≤ 1 ∧ (run.pool.storeClosed = true ↔ run.trace.closes = 1) ∧
      (run.pool.storeClosed = true → ∀ item, ¬ collectEnabled run (.send item)) ∧
      (∀ fin, run.pc = .walk fin → Quiet run)) ∧
    ∀ run point, processor.stage = .rollingBack run point → Quiet run := by
  have sound := call_stageReached reached
  unfold StageReached at sound
  constructor
  · intro run located
    simp only [located] at sound
    obtain ⟨setup, db, reached⟩ := sound
    have sealing := reached.control.sealing
    have closes := sealing.closes
    have closed := sealing.closed
    refine ⟨reached.counted, ?_, ?_, ?_, fun fin at_walk => reached.quiet (.inl ⟨fin, at_walk⟩)⟩
    · rw [closes]
      exact Bool.toNat_le _
    · rw [closes, closed]
      cases run.doneFired <;> simp
    · rintro shut item ⟨_, held, _⟩
      rw [sealing.noHeld (.inl (closed ▸ shut))] at held
      cases held
  · intro run point located
    simp only [located] at sound
    obtain ⟨⟨_, setup, db, reached⟩, ended, _⟩ := sound
    exact reached.quiet (.inr ended)

/-- The call that finds the orphan at height 4 and gets to its rollback. -/
def forkCall : List ProcessMove :=
  .seed false :: forkMoves.map .step ++ [.returned]

theorem rollback_of_fork_quiet :
    ∃ processor run point,
      CallUnder (fun _ _ _ => True) (Processor.call 2 5 none ∅ forkedStore) processor ∧
        processor.stage = .rollingBack run point ∧ Quiet run := by
  obtain ⟨processor, reached, facts⟩ := call_of_execution (fun _ _ _ => True)
    (Processor.call 2 5 none ∅ forkedStore) forkCall
    (fun processor => match processor.stage with | .rollingBack _ _ => true | _ => false)
    (by decide +kernel)
  cases located : processor.stage with
  | rollingBack run point =>
      exact ⟨processor, run, point, reached, located,
        (registrations_and_quiescence reached).2 run point located⟩
  | seeding | running | stopped => simp [located] at facts

end ShinzoGenerator.Indexer
