import ShinzoGenerator.Indexer.RecoveryRestart

/-! The whole call after an interrupted rollback: at most one run that retreats to
the fork point, one rollback, and one run that refills the store from there. -/

set_option autoImplicit false

namespace ShinzoGenerator.Indexer

open Chains Defra

variable {chain : Int → String} {low fork top tip : Int} {db : DB}
  {served : Int → ConversionResult} {run : Run} {setup : Setup} {processor next : Processor}

/-! ### What the two kinds of runs do -/

/-- Nothing is left above the fork point, and what lies below is as it was. -/
structure Trimmed (fork : Int) (before after : DB) : Prop where
  above : ∀ height, fork < height → blocksAt after height = []
  below : ∀ height, height ≤ fork → blocksAt after height = blocksAt before height

/-- A run above an orphan stores nothing: its first popped block opens an episode,
whose walk-back ends at the fork point, and the rollback from there is complete. -/
structure Retreats (chain : Int → String) (fork top tip : Int) (db : DB) (run : Run) : Prop where
  start : run.setup.runStartBlock = top + 1
  untouched : run.db = db
  handed : run.trace.handed = []
  opens : ∀ popped queryFails, run.pc = .check popped → popped.blockNum = top + 1 ∧
    ∃ episode, (run.checkedForDispatch popped queryFails).ledger.episode = some episode ∧
      episode.anchor = (top, chain top)
  walks : ∀ episode oracle, run.ledger.episode = some episode →
    HonestOracle chain fork tip oracle → ∃ chainHashes,
      resolveForkPoint (run.walkView oracle) episode.anchor.1 episode.anchor.2 =
        .ok (fork, chainHashes)
  rollsBack : run.dispatcher.phase = .ended → ∀ point, run.ledger.rollbackPoint = some point →
    point.forkPoint = fork ∧ ∀ budget rest after,
      rollbackBlocks (fork + 1) point.oldTip point.chainHashes budget db = .ok (rest, after) →
      Trimmed fork db after

/-- A run right above the fork point opens no episode and indexes the heights from
there on; up to a height that it calls back, the store is the chain. -/
structure Refills (chain : Int → String) (low fork : Int) (run : Run) : Prop where
  start : run.setup.runStartBlock = fork + 1
  seeded : run.setup.seedHash = chain fork
  calm : run.trace.opened = [] ∧ run.ledger.rollbackPoint = none
  contiguous : ∀ item ∈ run.trace.handed, fork < item.blockNum ∧
    ∀ height, fork < height → height ≤ item.blockNum →
      ∃ other ∈ run.trace.handed, other.blockNum = height
  single : SingleBlocks run.db
  noOrphan : ∀ height, fork < height → ∀ doc ∈ blocksAt run.db height, doc.hash = chain height
  filled : ∀ last ∈ run.ledger.callbacks, ∀ height, low ≤ height → height ≤ last →
    getStoredBlockHash run.db height = .ok (chain height)

/-- The runs of the call, with the orphans on the stored top or without. -/
inductive Recovery (chain : Int → String) (low fork top tip : Int) (db : DB) : List Run → Prop
  | unstarted : Recovery chain low fork top tip db []
  | retreats (first : Run) : fork < top → Retreats chain fork top tip db first →
      Recovery chain low fork top tip db [first]
  | refills (first second : Run) : fork < top → Retreats chain fork top tip db first →
      Refills chain low fork second → Recovery chain low fork top tip db [first, second]
  | follows (only : Run) : fork = top → Refills chain low fork only →
      Recovery chain low fork top tip db [only]

/-! ### The run that retreats -/

theorem OrphanedTip.clear_setup (orphaned : OrphanedTip chain low fork top db setup) :
    ClearFrom setup.runStartBlock db :=
  orphaned.start ▸ orphaned.stored.clearFrom

/-- A rollback leaves the rows below its range alone. -/
theorem blocksAt_below_rollback {before after : DB} (single : SingleBlocks before) {high : Int}
    {chainHashes : HeightMap String} {budget rest : Nat}
    (rolled : rollbackBlocks (fork + 1) high chainHashes budget before = .ok (rest, after))
    {height : Int} (below : height ≤ fork) : blocksAt after height = blocksAt before height := by
  obtain ⟨removed, left⟩ := rollbackBlocks_left single (fork + 1) high chainHashes budget
  have visible := left.visible
  rw [rolled] at visible
  refine docsAt_of_removed visible (fun doc gone located => ?_) .block
  obtain ⟨_, _, other, listed, elsewhere, _⟩ := left.condemned doc gone
  rw [located, Option.some.injEq] at elsewhere
  have := (mem_descending.mp listed).1
  omega

/-- The rollback a run under the stable node asks for removes everything above
its fork point. -/
theorem RunUnder.trims (node : NewChain chain served fork tip)
    (clear : ClearFrom setup.runStartBlock db)
    (reached : RunUnder (StableNode chain served fork tip) setup db run)
    (ended : run.dispatcher.phase = .ended) {point : RollbackPoint}
    (recorded : run.ledger.rollbackPoint = some point) {budget rest : Nat} {after : DB}
    (rolled : rollbackBlocks (point.forkPoint + 1) point.oldTip point.chainHashes budget run.db =
      .ok (rest, after)) :
    ClearFrom (point.forkPoint + 1) after ∧ Trimmed point.forkPoint run.db after := by
  have blocks := (reached.servedRun node clear).blocks
  have resolved : Resolved (fun _ _ => True) run :=
    reached.resolved (anyAnswers _) fun _ _ _ _ _ _ _ _ _ => trivial
  obtain ⟨episode, _, resolution⟩ := resolved point recorded
  have cleared := blocks.clear_of_rollback resolution (reached.tipped ended point recorded) rolled
  refine ⟨cleared, fun height above => cleared.clear height (by omega), ?_⟩
  exact fun height below => blocksAt_below_rollback blocks.single rolled below

theorem RunUnder.retreats (node : NewChain chain served fork tip)
    (orphaned : OrphanedTip chain low fork top db setup)
    (reached : RunUnder (StableNode chain served fork tip) setup db run) :
    Retreats chain fork top tip db run := by
  have halted := reached.halted node orphaned
  have items := reached.items stableNode_answers
  have same := reached.setup_eq
  refine ⟨same ▸ orphaned.start, halted.untouched, halted.handed, ?_, ?_, ?_⟩
  · intro popped queryFails located
    subst same
    obtain ⟨first, success, broken⟩ :=
      halted.breaks reached.known node items orphaned located queryFails
    have start := orphaned.start
    refine ⟨first.trans start,
      parkedEpisode ⟨popped.blockNum - 1, run.setup.seedHash, chain top⟩ popped, ?_, ?_⟩
    · simp [Run.checkedForDispatch, success, broken, Run.startReorgEpisode]
    · simp [parkedEpisode, ReorgEpisode.anchor, first, start]
  · intro episode oracle active honest
    subst same
    exact halted.walks node orphaned active honest
  · intro ended point recorded
    have located := halted.point point recorded
    refine ⟨located, fun budget rest after rolled => ?_⟩
    rw [← located, ← halted.untouched] at rolled
    have trimmed := (reached.trims node orphaned.clear_setup ended recorded rolled).2
    rwa [located, halted.untouched] at trimmed

/-! ### The run that refills -/

theorem RunUnder.refills (node : NewChain chain served fork tip) (long : fork ≤ tip)
    (ancestors : ∀ height, low ≤ height → height ≤ fork →
      getStoredBlockHash db height = .ok (chain height))
    (restarted : Restarted chain fork db setup)
    (reached : RunUnder (StableNode chain served fork tip) setup db run) :
    Refills chain low fork run := by
  have run_served := reached.servedRun node restarted.clear_setup
  have following := reached.following node long restarted
  have same := reached.setup_eq
  have start := restarted.start
  refine ⟨same ▸ start, same ▸ restarted.seeded, ⟨following.opened, following.unresolved⟩, ?_,
    run_served.blocks.single, ?_, ?_⟩
  · intro item handed
    refine ⟨(run_served.onChain.line item (List.mem_append_left _ handed)).above, ?_⟩
    intro height above below
    rcases run_served.known.handoff.covered_handed handed (by rw [same, start]; omega) below with
      hole | covered
    · simp [following.holes] at hole
    · exact covered
  · exact fun height above doc present => run_served.no_orphan node start above present
  · intro last called height above below
    by_cases ancestor : height ≤ fork
    · rw [getStoredBlockHash_congr (following.kept height ancestor)]
      exact ancestors height above ancestor
    · exact following.filled run_served node start reached.storedOnSuccess called (by omega) below

/-! ### The call -/

theorem resolveSeed_stored {startBlock : Int} {stored : Except String String} {seedHash : String}
    (positive : 0 < startBlock) (seeded : resolveSeed startBlock ∅ stored = .ok seedHash) :
    stored = .ok seedHash := by
  rw [resolveSeed, if_neg (by omega)] at seeded
  cases stored with
  | error error => simp [Except.mapError] at seeded
  | ok hash => simpa [Except.mapError] using seeded

/-- The run started above an orphan. -/
def StartedOrphaned (chain : Int → String) (served : Int → ConversionResult)
    (low fork top tip : Int) (db : DB) (run : Run) : Prop :=
  ∃ setup, OrphanedTip chain low fork top db setup ∧
    RunUnder (StableNode chain served fork tip) setup db run

/-- The store from which a run can start right above the fork point. -/
structure ReadyAbove (fork : Int) (before after : DB) : Prop where
  clear : ClearFrom (fork + 1) after
  kept : ∀ height, height ≤ fork → blocksAt after height = blocksAt before height

def StartedAbove (chain : Int → String) (served : Int → ConversionResult) (fork tip : Int)
    (db : DB) (run : Run) : Prop :=
  ∃ setup after, ReadyAbove fork db after ∧ Restarted chain fork after setup ∧
    RunUnder (StableNode chain served fork tip) setup after run

/-- Either no orphan was found, or the run that found one has returned. -/
def Retreated (chain : Int → String) (served : Int → ConversionResult) (low fork top tip : Int)
    (db : DB) (finished : List Run) : Prop :=
  finished = [] ∧ fork = top ∨
    ∃ first, finished = [first] ∧ StartedOrphaned chain served low fork top tip db first

/-- Where the call stands. -/
def Recovering (chain : Int → String) (served : Int → ConversionResult) (low fork top tip : Int)
    (db : DB) (processor : Processor) : Prop :=
  match processor.stage with
  | .seeding startBlock committedHashes _ store => committedHashes = ∅ ∧
      (processor.finished = [] ∧ startBlock = top + 1 ∧ store = db ∨
        Retreated chain served low fork top tip db processor.finished ∧ startBlock = fork + 1 ∧
          ReadyAbove fork db store)
  | .running run =>
      processor.finished = [] ∧ StartedOrphaned chain served low fork top tip db run ∨
        Retreated chain served low fork top tip db processor.finished ∧
          StartedAbove chain served fork tip db run
  | .rollingBack run point => processor.finished = [run] ∧
      StartedOrphaned chain served low fork top tip db run ∧ run.dispatcher.phase = .ended ∧
        run.ledger.rollbackPoint = some point
  | .stopped _ _ => Recovery chain low fork top tip db processor.finished

/-- The call, and the bound of its walk-backs. -/
structure CallRecovers (chain : Int → String) (served : Int → ConversionResult)
    (low fork top tip : Int) (db : DB) (processor : Processor) : Prop where
  configured : processor.configuredStart = top + 1
  recovering : Recovering chain served low fork top tip db processor

theorem StartedOrphaned.retreats (started : StartedOrphaned chain served low fork top tip db run)
    (node : NewChain chain served fork tip) :
    fork < top ∧ Retreats chain fork top tip db run := by
  obtain ⟨setup, orphaned, reached⟩ := started
  exact ⟨orphaned.orphaned, reached.retreats node orphaned⟩

theorem StartedAbove.refills (started : StartedAbove chain served fork tip db run)
    (stored : StoredFork chain low fork top db) (node : NewChain chain served fork tip)
    (long : fork ≤ tip) : Refills chain low fork run := by
  obtain ⟨setup, after, ready, restarted, reached⟩ := started
  refine reached.refills node long (fun height above below => ?_) restarted
  rw [getStoredBlockHash_congr (ready.kept height below)]
  exact stored.ancestors height above below

theorem Retreated.recovery {finished : List Run}
    (retreated : Retreated chain served low fork top tip db finished)
    (node : NewChain chain served fork tip) :
    Recovery chain low fork top tip db finished := by
  rcases retreated with ⟨rfl, _⟩ | ⟨first, rfl, started⟩
  · exact .unstarted
  · obtain ⟨orphaned, retreats⟩ := started.retreats node
    exact .retreats first orphaned retreats

theorem Retreated.recovery_refilled {finished : List Run}
    (retreated : Retreated chain served low fork top tip db finished)
    (node : NewChain chain served fork tip) (refills : Refills chain low fork run) :
    Recovery chain low fork top tip db (finished ++ [run]) := by
  rcases retreated with ⟨rfl, reached⟩ | ⟨first, rfl, started⟩
  · exact .follows run reached refills
  · obtain ⟨orphaned, retreats⟩ := started.retreats node
    exact .refills first run orphaned retreats refills

/-- The runs so far, at every stage of the call. -/
theorem Recovering.recovery (recovering : Recovering chain served low fork top tip db processor)
    (stored : StoredFork chain low fork top db) (node : NewChain chain served fork tip)
    (long : fork ≤ tip) : Recovery chain low fork top tip db processor.runs := by
  unfold Recovering at recovering
  unfold Processor.runs
  cases located : processor.stage with
  | seeding =>
      simp only [located] at recovering
      rcases recovering.2 with ⟨none, _⟩ | ⟨retreated, _⟩
      · rw [none]
        exact .unstarted
      · exact retreated.recovery node
  | running =>
      simp only [located] at recovering
      rcases recovering with ⟨none, started⟩ | ⟨retreated, started⟩
      · obtain ⟨orphaned, retreats⟩ := started.retreats node
        rw [none]
        exact .retreats _ orphaned retreats
      · exact retreated.recovery_refilled node (started.refills stored node long)
  | rollingBack =>
      simp only [located] at recovering
      obtain ⟨only, started, _⟩ := recovering
      obtain ⟨orphaned, retreats⟩ := started.retreats node
      rw [only]
      exact .retreats _ orphaned retreats
  | stopped =>
      simp only [located] at recovering
      exact recovering

theorem StoredFork.readyAbove (stored : StoredFork chain low fork top db) (reached : fork = top) :
    ReadyAbove fork db db :=
  ⟨reached ▸ stored.clearFrom, fun _ _ => rfl⟩

/-- A run that finds the store ready starts with a matching seed. -/
theorem ReadyAbove.startedAbove {after : DB} (ready : ReadyAbove fork db after)
    (stored : StoredFork chain low fork top db) (start : setup.runStartBlock = fork + 1)
    (seeded : getStoredBlockHash after fork = .ok setup.seedHash) (episodeRollbacks : Nat)
    (heightRollbacks : HeightMap Nat) :
    StartedAbove chain served fork tip db
      (Run.start setup episodeRollbacks heightRollbacks after) := by
  rw [getStoredBlockHash_congr (ready.kept fork (Int.le_refl _)),
    stored.ancestors fork stored.started (Int.le_refl _), Except.ok.injEq] at seeded
  exact ⟨setup, after, ready, ⟨ready.clear, start, seeded.symm⟩, ⟨_, _, .refl⟩⟩

/-- The run of a new processor on the stored fork. -/
theorem StoredFork.started_run (stored : StoredFork chain low fork top db)
    (start : setup.runStartBlock = top + 1) (configured : setup.configuredStart = top + 1)
    (seeded : getStoredBlockHash db top = .ok setup.seedHash) (episodeRollbacks : Nat)
    (heightRollbacks : HeightMap Nat) :
    StartedOrphaned chain served low fork top tip db
        (Run.start setup episodeRollbacks heightRollbacks db) ∨
      fork = top ∧ StartedAbove chain served fork tip db
        (Run.start setup episodeRollbacks heightRollbacks db) := by
  have reached := stored.reached
  by_cases ready : fork = top
  · subst ready
    exact .inr ⟨rfl, (stored.readyAbove rfl).startedAbove stored start seeded _ _⟩
  · obtain ⟨hash, found, usable, differs⟩ := stored.orphans top (by omega) (Int.le_refl _)
    rw [seeded, Except.ok.injEq] at found
    subst found
    exact .inl ⟨setup, ⟨stored, by omega, start, configured, usable, differs⟩, ⟨_, _, .refl⟩⟩

theorem StartedOrphaned.ready (started : StartedOrphaned chain served low fork top tip db run)
    (node : NewChain chain served fork tip) (ended : run.dispatcher.phase = .ended)
    {point : RollbackPoint} (recorded : run.ledger.rollbackPoint = some point)
    {budget rest : Nat} {after : DB}
    (rolled : rollbackBlocks (point.forkPoint + 1) point.oldTip point.chainHashes budget run.db =
      .ok (rest, after)) :
    point.forkPoint = fork ∧ run.ledger.committedHashes = ∅ ∧ ReadyAbove fork db after := by
  obtain ⟨setup, orphaned, reached⟩ := started
  have halted := reached.halted node orphaned
  have located := halted.point point recorded
  obtain ⟨cleared, trimmed⟩ := reached.trims node orphaned.clear_setup ended recorded rolled
  rw [located] at cleared trimmed
  exact ⟨located, halted.uncommitted, cleared, halted.untouched ▸ trimmed.below⟩

theorem CallRecovers.step (recovers : CallRecovers chain served low fork top tip db processor)
    (stored : StoredFork chain low fork top db) (node : NewChain chain served fork tip)
    (long : fork ≤ tip)
    (step : ProcessStep (fun _ => StableNode chain served fork tip) processor next) :
    CallRecovers chain served low fork top tip db next := by
  obtain ⟨configured, recovering⟩ := recovers
  have runs := recovering.recovery stored node long
  have bottom := stored.bottom
  have started := stored.started
  have reached := stored.reached
  unfold Recovering at recovering
  unfold Processor.runs at runs
  cases step with
  | seedFails startBlock committedHashes guards store error located =>
      simp only [located] at runs
      exact ⟨configured, runs⟩
  | starts startBlock committedHashes guards store queryFails seedHash located seeded =>
      simp only [located] at recovering
      refine ⟨configured, ?_⟩
      obtain ⟨rfl, ⟨none, rfl, rfl⟩ | ⟨retreated, rfl, ready⟩⟩ := recovering
      · have answered := queryStoredHash_ok (resolveSeed_stored (by omega) seeded)
        rw [Int.add_sub_cancel] at answered
        change _ = Except.ok (processor.setup (top + 1) seedHash).seedHash at answered
        rcases stored.started_run rfl configured answered _ _ with orphaned | ⟨same, above⟩
        · exact .inl ⟨none, orphaned⟩
        · exact .inr ⟨.inl ⟨none, same⟩, above⟩
      · have answered := queryStoredHash_ok (resolveSeed_stored (by omega) seeded)
        rw [Int.add_sub_cancel] at answered
        change _ = Except.ok (processor.setup (fork + 1) seedHash).seedHash at answered
        exact .inr ⟨retreated, ready.startedAbove stored rfl answered _ _⟩
  | steps run move located able =>
      simp only [located] at recovering
      refine ⟨configured, ?_⟩
      rcases recovering with
        ⟨none, setup, orphaned, before⟩ | ⟨retreated, setup, after, ready, restarted, before⟩
      · exact .inl ⟨none, setup, orphaned, before.step able⟩
      · exact .inr ⟨retreated, setup, after, ready, restarted, before.step able⟩
  | stops run error located ended =>
      simp only [located] at runs
      exact ⟨configured, runs⟩
  | rollsBack run point located ended recorded =>
      simp only [located] at recovering
      refine ⟨configured, ?_⟩
      rcases recovering with ⟨none, orphaned⟩ | ⟨retreated, above⟩
      · exact ⟨by simp [none], orphaned, ended, recorded⟩
      · rw [(above.refills stored node long).calm.2] at recorded
        cases recorded
  | rollbackStops run point budget error located =>
      simp only [located] at runs
      exact ⟨configured, runs⟩
  | restarts run point budget rest after located rolled =>
      simp only [located] at recovering
      obtain ⟨only, orphaned, ended, recorded⟩ := recovering
      obtain ⟨same, uncommitted, ready⟩ := orphaned.ready node ended recorded rolled
      exact ⟨configured, uncommitted, .inr ⟨.inr ⟨run, only, orphaned⟩, by rw [same], ready⟩⟩

/-- A new processor on the stored fork. -/
abbrev restartCall (workers : Nat) (top : Int) (db : DB) : Processor :=
  Processor.call workers (top + 1) none ∅ db

theorem callRecovers_start (workers : Nat) :
    CallRecovers chain served low fork top tip db (restartCall workers top db) :=
  ⟨rfl, rfl, .inl ⟨rfl, rfl, rfl⟩⟩

theorem call_recovers (stored : StoredFork chain low fork top db)
    (node : NewChain chain served fork tip) (long : fork ≤ tip) {workers : Nat}
    (reached : CallUnder (fun _ => StableNode chain served fork tip)
      (restartCall workers top db) processor) :
    CallRecovers chain served low fork top tip db processor :=
  reached.invariant (callRecovers_start workers) fun _ _ recovers enabled =>
    recovers.step stored node long (process_step enabled)

end ShinzoGenerator.Indexer
