import ShinzoGenerator.Indexer.RunSteps

/-! The control invariants of a run: what the collector's position says about
the episode and the held dispatch, and what an episode or a cancellation rules
out for the rest of the run. -/

set_option autoImplicit false

namespace ShinzoGenerator.Indexer

open Chains Defra

/-- The runs whose moves all satisfy `allowed`. -/
def restricted (allowed : Run → Move → Prop) : GuardedSystem Run Move :=
  processBlocksOnce.restrict allowed

theorem restricted_collect {allowed : Run → Move → Prop} {run : Run} {move : CollectMove}
    (enabled : (restricted allowed).enabled run (.collect move)) :
    CollectStep (fun move => allowed run (.collect move)) run
      ((restricted allowed).effect run (.collect move)) :=
  collect_step enabled.1 enabled.2

/-- An invariant of a run, goroutine by goroutine. -/
theorem restricted_preserves {allowed : Run → Move → Prop} {property : Run → Prop}
    (cancel : ∀ run, property run →
      property { run with ledger := { run.ledger with ctxDone := true } })
    (dispatch : ∀ run move, property run → allowed run (.dispatch move) →
      dispatchEnabled run.setup.workers run.check.nextToCommit run.ledger.ctxDone
        run.dispatcher move →
      property { run with dispatcher := dispatchEffect run.dispatcher move })
    (pool : ∀ run move, property run → allowed run (.pool move) →
      poolEnabled run.setup.workers run.ledger.ctxDone run.pool run.db move →
      property
        { run with
          pool := (poolEffect run.pool run.db move).1
          db := (poolEffect run.pool run.db move).2 })
    (collect : ∀ run next, property run →
      CollectStep (fun move => allowed run (.collect move)) run next → property next)
    (closeCompletions : ∀ run, property run → run.dispatcher.phase = .awaitingStores →
      run.pool.storeClosed = true → run.pool.storeChan = [] → run.pool.busy = 0 →
      property
        { run with
          pool := { run.pool with completionsClosed := true }
          dispatcher := { run.dispatcher with phase := .awaitingCollector } })
    (finish : ∀ run, property run → run.dispatcher.phase = .awaitingCollector →
      run.pc = .returned →
      property
        { run with
          ledger :=
            { run.ledger with
              rollbackPoint := run.ledger.rollbackPoint.map fun point =>
                { point with oldTip := run.dispatcher.dispatchedUpTo } }
          dispatcher := { run.dispatcher with phase := .ended } })
    (run : Run) (move : Move) (holds : property run)
    (enabled : (restricted allowed).enabled run move) :
    property ((restricted allowed).effect run move) := by
  cases move with
  | cancel => exact cancel run holds
  | dispatch move => exact dispatch run move holds enabled.2 enabled.1
  | pool move => exact pool run move holds enabled.2 enabled.1
  | collect move => exact collect run _ holds (restricted_collect enabled)
  | closeCompletions =>
      obtain ⟨phase, closed, queued, busy⟩ := enabled.1
      exact closeCompletions run holds phase closed queued busy
  | finish => exact finish run holds enabled.1.1 enabled.1.2

/-! ### Position and episode -/

/-- A finalization and its episode: a pop-time one was confirmed by the successor
of its base, the two highest heights popped so far. -/
structure Finalizing (fin : Finalization) (episode : ReorgEpisode) (nextToCommit : Int) :
    Prop where
  kind : episode.stalePinned = fin.confirmed.isNone
  popTime : ∀ successor, fin.confirmed = some successor →
    fin.rest = [] ∧ successor.blockNum = nextToCommit - 1 ∧
      episode.baseHeight = nextToCommit - 2 ∧ successor.usable = true ∧
      successor.parentHash = episode.lastParkedHash

theorem Finalizing.stalePinned_of_confirmed {fin : Finalization} {episode : ReorgEpisode}
    {nextToCommit : Int} {successor : BlockResult} (finalizing : Finalizing fin episode nextToCommit)
    (confirmed : fin.confirmed = some successor) : episode.stalePinned = false := by
  rw [finalizing.kind, confirmed]
  rfl

/-- An episode that waits for its confirmation. -/
def Waits (run : Run) (base : Int) : Prop :=
  ∀ episode, run.ledger.episode = some episode →
    episode.stalePinned = false ∧ episode.baseHeight = base

/-- What the collector's position says about the run. -/
def Posture (run : Run) : Prop :=
  match run.pc with
  | .loop | .hold | .select | .returned =>
      (∀ episode, run.ledger.episode = some episode → episode.stalePinned = false) ∧
        (run.ledger.ctxDone = false → Waits run (run.check.nextToCommit - 1))
  | .check next => run.check.holdingDispatch = none ∧ run.ledger.rollbackPoint = none ∧
      run.ledger.episode = none ∧ next.blockNum = run.check.nextToCommit - 1
  | .resolve item | .refetch item => run.check.holdingDispatch = none ∧
      run.ledger.rollbackPoint = none ∧ item.blockNum = run.check.nextToCommit - 1 ∧
      run.ledger.episode.isSome = true ∧ Waits run (run.check.nextToCommit - 2)
  | .drain fin | .tail fin | .walk fin => run.check.holdingDispatch = none ∧
      run.ledger.rollbackPoint = none ∧
      ∃ episode, run.ledger.episode = some episode ∧
        Finalizing fin episode run.check.nextToCommit

/-- Pending results are filed under their own heights. -/
def Filed (run : Run) : Prop :=
  ∀ height result, run.check.pending.lookup height = some result → result.blockNum = height

variable {allowed : CollectMove → Prop} {run next : Run}

theorem Filed.collect (filed : Filed run) (step : CollectStep allowed run next) : Filed next := by
  have erased : ∀ height result, run.check.popped.pending.lookup height = some result →
      result.blockNum = height := by
    intro height result found
    by_cases same : height = run.check.nextToCommit
    · subst same
      simp [Checker.popped] at found
    · exact filed height result (by simpa [Checker.popped, AList.lookup_erase_ne same] using found)
  cases step with
  | popDropped | popParked | popChecked => exact erased
  | recvResult result =>
      intro height other found
      by_cases same : height = result.blockNum
      · subst same
        simp only [AList.lookup_insert, Option.some.injEq] at found
        rw [← found]
      · rw [AList.lookup_insert_ne same] at found
        exact filed height other found
  | _ => exact filed

theorem Run.afterSelect_cases (run : Run) :
    run.afterSelect = .returned ∧ run.sawResultsClosed = true ∧ run.sawCompletionsClosed = true ∨
      run.afterSelect = .loop := by
  unfold Run.afterSelect
  split
  · rename_i closed
    rw [Bool.and_eq_true] at closed
    exact .inl ⟨rfl, closed⟩
  · exact .inr rfl

/-- The positions at which the collector is between two tasks. -/
def Pc.resting : Pc → Bool
  | .loop | .hold | .select | .returned => true
  | _ => false

theorem Run.afterSelect_resting (run : Run) : run.afterSelect.resting = true := by
  rcases run.afterSelect_cases with ⟨same, _⟩ | same <;> simp [same, Pc.resting]

theorem posture_resting (resting : run.pc.resting = true) :
    Posture run ↔
      (∀ episode, run.ledger.episode = some episode → episode.stalePinned = false) ∧
        (run.ledger.ctxDone = false → Waits run (run.check.nextToCommit - 1)) := by
  unfold Posture
  cases same : run.pc <;> simp [same, Pc.resting] at resting ⊢

/-- A recorded rollback point or fatal error comes with a cancelled run. -/
structure Stopping (ledger : Ledger) : Prop where
  rolledBack : ledger.rollbackPoint.isSome = true → ledger.ctxDone = true
  failed : ledger.fatalErr.isSome = true → ledger.ctxDone = true

theorem Stopping.batch {ledger after : Ledger} {batch : List StoreCompletion}
    {rest : Option (List StoreCompletion)} {suppress : Bool} (stopping : Stopping ledger)
    (applied : BatchApplied ledger after batch rest suppress) : Stopping after := by
  constructor
  · intro recorded
    rw [applied.rollbackPoint] at recorded
    exact applied.cancelled (stopping.rolledBack recorded)
  · intro recorded
    rcases applied.fatal with same | ⟨_, cancelled⟩
    · rw [same] at recorded
      exact applied.cancelled (stopping.failed recorded)
    · exact cancelled

theorem Concluded.episode_none {fin : Finalization} {ledger : Ledger}
    {resolved : Option ReorgEpisode} (concluded : Concluded allowed run fin ledger resolved) :
    ledger.episode = none := by
  cases concluded <;> rfl

theorem Concluded.ctxDone {fin : Finalization} {ledger : Ledger}
    {resolved : Option ReorgEpisode} (concluded : Concluded allowed run fin ledger resolved) :
    ledger.ctxDone = true := by
  cases concluded with
  | abandoned cancelled => exact cancelled
  | failed | resolved => rfl

theorem Concluded.stopping {fin : Finalization} {ledger : Ledger}
    {resolved : Option ReorgEpisode} (concluded : Concluded allowed run fin ledger resolved) :
    Stopping ledger :=
  ⟨fun _ => concluded.ctxDone, fun _ => concluded.ctxDone⟩

theorem Stopping.collect (stopping : Stopping run.ledger) (step : CollectStep allowed run next) :
    Stopping next.ledger := by
  cases step with
  | waitFails => exact ⟨fun _ => rfl, fun _ => rfl⟩
  | breaks | reanchors | refills => exact ⟨stopping.rolledBack, stopping.failed⟩
  | receives _ _ _ _ applied | receivesOpening _ _ _ _ _ applied
  | drainReceives _ _ _ _ _ _ applied => exact stopping.batch applied
  | concludesPop _ _ _ _ _ _ concluded => exact concluded.stopping
  | concludesBatch _ _ _ _ _ _ concluded applied
  | concludesOpening _ _ _ _ _ _ _ concluded applied => exact concluded.stopping.batch applied
  | _ => exact stopping

theorem fetchAndConvertBlock_blockNum (height : Int) (reply : Except String ConversionResult) :
    (fetchAndConvertBlock height reply).blockNum = height := by
  cases reply <;> rfl

/-- An episode that a batch opened, seen from its finalization. -/
theorem BatchApplied.finalizing {ledger after : Ledger} {batch rest : List StoreCompletion}
    (applied : BatchApplied ledger after batch (some rest) false) (nextToCommit : Int) :
    after.rollbackPoint = none ∧ ∃ episode, after.episode = some episode ∧
      Finalizing { rest } episode nextToCommit := by
  obtain ⟨running, completion, _, _, opened⟩ := applied.opened rest rfl
  refine ⟨?_, _, opened, rfl, fun _ impossible => by cases impossible⟩
  rw [applied.rollbackPoint]
  cases point : ledger.rollbackPoint <;> simp [Ledger.ended, point] at running ⊢

/-- A resting run stays in posture as long as no episode appears and its base moves along. -/
theorem posture_of_free (resting : next.pc.resting = true) (free : next.ledger.episode = none) :
    Posture next := by
  rw [posture_resting resting]
  unfold Waits
  simp [free]

theorem posture_of_same (posture : Posture run) (before : run.pc.resting = true)
    (after : next.pc.resting = true) (episode : next.ledger.episode = run.ledger.episode)
    (cancelled : next.ledger.ctxDone = false → run.ledger.ctxDone = false)
    (cursor : next.ledger.ctxDone = false →
      next.check.nextToCommit = run.check.nextToCommit) : Posture next := by
  rw [posture_resting before] at posture
  rw [posture_resting after]
  refine ⟨by rw [episode]; exact posture.1, fun running => ?_⟩
  unfold Waits
  rw [episode, cursor running]
  exact posture.2 (cancelled running)

theorem Posture.at_pc {pc : Pc} (posture : Posture run) (located : run.pc = pc) :
    Posture { run with pc } :=
  located ▸ posture

theorem Posture.checking {popped : BlockResult} (posture : Posture run)
    (located : run.pc = .check popped) :
    run.check.holdingDispatch = none ∧ run.ledger.rollbackPoint = none ∧
      run.ledger.episode = none ∧ popped.blockNum = run.check.nextToCommit - 1 :=
  posture.at_pc located

theorem Posture.waiting {item : BlockResult} (posture : Posture run)
    (located : run.pc.waitsOn item) :
    run.check.holdingDispatch = none ∧ run.ledger.rollbackPoint = none ∧
      item.blockNum = run.check.nextToCommit - 1 ∧ run.ledger.episode.isSome = true ∧
      Waits run (run.check.nextToCommit - 2) := by
  rcases located with located | located
  · exact posture.at_pc located
  · exact posture.at_pc located

theorem Posture.finalizing {fin : Finalization} (posture : Posture run)
    (located : run.pc = .drain fin ∨ run.pc = .tail fin ∨ run.pc = .walk fin) :
    run.check.holdingDispatch = none ∧ run.ledger.rollbackPoint = none ∧
      ∃ episode, run.ledger.episode = some episode ∧
        Finalizing fin episode run.check.nextToCommit := by
  rcases located with located | located | located
  · exact posture.at_pc located
  · exact posture.at_pc located
  · exact posture.at_pc located

/-- The drain raises at most the anchor of the episode it finalizes. -/
theorem Finalizing.raised {fin : Finalization} {before after : ReorgEpisode} {nextToCommit : Int}
    {batch : List StoreCompletion} (finalizing : Finalizing fin before nextToCommit)
    (raised : Raised batch before after) : Finalizing fin after nextToCommit := by
  refine ⟨raised.stalePinned.trans finalizing.kind, fun successor confirmed => ?_⟩
  have popTime : before.stalePinned = false := by rw [finalizing.kind, confirmed]; rfl
  rw [raised.popTime popTime]
  exact finalizing.popTime successor confirmed

theorem Posture.collect (posture : Posture run) (filed : Filed run)
    (stopping : Stopping run.ledger) (step : CollectStep allowed run next) : Posture next := by
  cases step with
  | idle located | holds located | abandons located =>
      exact posture_of_same posture (by rw [located]; rfl) rfl rfl id fun _ => rfl
  | popDropped popped located _ _ ending =>
      refine posture_of_same posture (by rw [located]; rfl) rfl rfl id fun running => ?_
      have cancelled := ending.elim stopping.rolledBack id
      exact absurd cancelled (by simpa using running)
  | popParked popped episode located free found unresolved running active =>
      obtain ⟨_, waits⟩ := (posture_resting (by rw [located]; rfl)).mp posture
      refine ⟨free, unresolved, ?_, by simp [active], ?_⟩
      · simp [filed _ _ found, Checker.popped]
      · intro other same
        obtain ⟨kind, base⟩ := waits running other same
        refine ⟨kind, ?_⟩
        simp only [base, Checker.popped]
        omega
  | popChecked popped located free found unresolved running inactive =>
      refine ⟨free, unresolved, inactive, ?_⟩
      simp [filed _ _ found, Checker.popped]
  | hole popped located | passes popped _ located =>
      exact posture_of_free rfl (posture.checking located).2.2.1
  | breaks popped signal _ located =>
      obtain ⟨_, _, _, numbered⟩ := posture.checking located
      refine ⟨?_, fun _ => ?_⟩
      · rintro episode ⟨⟩
        rfl
      · rintro episode ⟨⟩
        exact ⟨rfl, numbered⟩
  | waitLeaves item located leaves =>
      obtain ⟨_, unresolved, _, _, waits⟩ := posture.waiting located
      refine ⟨fun episode active => (waits episode active).1, fun running => ?_⟩
      intro episode active
      rcases leaves with inactive | resolved | cancelled
      · rw [inactive] at active
        cases active
      · rw [unresolved] at resolved
        cases resolved
      · exact absurd cancelled (by simpa using running)
  | waitFails item error located => exact posture_of_free rfl rfl
  | confirms item episode located active unresolved usable chained =>
      obtain ⟨_, _, numbered, _, waits⟩ := posture.waiting (.inl located)
      obtain ⟨kind, base⟩ := waits episode active
      refine ⟨rfl, unresolved, episode, active, kind, ?_⟩
      rintro successor ⟨⟩
      exact ⟨rfl, numbered, base, usable, chained⟩
  | reanchors item episode located active =>
      obtain ⟨_, _, numbered, _, waits⟩ := posture.waiting (.inl located)
      have kind := (waits episode active).1
      refine ⟨?_, fun _ => ?_⟩
      · rintro other ⟨⟩
        exact kind
      · rintro other ⟨⟩
        exact ⟨kind, numbered⟩
  | refills item episode located active =>
      obtain ⟨free, unresolved, numbered, _, waits⟩ := posture.waiting (.inl located)
      refine ⟨free, unresolved, numbered, rfl, ?_⟩
      rintro other ⟨⟩
      exact waits episode active
  | refetches item reply _ located =>
      obtain ⟨free, unresolved, numbered, active, waits⟩ := posture.waiting (.inr located)
      exact ⟨free, unresolved, (fetchAndConvertBlock_blockNum _ _).trans numbered, active, waits⟩
  | recvResult _ located | resultsClosed located | completionsClosed located | sends _ located
  | closesStore located =>
      exact posture_of_same posture (by rw [located]; rfl) (Run.afterSelect_resting _) rfl id
        fun _ => rfl
  | receives completion ledger located _ applied =>
      have same : ledger.episode = run.ledger.episode := by
        cases active : run.ledger.episode with
        | none => exact applied.closed rfl active
        | some episode =>
            obtain ⟨popTime, _⟩ := (posture_resting (by rw [located]; rfl)).mp posture
            obtain ⟨_, after, found, raised⟩ := applied.kept episode active
            rw [found, raised.popTime (popTime episode active)]
      refine posture_of_same posture (by rw [located]; rfl) (Run.afterSelect_resting _) same ?_
        fun _ => rfl
      intro running
      by_contra cancelled
      rw [Bool.not_eq_false] at cancelled
      simp [applied.cancelled cancelled] at running
  | receivesOpening completion ledger rest located _ applied =>
      exact ⟨rfl, applied.finalizing _⟩
  | drainReceives fin completion ledger rest located _ applied =>
      obtain ⟨free, unresolved, before, active, finalizing⟩ :=
        posture.finalizing (located.imp_right .inl)
      obtain ⟨_, after, found, raised⟩ := applied.kept before active
      have parts : run.check.holdingDispatch = none ∧ ledger.rollbackPoint = none ∧
          ∃ episode, ledger.episode = some episode ∧
            Finalizing fin episode run.check.nextToCommit :=
        ⟨free, applied.rollbackPoint.trans unresolved, after, found, finalizing.raised raised⟩
      unfold Posture
      rcases located with located | located
      · simpa only [Run.receive, located] using parts
      · simpa only [Run.receive, located] using parts
  | drainSettles fin located => exact posture.finalizing (.inl located)
  | drainEnds fin located => exact posture.finalizing (.inr (.inl located))
  | concludesPop fin confirmed ledger resolved located _ concluded =>
      exact posture_of_free rfl concluded.episode_none
  | concludesBatch fin middle ledger resolved located _ concluded applied =>
      exact posture_of_free (Run.afterSelect_resting _)
        (applied.closed rfl concluded.episode_none)
  | concludesOpening fin middle ledger resolved rest located _ concluded applied =>
      exact ⟨rfl, applied.finalizing _⟩

/-! ### No hand-off after an episode or the close -/

/-- Nothing more may reach the pool: the store channel is closed or an episode has opened. -/
def Sealed (run : Run) : Prop :=
  run.doneFired = true ∨ run.trace.opened ≠ []

structure Sealing (run : Run) : Prop where
  closed : run.pool.storeClosed = run.doneFired
  closes : run.trace.closes = run.doneFired.toNat
  cancelled : run.doneFired = true → run.ledger.ctxDone = true
  noHeld : Sealed run → run.check.holdingDispatch = none
  noCheck : Sealed run → ∀ popped, run.pc ≠ .check popped
  leaving : Sealed run → run.ledger.episode.isSome = true ∨ run.ledger.ctxDone = true

theorem resting_not_check {pc : Pc} (resting : pc.resting = true) (popped : BlockResult) :
    pc ≠ .check popped := by
  rintro rfl
  cases resting

/-- A move that neither seals the run nor checks an item keeps the seal. -/
theorem Sealing.keep (sealing : Sealing run)
    (flags : next.doneFired = run.doneFired ∧ next.trace.opened = run.trace.opened)
    (closed : next.pool.storeClosed = run.pool.storeClosed)
    (closes : next.trace.closes = run.trace.closes)
    (held : next.check.holdingDispatch = run.check.holdingDispatch ∨
      next.check.holdingDispatch = none)
    (unchecked : ∀ popped, next.pc ≠ .check popped)
    (cancelled : run.ledger.ctxDone = true → next.ledger.ctxDone = true)
    (leaving : run.ledger.episode.isSome = true →
      next.ledger.episode.isSome = true ∨ next.ledger.ctxDone = true) : Sealing next := by
  have same : Sealed next ↔ Sealed run := by rw [Sealed, Sealed, flags.1, flags.2]
  constructor
  case closed => rw [closed, flags.1, sealing.closed]
  case closes => rw [closes, flags.1, sealing.closes]
  case cancelled =>
    rw [flags.1]
    exact fun fired => cancelled (sealing.cancelled fired)
  case noHeld =>
    rw [same]
    intro sealedRun
    rcases held with kept | gone
    · rw [kept, sealing.noHeld sealedRun]
    · exact gone
  case noCheck => exact fun _ => unchecked
  case leaving =>
    rw [same]
    exact fun sealedRun => (sealing.leaving sealedRun).elim leaving fun done => .inr (cancelled done)

theorem Sealing.collect (sealing : Sealing run) (posture : Posture run)
    (step : CollectStep allowed run next) : Sealing next := by
  have unchecked : ∀ popped, run.afterSelect ≠ .check popped :=
    resting_not_check run.afterSelect_resting
  have finalizing_unchecked : ∀ {fin}, (run.pc = .drain fin ∨ run.pc = .tail fin) →
      ∀ popped, run.pc ≠ .check popped := by
    rintro fin (located | located) popped <;> simp [located]
  cases step with
  | popChecked popped located _ _ _ running inactive =>
      have unsealed : ¬ Sealed run := by
        intro sealedRun
        rcases sealing.leaving sealedRun with active | cancelled
        · simp [inactive] at active
        · simp [running] at cancelled
      exact ⟨sealing.closed, sealing.closes, sealing.cancelled, sealing.noHeld,
        fun sealedRun => absurd sealedRun unsealed, sealing.leaving⟩
  | passes popped _ located =>
      have unsealed : ¬ Sealed run := fun sealedRun => sealing.noCheck sealedRun popped located
      exact ⟨sealing.closed, sealing.closes, sealing.cancelled,
        fun sealedRun => absurd sealedRun unsealed, (by rintro _ _ ⟨⟩), sealing.leaving⟩
  | breaks popped signal _ located =>
      exact ⟨sealing.closed, sealing.closes, sealing.cancelled,
        fun _ => (posture.at_pc located).1, (by rintro _ _ ⟨⟩), fun _ => .inl rfl⟩
  | waitFails =>
      exact sealing.keep ⟨rfl, rfl⟩ rfl rfl (.inl rfl) (by rintro _ ⟨⟩) (fun _ => rfl)
        fun _ => .inr rfl
  | reanchors | refills =>
      exact sealing.keep ⟨rfl, rfl⟩ rfl rfl (.inl rfl) (by rintro _ ⟨⟩) id fun _ => .inl rfl
  | confirms | abandons =>
      exact sealing.keep ⟨rfl, rfl⟩ rfl rfl (.inr rfl) (by rintro _ ⟨⟩) id .inl
  | sends => exact sealing.keep ⟨rfl, rfl⟩ rfl rfl (.inr rfl) unchecked id .inl
  | closesStore located cancelled unfired =>
      refine ⟨rfl, ?_, fun _ => cancelled, fun _ => rfl, fun _ => unchecked, fun _ => .inr cancelled⟩
      simp [sealing.closes, unfired]
  | receives completion ledger located _ applied =>
      refine sealing.keep ⟨rfl, rfl⟩ rfl rfl (.inl rfl) unchecked applied.cancelled fun active => ?_
      obtain ⟨episode, found⟩ := Option.isSome_iff_exists.mp active
      obtain ⟨_, after, same, _⟩ := applied.kept episode found
      exact .inl (by simp [same])
  | receivesOpening completion ledger rest located _ applied =>
      obtain ⟨_, episode, found, _⟩ := applied.finalizing run.check.nextToCommit
      exact ⟨sealing.closed, sealing.closes, fun fired => applied.cancelled (sealing.cancelled fired),
        fun _ => rfl, (by rintro _ _ ⟨⟩), fun _ => .inl (by simp [found])⟩
  | drainReceives fin completion ledger rest located _ applied =>
      refine sealing.keep ⟨rfl, rfl⟩ rfl rfl (.inl rfl) (finalizing_unchecked located)
        applied.cancelled fun active => ?_
      obtain ⟨episode, found⟩ := Option.isSome_iff_exists.mp active
      obtain ⟨_, after, same, _⟩ := applied.kept episode found
      exact .inl (by simp [same])
  | concludesPop _ _ _ _ _ _ concluded =>
      exact sealing.keep ⟨rfl, rfl⟩ rfl rfl (.inl rfl) (by rintro _ ⟨⟩)
        (fun _ => concluded.ctxDone) fun _ => .inr concluded.ctxDone
  | concludesBatch _ _ _ _ _ _ concluded applied =>
      have cancelled := applied.cancelled concluded.ctxDone
      exact sealing.keep ⟨rfl, rfl⟩ rfl rfl (.inl rfl) unchecked (fun _ => cancelled)
        fun _ => .inr cancelled
  | concludesOpening _ _ _ _ _ _ _ concluded applied =>
      have cancelled := applied.cancelled concluded.ctxDone
      exact ⟨sealing.closed, sealing.closes, fun _ => cancelled, fun _ => rfl, (by rintro _ _ ⟨⟩),
        fun _ => .inr cancelled⟩
  | recvResult => exact sealing.keep ⟨rfl, rfl⟩ rfl rfl (.inl rfl) unchecked id .inl
  | resultsClosed | completionsClosed =>
      exact sealing.keep ⟨rfl, rfl⟩ rfl rfl (.inl rfl)
        (resting_not_check (Run.afterSelect_resting _)) id .inl
  | _ => exact sealing.keep ⟨rfl, rfl⟩ rfl rfl (.inl rfl) (by rintro _ ⟨⟩) id .inl

/-! ### The control invariant -/

/-- What is known about the collector in every state of a run. -/
structure Control (run : Run) : Prop where
  filed : Filed run
  stopping : Stopping run.ledger
  posture : Posture run
  sealing : Sealing run

theorem control_start (setup : Setup) (episodeRollbacks : Nat) (heightRollbacks : HeightMap Nat)
    (db : DB) : Control (Run.start setup episodeRollbacks heightRollbacks db) := by
  constructor
  · intro height result found
    simp [Run.start] at found
  · constructor <;> simp [Run.start]
  · exact posture_of_free rfl rfl
  · constructor <;> simp [Run.start, Sealed]

theorem Posture.cancel (posture : Posture run) :
    Posture { run with ledger := { run.ledger with ctxDone := true } } := by
  unfold Posture at posture ⊢
  cases located : run.pc with
  | loop | hold | select | returned =>
      simp only [located] at posture ⊢
      exact ⟨posture.1, (by intros; contradiction)⟩
  | check | resolve | refetch | drain | tail | walk =>
      simp only [located] at posture ⊢
      exact posture

theorem Sealing.cancel (sealing : Sealing run) :
    Sealing { run with ledger := { run.ledger with ctxDone := true } } :=
  ⟨sealing.closed, sealing.closes, fun _ => rfl, sealing.noHeld, sealing.noCheck,
    fun _ => .inr rfl⟩

/-- Moves of the other goroutines leave the collector's state alone. -/
theorem Control.frame (control : Control run) (setup : next.setup = run.setup)
    (check : next.check = run.check) (ledger : next.ledger = run.ledger)
    (pc : next.pc = run.pc) (doneFired : next.doneFired = run.doneFired)
    (trace : next.trace = run.trace)
    (closed : next.pool.storeClosed = run.pool.storeClosed) : Control next := by
  rcases run with ⟨_, _, _, _, pool, _, _, _, _, _, _, _⟩
  rcases next with ⟨_, _, _, _, pool', _, _, _, _, _, _, _⟩
  simp only at setup check ledger pc doneFired trace closed
  subst setup check ledger pc doneFired trace
  obtain ⟨filed, stopping, posture, sealing⟩ := control
  refine ⟨filed, stopping, posture, ?_⟩
  exact ⟨closed.trans sealing.closed, sealing.closes, sealing.cancelled, sealing.noHeld,
    sealing.noCheck, sealing.leaving⟩

theorem poolEffect_storeClosed (pool : Pool) (db : DB) (move : PoolMove) :
    (poolEffect pool db move).1.storeClosed = pool.storeClosed := by
  cases move <;> rfl

theorem Control.step {allowed : Run → Move → Prop} (run : Run) (move : Move)
    (control : Control run) (enabled : (restricted allowed).enabled run move) :
    Control ((restricted allowed).effect run move) := by
  refine restricted_preserves ?_ ?_ ?_ ?_ ?_ ?_ run move control enabled
  · intro run control
    exact ⟨control.filed, ⟨fun _ => rfl, fun _ => rfl⟩, control.posture.cancel,
      control.sealing.cancel⟩
  · intro run move control _ _
    exact control.frame rfl rfl rfl rfl rfl rfl rfl
  · intro run move control _ _
    exact control.frame rfl rfl rfl rfl rfl rfl (poolEffect_storeClosed _ _ move)
  · intro run next control step
    exact ⟨control.filed.collect step, control.stopping.collect step,
      control.posture.collect control.filed control.stopping step,
      control.sealing.collect control.posture step⟩
  · intro run control _ _ _ _
    exact control.frame rfl rfl rfl rfl rfl rfl rfl
  · intro run control _ returned
    refine ⟨control.filed, ⟨?_, control.stopping.failed⟩, ?_, ?_⟩
    · simpa using control.stopping.rolledBack
    · have resting : run.pc.resting = true := by rw [returned]; rfl
      exact posture_of_same control.posture resting resting rfl id fun _ => rfl
    · exact ⟨control.sealing.closed, control.sealing.closes, control.sealing.cancelled,
        control.sealing.noHeld, control.sealing.noCheck, control.sealing.leaving⟩

/-- A run, from the start of `processBlocksOnce`, whose moves all satisfy `allowed`. -/
structure RunUnder (allowed : Run → Move → Prop) (setup : Setup) (db : DB) (run : Run) : Prop where
  path : ∃ episodeRollbacks heightRollbacks,
    (restricted allowed).Path (Run.start setup episodeRollbacks heightRollbacks db) run

/-- A state of any run of `processBlocksOnce`. -/
abbrev RunOf (setup : Setup) (db : DB) (run : Run) : Prop :=
  RunUnder (fun _ _ => True) setup db run

/-- What holds at the start and is kept by every allowed move holds throughout a run. -/
theorem RunUnder.invariant {allowed : Run → Move → Prop} {setup : Setup} {db : DB}
    {property : Run → Prop} (reached : RunUnder allowed setup db run)
    (initial : ∀ episodeRollbacks heightRollbacks,
      property (Run.start setup episodeRollbacks heightRollbacks db))
    (preserved : ∀ state move, property state → (restricted allowed).enabled state move →
      property ((restricted allowed).effect state move)) : property run := by
  obtain ⟨episodeRollbacks, heightRollbacks, path⟩ := reached.path
  exact path.invariant (initial _ _) preserved

/-- The same with the help of what is already known to hold throughout. -/
theorem RunUnder.invariant_under {allowed : Run → Move → Prop} {setup : Setup} {db : DB}
    {established property : Run → Prop} (reached : RunUnder allowed setup db run)
    (known : ∀ state, RunUnder allowed setup db state → established state)
    (initial : ∀ episodeRollbacks heightRollbacks,
      property (Run.start setup episodeRollbacks heightRollbacks db))
    (preserved : ∀ state move, established state → property state →
      (restricted allowed).enabled state move →
      property ((restricted allowed).effect state move)) : property run := by
  obtain ⟨episodeRollbacks, heightRollbacks, path⟩ := reached.path
  exact path.invariant_under (fun state path => known state ⟨_, _, path⟩) (initial _ _) preserved

theorem CollectStep.setup (step : CollectStep allowed run next) : next.setup = run.setup := by
  cases step <;> rfl

theorem RunUnder.setup_eq {allowed : Run → Move → Prop} {setup : Setup} {db : DB}
    (reached : RunUnder allowed setup db run) : run.setup = setup := by
  obtain ⟨_, _, path⟩ := reached.path
  clear reached
  induction path with
  | refl => rfl
  | @step state move _ enabled same =>
      cases move with
      | collect move => exact (restricted_collect enabled).setup.trans same
      | cancel | dispatch | pool | closeCompletions | finish => exact same

theorem RunUnder.control {allowed : Run → Move → Prop} {setup : Setup} {db : DB}
    (reached : RunUnder allowed setup db run) : Control run :=
  reached.invariant (fun _ _ => control_start _ _ _ _) Control.step

end ShinzoGenerator.Indexer
