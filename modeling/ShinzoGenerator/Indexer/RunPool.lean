import ShinzoGenerator.Indexer.RunInvariants

/-! The in-flight counter and the quiet states of the store pool: registrations
are released exactly once, and the walk-back and the end of a run find nothing
held, queued, running or unread. -/

set_option autoImplicit false

namespace ShinzoGenerator.Indexer

open Defra

/-- The counter is the number of items held, queued, or taken by a worker that
has not executed its `Done`. -/
def Counted (run : Run) : Prop :=
  run.pool.inFlight = run.check.holdingDispatch.toList.length + run.pool.storeChan.length +
    run.pool.busy

/-- Nothing is held, queued, inside a store or unread. -/
structure Quiet (run : Run) : Prop where
  held : run.check.holdingDispatch = none
  queued : run.pool.storeChan = []
  storing : run.pool.storing = []
  reporting : run.pool.reporting = []
  unread : run.pool.completionChan = []

variable {allowed : CollectMove → Prop} {run next : Run}

theorem Counted.withoutHeld (counted : Counted run) : Counted run.withoutHeld := by
  simp only [Counted, Run.withoutHeld, Pool.busy, Option.toList_none, List.length_nil] at counted ⊢
  omega

/-- The pool's own moves pass a registration on or release it. -/
theorem Counted.pool (counted : Counted run) {move : PoolMove}
    (enabled : poolEnabled run.setup.workers run.ledger.ctxDone run.pool run.db move) :
    Counted
      { run with
        pool := (poolEffect run.pool run.db move).1
        db := (poolEffect run.pool run.db move).2 } := by
  simp only [Counted, Pool.busy] at counted ⊢
  cases move with
  | take item =>
      obtain ⟨head, tail, queue⟩ := List.exists_cons_of_ne_nil
        (List.ne_nil_of_mem (List.mem_of_head? enabled.1))
      simp only [poolEffect, queue, List.tail_cons, List.length_append, List.length_cons,
        List.length_nil] at counted ⊢
      omega
  | commitBlock | commitOthers => exact counted
  | finishStore item computed queryFails =>
      have shorter := List.length_erase_of_mem enabled.1
      have nonempty := List.length_pos_of_mem enabled.1
      simp only [poolEffect, List.length_append, List.length_cons, List.length_nil]
      omega
  | report completion =>
      have shorter := List.length_erase_of_mem enabled.1
      have nonempty := List.length_pos_of_mem enabled.1
      simp only [poolEffect]
      omega
  | release =>
      have positive : 0 < run.pool.unreleased := enabled
      simp only [poolEffect]
      omega

theorem Counted.collect (counted : Counted run) (control : Control run)
    (step : CollectStep allowed run next) : Counted next := by
  cases step with
  | passes popped _ located =>
      obtain ⟨free, _⟩ := control.posture.checking located
      simp only [Counted, Pool.busy, free, Option.toList_none, List.length_nil,
        Option.toList_some, List.length_cons] at counted ⊢
      omega
  | sends item located held =>
      simp only [Counted, Pool.busy, held, Option.toList_some, List.length_cons, List.length_nil,
        Option.toList_none, List.length_append] at counted ⊢
      omega
  | confirms | abandons | closesStore | receivesOpening | concludesOpening =>
      exact counted.withoutHeld
  | _ => exact counted

theorem Counted.step {allowed : Run → Move → Prop} (run : Run) (move : Move)
    (control : Control run) (counted : Counted run)
    (enabled : (restricted allowed).enabled run move) :
    Counted ((restricted allowed).effect run move) := by
  cases move with
  | cancel | dispatch | closeCompletions | finish => exact counted
  | pool move => exact counted.pool enabled.1
  | collect move => exact counted.collect control (restricted_collect enabled)

theorem RunUnder.counted {allowed : Run → Move → Prop} {setup : Setup} {db : DB}
    (reached : RunUnder allowed setup db run) : Counted run :=
  reached.invariant_under (fun _ => RunUnder.control) (fun _ _ => rfl) Counted.step

/-- A zero counter leaves nothing held, queued or taken. -/
theorem Counted.idle (counted : Counted run) (zero : run.pool.inFlight = 0) :
    run.check.holdingDispatch = none ∧ run.pool.storeChan = [] ∧ run.pool.storing = [] ∧
      run.pool.reporting = [] ∧ run.pool.unreleased = 0 := by
  simp only [Counted, Pool.busy, zero] at counted
  refine ⟨?_, List.length_eq_zero_iff.mp (by omega), List.length_eq_zero_iff.mp (by omega),
    List.length_eq_zero_iff.mp (by omega), by omega⟩
  cases held : run.check.holdingDispatch with
  | none => rfl
  | some item =>
      simp [held] at counted
      omega

theorem Counted.quiet (counted : Counted run) (zero : run.pool.inFlight = 0)
    (unread : run.pool.completionChan = []) : Quiet run := by
  obtain ⟨held, queued, storing, reporting, _⟩ := counted.idle zero
  exact ⟨held, queued, storing, reporting, unread⟩

/-- Every move of the pool needs an item that the counter counts. -/
theorem Counted.pool_positive (counted : Counted run) {move : PoolMove}
    (enabled : poolEnabled run.setup.workers run.ledger.ctxDone run.pool run.db move) :
    run.pool.inFlight ≠ 0 := by
  intro zero
  obtain ⟨_, queued, storing, reporting, unreleased⟩ := counted.idle zero
  cases move with
  | take => simp [poolEnabled, queued] at enabled
  | commitBlock | commitOthers | finishStore => simp [poolEnabled, storing] at enabled
  | report => simp [poolEnabled, reporting] at enabled
  | release => simp [poolEnabled, unreleased] at enabled

/-! ### Quiet states -/

structure Settling (run : Run) : Prop where
  tail : ∀ fin, run.pc = .tail fin → run.pool.inFlight = 0
  walk : ∀ fin, run.pc = .walk fin → run.pool.inFlight = 0 ∧ run.pool.completionChan = []
  resolved : run.ledger.rollbackPoint.isSome = true →
    run.pool.inFlight = 0 ∧ run.pool.completionChan = []
  closed : run.pool.completionsClosed = true →
    run.pool.storeClosed = true ∧ run.pool.inFlight = 0
  seen : run.sawCompletionsClosed = true →
    run.pool.completionsClosed = true ∧ run.pool.completionChan = []
  returned : run.pc = .returned → run.sawCompletionsClosed = true
  phase : run.dispatcher.phase = .awaitingCollector ∨ run.dispatcher.phase = .ended →
    run.pool.completionsClosed = true
  ended : run.dispatcher.phase = .ended → run.pc = .returned

theorem settling_start (setup : Setup) (episodeRollbacks : Nat) (heightRollbacks : HeightMap Nat)
    (db : DB) : Settling (Run.start setup episodeRollbacks heightRollbacks db) := by
  constructor <;> simp [Run.start]

/-- The pool part of the invariant. -/
theorem Settling.pool (settling : Settling run) (counted : Counted run) {move : PoolMove}
    (enabled : poolEnabled run.setup.workers run.ledger.ctxDone run.pool run.db move) :
    Settling
      { run with
        pool := (poolEffect run.pool run.db move).1
        db := (poolEffect run.pool run.db move).2 } := by
  have positive := counted.pool_positive enabled
  have flags : (poolEffect run.pool run.db move).1.completionsClosed =
      run.pool.completionsClosed := by cases move <;> rfl
  have open_ : run.pool.completionsClosed ≠ true :=
    fun closed => positive (settling.closed closed).2
  constructor
  case tail => exact fun fin located => absurd (settling.tail fin located) positive
  case walk => exact fun fin located => absurd (settling.walk fin located).1 positive
  case resolved => exact fun recorded => absurd (settling.resolved recorded).1 positive
  case closed => exact fun closed => absurd (flags ▸ closed) open_
  case seen => exact fun seen => absurd (settling.seen seen).1 open_
  case returned => exact settling.returned
  case phase => exact fun phase => absurd (settling.phase phase) open_
  case ended => exact settling.ended

theorem CollectStep.not_returned (step : CollectStep allowed run next) : run.pc ≠ .returned := by
  cases step with
  | waitLeaves _ located | waitFails _ _ located =>
      rcases located with located | located <;> simp [located]
  | drainReceives _ _ _ _ located => rcases located with located | located <;> simp [located]
  | concludesPop _ _ _ _ located | concludesBatch _ _ _ _ located
  | concludesOpening _ _ _ _ _ located =>
      rcases located with ⟨located, _⟩ | located <;> simp [located]
  | _ => simp [*]

/-- A move of the collector that does not lose registrations. -/
theorem Settling.keep (settling : Settling run) (active : run.pc ≠ .returned)
    (flags : next.pool.completionsClosed = run.pool.completionsClosed ∧
      next.sawCompletionsClosed = run.sawCompletionsClosed ∧ next.dispatcher = run.dispatcher)
    (unread : run.pool.completionChan = [] → next.pool.completionChan = [])
    (storeClosed : run.pool.storeClosed = true → next.pool.storeClosed = true)
    (zero : run.pool.inFlight = 0 → next.pool.inFlight = 0)
    (tail : ∀ fin, next.pc = .tail fin → next.pool.inFlight = 0)
    (walk : ∀ fin, next.pc = .walk fin →
      next.pool.inFlight = 0 ∧ next.pool.completionChan = [])
    (returned : next.pc = .returned → run.sawCompletionsClosed = true)
    (resolved : next.ledger.rollbackPoint.isSome = true →
      run.pool.inFlight = 0 ∧ run.pool.completionChan = []) : Settling next := by
  obtain ⟨closedSame, seenSame, dispatcherSame⟩ := flags
  constructor
  case tail => exact tail
  case walk => exact walk
  case resolved => exact fun recorded => (resolved recorded).imp zero unread
  case closed =>
    rw [closedSame]
    exact fun closed => (settling.closed closed).imp storeClosed zero
  case seen =>
    rw [closedSame, seenSame]
    exact fun seen => (settling.seen seen).imp_right unread
  case returned =>
    rw [seenSame]
    exact returned
  case phase =>
    rw [dispatcherSame, closedSame]
    exact settling.phase
  case ended =>
    rw [dispatcherSame]
    exact fun ended => absurd (settling.ended ended) active

theorem Concluded.settled {fin : Finalization} {ledger : Ledger}
    {resolved : Option ReorgEpisode} (concluded : Concluded allowed run fin ledger resolved)
    (settling : Settling run) (recorded : ledger.rollbackPoint.isSome = true) :
    run.pool.inFlight = 0 ∧ run.pool.completionChan = [] := by
  cases concluded with
  | abandoned => exact settling.resolved recorded
  | failed => exact settling.resolved recorded
  | resolved _ _ _ _ _ located => exact settling.walk fin located

theorem Run.afterSelect_returned (run : Run) (returned : run.afterSelect = .returned) :
    run.sawCompletionsClosed = true := by
  rcases run.afterSelect_cases with ⟨_, _, seen⟩ | loop
  · exact seen
  · rw [loop] at returned
    cases returned

theorem Run.afterSelect_calm (run : Run) (fin : Finalization) :
    run.afterSelect ≠ .tail fin ∧ run.afterSelect ≠ .walk fin := by
  rcases run.afterSelect_cases with ⟨same, _⟩ | same <;> simp [same]

theorem Settling.collect (settling : Settling run) (control : Control run) (counted : Counted run)
    (step : CollectStep allowed run next) : Settling next := by
  have active := step.not_returned
  have zero : run.pool.inFlight = 0 → run.withoutHeld.pool.inFlight = 0 := by
    intro zero
    simp [Run.withoutHeld, zero, (counted.idle zero).1]
  have calm : ∀ fin, run.afterSelect ≠ .tail fin ∧ run.afterSelect ≠ .walk fin :=
    run.afterSelect_calm
  have tailEmpty : run.pool.completionChan = [] → run.pool.completionChan.tail = [] := by
    intro unread
    simp [unread]
  cases step with
  | passes popped _ located =>
      -- a registration is taken only while nothing is closed or resolved
      obtain ⟨_, unresolved, _⟩ := control.posture.checking located
      have unclosed : run.pool.completionsClosed ≠ true := by
        intro closed
        have fired : run.doneFired = true :=
          control.sealing.closed ▸ (settling.closed closed).1
        exact control.sealing.noCheck (.inl fired) popped located
      constructor
      case tail => rintro _ ⟨⟩
      case walk => rintro _ ⟨⟩
      case resolved =>
        intro recorded
        rw [unresolved] at recorded
        cases recorded
      case closed => exact fun closed => absurd closed unclosed
      case seen => exact fun seen => absurd (settling.seen seen).1 unclosed
      case returned => intros; contradiction
      case phase => exact settling.phase
      case ended => exact fun ended => absurd (settling.ended ended) active
  | completionsClosed located unread closed =>
      constructor
      case tail => exact fun fin same => absurd same (Run.afterSelect_calm _ fin).1
      case walk => exact fun fin same => absurd same (Run.afterSelect_calm _ fin).2
      case resolved => exact settling.resolved
      case closed => exact settling.closed
      case seen => exact fun _ => ⟨closed, unread⟩
      case returned => exact fun _ => rfl
      case phase => exact settling.phase
      case ended => exact fun ended => absurd (settling.ended ended) active
  | confirms | abandons =>
      exact settling.keep active ⟨rfl, rfl, rfl⟩ id id zero (by rintro _ ⟨⟩) (by rintro _ ⟨⟩)
        (by intros; contradiction) settling.resolved
  | closesStore =>
      exact settling.keep active ⟨rfl, rfl, rfl⟩ id (fun _ => rfl) zero
        (fun fin same => absurd same (calm fin).1) (fun fin same => absurd same (calm fin).2)
        run.afterSelect_returned settling.resolved
  | receives _ ledger _ _ applied =>
      refine settling.keep active ⟨rfl, rfl, rfl⟩ tailEmpty id id
        (fun fin same => absurd same (calm fin).1) (fun fin same => absurd same (calm fin).2)
        run.afterSelect_returned ?_
      rw [applied.rollbackPoint]
      exact settling.resolved
  | receivesOpening _ ledger _ _ _ applied =>
      refine settling.keep active ⟨rfl, rfl, rfl⟩ tailEmpty id zero (by rintro _ ⟨⟩)
        (by rintro _ ⟨⟩) (by intros; contradiction) ?_
      rw [applied.rollbackPoint]
      exact settling.resolved
  | drainReceives fin _ ledger _ located _ applied =>
      refine settling.keep active ⟨rfl, rfl, rfl⟩ tailEmpty id id settling.tail ?_
        (fun same => absurd same active) ?_
      · intro other same
        rcases located with located | located
        · cases located.symm.trans same
        · cases located.symm.trans same
      · rw [applied.rollbackPoint]
        exact settling.resolved
  | drainSettles fin located settled =>
      exact settling.keep active ⟨rfl, rfl, rfl⟩ id id id (fun _ _ => settled) (by rintro _ ⟨⟩)
        (by intros; contradiction) settling.resolved
  | drainEnds fin located unread =>
      exact settling.keep active ⟨rfl, rfl, rfl⟩ id id id (by rintro _ ⟨⟩)
        (fun _ _ => ⟨settling.tail fin located, unread⟩) (by intros; contradiction) settling.resolved
  | concludesPop fin confirmed ledger resolved located _ concluded =>
      exact settling.keep active ⟨rfl, rfl, rfl⟩ id id id (by rintro _ ⟨⟩) (by rintro _ ⟨⟩)
        (by intros; contradiction) (concluded.settled settling)
  | concludesBatch fin middle ledger resolved located _ concluded applied =>
      refine settling.keep active ⟨rfl, rfl, rfl⟩ id id id
        (fun fin same => absurd same (calm fin).1) (fun fin same => absurd same (calm fin).2)
        run.afterSelect_returned ?_
      rw [applied.rollbackPoint]
      exact concluded.settled settling
  | concludesOpening fin middle ledger resolved rest located _ concluded applied =>
      refine settling.keep active ⟨rfl, rfl, rfl⟩ id id zero (by rintro _ ⟨⟩) (by rintro _ ⟨⟩)
        (by intros; contradiction) ?_
      rw [applied.rollbackPoint]
      exact concluded.settled settling
  | recvResult =>
      exact ⟨fun fin same => absurd same (calm fin).1, fun fin same => absurd same (calm fin).2,
        settling.resolved, settling.closed, settling.seen, run.afterSelect_returned,
        settling.phase, fun ended => absurd (settling.ended ended) active⟩
  | sends | resultsClosed =>
      exact settling.keep active ⟨rfl, rfl, rfl⟩ id id id
        (fun fin same => absurd same (Run.afterSelect_calm _ fin).1)
        (fun fin same => absurd same (Run.afterSelect_calm _ fin).2)
        (Run.afterSelect_returned _) settling.resolved
  | _ =>
      exact settling.keep active ⟨rfl, rfl, rfl⟩ id id id (by rintro _ ⟨⟩) (by rintro _ ⟨⟩)
        (by intros; contradiction) settling.resolved

theorem Settling.step {allowed : Run → Move → Prop} (run : Run) (move : Move)
    (known : Control run ∧ Counted run) (settling : Settling run)
    (enabled : (restricted allowed).enabled run move) :
    Settling ((restricted allowed).effect run move) := by
  obtain ⟨control, counted⟩ := known
  cases move with
  | cancel =>
      exact ⟨settling.tail, settling.walk, settling.resolved, settling.closed, settling.seen,
        settling.returned, settling.phase, settling.ended⟩
  | dispatch move =>
      have phases : (dispatchEffect run.dispatcher move).phase = .awaitingCollector ∨
          (dispatchEffect run.dispatcher move).phase = .ended →
          (dispatchEffect run.dispatcher move).phase = run.dispatcher.phase := by
        cases move <;> simp [dispatchEffect]
      refine ⟨settling.tail, settling.walk, settling.resolved, settling.closed, settling.seen,
        settling.returned, fun late => settling.phase (phases late ▸ late), fun ended => ?_⟩
      exact settling.ended (phases (.inr ended) ▸ ended)
  | pool move => exact settling.pool counted enabled.1
  | collect move => exact settling.collect control counted (restricted_collect enabled)
  | closeCompletions =>
      obtain ⟨phase, closed, queued, busy⟩ := enabled.1
      have fired : run.doneFired = true := control.sealing.closed ▸ closed
      have zero : run.pool.inFlight = 0 := by
        have free := control.sealing.noHeld (.inl fired)
        simpa [Counted, free, queued, busy] using counted
      exact ⟨settling.tail, settling.walk, settling.resolved, fun _ => ⟨closed, zero⟩,
        fun seen => ⟨rfl, (settling.seen seen).2⟩, settling.returned, fun _ => rfl, (by intros; contradiction)⟩
  | finish =>
      obtain ⟨phase, returned⟩ := enabled.1
      refine ⟨settling.tail, settling.walk, fun recorded => settling.resolved ?_, settling.closed,
        settling.seen, settling.returned, fun _ => settling.phase (.inl phase), fun _ => returned⟩
      change (Option.map _ _).isSome = true at recorded
      rwa [Option.isSome_map] at recorded

theorem RunUnder.settling {allowed : Run → Move → Prop} {setup : Setup} {db : DB}
    (reached : RunUnder allowed setup db run) : Settling run :=
  reached.invariant_under (fun _ reached => And.intro reached.control reached.counted)
    (fun _ _ => settling_start _ _ _ _) Settling.step

/-- The walk-back finds a quiet pool, and so does whoever acts on a finished run. -/
theorem RunUnder.quiet {allowed : Run → Move → Prop} {setup : Setup} {db : DB}
    (reached : RunUnder allowed setup db run)
    (located : (∃ fin, run.pc = .walk fin) ∨ run.dispatcher.phase = .ended) : Quiet run := by
  have settling := reached.settling
  rcases located with ⟨fin, at_walk⟩ | ended
  · obtain ⟨zero, unread⟩ := settling.walk fin at_walk
    exact reached.counted.quiet zero unread
  · obtain ⟨closed, unread⟩ := settling.seen (settling.returned (settling.ended ended))
    exact reached.counted.quiet (settling.closed closed).2 unread

/-- The collector hands nothing over once the run is sealed, and it stays sealed. -/
theorem Sealed.collect (sealedRun : Sealed run) (sealing : Sealing run)
    (step : CollectStep allowed run next) :
    Sealed next ∧ next.trace.handed = run.trace.handed := by
  cases step with
  | sends item located held =>
      rw [sealing.noHeld sealedRun] at held
      cases held
  | closesStore => exact ⟨.inl rfl, rfl⟩
  | breaks | receivesOpening | concludesOpening =>
      refine ⟨sealedRun.imp_right fun opened => ?_, rfl⟩
      exact List.append_ne_nil_of_left_ne_nil opened _
  | _ => exact ⟨sealedRun, rfl⟩

theorem handed_of_sealed {allowed : Run → Move → Prop} {run last : Run}
    (path : (restricted allowed).Path run last) (control : Control run)
    (sealedRun : Sealed run) :
    Control last ∧ Sealed last ∧ last.trace.handed = run.trace.handed := by
  induction path with
  | refl => exact ⟨control, sealedRun, rfl⟩
  | @step state move _ enabled ih =>
      obtain ⟨control, sealedState, same⟩ := ih
      refine ⟨Control.step state move control enabled, ?_⟩
      cases move with
      | cancel | dispatch | pool | closeCompletions | finish => exact ⟨sealedState, same⟩
      | collect move =>
          obtain ⟨stays, frozen⟩ := sealedState.collect control.sealing (restricted_collect enabled)
          exact ⟨stays, frozen.trans same⟩

end ShinzoGenerator.Indexer
