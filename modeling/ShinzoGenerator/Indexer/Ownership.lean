import ShinzoGenerator.Indexer.LifecycleProperties

/-! The subsystems of the indexer over runs of one start and any number of stops. What a
start has opened is closed at most once, whichever stop gets to it, and nothing is left
open behind a stop that began after the start. -/

set_option autoImplicit false

namespace ShinzoGenerator.Indexer.Lifecycle

/-! ### What is opened and closed -/

/-- What an init step opens. -/
def InitStep.opens (config : Config) (shared : Shared) : InitStep → Subsystem → Bool
  | .newFetcher, .fetcher => true
  | .startDefra, .networkHandler | .startDefra, .defraNode => !config.defraStarted
  | .newHealthServer, .healthServer => config.healthServer
  | .startServices, .pruner => config.pruner && shared.owned .defraNode
  | .startServices, .snapshotter => config.snapshot && shared.owned .defraNode
  | _, _ => false

/-- The step that opens a subsystem. -/
def Subsystem.opener : Subsystem → InitStep
  | .snapshotter | .pruner => .startServices
  | .healthServer => .newHealthServer
  | .fetcher => .newFetcher
  | .networkHandler | .defraNode => .startDefra

/-- The step of a teardown that takes the subsystem away; the health server is stopped and
kept. -/
def Subsystem.closer? : Subsystem → Option TeardownStep
  | .snapshotter => some .snapshotter
  | .pruner => some .pruner
  | .healthServer => none
  | .fetcher => some .fetcher
  | .networkHandler | .defraNode => some .detachNode

/-- How often each subsystem was opened, and taken away to be closed. -/
structure Ledger where
  opened : Subsystem → Nat := fun _ => 0
  closed : Subsystem → Nat := fun _ => 0

def Ledger.record (config : Config) (state : State) (ledger : Ledger) : Move → Ledger
  | .init step _ =>
      { ledger with
        opened := fun subsystem =>
          ledger.opened subsystem + (step.opens config state.shared subsystem).toNat }
  | .stop id =>
      match state.stops id with
      | .teardown (step :: _) =>
          { ledger with
            closed := fun subsystem => ledger.closed subsystem +
              (subsystem.closer? = some step && state.shared.owned subsystem).toNat }
      | _ => ledger
  | _ => ledger

/-- The system with a ledger beside its state. -/
def audited (config : Config) : GuardedSystem (State × Ledger) Move where
  enabled audit move := enabled config audit.1 move
  effect audit move := (effect config audit.1 move, audit.2.record config audit.1 move)

theorem path_of_audited {config : Config} {start finish : State × Ledger}
    (path : (audited config).Path start finish) : (lifecycle config).Path start.1 finish.1 := by
  induction path with
  | refl => exact .refl
  | step _ enabled ih => exact ih.step enabled

/-! ### What the moves do to the owned subsystems -/

theorem owned_initStep (config : Config) (shared : Shared) (step : InitStep)
    (subsystem : Subsystem) :
    (shared.initStep config step).owned subsystem =
      (shared.owned subsystem || step.opens config shared subsystem) := by
  cases step with
  | newFetcher =>
      cases subsystem <;> simp [Shared.initStep, Shared.assign, InitStep.opens, Function.update]
  | startDefra =>
      cases subsystem <;> simp only [Shared.initStep, InitStep.opens] <;>
        cases config.defraStarted <;> simp [Shared.assign, Function.update]
  | newHealthServer =>
      cases subsystem <;> simp only [Shared.initStep, InitStep.opens] <;>
        cases config.healthServer <;> simp [Shared.assign, Function.update]
  | startServices =>
      cases subsystem <;> simp only [Shared.initStep, InitStep.opens] <;>
        cases config.pruner <;> cases config.snapshot <;>
        cases node : shared.owned .defraNode <;> simp [Shared.assign, Function.update, node]
  | _ => cases subsystem <;> simp [Shared.initStep, Shared.setLifecycleFlags, InitStep.opens]

theorem owned_teardownStep (shared : Shared) (step : TeardownStep) (subsystem : Subsystem) :
    (shared.teardownStep step).owned subsystem =
      (shared.owned subsystem && !(subsystem.closer? = some step)) := by
  cases step <;> cases subsystem <;>
    simp [Shared.teardownStep, Shared.assign, Shared.setLifecycleFlags, Subsystem.closer?,
      Function.update]

/-- Only init steps open anything. -/
theorem owned_startEffect (config : Config) (shared : Shared) {move : Move}
    (other : ∀ step rest, move ≠ .init step rest) :
    (startEffect config shared move).owned = shared.owned := by
  cases move with
  | init step rest => exact absurd rfl (other step rest)
  | finish outcome => rfl
  | _ => rfl

theorem opens_opener {config : Config} {shared : Shared} {step : InitStep} {subsystem : Subsystem}
    (opens : step.opens config shared subsystem = true) : subsystem.opener = step := by
  cases step <;> cases subsystem <;> first | rfl | cases opens

/-! ### The account -/

/-- The start has the init step still in front of it. -/
def StartPhase.awaits (step : InitStep) : StartPhase → Bool
  | .idle => true
  | .init rest => rest.contains step
  | _ => false

/-- What was opened is closed or owned, and opened once, by a step that does not come again. -/
structure Ledger.Balanced (shared : Shared) (ledger : Ledger) : Prop where
  account : ∀ subsystem,
    ledger.opened subsystem = ledger.closed subsystem + (shared.owned subsystem).toNat
  fresh : ∀ subsystem : Subsystem,
    shared.start.awaits subsystem.opener = true → ledger.opened subsystem = 0
  once : ∀ subsystem, ledger.opened subsystem ≤ 1
  ahead : ∀ rest, shared.start = .init rest → rest <:+ initSteps

section Account

variable {config : Config} {shared other : Shared} {ledger : Ledger}

theorem balanced_initial : Ledger.Balanced {} {} :=
  ⟨fun _ => rfl, fun _ _ => rfl, fun _ => Nat.zero_le 1, fun _ there => by cases there⟩

/-- A start that goes on without an init step keeps the account. -/
theorem Ledger.Balanced.leave (balanced : ledger.Balanced shared)
    (owned : other.owned = shared.owned)
    (awaits : ∀ step, other.start.awaits step = true → shared.start.awaits step = true)
    (ahead : ∀ rest, other.start = .init rest → rest <:+ initSteps) : ledger.Balanced other :=
  ⟨fun subsystem => owned ▸ balanced.account subsystem,
    fun subsystem waits => balanced.fresh subsystem (awaits _ waits), balanced.once, ahead⟩

theorem Ledger.Balanced.init (balanced : ledger.Balanced shared) {step : InitStep}
    {rest : List InitStep} (there : shared.start = .init (step :: rest)) :
    Ledger.Balanced { shared.initStep config step with start := .init rest }
      { ledger with
        opened := fun subsystem =>
          ledger.opened subsystem + (step.opens config shared subsystem).toNat } := by
  have suffix := balanced.ahead _ there
  have distinct : (step :: rest).Nodup := List.Sublist.nodup suffix.sublist (by decide)
  have unopened : ∀ subsystem, step.opens config shared subsystem = true →
      ledger.opened subsystem = 0 := by
    intro subsystem opens
    refine balanced.fresh subsystem ?_
    rw [there, opens_opener opens]
    simp [StartPhase.awaits]
  refine ⟨fun subsystem => ?_, fun subsystem waits => ?_, fun subsystem => ?_, ?_⟩
  · have account := balanced.account subsystem
    simp only [owned_initStep]
    cases opens : step.opens config shared subsystem with
    | false => simpa using account
    | true =>
        rw [unopened subsystem opens] at account ⊢
        have unowned : shared.owned subsystem = false := by
          cases owned : shared.owned subsystem with
          | false => rfl
          | true =>
              rw [owned] at account
              simp at account
        rw [unowned] at account ⊢
        simpa using account.symm
  · have later : subsystem.opener ∈ rest := by simpa [StartPhase.awaits] using waits
    have before : ledger.opened subsystem = 0 := by
      refine balanced.fresh subsystem ?_
      rw [there]
      simp [StartPhase.awaits, later]
    have not : step.opens config shared subsystem = false := by
      refine Bool.eq_false_iff.mpr fun opens => ?_
      exact (List.nodup_cons.mp distinct).1 (opens_opener opens ▸ later)
    simp only [before, not]
    rfl
  · cases opens : step.opens config shared subsystem with
    | false => simpa [opens] using balanced.once subsystem
    | true => simp [unopened subsystem opens, opens]
  · intro more same
    cases same
    exact (List.suffix_cons step rest).trans suffix

/-- A step of a teardown closes what it takes away. -/
theorem Ledger.Balanced.teardown (balanced : ledger.Balanced shared) (step : TeardownStep) :
    Ledger.Balanced (shared.teardownStep step)
      { ledger with
        closed := fun subsystem => ledger.closed subsystem +
          (subsystem.closer? = some step && shared.owned subsystem).toNat } := by
  have same := (StopPhase.teardown [step]).sameStart_act shared
  refine ⟨fun subsystem => ?_, fun subsystem waits => ?_, balanced.once, fun rest there => ?_⟩
  · rw [balanced.account subsystem, owned_teardownStep]
    by_cases takes : subsystem.closer? = some step
    · simp [takes]
    · simp [takes]
  · exact balanced.fresh subsystem (same.start ▸ waits)
  · exact balanced.ahead rest (same.start ▸ there)

theorem balanced_effect {state : State} {move : Move} (balanced : ledger.Balanced state.shared)
    (able : enabled config state move) :
    (ledger.record config state move).Balanced (effect config state move).shared := by
  cases move with
  | init step rest => exact balanced.init able.1
  | stop id =>
      simp only [effect, Ledger.record]
      cases located : state.stops id with
      | teardown rest =>
          cases rest with
          | nil => exact balanced
          | cons step rest => exact balanced.teardown step
      | _ => exact balanced.leave rfl (fun _ awaits => awaits) balanced.ahead
  | callStop number => exact balanced
  | beginStart =>
      refine balanced.leave rfl (fun step _ => ?_) fun rest there => ?_
      · rw [show state.shared.start = .idle from able]
        rfl
      · cases there
        exact List.suffix_refl _
  | finish outcome =>
      have goes : ∀ phase, phase = StartPhase.returned ∨ phase = .guardStop →
          ledger.Balanced { state.shared with start := phase } := by
        intro phase ended
        refine balanced.leave rfl (fun step awaits => ?_) fun rest there => ?_
        · rcases ended with rfl | rfl <;> cases awaits
        · rcases ended with rfl | rfl <;> cases there
      by_cases finished : finishes state.shared outcome = true
      · simp only [effect, Ledger.record, startEffect, finished, if_true]
        exact goes _ (.inl rfl)
      · simp only [effect, Ledger.record, startEffect, finished]
        exact goes _ (.inr rfl)
  | _ => exact balanced.leave rfl (fun _ awaits => by cases awaits) fun _ there => by cases there

end Account

/-! ### Behind a stop -/

/-- The stop has taken the subsystem away, if it was there. -/
def StopPhase.took (subsystem : Subsystem) : StopPhase → Bool
  | .teardown rest => subsystem.closer?.any fun step => !rest.contains step
  | .returned => subsystem.closer?.isSome
  | _ => false

theorem StopPhase.settled_of_took {phase : StopPhase} {subsystem : Subsystem}
    (took : phase.took subsystem = true) : phase.past = true ∨ phase = .returned := by
  cases phase with
  | teardown => exact .inl rfl
  | returned => exact .inr rfl
  | _ => cases took

theorem StopPhase.owned_act {shared : Shared} {phase : StopPhase} {subsystem : Subsystem}
    (unowned : shared.owned subsystem = false) : (phase.act shared).owned subsystem = false := by
  cases phase with
  | teardown rest =>
      cases rest with
      | nil => exact unowned
      | cons step rest =>
          simp only [StopPhase.act, owned_teardownStep, unowned]
          rfl
  | _ => exact unowned

/-- What a stop has taken after a move, it had taken before or just took. -/
theorem StopPhase.took_next {shared : Shared} {phase : StopPhase} {stopMu : Option StopId}
    (ready : phase.ready shared stopMu) {subsystem : Subsystem}
    (took : (phase.next shared).took subsystem = true) :
    phase.took subsystem = true ∨ (phase.act shared).owned subsystem = false := by
  have none : (StopPhase.teardown teardownSteps).took subsystem = false := by
    cases subsystem <;> rfl
  cases phase with
  | idle | returned => exact absurd ready not_false
  | locked | settling =>
      simp only [StopPhase.next] at took
      split at took <;> cases took
  | draining =>
      simp only [StopPhase.next] at took
      split at took
      · cases took
      · rw [none] at took
        cases took
  | waitingLoop =>
      rw [StopPhase.next, none] at took
      cases took
  | locking | cancelling | waitingStart | cancellingLoop => cases took
  | teardown rest =>
      cases rest with
      | nil =>
          left
          rw [StopPhase.took]
          cases closer : subsystem.closer? with
          | none => rw [StopPhase.next, StopPhase.took, closer] at took; cases took
          | some step => rfl
      | cons step rest =>
          by_cases takes : subsystem.closer? = some step
          · right
            simp [StopPhase.act, owned_teardownStep, takes]
          · left
            rw [StopPhase.next, StopPhase.took] at took
            rw [StopPhase.took]
            cases closer : subsystem.closer? with
            | none => rw [closer] at took; cases took
            | some other =>
                rw [closer] at took takes
                have apart : ¬ other = step := fun same => takes (congrArg some same)
                simpa [apart] using took

/-- A stop that began after the start leaves nothing of what it took away, and a start
that stops itself waits for that. -/
structure Released (state : State) : Prop where
  taken : ∀ id subsystem, state.late id = true → (state.stops id).took subsystem = true →
    state.shared.owned subsystem = false
  late : state.stops .guard ≠ .idle → state.late .guard = true
  waited : state.shared.start = .returned → state.stops .guard ≠ .idle →
    state.stops .guard = .returned

section Release

variable {config : Config} {state : State}

theorem released_initial : Released {} :=
  ⟨fun _ _ late => (by cases late), fun called => absurd rfl called, fun ended => (by cases ended)⟩

theorem Released.call (released : Released state) {id : StopId} (fresh : state.stops id = .idle)
    (guarded : id = .guard → state.shared.start ≠ .idle ∧ state.shared.start ≠ .returned) :
    Released (state.call id) := by
  refine ⟨fun other subsystem => ?_, fun called => ?_, fun ended called => ?_⟩
  · by_cases own : other = id
    · subst own
      simp only [State.call, Function.update_self]
      exact fun _ took => by cases took
    · simp only [State.call, Function.update_of_ne own]
      exact released.taken other subsystem
  · by_cases own : StopId.guard = id
    · subst own
      simp only [State.call, Function.update_self]
      exact decide_eq_true (guarded rfl).1
    · simp only [State.call, Function.update_of_ne own] at called ⊢
      exact released.late called
  · by_cases own : StopId.guard = id
    · exact absurd ended (guarded own.symm).2
    · simp only [State.call, Function.update_of_ne own] at called ⊢
      exact released.waited ended called

/-- While a stop behind its settle check looks on, the start opens nothing. -/
theorem Released.start (released : Released state) (invariant : Invariant state) {move : Move}
    (able : enabled config state move)
    (ends : (startEffect config state.shared move).start = .returned →
      state.stops .guard ≠ .idle → state.stops .guard = .returned) :
    Released { state with shared := startEffect config state.shared move } := by
  refine ⟨fun id subsystem late took => ?_, released.late, ends⟩
  by_cases init : ∃ step rest, move = .init step rest
  · obtain ⟨step, rest, rfl⟩ := init
    have settled := (invariant.sound id).settled late (StopPhase.settled_of_took took)
    have expects := invariant.consistent.expects
    rw [able.1] at expects
    rw [expects.1] at settled
    cases settled
  · simp only
    rw [owned_startEffect config state.shared fun step rest same => init ⟨step, rest, same⟩]
    exact released.taken id subsystem late took

theorem Released.stop (released : Released state) {id : StopId}
    (ready : (state.stops id).ready state.shared state.stopMu) :
    Released (effect config state (.stop id)) := by
  have same := (state.stops id).sameStart_act state.shared
  refine ⟨fun other subsystem late took => ?_, fun called => ?_, fun ended called => ?_⟩
  · simp only [effect] at late took ⊢
    by_cases own : other = id
    · subst own
      rw [Function.update_self] at took
      rcases StopPhase.took_next ready took with before | unowned
      · exact StopPhase.owned_act (released.taken other subsystem late before)
      · exact unowned
    · rw [Function.update_of_ne own] at took
      exact StopPhase.owned_act (released.taken other subsystem late took)
  · by_cases own : StopId.guard = id
    · subst own
      refine released.late fun idle => ?_
      rw [idle] at ready
      exact ready
    · simp only [effect, Function.update_of_ne own] at called
      exact released.late called
  · simp only [effect, same.start] at ended
    by_cases own : StopId.guard = id
    · subst own
      have done := released.waited ended fun idle => by rw [idle] at ready; exact ready
      rw [done] at ready
      exact absurd ready not_false
    · simp only [effect, Function.update_of_ne own] at called ⊢
      exact released.waited ended called

theorem released_effect (released : Released state) (invariant : Invariant state) {move : Move}
    (able : enabled config state move) : Released (effect config state move) := by
  cases move with
  | stop id => exact released.stop able
  | callStop number => exact released.call able fun own => by cases own
  | finish outcome =>
      have there : state.shared.start = .finishing outcome := able
      have uncalled : state.stops .guard = .idle := by
        by_contra called
        rcases invariant.guard called with waits | waits <;> rw [there] at waits <;> cases waits
      have next := released.start invariant able fun _ called => absurd uncalled called
      by_cases finished : finishes state.shared outcome = true
      · simp only [effect, finished, if_true]
        exact next
      · simp only [effect, finished]
        refine next.call uncalled fun _ => ?_
        simp [startEffect, finished]
  | guardReturns => exact released.start invariant able fun _ _ => able.2
  | _ => exact released.start invariant able fun ended => by cases ended

end Release

/-! ### Runs -/

theorem balanced_path {config : Config} {audit : State × Ledger}
    (path : (audited config).Path ({}, {}) audit) : audit.2.Balanced audit.1.shared := by
  induction path with
  | refl => exact balanced_initial
  | step _ able ih => exact balanced_effect ih able

theorem released_path {config : Config} {audit : State × Ledger}
    (path : (audited config).Path ({}, {}) audit) : Released audit.1 := by
  induction path with
  | refl => exact released_initial
  | step path able ih => exact released_effect ih (invariant_path (path_of_audited path)) able

/-- In every run of one start and any number of stops each subsystem is opened at most once
and closed at most once, and behind a stop that began after the start, also the one that a
failed start waits for, everything that was opened is closed. -/
theorem subsystems_released {config : Config} {state : State} {ledger : Ledger}
    (path : (audited config).Path ({}, {}) (state, ledger)) {subsystem : Subsystem}
    (closes : subsystem.closer?.isSome = true) :
    ledger.closed subsystem ≤ ledger.opened subsystem ∧ ledger.opened subsystem ≤ 1 ∧
      ((∃ id, state.late id = true ∧ state.stops id = .returned) ∨
          state.shared.start = .returned ∧ state.stops .guard ≠ .idle →
        ledger.closed subsystem = ledger.opened subsystem ∧
          state.shared.owned subsystem = false) := by
  have balanced : ledger.Balanced state.shared := balanced_path path
  have released : Released state := released_path path
  have account := balanced.account subsystem
  refine ⟨by omega, balanced.once subsystem, fun stopped => ?_⟩
  have returned : ∃ id, state.late id = true ∧ state.stops id = .returned := by
    rcases stopped with stopped | ⟨ended, called⟩
    · exact stopped
    · exact ⟨.guard, released.late called, released.waited ended called⟩
  obtain ⟨id, late, done⟩ := returned
  have unowned := released.taken id subsystem late (by rw [done]; exact closes)
  rw [unowned] at account
  exact ⟨account.symm, unowned⟩

/-- A start that fails behind its first step and stops itself. -/
def failedRun : List Move :=
  .beginStart :: .init .newFetcher initSteps.tail ::
    .initFails .newConverter (initSteps.drop 2) .failed :: .settle .failed :: .finish .failed ::
    List.replicate 13 (.stop .guard) ++ [.guardReturns]

instance (config : Config) (audit : State × Ledger) (move : Move) :
    Decidable ((audited config).enabled audit move) :=
  inferInstanceAs (Decidable ((lifecycle config).enabled audit.1 move))

theorem failed_start_releases_fetcher :
    ∃ state ledger, (audited oneWorker).Path ({}, {}) (state, ledger) ∧
      state.shared.start = .returned ∧ ledger.opened .fetcher = 1 ∧ ledger.closed .fetcher = 1 := by
  have executed : ((audited oneWorker).run? failedRun ({}, {})).any
      (fun audit => audit.1.shared.start = .returned && audit.1.stops .guard ≠ .idle &&
        audit.2.opened .fetcher = 1) = true := by decide +kernel
  obtain ⟨⟨state, ledger⟩, path, facts⟩ := GuardedSystem.exists_path_of_run? executed
  simp only [Bool.and_eq_true, decide_eq_true_eq] at facts
  obtain ⟨⟨ended, called⟩, opened⟩ := facts
  have released : ledger.closed .fetcher = ledger.opened .fetcher :=
    ((subsystems_released path rfl).2.2 (.inr ⟨ended, called⟩)).1
  exact ⟨state, ledger, path, ended, opened, released.trans opened⟩

end ShinzoGenerator.Indexer.Lifecycle
