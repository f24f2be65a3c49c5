import ShinzoGenerator.Indexer.Lifecycle

/-! What holds in every run of one start and any number of stops, and what a start that
begins behind the back of a stop breaks. -/

set_option autoImplicit false

namespace ShinzoGenerator.Indexer.Lifecycle

/-! ### The start and its fields -/

/-- The fields of the start, by where it is. Only a start that returns without the
indexing loop settles behind its last phase. -/
def StartPhase.Expects (inProgress : Bool) (closes : Nat) (indexing loopDone : Bool) :
    StartPhase → Prop
  | .idle => inProgress = false ∧ closes = 0 ∧ indexing = false ∧ loopDone = false
  | .init _ | .entering | .registering =>
      inProgress = true ∧ closes = 0 ∧ indexing = false ∧ loopDone = false
  | .handingOver => inProgress = true ∧ closes = 0 ∧ indexing = true ∧ loopDone = false
  | .loop | .closing _ => inProgress = false ∧ closes = 1 ∧ indexing = true ∧ loopDone = false
  | .unregistering _ => inProgress = false ∧ closes = 1 ∧ indexing = true ∧ loopDone = true
  | .settling _ => indexing = false ∧
      (inProgress = true ∧ closes = 0 ∨ inProgress = false ∧ closes = 1)
  | .finishing _ | .guardStop | .returned => inProgress = false ∧ closes = 1 ∧ indexing = false

structure Shared.Consistent (shared : Shared) : Prop where
  channel : shared.startDone = shared.startInProgress
  expects : shared.start.Expects shared.startInProgress shared.closes shared.indexing
    shared.loopDone

/-- The indexing loop runs until its done channel is closed. -/
def StartPhase.running : StartPhase → Bool
  | .loop | .closing _ => true
  | _ => false

/-- The start has begun and its settle channel is still open. -/
def Shared.unsettled (shared : Shared) : Prop := shared.start ≠ .idle ∧ shared.closes = 0

theorem Shared.Consistent.inProgress {shared : Shared} (consistent : shared.Consistent)
    (unsettled : shared.unsettled) : shared.startInProgress = true := by
  obtain ⟨begun, opened⟩ := unsettled
  have expects := consistent.expects
  cases phase : shared.start with
  | idle => exact absurd phase begun
  | init | entering | registering | handingOver =>
      rw [phase] at expects
      exact expects.1
  | settling =>
      rw [phase] at expects
      cases expects.2 with
      | inl running => exact running.1
      | inr settled => rw [settled.2] at opened; cases opened
  | loop | closing | unregistering | finishing | guardStop | returned =>
      rw [phase] at expects
      rw [expects.2.1] at opened
      cases opened

theorem Shared.Consistent.closes_le {shared : Shared} (consistent : shared.Consistent) :
    shared.closes ≤ 1 := by
  have expects := consistent.expects
  cases phase : shared.start with
  | settling =>
      rw [phase] at expects
      cases expects.2 with
      | inl running => exact running.2 ▸ Nat.zero_le 1
      | inr settled => exact settled.2 ▸ Nat.le_refl 1
  | idle | init | entering | registering | handingOver =>
      rw [phase] at expects
      exact expects.2.1 ▸ Nat.zero_le 1
  | loop | closing | unregistering | finishing | guardStop | returned =>
      rw [phase] at expects
      exact expects.2.1 ▸ Nat.le_refl 1

theorem Shared.Consistent.of_inProgress {shared : Shared} (consistent : shared.Consistent)
    (active : shared.startInProgress = true) : shared.unsettled := by
  have expects := consistent.expects
  rw [active] at expects
  cases phase : shared.start with
  | init | entering | registering | handingOver =>
      rw [phase] at expects
      exact ⟨by simp [phase], expects.2.1⟩
  | settling =>
      rw [phase] at expects
      cases expects.2 with
      | inl running => exact ⟨by simp [phase], running.2⟩
      | inr settled => cases settled.1
  | idle | loop | closing | unregistering | finishing | guardStop | returned =>
      rw [phase] at expects
      cases expects.1

/-! ### Moves of the start -/

/-- What a move leaves as it is: how far the start is. -/
structure Shared.SameStart (shared other : Shared) : Prop where
  start : other.start = shared.start
  startInProgress : other.startInProgress = shared.startInProgress
  startDone : other.startDone = shared.startDone
  closes : other.closes = shared.closes
  indexing : other.indexing = shared.indexing
  loopDone : other.loopDone = shared.loopDone

theorem Shared.SameStart.consistent {shared other : Shared} (same : shared.SameStart other)
    (consistent : shared.Consistent) : other.Consistent where
  channel := by rw [same.startDone, same.startInProgress, consistent.channel]
  expects := by
    rw [same.start, same.startInProgress, same.closes, same.indexing, same.loopDone]
    exact consistent.expects

theorem StopPhase.sameStart_act (shared : Shared) (phase : StopPhase) :
    shared.SameStart (phase.act shared) := by
  cases phase with
  | teardown rest =>
      cases rest with
      | nil => exact ⟨rfl, rfl, rfl, rfl, rfl, rfl⟩
      | cons step rest => cases step <;> exact ⟨rfl, rfl, rfl, rfl, rfl, rfl⟩
  | _ => exact ⟨rfl, rfl, rfl, rfl, rfl, rfl⟩

theorem Shared.sameStart_initStep (config : Config) (shared : Shared) (step : InitStep) :
    shared.SameStart (shared.initStep config step) := by
  cases step with
  | startDefra | newHealthServer =>
      simp only [Shared.initStep]
      split <;> exact ⟨rfl, rfl, rfl, rfl, rfl, rfl⟩
  | startServices =>
      simp only [Shared.initStep]
      split <;> split <;> exact ⟨rfl, rfl, rfl, rfl, rfl, rfl⟩
  | _ => exact ⟨rfl, rfl, rfl, rfl, rfl, rfl⟩

theorem Shared.isStarted_initStep (config : Config) (shared : Shared) (step : InitStep)
    (started : (shared.initStep config step).isStarted = true) : shared.isStarted = true := by
  cases step with
  | startDefra | newHealthServer =>
      simp only [Shared.initStep] at started
      split at started <;> exact started
  | startServices =>
      simp only [Shared.initStep] at started
      split at started <;> split at started <;> exact started
  | setIntent => cases started
  | _ => exact started

theorem consistent_startEffect {config : Config} {state : State} {move : Move}
    (consistent : state.shared.Consistent) (enabled : enabled config state move) :
    (startEffect config state.shared move).Consistent := by
  obtain ⟨channel, expects⟩ := consistent
  cases move with
  | beginStart =>
      rw [show state.shared.start = .idle from enabled] at expects
      exact ⟨rfl, rfl, rfl, expects.2.2⟩
  | init step rest =>
      have same := state.shared.sameStart_initStep config step
      rw [enabled.1] at expects
      refine ⟨same.startDone.trans (channel.trans same.startInProgress.symm), ?_⟩
      exact ⟨same.startInProgress.trans expects.1, same.closes.trans expects.2.1,
        same.indexing.trans expects.2.2.1, same.loopDone.trans expects.2.2.2⟩
  | initFails step rest outcome =>
      rw [enabled.1] at expects
      exact ⟨channel, expects.2.2.1, .inl ⟨expects.1, expects.2.1⟩⟩
  | enterLoop =>
      rw [enabled.1] at expects
      exact ⟨channel, expects⟩
  | skipLoop =>
      rw [enabled.1] at expects
      exact ⟨channel, expects.2.2.1, .inl ⟨expects.1, expects.2.1⟩⟩
  | setStarted =>
      rw [show state.shared.start = .entering from enabled] at expects
      exact ⟨channel, expects⟩
  | register =>
      rw [show state.shared.start = .registering from enabled] at expects
      exact ⟨channel, expects.1, expects.2.1, rfl, expects.2.2.2⟩
  | handOver =>
      rw [show state.shared.start = .handingOver from enabled] at expects
      obtain ⟨inProgress, opened, handles, done⟩ := expects
      refine ⟨rfl, rfl, ?_, handles, done⟩
      rw [inProgress] at channel
      simp only [startEffect, Shared.markStartSettled, channel, opened, if_true]
  | loopEnds outcome =>
      rw [enabled.1] at expects
      exact ⟨channel, expects⟩
  | closeDone outcome =>
      rw [show state.shared.start = .closing outcome from enabled] at expects
      exact ⟨channel, expects.1, expects.2.1, expects.2.2.1, rfl⟩
  | unregister outcome =>
      rw [show state.shared.start = .unregistering outcome from enabled] at expects
      exact ⟨channel, rfl, .inr ⟨expects.1, expects.2.1⟩⟩
  | settle outcome =>
      rw [show state.shared.start = .settling outcome from enabled] at expects
      refine ⟨rfl, rfl, ?_, expects.1⟩
      cases expects.2 with
      | inl opened =>
          rw [opened.1] at channel
          simp only [startEffect, Shared.markStartSettled, channel, opened.2, if_true]
      | inr settled =>
          rw [settled.1] at channel
          simp only [startEffect, Shared.markStartSettled, channel, settled.2, Bool.false_eq_true,
            if_false]
  | finish outcome =>
      rw [show state.shared.start = .finishing outcome from enabled] at expects
      refine ⟨channel, ?_⟩
      simp only [startEffect]
      split <;> exact expects
  | guardReturns =>
      rw [enabled.1] at expects
      exact ⟨channel, expects⟩
  | callStop | stop => exact ⟨channel, expects⟩

/-- What a move of the start can mean for a stop. -/
structure Shared.StartStep (shared other : Shared) : Prop where
  begun : shared.start ≠ .idle → other.start ≠ .idle
  inProgress : other.startInProgress = true →
    shared.startInProgress = true ∨ shared.start = .idle
  handles : shared.indexing = true ∨ shared.loopDone = true →
    other.indexing = true ∨ other.loopDone = true
  flags : other.isStarted = true → shared.isStarted = true ∨ shared.startInProgress = true
  running : other.start.running = true →
    shared.start.running = true ∨ shared.startInProgress = true

theorem startStep_startEffect {config : Config} {state : State} {move : Move}
    (consistent : state.shared.Consistent) (enabled : enabled config state move) :
    state.shared.StartStep (startEffect config state.shared move) := by
  have expects := consistent.expects
  cases move with
  | beginStart =>
      exact ⟨fun _ => by simp [startEffect, Shared.beginStart], fun _ => .inr enabled, id, .inl,
        fun running => by cases running⟩
  | init step rest =>
      have same := state.shared.sameStart_initStep config step
      refine ⟨fun _ => by simp [startEffect], fun active => .inl ?_, ?_, fun started => .inl ?_,
        fun running => by cases running⟩
      · exact same.startInProgress.symm.trans active
      · intro kept
        exact kept.imp same.indexing.trans same.loopDone.trans
      · exact state.shared.isStarted_initStep config step started
  | initFails | enterLoop | skipLoop =>
      exact ⟨fun _ => by simp [startEffect], .inl, id, .inl, fun running => by cases running⟩
  | setStarted =>
      rw [show state.shared.start = .entering from enabled] at expects
      exact ⟨fun _ => by simp [startEffect], .inl, id, fun _ => .inr expects.1,
        fun running => by cases running⟩
  | register =>
      exact ⟨fun _ => by simp [startEffect], .inl, fun _ => .inl rfl, .inl,
        fun running => by cases running⟩
  | handOver =>
      rw [show state.shared.start = .handingOver from enabled] at expects
      exact ⟨fun _ => by simp [startEffect], fun active => (by cases active), id, .inl,
        fun _ => .inr expects.1⟩
  | loopEnds outcome =>
      refine ⟨fun _ => by simp [startEffect], .inl, id, .inl, fun _ => .inl ?_⟩
      rw [enabled.1]
      rfl
  | closeDone outcome =>
      exact ⟨fun _ => by simp [startEffect], .inl, fun _ => .inr rfl, .inl,
        fun running => by cases running⟩
  | unregister outcome =>
      rw [show state.shared.start = .unregistering outcome from enabled] at expects
      exact ⟨fun _ => by simp [startEffect], .inl, fun _ => .inr expects.2.2.2, .inl,
        fun running => by cases running⟩
  | settle outcome =>
      exact ⟨fun _ => by simp [startEffect], fun active => (by cases active), id, .inl,
        fun running => by cases running⟩
  | finish outcome =>
      simp only [startEffect]
      split <;> exact ⟨fun _ => by simp, .inl, id, .inl, fun running => by cases running⟩
  | guardReturns =>
      exact ⟨fun _ => by simp [startEffect], .inl, id, .inl, fun running => by cases running⟩
  | callStop | stop => exact ⟨id, .inl, id, .inl, .inl⟩

/-! ### Moves of the stops -/

/-- Behind the settle check. -/
def StopPhase.past : StopPhase → Bool
  | .draining | .cancellingLoop | .waitingLoop | .teardown _ => true
  | _ => false

def StopPhase.drains : StopPhase → Bool
  | .cancellingLoop | .waitingLoop => true
  | _ => false

/-- The lifecycle flags were cleared. -/
def StopPhase.cleared : StopPhase → Bool
  | .teardown rest => !rest.contains .clearFlags
  | .returned => true
  | _ => false

/-- What a stop relies on where it is; `late` says that it began after the start. -/
structure StopPhase.Sound (shared : Shared) (late : Bool) (phase : StopPhase) : Prop where
  begun : late = true → shared.start ≠ .idle
  waits : phase = .waitingStart → shared.start ≠ .idle
  drains : phase.drains = true → shared.indexing = true ∨ shared.loopDone = true
  settled : late = true → phase.past = true ∨ phase = .returned → shared.startInProgress = false
  cleared : late = true → phase.cleared = true → shared.isStarted = false

theorem StopPhase.settled_of_cleared {phase : StopPhase} (cleared : phase.cleared = true) :
    phase.past = true ∨ phase = .returned := by
  cases phase with
  | teardown => exact .inl rfl
  | returned => exact .inr rfl
  | _ => cases cleared

theorem StopPhase.Sound.startStep {shared other : Shared} {late : Bool} {phase : StopPhase}
    (sound : phase.Sound shared late) (step : shared.StartStep other) : phase.Sound other late where
  begun := fun began => step.begun (sound.begun began)
  waits := fun waiting => step.begun (sound.waits waiting)
  drains := fun draining => step.handles (sound.drains draining)
  settled := by
    intro began past
    by_contra active
    rw [Bool.not_eq_false] at active
    cases step.inProgress active with
    | inl before => rw [sound.settled began past] at before; cases before
    | inr idle => exact sound.begun began idle
  cleared := by
    intro began cleared
    by_contra started
    rw [Bool.not_eq_false] at started
    cases step.flags started with
    | inl before => rw [sound.cleared began cleared] at before; cases before
    | inr active =>
        rw [sound.settled began (settled_of_cleared cleared)] at active
        cases active

/-- A stop changes nothing that another stop relies on. -/
theorem StopPhase.startStep_act (shared : Shared) (phase : StopPhase) :
    shared.StartStep (phase.act shared) := by
  have same := phase.sameStart_act shared
  refine ⟨fun begun => same.start ▸ begun, fun active => .inl (same.startInProgress ▸ active),
    fun kept => ?_, fun started => .inl ?_, fun running => .inl (same.start ▸ running)⟩
  · rw [same.indexing, same.loopDone]
    exact kept
  · cases phase with
    | teardown rest =>
        cases rest with
        | nil => exact started
        | cons step rest =>
            cases step with
            | clearFlags => cases started
            | _ => exact started
    | _ => exact started

/-- In front of the settle check. -/
def StopPhase.early : StopPhase → Bool
  | .idle | .locking | .locked | .cancelling | .settling => true
  | _ => false

theorem StopPhase.Sound.of_early {shared : Shared} {late : Bool} {phase : StopPhase}
    (begun : late = true → shared.start ≠ .idle) (early : phase.early = true) :
    phase.Sound shared late := by
  cases phase with
  | idle | locking | locked | cancelling | settling =>
      refine ⟨begun, fun waiting => (by cases waiting), fun drains => (by cases drains), ?_,
        fun _ cleared => by cases cleared⟩
      intro _ past
      cases past with
      | inl past => cases past
      | inr returned => cases returned
  | _ => cases early

/-- A stop passes the settle check only when the start has settled. -/
theorem StopPhase.settled_next {shared : Shared} {phase : StopPhase} {stopMu : Option StopId}
    (consistent : shared.Consistent) (ready : phase.ready shared stopMu)
    (before : phase.past = true → shared.startInProgress = false)
    (past : (phase.next shared).past = true ∨ phase.next shared = .returned) :
    shared.startInProgress = false := by
  cases phase with
  | idle | returned => exact absurd ready not_false
  | locking | cancelling => rcases past with past | past <;> cases past
  | locked =>
      simp only [StopPhase.next] at past
      split at past <;> rcases past with past | past <;> cases past
  | settling =>
      simp only [StopPhase.next] at past
      split at past
      · rcases past with past | past <;> cases past
      · rename_i settled
        rw [consistent.channel, Bool.and_self, Bool.not_eq_true] at settled
        exact settled
  | waitingStart =>
      by_contra active
      rw [Bool.not_eq_false] at active
      exact absurd (consistent.of_inProgress active).2 (Nat.ne_of_gt ready)
  | draining | cancellingLoop | waitingLoop | teardown => exact before rfl

/-- A stop that moves on relies on what it has just found. -/
theorem StopPhase.Sound.next {shared : Shared} {late : Bool} {phase : StopPhase}
    {stopMu : Option StopId} (consistent : shared.Consistent) (sound : phase.Sound shared late)
    (ready : phase.ready shared stopMu) :
    (phase.next shared).Sound (phase.act shared) late := by
  have moved := sound.startStep (phase.startStep_act shared)
  have same := phase.sameStart_act shared
  have settled : late = true → (phase.next shared).past = true ∨ phase.next shared = .returned →
      (phase.act shared).startInProgress = false := by
    intro began past
    rw [same.startInProgress]
    exact settled_next consistent ready (fun before => sound.settled began (.inl before)) past
  refine ⟨moved.begun, ?_, ?_, settled, ?_⟩
  · intro waits
    cases phase with
    | settling =>
        simp only [StopPhase.next] at waits
        split at waits
        · rename_i active
          rw [Bool.and_eq_true] at active
          exact (consistent.of_inProgress active.1).1
        · cases waits
    | locked | draining =>
        simp only [StopPhase.next] at waits
        split at waits <;> cases waits
    | teardown rest => cases rest <;> cases waits
    | _ => cases waits
  · intro drains
    cases phase with
    | draining =>
        simp only [StopPhase.next] at drains
        split at drains
        · rename_i handles
          exact .inl handles
        · cases drains
    | cancellingLoop => exact moved.drains rfl
    | locked | settling =>
        simp only [StopPhase.next] at drains
        split at drains <;> cases drains
    | teardown rest => cases rest <;> cases drains
    | _ => cases drains
  · intro began cleared
    cases phase with
    | teardown rest =>
        cases rest with
        | nil => exact moved.cleared began rfl
        | cons step rest =>
            -- the flags are cleared by this step or were before it
            by_cases clears : step = .clearFlags
            · rw [clears]
              rfl
            · apply moved.cleared began
              simp only [StopPhase.next, StopPhase.cleared, Bool.not_eq_true', List.contains_cons,
                Bool.or_eq_false_iff] at cleared ⊢
              exact ⟨by simpa using Ne.symm clears, cleared⟩
    | returned => exact absurd ready not_false
    | locked | settling | draining =>
        simp only [StopPhase.next] at cleared
        split at cleared <;> cases cleared
    | _ => cases cleared

/-! ### Runs -/

structure Invariant (state : State) : Prop where
  consistent : state.shared.Consistent
  locked : ∀ id, (state.stops id).holds = true ↔ state.stopMu = some id
  sound : ∀ id, (state.stops id).Sound state.shared (state.late id)
  guard : state.stops .guard ≠ .idle →
    state.shared.start = .guardStop ∨ state.shared.start = .returned

theorem invariant_initial : Invariant {} := by
  refine ⟨⟨rfl, rfl, rfl, rfl, rfl⟩, fun id => ?_, fun id => .of_early (by intro late; cases late) rfl,
    fun called => absurd rfl called⟩
  constructor <;> intro held <;> cases held

/-- A call waits for `stopMu`. -/
theorem Invariant.call {state : State} (invariant : Invariant state) {id : StopId}
    (fresh : state.stops id = .idle)
    (guarded : id = .guard → state.shared.start = .guardStop ∨ state.shared.start = .returned) :
    Invariant (state.call id) where
  consistent := invariant.consistent
  locked := by
    intro other
    by_cases same : other = id
    · have free := invariant.locked id
      rw [fresh] at free
      rw [same]
      simp only [State.call, Function.update_self]
      exact free
    · simp only [State.call, Function.update_of_ne same]
      exact invariant.locked other
  sound := by
    intro other
    by_cases same : other = id
    · rw [same]
      simp only [State.call, Function.update_self]
      exact .of_early of_decide_eq_true rfl
    · simp only [State.call, Function.update_of_ne same]
      exact invariant.sound other
  guard := by
    by_cases own : id = .guard
    · exact fun _ => guarded own
    · simp only [State.call, Function.update_of_ne (Ne.symm own)]
      exact invariant.guard

/-- Only one move leaves the phase in which the start waits for its own stop. -/
theorem guard_startEffect {config : Config} {state : State} {move : Move}
    (enabled : enabled config state move)
    (waits : state.shared.start = .guardStop ∨ state.shared.start = .returned) :
    (startEffect config state.shared move).start = .guardStop ∨
      (startEffect config state.shared move).start = .returned := by
  have away : ∀ {phase : StartPhase}, state.shared.start = phase → phase ≠ .guardStop →
      phase ≠ .returned → False := by
    intro phase there stop finished
    rw [there] at waits
    exact waits.elim stop finished
  cases move with
  | beginStart | setStarted | register | handOver | closeDone | unregister | settle | finish =>
      exact (away enabled (by simp) (by simp)).elim
  | init | initFails | enterLoop | skipLoop | loopEnds =>
      exact (away enabled.1 (by simp) (by simp)).elim
  | guardReturns => exact .inr rfl
  | callStop | stop => exact waits

theorem Invariant.startEffect {config : Config} {state : State} {move : Move}
    (invariant : Invariant state) (enabled : enabled config state move) :
    Invariant { state with shared := startEffect config state.shared move } where
  consistent := consistent_startEffect invariant.consistent enabled
  locked := invariant.locked
  sound := fun id =>
    (invariant.sound id).startStep (startStep_startEffect invariant.consistent enabled)
  guard := fun called => guard_startEffect enabled (invariant.guard called)

theorem StopPhase.holds_next {shared : Shared} {phase : StopPhase} {id : StopId}
    {stopMu : Option StopId} (ready : phase.ready shared stopMu)
    (locked : phase.holds = true ↔ stopMu = some id) :
    (phase.next shared).holds = true ↔ phase.lock id stopMu = some id := by
  cases phase with
  | idle | returned => exact absurd ready not_false
  | locking => exact iff_of_true rfl rfl
  | locked | settling | draining =>
      simp only [StopPhase.next]
      split <;> exact locked
  | cancelling | waitingStart | cancellingLoop | waitingLoop => exact locked
  | teardown rest =>
      cases rest with
      | nil => exact iff_of_false (by simp [StopPhase.next, StopPhase.holds]) (by simp [StopPhase.lock])
      | cons step rest => exact locked

theorem StopPhase.lock_other {shared : Shared} {phase : StopPhase} {id other : StopId}
    {stopMu : Option StopId} (ready : phase.ready shared stopMu)
    (locked : phase.holds = true ↔ stopMu = some id) (different : other ≠ id) :
    phase.lock id stopMu = some other ↔ stopMu = some other := by
  cases phase with
  | locking =>
      rw [show stopMu = none from ready]
      simp [StopPhase.lock, Ne.symm different]
  | teardown rest =>
      cases rest with
      | nil =>
          rw [locked.mp rfl]
          simp [StopPhase.lock, Ne.symm different]
      | cons step rest => exact Iff.rfl
  | _ => exact Iff.rfl

theorem Invariant.stop {config : Config} {state : State} (invariant : Invariant state)
    {id : StopId} (ready : (state.stops id).ready state.shared state.stopMu) :
    Invariant (effect config state (.stop id)) where
  consistent := ((state.stops id).sameStart_act state.shared).consistent invariant.consistent
  locked := by
    intro other
    by_cases same : other = id
    · rw [same]
      simp only [effect, Function.update_self]
      exact StopPhase.holds_next ready (invariant.locked id)
    · simp only [effect, Function.update_of_ne same]
      rw [invariant.locked other]
      exact (StopPhase.lock_other ready (invariant.locked id) same).symm
  sound := by
    intro other
    by_cases same : other = id
    · rw [same]
      simp only [effect, Function.update_self]
      exact (invariant.sound id).next invariant.consistent ready
    · simp only [effect, Function.update_of_ne same]
      exact (invariant.sound other).startStep ((state.stops id).startStep_act state.shared)
  guard := by
    intro called
    simp only [effect]
    rw [((state.stops id).sameStart_act state.shared).start]
    apply invariant.guard
    intro idle
    apply called
    by_cases own : StopId.guard = id
    · rw [← own, idle] at ready
      exact absurd ready not_false
    · simp only [effect, Function.update_of_ne own, idle]

theorem invariant_effect {config : Config} {state : State} {move : Move}
    (invariant : Invariant state) (enabled : enabled config state move) :
    Invariant (effect config state move) := by
  cases move with
  | finish outcome =>
      have next := invariant.startEffect enabled
      by_cases finished : finishes state.shared outcome = true
      · simp only [effect, finished, if_true]
        exact next
      · simp only [effect, finished]
        apply next.call
        · by_contra called
          have waits := invariant.guard called
          rw [show state.shared.start = .finishing outcome from enabled] at waits
          rcases waits with waits | waits <;> cases waits
        · intro _
          simp [startEffect, finished]
  | callStop number => exact invariant.call enabled (by intro own; cases own)
  | stop id => exact invariant.stop enabled
  | _ => exact invariant.startEffect enabled

/-- What holds in every run. -/
theorem invariant_path {config : Config} {state : State}
    (path : (lifecycle config).Path {} state) : Invariant state :=
  path.invariant invariant_initial fun _ _ invariant enabled => invariant_effect invariant enabled

/-! ### Waiting -/

/-- The stop with `stopMu` waits for the start, and the start for its own stop. -/
def WaitCycle (state : State) : Prop :=
  state.shared.start = .guardStop ∧
    ∃ id, state.stopMu = some id ∧ ¬ (state.stops id).ready state.shared state.stopMu

/-- A stop with `stopMu` is blocked by nothing but a channel of the start. -/
theorem StopPhase.blocked_cases {shared : Shared} {stopMu : Option StopId} {phase : StopPhase}
    (held : phase.holds = true) (blocked : ¬ phase.ready shared stopMu) :
    phase = .waitingStart ∧ shared.closes = 0 ∨ phase = .waitingLoop ∧ shared.loopDone = false := by
  cases phase with
  | idle | locking | returned => cases held
  | waitingStart => exact .inl ⟨rfl, Nat.eq_zero_of_not_pos blocked⟩
  | waitingLoop => exact .inr ⟨rfl, Bool.not_eq_true _ ▸ blocked⟩
  | locked | cancelling | settling | draining | cancellingLoop | teardown =>
      exact absurd trivial blocked

/-- What a blocked stop waits for: a start before its settling, or its indexing loop. -/
theorem Invariant.blocked {state : State} (invariant : Invariant state) {id : StopId}
    (holder : state.stopMu = some id)
    (blocked : ¬ (state.stops id).ready state.shared state.stopMu) :
    state.shared.unsettled ∨ state.shared.indexing = true ∧ state.shared.loopDone = false := by
  have sound := invariant.sound id
  have held := (invariant.locked id).mpr holder
  cases StopPhase.blocked_cases held blocked with
  | inl waiting => exact .inl ⟨sound.waits waiting.1, waiting.2⟩
  | inr waiting =>
      have drains := sound.drains (by rw [waiting.1]; rfl)
      rw [waiting.2, or_iff_left (by simp)] at drains
      exact .inr ⟨drains, waiting.2⟩

theorem Invariant.no_waitCycle {state : State} (invariant : Invariant state) :
    ¬ WaitCycle state := by
  intro cycle
  obtain ⟨waits, id, holder, blocked⟩ := cycle
  have expects := invariant.consistent.expects
  rw [waits] at expects
  cases invariant.blocked holder blocked with
  | inl unsettled => exact absurd (expects.2.1.symm.trans unsettled.2) (by decide)
  | inr looping =>
      rw [expects.2.2] at looping
      cases looping.1

/-! ### A start that no stop overlooks -/

/-- A start does not begin while a stop is behind its settle check. -/
def Undisturbed (state : State) (move : Move) : Prop :=
  move = .beginStart → ∀ id, (state.stops id).past = false

/-- A stop behind its settle check finds the start settled, and no loop runs under its
teardown. -/
structure Quiet (state : State) : Prop where
  past : ∀ id, (state.stops id).past = true → state.shared.startInProgress = false
  torn : ∀ id rest, state.stops id = .teardown rest → state.shared.start.running = false

theorem inProgress_startEffect {config : Config} {shared : Shared} {move : Move}
    (other : move ≠ .beginStart)
    (active : (startEffect config shared move).startInProgress = true) :
    shared.startInProgress = true := by
  cases move with
  | beginStart => exact absurd rfl other
  | init step rest => exact (shared.sameStart_initStep config step).startInProgress ▸ active
  | handOver | settle => cases active
  | _ => exact active

theorem Quiet.startEffect {config : Config} {state : State} {move : Move}
    (quiet : Quiet state) (invariant : Invariant state) (enabled : enabled config state move)
    (undisturbed : Undisturbed state move) :
    Quiet { state with shared := startEffect config state.shared move } := by
  have step := startStep_startEffect invariant.consistent enabled
  by_cases begins : move = .beginStart
  · have none := undisturbed begins
    refine ⟨fun id past => ?_, fun id rest torn => ?_⟩
    · rw [none id] at past
      cases past
    · have past := none id
      rw [show state.stops id = .teardown rest from torn] at past
      cases past
  · refine ⟨fun id past => ?_, fun id rest torn => ?_⟩
    · by_contra active
      rw [Bool.not_eq_false] at active
      have before := inProgress_startEffect begins active
      rw [quiet.past id past] at before
      cases before
    · by_contra running
      rw [Bool.not_eq_false] at running
      cases step.running running with
      | inl before => rw [quiet.torn id rest torn] at before; cases before
      | inr active =>
          have past := quiet.past id (by rw [show state.stops id = .teardown rest from torn]; rfl)
          rw [past] at active
          cases active

/-- A stop begins its teardown only when the loop does not run. -/
theorem StopPhase.torn_next {shared : Shared} {phase : StopPhase} {stopMu : Option StopId}
    (consistent : shared.Consistent) (ready : phase.ready shared stopMu)
    (before : ∀ rest, phase = .teardown rest → shared.start.running = false)
    {rest : List TeardownStep} (torn : phase.next shared = .teardown rest) :
    shared.start.running = false := by
  have expects := consistent.expects
  have still : shared.indexing = false ∨ shared.loopDone = true → shared.start.running = false := by
    intro still
    cases there : shared.start with
    | loop | closing =>
        rw [there] at expects
        rw [expects.2.2.1, expects.2.2.2] at still
        rcases still with still | still <;> cases still
    | _ => rfl
  cases phase with
  | draining =>
      simp only [StopPhase.next] at torn
      split at torn
      · cases torn
      · rename_i handles
        exact still (.inl (Bool.not_eq_true _ ▸ handles))
  | waitingLoop => exact still (.inr ready)
  | teardown rest => exact before rest rfl
  | locked | settling =>
      simp only [StopPhase.next] at torn
      split at torn <;> cases torn
  | _ => cases torn

theorem Quiet.stop {config : Config} {state : State} (quiet : Quiet state)
    (invariant : Invariant state) {id : StopId}
    (ready : (state.stops id).ready state.shared state.stopMu) :
    Quiet (effect config state (.stop id)) := by
  have same := (state.stops id).sameStart_act state.shared
  refine ⟨fun other => ?_, fun other rest => ?_⟩
  · simp only [effect]
    rw [same.startInProgress]
    by_cases own : other = id
    · rw [own, Function.update_self]
      exact fun past =>
        StopPhase.settled_next invariant.consistent ready (quiet.past id) (.inl past)
    · rw [Function.update_of_ne own]
      exact quiet.past other
  · simp only [effect]
    rw [same.start]
    by_cases own : other = id
    · rw [own, Function.update_self]
      exact StopPhase.torn_next invariant.consistent ready (quiet.torn id)
    · rw [Function.update_of_ne own]
      exact quiet.torn other rest

theorem Quiet.call {state : State} (quiet : Quiet state) (id : StopId) : Quiet (state.call id) := by
  refine ⟨fun other => ?_, fun other rest => ?_⟩
  · simp only [State.call]
    by_cases own : other = id
    · rw [own, Function.update_self]
      intro past
      cases past
    · rw [Function.update_of_ne own]
      exact quiet.past other
  · simp only [State.call]
    by_cases own : other = id
    · rw [own, Function.update_self]
      intro torn
      cases torn
    · rw [Function.update_of_ne own]
      exact quiet.torn other rest

theorem quiet_effect {config : Config} {state : State} {move : Move} (quiet : Quiet state)
    (invariant : Invariant state) (enabled : enabled config state move)
    (undisturbed : Undisturbed state move) : Quiet (effect config state move) := by
  cases move with
  | finish outcome =>
      have next := quiet.startEffect invariant enabled undisturbed
      simp only [effect]
      split
      · exact next
      · exact next.call .guard
  | callStop number => exact quiet.call _
  | stop id => exact quiet.stop invariant enabled
  | _ => exact quiet.startEffect invariant enabled undisturbed

/-! ### What the stops guarantee -/

/-- The guarantees of starting and stopping: no teardown step under an unsettled start or
a running loop, one close of the settle channel, no cycle of waits, and a stopped
indexer behind the last stop. -/
structure Safe (state : State) : Prop where
  teardown : ∀ id step rest, state.stops id = .teardown (step :: rest) →
    ¬ state.shared.unsettled ∧ state.shared.start.running = false
  closedOnce : state.shared.closes ≤ 1 ∧
    (state.shared.start = .returned → state.shared.closes = 1)
  acyclic : ¬ WaitCycle state
  stopped : state.shared.start = .returned → (∃ id, state.late id = true) →
    (∀ id, state.late id = true → state.stops id = .returned) → state.shared.isStarted = false

theorem Invariant.closedOnce {state : State} (invariant : Invariant state) :
    state.shared.closes ≤ 1 ∧ (state.shared.start = .returned → state.shared.closes = 1) := by
  refine ⟨invariant.consistent.closes_le, fun returned => ?_⟩
  have expects := invariant.consistent.expects
  rw [returned] at expects
  exact expects.2.1

theorem Invariant.stopped {state : State} (invariant : Invariant state)
    (some : ∃ id, state.late id = true)
    (all : ∀ id, state.late id = true → state.stops id = .returned) :
    state.shared.isStarted = false := by
  obtain ⟨id, late⟩ := some
  exact (invariant.sound id).cleared late (by rw [all id late]; rfl)

/-- In every run in which no start begins while a stop is between its settle check and
its return, starting and stopping keep their guarantees. -/
theorem undisturbed_start_safe {config : Config} {state : State}
    (path : ((lifecycle config).restrict Undisturbed).Path {} state) : Safe state := by
  have invariant := invariant_path path.of_restrict
  have quiet : Quiet state := by
    refine path.invariant_under (fun _ reached => invariant_path reached.of_restrict) ?_ ?_
    · refine ⟨fun id past => ?_, fun id rest torn => ?_⟩
      · cases past
      · cases torn
    · exact fun _ _ invariant quiet enabled => quiet_effect quiet invariant enabled.1 enabled.2
  refine ⟨fun id step rest torn => ⟨fun unsettled => ?_, quiet.torn id _ torn⟩,
    invariant.closedOnce, invariant.no_waitCycle, fun _ => invariant.stopped⟩
  have active := invariant.consistent.inProgress unsettled
  rw [quiet.past id (by rw [torn]; rfl)] at active
  cases active

/-! A stop that begins before the start, and one that begins during it. -/

def oneWorker : Config where
  concurrentBlocks := 1
  healthServer := false
  pruner := false
  snapshot := false

def firstStop : Move := .stop (.external 0)

/-- A stop finds no start to wait for, and tears down what the start then sets up. -/
theorem overlooked_start_torn_down :
    ∃ state, (lifecycle oneWorker).Path {} state ∧ ¬ Safe state := by
  have executed : ((lifecycle oneWorker).run?
      [.callStop 0, firstStop, firstStop, firstStop, firstStop, .beginStart] {}).any
      (fun state => state.stops (.external 0) = .teardown teardownSteps &&
        state.shared.start = .init initSteps && state.shared.closes = 0) = true := by decide
  obtain ⟨state, reached, facts⟩ := GuardedSystem.exists_path_of_run? executed
  simp only [Bool.and_eq_true, decide_eq_true_eq] at facts
  obtain ⟨⟨torn, started⟩, opened⟩ := facts
  refine ⟨state, reached, fun safe => ?_⟩
  exact (safe.teardown (.external 0) _ _ torn).1 ⟨by rw [started]; simp, opened⟩

/-- The moves of an initialization that succeeds. -/
def initMoves : List InitStep → List Move
  | [] => []
  | step :: rest => .init step rest :: initMoves rest

/-- A stop during the start waits for the hand-over and drains the loop. -/
def stoppedRun : List Move :=
  initMoves initSteps ++ [.enterLoop, .setStarted, .callStop 0, firstStop, firstStop, firstStop,
    firstStop, .register, .handOver, firstStop, firstStop, firstStop, .loopEnds .ok,
    .closeDone .ok, .unregister .ok, .settle .ok, .finish .ok, firstStop] ++
    List.replicate 9 firstStop

theorem stopped_start_safe :
    ∃ state, ((lifecycle oneWorker).restrict Undisturbed).Path {} state ∧
      state.shared.start = .returned ∧ state.stops (.external 0) = .returned ∧ Safe state := by
  have begins : ((lifecycle oneWorker).restrict Undisturbed).enabled {} .beginStart :=
    ⟨rfl, fun _ _ => rfl⟩
  have executed : ((lifecycle oneWorker).run? stoppedRun
      ((lifecycle oneWorker).effect {} .beginStart)).any
      (fun state => state.shared.start = .returned &&
        state.stops (.external 0) = .returned) = true := by decide +kernel
  cases found : (lifecycle oneWorker).run? stoppedRun
      ((lifecycle oneWorker).effect {} .beginStart) with
  | none => simp [found] at executed
  | some state =>
      rw [found, Option.any_some, Bool.and_eq_true, decide_eq_true_eq, decide_eq_true_eq] at executed
      have others : ∀ move ∈ stoppedRun, ∀ state, Undisturbed state move := by
        have never : ∀ move ∈ stoppedRun, move ≠ .beginStart := by decide
        exact fun move member _ begins => absurd begins (never move member)
      have path := (GuardedSystem.Path.refl.step begins).trans
        (GuardedSystem.path_of_run?_restrict others found)
      exact ⟨state, path, executed.1, executed.2, undisturbed_start_safe path⟩

end ShinzoGenerator.Indexer.Lifecycle
