import Mathlib.Logic.Function.Basic
import ShinzoGenerator.Lib.GuardedSystem

/-! Starting and stopping the indexer. One start and any number of stops move at their
mutex and channel boundaries: a start initializes, hands its shutdown over to the
indexing loop and returns; stops are serialized, abort an unsettled start, drain the
loop and tear the subsystems down. Neither timeout fires. -/

set_option autoImplicit false

namespace ShinzoGenerator.Indexer.Lifecycle

inductive Subsystem where
  | snapshotter
  | pruner
  | healthServer
  | fetcher
  | networkHandler
  | defraNode
deriving DecidableEq

structure Config where
  defraStarted : Bool := false
  concurrentBlocks : Nat
  healthServer : Bool
  pruner : Bool
  snapshot : Bool

/-- The steps of a start in front of the indexing loop. -/
inductive InitStep where
  | newFetcher
  | newConverter
  | startDefra
  | waitForDefra
  | connect
  | newBlockHandler
  | resolveStartHeight
  | setIntent
  | newHealthServer
  | enableSchemaEndpoint
  | startServices
deriving DecidableEq

def initSteps : List InitStep :=
  [.newFetcher, .newConverter, .startDefra, .waitForDefra, .connect, .newBlockHandler,
    .resolveStartHeight, .setIntent, .newHealthServer, .enableSchemaEndpoint, .startServices]

/-- The steps of `teardownSubsystems`. -/
inductive TeardownStep where
  | clearFlags
  | snapshotter
  | pruner
  | healthServer
  | fetcher
  | detachNode
  | stopNetwork
  | closeNode
deriving DecidableEq

def teardownSteps : List TeardownStep :=
  [.clearFlags, .snapshotter, .pruner, .healthServer, .fetcher, .detachNode, .stopNetwork,
    .closeNode]

/-- How a start ends: `cancelled` stands for an error that wraps a cancellation or the
stop itself. -/
inductive Outcome where
  | ok
  | cancelled
  | failed
deriving DecidableEq

/-- Where the start is. -/
inductive StartPhase where
  | idle
  | init (rest : List InitStep)
  | entering
  | registering
  | handingOver
  | loop
  | closing (outcome : Outcome)
  | unregistering (outcome : Outcome)
  | settling (outcome : Outcome)
  | finishing (outcome : Outcome)
  | guardStop
  | returned
deriving DecidableEq

/-- Where a stop is. -/
inductive StopPhase where
  | idle
  | locking
  | locked
  | cancelling
  | settling
  | waitingStart
  | draining
  | cancellingLoop
  | waitingLoop
  | teardown (rest : List TeardownStep)
  | returned
deriving DecidableEq

/-- A stop from outside, or the one that a failed start issues itself. -/
inductive StopId where
  | external (number : Nat)
  | guard
deriving DecidableEq

/-- The indexer's fields, the contexts and channels of its start, and where that is. -/
structure Shared where
  start : StartPhase := .idle
  startInProgress : Bool := false
  startDone : Bool := false
  /-- How often the settle channel was closed. -/
  closes : Nat := 0
  initCancel : Bool := false
  /-- Whether a stop cancelled the init context. -/
  initStopped : Bool := false
  /-- Whether the handles of the indexing loop are registered. -/
  indexing : Bool := false
  loopStopped : Bool := false
  loopDone : Bool := false
  shouldIndex : Bool := false
  isStarted : Bool := false
  owned : Subsystem → Bool := fun _ => false

structure State where
  shared : Shared := {}
  stops : StopId → StopPhase := fun _ => .idle
  /-- Whether a stop began after the start had begun. -/
  late : StopId → Bool := fun _ => false
  stopMu : Option StopId := none

/-! ### The start -/

namespace Shared

def setLifecycleFlags (shouldIndex isStarted : Bool) (shared : Shared) : Shared :=
  { shared with shouldIndex, isStarted }

def assign (subsystem : Subsystem) (present : Bool) (shared : Shared) : Shared :=
  { shared with owned := Function.update shared.owned subsystem present }

def beginStart (shared : Shared) : Shared :=
  { shared with
    start := .init initSteps
    startInProgress := true
    startDone := true
    closes := 0
    initCancel := true }

/-- Closes the settle channel unless that was done before. -/
def markStartSettled (shared : Shared) : Shared :=
  { shared with
    closes := if shared.startDone then shared.closes + 1 else shared.closes
    startDone := false
    startInProgress := false
    initCancel := false }

def initStep (config : Config) (shared : Shared) : InitStep → Shared
  | .newFetcher => shared.assign .fetcher true
  | .startDefra =>
      if config.defraStarted then shared
      else (shared.assign .defraNode true).assign .networkHandler true
  | .setIntent => shared.setLifecycleFlags true false
  | .newHealthServer => if config.healthServer then shared.assign .healthServer true else shared
  | .startServices =>
      let pruning :=
        if config.pruner && shared.owned .defraNode then shared.assign .pruner true else shared
      if config.snapshot && pruning.owned .defraNode then pruning.assign .snapshotter true
      else pruning
  | .newConverter | .waitForDefra | .connect | .newBlockHandler | .resolveStartHeight
  | .enableSchemaEndpoint => shared

def teardownStep (shared : Shared) : TeardownStep → Shared
  | .clearFlags => shared.setLifecycleFlags false false
  | .snapshotter => shared.assign .snapshotter false
  | .pruner => shared.assign .pruner false
  | .fetcher => shared.assign .fetcher false
  | .detachNode => (shared.assign .networkHandler false).assign .defraNode false
  -- these work on what was detached, and the health server stays assigned
  | .healthServer | .stopNetwork | .closeNode => shared

/-- The cause of the loop's context, which derives from the init context. -/
def stopped (shared : Shared) : Bool := shared.initStopped || shared.loopStopped

end Shared

/-- A move of the start names where it is taken. -/
inductive Move where
  | beginStart
  | init (step : InitStep) (rest : List InitStep)
  | initFails (step : InitStep) (rest : List InitStep) (outcome : Outcome)
  | enterLoop
  | skipLoop
  | setStarted
  | register
  | handOver
  | loopEnds (outcome : Outcome)
  | closeDone (outcome : Outcome)
  | unregister (outcome : Outcome)
  | settle (outcome : Outcome)
  | finish (outcome : Outcome)
  | guardReturns
  | callStop (number : Nat)
  | stop (id : StopId)
deriving DecidableEq

/-! ### The stops -/

/-- Whether a stop that is there can go on; the channels and `stopMu` may block it. -/
def StopPhase.ready (shared : Shared) (stopMu : Option StopId) : StopPhase → Prop
  | .idle | .returned => False
  | .locking => stopMu = none
  | .waitingStart => 0 < shared.closes
  | .waitingLoop => shared.loopDone = true
  | _ => True

instance (shared : Shared) (stopMu : Option StopId) :
    (phase : StopPhase) → Decidable (phase.ready shared stopMu)
  | .idle | .returned => .isFalse id
  | .locking => inferInstanceAs (Decidable (stopMu = none))
  | .waitingStart => inferInstanceAs (Decidable (0 < shared.closes))
  | .waitingLoop => inferInstanceAs (Decidable (shared.loopDone = true))
  | .locked | .cancelling | .settling | .draining | .cancellingLoop | .teardown _ => .isTrue trivial

/-- Where a stop goes next. -/
def StopPhase.next (shared : Shared) : StopPhase → StopPhase
  | .idle => .idle
  | .locking => .locked
  | .locked => if shared.initCancel then .cancelling else .settling
  | .cancelling => .settling
  | .settling => if shared.startInProgress && shared.startDone then .waitingStart else .draining
  | .waitingStart => .draining
  | .draining => if shared.indexing then .cancellingLoop else .teardown teardownSteps
  | .cancellingLoop => .waitingLoop
  | .waitingLoop => .teardown teardownSteps
  | .teardown (_ :: rest) => .teardown rest
  | .teardown [] => .returned
  | .returned => .returned

/-- What a stop does to the shared state where it is. -/
def StopPhase.act (shared : Shared) : StopPhase → Shared
  | .cancelling => { shared with initStopped := true }
  | .cancellingLoop => { shared with loopStopped := true }
  | .teardown (step :: _) => shared.teardownStep step
  | _ => shared

/-- Whether a stop has `stopMu`. -/
def StopPhase.holds : StopPhase → Bool
  | .idle | .locking | .returned => false
  | _ => true

def StopPhase.lock (id : StopId) (stopMu : Option StopId) : StopPhase → Option StopId
  | .locking => some id
  | .teardown [] => none
  | _ => stopMu

/-! ### Moves -/

def finishes (shared : Shared) : Outcome → Bool
  | .ok => true
  | .cancelled => shared.initStopped
  | .failed => false

def enabled (config : Config) (state : State) : Move → Prop
  | .beginStart => state.shared.start = .idle
  | .init step rest => state.shared.start = .init (step :: rest) ∧
      (step = .waitForDefra → state.shared.owned .defraNode = true)
  | .initFails step rest outcome => state.shared.start = .init (step :: rest) ∧ outcome ≠ .ok
  | .enterLoop => state.shared.start = .init [] ∧ 1 ≤ config.concurrentBlocks ∧
      state.shared.owned .defraNode = true
  | .skipLoop => state.shared.start = .init [] ∧
      ¬ (1 ≤ config.concurrentBlocks ∧ state.shared.owned .defraNode = true)
  | .setStarted => state.shared.start = .entering
  | .register => state.shared.start = .registering
  | .handOver => state.shared.start = .handingOver
  | .loopEnds outcome => state.shared.start = .loop ∧ (state.shared.stopped = true → outcome = .ok)
  | .closeDone outcome => state.shared.start = .closing outcome
  | .unregister outcome => state.shared.start = .unregistering outcome
  | .settle outcome => state.shared.start = .settling outcome
  | .finish outcome => state.shared.start = .finishing outcome
  | .guardReturns => state.shared.start = .guardStop ∧ state.stops .guard = .returned
  | .callStop number => state.stops (.external number) = .idle
  | .stop id => (state.stops id).ready state.shared state.stopMu

/-- A call of `StopIndexing`. -/
def State.call (id : StopId) (state : State) : State :=
  { state with
    stops := Function.update state.stops id .locking
    late := Function.update state.late id (state.shared.start ≠ .idle) }

/-- What the start does to the shared state. -/
def startEffect (config : Config) (shared : Shared) : Move → Shared
  | .beginStart => shared.beginStart
  | .init step rest => { shared.initStep config step with start := .init rest }
  | .initFails _ _ outcome => { shared with start := .settling outcome }
  | .enterLoop => { shared with start := .entering }
  | .skipLoop => { shared with start := .settling .ok }
  | .setStarted => { shared.setLifecycleFlags true true with start := .registering }
  | .register => { shared with start := .handingOver, indexing := true }
  | .handOver => { shared.markStartSettled with start := .loop }
  | .loopEnds outcome => { shared with start := .closing outcome }
  | .closeDone outcome => { shared with start := .unregistering outcome, loopDone := true }
  | .unregister outcome => { shared with start := .settling outcome, indexing := false }
  | .settle outcome => { shared.markStartSettled with start := .finishing outcome }
  | .finish outcome =>
      { shared with start := if finishes shared outcome then .returned else .guardStop }
  | .guardReturns => { shared with start := .returned }
  | .callStop _ | .stop _ => shared

def effect (config : Config) (state : State) : Move → State
  | .finish outcome =>
      let next := { state with shared := startEffect config state.shared (.finish outcome) }
      if finishes state.shared outcome then next else next.call .guard
  | .callStop number => state.call (.external number)
  | .stop id =>
      { state with
        shared := (state.stops id).act state.shared
        stops := Function.update state.stops id ((state.stops id).next state.shared)
        stopMu := (state.stops id).lock id state.stopMu }
  | move => { state with shared := startEffect config state.shared move }

/-- One start with any number of stops. -/
def lifecycle (config : Config) : GuardedSystem State Move where
  enabled := enabled config
  effect := effect config

instance (config : Config) (state : State) :
    (move : Move) → Decidable ((lifecycle config).enabled state move)
  | .beginStart => inferInstanceAs (Decidable (state.shared.start = .idle))
  | .init step rest => inferInstanceAs (Decidable (state.shared.start = .init (step :: rest) ∧
      (step = .waitForDefra → state.shared.owned .defraNode = true)))
  | .initFails step rest outcome =>
      inferInstanceAs (Decidable (state.shared.start = .init (step :: rest) ∧ outcome ≠ .ok))
  | .enterLoop => inferInstanceAs (Decidable (state.shared.start = .init [] ∧
      1 ≤ config.concurrentBlocks ∧ state.shared.owned .defraNode = true))
  | .skipLoop => inferInstanceAs (Decidable (state.shared.start = .init [] ∧
      ¬ (1 ≤ config.concurrentBlocks ∧ state.shared.owned .defraNode = true)))
  | .setStarted => inferInstanceAs (Decidable (state.shared.start = .entering))
  | .register => inferInstanceAs (Decidable (state.shared.start = .registering))
  | .handOver => inferInstanceAs (Decidable (state.shared.start = .handingOver))
  | .loopEnds outcome => inferInstanceAs (Decidable (state.shared.start = .loop ∧
      (state.shared.stopped = true → outcome = .ok)))
  | .closeDone outcome => inferInstanceAs (Decidable (state.shared.start = .closing outcome))
  | .unregister outcome => inferInstanceAs (Decidable (state.shared.start = .unregistering outcome))
  | .settle outcome => inferInstanceAs (Decidable (state.shared.start = .settling outcome))
  | .finish outcome => inferInstanceAs (Decidable (state.shared.start = .finishing outcome))
  | .guardReturns =>
      inferInstanceAs (Decidable (state.shared.start = .guardStop ∧ state.stops .guard = .returned))
  | .callStop number => inferInstanceAs (Decidable (state.stops (.external number) = .idle))
  | .stop id => inferInstanceAs (Decidable ((state.stops id).ready state.shared state.stopMu))

end ShinzoGenerator.Indexer.Lifecycle
