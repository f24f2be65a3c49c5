import ShinzoGenerator.Indexer.OrderedApply
import ShinzoGenerator.Lib.GuardedSystem

/-! One run of the processor as an interleaving of its goroutines: the dispatch
loop and the fetch workers, the collector, the pool workers, and cancellation.
Each move is a stretch of one goroutine between two points at which the others
can be observed. -/

set_option autoImplicit false

namespace ShinzoGenerator.Indexer

open Chains Defra

def defaultWorkersAhead : Nat := 2
def maxRewalksPerEpisode : Nat := 64
def maxGapRefillsPerWait : Nat := 64

/-! ### State -/

structure Setup where
  runStartBlock : Int
  seedHash : String := ""
  configuredStart : Int
  workers : Nat
deriving DecidableEq

/-- The pop cursor, the continuity check and the single held dispatch. -/
structure Checker where
  nextToCommit : Int
  pending : HeightMap BlockResult := ∅
  lastCheckedNum : Int
  lastCheckedHash : String
  holdingDispatch : Option BlockResult := none
deriving DecidableEq

/-- The store pool. An accepted item is queued, then inside `Store`, then its
completion waits to be sent, and last its registration waits for the `Done`. -/
structure Pool where
  storeChan : List BlockResult := []
  storing : List BlockResult := []
  reporting : List StoreCompletion := []
  unreleased : Nat := 0
  completionChan : List StoreCompletion := []
  storeClosed : Bool := false
  completionsClosed : Bool := false
  inFlight : Int := 0
deriving DecidableEq

/-- The stages of the dispatch goroutine. -/
inductive Phase where
  | dispatching
  | closing
  | awaitingStores
  | awaitingCollector
  | ended
deriving DecidableEq

/-- The dispatch loop and the fetch workers; `fetching` holds what is dispatched
and has neither a result nor been dropped. -/
structure Dispatcher where
  phase : Phase := .dispatching
  nextBlock : Int
  dispatchedUpTo : Int
  fetching : List Int := []
  resultChan : List BlockResult := []
  resultsClosed : Bool := false
deriving DecidableEq

/-- An episode being finalized: the confirming successor of a pop-time episode,
or the rest of the batch behind the opener of a stale-pinned one. -/
structure Finalization where
  confirmed : Option BlockResult := none
  rest : List StoreCompletion := []
deriving DecidableEq

/-- Where the collector goroutine stands. -/
inductive Pc where
  | loop
  | check (next : BlockResult)
  | resolve (item : BlockResult)
  | refetch (item : BlockResult)
  | hold
  | select
  | drain (fin : Finalization)
  | tail (fin : Finalization)
  | walk (fin : Finalization)
  | returned
deriving DecidableEq

/-- What has happened in the run; no move reads it. -/
structure Trace where
  checked : List BlockResult := []
  holes : List Int := []
  handed : List BlockResult := []
  received : List StoreCompletion := []
  gathered : List StoreCompletion := []
  opened : List ReorgEpisode := []
  resolved : Option ReorgEpisode := none
  closes : Nat := 0
deriving DecidableEq

structure Run where
  setup : Setup
  check : Checker
  buffer : ReorderBuffer StoreCompletion
  ledger : Ledger
  pool : Pool := {}
  dispatcher : Dispatcher
  pc : Pc := .loop
  doneFired : Bool := false
  sawResultsClosed : Bool := false
  sawCompletionsClosed : Bool := false
  trace : Trace := {}
  db : DB

/-- The state `processBlocksOnce` starts from; the rollback guards outlive a run. -/
def Run.start (setup : Setup) (episodeRollbacks : Nat) (heightRollbacks : HeightMap Nat)
    (db : DB) : Run where
  setup := setup
  check :=
    { nextToCommit := setup.runStartBlock
      lastCheckedNum := setup.runStartBlock - 1
      lastCheckedHash := setup.seedHash }
  buffer := ReorderBuffer.start setup.runStartBlock
  ledger := { episodeRollbacks, heightRollbacks }
  dispatcher :=
    { nextBlock := setup.runStartBlock
      dispatchedUpTo := setup.runStartBlock - 1 }
  db := db

/-! ### The dispatch loop and the fetch workers -/

inductive DispatchMove where
  | send
  | fetched (height : Int) (reply : Except String ConversionResult)
  | dropped (height : Int)
  | shutdown
  | closeResults
deriving DecidableEq

def dispatchEnabled (workers : Nat) (nextToCommit : Int) (ctxDone : Bool) (d : Dispatcher) :
    DispatchMove → Prop
  | .send => d.phase = .dispatching ∧ d.nextBlock - nextToCommit < workers * defaultWorkersAhead
  | .fetched height _ => height ∈ d.fetching ∧ d.resultsClosed = false ∧
      d.resultChan.length < workers * defaultWorkersAhead
  | .dropped height => height ∈ d.fetching ∧ ctxDone = true
  | .shutdown => d.phase = .dispatching ∧ ctxDone = true
  | .closeResults => d.phase = .closing ∧ d.fetching = []

def dispatchEffect (d : Dispatcher) : DispatchMove → Dispatcher
  | .send =>
      { d with
        fetching := d.fetching ++ [d.nextBlock]
        dispatchedUpTo := d.nextBlock
        nextBlock := d.nextBlock + 1 }
  | .fetched height reply =>
      { d with
        fetching := d.fetching.erase height
        resultChan := d.resultChan ++ [fetchAndConvertBlock height reply] }
  | .dropped height => { d with fetching := d.fetching.erase height }
  | .shutdown => { d with phase := .closing }
  | .closeResults => { d with resultsClosed := true, phase := .awaitingStores }

/-! ### The store pool -/

/-- A stored-hash query that the database may also refuse to answer. -/
def queryStoredHash (fails : Bool) (db : DB) (height : Int) : Except String String :=
  if fails then .error "query failed" else getStoredBlockHash db height

/-- The completion of a store, with the failure handler's verification. -/
def runStoreTask (db : DB) (item : BlockResult) (computed : Except StoreFailure String)
    (queryFails : Bool) : StoreCompletion :=
  { item
    computed
    stale :=
      match computed with
      | .ok _ | .error (.documentDeleted _) => none
      | .error _ => detectStaleOrphan (queryStoredHash queryFails db item.blockNum) item }

/-- The item's block document is visible. -/
def blockStored (db : DB) (item : BlockResult) : Bool :=
  item.converted.blockDoc?.any fun doc => doc ∈ db.visible

/-- A store adds the block document first and other documents after it; it may
stop anywhere, and reports success only with the block document in place. -/
inductive PoolMove where
  | take (item : BlockResult)
  | commitBlock (item : BlockResult) (doc : Doc)
  | commitOthers (item : BlockResult) (docs : List Doc)
  | finishStore (item : BlockResult) (computed : Except StoreFailure String) (queryFails : Bool)
  | report (completion : StoreCompletion)
  | release
deriving DecidableEq

def Pool.busy (pool : Pool) : Nat :=
  pool.storing.length + pool.reporting.length + pool.unreleased

def poolEnabled (workers : Nat) (ctxDone : Bool) (pool : Pool) (db : DB) : PoolMove → Prop
  | .take item => pool.storeChan.head? = some item ∧ pool.busy < workers
  | .commitBlock item doc => item ∈ pool.storing ∧ item.converted.blockDoc? = some doc ∧
      (db.add doc).isOk = true
  | .commitOthers item docs => item ∈ pool.storing ∧ (∀ doc ∈ docs, doc.collection ≠ .block) ∧
      (db.addAll docs).isOk = true
  | .finishStore item computed _ => item ∈ pool.storing ∧
      (computed.isOk = true → blockStored db item = true) ∧
      (storeCutOff computed = true → ctxDone = true)
  | .report completion => completion ∈ pool.reporting ∧
      pool.completionChan.length < workers * (defaultWorkersAhead + 1)
  | .release => 0 < pool.unreleased

def poolEffect (pool : Pool) (db : DB) : PoolMove → Pool × DB
  | .take item =>
      ({ pool with storeChan := pool.storeChan.tail, storing := pool.storing ++ [item] }, db)
  | .commitBlock _ doc => (pool, (db.add doc).toOption.getD db)
  | .commitOthers _ docs => (pool, (db.addAll docs).toOption.getD db)
  | .finishStore item computed queryFails =>
      ({ pool with
          storing := pool.storing.erase item
          reporting := pool.reporting ++ [runStoreTask db item computed queryFails] }, db)
  | .report completion =>
      ({ pool with
          reporting := pool.reporting.erase completion
          completionChan := pool.completionChan ++ [completion]
          unreleased := pool.unreleased + 1 }, db)
  | .release =>
      ({ pool with unreleased := pool.unreleased - 1, inFlight := pool.inFlight - 1 }, db)

/-- A block is committed into a store that takes it. -/
theorem poolEffect_commitBlock {workers : Nat} {ctxDone : Bool} {pool : Pool} {db : DB}
    {item : BlockResult} {doc : Doc}
    (enabled : poolEnabled workers ctxDone pool db (.commitBlock item doc)) :
    ∃ after, db.add doc = .ok after ∧ poolEffect pool db (.commitBlock item doc) = (pool, after) := by
  obtain ⟨_, _, able⟩ := enabled
  cases added : db.add doc with
  | error => simp [added, Except.isOk, Except.toBool] at able
  | ok after => exact ⟨after, rfl, by rw [poolEffect, added]; rfl⟩

theorem poolEffect_commitOthers {workers : Nat} {ctxDone : Bool} {pool : Pool} {db : DB}
    {item : BlockResult} {docs : List Doc}
    (enabled : poolEnabled workers ctxDone pool db (.commitOthers item docs)) :
    ∃ after, db.addAll docs = .ok after ∧
      poolEffect pool db (.commitOthers item docs) = (pool, after) := by
  obtain ⟨_, _, able⟩ := enabled
  cases added : db.addAll docs with
  | error => simp [added, Except.isOk, Except.toBool] at able
  | ok after => exact ⟨after, rfl, by rw [poolEffect, added]; rfl⟩

/-! ### The collector: pop, check and hold -/

/-- Pops the next pending result, unless a checked item still waits for the pool.
A popped result is dropped once the run is ending, and an open episode parks it. -/
def Run.popPending (run : Run) : Run :=
  if run.check.holdingDispatch.isSome then { run with pc := .hold }
  else
    match run.check.pending.lookup run.check.nextToCommit with
    | none => { run with pc := .hold }
    | some next =>
        { run with
          check :=
            { run.check with
              pending := run.check.pending.erase run.check.nextToCommit
              nextToCommit := run.check.nextToCommit + 1 }
          pc :=
            if run.ledger.rollbackPoint.isSome || run.ledger.ctxDone then .hold
            else if run.ledger.episode.isSome then .resolve next
            else .check next }

/-- The gap fallback queries the stored predecessor only right after an unusable pop. -/
def Run.poppedGapSignal (run : Run) (next : BlockResult) (queryFails : Bool) :
    Option ReorgSignal :=
  if next.parentHash ≠ "" ∧ next.blockNum ≠ run.setup.runStartBlock ∧
      run.check.lastCheckedNum = next.blockNum - 1 ∧ run.check.lastCheckedHash = "" then
    match queryStoredHash queryFails run.db (next.blockNum - 1) with
    | .error _ => none
    | .ok stored => if run.ledger.ctxDone then none else gapFallbackSignal stored next
  else none

def Run.continuityBreak (run : Run) (next : BlockResult) (queryFails : Bool) :
    Option ReorgSignal :=
  (continuitySignal run.setup.runStartBlock run.setup.seedHash run.check.lastCheckedNum
    run.check.lastCheckedHash next).or (run.poppedGapSignal next queryFails)

def parkedEpisode (signal : ReorgSignal) (parked : BlockResult) : ReorgEpisode :=
  { baseHeight := parked.blockNum
    baseParentHash := signal.chainHash
    lastParkedHash := parked.hash }

def Run.startReorgEpisode (run : Run) (signal : ReorgSignal) (parked : BlockResult) : Run :=
  { run with
    ledger := { run.ledger with episode := some (parkedEpisode signal parked) }
    trace := { run.trace with opened := run.trace.opened ++ [parkedEpisode signal parked] }
    pc := .hold }

/-- A failed fetch becomes a hole, a break opens an episode, and an item that
passes is registered and held for the pool. -/
def Run.checkedForDispatch (run : Run) (next : BlockResult) (queryFails : Bool) : Run :=
  if next.success = false then
    { run with
      check := { run.check with lastCheckedNum := next.blockNum, lastCheckedHash := "" }
      buffer := run.buffer.skip next.blockNum
      trace := { run.trace with holes := run.trace.holes ++ [next.blockNum] }
      pc := .hold }
  else
    match run.continuityBreak next queryFails with
    | some signal => run.startReorgEpisode signal next
    | none =>
        { run with
          check :=
            { run.check with
              lastCheckedNum := next.blockNum
              lastCheckedHash := next.hash
              holdingDispatch := some next }
          pool := { run.pool with inFlight := run.pool.inFlight + 1 }
          trace := { run.trace with checked := run.trace.checked ++ [next] }
          pc := .hold }

/-- Gives up the held dispatch, if there is one, with its registration. -/
def Run.dropHeld (run : Run) : Run :=
  if run.check.holdingDispatch.isSome then
    { run with
      check := { run.check with holdingDispatch := none }
      pool := { run.pool with inFlight := run.pool.inFlight - 1 } }
  else run

/-- The run is leaving its normal shape. -/
def Ledger.leaving (ledger : Ledger) : Bool :=
  ledger.episode.isSome || ledger.rollbackPoint.isSome || ledger.ctxDone

/-- The abandonment test before each select. -/
def Run.abandonHeld (run : Run) : Run :=
  if run.ledger.leaving then { run.dropHeld with pc := .select } else { run with pc := .select }

/-! ### The collector: completions -/

/-- The end of a select turn. -/
def Run.afterSelect (run : Run) : Pc :=
  if run.sawResultsClosed && run.sawCompletionsClosed then .returned else .loop

/-- Receives the oldest completion and gathers the batch the cursor reaches. -/
def Run.receive (run : Run) (completion : StoreCompletion) : Run :=
  let ready := (run.buffer.park completion.item.blockNum completion).ready
  { run with
    buffer := ready.2
    pool := { run.pool with completionChan := run.pool.completionChan.tail }
    trace :=
      { run.trace with
        received := run.trace.received ++ [completion]
        gathered := run.trace.gathered ++ ready.1 } }

def Run.batchOf (run : Run) (completion : StoreCompletion) : List StoreCompletion :=
  (run.buffer.park completion.item.blockNum completion).ready.1

/-- Applies a batch from the select. A stale-pinned episode enters its drain at
once, which gives up a held dispatch first. -/
def Run.applyFromSelect (run : Run) (batch : List StoreCompletion) : Run :=
  match applyBatch run.check.nextToCommit false batch run.ledger with
  | (ledger, none) => { run with ledger, pc := run.afterSelect }
  | (ledger, some rest) =>
      { run.dropHeld with
        ledger
        trace := { run.trace with opened := run.trace.opened ++ ledger.episode.toList }
        pc := .drain { rest } }

/-- A completion that the drain consumes; a stale-pinned drain suppresses commits. -/
def Run.applyFromDrain (run : Run) (fin : Finalization) (batch : List StoreCompletion) : Run :=
  { run with
    ledger := (applyBatch run.check.nextToCommit fin.confirmed.isNone batch run.ledger).1 }

/-! ### The collector: the confirmation wait -/

def Ledger.reanchor (ledger : Ledger) (episode : ReorgEpisode) (item : BlockResult) : Ledger :=
  if maxRewalksPerEpisode ≤ episode.rewalks then
    { ledger with
      episode := none
      fatalErr := some ("reorg detected at height " ++ toString episode.baseHeight ++
        ": the confirmation wait re-anchored " ++ toString episode.rewalks ++
        " times; the RPC node keeps flip-flopping between chains")
      ctxDone := true }
  else
    { ledger with
      episode := some
        { episode with
          rewalks := episode.rewalks + 1
          baseHeight := item.blockNum
          baseParentHash := item.parentHash
          lastParkedHash := item.hash } }

/-- The first half of a gap re-fill, up to the re-fetch. -/
def Run.refillEpisodeGap (run : Run) (episode : ReorgEpisode) (item : BlockResult) : Run :=
  if maxGapRefillsPerWait ≤ episode.gapRefills then
    { run with
      ledger :=
        { run.ledger with
          episode := none
          fatalErr := some ("reorg detected at height " ++ toString episode.baseHeight ++
            ": the confirmation wait re-fetched " ++ toString episode.gapRefills ++
            " unusable verification points")
          ctxDone := true }
      pc := .hold }
  else
    { run with
      ledger :=
        { run.ledger with episode := some { episode with gapRefills := episode.gapRefills + 1 } }
      pc := .refetch item }

/-- The parked item carries both hashes. -/
def BlockResult.usable (item : BlockResult) : Bool :=
  item.success && item.hash != "" && item.parentHash != ""

/-- One turn of the confirmation wait: confirm, re-anchor or re-fetch. -/
def Run.resolveEpisodeItem (run : Run) (item : BlockResult) : Run :=
  match run.ledger.episode with
  | none => { run with pc := .hold }
  | some episode =>
      if run.ledger.rollbackPoint.isSome || run.ledger.ctxDone then { run with pc := .hold }
      else if item.usable then
        if item.parentHash = episode.lastParkedHash then
          { run.dropHeld with pc := .drain { confirmed := some item } }
        else { run with ledger := run.ledger.reanchor episode item, pc := .hold }
      else run.refillEpisodeGap episode item

/-- The answer to a re-fetch; a failure is fatal unless the run is being stopped. -/
def Run.refetched (run : Run) (item : BlockResult) (reply : Except String ConversionResult) :
    Run :=
  match reply with
  | .ok _ => { run with pc := .resolve (fetchAndConvertBlock item.blockNum reply) }
  | .error error =>
      if run.ledger.ctxDone then { run with pc := .hold }
      else
        { run with
          ledger :=
            { run.ledger with
              episode := none
              fatalErr := run.ledger.episode.map fun episode =>
                "reorg detected at height " ++ toString episode.baseHeight ++
                  ": confirmation wait failed at " ++ toString item.blockNum ++ ": " ++ error
              ctxDone := true }
          pc := .hold }

/-! ### The collector: finalizing an episode -/

/-- Where the collector goes on after an episode: a pop-time one was finalized
inside a pop, a stale-pinned one inside a batch. -/
def Run.resume (run : Run) (fin : Finalization) : Run :=
  match fin.confirmed with
  | some _ => { run with pc := .hold }
  | none => run.applyFromSelect fin.rest

def Run.abandonEpisode (run : Run) (fin : Finalization) : Run :=
  Run.resume { run with ledger := { run.ledger with episode := none } } fin

/-- The drain is over: the episode is abandoned on a cancelled run. -/
def Run.drained (run : Run) (fin : Finalization) : Run :=
  if run.ledger.ctxDone then run.abandonEpisode fin else { run with pc := .walk fin }

/-- The answers a walk-back can get from the node and from a failing database. -/
structure WalkOracle where
  header : Nat → String → Except String String
  finalizedKnown : Bool
  queryFails : Int → Bool

def Run.walkView (run : Run) (oracle : WalkOracle) : WalkView where
  stored height := queryStoredHash (oracle.queryFails height) run.db height
  header := oracle.header
  finalizedKnown := oracle.finalizedKnown
  configuredStart := run.setup.configuredStart

/-- The height and hash the walk-back descends from. -/
def ReorgEpisode.anchor (episode : ReorgEpisode) : Int × String :=
  if episode.stalePinned then (episode.staleTopHeight, episode.staleTopHash)
  else (episode.baseHeight - 1, episode.baseParentHash)

/-- The parked mismatch and its confirmed successor join the walked segment. -/
def confirmedHashes (episode : ReorgEpisode) (confirmed : Option BlockResult)
    (chainHashes : HeightMap String) : HeightMap String :=
  match confirmed with
  | none => chainHashes
  | some successor =>
      (chainHashes.insert episode.baseHeight episode.lastParkedHash).insert
        successor.blockNum successor.hash

/-- The walk-back and its outcome. No store is running, so the database stands
still and the whole descent is one move. -/
def Run.finalizeEpisode (run : Run) (fin : Finalization) (episode : ReorgEpisode)
    (oracle : WalkOracle) : Run :=
  match resolveForkPoint (run.walkView oracle) episode.anchor.1 episode.anchor.2 with
  | .error error =>
      if run.ledger.ctxDone then run.abandonEpisode fin
      else
        Run.resume
          { run with
            ledger :=
              { run.ledger with
                episode := none
                fatalErr := some ("reorg detected at height " ++ toString episode.baseHeight ++
                  ": " ++ error)
                ctxDone := true } } fin
  | .ok (forkPoint, chainHashes) =>
      Run.resume
        { run with
          ledger :=
            { run.ledger with
              episode := none
              rollbackPoint := some
                { forkPoint, chainHashes := confirmedHashes episode fin.confirmed chainHashes }
              ctxDone := true }
          trace := { run.trace with resolved := some episode } } fin

/-! ### The machine -/

inductive CollectMove where
  | pop
  | check (next : BlockResult) (queryFails : Bool)
  | resolve (item : BlockResult)
  | refetched (item : BlockResult) (reply : Except String ConversionResult)
  | hold
  | recvResult (result : BlockResult)
  | recvResultsClosed
  | recvCompletion (completion : StoreCompletion)
  | recvCompletionsClosed
  | send (item : BlockResult)
  | done
  | drainRecv (fin : Finalization) (completion : StoreCompletion)
  | drainSettled (fin : Finalization)
  | drained (fin : Finalization)
  | walk (fin : Finalization) (episode : ReorgEpisode) (oracle : WalkOracle)

inductive Move where
  | cancel
  | dispatch (move : DispatchMove)
  | pool (move : PoolMove)
  | collect (move : CollectMove)
  | closeCompletions
  | finish

def collectEnabled (run : Run) : CollectMove → Prop
  | .pop => run.pc = .loop
  | .check next _ => run.pc = .check next
  | .resolve item => run.pc = .resolve item
  | .refetched item _ => run.pc = .refetch item
  | .hold => run.pc = .hold
  | .recvResult result => run.pc = .select ∧ run.dispatcher.resultChan.head? = some result
  | .recvResultsClosed => run.pc = .select ∧ run.dispatcher.resultChan = [] ∧
      run.dispatcher.resultsClosed = true
  | .recvCompletion completion => run.pc = .select ∧
      run.pool.completionChan.head? = some completion
  | .recvCompletionsClosed => run.pc = .select ∧ run.pool.completionChan = [] ∧
      run.pool.completionsClosed = true
  | .send item => run.pc = .select ∧ run.check.holdingDispatch = some item ∧
      run.pool.storeChan.length < run.setup.workers * defaultWorkersAhead
  | .done => run.pc = .select ∧ run.ledger.ctxDone = true ∧ run.doneFired = false
  | .drainRecv fin completion => (run.pc = .drain fin ∨ run.pc = .tail fin) ∧
      run.pool.completionChan.head? = some completion
  | .drainSettled fin => run.pc = .drain fin ∧ run.pool.inFlight = 0
  | .drained fin => run.pc = .tail fin ∧ run.pool.completionChan = []
  | .walk fin episode _ => run.pc = .walk fin ∧ run.ledger.episode = some episode

def collectEffect (run : Run) : CollectMove → Run
  | .pop => run.popPending
  | .check next queryFails => run.checkedForDispatch next queryFails
  | .resolve item => run.resolveEpisodeItem item
  | .refetched item reply => run.refetched item reply
  | .hold => run.abandonHeld
  | .recvResult result =>
      { run with
        check := { run.check with pending := run.check.pending.insert result.blockNum result }
        dispatcher := { run.dispatcher with resultChan := run.dispatcher.resultChan.tail }
        pc := run.afterSelect }
  | .recvResultsClosed =>
      { run with
        sawResultsClosed := true
        pc := Run.afterSelect { run with sawResultsClosed := true } }
  | .recvCompletion completion =>
      (run.receive completion).applyFromSelect (run.batchOf completion)
  | .recvCompletionsClosed =>
      { run with
        sawCompletionsClosed := true
        pc := Run.afterSelect { run with sawCompletionsClosed := true } }
  | .send item =>
      { run with
        check := { run.check with holdingDispatch := none }
        pool := { run.pool with storeChan := run.pool.storeChan ++ [item] }
        trace := { run.trace with handed := run.trace.handed ++ [item] }
        pc := run.afterSelect }
  | .done =>
      { run.dropHeld with
        pool := { run.dropHeld.pool with storeClosed := true }
        trace := { run.trace with closes := run.trace.closes + 1 }
        doneFired := true
        pc := run.afterSelect }
  | .drainRecv fin completion =>
      (run.receive completion).applyFromDrain fin (run.batchOf completion)
  | .drainSettled fin => { run with pc := .tail fin }
  | .drained fin => run.drained fin
  | .walk fin episode oracle => run.finalizeEpisode fin episode oracle

/-- One run of `processBlocksOnce`. -/
def processBlocksOnce : GuardedSystem Run Move where
  enabled run
    | .cancel => True
    | .dispatch move => dispatchEnabled run.setup.workers run.check.nextToCommit
        run.ledger.ctxDone run.dispatcher move
    | .pool move => poolEnabled run.setup.workers run.ledger.ctxDone run.pool run.db move
    | .collect move => collectEnabled run move
    | .closeCompletions => run.dispatcher.phase = .awaitingStores ∧ run.pool.storeClosed = true ∧
        run.pool.storeChan = [] ∧ run.pool.busy = 0
    | .finish => run.dispatcher.phase = .awaitingCollector ∧ run.pc = .returned
  effect run
    | .cancel => { run with ledger := { run.ledger with ctxDone := true } }
    | .dispatch move => { run with dispatcher := dispatchEffect run.dispatcher move }
    | .pool move =>
        { run with
          pool := (poolEffect run.pool run.db move).1
          db := (poolEffect run.pool run.db move).2 }
    | .collect move => collectEffect run move
    | .closeCompletions =>
        { run with
          pool := { run.pool with completionsClosed := true }
          dispatcher := { run.dispatcher with phase := .awaitingCollector } }
    | .finish =>
        { run with
          ledger :=
            { run.ledger with
              rollbackPoint := run.ledger.rollbackPoint.map fun point =>
                { point with oldTip := run.dispatcher.dispatchedUpTo } }
          dispatcher := { run.dispatcher with phase := .ended } }

end ShinzoGenerator.Indexer
