import ShinzoGenerator.Indexer.RecoveryCall

/-! A schedule that completes the recovery: the goroutines take turns block by
block, so that every height of the new chain is reached. -/

set_option autoImplicit false

namespace ShinzoGenerator.Indexer

open Chains Defra

variable {chain : Int → String} {low fork top tip : Int} {db : DB}
  {served : Int → ConversionResult} {run : Run} {setup : Setup}

/-- The paths of one run under the stable node. -/
abbrev StablePath (chain : Int → String) (served : Int → ConversionResult) (fork tip : Int) :
    Run → Run → Prop :=
  (restricted (StableNode chain served fork tip)).Path

/-- The item a fetch of the height delivers. -/
def chainItem (served : Int → ConversionResult) (height : Int) : BlockResult :=
  fetchAndConvertBlock height (.ok (served height))

@[simp] theorem chainItem_blockNum (height : Int) :
    (chainItem served height).blockNum = height := rfl

@[simp] theorem chainItem_success (height : Int) :
    (chainItem served height).success = true := rfl

theorem chainItem_onChain {height : Int} (above : fork < height) (below : height ≤ tip) :
    OnChain chain served fork tip (chainItem served height) :=
  ⟨above, below, rfl⟩

/-- Nothing is pending, held, fetched or stored. -/
def Run.resting (setup : Setup) (last : Int) (lastHash : String) (ledger : Ledger) (trace : Trace)
    (db : DB) : Run where
  setup := setup
  check := { nextToCommit := last + 1, lastCheckedNum := last, lastCheckedHash := lastHash }
  buffer := ReorderBuffer.start (last + 1)
  ledger := ledger
  dispatcher := { nextBlock := last + 1, dispatchedUpTo := last }
  trace := trace
  db := db

theorem run_start_resting {last : Int} (start : setup.runStartBlock = last + 1)
    (episodeRollbacks : Nat) (heightRollbacks : HeightMap Nat) :
    Run.start setup episodeRollbacks heightRollbacks db =
      Run.resting setup last setup.seedHash { episodeRollbacks, heightRollbacks } {} db := by
  simp [Run.start, Run.resting, start]

/-! ### Fetching -/

/-- The next height has been fetched, and the collector has received it. -/
def Run.withPending (run : Run) (item : BlockResult) : Run :=
  { run with
    check := { run.check with pending := run.check.pending.insert item.blockNum item }
    dispatcher :=
      { run.dispatcher with
        dispatchedUpTo := run.dispatcher.nextBlock
        nextBlock := run.dispatcher.nextBlock + 1 }
    pc := .loop }

/-- From the hold position with nothing held, the next height is fetched. -/
theorem path_fetch {height : Int} (above : fork < height) (below : height ≤ tip)
    (workers : 0 < run.setup.workers) (located : run.pc = .hold)
    (free : run.check.holdingDispatch = none) (cursor : run.check.nextToCommit = height)
    (phase : run.dispatcher.phase = .dispatching) (next : run.dispatcher.nextBlock = height)
    (fetching : run.dispatcher.fetching = []) (results : run.dispatcher.resultChan = [])
    (opened : run.dispatcher.resultsClosed = false) (unseen : run.sawResultsClosed = false) :
    StablePath chain served fork tip run (run.withPending (chainItem served height)) := by
  have room : 0 < run.setup.workers * defaultWorkersAhead := Nat.mul_pos workers (by decide)
  have leads : (restricted (StableNode chain served fork tip)).Leads
      [.dispatch .send, .dispatch (.fetched height (.ok (served height))), .collect .hold,
        .collect (.recvResult (chainItem served height))]
      run (run.withPending (chainItem served height)) := by
    simp [GuardedSystem.Leads, restricted, GuardedSystem.restrict, processBlocksOnce,
      dispatchEnabled, dispatchEffect, collectEnabled, collectEffect, StableNode, Run.abandonHeld,
      Run.dropHeld, Run.afterSelect, Run.withPending, chainItem, phase, next, fetching, results,
      opened, located, cursor, above, below, room, free, unseen]
    exact_mod_cast room
  exact leads.path

/-- Nothing is pending. -/
theorem path_idle {last : Int} {lastHash : String} {ledger : Ledger} {trace : Trace} :
    StablePath chain served fork tip (Run.resting setup last lastHash ledger trace db)
      { Run.resting setup last lastHash ledger trace db with pc := .hold } := by
  have leads : (restricted (StableNode chain served fork tip)).Leads [.collect .pop]
      (Run.resting setup last lastHash ledger trace db)
      { Run.resting setup last lastHash ledger trace db with pc := .hold } := by
    simp [GuardedSystem.Leads, restricted, GuardedSystem.restrict, processBlocksOnce,
      collectEnabled, collectEffect, StableNode, Run.popPending, Run.resting]
  exact leads.path

/-! ### Indexing one block -/

/-- The ledger lets the run go on. -/
structure Ledger.Running (ledger : Ledger) : Prop where
  unresolved : ledger.rollbackPoint = none
  calm : ledger.episode = none
  sound : ledger.fatalErr = none
  uncancelled : ledger.ctxDone = false

theorem Ledger.Running.applyCommit {ledger : Ledger} (running : ledger.Running) (next : Int)
    (completion : StoreCompletion) : (ledger.applyCommit next completion).Running :=
  ⟨running.unresolved, running.calm, running.sound, running.uncancelled⟩

/-- The item waits in the store channel. -/
def Run.queued (setup : Setup) (item : BlockResult) (ledger : Ledger) (trace : Trace) (db : DB) :
    Run where
  setup := setup
  check :=
    { nextToCommit := item.blockNum + 1
      lastCheckedNum := item.blockNum
      lastCheckedHash := item.hash }
  buffer := ReorderBuffer.start item.blockNum
  ledger := ledger
  pool := { storeChan := [item], inFlight := 1 }
  dispatcher := { nextBlock := item.blockNum + 1, dispatchedUpTo := item.blockNum }
  trace := { trace with checked := trace.checked ++ [item], handed := trace.handed ++ [item] }
  db := db

/-- The next block is fetched, passes the check and is handed over. -/
theorem path_hand {last : Int} {lastHash : String} {ledger : Ledger} {trace : Trace}
    (above : fork < last + 1) (below : last + 1 ≤ tip) (workers : 0 < setup.workers)
    (running : ledger.Running)
    (passes : continuitySignal setup.runStartBlock setup.seedHash last lastHash
      (chainItem served (last + 1)) = none) (usable : lastHash ≠ "") :
    StablePath chain served fork tip (Run.resting setup last lastHash ledger trace db)
      (Run.queued setup (chainItem served (last + 1)) ledger trace db) := by
  obtain ⟨unresolved, calm, sound, uncancelled⟩ := running
  refine (path_idle.trans (path_fetch above below workers rfl rfl rfl rfl rfl rfl rfl rfl
    rfl)).trans ?_
  have leads : (restricted (StableNode chain served fork tip)).Leads
      (handMoves (chainItem served (last + 1)))
      (Run.withPending { Run.resting setup last lastHash ledger trace db with pc := .hold }
        (chainItem served (last + 1)))
      (Run.queued setup (chainItem served (last + 1)) ledger trace db) := by
    have room : 0 < setup.workers * defaultWorkersAhead := Nat.mul_pos workers (by decide)
    simp [GuardedSystem.Leads, restricted, GuardedSystem.restrict, processBlocksOnce,
      collectEnabled, collectEffect, StableNode, Run.popPending, Run.resting, handMoves,
      Run.withPending, Run.abandonHeld, Run.checkedForDispatch, Run.continuityBreak,
      Run.poppedGapSignal, Run.queued, Ledger.leaving, Run.afterSelect, unresolved, calm,
      uncancelled, room, passes, usable]
  exact leads.path

@[simp] theorem stored_item (item : BlockResult) : (stored item).item = item := rfl

/-- The trace of a run that indexed one more item. -/
def Trace.indexed (trace : Trace) (item : BlockResult) : Trace :=
  { trace with
    checked := trace.checked ++ [item]
    handed := trace.handed ++ [item]
    received := trace.received ++ [stored item]
    gathered := trace.gathered ++ [stored item] }

theorem runStoreTask_stored (item : BlockResult) (queryFails : Bool) :
    runStoreTask db item (.ok "") queryFails = stored item := rfl

theorem Ledger.Running.applyBatch {ledger : Ledger} (running : ledger.Running) (next : Int)
    (item : BlockResult) :
    applyBatch next false [stored item] ledger = (ledger.applyCommit next (stored item), none) := by
  simp [Indexer.applyBatch, opensEpisode, stored, applyOneCompletion, Ledger.ended,
    running.unresolved, running.sound]

/-- The queued block is stored, and its completion is applied. -/
theorem path_store {item : BlockResult} {ledger : Ledger} {trace : Trace} {doc : Doc} {next : DB}
    (workers : 0 < setup.workers) (running : ledger.Running)
    (stores : item.converted.blockDoc? = some doc) (added : db.add doc = .ok next) :
    StablePath chain served fork tip (Run.queued setup item ledger trace db)
      (Run.resting setup item.blockNum item.hash
        (ledger.applyCommit (item.blockNum + 1) (stored item)) (trace.indexed item) next) := by
  have applied := running.applyBatch (item.blockNum + 1) item
  obtain ⟨unresolved, calm, sound, uncancelled⟩ := running
  have visible : doc ∈ next.visible := by simp [SoftStore.add_ok_visible added]
  have room : 0 < setup.workers * (defaultWorkersAhead + 1) := Nat.mul_pos workers (by decide)
  have taken := ReorderBuffer.ready_park_start item.blockNum (stored item)
  have leads : (restricted (StableNode chain served fork tip)).Leads (storeMoves item doc)
      (Run.queued setup item ledger trace db)
      (Run.resting setup item.blockNum item.hash
        (ledger.applyCommit (item.blockNum + 1) (stored item)) (trace.indexed item) next) := by
    simp [GuardedSystem.Leads, restricted, GuardedSystem.restrict, processBlocksOnce,
      poolEnabled, poolEffect, collectEnabled, collectEffect, StableNode, storeMoves, Run.queued,
      Pool.busy, stores, added, Except.isOk, Except.toBool, Except.toOption, blockStored, visible,
      workers, room, storeCutOff, runStoreTask_stored, Run.popPending, Run.abandonHeld,
      Ledger.leaving, unresolved, calm, uncancelled, Run.receive, Run.batchOf, taken, applied,
      Run.applyFromSelect, Run.afterSelect, Run.resting, Trace.indexed]
  exact leads.path

/-! ### Retreating to the fork point -/

/-- The first block is parked, and its episode waits for a successor. -/
def Run.parked (setup : Setup) (last : Int) (episode : ReorgEpisode) (db : DB) : Run where
  setup := setup
  check :=
    { nextToCommit := last + 2
      lastCheckedNum := last
      lastCheckedHash := setup.seedHash }
  buffer := ReorderBuffer.start (last + 1)
  ledger := { episode := some episode }
  dispatcher := { nextBlock := last + 2, dispatchedUpTo := last + 1 }
  pc := .hold
  trace := { opened := [episode] }
  db := db

/-- The first block breaks with the seed and is parked. -/
theorem path_park {last : Int} {signal : ReorgSignal} (above : fork < last + 1)
    (below : last + 1 ≤ tip) (workers : 0 < setup.workers)
    (broken : continuitySignal setup.runStartBlock setup.seedHash last setup.seedHash
      (chainItem served (last + 1)) = some signal) :
    StablePath chain served fork tip (Run.resting setup last setup.seedHash {} {} db)
      (Run.parked setup last (parkedEpisode signal (chainItem served (last + 1))) db) := by
  refine (path_idle.trans (path_fetch above below workers rfl rfl rfl rfl rfl rfl rfl rfl
    rfl)).trans ?_
  have leads : (restricted (StableNode chain served fork tip)).Leads
      [.collect .pop, .collect (.check (chainItem served (last + 1)) false)]
      (Run.withPending { Run.resting setup last setup.seedHash {} {} db with pc := .hold }
        (chainItem served (last + 1)))
      (Run.parked setup last (parkedEpisode signal (chainItem served (last + 1))) db) := by
    simp [GuardedSystem.Leads, restricted, GuardedSystem.restrict, processBlocksOnce,
      collectEnabled, collectEffect, StableNode, Run.popPending, Run.resting, Run.withPending,
      Run.checkedForDispatch, Run.continuityBreak, broken, Run.startReorgEpisode, Run.parked,
      Int.add_assoc]
  exact leads.path

/-- The walk-back has resolved the fork point, and the run is ending. -/
def Run.resolvedAt (setup : Setup) (last : Int) (episode : ReorgEpisode) (point : RollbackPoint)
    (db : DB) : Run where
  setup := setup
  check :=
    { nextToCommit := last + 3
      lastCheckedNum := last
      lastCheckedHash := setup.seedHash }
  buffer := ReorderBuffer.start (last + 1)
  ledger := { rollbackPoint := some point, ctxDone := true }
  dispatcher := { nextBlock := last + 3, dispatchedUpTo := last + 2 }
  pc := .hold
  trace := { opened := [episode], resolved := some episode }
  db := db

/-- The successor confirms the episode, and the walk-back resolves it. -/
theorem path_resolve {last : Int} {episode : ReorgEpisode} {oracle : WalkOracle}
    {chainHashes : HeightMap String} (above : fork < last + 2) (below : last + 2 ≤ tip)
    (workers : 0 < setup.workers) (usable : (chainItem served (last + 2)).usable = true)
    (confirms : (chainItem served (last + 2)).parentHash = episode.lastParkedHash)
    (honest : HonestOracle chain fork tip oracle)
    (walked : resolveForkPoint (Run.walkView (Run.parked setup last episode db) oracle)
      episode.anchor.1 episode.anchor.2 = .ok (fork, chainHashes)) :
    StablePath chain served fork tip (Run.parked setup last episode db)
      (Run.resolvedAt setup last episode
        { forkPoint := fork
          chainHashes := confirmedHashes episode (some (chainItem served (last + 2))) chainHashes }
        db) := by
  refine (path_fetch above below workers rfl rfl rfl rfl rfl rfl rfl rfl rfl).trans ?_
  simp only [Run.walkView, Run.parked] at walked
  have leads : (restricted (StableNode chain served fork tip)).Leads
      (confirmMoves (chainItem served (last + 2)) ++
        [.collect (.walk { confirmed := some (chainItem served (last + 2)) } episode oracle)])
      (Run.withPending (Run.parked setup last episode db) (chainItem served (last + 2)))
      (Run.resolvedAt setup last episode
        { forkPoint := fork
          chainHashes := confirmedHashes episode (some (chainItem served (last + 2))) chainHashes }
        db) := by
    simp [GuardedSystem.Leads, restricted, GuardedSystem.restrict, processBlocksOnce,
      collectEnabled, collectEffect, StableNode, confirmMoves, Run.popPending, Run.parked,
      Run.withPending, Run.resolveEpisodeItem, usable, confirms, Run.dropHeld, Run.drained,
      honest, Run.finalizeEpisode, Run.walkView, walked, Run.resume, Run.resolvedAt, Int.add_assoc]
  exact leads.path

/-- The run has ended with a rollback point. -/
def Run.endedAt (setup : Setup) (last : Int) (episode : ReorgEpisode) (point : RollbackPoint)
    (db : DB) : Run where
  setup := setup
  check :=
    { nextToCommit := last + 3
      lastCheckedNum := last
      lastCheckedHash := setup.seedHash }
  buffer := ReorderBuffer.start (last + 1)
  ledger := { rollbackPoint := some { point with oldTip := last + 2 }, ctxDone := true }
  pool := { storeClosed := true, completionsClosed := true }
  dispatcher :=
    { phase := .ended
      nextBlock := last + 3
      dispatchedUpTo := last + 2
      resultsClosed := true }
  pc := .returned
  doneFired := true
  sawResultsClosed := true
  sawCompletionsClosed := true
  trace := { opened := [episode], resolved := some episode, closes := 1 }
  db := db

theorem path_shutdown {last : Int} {episode : ReorgEpisode} {point : RollbackPoint} :
    StablePath chain served fork tip (Run.resolvedAt setup last episode point db)
      (Run.endedAt setup last episode point db) := by
  have leads : (restricted (StableNode chain served fork tip)).Leads shutdownMoves
      (Run.resolvedAt setup last episode point db) (Run.endedAt setup last episode point db) := by
    simp [GuardedSystem.Leads, restricted, GuardedSystem.restrict, processBlocksOnce,
      dispatchEnabled, dispatchEffect, collectEnabled, collectEffect, StableNode, shutdownMoves,
      Run.resolvedAt, Run.abandonHeld, Ledger.leaving, Run.dropHeld, Run.afterSelect, Pool.busy,
      Run.popPending, Run.endedAt]
  exact leads.path

/-- The run above an orphan can end with a rollback to the fork point. -/
theorem path_retreat (node : NewChain chain served fork tip)
    (orphaned : OrphanedTip chain low fork top db setup) (workers : 0 < setup.workers)
    (long : top + 2 ≤ tip) {oracle : WalkOracle} (honest : HonestOracle chain fork tip oracle) :
    ∃ episode point, point.forkPoint = fork ∧ StablePath chain served fork tip
      (Run.resting setup top setup.seedHash {} {} db) (Run.endedAt setup top episode point db) := by
  have beyond := orphaned.orphaned
  have first : OnChain chain served fork tip (chainItem served (top + 1)) :=
    chainItem_onChain (by omega) (by omega)
  have second : OnChain chain served fork tip (chainItem served (top + 2)) :=
    chainItem_onChain (by omega) (by omega)
  obtain ⟨_, firstHash, firstParent⟩ := first.facts node
  obtain ⟨_, secondHash, secondParent⟩ := second.facts node
  rw [chainItem_blockNum] at firstHash firstParent secondHash secondParent
  rw [Int.add_sub_cancel] at firstParent
  rw [show top + 2 - 1 = top + 1 by omega] at secondParent
  have usable : ∀ height, fork ≤ height → height ≤ tip → chain height ≠ "" := node.usable
  have broken : continuitySignal setup.runStartBlock setup.seedHash top setup.seedHash
      (chainItem served (top + 1)) = some ⟨top, setup.seedHash, chain top⟩ := by
    unfold continuitySignal
    rw [if_pos ⟨orphaned.start.symm, orphaned.seeded,
      firstParent ▸ usable top (by omega) (by omega), firstParent ▸ orphaned.differs.symm⟩,
      firstParent, chainItem_blockNum, Int.add_sub_cancel]
  have park : StablePath chain served fork tip (Run.resting setup top setup.seedHash {} {} db) _ :=
    path_park (by omega) (by omega) workers broken
  have walkable : Walkable (Run.walkView (Run.parked setup top
      (parkedEpisode ⟨top, setup.seedHash, chain top⟩ (chainItem served (top + 1))) db) oracle)
      chain fork top :=
    orphaned.stored.walkable node honest rfl (Int.le_of_eq orphaned.configured) (by omega)
  obtain ⟨chainHashes, walked⟩ := resolveForkPoint_reaches walkable (Int.le_of_lt beyond)
  have anchor : (parkedEpisode ⟨top, setup.seedHash, chain top⟩
      (chainItem served (top + 1))).anchor = (top, chain top) := by
    simp [ReorgEpisode.anchor, parkedEpisode]
  have confirms : (chainItem served (top + 2)).usable = true := by
    simp [BlockResult.usable, secondHash, secondParent, usable (top + 1) (by omega) (by omega),
      usable (top + 2) (by omega) long]
  have resolve : StablePath chain served fork tip (Run.parked setup top
      (parkedEpisode ⟨top, setup.seedHash, chain top⟩ (chainItem served (top + 1))) db) _ :=
    path_resolve (by omega) long workers confirms (secondParent.trans firstHash.symm) honest
      (by rw [anchor]; exact walked)
  exact ⟨_, _, rfl, (park.trans resolve).trans path_shutdown⟩

/-! ### Refilling the store -/

/-- The blocks above the height are new to the store. -/
def Storable (served : Int → ConversionResult) (last tip : Int) (db : DB) : Prop :=
  ∀ height, last < height → height ≤ tip → ∀ doc, (served height).blockDoc? = some doc →
    ¬ db.Holds doc

/-- The continuity check passes a block of the chain behind its predecessor. -/
theorem continuitySignal_chain (node : NewChain chain served fork tip)
    (start : setup.runStartBlock = fork + 1) (seeded : setup.seedHash = chain fork) {last : Int}
    (above : fork ≤ last) (below : last + 1 ≤ tip) :
    continuitySignal setup.runStartBlock setup.seedHash last (chain last)
      (chainItem served (last + 1)) = none := by
  have onChain : OnChain chain served fork tip (chainItem served (last + 1)) :=
    chainItem_onChain (by omega) below
  have parent : (chainItem served (last + 1)).parentHash = chain last := by
    rw [(onChain.facts node).2.2, chainItem_blockNum, Int.add_sub_cancel]
  unfold continuitySignal
  rw [if_neg, if_neg]
  · simp [parent]
  · rintro ⟨first, _, _, differs⟩
    have same : last = fork := by
      rw [chainItem_blockNum, start] at first
      omega
    exact differs (by rw [parent, seeded, same])

/-- One more block of the chain. -/
theorem path_index (node : NewChain chain served fork tip) (workers : 0 < setup.workers)
    (start : setup.runStartBlock = fork + 1) (seeded : setup.seedHash = chain fork) {last : Int}
    (above : fork ≤ last) (below : last + 1 ≤ tip) {ledger : Ledger} {trace : Trace}
    (running : ledger.Running) (storable : Storable served last tip db) :
    ∃ nextLedger nextTrace nextDb, StablePath chain served fork tip
        (Run.resting setup last (chain last) ledger trace db)
        (Run.resting setup (last + 1) (chain (last + 1)) nextLedger nextTrace nextDb) ∧
      nextLedger.Running ∧ last + 1 ∈ nextLedger.callbacks ∧
      Storable served (last + 1) tip nextDb := by
  have onChain : OnChain chain served fork tip (chainItem served (last + 1)) :=
    chainItem_onChain (by omega) below
  have hash := (onChain.facts node).2.1
  obtain ⟨doc, stores, _, located, _⟩ := node.numbered (last + 1) (by omega) below rfl
  obtain ⟨next, added, holds⟩ := SoftStore.add_ok_of_not_holds
    (storable (last + 1) (by omega) below doc stores)
  have hand : StablePath chain served fork tip (Run.resting setup last (chain last) ledger trace db)
      (Run.queued setup (chainItem served (last + 1)) ledger trace db) :=
    path_hand (by omega) below workers running
      (continuitySignal_chain node start seeded above below) (node.usable last above (by omega))
  have store := hand.trans (path_store workers running stores added)
  rw [hash, chainItem_blockNum] at store
  refine ⟨_, _, _, store, running.applyCommit _ _, ?_, ?_⟩
  · simp [Ledger.callbacks, Ledger.applyCommit]
  · intro height higher within other otherStores held
    rcases (holds other).mp held with before | rfl
    · exact storable height (by omega) within other otherStores before
    · obtain ⟨own, ownStores, _, ownLocated, _⟩ := node.numbered height (by omega) within rfl
      change (served height).blockDoc? = some own at ownStores
      rw [otherStores, Option.some.injEq] at ownStores
      rw [ownStores, ownLocated, Option.some.injEq] at located
      change height = last + 1 at located
      omega

/-- The run that starts above the fork point can reach every height of the chain. -/
theorem path_refill (node : NewChain chain served fork tip) (workers : 0 < setup.workers)
    (start : setup.runStartBlock = fork + 1) (seeded : setup.seedHash = chain fork)
    {ledger : Ledger} (running : ledger.Running) (trace : Trace)
    (storable : Storable served fork tip db) (count : Nat) (within : fork + 1 + count ≤ tip) :
    ∃ nextLedger nextTrace nextDb, StablePath chain served fork tip
        (Run.resting setup fork (chain fork) ledger trace db)
        (Run.resting setup (fork + 1 + count) (chain (fork + 1 + count)) nextLedger nextTrace
          nextDb) ∧
      nextLedger.Running ∧ fork + 1 + count ∈ nextLedger.callbacks ∧
      Storable served (fork + 1 + count) tip nextDb := by
  induction count with
  | zero =>
      have next : fork + 1 + ((0 : Nat) : Int) = fork + 1 := by omega
      rw [next] at within ⊢
      exact path_index node workers start seeded (Int.le_refl _) within running storable
  | succ count ih =>
      have next : fork + 1 + ((count + 1 : Nat) : Int) = fork + 1 + count + 1 := by omega
      rw [next] at within ⊢
      obtain ⟨ledger', trace', db', path, running', _, storable'⟩ := ih (by omega)
      obtain ⟨ledger'', trace'', db'', more, facts⟩ := path_index node workers start seeded
        (show fork ≤ fork + 1 + (count : Int) by omega) within running' storable'
      exact ⟨ledger'', trace'', db'', path.trans more, facts⟩

/-! ### The call -/

variable {allowed : List Run → Run → Move → Prop} {start processor : Processor}

theorem CallUnder.seeds {startBlock : Int} {guards : RollbackGuards} {store : DB}
    {seedHash : String} (reached : CallUnder allowed start processor)
    (located : processor.stage = .seeding startBlock ∅ guards store) (positive : 0 < startBlock)
    (found : getStoredBlockHash store (startBlock - 1) = .ok seedHash) :
    CallUnder allowed start
      { processor with
        stage := .running (Run.start (processor.setup startBlock seedHash)
          guards.episodeRollbacks guards.heightRollbacks store) } := by
  have seeded : resolveSeed startBlock ∅ (queryStoredHash false store (startBlock - 1)) =
      .ok seedHash := by
    have notGenesis : ¬ startBlock ≤ 0 := by omega
    simp [resolveSeed, notGenesis, queryStoredHash, found, Except.mapError]
  have leads : (processBlocks.restrict (During allowed)).Leads [.seed false] processor
      { processor with
        stage := .running (Run.start (processor.setup startBlock seedHash)
          guards.episodeRollbacks guards.heightRollbacks store) } := by
    simp [GuardedSystem.Leads, GuardedSystem.restrict, processBlocks, processEnabled,
      processEffect, During, located, seeded]
  exact reached.trans leads.path

/-- A run that ended with a rollback point is rolled back, given enough budget. -/
theorem CallUnder.rollsBack {last : Int} {episode : ReorgEpisode} {point : RollbackPoint}
    {budget rest : Nat} {after : DB} (reached : CallUnder allowed start processor)
    (located : processor.stage = .running (Run.endedAt setup last episode point db))
    (rolled : rollbackBlocks (point.forkPoint + 1) (last + 2) point.chainHashes budget db =
      .ok (rest, after)) :
    ∃ guards, CallUnder allowed start
      { processor with
        stage := .seeding (point.forkPoint + 1) ∅ guards after
        finished := processor.finished ++ [Run.endedAt setup last episode point db] } := by
  have leads : (processBlocks.restrict (During allowed)).Leads [.returned, .rollback budget false]
      processor
      { processor with
        stage := .seeding (point.forkPoint + 1) ∅
          (Ledger.countRollback (Run.endedAt setup last episode point db).ledger
            (point.forkPoint + 1)) after
        finished := processor.finished ++ [Run.endedAt setup last episode point db] } := by
    simp [GuardedSystem.Leads, GuardedSystem.restrict, processBlocks, processEnabled,
      processEffect, During, located, afterRun, Run.endedAt, Ledger.countRollback,
      RollbackGuards.refusal, maxRollbacksPerRun, maxRollbacksPerHeight, afterRollback, rolled]
  exact ⟨_, reached.trans leads.path⟩

/-- The call can come to the point where it starts right above the fork point. -/
theorem call_ready (stored : StoredFork chain low fork top db)
    (node : NewChain chain served fork tip) (long : top + 2 ≤ tip) {oracle : WalkOracle}
    (honest : HonestOracle chain fork tip oracle) (storable : Storable served fork tip db)
    {workers : Nat} (positive : 0 < workers) :
    ∃ processor guards after,
      CallUnder (fun _ => StableNode chain served fork tip) (restartCall workers top db) processor ∧
        processor.workers = workers ∧ processor.stage = .seeding (fork + 1) ∅ guards after ∧
        getStoredBlockHash after fork = .ok (chain fork) ∧ Storable served fork tip after := by
  have bottom := stored.bottom
  have started := stored.started
  have reached := stored.reached
  have ancestor := stored.ancestors fork started (Int.le_refl _)
  by_cases ready : fork = top
  · subst ready
    exact ⟨_, _, _, .refl, rfl, rfl, ancestor, storable⟩
  · obtain ⟨orphanHash, found, usable, differs⟩ := stored.orphans top (by omega) (Int.le_refl _)
    rw [← Int.add_sub_cancel top 1] at found
    have running : CallUnder (fun _ => StableNode chain served fork tip)
        (restartCall workers top db) _ := CallUnder.seeds .refl rfl (by omega) found
    have orphaned : OrphanedTip chain low fork top db
        ((restartCall workers top db).setup (top + 1) orphanHash) :=
      ⟨stored, by omega, rfl, rfl, usable, differs⟩
    obtain ⟨episode, point, located, retreat⟩ :=
      path_retreat node orphaned positive long honest
    rw [← run_start_resting rfl] at retreat
    have ended := running.run_path rfl retreat
    obtain ⟨budget, enough⟩ := rollbackBlocks_enough stored.single (point.forkPoint + 1) (top + 2)
      point.chainHashes
    obtain ⟨⟨rest, after⟩, rolled⟩ := enough budget (Nat.le_refl _)
    obtain ⟨guards, restarted⟩ := ended.rollsBack rfl rolled
    rw [located] at rolled restarted
    refine ⟨_, guards, after, restarted, rfl, rfl, ?_, ?_⟩
    · rw [getStoredBlockHash_congr (blocksAt_below_rollback stored.single rolled (Int.le_refl _))]
      exact ancestor
    · intro height above below doc stores held
      have before := rollbackBlocks_holds (fork + 1) (top + 2) point.chainHashes budget db doc
      rw [rolled] at before
      exact storable height above below doc stores (before.mp held)

/-- The call can refill the store up to every height of the chain. -/
theorem call_refills (stored : StoredFork chain low fork top db)
    (node : NewChain chain served fork tip) (long : top + 2 ≤ tip) {oracle : WalkOracle}
    (honest : HonestOracle chain fork tip oracle) (storable : Storable served fork tip db)
    {workers : Nat} (positive : 0 < workers) {last : Int} (above : fork < last)
    (below : last ≤ tip) :
    ∃ processor run,
      CallUnder (fun _ => StableNode chain served fork tip) (restartCall workers top db) processor ∧
        processor.stage = .running run ∧ Refills chain low fork run ∧
        last ∈ run.ledger.callbacks := by
  have bottom := stored.bottom
  have started := stored.started
  have within := stored.reached
  obtain ⟨processor, guards, after, reached, same, located, found, fresh⟩ :=
    call_ready stored node long honest storable positive
  rw [← Int.add_sub_cancel fork 1] at found
  have running := reached.seeds located (by omega) found
  rw [Int.add_sub_cancel] at running
  obtain ⟨count, rfl⟩ := Int.le.dest (show fork + 1 ≤ last by omega)
  have workersLeft : 0 < (processor.setup (fork + 1) (chain fork)).workers := by
    rw [← same] at positive
    exact positive
  have clean : Ledger.Running
      { episodeRollbacks := guards.episodeRollbacks
        heightRollbacks := guards.heightRollbacks } := ⟨rfl, rfl, rfl, rfl⟩
  obtain ⟨ledger, trace, store, path, _, called, _⟩ :=
    path_refill node workersLeft rfl rfl clean {} fresh count below
  have begins : Run.start (processor.setup (fork + 1) (chain fork)) guards.episodeRollbacks
      guards.heightRollbacks after = Run.resting _ fork (chain fork) _ {} after :=
    run_start_resting rfl _ _
  rw [← begins] at path
  have refilled := running.run_path rfl path
  refine ⟨_, _, refilled, rfl, ?_, called⟩
  have recovering := (call_recovers stored node (by omega) refilled).recovering
  simp only [Recovering] at recovering
  rcases recovering with ⟨_, orphaned⟩ | ⟨_, above⟩
  · -- a run that retreats starts above the orphans
    obtain ⟨beyond, retreats⟩ := orphaned.retreats node
    have start : fork + 1 = top + 1 := retreats.start
    omega
  · exact above.refills stored node (by omega)

/-- The blocks of the new chain are new to a forked store that has not deleted them. -/
theorem StoredFork.storable (stored : StoredFork chain low fork top db)
    (node : NewChain chain served fork tip)
    (kept : ∀ height, fork < height → height ≤ tip → ∀ doc, (served height).blockDoc? = some doc →
      doc ∉ db.deleted) : Storable served fork tip db := by
  intro height above below doc stores held
  rcases held with visible | deleted
  · obtain ⟨own, ownStores, isBlock, located, hash, _⟩ := node.numbered height above below rfl
    change (served height).blockDoc? = some own at ownStores
    rw [stores, Option.some.injEq] at ownStores
    subst ownStores
    have present : doc ∈ blocksAt db height := mem_blocksAt.mpr ⟨visible, isBlock, located⟩
    obtain ⟨orphanHash, found, _, differs⟩ :=
      stored.orphans height above (stored.rows_bounded present).2
    rw [getStoredBlockHash, stored.single.eq_singleton present, Except.ok.injEq] at found
    exact differs (found.symm.trans (hash.trans (node.hash height above below)))
  · exact kept height above below doc stores deleted

/-- The store holds a chain up to the fork point and orphans above it, the node
stably serves one new chain that leaves the stored one at the fork point, and the
rollback of the orphans is interrupted anywhere. A new processor that starts above
the highest block then retreats to the fork point at most once and refills the
store from there, and every height of the new chain can be reached. -/
theorem interrupted_rollback_recovers {oracle : WalkOracle} {chainHashes : HeightMap String}
    {workers : Nat} (stored : StoredFork chain low fork top db)
    (node : NewChain chain served fork tip) (long : top + 2 ≤ tip)
    (honest : HonestOracle chain fork tip oracle)
    (kept : ∀ height, fork < height → height ≤ tip → ∀ doc, (served height).blockDoc? = some doc →
      doc ∉ db.deleted)
    (verified : ∀ height, fork < height → height ≤ top →
      chainHashes.lookup height = some (chain height))
    (positive : 0 < workers) (budget : Nat) :
    let left := leftBy (rollbackBlocks (fork + 1) top chainHashes budget db)
    ∃ highest, fork ≤ highest ∧ highest ≤ top ∧
      getHighestStoredBlockNumber false left = .ok highest ∧
      (∀ processor, CallUnder (fun _ => StableNode chain served fork tip)
          (restartCall workers highest left) processor →
        Recovery chain low fork highest tip left processor.runs) ∧
      ∀ last, fork < last → last ≤ tip → ∃ processor run,
        CallUnder (fun _ => StableNode chain served fork tip)
          (restartCall workers highest left) processor ∧
        processor.stage = .running run ∧ Refills chain low fork run ∧
        last ∈ run.ledger.callbacks := by
  intro left
  obtain ⟨highest, below, remaining⟩ := stored.interrupted
    (fun height above below => node.usable height (by omega) (by omega)) verified budget
  have reached := remaining.reached
  have storable : Storable served fork tip left := by
    intro height above within doc stores held
    exact stored.storable node kept height above within doc stores
      ((rollbackBlocks_holds _ _ _ _ _ _).mp held)
  refine ⟨highest, reached, below, remaining.highest, fun processor call => ?_, ?_⟩
  · exact (call_recovers remaining node (by omega) call).recovering.recovery remaining node
      (by omega)
  · intro last above within
    exact call_refills remaining node (by omega) honest storable positive above within

/-- A new chain over the forked store, of bare blocks. -/
def newHash (height : Int) : String := "0xa" ++ toString height

def newBlock (height : Int) : ConversionResult :=
  bareBlock height (newHash height) (newHash (height - 1))

def newHeaders : WalkOracle where
  header _ hash := .ok (forkedParents hash)
  finalizedKnown := true
  queryFails _ := false

theorem newHash_usable (height : Int) : newHash height ≠ "" := by
  simp [newHash]

theorem newBlock_chain (fork tip : Int) : NewChain newHash newBlock fork tip := by
  constructor
  case usable => exact fun height _ _ => newHash_usable height
  case numbered =>
    intro height _ _ _
    exact ⟨⟨.block, blockFields height (newHash height) (newHash (height - 1))⟩, rfl, rfl, rfl,
      rfl, newHash_usable height⟩
  case hash => exact fun height _ _ => rfl
  case parentHash => exact fun height _ _ => rfl

theorem newHeaders_honest : HonestOracle newHash 3 6 newHeaders := by
  refine ⟨rfl, fun _ => rfl, fun height depth above below => ?_⟩
  have cases : height = 4 ∨ height = 5 ∨ height = 6 := by omega
  rcases cases with rfl | rfl | rfl <;> exact congrArg Except.ok (by decide)

theorem forkedStore_fork : StoredFork newHash 3 3 4 forkedStore := by
  have outside : ∀ height, height < 3 ∨ 4 < height → blocksAt forkedStore height = [] := by
    intro height apart
    refine forkedStore_listed.blocksAt_eq_nil ?_
    simp only [List.mem_cons, List.not_mem_nil, or_false, not_or]
    omega
  refine ⟨by omega, by omega, by omega, forkedStore_clear.single,
    fun height _ _ => newHash_usable height, fun height below => outside height (.inl below), ?_, ?_,
    fun height above => outside height (.inr above)⟩
  · intro height above below
    obtain rfl : height = 3 := by omega
    decide
  · intro height above below
    obtain rfl : height = 4 := by omega
    exact ⟨"0xb4", by decide, by decide, by decide⟩

/-- The rollback is interrupted before its first deletion, and the new processor
reaches block 6 of the new chain. -/
theorem forked_store_recovers :
    ∃ highest processor run,
      getHighestStoredBlockNumber false (leftBy (rollbackBlocks 4 4
        ((∅ : HeightMap String).insert 4 "0xa4") 0 forkedStore)) = .ok highest ∧
      CallUnder (fun _ => StableNode newHash newBlock 3 6)
        (restartCall 2 highest (leftBy (rollbackBlocks 4 4
          ((∅ : HeightMap String).insert 4 "0xa4") 0 forkedStore))) processor ∧
      processor.stage = .running run ∧ Refills newHash 3 3 run ∧ 6 ∈ run.ledger.callbacks := by
  have verified : ∀ height : Int, 3 < height → height ≤ 4 →
      ((∅ : HeightMap String).insert 4 "0xa4").lookup height = some (newHash height) := by
    intro height above below
    obtain rfl : height = 4 := by omega
    decide
  obtain ⟨highest, _, _, found, _, reaches⟩ := interrupted_rollback_recovers forkedStore_fork
    (newBlock_chain 3 6) (by omega) newHeaders_honest (by simp [forkedStore]) verified
    (show 0 < 2 by omega) 0
  obtain ⟨processor, run, call, located, refills, called⟩ := reaches 6 (by omega) (by omega)
  exact ⟨highest, processor, run, found, call, located, refills, called⟩

end ShinzoGenerator.Indexer
