import ShinzoGenerator.Indexer.Run

/-! What one move of the collector can do. Every branch of the collector's
functions is one constructor, so that an invariant of the run is proved by one
case analysis. `allowed` restricts the answers that a move may carry. -/

set_option autoImplicit false

namespace ShinzoGenerator.Indexer

open Chains Defra

/-- The run without its held dispatch. -/
def Run.withoutHeld (run : Run) : Run :=
  { run with
    check := { run.check with holdingDispatch := none }
    pool :=
      { run.pool with
        inFlight := run.pool.inFlight - run.check.holdingDispatch.toList.length } }

theorem Run.dropHeld_eq (run : Run) : run.dropHeld = run.withoutHeld := by
  rcases run with ⟨_, check, _, _, pool, _⟩
  rcases check with ⟨_, _, _, _, holding⟩
  cases holding <;> simp [Run.dropHeld, Run.withoutHeld]

/-- The run after the pop of one height. -/
def Checker.popped (check : Checker) : Checker :=
  { check with
    pending := check.pending.erase check.nextToCommit
    nextToCommit := check.nextToCommit + 1 }

/-- How a finalization ends: abandoned on a cancelled run, failed, or resolved. -/
inductive Concluded (allowed : CollectMove → Prop) (run : Run) (fin : Finalization) :
    Ledger → Option ReorgEpisode → Prop where
  | abandoned : run.ledger.ctxDone = true →
      Concluded allowed run fin { run.ledger with episode := none } run.trace.resolved
  | failed (error : String) : run.pc = .walk fin →
      Concluded allowed run fin
        { run.ledger with episode := none, fatalErr := some error, ctxDone := true }
        run.trace.resolved
  | resolved (episode : ReorgEpisode) (oracle : WalkOracle) (forkPoint : Int)
      (chainHashes : HeightMap String) :
      allowed (.walk fin episode oracle) → run.pc = .walk fin →
      run.ledger.episode = some episode →
      resolveForkPoint (run.walkView oracle) episode.anchor.1 episode.anchor.2 =
        .ok (forkPoint, chainHashes) →
      Concluded allowed run fin
        { run.ledger with
          episode := none
          rollbackPoint := some
            { forkPoint, chainHashes := confirmedHashes episode fin.confirmed chainHashes }
          ctxDone := true }
        (some episode)

/-- The collector waits on a parked item. -/
def Pc.waitsOn (pc : Pc) (item : BlockResult) : Prop :=
  pc = .resolve item ∨ pc = .refetch item

inductive CollectStep (allowed : CollectMove → Prop) (run : Run) : Run → Prop where
  | idle : run.pc = .loop → CollectStep allowed run { run with pc := .hold }
  | popDropped (next : BlockResult) : run.pc = .loop → run.check.holdingDispatch = none →
      run.check.pending.lookup run.check.nextToCommit = some next →
      (run.ledger.rollbackPoint.isSome = true ∨ run.ledger.ctxDone = true) →
      CollectStep allowed run { run with check := run.check.popped, pc := .hold }
  | popParked (next : BlockResult) (episode : ReorgEpisode) : run.pc = .loop →
      run.check.holdingDispatch = none →
      run.check.pending.lookup run.check.nextToCommit = some next →
      run.ledger.rollbackPoint = none → run.ledger.ctxDone = false →
      run.ledger.episode = some episode →
      CollectStep allowed run { run with check := run.check.popped, pc := .resolve next }
  | popChecked (next : BlockResult) : run.pc = .loop → run.check.holdingDispatch = none →
      run.check.pending.lookup run.check.nextToCommit = some next →
      run.ledger.rollbackPoint = none → run.ledger.ctxDone = false → run.ledger.episode = none →
      CollectStep allowed run { run with check := run.check.popped, pc := .check next }
  | hole (next : BlockResult) : run.pc = .check next → next.success = false →
      (∃ queryFails, allowed (.check next queryFails)) →
      CollectStep allowed run
        { run with
          check := { run.check with lastCheckedNum := next.blockNum, lastCheckedHash := "" }
          buffer := run.buffer.skip next.blockNum
          trace := { run.trace with holes := run.trace.holes ++ [next.blockNum] }
          pc := .hold }
  | breaks (next : BlockResult) (signal : ReorgSignal) (queryFails : Bool) :
      run.pc = .check next → next.success = true →
      run.continuityBreak next queryFails = some signal →
      CollectStep allowed run (run.startReorgEpisode signal next)
  | passes (next : BlockResult) (queryFails : Bool) : run.pc = .check next →
      next.success = true → run.continuityBreak next queryFails = none →
      CollectStep allowed run
        { run with
          check :=
            { run.check with
              lastCheckedNum := next.blockNum
              lastCheckedHash := next.hash
              holdingDispatch := some next }
          pool := { run.pool with inFlight := run.pool.inFlight + 1 }
          trace := { run.trace with checked := run.trace.checked ++ [next] }
          pc := .hold }
  | waitLeaves (item : BlockResult) : run.pc.waitsOn item →
      (run.ledger.episode = none ∨ run.ledger.rollbackPoint.isSome = true ∨
        run.ledger.ctxDone = true) →
      CollectStep allowed run { run with pc := .hold }
  | waitFails (item : BlockResult) (error : Option String) : run.pc.waitsOn item →
      (error.isSome = true ∨ run.ledger.episode = none) →
      CollectStep allowed run
        { run with
          ledger := { run.ledger with episode := none, fatalErr := error, ctxDone := true }
          pc := .hold }
  | confirms (item : BlockResult) (episode : ReorgEpisode) : run.pc = .resolve item →
      run.ledger.episode = some episode → run.ledger.rollbackPoint = none → item.usable = true →
      item.parentHash = episode.lastParkedHash →
      CollectStep allowed run { run.withoutHeld with pc := .drain { confirmed := some item } }
  | reanchors (item : BlockResult) (episode : ReorgEpisode) : run.pc = .resolve item →
      run.ledger.episode = some episode → item.usable = true →
      CollectStep allowed run
        { run with
          ledger :=
            { run.ledger with
              episode := some
                { episode with
                  rewalks := episode.rewalks + 1
                  baseHeight := item.blockNum
                  baseParentHash := item.parentHash
                  lastParkedHash := item.hash } }
          pc := .hold }
  | refills (item : BlockResult) (episode : ReorgEpisode) : run.pc = .resolve item →
      run.ledger.episode = some episode →
      CollectStep allowed run
        { run with
          ledger :=
            { run.ledger with
              episode := some { episode with gapRefills := episode.gapRefills + 1 } }
          pc := .refetch item }
  | refetches (item : BlockResult) (reply : Except String ConversionResult) :
      allowed (.refetched item reply) → run.pc = .refetch item →
      CollectStep allowed run { run with pc := .resolve (fetchAndConvertBlock item.blockNum reply) }
  | holds : run.pc = .hold → run.ledger.leaving = false →
      CollectStep allowed run { run with pc := .select }
  | abandons : run.pc = .hold → run.ledger.leaving = true →
      CollectStep allowed run { run.withoutHeld with pc := .select }
  | recvResult (result : BlockResult) : run.pc = .select →
      run.dispatcher.resultChan.head? = some result →
      CollectStep allowed run
        { run with
          check := { run.check with pending := run.check.pending.insert result.blockNum result }
          dispatcher := { run.dispatcher with resultChan := run.dispatcher.resultChan.tail }
          pc := run.afterSelect }
  | resultsClosed : run.pc = .select → run.dispatcher.resultsClosed = true →
      CollectStep allowed run
        { run with
          sawResultsClosed := true
          pc := Run.afterSelect { run with sawResultsClosed := true } }
  | completionsClosed : run.pc = .select → run.pool.completionChan = [] →
      run.pool.completionsClosed = true →
      CollectStep allowed run
        { run with
          sawCompletionsClosed := true
          pc := Run.afterSelect { run with sawCompletionsClosed := true } }
  | sends (item : BlockResult) : run.pc = .select → run.check.holdingDispatch = some item →
      CollectStep allowed run
        { run with
          check := { run.check with holdingDispatch := none }
          pool := { run.pool with storeChan := run.pool.storeChan ++ [item] }
          trace := { run.trace with handed := run.trace.handed ++ [item] }
          pc := run.afterSelect }
  | closesStore : run.pc = .select → run.ledger.ctxDone = true → run.doneFired = false →
      CollectStep allowed run
        { run.withoutHeld with
          pool := { run.withoutHeld.pool with storeClosed := true }
          trace := { run.trace with closes := run.trace.closes + 1 }
          doneFired := true
          pc := run.afterSelect }
  | receives (completion : StoreCompletion) (ledger : Ledger) : run.pc = .select →
      run.pool.completionChan.head? = some completion →
      BatchApplied run.ledger ledger (run.batchOf completion) none false →
      CollectStep allowed run { run.receive completion with ledger, pc := run.afterSelect }
  | receivesOpening (completion : StoreCompletion) (ledger : Ledger)
      (rest : List StoreCompletion) : run.pc = .select →
      run.pool.completionChan.head? = some completion →
      BatchApplied run.ledger ledger (run.batchOf completion) (some rest) false →
      CollectStep allowed run
        { (run.receive completion).withoutHeld with
          ledger
          trace :=
            { (run.receive completion).trace with
              opened := run.trace.opened ++ ledger.episode.toList }
          pc := .drain { rest } }
  | drainReceives (fin : Finalization) (completion : StoreCompletion) (ledger : Ledger)
      (rest : Option (List StoreCompletion)) :
      (run.pc = .drain fin ∨ run.pc = .tail fin) →
      run.pool.completionChan.head? = some completion →
      BatchApplied run.ledger ledger (run.batchOf completion) rest fin.confirmed.isNone →
      CollectStep allowed run { run.receive completion with ledger }
  | drainSettles (fin : Finalization) : run.pc = .drain fin → run.pool.inFlight = 0 →
      CollectStep allowed run { run with pc := .tail fin }
  | drainEnds (fin : Finalization) : run.pc = .tail fin → run.pool.completionChan = [] →
      run.ledger.ctxDone = false → CollectStep allowed run { run with pc := .walk fin }
  | concludesPop (fin : Finalization) (confirmed : BlockResult) (ledger : Ledger)
      (resolved : Option ReorgEpisode) :
      (run.pc = .tail fin ∧ run.pool.completionChan = [] ∨ run.pc = .walk fin) →
      fin.confirmed = some confirmed → Concluded allowed run fin ledger resolved →
      CollectStep allowed run { run with ledger, trace := { run.trace with resolved }, pc := .hold }
  | concludesBatch (fin : Finalization) (middle ledger : Ledger)
      (resolved : Option ReorgEpisode) :
      (run.pc = .tail fin ∧ run.pool.completionChan = [] ∨ run.pc = .walk fin) →
      fin.confirmed = none → Concluded allowed run fin middle resolved →
      BatchApplied middle ledger fin.rest none false →
      CollectStep allowed run
        { run with ledger, trace := { run.trace with resolved }, pc := run.afterSelect }
  | concludesOpening (fin : Finalization) (middle ledger : Ledger)
      (resolved : Option ReorgEpisode) (rest : List StoreCompletion) :
      (run.pc = .tail fin ∧ run.pool.completionChan = [] ∨ run.pc = .walk fin) →
      fin.confirmed = none → Concluded allowed run fin middle resolved →
      BatchApplied middle ledger fin.rest (some rest) false →
      CollectStep allowed run
        { run.withoutHeld with
          ledger
          trace :=
            { run.trace with resolved, opened := run.trace.opened ++ ledger.episode.toList }
          pc := .drain { rest } }

variable {allowed : CollectMove → Prop} {run : Run}

theorem popPending_step (at_loop : run.pc = .loop) :
    CollectStep allowed run run.popPending := by
  unfold Run.popPending
  split
  · exact .idle at_loop
  · rename_i free
    have nothingHeld : run.check.holdingDispatch = none := by simpa using free
    split
    · exact .idle at_loop
    · rename_i next found
      by_cases ending : (run.ledger.rollbackPoint.isSome || run.ledger.ctxDone) = true
      · rw [if_pos ending]
        exact .popDropped next at_loop nothingHeld found (by simpa using ending)
      · rw [if_neg ending]
        simp only [Bool.or_eq_true, not_or, Bool.not_eq_true, Option.isSome_eq_false_iff,
          Option.isNone_iff_eq_none] at ending
        cases active : run.ledger.episode with
        | none => exact .popChecked next at_loop nothingHeld found ending.1 ending.2 active
        | some episode =>
            exact .popParked next episode at_loop nothingHeld found ending.1 ending.2 active

theorem checkedForDispatch_step {next : BlockResult} (queryFails : Bool)
    (at_check : run.pc = .check next) (permitted : allowed (.check next queryFails)) :
    CollectStep allowed run (run.checkedForDispatch next queryFails) := by
  unfold Run.checkedForDispatch
  split
  · rename_i failed
    exact .hole next at_check failed ⟨queryFails, permitted⟩
  · rename_i fetched
    have succeeded : next.success = true := by simpa using fetched
    split
    · rename_i signal broken
      exact .breaks next signal queryFails at_check succeeded broken
    · rename_i passed
      exact .passes next queryFails at_check succeeded passed

theorem resolveEpisodeItem_step {item : BlockResult} (at_item : run.pc = .resolve item) :
    CollectStep allowed run (run.resolveEpisodeItem item) := by
  unfold Run.resolveEpisodeItem
  split
  · rename_i inactive
    exact .waitLeaves item (.inl at_item) (.inl inactive)
  · rename_i episode active
    split
    · rename_i ending
      exact .waitLeaves item (.inl at_item) (.inr (by simpa using ending))
    · rename_i running
      have unresolved : run.ledger.rollbackPoint = none := by
        cases point : run.ledger.rollbackPoint <;> simp [point] at running ⊢
      split
      · rename_i usable
        split
        · rename_i chained
          rw [Run.dropHeld_eq]
          exact .confirms item episode at_item active unresolved usable chained
        · unfold Ledger.reanchor
          split
          · exact .waitFails item _ (.inl at_item) (.inl rfl)
          · exact .reanchors item episode at_item active usable
      · unfold Run.refillEpisodeGap
        split
        · exact .waitFails item _ (.inl at_item) (.inl rfl)
        · exact .refills item episode at_item active

theorem refetched_step {item : BlockResult} {reply : Except String ConversionResult}
    (at_item : run.pc = .refetch item) (permitted : allowed (.refetched item reply)) :
    CollectStep allowed run (run.refetched item reply) := by
  unfold Run.refetched
  split
  · exact .refetches item _ permitted at_item
  · split
    · rename_i cancelled
      exact .waitLeaves item (.inr at_item) (.inr (.inr cancelled))
    · refine .waitFails item _ (.inr at_item) ?_
      cases run.ledger.episode <;> simp

theorem abandonHeld_step (at_hold : run.pc = .hold) :
    CollectStep allowed run run.abandonHeld := by
  unfold Run.abandonHeld
  split
  · rename_i leaving
    rw [Run.dropHeld_eq]
    exact .abandons at_hold leaving
  · rename_i staying
    exact .holds at_hold (by simpa using staying)

theorem recvCompletion_step {completion : StoreCompletion} (at_select : run.pc = .select)
    (arrived : run.pool.completionChan.head? = some completion) :
    CollectStep allowed run
      ((run.receive completion).applyFromSelect (run.batchOf completion)) := by
  have applied := applyBatch_applied run.check.nextToCommit false (run.batchOf completion)
    run.ledger
  unfold Run.applyFromSelect
  split
  · rename_i ledger same
    rw [show applyBatch run.check.nextToCommit false (run.batchOf completion) run.ledger =
      (ledger, none) from same] at applied
    exact .receives completion ledger at_select arrived applied
  · rename_i ledger rest same
    rw [show applyBatch run.check.nextToCommit false (run.batchOf completion) run.ledger =
      (ledger, some rest) from same] at applied
    rw [Run.dropHeld_eq]
    exact .receivesOpening completion ledger rest at_select arrived applied

/-- A concluded finalization resumes where it was started. -/
theorem Concluded.step {fin : Finalization} {ledger : Ledger} {resolved : Option ReorgEpisode}
    (concluded : Concluded allowed run fin ledger resolved)
    (located : run.pc = .tail fin ∧ run.pool.completionChan = [] ∨ run.pc = .walk fin) :
    CollectStep allowed run
      (Run.resume { run with ledger, trace := { run.trace with resolved } } fin) := by
  unfold Run.resume
  split
  · rename_i confirmed popTime
    exact .concludesPop fin confirmed ledger resolved located popTime concluded
  · rename_i stale
    have applied := applyBatch_applied run.check.nextToCommit false fin.rest ledger
    unfold Run.applyFromSelect
    split
    · rename_i after same
      rw [show applyBatch run.check.nextToCommit false fin.rest ledger = (after, none)
        from same] at applied
      exact .concludesBatch fin ledger after resolved located stale concluded applied
    · rename_i after rest same
      rw [show applyBatch run.check.nextToCommit false fin.rest ledger = (after, some rest)
        from same] at applied
      rw [Run.dropHeld_eq]
      exact .concludesOpening fin ledger after resolved rest located stale concluded applied

theorem drained_step {fin : Finalization} (at_tail : run.pc = .tail fin)
    (empty : run.pool.completionChan = []) : CollectStep allowed run (run.drained fin) := by
  unfold Run.drained
  split
  · rename_i cancelled
    exact (Concluded.abandoned cancelled).step (.inl ⟨at_tail, empty⟩)
  · rename_i running
    exact .drainEnds fin at_tail empty (by simpa using running)

theorem finalizeEpisode_step {fin : Finalization} {episode : ReorgEpisode} {oracle : WalkOracle}
    (at_walk : run.pc = .walk fin) (active : run.ledger.episode = some episode)
    (permitted : allowed (.walk fin episode oracle)) :
    CollectStep allowed run (run.finalizeEpisode fin episode oracle) := by
  unfold Run.finalizeEpisode
  split
  · split
    · rename_i cancelled
      exact (Concluded.abandoned cancelled).step (.inr at_walk)
    · exact (Concluded.failed _ at_walk).step (.inr at_walk)
  · rename_i forkPoint chainHashes walked
    exact (Concluded.resolved episode oracle forkPoint chainHashes permitted at_walk active
      walked).step (.inr at_walk)

/-- Every move of the collector is one of the steps. -/
theorem collect_step {move : CollectMove} (enabled : collectEnabled run move)
    (permitted : allowed move) : CollectStep allowed run (collectEffect run move) := by
  cases move with
  | pop => exact popPending_step enabled
  | check next queryFails => exact checkedForDispatch_step queryFails enabled permitted
  | resolve item => exact resolveEpisodeItem_step enabled
  | refetched item reply => exact refetched_step enabled permitted
  | hold => exact abandonHeld_step enabled
  | recvResult result => exact .recvResult result enabled.1 enabled.2
  | recvResultsClosed => exact .resultsClosed enabled.1 enabled.2.2
  | recvCompletion completion => exact recvCompletion_step enabled.1 enabled.2
  | recvCompletionsClosed => exact .completionsClosed enabled.1 enabled.2.1 enabled.2.2
  | send item => exact .sends item enabled.1 enabled.2.1
  | done =>
      simp only [collectEffect, Run.dropHeld_eq]
      exact .closesStore enabled.1 enabled.2.1 enabled.2.2
  | drainRecv fin completion =>
      exact .drainReceives fin completion _ _ enabled.1 enabled.2
        (applyBatch_applied run.check.nextToCommit fin.confirmed.isNone _ run.ledger)
  | drainSettled fin => exact .drainSettles fin enabled.1 enabled.2
  | drained fin => exact drained_step enabled.1 enabled.2
  | walk fin episode oracle => exact finalizeEpisode_step enabled.1 enabled.2 permitted

end ShinzoGenerator.Indexer
