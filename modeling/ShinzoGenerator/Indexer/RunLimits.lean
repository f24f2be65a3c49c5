import ShinzoGenerator.Indexer.ProcessBlocks
import ShinzoGenerator.Lib.EventLog

/-! The limits of a call of `ProcessBlocks`: how often a confirmation wait re-anchors and
re-fetches, how many turns one popped item takes, and how often orphans are rolled back
between two commits. Every execution is logged, and the counters of the code bound the log. -/

set_option autoImplicit false

namespace ShinzoGenerator.Indexer

open Chains Defra EventLog

/-! ### The log of an execution -/

/-- `waits` opens a confirmation wait, `parked` hands it a popped item, and `turn` is one
turn of the loop in `resolveEpisodeItem`. -/
inductive RunEvent where
  | waits
  | parked
  | turn
  | reanchor
  | refetch
  | commit (height : Int)
  | rollback (restart : Int)
deriving DecidableEq

namespace RunEvent

def opensWait (event : RunEvent) : Bool := event = .waits

def parks (event : RunEvent) : Bool := event = .parked

def isTurn (event : RunEvent) : Bool := event = .turn

def isReanchor (event : RunEvent) : Bool := event = .reanchor

def isRefetch (event : RunEvent) : Bool := event = .refetch

def isCommit : RunEvent → Bool
  | .commit _ => true
  | _ => false

def isRollback : RunEvent → Bool
  | .rollback _ => true
  | _ => false

def isRollbackAt (restart : Int) (event : RunEvent) : Bool := event = .rollback restart

end RunEvent

/-- What a turn of the confirmation wait did: it went on to re-fetch its item, or it changed
an episode that stays open. -/
def turnEvents (item : BlockResult) (before after : Run) : List RunEvent :=
  if after.pc = .refetch item then [.refetch]
  else
    match before.ledger.episode, after.ledger.episode with
    | some old, some new => if new = old then [] else [.reanchor]
    | _, _ => []

/-- The collector is about to apply the rules of the wait to an item. -/
def Pc.resolving : Pc → Bool
  | .resolve _ => true
  | _ => false

/-- The events of the confirmation wait in one move of the collector, the newest first. -/
def Run.waitEvents (run : Run) : CollectMove → List RunEvent
  | .pop => if run.popPending.pc.resolving then [.parked] else []
  | .check next queryFails =>
      if next.success = true ∧ (run.continuityBreak next queryFails).isSome then [.waits] else []
  | .resolve item => turnEvents item run (run.resolveEpisodeItem item) ++ [.turn]
  | _ => []

/-- The commits of one move, the newest first. -/
def commitEvents (before after : Run) : List RunEvent :=
  (after.ledger.committed.drop before.ledger.committed.length).reverse.map
    fun completion => .commit completion.item.blockNum

def Run.events (run : Run) : Move → List RunEvent
  | .collect move => run.waitEvents move ++ commitEvents run (collectEffect run move)
  | _ => []

def Processor.events (processor : Processor) (move : ProcessMove) : List RunEvent :=
  match move, processor.stage with
  | .step move, .running run => run.events move
  | .rollback _ _, .rollingBack _ point => [.rollback (point.forkPoint + 1)]
  | _, _ => []

/-- `ProcessBlocks` with the log of what happened. -/
def loggedBlocks : GuardedSystem (Processor × List RunEvent) ProcessMove where
  enabled state move := processBlocks.enabled state.1 move
  effect state move := (processBlocks.effect state.1 move, state.1.events move ++ state.2)

/-- Every execution has its log. -/
theorem exists_log {start processor : Processor} (path : processBlocks.Path start processor) :
    ∃ log, loggedBlocks.Path (start, []) (processor, log) := by
  induction path with
  | refl => exact ⟨[], .refl⟩
  | @step state move _ enabled ih =>
      obtain ⟨log, logged⟩ := ih
      have able : loggedBlocks.enabled (state, log) move := enabled
      exact ⟨_, logged.step able⟩

/-! ### The rollback guards and the commits -/

/-- Only a commit changes the rollback counters. -/
structure GuardsKept (before after : Ledger) : Prop where
  fired : ∃ fired, after.committed = before.committed ++ fired ∧
    (fired = [] → after.episodeRollbacks = before.episodeRollbacks ∧
      after.heightRollbacks = before.heightRollbacks)

theorem GuardsKept.same {before after : Ledger} (committed : after.committed = before.committed)
    (episodes : after.episodeRollbacks = before.episodeRollbacks)
    (heights : after.heightRollbacks = before.heightRollbacks) : GuardsKept before after :=
  ⟨[], by simpa using committed, fun _ => ⟨episodes, heights⟩⟩

theorem GuardsKept.trans {first middle last : Ledger} (early : GuardsKept first middle)
    (late : GuardsKept middle last) : GuardsKept first last := by
  obtain ⟨fired, committed, kept⟩ := early.fired
  obtain ⟨later, committedLater, keptLater⟩ := late.fired
  refine ⟨fired ++ later, by rw [committedLater, committed, List.append_assoc], fun none => ?_⟩
  obtain ⟨rfl, rfl⟩ := List.append_eq_nil_iff.mp none
  exact ⟨(keptLater rfl).1.trans (kept rfl).1, (keptLater rfl).2.trans (kept rfl).2⟩

theorem applyOneCompletion_guards (nextToCommit : Int) (suppress : Bool)
    (completion : StoreCompletion) (ledger : Ledger) :
    GuardsKept ledger (applyOneCompletion nextToCommit suppress completion ledger) := by
  unfold applyOneCompletion
  split
  · exact .same rfl rfl rfl
  · split <;> exact .same rfl rfl rfl
  · split
    · exact .same rfl rfl rfl
    · refine ⟨[completion], rfl, fun none => ?_⟩
      cases none

theorem applyBatch_guards (nextToCommit : Int) (suppress : Bool) (batch : List StoreCompletion)
    (ledger : Ledger) :
    GuardsKept ledger (applyBatch nextToCommit suppress batch ledger).1 := by
  induction batch generalizing ledger with
  | nil => exact .same rfl rfl rfl
  | cons completion batch ih =>
      unfold applyBatch
      split
      · exact .same rfl rfl rfl
      · exact (applyOneCompletion_guards ..).trans (ih _)

theorem applyFromSelect_guards (run : Run) (batch : List StoreCompletion) :
    GuardsKept run.ledger (run.applyFromSelect batch).ledger := by
  have applied := applyBatch_guards run.check.nextToCommit false batch run.ledger
  unfold Run.applyFromSelect
  split
  · rename_i ledger same
    rwa [same] at applied
  · rename_i ledger rest same
    rwa [same] at applied

theorem resume_guards {before : Ledger} {run : Run} (fin : Finalization)
    (kept : GuardsKept before run.ledger) : GuardsKept before (run.resume fin).ledger := by
  unfold Run.resume
  split
  · exact kept
  · exact kept.trans (applyFromSelect_guards run fin.rest)

theorem finalizeEpisode_guards (run : Run) (fin : Finalization) (episode : ReorgEpisode)
    (oracle : WalkOracle) : GuardsKept run.ledger (run.finalizeEpisode fin episode oracle).ledger := by
  unfold Run.finalizeEpisode Run.abandonEpisode
  split
  · split
    · apply resume_guards
      exact .same rfl rfl rfl
    · apply resume_guards
      exact .same rfl rfl rfl
  · apply resume_guards
    exact .same rfl rfl rfl

theorem drained_guards (run : Run) (fin : Finalization) :
    GuardsKept run.ledger (run.drained fin).ledger := by
  unfold Run.drained Run.abandonEpisode
  split
  · apply resume_guards
    exact .same rfl rfl rfl
  · exact .same rfl rfl rfl

theorem resolveEpisodeItem_guards (run : Run) (item : BlockResult) :
    GuardsKept run.ledger (run.resolveEpisodeItem item).ledger := by
  unfold Run.resolveEpisodeItem
  split
  · exact .same rfl rfl rfl
  · split
    · exact .same rfl rfl rfl
    · split
      · split
        · rw [Run.dropHeld_eq]
          exact .same rfl rfl rfl
        · unfold Ledger.reanchor
          split <;> exact .same rfl rfl rfl
      · unfold Run.refillEpisodeGap
        split <;> exact .same rfl rfl rfl

theorem popPending_ledger (run : Run) : run.popPending.ledger = run.ledger := by
  unfold Run.popPending
  split
  · rfl
  · split <;> rfl

theorem collectEffect_guards (run : Run) (move : CollectMove) :
    GuardsKept run.ledger (collectEffect run move).ledger := by
  have kept : ∀ {ledger : Ledger}, ledger = run.ledger → GuardsKept run.ledger ledger := by
    rintro _ rfl
    exact .same rfl rfl rfl
  cases move with
  | pop => exact kept (popPending_ledger run)
  | check next queryFails =>
      simp only [collectEffect, Run.checkedForDispatch]
      split
      · exact kept rfl
      · split
        · exact .same rfl rfl rfl
        · exact kept rfl
  | resolve item => exact resolveEpisodeItem_guards run item
  | refetched item reply =>
      simp only [collectEffect, Run.refetched]
      split
      · exact kept rfl
      · split
        · exact kept rfl
        · exact .same rfl rfl rfl
  | hold =>
      simp only [collectEffect, Run.abandonHeld]
      split
      · rw [Run.dropHeld_eq]
        exact kept rfl
      · exact kept rfl
  | recvCompletion completion =>
      exact applyFromSelect_guards (run.receive completion) (run.batchOf completion)
  | done =>
      simp only [collectEffect, Run.dropHeld_eq]
      exact kept rfl
  | drainRecv fin completion => exact applyBatch_guards ..
  | drained fin => exact drained_guards run fin
  | walk fin episode oracle => exact finalizeEpisode_guards run fin episode oracle
  | recvResult | recvResultsClosed | recvCompletionsClosed | send | drainSettled => exact kept rfl

/-! ### Counting -/

/-- The rollbacks since the last commit are within the counters. -/
structure Guarded (episodeRollbacks : Nat) (heightRollbacks : HeightMap Nat)
    (log : List RunEvent) : Prop where
  total : since RunEvent.isRollback RunEvent.isCommit log ≤ episodeRollbacks
  height : ∀ restart, since (RunEvent.isRollbackAt restart) RunEvent.isCommit log ≤
    (heightRollbacks.lookup restart).getD 0

/-- The counters of a confirmation wait bound what happened since it was opened, and the
turns of a popped item are bounded by its re-fetches. -/
structure WaitCounted (run : Run) (log : List RunEvent) : Prop where
  episode : ∀ episode, run.ledger.episode = some episode → episode.stalePinned = false →
    since RunEvent.isReanchor RunEvent.opensWait log ≤ episode.rewalks ∧
      since RunEvent.isRefetch RunEvent.opensWait log ≤ episode.gapRefills ∧
      episode.gapRefills ≤ maxGapRefillsPerWait
  turns : ∀ item, run.pc.waitsOn item → ∀ episode, run.ledger.episode = some episode →
    since RunEvent.isTurn RunEvent.parks log ≤ episode.gapRefills

structure LogBounded (log : List RunEvent) : Prop where
  reanchors : AtMost maxRewalksPerEpisode RunEvent.isReanchor RunEvent.opensWait log
  refetches : AtMost maxGapRefillsPerWait RunEvent.isRefetch RunEvent.opensWait log
  turns : AtMost (maxGapRefillsPerWait + 1) RunEvent.isTurn RunEvent.parks log
  rollbacks : AtMost maxRollbacksPerRun RunEvent.isRollback RunEvent.isCommit log
  heights : ∀ restart, AtMost maxRollbacksPerHeight (RunEvent.isRollbackAt restart)
    RunEvent.isCommit log

/-- An event that no limit counts. -/
def RunEvent.uncounted : RunEvent → Bool
  | .waits | .parked | .commit _ => true
  | _ => false

theorem LogBounded.append {log events : List RunEvent} (bounded : LogBounded log)
    (quiet : ∀ event ∈ events, event.uncounted = true) : LogBounded (events ++ log) := by
  refine ⟨bounded.reanchors.append fun event member => ?_,
    bounded.refetches.append fun event member => ?_, bounded.turns.append fun event member => ?_,
    bounded.rollbacks.append fun event member => ?_,
    fun restart => (bounded.heights restart).append fun event member => ?_⟩
  all_goals
    have uncounted := quiet event member
    cases event <;>
      simp_all [RunEvent.uncounted, RunEvent.isReanchor, RunEvent.isRefetch, RunEvent.isTurn,
        RunEvent.isRollback, RunEvent.isRollbackAt]

/-! ### The confirmation wait -/

variable {run next : Run} {log : List RunEvent}

theorem not_waitsOn_of_resting {pc : Pc} (resting : pc.resting = true) (item : BlockResult) :
    ¬ pc.waitsOn item := by
  rintro (located | located) <;>
  · rw [located] at resting
    cases resting

/-- The collector leaves the wait's loop and opens no wait. -/
theorem WaitCounted.leave (counted : WaitCounted run log)
    (same : ∀ episode, next.ledger.episode = some episode → episode.stalePinned = false →
      run.ledger.episode = some episode)
    (free : ∀ item, ¬ next.pc.waitsOn item) : WaitCounted next log :=
  ⟨fun episode found popTime => counted.episode episode (same episode found popTime) popTime,
    fun item located => absurd located (free item)⟩

theorem WaitCounted.append {events : List RunEvent} (counted : WaitCounted run log)
    (quiet : ∀ event ∈ events, event.isCommit = true) : WaitCounted run (events ++ log) := by
  have none : ∀ counts : RunEvent → Bool, (∀ height, counts (.commit height) = false) →
      ∀ event ∈ events, counts event = false := by
    intro counts uncounted event member
    have commit := quiet event member
    cases event with
    | commit height => exact uncounted height
    | _ => cases commit
  refine ⟨fun episode found popTime => ?_, fun item located episode found => ?_⟩
  · obtain ⟨rewalks, refills, limit⟩ := counted.episode episode found popTime
    exact ⟨(since_append_le (none _ fun _ => rfl)).trans rewalks,
      (since_append_le (none _ fun _ => rfl)).trans refills, limit⟩
  · exact (since_append_le (none _ fun _ => rfl)).trans (counted.turns item located episode found)

theorem BatchApplied.popTime_kept {ledger after : Ledger} {batch : List StoreCompletion}
    {rest : Option (List StoreCompletion)} {suppress : Bool} {episode : ReorgEpisode}
    (applied : BatchApplied ledger after batch rest suppress)
    (found : after.episode = some episode) (popTime : episode.stalePinned = false) :
    ledger.episode = some episode := by
  cases before : ledger.episode with
  | none =>
      cases rest with
      | none =>
          rw [applied.closed rfl before] at found
          cases found
      | some later =>
          obtain ⟨_, opener, _, _, opened⟩ := applied.opened later rfl
          rw [opened] at found
          cases found
          cases popTime
  | some old =>
      obtain ⟨_, raised, kept, same⟩ := applied.kept old before
      rw [kept] at found
      cases found
      rw [same.popTime (same.stalePinned ▸ popTime)]

theorem applyFromSelect_waits (counted : WaitCounted run log) (batch : List StoreCompletion) :
    WaitCounted (run.applyFromSelect batch) log := by
  have applied := applyBatch_applied run.check.nextToCommit false batch run.ledger
  unfold Run.applyFromSelect
  split
  · rename_i ledger same
    rw [same] at applied
    exact counted.leave (fun _ found popTime => applied.popTime_kept found popTime)
      (not_waitsOn_of_resting run.afterSelect_resting)
  · rename_i ledger rest same
    rw [same] at applied
    refine counted.leave (fun _ found popTime => applied.popTime_kept found popTime) ?_
    rintro item (located | located) <;> cases located

theorem resume_waits (counted : WaitCounted run log) (fin : Finalization) :
    WaitCounted (run.resume fin) log := by
  unfold Run.resume
  split
  · exact counted.leave (fun _ found _ => found) (not_waitsOn_of_resting rfl)
  · exact applyFromSelect_waits counted fin.rest

/-- Without an open episode nothing is to be counted outside the loop. -/
theorem waitCounted_free (free : next.ledger.episode = none) : WaitCounted next log := by
  refine ⟨fun episode found => ?_, fun item _ episode found => ?_⟩ <;>
  · rw [free] at found
    cases found

theorem finalizeEpisode_waits (fin : Finalization) (episode : ReorgEpisode) (oracle : WalkOracle) :
    WaitCounted (run.finalizeEpisode fin episode oracle) log := by
  unfold Run.finalizeEpisode Run.abandonEpisode
  split
  · split
    · apply resume_waits
      exact waitCounted_free rfl
    · apply resume_waits
      exact waitCounted_free rfl
  · apply resume_waits
    exact waitCounted_free rfl

theorem drained_waits (counted : WaitCounted run log) (fin : Finalization) :
    WaitCounted (run.drained fin) log := by
  unfold Run.drained Run.abandonEpisode
  split
  · apply resume_waits
    exact waitCounted_free rfl
  · refine counted.leave (fun _ found _ => found) ?_
    rintro item (located | located) <;> cases located

theorem LogBounded.turn (bounded : LogBounded log)
    (few : since RunEvent.isTurn RunEvent.parks log ≤ maxGapRefillsPerWait) :
    LogBounded (.turn :: log) :=
  ⟨bounded.reanchors.cons_quiet rfl, bounded.refetches.cons_quiet rfl,
    bounded.turns.cons (since_cons_le few), bounded.rollbacks.cons_quiet rfl,
    fun restart => (bounded.heights restart).cons_quiet rfl⟩

theorem LogBounded.reanchor (bounded : LogBounded log)
    (few : since RunEvent.isReanchor RunEvent.opensWait log < maxRewalksPerEpisode) :
    LogBounded (.reanchor :: log) :=
  ⟨bounded.reanchors.cons ((since_cons_le (Nat.le_refl _)).trans few),
    bounded.refetches.cons_quiet rfl, bounded.turns.cons_quiet rfl,
    bounded.rollbacks.cons_quiet rfl, fun restart => (bounded.heights restart).cons_quiet rfl⟩

theorem LogBounded.refetch (bounded : LogBounded log)
    (few : since RunEvent.isRefetch RunEvent.opensWait log < maxGapRefillsPerWait) :
    LogBounded (.refetch :: log) :=
  ⟨bounded.reanchors.cons_quiet rfl,
    bounded.refetches.cons ((since_cons_le (Nat.le_refl _)).trans few),
    bounded.turns.cons_quiet rfl, bounded.rollbacks.cons_quiet rfl,
    fun restart => (bounded.heights restart).cons_quiet rfl⟩

/-- A turn leaves the loop with the episode as it was, ends the episode, re-anchors it or
re-fetches for it; the last two only below their limits. -/
theorem resolveEpisodeItem_cases {item : BlockResult} {episode : ReorgEpisode}
    (active : run.ledger.episode = some episode) (same : run.resolveEpisodeItem item = next) :
    (next.ledger.episode = some episode ∧ ∀ other, ¬ next.pc.waitsOn other) ∨
    (next.ledger.episode = none ∧ ∀ other, ¬ next.pc.waitsOn other) ∨
    (∃ anchored : ReorgEpisode, next.ledger.episode = some anchored ∧
      anchored.rewalks = episode.rewalks + 1 ∧ anchored.gapRefills = episode.gapRefills ∧
      episode.rewalks < maxRewalksPerEpisode ∧ ∀ other, ¬ next.pc.waitsOn other) ∨
    (next.ledger.episode = some { episode with gapRefills := episode.gapRefills + 1 } ∧
      next.pc = .refetch item ∧ episode.gapRefills < maxGapRefillsPerWait) := by
  subst same
  unfold Run.resolveEpisodeItem
  simp only [active]
  split
  · exact .inl ⟨active, not_waitsOn_of_resting rfl⟩
  · split
    · split
      · refine .inl ⟨?_, ?_⟩
        · rw [Run.dropHeld_eq]
          exact active
        · rintro other (waits | waits) <;> cases waits
      · unfold Ledger.reanchor
        split
        · exact .inr (.inl ⟨rfl, not_waitsOn_of_resting rfl⟩)
        · rename_i spare
          exact .inr (.inr (.inl
            ⟨_, rfl, rfl, rfl, Nat.lt_of_not_le spare, not_waitsOn_of_resting rfl⟩))
    · unfold Run.refillEpisodeGap
      split
      · exact .inr (.inl ⟨rfl, not_waitsOn_of_resting rfl⟩)
      · rename_i spare
        exact .inr (.inr (.inr ⟨rfl, rfl, Nat.lt_of_not_le spare⟩))

/-- One turn of the wait, from an open episode. -/
theorem resolveEpisodeItem_waits {item : BlockResult} {episode : ReorgEpisode}
    (counted : WaitCounted run log) (bounded : LogBounded log) (located : run.pc = .resolve item)
    (active : run.ledger.episode = some episode) (popTime : episode.stalePinned = false)
    (same : run.resolveEpisodeItem item = next) :
    WaitCounted next (turnEvents item run next ++ .turn :: log) ∧
      LogBounded (turnEvents item run next ++ .turn :: log) := by
  obtain ⟨rewalks, refills, limit⟩ := counted.episode episode active popTime
  have turns := counted.turns item (.inl located) episode active
  have turned : LogBounded (.turn :: log) := bounded.turn (turns.trans limit)
  have rewalked : since RunEvent.isReanchor RunEvent.opensWait (.turn :: log) ≤ episode.rewalks :=
    (since_cons_quiet rfl).trans rewalks
  have refilled : since RunEvent.isRefetch RunEvent.opensWait (.turn :: log) ≤ episode.gapRefills :=
    (since_cons_quiet rfl).trans refills
  rcases resolveEpisodeItem_cases active same with
    ⟨kept, free⟩ | ⟨closed, free⟩ | ⟨anchored, found, counts, refillsKept, spare, free⟩ |
    ⟨found, refetches, spare⟩
  · have quiet : turnEvents item run next = [] := by
      rw [turnEvents, if_neg fun located => free item (.inr located)]
      simp [active, kept]
    rw [quiet]
    refine ⟨⟨fun other still _ => ?_, fun item waits => absurd waits (free item)⟩, turned⟩
    rw [kept] at still
    cases still
    exact ⟨rewalked, refilled, limit⟩
  · have quiet : turnEvents item run next = [] := by
      rw [turnEvents, if_neg fun located => free item (.inr located)]
      simp [closed]
    rw [quiet]
    exact ⟨waitCounted_free closed, turned⟩
  · have changed : anchored ≠ episode := by
      rintro rfl
      omega
    have event : turnEvents item run next = [.reanchor] := by
      rw [turnEvents, if_neg fun located => free item (.inr located)]
      simp [active, found, changed]
    rw [event]
    refine ⟨⟨fun other still _ => ?_, fun item waits => absurd waits (free item)⟩,
      turned.reanchor (lt_of_le_of_lt rewalked spare)⟩
    rw [found] at still
    cases still
    rw [counts, refillsKept]
    exact ⟨since_cons_le rewalked, (since_cons_quiet rfl).trans refilled, limit⟩
  · rw [turnEvents, if_pos refetches]
    refine ⟨⟨fun other still _ => ?_, fun _ _ other still => ?_⟩,
      turned.refetch (lt_of_le_of_lt refilled spare)⟩
    · rw [found] at still
      cases still
      exact ⟨(since_cons_quiet rfl).trans rewalked, since_cons_le refilled, spare⟩
    · rw [found] at still
      cases still
      exact (since_cons_quiet rfl).trans (since_cons_le turns)

theorem popPending_waits (counted : WaitCounted run log) (bounded : LogBounded log) :
    WaitCounted run.popPending (run.waitEvents .pop ++ log) ∧
      LogBounded (run.waitEvents .pop ++ log) := by
  have kept : ∀ episode, run.popPending.ledger.episode = some episode →
      episode.stalePinned = false → run.ledger.episode = some episode := by
    intro episode found _
    rwa [popPending_ledger] at found
  rw [Run.waitEvents]
  by_cases parks : run.popPending.pc.resolving = true
  · rw [if_pos parks]
    refine ⟨⟨fun episode found popTime => ?_, fun _ _ _ _ => ?_⟩, bounded.append (by simp [RunEvent.uncounted])⟩
    · obtain ⟨rewalks, refills, limit⟩ := counted.episode episode (kept episode found popTime) popTime
      exact ⟨(since_cons_quiet rfl).trans rewalks, (since_cons_quiet rfl).trans refills, limit⟩
    · rw [List.singleton_append, since_cons_reset rfl]
      exact Nat.zero_le _
  · rw [if_neg parks]
    refine ⟨counted.leave kept fun item located => ?_, bounded⟩
    rcases located with located | located
    · rw [located] at parks
      exact parks rfl
    · unfold Run.popPending at located
      split at located
      · cases located
      · split at located
        · cases located
        · simp only at located
          split at located
          · cases located
          · split at located <;> cases located

theorem checkedForDispatch_waits (counted : WaitCounted run log) (bounded : LogBounded log)
    (popped : BlockResult) (queryFails : Bool) :
    WaitCounted (run.checkedForDispatch popped queryFails)
        (run.waitEvents (.check popped queryFails) ++ log) ∧
      LogBounded (run.waitEvents (.check popped queryFails) ++ log) := by
  have free : ∀ item, ¬ Pc.hold.waitsOn item := not_waitsOn_of_resting rfl
  rw [Run.checkedForDispatch, Run.waitEvents]
  by_cases failed : popped.success = false
  · rw [if_pos failed, if_neg (by simp [failed])]
    exact ⟨counted.leave (fun _ found _ => found) free, bounded⟩
  · have fetched : popped.success = true := by simpa using failed
    rw [if_neg failed]
    cases broken : run.continuityBreak popped queryFails with
    | none =>
        rw [if_neg (by simp)]
        exact ⟨counted.leave (fun _ found _ => found) free, bounded⟩
    | some signal =>
        rw [if_pos ⟨fetched, rfl⟩]
        refine ⟨⟨fun episode found _ => ?_, fun item located => absurd located (free item)⟩,
          bounded.append (by simp [RunEvent.uncounted])⟩
        cases found
        rw [List.singleton_append, since_cons_reset rfl, since_cons_reset rfl]
        exact ⟨Nat.le_refl _, Nat.le_refl _, Nat.zero_le _⟩

theorem collectEffect_waits {move : CollectMove} (control : Control run)
    (enabled : collectEnabled run move) (counted : WaitCounted run log) (bounded : LogBounded log) :
    WaitCounted (collectEffect run move) (run.waitEvents move ++ log) ∧
      LogBounded (run.waitEvents move ++ log) := by
  have rests : ∀ {after : Run}, after.ledger.episode = run.ledger.episode →
      after.pc.resting = true → WaitCounted after log ∧ LogBounded log := by
    intro after same resting
    refine ⟨counted.leave (fun episode found _ => ?_) (not_waitsOn_of_resting resting), bounded⟩
    rwa [same] at found
  cases move with
  | pop => exact popPending_waits counted bounded
  | check popped queryFails => exact checkedForDispatch_waits counted bounded popped queryFails
  | resolve item =>
      have posture := control.posture.waiting (.inl enabled)
      obtain ⟨episode, active⟩ := Option.isSome_iff_exists.mp posture.2.2.2.1
      have popTime := (posture.2.2.2.2 episode active).1
      have turn := resolveEpisodeItem_waits counted bounded enabled active popTime rfl
      rwa [Run.waitEvents, List.append_assoc]
  | refetched item reply =>
      simp only [collectEffect, Run.refetched]
      split
      · refine ⟨⟨counted.episode, fun _ _ episode found => ?_⟩, bounded⟩
        exact counted.turns item (.inr enabled) episode found
      · split
        · exact rests rfl rfl
        · exact ⟨waitCounted_free rfl, bounded⟩
  | hold =>
      simp only [collectEffect, Run.abandonHeld]
      split
      · rw [Run.dropHeld_eq]
        exact rests rfl rfl
      · exact rests rfl rfl
  | recvCompletion completion =>
      have received : WaitCounted (run.receive completion) log :=
        ⟨counted.episode, counted.turns⟩
      exact ⟨applyFromSelect_waits received _, bounded⟩
  | done =>
      simp only [collectEffect, Run.dropHeld_eq]
      exact rests rfl run.afterSelect_resting
  | drainRecv fin completion =>
      have applied := applyBatch_applied run.check.nextToCommit fin.confirmed.isNone
        (run.batchOf completion) run.ledger
      refine ⟨counted.leave (fun _ found popTime => applied.popTime_kept found popTime) ?_, bounded⟩
      rintro item (located | located) <;>
      · rcases enabled.1 with drains | drains <;>
        · rw [show run.pc = _ from located] at drains
          cases drains
  | drained fin => exact ⟨drained_waits counted fin, bounded⟩
  | walk fin episode oracle => exact ⟨finalizeEpisode_waits fin episode oracle, bounded⟩
  | drainSettled fin =>
      refine ⟨counted.leave (fun _ found _ => found) ?_, bounded⟩
      rintro item (located | located) <;> cases located
  | recvResult result => exact rests rfl run.afterSelect_resting
  | send item => exact rests rfl run.afterSelect_resting
  | recvResultsClosed =>
      exact rests rfl (Run.afterSelect_resting { run with sawResultsClosed := true })
  | recvCompletionsClosed =>
      exact rests rfl (Run.afterSelect_resting { run with sawCompletionsClosed := true })

/-! ### Whole executions -/

/-- What is known about the log in each stage of a call. -/
def StageLimits (stage : Stage) (log : List RunEvent) : Prop :=
  match stage with
  | .seeding _ _ guards _ => Guarded guards.episodeRollbacks guards.heightRollbacks log
  | .running run => Control run ∧
      Guarded run.ledger.episodeRollbacks run.ledger.heightRollbacks log ∧ WaitCounted run log
  | .rollingBack run point =>
      Guarded run.ledger.episodeRollbacks run.ledger.heightRollbacks log ∧
        (run.ledger.countRollback (point.forkPoint + 1)).refusal (point.forkPoint + 1) = none
  | .stopped _ _ => True

structure Limits (state : Processor × List RunEvent) : Prop where
  bounded : LogBounded state.2
  stage : StageLimits state.1.stage state.2

theorem isCommit_of_commitEvents {event : RunEvent} (member : event ∈ commitEvents run next) :
    event.isCommit = true := by
  obtain ⟨completion, _, rfl⟩ := List.mem_map.mp member
  rfl

theorem Guarded.commits (guarded : Guarded run.ledger.episodeRollbacks run.ledger.heightRollbacks log)
    (kept : GuardsKept run.ledger next.ledger) :
    Guarded next.ledger.episodeRollbacks next.ledger.heightRollbacks
      (commitEvents run next ++ log) := by
  obtain ⟨fired, committed, same⟩ := kept.fired
  have events : commitEvents run next =
      fired.reverse.map fun completion => .commit completion.item.blockNum := by
    rw [commitEvents, committed, List.drop_left]
  rw [events]
  cases last : fired.reverse with
  | nil =>
      obtain ⟨episodes, heights⟩ := same (List.reverse_eq_nil_iff.mp last)
      rw [episodes, heights]
      exact guarded
  | cons completion rest =>
      constructor
      · rw [List.map_cons, List.cons_append, since_cons_reset rfl]
        exact Nat.zero_le _
      · intro restart
        rw [List.map_cons, List.cons_append, since_cons_reset rfl]
        exact Nat.zero_le _

theorem rollback_not_mem_turnEvents (item : BlockResult) (before after : Run) (restart : Int) :
    RunEvent.rollback restart ∉ turnEvents item before after := by
  unfold turnEvents
  split
  · simp
  · split
    · split <;> simp
    · exact List.not_mem_nil

theorem waitEvents_unguarded {move : CollectMove} {event : RunEvent}
    (member : event ∈ run.waitEvents move) :
    event.isRollback = false ∧ ∀ restart, event.isRollbackAt restart = false := by
  cases event with
  | rollback restart =>
      cases move with
      | pop =>
          rw [Run.waitEvents] at member
          split at member <;> simp at member
      | check popped queryFails =>
          rw [Run.waitEvents] at member
          split at member <;> simp at member
      | resolve item =>
          rw [Run.waitEvents] at member
          simp [rollback_not_mem_turnEvents] at member
      | _ => cases member
  | _ => exact ⟨rfl, fun _ => rfl⟩

theorem Guarded.append {episodeRollbacks : Nat} {heightRollbacks : HeightMap Nat}
    {events : List RunEvent} (guarded : Guarded episodeRollbacks heightRollbacks log)
    (quiet : ∀ event ∈ events, event.isRollback = false ∧
      ∀ restart, event.isRollbackAt restart = false) :
    Guarded episodeRollbacks heightRollbacks (events ++ log) :=
  ⟨(since_append_le fun event member => (quiet event member).1).trans guarded.total,
    fun restart => (since_append_le fun event member => (quiet event member).2 restart).trans
      (guarded.height restart)⟩

/-- A rollback that is not refused stays within the limits, and is counted. -/
theorem Guarded.rollback {ledger : Ledger} {restart : Int}
    (guarded : Guarded ledger.episodeRollbacks ledger.heightRollbacks log)
    (bounded : LogBounded log)
    (granted : (ledger.countRollback restart).refusal restart = none) :
    Guarded (ledger.countRollback restart).episodeRollbacks
        (ledger.countRollback restart).heightRollbacks (.rollback restart :: log) ∧
      LogBounded (.rollback restart :: log) := by
  have limits : ledger.episodeRollbacks + 1 ≤ maxRollbacksPerRun ∧
      (ledger.heightRollbacks.lookup restart).getD 0 + 1 ≤ maxRollbacksPerHeight := by
    simp only [RollbackGuards.refusal, Ledger.countRollback, AList.lookup_insert,
      Option.getD_some] at granted
    split at granted
    · cases granted
    · split at granted
      · cases granted
      · omega
  have other : ∀ {height : Int}, height ≠ restart →
      (RunEvent.rollback restart).isRollbackAt height = false := by
    intro height apart
    simp [RunEvent.isRollbackAt, apart.symm]
  have total : since RunEvent.isRollback RunEvent.isCommit (.rollback restart :: log) ≤
      ledger.episodeRollbacks + 1 := since_cons_le guarded.total
  have same : since (RunEvent.isRollbackAt restart) RunEvent.isCommit (.rollback restart :: log) ≤
      (ledger.heightRollbacks.lookup restart).getD 0 + 1 := since_cons_le (guarded.height restart)
  refine ⟨⟨total, fun height => ?_⟩, bounded.reanchors.cons_quiet rfl,
    bounded.refetches.cons_quiet rfl, bounded.turns.cons_quiet rfl,
    bounded.rollbacks.cons (total.trans limits.1), fun height => ?_⟩
  · by_cases equal : height = restart
    · subst equal
      rw [Ledger.countRollback, AList.lookup_insert]
      exact same
    · rw [Ledger.countRollback, AList.lookup_insert_ne equal]
      exact (since_cons_quiet (other equal)).trans (guarded.height height)
  · by_cases equal : height = restart
    · subst equal
      exact (bounded.heights height).cons (same.trans limits.2)
    · exact (bounded.heights height).cons_quiet (other equal)

theorem limits_start (workers : Nat) (startBlock : Int) (known : Option Int)
    (committedHashes : HeightMap String) (db : DB) :
    Limits (Processor.call workers startBlock known committedHashes db, []) :=
  ⟨⟨atMost_nil, atMost_nil, atMost_nil, atMost_nil, fun _ => atMost_nil⟩,
    Nat.zero_le _, fun _ => Nat.zero_le _⟩

/-- A move inside a run. -/
theorem run_limits {move : Move} (enabled : processBlocksOnce.enabled run move)
    (bounded : LogBounded log) (limits : StageLimits (.running run) log) :
    LogBounded (run.events move ++ log) ∧
      StageLimits (.running (processBlocksOnce.effect run move)) (run.events move ++ log) := by
  obtain ⟨control, guarded, counted⟩ := limits
  have able : (restricted fun _ _ => True).enabled run move := ⟨enabled, trivial⟩
  have stays : Control (processBlocksOnce.effect run move) := Control.step run move control able
  cases move with
  | collect move =>
      have committing : WaitCounted run (commitEvents run (collectEffect run move) ++ log) :=
        counted.append fun _ member => isCommit_of_commitEvents member
      have loud : LogBounded (commitEvents run (collectEffect run move) ++ log) := by
        refine bounded.append fun event member => ?_
        have commit := isCommit_of_commitEvents member
        cases event with
        | commit height => rfl
        | _ => cases commit
      obtain ⟨waits, logged⟩ := collectEffect_waits control enabled committing loud
      rw [Run.events, List.append_assoc]
      exact ⟨logged, stays, (guarded.commits (collectEffect_guards run move)).append
        fun _ member => waitEvents_unguarded member, waits⟩
  | cancel | dispatch | pool | closeCompletions | finish =>
      exact ⟨bounded, stays, guarded, counted.episode, counted.turns⟩

theorem limits_step (state : Processor × List RunEvent) (move : ProcessMove)
    (limits : Limits state) (enabled : loggedBlocks.enabled state move) :
    Limits (loggedBlocks.effect state move) := by
  obtain ⟨processor, log⟩ := state
  obtain ⟨bounded, stage⟩ := limits
  simp only at bounded stage
  change processEnabled processor move at enabled
  change Limits (processEffect processor move, processor.events move ++ log)
  unfold processEnabled at enabled
  unfold processEffect Processor.events
  cases move with
  | seed queryFails =>
      cases located : processor.stage with
      | seeding startBlock committedHashes guards db =>
          rw [located] at stage
          simp only [List.nil_append]
          refine ⟨bounded, ?_⟩
          cases resolveSeed startBlock committedHashes
              (queryStoredHash queryFails db (startBlock - 1)) with
          | error error => exact trivial
          | ok seedHash => exact ⟨control_start _ _ _ _, stage, waitCounted_free rfl⟩
      | running | rollingBack | stopped => simp [located] at enabled
  | step move =>
      cases located : processor.stage with
      | running run =>
          rw [located] at stage enabled
          exact ⟨(run_limits enabled bounded stage).1, (run_limits enabled bounded stage).2⟩
      | seeding | rollingBack | stopped => simp [located] at enabled
  | returned =>
      cases located : processor.stage with
      | running run =>
          rw [located] at stage
          obtain ⟨_, guarded, _⟩ := stage
          simp only [List.nil_append]
          refine ⟨bounded, ?_⟩
          simp only [afterRun]
          split
          · exact trivial
          · exact trivial
          · split
            · exact trivial
            · rename_i granted
              exact ⟨guarded, granted⟩
      | seeding | rollingBack | stopped => simp [located] at enabled
  | rollback budget aborted =>
      cases located : processor.stage with
      | rollingBack run point =>
          rw [located] at stage
          obtain ⟨counted, logged⟩ := stage.1.rollback bounded stage.2
          simp only [List.singleton_append]
          refine ⟨logged, ?_⟩
          simp only [afterRollback]
          split
          · exact trivial
          · split
            · exact trivial
            · exact counted
      | seeding | running | stopped => simp [located] at enabled

/-- In every execution of a call: between two openings of a confirmation wait there are at
most so many re-anchors and re-fetches, one popped item takes a bounded number of turns,
between two commits at most so many rollbacks happen, in all and for one height, and while
the collector waits on an item its next turn or the answer to its re-fetch is possible. -/
theorem call_limits {workers : Nat} {startBlock : Int} {known : Option Int}
    {committedHashes : HeightMap String} {db : DB} {processor : Processor} {log : List RunEvent}
    (path : loggedBlocks.Path (Processor.call workers startBlock known committedHashes db, [])
      (processor, log)) :
    AtMost maxRewalksPerEpisode RunEvent.isReanchor RunEvent.opensWait log ∧
    AtMost maxGapRefillsPerWait RunEvent.isRefetch RunEvent.opensWait log ∧
    AtMost (maxGapRefillsPerWait + 1) RunEvent.isTurn RunEvent.parks log ∧
    AtMost maxRollbacksPerRun RunEvent.isRollback RunEvent.isCommit log ∧
    (∀ restart, AtMost maxRollbacksPerHeight (RunEvent.isRollbackAt restart) RunEvent.isCommit
      log) ∧
    ∀ run item, processor.stage = .running run →
      (run.pc = .resolve item → processBlocks.enabled processor (.step (.collect (.resolve item)))) ∧
      (run.pc = .refetch item → ∀ reply,
        processBlocks.enabled processor (.step (.collect (.refetched item reply)))) := by
  have limits : Limits (processor, log) := path.invariant
    (limits_start workers startBlock known committedHashes db) limits_step
  obtain ⟨reanchors, refetches, turns, rollbacks, heights⟩ := limits.bounded
  refine ⟨reanchors, refetches, turns, rollbacks, heights, fun run item located => ?_⟩
  have enabled : ∀ move, processBlocks.enabled processor (.step move) ↔
      processBlocksOnce.enabled run move := by
    intro move
    simp only [processBlocks, processEnabled, located]
  exact ⟨fun waits => (enabled _).mpr waits, fun waits reply => (enabled _).mpr waits⟩

instance (state : Processor × List RunEvent) (move : ProcessMove) :
    Decidable (loggedBlocks.enabled state move) :=
  inferInstanceAs (Decidable (processBlocks.enabled state.1 move))

theorem fork_call_limits :
    ∃ processor log,
      loggedBlocks.Path (Processor.call 2 5 none ∅ forkedStore, []) (processor, log) ∧
        log = [.rollback 4, .turn, .parked, .waits] ∧
        AtMost maxRollbacksPerRun RunEvent.isRollback RunEvent.isCommit log := by
  have executed : (loggedBlocks.run? (forkCall ++ [.rollback 100 false])
      (Processor.call 2 5 none ∅ forkedStore, [])).any
      (fun state => state.2 = [.rollback 4, .turn, .parked, .waits]) = true := by decide +kernel
  obtain ⟨⟨processor, log⟩, path, facts⟩ := GuardedSystem.exists_path_of_run? executed
  exact ⟨processor, log, path, of_decide_eq_true facts, (call_limits path).2.2.2.1⟩

end ShinzoGenerator.Indexer
