import ShinzoGenerator.Indexer.RunRollbackPoint

/-! Stale heights. A pool store that failed over a stored orphan reports its
height as stale, and the rollback is to reach that height. It reaches exactly the
stale heights that the walk-back passes on its way down from the anchor. -/

set_option autoImplicit false

namespace ShinzoGenerator.Indexer

open Chains Defra

variable {allowed : CollectMove → Prop} {run next : Run}

/-- The rollback point covers every stale height the collector consumed. -/
def CoversStale (run : Run) (point : RollbackPoint) : Prop :=
  ∀ completion ∈ run.trace.received, completion.stale.isSome = true →
    point.forkPoint < completion.item.blockNum ∧ completion.item.blockNum ∈ point.chainHashes

/-- The anchor is at or above every consumed stale height, and from the anchor
down to it the store neither agrees with the node's chain nor ends at the
verification boundary. -/
def PassesStale (run : Run) (episode : ReorgEpisode) (oracle : WalkOracle) : Prop :=
  ∀ completion ∈ run.trace.received, completion.stale.isSome = true →
    DescentPasses (run.walkView oracle) episode.anchor completion.item.blockNum

instance (run : Run) (episode : ReorgEpisode) (oracle : WalkOracle) :
    Decidable (PassesStale run episode oracle) :=
  inferInstanceAs (Decidable (∀ completion ∈ run.trace.received, _))

/-- The moves of a run whose walk-backs pass every consumed stale height. -/
def StalePassing (run : Run) : Move → Prop
  | .collect (.walk _ episode oracle) => PassesStale run episode oracle
  | _ => True

instance (run : Run) (move : Move) : Decidable (StalePassing run move) := by
  unfold StalePassing
  split
  · infer_instance
  · infer_instance

/-- Above the anchor the map only holds the parked heights, where nothing was handed over. -/
theorem Known.mem_confirmedHashes (known : Known run)
    (episodes : EpisodesOk (fun _ _ => True) run) {fin : Finalization} {episode : ReorgEpisode}
    (located : run.pc = .walk fin) (active : run.ledger.episode = some episode)
    {item : BlockResult} (handed : item ∈ run.trace.handed) (hashes : HeightMap String) :
    item.blockNum ∈ confirmedHashes episode fin.confirmed hashes ↔ item.blockNum ∈ hashes := by
  obtain ⟨_, _, other, same, finalizing⟩ :=
    known.control.posture.finalizing (.inr (.inr located))
  rw [active, Option.some.injEq] at same
  subst same
  cases confirmed : fin.confirmed with
  | none => rfl
  | some successor =>
      obtain ⟨_, number, base, _⟩ := finalizing.popTime successor confirmed
      have popTime := finalizing.stalePinned_of_confirmed confirmed
      have below := (episodes episode active).above popTime item (List.mem_append_left _ handed)
      simp only [confirmedHashes, AList.mem_insert]
      constructor
      · rintro (top | parked | walked)
        · omega
        · omega
        · exact walked
      · exact fun walked => .inr (.inr walked)

/-- A walk-back that succeeds covers the consumed stale heights exactly if it passes them. -/
theorem Known.coversStale_iff (known : Known run) (episodes : EpisodesOk (fun _ _ => True) run)
    {fin : Finalization} {episode : ReorgEpisode} {oracle : WalkOracle} {forkPoint : Int}
    {hashes : HeightMap String} (located : run.pc = .walk fin)
    (active : run.ledger.episode = some episode)
    (walked : resolveForkPoint (run.walkView oracle) episode.anchor.1 episode.anchor.2 =
      .ok (forkPoint, hashes)) :
    CoversStale run { forkPoint, chainHashes := confirmedHashes episode fin.confirmed hashes } ↔
      PassesStale run episode oracle := by
  obtain ⟨_, _, trail, _⟩ := resolveForkPoint_trail walked
  refine forall₃_congr fun completion consumed _ => ?_
  have handed := known.conserved.handed_of_received consumed
  have passes := descentPasses_iff walked completion.item.blockNum
  simp only
  rw [passes, known.mem_confirmedHashes episodes located active handed, trail.keys]
  omega

/-- Every rollback point of the run covers the consumed stale heights. -/
def StaleCovered (run : Run) : Prop :=
  ∀ point, run.ledger.rollbackPoint = some point → CoversStale run point

theorem StaleCovered.step (run : Run) (move : Move)
    (known : Known run ∧ EpisodesOk (fun _ _ => True) run) (covered : StaleCovered run)
    (enabled : (restricted StalePassing).enabled run move) :
    StaleCovered ((restricted StalePassing).effect run move) := by
  obtain ⟨known, episodes⟩ := known
  cases move with
  | cancel | dispatch | pool | closeCompletions => exact covered
  | collect move =>
      have step := restricted_collect enabled
      intro point recorded
      rcases step.rollbackPoint with ⟨same, _⟩ |
        ⟨fin, episode, oracle, forkPoint, hashes, passes, located, active, walked, written, _, _,
          received⟩
      · rw [same] at recorded
        unfold CoversStale
        rw [step.received_of_resolved known.settling (by simp [recorded])]
        exact covered point recorded
      · rw [written, Option.some.injEq] at recorded
        unfold CoversStale
        rw [← recorded, received]
        exact (known.coversStale_iff episodes located active walked).mpr passes
  | finish =>
      intro point recorded
      change Option.map _ _ = some point at recorded
      obtain ⟨before, found, rfl⟩ := Option.map_eq_some_iff.mp recorded
      exact covered before found

theorem anyAnswers (allowed : Run → Move → Prop) : Answers (Chained fun _ _ => True) allowed :=
  ⟨fun _ _ _ _ _ _ => trivial, fun _ _ _ _ _ _ => trivial⟩

/-- If every walk-back of a run passes the stale heights consumed before it, the
rollback points of the run cover them. A walk-back that does not pass them all
records a rollback point that misses one. -/
theorem stale_heights_covered (setup : Setup) (db : DB) :
    (∀ run, RunUnder StalePassing setup db run →
      ∀ point, run.ledger.rollbackPoint = some point → CoversStale run point) ∧
    ∀ run, RunOf setup db run → ∀ fin episode oracle forkPoint hashes,
      run.pc = .walk fin → run.ledger.episode = some episode →
      resolveForkPoint (run.walkView oracle) episode.anchor.1 episode.anchor.2 =
        .ok (forkPoint, hashes) →
      (CoversStale run { forkPoint, chainHashes := confirmedHashes episode fin.confirmed hashes } ↔
        StalePassing run (.collect (.walk fin episode oracle))) := by
  constructor
  · intro run reached
    exact reached.invariant_under
      (fun _ reached => ⟨reached.known, reached.episodes (anyAnswers _)⟩)
      (by rintro _ _ _ ⟨⟩) StaleCovered.step
  · intro run reached fin episode oracle forkPoint hashes located active walked
    exact reached.known.coversStale_iff (reached.episodes (anyAnswers _)) located active walked

/-- Blocks 5 and 7 of an abandoned fork above the common block 4. -/
def scatteredOrphans : DB :=
  { visible := [⟨.block, blockFields 4 "0xa4" "0xa3"⟩, ⟨.block, blockFields 5 "0xb5" "0xa4"⟩,
      ⟨.block, blockFields 7 "0xb7" "0xb6"⟩]
    deleted := []
    nodup := by decide
    separate := by decide }

def scatteredSetup : Setup :=
  { runStartBlock := 5, seedHash := "0xa4", configuredStart := 5, workers := 2 }

/-- The completion of a store that failed while the orphan stood at its height. -/
def failedStore (item : BlockResult) : StoreCompletion :=
  runStoreTask scatteredOrphans item (.error (.other "batch timed out")) false

/-- A worker's store fails and its completion waits for the collector. -/
def failMoves (item : BlockResult) : List Move :=
  [.pool (.take item), .pool (.finishStore item (.error (.other "batch timed out")) false),
    .pool (.report (failedStore item)), .pool .release]

def scatteredParents (hash : String) : String :=
  if hash = "0xa7" then "0xa6" else if hash = "0xa6" then "0xa5" else "0xa4"

def scatteredNode : WalkOracle := ⟨fun _ hash => .ok (scatteredParents hash), true, fun _ => false⟩

/-- Block 5 fails over its orphan and is consumed. -/
def staleOpeningMoves : List Move :=
  fetchMoves 5 (.ok (bareBlock 5 "0xa5" "0xa4")) ++
    handMoves (served 5 (bareBlock 5 "0xa5" "0xa4")) ++
    failMoves (served 5 (bareBlock 5 "0xa5" "0xa4"))

theorem stale_heights_covered_alone :
    ∃ run point, RunUnder StalePassing scatteredSetup scatteredOrphans run ∧
      run.ledger.rollbackPoint = some point ∧ run.trace.received.map (·.stale.isSome) = [true] ∧
      CoversStale run point := by
  obtain ⟨run, reached, facts⟩ := runUnder_of_tested_execution StalePassing scatteredSetup
    scatteredOrphans
    (staleOpeningMoves ++
      [.collect .pop, .collect .hold,
        .collect (.recvCompletion (failedStore (served 5 (bareBlock 5 "0xa5" "0xa4")))),
        .collect (.drainSettled {}), .collect (.drained {}),
        .collect (.walk {} (staleEpisode (served 5 (bareBlock 5 "0xa5" "0xa4"))) scatteredNode)])
    (fun run => run.ledger.rollbackPoint.isSome && run.trace.received.map (·.stale.isSome) == [true])
    (by decide +kernel)
  simp only [Bool.and_eq_true, beq_iff_eq] at facts
  obtain ⟨point, recorded⟩ := Option.isSome_iff_exists.mp facts.1
  exact ⟨run, point, reached, recorded, facts.2,
    (stale_heights_covered _ _).1 run reached point recorded⟩

/-- Block 6 lands and block 7 fails over its orphan before the collector looks. -/
def scatteredMoves : List Move :=
  fetchMoves 5 (.ok (bareBlock 5 "0xa5" "0xa4")) ++
    handMoves (served 5 (bareBlock 5 "0xa5" "0xa4")) ++
    fetchMoves 6 (.ok (bareBlock 6 "0xa6" "0xa5")) ++
    handMoves (served 6 (bareBlock 6 "0xa6" "0xa5")) ++
    fetchMoves 7 (.ok (bareBlock 7 "0xa7" "0xa6")) ++
    handMoves (served 7 (bareBlock 7 "0xa7" "0xa6")) ++
    failMoves (served 5 (bareBlock 5 "0xa5" "0xa4")) ++
    [.pool (.take (served 6 (bareBlock 6 "0xa6" "0xa5"))),
      .pool (.commitBlock (served 6 (bareBlock 6 "0xa6" "0xa5"))
        ⟨.block, blockFields 6 "0xa6" "0xa5"⟩),
      .pool (.finishStore (served 6 (bareBlock 6 "0xa6" "0xa5")) (.ok "") false),
      .pool (.report (stored (served 6 (bareBlock 6 "0xa6" "0xa5")))), .pool .release] ++
    failMoves (served 7 (bareBlock 7 "0xa7" "0xa6")) ++
    [.collect .pop, .collect .hold,
      .collect (.recvCompletion (failedStore (served 5 (bareBlock 5 "0xa5" "0xa4")))),
      .collect (.drainRecv {} (stored (served 6 (bareBlock 6 "0xa6" "0xa5")))),
      .collect (.drainRecv {} (failedStore (served 7 (bareBlock 7 "0xa7" "0xa6")))),
      .collect (.drainSettled {}), .collect (.drained {}),
      .collect (.walk {} ((staleEpisode (served 5 (bareBlock 5 "0xa5" "0xa4"))).raise
        (served 7 (bareBlock 7 "0xa7" "0xa6"))) scatteredNode), .collect .pop] ++
    shutdownMoves

/-- The walk-back descends from 7 and stops at 6, where the store agrees with the
chain, so the rollback leaves the orphan at 5. -/
theorem stale_height_left_behind :
    ∃ run point, RunOf scatteredSetup scatteredOrphans run ∧
      run.dispatcher.phase = .ended ∧ run.ledger.rollbackPoint = some point ∧
      point.forkPoint = 6 ∧ ¬ CoversStale run point := by
  obtain ⟨run, reached, facts⟩ := runOf_of_execution scatteredSetup scatteredOrphans scatteredMoves
    (fun run => run.dispatcher.phase = .ended &&
      run.ledger.rollbackPoint.any (fun point => point.forkPoint = 6) &&
      decide (failedStore (served 5 (bareBlock 5 "0xa5" "0xa4")) ∈ run.trace.received))
    (by decide +kernel)
  simp only [Bool.and_eq_true, decide_eq_true_eq] at facts
  obtain ⟨⟨ended, resolved⟩, consumed⟩ := facts
  cases recorded : run.ledger.rollbackPoint with
  | none => simp [recorded] at resolved
  | some point =>
      have fork : point.forkPoint = 6 := by simpa [recorded] using resolved
      refine ⟨run, point, reached, ended, recorded, fork, fun covers => ?_⟩
      have above : point.forkPoint < 5 := (covers _ consumed (by decide)).1
      omega

end ShinzoGenerator.Indexer
