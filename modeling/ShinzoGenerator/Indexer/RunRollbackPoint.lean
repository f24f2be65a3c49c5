import ShinzoGenerator.Indexer.RunEpisodes

/-! The rollback point of a run: a contiguous segment of the new chain from the
fork point up. -/

set_option autoImplicit false

namespace ShinzoGenerator.Indexer

open Chains Defra

variable {allowed : CollectMove → Prop} {run next : Run} {links : String → String → Prop}

/-! ### Chain segments -/

/-- The map holds one chain from `low` to `top`. -/
structure Segment (links : String → String → Prop) (low top : Int) (topHash : String)
    (hashes : HeightMap String) : Prop where
  ordered : low ≤ top
  keys : ∀ height, height ∈ hashes ↔ low ≤ height ∧ height ≤ top
  atTop : hashes.lookup top = some topHash
  usable : ∀ height hash, hashes.lookup height = some hash → hash ≠ ""
  linked : ∀ height, low < height → height ≤ top → ∃ hash parentHash,
    hashes.lookup height = some hash ∧ hashes.lookup (height - 1) = some parentHash ∧
      links hash parentHash

theorem Segment.extend {low top : Int} {topHash hash : String} {hashes : HeightMap String}
    (segment : Segment links low top topHash hashes) (usable : hash ≠ "")
    (child : links hash topHash) :
    Segment links low (top + 1) hash (hashes.insert (top + 1) hash) := by
  have ordered := segment.ordered
  have old : ∀ height, height ≤ top →
      (hashes.insert (top + 1) hash).lookup height = hashes.lookup height :=
    fun height below => AList.lookup_insert_ne (by omega)
  have new : (hashes.insert (top + 1) hash).lookup (top + 1) = some hash :=
    AList.lookup_insert _
  constructor
  case ordered => omega
  case keys =>
    intro height
    rw [AList.mem_insert, segment.keys]
    omega
  case atTop => exact new
  case usable =>
    intro height other found
    by_cases same : height = top + 1
    · rw [same, new, Option.some.injEq] at found
      exact found ▸ usable
    · rw [AList.lookup_insert_ne same] at found
      exact segment.usable height other found
  case linked =>
    intro height above below
    by_cases same : height = top + 1
    · refine ⟨hash, topHash, by rw [same, new], ?_, child⟩
      rw [same, Int.add_sub_cancel, old top (Int.le_refl _), segment.atTop]
    · rw [old height (by omega), old (height - 1) (by omega)]
      exact segment.linked height above (by omega)

/-- A walk-back over consistent headers visits a chain segment. -/
theorem Trail.segment {view : WalkView} {anchor low : Int} {anchorHash lowHash : String}
    {hashes : HeightMap String} (trail : Trail view anchor anchorHash low lowHash hashes)
    (headers : ∀ depth hash parentHash, view.header depth hash = .ok parentHash →
      links hash parentHash) :
    Segment links low anchor anchorHash hashes := by
  refine ⟨trail.ordered, trail.keys, trail.atAnchor, trail.usable, ?_⟩
  intro height above below
  obtain ⟨hash, parentHash, depth, found, parent, looked⟩ := trail.linked height above below
  exact ⟨hash, parentHash, found, parent, headers depth hash parentHash looked⟩

/-! ### Resolution -/

/-- What a recorded rollback point says about the chain and the store. -/
structure Resolution (links : String → String → Prop) (run : Run) (point : RollbackPoint)
    (episode : ReorgEpisode) : Prop where
  segment : ∃ top topHash, Segment links point.forkPoint top topHash point.chainHashes ∧
    episode.anchor.1 ≤ top ∧ top ≤ run.dispatcher.dispatchedUpTo
  anchored : point.forkPoint ≤ episode.anchor.1
  walked : ∀ height, point.forkPoint < height → height ≤ episode.anchor.1 → ∃ stored,
    getStoredBlockHash run.db height = .ok stored ∧
      point.chainHashes.lookup height ≠ some stored ∧
      (stored = "" → run.setup.configuredStart ≤ height)
  below : episode.stalePinned = false → ∀ item ∈ run.trace.handed,
    item.blockNum ≤ episode.anchor.1
  started : episode.stalePinned = false → run.setup.runStartBlock ≤ episode.anchor.1 + 1
  pinned : episode.stalePinned = true →
    ∃ completion ∈ run.trace.received, completion.stale.isSome = true
  stops : (∃ hash, hash ≠ "" ∧ getStoredBlockHash run.db point.forkPoint = .ok hash) ∨
    point.forkPoint < run.setup.configuredStart

/-- Every rollback point of the run comes from a walk-back. -/
def Resolved (links : String → String → Prop) (run : Run) : Prop :=
  ∀ point, run.ledger.rollbackPoint = some point →
    ∃ episode, run.trace.resolved = some episode ∧ Resolution links run point episode

theorem queryStoredHash_ok {fails : Bool} {db : DB} {height : Int} {stored : String}
    (answered : queryStoredHash fails db height = .ok stored) :
    getStoredBlockHash db height = .ok stored := by
  unfold queryStoredHash at answered
  split at answered
  · cases answered
  · exact answered

/-- The segment of a pop-time episode: the walked heights, the parked mismatch and its successor. -/
theorem confirmed_segment {episode : ReorgEpisode} {successor : BlockResult} {low : Int}
    {hashes : HeightMap String} (ok : EpisodeOk links run episode)
    (popTime : episode.stalePinned = false) (usable : successor.usable = true)
    (adjacent : successor.blockNum = episode.baseHeight + 1)
    (chained : successor.parentHash = episode.lastParkedHash)
    (served : Chained links successor)
    (walked : Segment links low (episode.baseHeight - 1) episode.baseParentHash hashes) :
    Segment links low successor.blockNum successor.hash
      (confirmedHashes episode (some successor) hashes) := by
  simp only [BlockResult.usable, Bool.and_eq_true, bne_iff_ne, ne_eq] at usable
  have parked : episode.lastParkedHash ≠ "" := chained ▸ usable.2
  have base := walked.extend parked (ok.chained popTime parked)
  rw [Int.sub_add_cancel] at base
  have top := base.extend usable.1.2 (chained ▸ served usable.1.2 usable.2)
  rw [← adjacent] at top
  exact top

theorem Concluded.resolution {fin : Finalization} {episode : ReorgEpisode} {oracle : WalkOracle}
    {forkPoint : Int} {hashes : HeightMap String} (known : Known run)
    (ok : EpisodesOk links run) (items : ItemsSatisfy (Chained links) run)
    (located : run.pc = .walk fin) (active : run.ledger.episode = some episode)
    (headers : ∀ depth hash parentHash, oracle.header depth hash = .ok parentHash →
      links hash parentHash)
    (walked : resolveForkPoint (run.walkView oracle) episode.anchor.1 episode.anchor.2 =
      .ok (forkPoint, hashes)) :
    Resolution links run
      { forkPoint, chainHashes := confirmedHashes episode fin.confirmed hashes } episode := by
  obtain ⟨_, forkHash, trail, stops⟩ := resolveForkPoint_trail walked
  have segment : Segment links forkPoint episode.anchor.1 episode.anchor.2 hashes :=
    trail.segment headers
  obtain ⟨_, _, other, same, finalizing⟩ :=
    known.control.posture.finalizing (.inr (.inr located))
  rw [active, Option.some.injEq] at same
  subst same
  have episodeOk := ok episode active
  -- the parked heights join above the anchor, so the walked ones keep their hashes
  have walkedSame : ∀ height, height ≤ episode.anchor.1 →
      (confirmedHashes episode fin.confirmed hashes).lookup height = hashes.lookup height := by
    intro height below
    cases confirmed : fin.confirmed with
    | none => rfl
    | some successor =>
        obtain ⟨_, number, base, _⟩ := finalizing.popTime successor confirmed
        have popTime := finalizing.stalePinned_of_confirmed confirmed
        simp only [ReorgEpisode.anchor, popTime, Bool.false_eq_true, if_false] at below
        rw [confirmedHashes, AList.lookup_insert_ne (by omega), AList.lookup_insert_ne (by omega)]
  constructor
  case segment =>
    cases confirmed : fin.confirmed with
    | none =>
        have stalePinned : episode.stalePinned = true := by simp [finalizing.kind, confirmed]
        obtain ⟨completion, received, _, height, _⟩ := episodeOk.anchored stalePinned
        have handed := known.conserved.handed_of_received received
        have dispatched := known.handoff.bounds _ (List.mem_append_left _ handed)
        have cursor := known.handoff.cursor
        have popped := known.bounded.popped
        refine ⟨_, _, segment, Int.le_refl _, ?_⟩
        simp only [ReorgEpisode.anchor, stalePinned, if_true]
        omega
    | some successor =>
        obtain ⟨_, number, base, usable, chained⟩ := finalizing.popTime successor confirmed
        have popTime := finalizing.stalePinned_of_confirmed confirmed
        have served : Chained links successor :=
          items.position successor (by simp [located, Pc.items, confirmed])
        simp only [ReorgEpisode.anchor, popTime, Bool.false_eq_true, if_false] at segment ⊢
        have popped := known.bounded.popped
        exact ⟨_, _, confirmed_segment episodeOk popTime usable (by omega) chained served segment,
          by omega, by omega⟩
  case anchored => exact trail.ordered
  case walked =>
    intro height above below
    obtain ⟨hash, found⟩ := Option.isSome_iff_exists.mp
      (AList.lookup_isSome.mpr ((trail.keys height).mpr ⟨Int.le_of_lt above, below⟩))
    obtain ⟨stored, answered, differs, inside⟩ := trail.disagrees height hash above found
    refine ⟨stored, queryStoredHash_ok answered, ?_, inside⟩
    simp only
    rw [walkedSame height below, found]
    simpa using Ne.symm differs
  case below =>
    intro popTime item member
    have := episodeOk.above popTime item (List.mem_append_left _ member)
    simp only [ReorgEpisode.anchor, popTime, Bool.false_eq_true, if_false]
    omega
  case started =>
    intro popTime
    have := episodeOk.started popTime
    simp only [ReorgEpisode.anchor, popTime, Bool.false_eq_true, if_false]
    omega
  case pinned =>
    intro stalePinned
    obtain ⟨completion, received, stale, _⟩ := episodeOk.anchored stalePinned
    exact ⟨completion, received, stale⟩
  case stops =>
    rcases stops with agrees | boundary
    · exact .inl ⟨forkHash, trail.usable _ _ trail.atLow, queryStoredHash_ok agrees⟩
    · exact .inr boundary.2

theorem CollectStep.db_eq (step : CollectStep allowed run next) : next.db = run.db := by
  cases step <;> rfl

/-- The collector writes a rollback point only at the end of a walk-back. -/
theorem CollectStep.rollbackPoint (step : CollectStep allowed run next) :
    (next.ledger.rollbackPoint = run.ledger.rollbackPoint ∧
      next.trace.resolved = run.trace.resolved) ∨
    ∃ fin episode oracle forkPoint hashes, allowed (.walk fin episode oracle) ∧
      run.pc = .walk fin ∧ run.ledger.episode = some episode ∧
      resolveForkPoint (run.walkView oracle) episode.anchor.1 episode.anchor.2 =
        .ok (forkPoint, hashes) ∧
      next.ledger.rollbackPoint = some
        { forkPoint, chainHashes := confirmedHashes episode fin.confirmed hashes } ∧
      next.trace.resolved = some episode ∧ next.trace.handed = run.trace.handed ∧
      next.trace.received = run.trace.received := by
  have concluding : ∀ {fin ledger resolved}, Concluded allowed run fin ledger resolved →
      (ledger.rollbackPoint = run.ledger.rollbackPoint ∧ resolved = run.trace.resolved) ∨
      ∃ episode oracle forkPoint hashes, allowed (.walk fin episode oracle) ∧
        run.pc = .walk fin ∧ run.ledger.episode = some episode ∧
        resolveForkPoint (run.walkView oracle) episode.anchor.1 episode.anchor.2 =
          .ok (forkPoint, hashes) ∧
        ledger.rollbackPoint = some
          { forkPoint, chainHashes := confirmedHashes episode fin.confirmed hashes } ∧
        resolved = some episode := by
    intro fin ledger resolved concluded
    cases concluded with
    | abandoned | failed => exact .inl ⟨rfl, rfl⟩
    | resolved episode oracle forkPoint hashes permitted located active walked =>
        exact .inr ⟨episode, oracle, forkPoint, hashes, permitted, located, active, walked, rfl, rfl⟩
  cases step with
  | receives _ _ _ _ applied | receivesOpening _ _ _ _ _ applied
  | drainReceives _ _ _ _ _ _ applied => exact .inl ⟨applied.rollbackPoint, rfl⟩
  | concludesPop fin _ _ _ _ _ concluded =>
      rcases concluding concluded with same |
        ⟨episode, oracle, forkPoint, hashes, permitted, located, active, walked, point, resolved⟩
      · exact .inl same
      · exact .inr ⟨fin, episode, oracle, forkPoint, hashes, permitted, located, active, walked,
          point, resolved, rfl, rfl⟩
  | concludesBatch fin _ _ _ _ _ concluded applied
  | concludesOpening fin _ _ _ _ _ _ concluded applied =>
      rcases concluding concluded with ⟨same, resolved⟩ |
        ⟨episode, oracle, forkPoint, hashes, permitted, located, active, walked, point, resolved⟩
      · exact .inl ⟨applied.rollbackPoint.trans same, resolved⟩
      · exact .inr ⟨fin, episode, oracle, forkPoint, hashes, permitted, located, active, walked,
          applied.rollbackPoint.trans point, resolved, rfl, rfl⟩
  | _ => exact .inl ⟨rfl, rfl⟩

theorem Resolution.keep {point : RollbackPoint} {episode : ReorgEpisode}
    (resolution : Resolution links run point episode) (setup : next.setup = run.setup)
    (dispatched : run.dispatcher.dispatchedUpTo ≤ next.dispatcher.dispatchedUpTo)
    (db : next.db = run.db) (handed : next.trace.handed = run.trace.handed)
    (received : next.trace.received = run.trace.received) :
    Resolution links next point episode := by
  obtain ⟨top, topHash, segment, above, below⟩ := resolution.segment
  refine ⟨⟨top, topHash, segment, above, by omega⟩, resolution.anchored, ?_, ?_, ?_, ?_, ?_⟩
  · rw [db, setup]
    exact resolution.walked
  · rw [handed]
    exact resolution.below
  · rw [setup]
    exact resolution.started
  · rw [received]
    exact resolution.pinned
  · rw [db, setup]
    exact resolution.stops

theorem CollectStep.dispatched (step : CollectStep allowed run next) :
    next.dispatcher.dispatchedUpTo = run.dispatcher.dispatchedUpTo := by
  cases step <;> rfl

theorem CollectStep.phase (step : CollectStep allowed run next) :
    next.dispatcher.phase = run.dispatcher.phase := by
  cases step <;> rfl

/-- A run with a rollback point hands nothing over. -/
theorem CollectStep.handed_of_resolved (step : CollectStep allowed run next) (known : Known run)
    (recorded : run.ledger.rollbackPoint.isSome = true) :
    next.trace.handed = run.trace.handed := by
  cases step with
  | sends item located held =>
      have free := (known.counted.idle (known.settling.resolved recorded).1).1
      rw [free] at held
      cases held
  | _ => rfl

/-- A run with a rollback point has no completion left to consume. -/
theorem CollectStep.received_of_resolved (step : CollectStep allowed run next)
    (settling : Settling run) (recorded : run.ledger.rollbackPoint.isSome = true) :
    next.trace.received = run.trace.received := by
  have empty := (settling.resolved recorded).2
  cases step with
  | receives _ _ _ arrived | receivesOpening _ _ _ _ arrived | drainReceives _ _ _ _ _ arrived =>
      simp [empty] at arrived
  | _ => rfl

theorem Resolved.step {allowed : Run → Move → Prop}
    (headers : ∀ run fin episode oracle, allowed run (.collect (.walk fin episode oracle)) →
      ∀ depth hash parentHash, oracle.header depth hash = .ok parentHash → links hash parentHash)
    (run : Run) (move : Move)
    (known : Known run ∧ ItemsSatisfy (Chained links) run ∧ EpisodesOk links run)
    (resolved : Resolved links run) (enabled : (restricted allowed).enabled run move) :
    Resolved links ((restricted allowed).effect run move) := by
  obtain ⟨known, items, episodes⟩ := known
  cases move with
  | cancel | closeCompletions =>
      intro point recorded
      obtain ⟨episode, same, resolution⟩ := resolved point recorded
      exact ⟨episode, same, resolution.keep rfl (Int.le_refl _) rfl rfl rfl⟩
  | dispatch move =>
      intro point recorded
      obtain ⟨episode, same, resolution⟩ := resolved point recorded
      refine ⟨episode, same, resolution.keep rfl ?_ rfl rfl rfl⟩
      cases move with
      | send =>
          have := known.bounded.ahead
          simp only [restricted, processBlocksOnce, GuardedSystem.restrict, dispatchEffect]
          omega
      | fetched | dropped | shutdown | closeResults => exact Int.le_refl _
  | pool move =>
      intro point recorded
      have settled := (known.settling.resolved (by
        rw [show run.ledger.rollbackPoint = some point from recorded]; rfl)).1
      exact absurd settled (known.counted.pool_positive enabled.1)
  | collect move =>
      have step := restricted_collect enabled
      intro point recorded
      rcases step.rollbackPoint with ⟨same, sameEpisode⟩ |
        ⟨fin, episode, oracle, forkPoint, hashes, permitted, located, active, walked, written,
          resolvedBy, handed, received⟩
      · rw [same] at recorded
        obtain ⟨episode, found, resolution⟩ := resolved point recorded
        have recorded : run.ledger.rollbackPoint.isSome = true := by simp [recorded]
        exact ⟨episode, sameEpisode.trans found, resolution.keep step.setup
          (by rw [step.dispatched]) step.db_eq (step.handed_of_resolved known recorded)
          (step.received_of_resolved known.settling recorded)⟩
      · rw [written, Option.some.injEq] at recorded
        subst recorded
        refine ⟨episode, resolvedBy, ?_⟩
        exact (Concluded.resolution known episodes items located active
          (headers run fin episode oracle permitted) walked).keep step.setup
          (by rw [step.dispatched]) step.db_eq handed received
  | finish =>
      intro point recorded
      change Option.map _ _ = some point at recorded
      obtain ⟨before, found, rfl⟩ := Option.map_eq_some_iff.mp recorded
      obtain ⟨episode, same, resolution⟩ := resolved before found
      exact ⟨episode, same, resolution.segment, resolution.anchored, resolution.walked,
        resolution.below, resolution.started, resolution.pinned, resolution.stops⟩

theorem RunUnder.resolved {allowed : Run → Move → Prop} {setup : Setup} {db : DB}
    (reached : RunUnder allowed setup db run) (answers : Answers (Chained links) allowed)
    (headers : ∀ run fin episode oracle, allowed run (.collect (.walk fin episode oracle)) →
      ∀ depth hash parentHash, oracle.header depth hash = .ok parentHash →
        links hash parentHash) : Resolved links run :=
  reached.invariant_under
    (fun _ reached => ⟨reached.known, reached.items answers, reached.episodes answers⟩)
    (by rintro _ _ _ ⟨⟩) (Resolved.step headers)

/-- A finished run's rollback point reaches up to the last dispatched height. -/
def Tipped (run : Run) : Prop :=
  run.dispatcher.phase = .ended → ∀ point, run.ledger.rollbackPoint = some point →
    point.oldTip = run.dispatcher.dispatchedUpTo

theorem Tipped.step {allowed : Run → Move → Prop} (run : Run) (move : Move)
    (settling : Settling run) (tipped : Tipped run)
    (enabled : (restricted allowed).enabled run move) :
    Tipped ((restricted allowed).effect run move) := by
  cases move with
  | cancel | pool => exact tipped
  | dispatch move =>
      cases move with
      | send =>
          intro ended
          have phase : run.dispatcher.phase = .ended := ended
          rw [enabled.1.1] at phase
          cases phase
      | fetched | dropped => exact tipped
      | shutdown | closeResults =>
          intro ended
          cases ended
  | collect move =>
      have step := restricted_collect enabled
      intro ended
      exact absurd (settling.ended (step.phase ▸ ended)) step.not_returned
  | closeCompletions =>
      intro ended
      cases ended
  | finish =>
      intro _ point recorded
      change Option.map _ _ = some point at recorded
      obtain ⟨before, _, rfl⟩ := Option.map_eq_some_iff.mp recorded
      rfl

theorem RunUnder.tipped {allowed : Run → Move → Prop} {setup : Setup} {db : DB}
    (reached : RunUnder allowed setup db run) : Tipped run :=
  reached.invariant_under (fun _ => RunUnder.settling) (by rintro _ _ ⟨⟩) Tipped.step

/-- A node that answers by hash with one parent for each hash, in header lookups
and in the blocks it serves. -/
def ServedBy (parentOf : String → String) (_ : Run) : Move → Prop
  | .dispatch (.fetched height reply) =>
      Chained (fun hash parentHash => parentOf hash = parentHash)
        (fetchAndConvertBlock height reply)
  | .collect (.refetched item reply) =>
      Chained (fun hash parentHash => parentOf hash = parentHash)
        (fetchAndConvertBlock item.blockNum reply)
  | .collect (.walk _ _ oracle) => ∀ depth hash parentHash,
      oracle.header depth hash = .ok parentHash → parentOf hash = parentHash
  | _ => True

theorem servedBy_answers (parentOf : String → String) :
    Answers (Chained fun hash parentHash => parentOf hash = parentHash) (ServedBy parentOf) :=
  ⟨fun _ _ _ permitted => permitted, fun _ _ _ permitted => permitted⟩

/-- The rollback point of a finished run: its map is one contiguous chain segment
from the fork point up to at most the old tip. After a pop-time episode it covers
everything that was handed over above the fork point, and the store disagrees
with it there. -/
theorem rollbackPoint_segment {parentOf : String → String} {setup : Setup} {db : DB}
    (reached : RunUnder (ServedBy parentOf) setup db run)
    (ended : run.dispatcher.phase = .ended) {point : RollbackPoint}
    (recorded : run.ledger.rollbackPoint = some point) :
    ∃ top, point.forkPoint ≤ top ∧ top ≤ point.oldTip ∧
      (∀ height, height ∈ point.chainHashes ↔ point.forkPoint ≤ height ∧ height ≤ top) ∧
      (∀ height hash, point.chainHashes.lookup height = some hash → hash ≠ "") ∧
      (∀ height, point.forkPoint < height → height ≤ top → ∃ hash,
        point.chainHashes.lookup height = some hash ∧
          point.chainHashes.lookup (height - 1) = some (parentOf hash)) ∧
      ∃ episode, run.trace.resolved = some episode ∧ (episode.stalePinned = false →
        ∀ item ∈ run.trace.handed, point.forkPoint < item.blockNum →
          item.blockNum ≤ top ∧ ∃ stored, getStoredBlockHash run.db item.blockNum = .ok stored ∧
            point.chainHashes.lookup item.blockNum ≠ some stored) := by
  have resolved : Resolved (fun hash parentHash => parentOf hash = parentHash) run :=
    reached.resolved (servedBy_answers parentOf) fun _ _ _ _ permitted => permitted
  obtain ⟨episode, found, resolution⟩ := resolved point recorded
  obtain ⟨top, topHash, segment, covers, below⟩ := resolution.segment
  refine ⟨top, segment.ordered, ?_, segment.keys, segment.usable, ?_, episode, found, ?_⟩
  · rw [reached.tipped ended point recorded]
    exact below
  · intro height above under
    obtain ⟨hash, parentHash, atHeight, atParent, rfl⟩ := segment.linked height above under
    exact ⟨hash, atHeight, atParent⟩
  · intro popTime item handed above
    have under := resolution.below popTime item handed
    obtain ⟨stored, answered, differs, _⟩ := resolution.walked item.blockNum above under
    exact ⟨by omega, stored, answered, differs⟩

/-- The parents of a chain with a fork at height 4. -/
def forkedParents (hash : String) : String :=
  if hash = "0xa6" then "0xa5" else if hash = "0xa5" then "0xa4" else "0xa3"

/-- Block 3 is common to both forks, and the stored block 4 is an orphan. -/
def forkedStore : DB :=
  { visible := [⟨.block, blockFields 3 "0xa3" "0xa2"⟩, ⟨.block, blockFields 4 "0xb4" "0xa3"⟩]
    deleted := []
    nodup := by decide
    separate := by decide }

/-- Blocks 5 and 6 of the new chain confirm the episode that the seed of block 5 opens. -/
def reorgMoves (fifth sixth : Except String ConversionResult) (headers : String → String) :
    List Move :=
  let seed := fetchAndConvertBlock 5 fifth
  let next := fetchAndConvertBlock 6 sixth
  fetchMoves 5 fifth ++
    [.dispatch .send, .dispatch (.fetched 6 sixth), .collect .pop, .collect (.check seed false),
      .collect .hold, .collect (.recvResult next)] ++ confirmMoves next ++
    [.collect (.walk { confirmed := some next }
      { baseHeight := 5, baseParentHash := seed.parentHash, lastParkedHash := seed.hash }
      ⟨fun _ hash => .ok (headers hash), true, fun _ => false⟩)] ++ shutdownMoves

def forkMoves : List Move :=
  reorgMoves (.ok (bareBlock 5 "0xa5" "0xa4")) (.ok (bareBlock 6 "0xa6" "0xa5")) forkedParents

theorem forkMoves_served : ∀ move ∈ forkMoves, ∀ run, ServedBy forkedParents run move := by
  have fifth : Chained (fun hash parentHash => forkedParents hash = parentHash)
      (fetchAndConvertBlock 5 (.ok (bareBlock 5 "0xa5" "0xa4"))) := fun _ _ => by decide
  have sixth : Chained (fun hash parentHash => forkedParents hash = parentHash)
      (fetchAndConvertBlock 6 (.ok (bareBlock 6 "0xa6" "0xa5"))) := fun _ _ => by decide
  simp [forkMoves, reorgMoves, fetchMoves, confirmMoves, shutdownMoves, ServedBy, fifth, sixth]

theorem rollbackPoint_segment_of_fork :
    ∃ run point, RunUnder (ServedBy forkedParents)
        { runStartBlock := 5, seedHash := "0xb4", configuredStart := 5, workers := 2 }
        forkedStore run ∧ run.dispatcher.phase = .ended ∧
      run.ledger.rollbackPoint = some point ∧ point.forkPoint = 3 ∧
      ∃ top, point.forkPoint ≤ top ∧ top ≤ point.oldTip := by
  obtain ⟨run, reached, facts⟩ := runUnder_of_execution (ServedBy forkedParents)
    ⟨5, "0xb4", 5, 2⟩ forkedStore forkMoves
    (fun run => run.dispatcher.phase = .ended &&
      run.ledger.rollbackPoint.any fun point => point.forkPoint = 3) forkMoves_served
    (by decide +kernel)
  simp only [Bool.and_eq_true, decide_eq_true_eq] at facts
  obtain ⟨ended, resolved⟩ := facts
  cases recorded : run.ledger.rollbackPoint with
  | none => simp [recorded] at resolved
  | some point =>
      obtain ⟨top, low, high, _⟩ := rollbackPoint_segment reached ended recorded
      exact ⟨run, point, reached, ended, recorded, by simpa [recorded] using resolved, top, low,
        high⟩

end ShinzoGenerator.Indexer
