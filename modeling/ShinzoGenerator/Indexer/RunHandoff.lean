import ShinzoGenerator.Indexer.RunExecution
import ShinzoGenerator.Indexer.RunPool

/-! The hand-off to the store pool: heights only grow, consecutive blocks are
linked by their hashes, and every height below a handed one was handed itself
or is a recorded hole. -/

set_option autoImplicit false

namespace ShinzoGenerator.Indexer

open Defra

/-- The items that passed the check and were not given up: handed over, or held. -/
def Run.line (run : Run) : List BlockResult :=
  run.trace.handed ++ run.check.holdingDispatch.toList

/-- Two items in hand-off order. -/
structure Follows (earlier later : BlockResult) : Prop where
  higher : earlier.blockNum < later.blockNum
  linked : later.blockNum = earlier.blockNum + 1 → earlier.hash ≠ "" → later.parentHash ≠ "" →
    later.parentHash = earlier.hash

/-- The height is a failed fetch or belongs to the line. -/
def Covered (run : Run) (height : Int) : Prop :=
  height ∈ run.trace.holes ∨ ∃ item ∈ run.line, item.blockNum = height

structure Handoff (run : Run) : Prop where
  started : run.setup.runStartBlock ≤ run.check.nextToCommit
  cursor : run.check.lastCheckedNum < run.check.nextToCommit
  behind : ∀ popped, run.pc = .check popped →
    run.check.lastCheckedNum < run.check.nextToCommit - 1 ∧
      run.setup.runStartBlock ≤ run.check.nextToCommit - 1
  bounds : ∀ item ∈ run.line, run.setup.runStartBlock ≤ item.blockNum ∧
    item.blockNum ≤ run.check.lastCheckedNum
  last : ∀ item ∈ run.line, item.blockNum = run.check.lastCheckedNum →
    item.hash = run.check.lastCheckedHash
  linked : run.line.Pairwise Follows
  seeded : ∀ item ∈ run.line, item.blockNum = run.setup.runStartBlock →
    run.setup.seedHash ≠ "" → item.parentHash ≠ "" → item.parentHash = run.setup.seedHash
  fetched : ∀ item ∈ run.line, item.success = true
  holes : ∀ height ∈ run.trace.holes, run.setup.runStartBlock ≤ height ∧
    height ≤ run.check.lastCheckedNum
  disjoint : ∀ item ∈ run.line, item.blockNum ∉ run.trace.holes
  covered : ∀ item ∈ run.line, ∀ height, run.setup.runStartBlock ≤ height →
    height ≤ item.blockNum → Covered run height
  gapless : run.ledger.ctxDone = false → run.ledger.episode = none →
    (∀ popped, run.pc ≠ .check popped) → ∀ height, run.setup.runStartBlock ≤ height →
    height < run.check.nextToCommit → Covered run height
  checking : ∀ popped, run.pc = .check popped → ∀ height, run.setup.runStartBlock ≤ height →
    height < run.check.nextToCommit - 1 → Covered run height

variable {allowed : CollectMove → Prop} {run next : Run}

theorem Handoff.linked_handed (handoff : Handoff run) : run.trace.handed.Pairwise Follows :=
  handoff.linked.sublist (List.sublist_append_left _ _)

theorem Handoff.heights (handoff : Handoff run) : (run.trace.handed.map (·.blockNum)).Nodup := by
  refine List.pairwise_map.mpr (handoff.linked_handed.imp ?_)
  intro earlier later follows same
  have := follows.higher
  omega

theorem Handoff.unique (handoff : Handoff run) {left right : BlockResult}
    (leftHanded : left ∈ run.trace.handed) (rightHanded : right ∈ run.trace.handed)
    (same : left.blockNum = right.blockNum) : left = right :=
  List.inj_on_of_nodup_map handoff.heights leftHanded rightHanded same

/-- What covers a height below a handed item is not the held one, which lies above. -/
theorem Handoff.covered_handed (handoff : Handoff run) {item : BlockResult}
    (member : item ∈ run.trace.handed) {height : Int}
    (above : run.setup.runStartBlock ≤ height) (below : height ≤ item.blockNum) :
    height ∈ run.trace.holes ∨ ∃ other ∈ run.trace.handed, other.blockNum = height := by
  rcases handoff.covered item (List.mem_append_left _ member) height above below with
    hole | ⟨other, inLine, same⟩
  · exact .inl hole
  · rcases List.mem_append.mp inLine with handed | held
    · exact .inr ⟨other, handed, same⟩
    · have := ((List.pairwise_append.mp handoff.linked).2.2 item member other held).higher
      omega

theorem handoff_start (setup : Setup) (episodeRollbacks : Nat) (heightRollbacks : HeightMap Nat)
    (db : DB) : Handoff (Run.start setup episodeRollbacks heightRollbacks db) := by
  constructor
  case cursor =>
    simp only [Run.start]
    omega
  case gapless =>
    intro _ _ _ height above below
    simp only [Run.start] at above below
    omega
  all_goals simp [Run.start, Run.line]

/-- A move that leaves the line, the holes and the cursors as they are. -/
theorem Handoff.keep (handoff : Handoff run) (setup : next.setup = run.setup)
    (line : next.line = run.line) (holes : next.trace.holes = run.trace.holes)
    (cursor : next.check.nextToCommit = run.check.nextToCommit)
    (last : next.check.lastCheckedNum = run.check.lastCheckedNum ∧
      next.check.lastCheckedHash = run.check.lastCheckedHash)
    (unchecked : ∀ popped, next.pc ≠ .check popped)
    (quiet : next.ledger.ctxDone = false → next.ledger.episode = none →
      run.ledger.ctxDone = false ∧ run.ledger.episode = none ∧
        ∀ popped, run.pc ≠ .check popped) : Handoff next := by
  have covers : ∀ height, Covered next height ↔ Covered run height := by
    intro height
    rw [Covered, Covered, line, holes]
  constructor
  case started => rw [setup, cursor]; exact handoff.started
  case cursor => rw [cursor, last.1]; exact handoff.cursor
  case behind => exact fun popped located => absurd located (unchecked popped)
  case bounds => rw [line, setup, last.1]; exact handoff.bounds
  case last => rw [line, last.1, last.2]; exact handoff.last
  case linked => rw [line]; exact handoff.linked
  case seeded => rw [line, setup]; exact handoff.seeded
  case fetched => rw [line]; exact handoff.fetched
  case holes => rw [holes, setup, last.1]; exact handoff.holes
  case disjoint => rw [line, holes]; exact handoff.disjoint
  case covered =>
    rw [line, setup]
    exact fun item member height above below =>
      (covers height).mpr (handoff.covered item member height above below)
  case gapless =>
    intro running inactive _ height above below
    obtain ⟨running, inactive, outside⟩ := quiet running inactive
    rw [setup] at above
    rw [cursor] at below
    exact (covers height).mpr (handoff.gapless running inactive outside height above below)
  case checking => exact fun popped located => absurd located (unchecked popped)

/-- Giving up the held dispatch on a run that is leaving its normal shape. -/
theorem Handoff.give_up (handoff : Handoff run) (setup : next.setup = run.setup)
    (line : next.line = run.trace.handed) (holes : next.trace.holes = run.trace.holes)
    (cursor : next.check.nextToCommit = run.check.nextToCommit)
    (last : next.check.lastCheckedNum = run.check.lastCheckedNum ∧
      next.check.lastCheckedHash = run.check.lastCheckedHash)
    (unchecked : ∀ popped, next.pc ≠ .check popped)
    (leaving : next.ledger.ctxDone = false → next.ledger.episode ≠ none) : Handoff next := by
  have within : ∀ item ∈ run.trace.handed, item ∈ run.line :=
    fun item member => List.mem_append_left _ member
  constructor
  case started => rw [setup, cursor]; exact handoff.started
  case cursor => rw [cursor, last.1]; exact handoff.cursor
  case behind => exact fun popped located => absurd located (unchecked popped)
  case bounds =>
    rw [line, setup, last.1]
    exact fun item member => handoff.bounds item (within item member)
  case last =>
    rw [line, last.1, last.2]
    exact fun item member => handoff.last item (within item member)
  case linked => rw [line]; exact handoff.linked.sublist (List.sublist_append_left _ _)
  case seeded =>
    rw [line, setup]
    exact fun item member => handoff.seeded item (within item member)
  case fetched => rw [line]; exact fun item member => handoff.fetched item (within item member)
  case holes => rw [holes, setup, last.1]; exact handoff.holes
  case disjoint =>
    rw [line, holes]
    exact fun item member => handoff.disjoint item (within item member)
  case covered =>
    rw [line, setup]
    intro item member height above below
    rw [Covered, line, holes]
    exact handoff.covered_handed member above below
  case gapless => exact fun running inactive => absurd inactive (leaving running)
  case checking => exact fun popped located => absurd located (unchecked popped)

theorem Handoff.pop (handoff : Handoff run) (located : run.pc = .loop) (pc : Pc)
    (checks : run.ledger.ctxDone = false → run.ledger.episode = none →
      ∃ popped, pc = .check popped)
    (running : ∀ popped, pc = .check popped →
      run.ledger.ctxDone = false ∧ run.ledger.episode = none) :
    Handoff { run with check := run.check.popped, pc } := by
  have started := handoff.started
  have cursor := handoff.cursor
  constructor
  case started => simp only [Checker.popped]; omega
  case cursor => simp only [Checker.popped]; omega
  case behind => intro popped _; simp only [Checker.popped]; omega
  case bounds => exact handoff.bounds
  case last => exact handoff.last
  case linked => exact handoff.linked
  case seeded => exact handoff.seeded
  case fetched => exact handoff.fetched
  case holes => exact handoff.holes
  case disjoint => exact handoff.disjoint
  case covered => exact handoff.covered
  case gapless =>
    intro uncancelled inactive outside
    obtain ⟨popped, same⟩ := checks uncancelled inactive
    exact absurd same (outside popped)
  case checking =>
    intro popped same height above below
    obtain ⟨uncancelled, inactive⟩ := running popped same
    refine handoff.gapless uncancelled inactive (fun other => by simp [located]) height above ?_
    simp only [Checker.popped] at below
    omega

theorem Handoff.hole (handoff : Handoff run) (posture : Posture run) {popped : BlockResult}
    (located : run.pc = .check popped) :
    Handoff
      { run with
        check := { run.check with lastCheckedNum := popped.blockNum, lastCheckedHash := "" }
        buffer := run.buffer.skip popped.blockNum
        trace := { run.trace with holes := run.trace.holes ++ [popped.blockNum] }
        pc := .hold } := by
  obtain ⟨_, _, _, numbered⟩ := posture.checking located
  obtain ⟨behind, started⟩ := handoff.behind popped located
  have more : ∀ {height}, Covered run height → height ∈ run.trace.holes ++ [popped.blockNum] ∨
      ∃ item ∈ run.line, item.blockNum = height :=
    fun covered => covered.imp_left (List.mem_append_left _)
  constructor
  case started => exact handoff.started
  case cursor => simp only; omega
  case behind => rintro _ ⟨⟩
  case bounds =>
    intro item member
    have := handoff.bounds item member
    simp only
    omega
  case last =>
    intro item member same
    have := handoff.bounds item member
    simp only at same
    omega
  case linked => exact handoff.linked
  case seeded => exact handoff.seeded
  case fetched => exact handoff.fetched
  case holes =>
    intro height member
    simp only
    rcases List.mem_append.mp member with old | new
    · have := handoff.holes height old
      omega
    · rw [List.mem_singleton.mp new]
      omega
  case disjoint =>
    intro item member inHoles
    rcases List.mem_append.mp inHoles with old | new
    · exact handoff.disjoint item member old
    · have := handoff.bounds item member
      have := List.mem_singleton.mp new
      omega
  case covered =>
    exact fun item member height above below => more (handoff.covered item member height above below)
  case gapless =>
    intro _ _ _ height above below
    by_cases top : height = popped.blockNum
    · exact .inl (by simp [top])
    · exact more (handoff.checking popped located height above (by simp only at below; omega))
  case checking => rintro _ ⟨⟩

theorem Handoff.pass (handoff : Handoff run) (posture : Posture run) {popped : BlockResult}
    {queryFails : Bool} (located : run.pc = .check popped) (succeeded : popped.success = true)
    (unbroken : run.continuityBreak popped queryFails = none) :
    Handoff
      { run with
        check :=
          { run.check with
            lastCheckedNum := popped.blockNum
            lastCheckedHash := popped.hash
            holdingDispatch := some popped }
        pool := { run.pool with inFlight := run.pool.inFlight + 1 }
        trace := { run.trace with checked := run.trace.checked ++ [popped] }
        pc := .hold } := by
  obtain ⟨free, _, _, numbered⟩ := posture.checking located
  obtain ⟨behind, started⟩ := handoff.behind popped located
  have before : run.line = run.trace.handed := by simp [Run.line, free]
  have checked := (Option.or_eq_none_iff.mp unbroken).1
  -- the new line is the old one with the popped item at its end
  have mem_line : ∀ item, item ∈ run.trace.handed ++ [popped] ↔
      item ∈ run.line ∨ item = popped := by
    intro item
    rw [before, List.mem_append, List.mem_singleton]
  have more : ∀ {height}, Covered run height → height ∈ run.trace.holes ∨
      ∃ item ∈ run.trace.handed ++ [popped], item.blockNum = height := by
    rintro height (hole | ⟨item, member, same⟩)
    · exact .inl hole
    · exact .inr ⟨item, (mem_line item).mpr (.inl member), same⟩
  have reach : ∀ height, run.setup.runStartBlock ≤ height → height ≤ popped.blockNum →
      height ∈ run.trace.holes ∨
        ∃ item ∈ run.trace.handed ++ [popped], item.blockNum = height := by
    intro height above below
    by_cases top : height = popped.blockNum
    · exact .inr ⟨popped, by simp, top.symm⟩
    · exact more (handoff.checking popped located height above (by omega))
  constructor
  case started => exact handoff.started
  case cursor => simp only; omega
  case behind => rintro _ ⟨⟩
  case bounds =>
    intro item member
    rcases (mem_line item).mp member with old | rfl
    · have := handoff.bounds item old
      simp only
      omega
    · simp only
      omega
  case last =>
    intro item member same
    rcases (mem_line item).mp member with old | rfl
    · have := handoff.bounds item old
      simp only at same
      omega
    · rfl
  case linked =>
    refine List.pairwise_append.mpr ⟨before ▸ handoff.linked, List.pairwise_singleton _ _, ?_⟩
    intro earlier member later new
    rw [List.mem_singleton.mp new]
    have inLine : earlier ∈ run.line := before ▸ member
    have := handoff.bounds earlier inLine
    refine ⟨by omega, fun adjacent known usable => ?_⟩
    have latest : earlier.blockNum = run.check.lastCheckedNum := by omega
    rw [handoff.last earlier inLine latest] at known ⊢
    exact (continuitySignal_none checked usable).2 (by omega) known
  case seeded =>
    intro item member first known usable
    rcases (mem_line item).mp member with old | rfl
    · exact handoff.seeded item old first known usable
    · exact (continuitySignal_none checked usable).1 first known
  case fetched =>
    intro item member
    rcases (mem_line item).mp member with old | rfl
    · exact handoff.fetched item old
    · exact succeeded
  case holes =>
    intro height member
    have := handoff.holes height member
    simp only
    omega
  case disjoint =>
    intro item member inHoles
    rcases (mem_line item).mp member with old | rfl
    · exact handoff.disjoint item old inHoles
    · have := handoff.holes _ inHoles
      omega
  case covered =>
    intro item member height above below
    refine reach height above ?_
    rcases (mem_line item).mp member with old | rfl
    · have := handoff.bounds item old
      omega
    · exact below
  case gapless =>
    intro _ _ _ height above below
    exact reach height above (by simp only at below; omega)
  case checking => rintro _ ⟨⟩

theorem Handoff.collect (handoff : Handoff run) (control : Control run)
    (step : CollectStep allowed run next) : Handoff next := by
  have outside : ∀ {pc : Pc}, run.pc = pc → (∀ popped, pc ≠ .check popped) →
      ∀ popped, run.pc ≠ .check popped := fun same others => same ▸ others
  have unchecked : ∀ popped, run.afterSelect ≠ .check popped :=
    resting_not_check run.afterSelect_resting
  cases step with
  | popDropped popped located _ _ ending =>
      have cancelled := ending.elim control.stopping.rolledBack id
      exact handoff.pop located _ (fun running => by simp [cancelled] at running) (by rintro _ ⟨⟩)
  | popParked popped episode located _ _ _ _ active =>
      exact handoff.pop located _ (fun _ inactive => by simp [active] at inactive) (by rintro _ ⟨⟩)
  | popChecked popped located _ _ _ running inactive =>
      exact handoff.pop located _ (fun _ _ => ⟨popped, rfl⟩) (fun _ _ => ⟨running, inactive⟩)
  | hole popped located => exact handoff.hole control.posture located
  | passes popped _ located succeeded unbroken =>
      exact handoff.pass control.posture located succeeded unbroken
  | idle located | holds located | refetches _ _ _ located | drainSettles _ located
  | drainEnds _ located =>
      exact handoff.keep rfl rfl rfl rfl ⟨rfl, rfl⟩ (by rintro _ ⟨⟩)
        fun running inactive => ⟨running, inactive, outside located (by rintro _ ⟨⟩)⟩
  | breaks | reanchors | refills =>
      exact handoff.keep rfl rfl rfl rfl ⟨rfl, rfl⟩ (by rintro _ ⟨⟩) (by rintro _ ⟨⟩)
  | waitFails => exact handoff.keep rfl rfl rfl rfl ⟨rfl, rfl⟩ (by rintro _ ⟨⟩) (by intros; contradiction)
  | waitLeaves item located =>
      refine handoff.keep rfl rfl rfl rfl ⟨rfl, rfl⟩ (by rintro _ ⟨⟩)
        fun running inactive => ⟨running, inactive, ?_⟩
      rcases located with located | located
      · exact outside located (by rintro _ ⟨⟩)
      · exact outside located (by rintro _ ⟨⟩)
  | confirms item episode located active =>
      refine handoff.give_up rfl (List.append_nil _) rfl rfl ⟨rfl, rfl⟩ (by rintro _ ⟨⟩)
        fun _ inactive => ?_
      rw [show run.ledger.episode = none from inactive] at active
      cases active
  | abandons located leaving =>
      refine handoff.give_up rfl (List.append_nil _) rfl rfl ⟨rfl, rfl⟩ (by rintro _ ⟨⟩)
        fun uncancelled inactive => ?_
      have running : run.ledger.ctxDone = false := uncancelled
      have unresolved : run.ledger.rollbackPoint.isSome = true → False := by
        intro recorded
        simp [control.stopping.rolledBack recorded] at running
      simp only [Ledger.leaving, Bool.or_eq_true] at leaving
      rcases leaving with (active | recorded) | cancelled
      · simp [show run.ledger.episode = none from inactive] at active
      · exact unresolved recorded
      · simp [cancelled] at running
  | recvResult _ located =>
      exact handoff.keep rfl rfl rfl rfl ⟨rfl, rfl⟩ unchecked
        fun running inactive => ⟨running, inactive, outside located (by rintro _ ⟨⟩)⟩
  | resultsClosed located | completionsClosed located =>
      exact handoff.keep rfl rfl rfl rfl ⟨rfl, rfl⟩
        (resting_not_check (Run.afterSelect_resting _))
        fun running inactive => ⟨running, inactive, outside located (by rintro _ ⟨⟩)⟩
  | sends item located held =>
      have same : (run.trace.handed ++ [item]) ++ [] = run.line := by simp [Run.line, held]
      exact handoff.keep rfl same rfl rfl ⟨rfl, rfl⟩ unchecked
        fun running inactive => ⟨running, inactive, outside located (by rintro _ ⟨⟩)⟩
  | closesStore located cancelled =>
      refine handoff.give_up rfl (List.append_nil _) rfl rfl ⟨rfl, rfl⟩ unchecked
        fun running => ?_
      simp [Run.withoutHeld, cancelled] at running
  | receives completion ledger located _ applied =>
      refine handoff.keep rfl rfl rfl rfl ⟨rfl, rfl⟩ unchecked
        fun running inactive => ⟨?_, ?_, outside located (by rintro _ ⟨⟩)⟩
      · by_contra cancelled
        rw [Bool.not_eq_false] at cancelled
        simp [applied.cancelled cancelled] at running
      · cases active : run.ledger.episode with
        | none => rfl
        | some episode =>
            obtain ⟨_, after, found, _⟩ := applied.kept episode active
            simp [found] at inactive
  | receivesOpening completion ledger rest located _ applied =>
      obtain ⟨_, episode, found, _⟩ := applied.finalizing run.check.nextToCommit
      exact handoff.give_up rfl (List.append_nil _) rfl rfl ⟨rfl, rfl⟩ (by rintro _ ⟨⟩)
        fun _ inactive => by simp [found] at inactive
  | drainReceives fin completion ledger rest located _ applied =>
      obtain ⟨_, _, before, active, _⟩ := control.posture.finalizing (located.imp_right .inl)
      obtain ⟨_, after, found, _⟩ := applied.kept before active
      refine handoff.keep rfl rfl rfl rfl ⟨rfl, rfl⟩ ?_
        fun _ inactive => by simp [found] at inactive
      rcases located with located | located
      · exact outside located (by rintro _ ⟨⟩)
      · exact outside located (by rintro _ ⟨⟩)
  | concludesPop _ _ _ _ _ _ concluded =>
      exact handoff.keep rfl rfl rfl rfl ⟨rfl, rfl⟩ (by rintro _ ⟨⟩)
        fun running => by simp [concluded.ctxDone] at running
  | concludesBatch _ _ _ _ _ _ concluded applied =>
      exact handoff.keep rfl rfl rfl rfl ⟨rfl, rfl⟩ unchecked
        fun running => by simp [applied.cancelled concluded.ctxDone] at running
  | concludesOpening _ _ _ _ _ _ _ concluded applied =>
      exact handoff.give_up rfl (List.append_nil _) rfl rfl ⟨rfl, rfl⟩ (by rintro _ ⟨⟩)
        fun running => by simp [applied.cancelled concluded.ctxDone] at running

theorem Handoff.step {allowed : Run → Move → Prop} (run : Run) (move : Move)
    (control : Control run) (handoff : Handoff run)
    (enabled : (restricted allowed).enabled run move) :
    Handoff ((restricted allowed).effect run move) := by
  cases move with
  | collect move => exact handoff.collect control (restricted_collect enabled)
  | cancel =>
      exact ⟨handoff.started, handoff.cursor, handoff.behind, handoff.bounds, handoff.last,
        handoff.linked, handoff.seeded, handoff.fetched, handoff.holes, handoff.disjoint,
        handoff.covered, (by intros; contradiction), handoff.checking⟩
  | dispatch | pool | closeCompletions | finish =>
      exact ⟨handoff.started, handoff.cursor, handoff.behind, handoff.bounds, handoff.last,
        handoff.linked, handoff.seeded, handoff.fetched, handoff.holes, handoff.disjoint,
        handoff.covered, handoff.gapless, handoff.checking⟩

theorem RunUnder.handoff {allowed : Run → Move → Prop} {setup : Setup} {db : DB}
    (reached : RunUnder allowed setup db run) : Handoff run :=
  reached.invariant_under (fun _ => RunUnder.control) (fun _ _ => handoff_start _ _ _ _)
    Handoff.step

/-- Of two items in the line the higher one stands later. -/
theorem follows_of_higher {items : List BlockResult} (linked : items.Pairwise Follows)
    {lower upper : BlockResult} (lowerIn : lower ∈ items) (upperIn : upper ∈ items)
    (higher : lower.blockNum < upper.blockNum) : Follows lower upper := by
  refine List.Pairwise.forall_of_forall_of_flip
    (R := fun lower upper : BlockResult => lower.blockNum < upper.blockNum → Follows lower upper)
    ?_ (linked.imp ?_) (linked.imp ?_) lowerIn upperIn higher
  · intro item _ impossible
    omega
  · exact fun follows _ => follows
  · intro earlier later follows impossible
    have := follows.higher
    omega

/-- The items sent to the pool rise strictly, adjacent ones chain by hash, the
first one chains from the seed, and an episode of either kind ends the sending. -/
theorem handed_chain_until_episode {setup : Setup} {db : DB} (reached : RunOf setup db run) :
    run.trace.handed.Pairwise (fun earlier later => earlier.blockNum < later.blockNum) ∧
    (∀ lower ∈ run.trace.handed, ∀ upper ∈ run.trace.handed,
      upper.blockNum = lower.blockNum + 1 → lower.hash ≠ "" → upper.parentHash ≠ "" →
      upper.parentHash = lower.hash) ∧
    (∀ item ∈ run.trace.handed, item.blockNum = setup.runStartBlock → setup.seedHash ≠ "" →
      item.parentHash ≠ "" → item.parentHash = setup.seedHash) ∧
    (∀ later, processBlocksOnce.Path run later → run.trace.opened ≠ [] →
      later.trace.handed = run.trace.handed) := by
  have handoff := reached.handoff
  have linked := handoff.linked_handed
  refine ⟨linked.imp Follows.higher, ?_, ?_, ?_⟩
  · intro lower lowerHanded upper upperHanded adjacent known usable
    exact (follows_of_higher linked lowerHanded upperHanded (by omega)).linked adjacent known usable
  · intro item member
    rw [← reached.setup_eq]
    exact handoff.seeded item (List.mem_append_left _ member)
  · intro later path opened
    exact (handed_of_sealed (path.to_restrict fun _ _ => trivial) reached.control (.inr opened)).2.2

theorem handed_chain_of_two_blocks :
    ∃ run, RunOf { runStartBlock := 5, seedHash := "0xa4", configuredStart := 5, workers := 2 }
        SoftStore.empty run ∧ run.trace.handed.length = 2 ∧
      run.trace.handed.Pairwise (fun earlier later => earlier.blockNum < later.blockNum) := by
  obtain ⟨run, reached, both⟩ := runOf_of_execution ⟨5, "0xa4", 5, 2⟩ SoftStore.empty
    (indexMoves 5 "0xa5" "0xa4" ++ indexMoves 6 "0xa6" "0xa5")
    (fun run => run.trace.handed.length = 2) (by decide +kernel)
  exact ⟨run, reached, by simpa using both, (handed_chain_until_episode reached).1⟩

end ShinzoGenerator.Indexer
