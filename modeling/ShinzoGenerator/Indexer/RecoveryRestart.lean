import ShinzoGenerator.Indexer.Recovery

/-! The run after the recovery: it starts right above the fork point with a
matching seed, follows the new chain without an episode, and fills every height. -/

set_option autoImplicit false

namespace ShinzoGenerator.Indexer

open Chains Defra

variable {chain : Int → String} {low fork top tip : Int} {db : DB}
  {served : Int → ConversionResult} {run next : Run} {setup : Setup}

/-! ### Successful stores -/

/-- A reported success stands for a visible block document. -/
def StoredOnSuccess (run : Run) : Prop :=
  ∀ completion ∈ run.completions, completion.succeeded = true →
    blockStored run.db completion.item = true

theorem blockStored_grows {before after : DB} {item : BlockResult}
    (visible : before.visible ⊆ after.visible) (stored : blockStored before item = true) :
    blockStored after item = true := by
  unfold blockStored at stored ⊢
  cases found : item.converted.blockDoc? with
  | none => simp [found] at stored
  | some doc =>
      simp only [found, Option.any_some, decide_eq_true_eq] at stored ⊢
      exact visible stored

theorem StoredOnSuccess.step {allowed : Run → Move → Prop} (run : Run) (move : Move)
    (stored : StoredOnSuccess run) (enabled : (restricted allowed).enabled run move) :
    StoredOnSuccess ((restricted allowed).effect run move) := by
  have grows := visible_grows enabled
  have kept : ∀ completion, completion ∈ run.completions → completion.succeeded = true →
      blockStored ((restricted allowed).effect run move).db completion.item = true :=
    fun completion member succeeded => blockStored_grows grows (stored completion member succeeded)
  intro completion member succeeded
  cases move with
  | pool move =>
      rcases (pool_completions enabled.1 completion).mp member with
        old | ⟨item, computed, queryFails, rfl, rfl⟩
      · exact kept completion old succeeded
      · exact enabled.1.2.1 succeeded
  | collect move =>
      exact kept completion (((restricted_collect enabled).completions completion).mp member)
        succeeded
  | cancel | dispatch | closeCompletions | finish => exact kept completion member succeeded

theorem RunUnder.storedOnSuccess {allowed : Run → Move → Prop}
    (reached : RunUnder allowed setup db run) : StoredOnSuccess run := by
  refine reached.invariant (fun _ _ => ?_) StoredOnSuccess.step
  intro completion member
  simp [Run.start, Run.completions] at member

/-! ### Following the chain -/

/-- The run starts right above the fork point, on a store that ends there. -/
structure Restarted (chain : Int → String) (fork : Int) (db : DB) (setup : Setup) : Prop where
  clear : ClearFrom (fork + 1) db
  start : setup.runStartBlock = fork + 1
  seeded : setup.seedHash = chain fork

/-- No fetch fails, no episode opens and no store fails. -/
structure Following (chain : Int → String) (fork tip : Int) (db : DB) (run : Run) : Prop where
  holes : run.trace.holes = []
  opened : run.trace.opened = []
  calm : run.ledger.episode = none
  unresolved : run.ledger.rollbackPoint = none
  reached : fork ≤ run.check.lastCheckedNum ∧ run.check.lastCheckedNum ≤ tip
  last : run.check.lastCheckedHash = chain run.check.lastCheckedNum
  succeeded : ∀ completion ∈ run.completions, completion.succeeded = true
  kept : ∀ height, height ≤ fork → blocksAt run.db height = blocksAt db height

/-- A popped block builds on the one before it. -/
theorem Following.continues (following : Following chain fork tip db run)
    (node : NewChain chain served fork tip)
    (items : ItemsSatisfy (OnChain chain served fork tip) run)
    (restarted : Restarted chain fork db run.setup) {popped : BlockResult}
    (located : run.pc = .check popped) (queryFails : Bool) :
    popped.success = true ∧ run.continuityBreak popped queryFails = none := by
  have onChain := items.position popped (by simp [located, Pc.items])
  obtain ⟨success, _, parent⟩ := onChain.facts node
  have start := restarted.start
  obtain ⟨above, below⟩ := following.reached
  refine ⟨success, Option.or_eq_none_iff.mpr ⟨?_, ?_⟩⟩
  · unfold continuitySignal
    rw [if_neg, if_neg]
    · rintro ⟨adjacent, _, _, differs⟩
      exact differs (by rw [parent, following.last, adjacent])
    · rintro ⟨first, _, _, differs⟩
      exact differs (by rw [parent, restarted.seeded, first, start, Int.add_sub_cancel])
  · unfold Run.poppedGapSignal
    rw [if_neg]
    rintro ⟨_, _, _, unknown⟩
    exact node.usable _ above below (following.last ▸ unknown)

theorem Following.keep (following : Following chain fork tip db run)
    (history : next.trace.holes = run.trace.holes ∧ next.trace.opened = run.trace.opened)
    (calm : next.ledger.episode = none)
    (unresolved : next.ledger.rollbackPoint = run.ledger.rollbackPoint)
    (checker : next.check.lastCheckedNum = run.check.lastCheckedNum ∧
      next.check.lastCheckedHash = run.check.lastCheckedHash)
    (completions : ∀ completion ∈ next.completions, completion ∈ run.completions)
    (rows : ∀ height, height ≤ fork → blocksAt next.db height = blocksAt run.db height) :
    Following chain fork tip db next := by
  constructor
  case holes => exact history.1.trans following.holes
  case opened => exact history.2.trans following.opened
  case calm => exact calm
  case unresolved => exact unresolved.trans following.unresolved
  case reached =>
    rw [checker.1]
    exact following.reached
  case last =>
    rw [checker.1, checker.2]
    exact following.last
  case succeeded =>
    exact fun completion member => following.succeeded completion (completions completion member)
  case kept => exact fun height below => (rows height below).trans (following.kept height below)

theorem Following.collect {allowed : CollectMove → Prop}
    (following : Following chain fork tip db run) (known : Known run)
    (node : NewChain chain served fork tip)
    (items : ItemsSatisfy (OnChain chain served fork tip) run)
    (restarted : Restarted chain fork db run.setup) (blocks : OwnBlocks run)
    (step : CollectStep allowed run next) : Following chain fork tip db next := by
  have calm := following.calm
  have completions : ∀ completion ∈ next.completions, completion ∈ run.completions :=
    fun completion => (step.completions completion).mp
  have notWaiting : ∀ {item}, ¬ run.pc.waitsOn item := by
    intro item located
    have active := (known.control.posture.waiting located).2.2.2.1
    simp [calm] at active
  have notFinalizing : ∀ {fin},
      ¬ (run.pc = .drain fin ∨ run.pc = .tail fin ∨ run.pc = .walk fin) := by
    intro fin located
    obtain ⟨_, _, episode, active, _⟩ := known.control.posture.finalizing located
    simp [calm] at active
  cases step with
  | popParked _ _ _ _ _ _ _ active => simp [calm] at active
  | hole popped located failed =>
      have success := (following.continues node items restarted located false).1
      rw [failed] at success
      cases success
  | breaks popped signal queryFails located _ broken =>
      rw [(following.continues node items restarted located queryFails).2] at broken
      cases broken
  | passes popped queryFails located =>
      have onChain := items.position popped (by simp [located, Pc.items])
      exact ⟨following.holes, following.opened, calm, following.unresolved,
        ⟨Int.le_of_lt onChain.above, onChain.below⟩, (onChain.facts node).2.1,
        fun completion member => following.succeeded completion (completions completion member),
        following.kept⟩
  | waitLeaves _ located | waitFails _ _ located => exact absurd located notWaiting
  | confirms _ _ located | reanchors _ _ located | refills _ _ located =>
      exact absurd (.inl located) notWaiting
  | refetches _ _ _ located => exact absurd (.inr located) notWaiting
  | receives completion ledger located arrived applied =>
      exact following.keep ⟨rfl, rfl⟩ (applied.closed rfl calm) applied.rollbackPoint ⟨rfl, rfl⟩
        completions fun _ _ => rfl
  | receivesOpening completion ledger rest located arrived applied =>
      obtain ⟨_, opener, member, stale, _⟩ := applied.opened rest rfl
      have received := known.batch_received arrived opener member
      have verified := blocks.verified opener (completions opener (by
        simp [Run.completions, Run.withoutHeld, received]))
      simp [verified] at stale
  | drainReceives fin _ _ _ located => exact absurd (located.imp_right .inl) notFinalizing
  | drainSettles fin located => exact absurd (.inl located) notFinalizing
  | drainEnds fin located => exact absurd (.inr (.inl located)) notFinalizing
  | concludesPop fin _ _ _ located | concludesBatch fin _ _ _ located
  | concludesOpening fin _ _ _ _ located =>
      exact absurd (.inr (located.imp_left And.left)) notFinalizing
  | _ => exact following.keep ⟨rfl, rfl⟩ calm rfl ⟨rfl, rfl⟩ completions fun _ _ => rfl

theorem Following.pool (following : Following chain fork tip db run) (known : Known run)
    (items : ItemsSatisfy Numbered run) (restarted : Restarted chain fork db run.setup)
    {move : PoolMove}
    (enabled : poolEnabled run.setup.workers run.ledger.ctxDone run.pool run.db move)
    (permitted : StableNode chain served fork tip run (.pool move)) :
    Following chain fork tip db
      { run with
        pool := (poolEffect run.pool run.db move).1
        db := (poolEffect run.pool run.db move).2 } := by
  have succeeded : ∀ completion ∈ Run.completions
      { run with
        pool := (poolEffect run.pool run.db move).1
        db := (poolEffect run.pool run.db move).2 }, completion.succeeded = true := by
    intro completion member
    rcases (pool_completions enabled completion).mp member with old | ⟨_, _, _, rfl, rfl⟩
    · exact following.succeeded completion old
    · exact permitted
  have rows : ∀ height, height ≤ fork →
      blocksAt (poolEffect run.pool run.db move).2 height = blocksAt run.db height := by
    intro height below
    cases move with
    | take | finishStore | report | release => rfl
    | commitBlock item doc =>
        obtain ⟨db, added, effect⟩ := poolEffect_commitBlock enabled
        obtain ⟨member, stores, _⟩ := enabled
        have handed := known.conserved.handed_of_storing member
        have above := (known.handoff.bounds item (List.mem_append_left _ handed)).1
        obtain ⟨block, same, _, located, _⟩ := handed_blockDoc known items handed
        rw [stores, Option.some.injEq] at same
        subst same
        have start := restarted.start
        have elsewhere : ¬ doc.height? = some height := by
          rw [located, Option.some.injEq]
          omega
        simp [effect, blocksAt, docsAt, SoftStore.add_ok_visible added, elsewhere]
    | commitOthers item docs =>
        obtain ⟨db, added, effect⟩ := poolEffect_commitOthers enabled
        simp only [effect]
        exact blocksAt_others enabled.2.1 (SoftStore.addAll_ok_visible added) height
  exact ⟨following.holes, following.opened, following.calm, following.unresolved,
    following.reached, following.last, succeeded,
    fun height below => (rows height below).trans (following.kept height below)⟩

/-- What is known about every state of a run that the stable node serves. -/
structure ServedRun (chain : Int → String) (served : Int → ConversionResult) (fork tip : Int)
    (setup : Setup) (run : Run) : Prop where
  known : Known run
  same : run.setup = setup
  onChain : ItemsSatisfy (OnChain chain served fork tip) run
  numbered : ItemsSatisfy Numbered run
  blocks : OwnBlocks run

theorem RunUnder.servedRun (node : NewChain chain served fork tip)
    (clear : ClearFrom setup.runStartBlock db)
    (reached : RunUnder (StableNode chain served fork tip) setup db run) :
    ServedRun chain served fork tip setup run :=
  have numbered := reached.mono (stableNode_numbered node)
  ⟨reached.known, reached.setup_eq, reached.items stableNode_answers,
    numbered.items numberedNode_answers, numbered.ownBlocks clear⟩

theorem Restarted.clear_setup (restarted : Restarted chain fork db setup) :
    ClearFrom setup.runStartBlock db :=
  restarted.start ▸ restarted.clear

theorem Following.step (node : NewChain chain served fork tip)
    (restarted : Restarted chain fork db setup) (run : Run) (move : Move)
    (run_served : ServedRun chain served fork tip setup run)
    (following : Following chain fork tip db run)
    (enabled : (restricted (StableNode chain served fork tip)).enabled run move) :
    Following chain fork tip db
      ((restricted (StableNode chain served fork tip)).effect run move) := by
  obtain ⟨known, rfl, onChain, items, blocks⟩ := run_served
  cases move with
  | pool move => exact following.pool known items restarted enabled.1 enabled.2
  | collect move =>
      exact following.collect known node onChain restarted blocks (restricted_collect enabled)
  | cancel | dispatch | closeCompletions =>
      exact following.keep ⟨rfl, rfl⟩ following.calm rfl ⟨rfl, rfl⟩ (fun _ member => member)
        fun _ _ => rfl
  | finish =>
      refine following.keep ⟨rfl, rfl⟩ following.calm ?_ ⟨rfl, rfl⟩ (fun _ member => member)
        fun _ _ => rfl
      change Option.map _ _ = _
      rw [following.unresolved]
      rfl

theorem RunUnder.following (node : NewChain chain served fork tip) (long : fork ≤ tip)
    (restarted : Restarted chain fork db setup)
    (reached : RunUnder (StableNode chain served fork tip) setup db run) :
    Following chain fork tip db run := by
  refine reached.invariant_under (fun _ reached => reached.servedRun node restarted.clear_setup)
    (fun _ _ => ?_) (Following.step node restarted)
  have start := restarted.start
  constructor <;> simp [Run.start, Run.completions, start, restarted.seeded, long]

/-! ### What the run leaves in the store -/

/-- Above the fork point only blocks of the new chain are visible. -/
theorem ServedRun.no_orphan (run_served : ServedRun chain served fork tip setup run)
    (node : NewChain chain served fork tip) (start : setup.runStartBlock = fork + 1) {height : Int}
    (above : fork < height) {doc : Doc} (present : doc ∈ blocksAt run.db height) :
    doc.hash = chain height := by
  obtain ⟨known, rfl, onChain, items, blocks⟩ := run_served
  obtain ⟨item, handed, rfl, stores⟩ := blocks.own height (by omega) doc present
  obtain ⟨block, same, _, _, hash, _⟩ := handed_blockDoc known items handed
  rw [stores, Option.some.injEq] at same
  rw [same, hash]
  exact ((onChain.line item (List.mem_append_left _ handed)).facts node).2.1

/-- Up to a height that was called back, every height above the fork point holds
its block of the new chain. -/
theorem Following.filled (following : Following chain fork tip db run)
    (run_served : ServedRun chain served fork tip setup run)
    (node : NewChain chain served fork tip) (start : setup.runStartBlock = fork + 1)
    (stored : StoredOnSuccess run) {last height : Int} (called : last ∈ run.ledger.callbacks)
    (above : fork < height) (below : height ≤ last) :
    getStoredBlockHash run.db height = .ok (chain height) := by
  have noOrphan : ∀ doc ∈ blocksAt run.db height, doc.hash = chain height :=
    fun _ present => run_served.no_orphan node start above present
  obtain ⟨known, rfl, onChain, items, blocks⟩ := run_served
  obtain ⟨top, committed, rfl⟩ := List.mem_map.mp called
  have delivers := known.delivery.delivers
  have gathered := known.delivery.applied.mem (List.mem_append_left _ committed)
  obtain ⟨_, passed⟩ := (delivers.delivered_iff top).mp gathered
  rcases delivers.covered height (by omega) (by omega) with hole | ⟨completion, received, rfl⟩
  · simp [following.holes] at hole
  · have member : completion ∈ run.completions := by simp [Run.completions, received]
    have landed := stored completion member (following.succeeded completion member)
    have handed := known.conserved.handed_of_received received
    obtain ⟨doc, stores, isBlock, located, _⟩ := handed_blockDoc known items handed
    simp only [blockStored, stores, Option.any_some, decide_eq_true_eq] at landed
    have present := mem_blocksAt.mpr ⟨landed, isBlock, located⟩
    rw [getStoredBlockHash, blocks.single.eq_singleton present, ← noOrphan doc present]

end ShinzoGenerator.Indexer
