import ShinzoGenerator.Indexer.Resume

/-! Recovery from an interrupted rollback. The rollback deletes from the top, so
what it leaves is a shorter fork of the same shape. A new processor either finds
its tip orphaned and rolls the rest back, or starts right above the fork point. -/

set_option autoImplicit false

namespace ShinzoGenerator.Indexer

open Chains Defra

/-! ### The stored fork -/

/-- A contiguous store: the chain's own blocks up to the fork point and orphans
above it, up to the top. -/
structure StoredFork (chain : Int → String) (low fork top : Int) (db : DB) : Prop where
  bottom : 0 ≤ low
  started : low ≤ fork
  reached : fork ≤ top
  single : SingleBlocks db
  usable : ∀ height, low ≤ height → height ≤ fork → chain height ≠ ""
  below : ∀ height, height < low → blocksAt db height = []
  ancestors : ∀ height, low ≤ height → height ≤ fork →
    getStoredBlockHash db height = .ok (chain height)
  orphans : ∀ height, fork < height → height ≤ top → ∃ stored,
    getStoredBlockHash db height = .ok stored ∧ stored ≠ "" ∧ stored ≠ chain height
  above : ∀ height, top < height → blocksAt db height = []

variable {chain : Int → String} {low fork top : Int} {db : DB}

/-- From the bottom to the top every height holds one block with a usable hash. -/
theorem StoredFork.row (stored : StoredFork chain low fork top db) {height : Int}
    (above : low ≤ height) (below : height ≤ top) :
    ∃ row, blocksAt db height = [row] ∧ row.hash ≠ "" ∧
      getStoredBlockHash db height = .ok row.hash := by
  have answered : ∃ hash, getStoredBlockHash db height = .ok hash ∧ hash ≠ "" := by
    by_cases ancestor : height ≤ fork
    · exact ⟨_, stored.ancestors height above ancestor, stored.usable height above ancestor⟩
    · obtain ⟨hash, found, usable, _⟩ := stored.orphans height (by omega) below
      exact ⟨hash, found, usable⟩
  obtain ⟨hash, found, usable⟩ := answered
  obtain ⟨row, rows, rfl⟩ := getStoredBlockHash_stored found usable
  exact ⟨row, rows, usable, found⟩

theorem StoredFork.rows_bounded (stored : StoredFork chain low fork top db) {height : Int}
    {doc : Doc} (present : doc ∈ blocksAt db height) : low ≤ height ∧ height ≤ top := by
  constructor
  · by_contra under
    simp [stored.below height (by omega)] at present
  · by_contra beyond
    simp [stored.above height (by omega)] at present

theorem StoredFork.clearFrom (stored : StoredFork chain low fork top db) :
    ClearFrom (top + 1) db := by
  refine ⟨stored.single, fun height doc present => ?_, fun height beyond =>
    stored.above height (by omega)⟩
  obtain ⟨above, below⟩ := stored.rows_bounded present
  obtain ⟨row, rows, usable, _⟩ := stored.row above below
  rw [rows, List.mem_singleton] at present
  exact present ▸ usable

/-- The height a process that finds this store resumes from. -/
theorem StoredFork.highest (stored : StoredFork chain low fork top db) :
    getHighestStoredBlockNumber false db = .ok top := by
  have bottom := stored.bottom
  have started := stored.started
  have reached := stored.reached
  have largest : (blockNumbers db).max? = some top := by
    refine List.max?_eq_some_iff.mpr ⟨?_, ?_⟩
    · obtain ⟨row, rows, _⟩ := stored.row (show low ≤ top by omega) (Int.le_refl _)
      exact mem_blockNumbers.mpr ⟨by omega, row, by simp [rows]⟩
    · intro number member
      obtain ⟨_, doc, present⟩ := mem_blockNumbers.mp member
      exact (stored.rows_bounded present).2
  simp [getHighestStoredBlockNumber, largest]

/-- Every height between the fork point and the top is an orphan for the roller. -/
theorem StoredFork.orphan (stored : StoredFork chain low fork top db)
    {chainHashes : HeightMap String} {height : Int} (above : fork < height) (below : height ≤ top)
    (usable : chain height ≠ "") (verified : chainHashes.lookup height = some (chain height)) :
    Orphan db chainHashes height := by
  obtain ⟨hash, found, present, differs⟩ := stored.orphans height above below
  exact ⟨chain height, hash, verified, usable, found, present, differs⟩

/-- An interrupted rollback of the orphans leaves a fork that is only shorter. -/
theorem StoredFork.interrupted (stored : StoredFork chain low fork top db)
    {chainHashes : HeightMap String}
    (usable : ∀ height, fork < height → height ≤ top → chain height ≠ "")
    (verified : ∀ height, fork < height → height ≤ top →
      chainHashes.lookup height = some (chain height)) (budget : Nat) :
    ∃ remaining ≤ top, StoredFork chain low fork remaining
      (leftBy (rollbackBlocks (fork + 1) top chainHashes budget db)) := by
  obtain ⟨removed, left⟩ := rollbackBlocks_left stored.single (fork + 1) top chainHashes budget
  have visible := left.visible
  generalize leftBy (rollbackBlocks (fork + 1) top chainHashes budget db) = rest at visible ⊢
  have started := stored.started
  have reached := stored.reached
  have bottom := stored.bottom
  have single : SingleBlocks rest := stored.single.of_removed visible
  have spared : ∀ {height doc}, height ≤ fork → doc ∈ blocksAt db height → doc ∉ removed := by
    intro height doc under present gone
    obtain ⟨_, _, other, listed, located, _⟩ := left.condemned doc gone
    rw [(mem_blocksAt.mp present).2.2, Option.some.injEq] at located
    have := (mem_descending.mp listed).1
    omega
  have kept : ∀ {height row}, blocksAt db height = [row] → row ∉ removed →
      getStoredBlockHash rest height = getStoredBlockHash db height := by
    intro height row rows remains
    have present := (mem_blocksAt_removed visible).mpr ⟨rows ▸ List.mem_singleton.mpr rfl, remains⟩
    exact getStoredBlockHash_congr ((single.eq_singleton present).trans rows.symm)
  -- the highest block that is left
  obtain ⟨forkRow, forkRows, _⟩ := stored.row started reached
  have forkAt : forkRow ∈ blocksAt db fork := forkRows ▸ List.mem_singleton.mpr rfl
  have forkLeft := (mem_blocksAt_removed visible).mpr ⟨forkAt, spared (Int.le_refl _) forkAt⟩
  have someNumber : fork ∈ blockNumbers rest := mem_blockNumbers.mpr ⟨by omega, forkRow, forkLeft⟩
  obtain ⟨remaining, largest⟩ := Option.isSome_iff_exists.mp
    (List.isSome_max?_of_mem someNumber)
  obtain ⟨member, maximal⟩ := List.max?_eq_some_iff.mp largest
  obtain ⟨_, topRow, topLeft⟩ := mem_blockNumbers.mp member
  obtain ⟨topAt, topKept⟩ := (mem_blocksAt_removed visible).mp topLeft
  have within := (stored.rows_bounded topAt).2
  have beyond := maximal fork someNumber
  refine ⟨remaining, within, bottom, started, beyond, single, stored.usable, ?_, ?_, ?_, ?_⟩
  · intro height under
    refine List.eq_nil_iff_forall_not_mem.mpr fun doc present => ?_
    have before := ((mem_blocksAt_removed visible).mp present).1
    simp [stored.below height under] at before
  · intro height above below
    obtain ⟨row, rows, _⟩ := stored.row above (by omega)
    rw [kept rows (spared below (rows ▸ List.mem_singleton.mpr rfl))]
    exact stored.ancestors height above below
  · intro height above below
    obtain ⟨row, rows, _⟩ := stored.row (by omega) (by omega : height ≤ top)
    have rowAt : row ∈ blocksAt db height := rows ▸ List.mem_singleton.mpr rfl
    have remains : row ∉ removed := by
      intro gone
      by_cases isTop : height = remaining
      · subst isTop
        exact topKept (stored.single.unique topAt rowAt ▸ gone)
      · -- the heights above were deleted first, and the highest one is still there
        obtain ⟨present, isBlock, located⟩ := mem_blocksAt.mp topAt
        exact topKept (descending_pairwise left.sequential (by omega) (by omega) within
          ⟨row, gone, (mem_blocksAt.mp rowAt).2.2⟩ topRow present
          (by simp [isBlock, blockScoped]) located (stored.orphan (by omega) within
            (usable _ (by omega) within) (verified _ (by omega) within)))
    rw [kept rows remains]
    exact stored.orphans height above (by omega)
  · intro height past
    refine List.eq_nil_iff_forall_not_mem.mpr fun doc present => ?_
    by_cases negative : height < 0
    · omega
    · have := maximal height (mem_blockNumbers.mpr ⟨by omega, doc, present⟩)
      omega

/-! ### The node -/

/-- The new chain's blocks above the fork point, as the converter makes them. -/
structure NewChain (chain : Int → String) (served : Int → ConversionResult) (fork tip : Int) :
    Prop where
  usable : ∀ height, fork ≤ height → height ≤ tip → chain height ≠ ""
  numbered : ∀ height, fork < height → height ≤ tip →
    Numbered (fetchAndConvertBlock height (.ok (served height)))
  hash : ∀ height, fork < height → height ≤ tip →
    extractBlockHash (served height).groups = chain height
  parentHash : ∀ height, fork < height → height ≤ tip →
    extractBlockParentHash (served height).groups = chain (height - 1)

/-- Header lookups by hash answer along the chain, and the finalized height is reported. -/
structure HonestOracle (chain : Int → String) (fork tip : Int) (oracle : WalkOracle) : Prop where
  finalized : oracle.finalizedKnown = true
  queries : ∀ height, oracle.queryFails height = false
  headers : ∀ height depth, fork < height → height ≤ tip →
    oracle.header depth (chain height) = .ok (chain (height - 1))

/-- The node stably serves the new chain, and every store succeeds. -/
def StableNode (chain : Int → String) (served : Int → ConversionResult) (fork tip : Int)
    (_ : Run) : Move → Prop
  | .dispatch (.fetched height reply) =>
      fork < height ∧ height ≤ tip ∧ reply = .ok (served height)
  | .collect (.refetched item reply) =>
      fork < item.blockNum ∧ item.blockNum ≤ tip ∧ reply = .ok (served item.blockNum)
  | .collect (.walk _ _ oracle) => HonestOracle chain fork tip oracle
  | .pool (.finishStore _ computed _) => computed.isOk = true
  | _ => True

variable {served : Int → ConversionResult} {tip : Int} {run next : Run} {setup : Setup}

/-- The item is the chain's block at its height. -/
structure OnChain (chain : Int → String) (served : Int → ConversionResult) (fork tip : Int)
    (item : BlockResult) : Prop where
  above : fork < item.blockNum
  below : item.blockNum ≤ tip
  same : item = fetchAndConvertBlock item.blockNum (.ok (served item.blockNum))

theorem OnChain.facts {item : BlockResult} (node : NewChain chain served fork tip)
    (onChain : OnChain chain served fork tip item) :
    item.success = true ∧ item.hash = chain item.blockNum ∧
      item.parentHash = chain (item.blockNum - 1) := by
  have hash := node.hash _ onChain.above onChain.below
  have parentHash := node.parentHash _ onChain.above onChain.below
  rw [onChain.same]
  exact ⟨rfl, hash, parentHash⟩

theorem stableNode_answers :
    Answers (OnChain chain served fork tip) (StableNode chain served fork tip) := by
  constructor
  · rintro run height reply ⟨above, below, rfl⟩
    exact ⟨above, below, rfl⟩
  · rintro run item reply ⟨above, below, rfl⟩
    exact ⟨above, below, rfl⟩

theorem stableNode_numbered (node : NewChain chain served fork tip) (run : Run) (move : Move)
    (permitted : StableNode chain served fork tip run move) : NumberedNode run move := by
  unfold StableNode at permitted
  unfold NumberedNode
  split
  · obtain ⟨above, below, rfl⟩ := permitted
    exact node.numbered _ above below
  · obtain ⟨above, below, rfl⟩ := permitted
    exact node.numbered _ above below
  · trivial

/-! ### The first run: an orphan is still visible -/

/-- The run starts above an orphan, which the chain's next block does not build on. -/
structure OrphanedTip (chain : Int → String) (low fork top : Int) (db : DB) (setup : Setup) :
    Prop where
  stored : StoredFork chain low fork top db
  orphaned : fork < top
  start : setup.runStartBlock = top + 1
  configured : setup.configuredStart = top + 1
  seeded : setup.seedHash ≠ ""
  differs : setup.seedHash ≠ chain top

/-- Nothing is handed over, and an episode stands on the new chain. -/
structure Halted (chain : Int → String) (fork tip : Int) (db : DB) (run : Run) : Prop where
  line : run.line = []
  holes : run.trace.holes = []
  untouched : run.db = db
  uncommitted : run.ledger.committedHashes = ∅
  popTime : ∀ episode, run.ledger.episode = some episode → episode.stalePinned = false
  parent : ∀ episode, run.ledger.episode = some episode →
    episode.baseParentHash = chain (episode.baseHeight - 1)
  height : ∀ episode, run.ledger.episode = some episode →
    run.setup.runStartBlock ≤ episode.baseHeight ∧ episode.baseHeight ≤ tip
  point : ∀ point, run.ledger.rollbackPoint = some point → point.forkPoint = fork

theorem Halted.handed (halted : Halted chain fork tip db run) : run.trace.handed = [] :=
  (List.append_eq_nil_iff.mp halted.line).1

/-- The pool has nothing to do. -/
theorem Halted.idle (halted : Halted chain fork tip db run) (conserved : Conserved run) :
    run.pool.items = [] ∧ run.trace.received = [] := by
  have none := conserved.length_eq
  rw [halted.handed, List.length_nil, List.length_eq_zero_iff, List.append_eq_nil_iff,
    List.map_eq_nil_iff] at none
  exact none

/-- The first popped block is the run's first one, and it breaks with the seed. -/
theorem Halted.breaks (halted : Halted chain fork tip db run) (known : Known run)
    (node : NewChain chain served fork tip)
    (items : ItemsSatisfy (OnChain chain served fork tip) run)
    (orphaned : OrphanedTip chain low fork top db run.setup) {popped : BlockResult}
    (located : run.pc = .check popped) (queryFails : Bool) :
    popped.blockNum = run.setup.runStartBlock ∧ popped.success = true ∧
      run.continuityBreak popped queryFails =
        some ⟨popped.blockNum - 1, run.setup.seedHash, chain top⟩ := by
  have onChain := items.position popped (by simp [located, Pc.items])
  obtain ⟨success, _, parent⟩ := onChain.facts node
  obtain ⟨_, _, _, numbered⟩ := known.control.posture.checking located
  obtain ⟨_, started⟩ := known.handoff.behind popped located
  have first : popped.blockNum = run.setup.runStartBlock := by
    by_contra later
    rcases known.handoff.checking popped located run.setup.runStartBlock (Int.le_refl _)
      (by omega) with hole | ⟨item, inLine, _⟩
    · simp [halted.holes] at hole
    · simp [halted.line] at inLine
  have start := orphaned.start
  have predecessor : popped.parentHash = chain top := by
    rw [parent, first, start, Int.add_sub_cancel]
  have usable : chain top ≠ "" := by
    have := onChain.below
    have := orphaned.orphaned
    exact node.usable top (by omega) (by omega)
  refine ⟨first, success, ?_⟩
  have broken : continuitySignal run.setup.runStartBlock run.setup.seedHash
      run.check.lastCheckedNum run.check.lastCheckedHash popped =
      some ⟨popped.blockNum - 1, run.setup.seedHash, popped.parentHash⟩ := by
    unfold continuitySignal
    rw [if_pos ⟨first, orphaned.seeded, predecessor ▸ usable,
      predecessor ▸ orphaned.differs.symm⟩]
  rw [Run.continuityBreak, broken, predecessor]
  rfl

/-- The walk-back of an honest node over the stored fork. -/
theorem StoredFork.walkable (stored : StoredFork chain low fork top db)
    (node : NewChain chain served fork tip) {oracle : WalkOracle}
    (honest : HonestOracle chain fork tip oracle) (untouched : run.db = db)
    (configured : run.setup.configuredStart ≤ top + 1) {anchor : Int} (below : anchor ≤ tip) :
    Walkable (run.walkView oracle) chain fork anchor := by
  have answers : ∀ height, (run.walkView oracle).stored height = getStoredBlockHash db height := by
    intro height
    simp [Run.walkView, queryStoredHash, honest.queries, untouched]
  have bottom := stored.bottom
  have started := stored.started
  constructor
  case bottom => omega
  case finalized => exact honest.finalized
  case usable => exact fun height above under => node.usable height above (by omega)
  case served => exact fun height depth above under => honest.headers height depth above (by omega)
  case orphaned =>
    intro height above under
    rw [answers]
    by_cases orphan : height ≤ top
    · obtain ⟨hash, found, present, differs⟩ := stored.orphans height above orphan
      exact ⟨hash, found, differs, fun empty => absurd empty present⟩
    · refine ⟨"", ?_, (node.usable height (by omega) (by omega)).symm, fun _ => ?_⟩
      · simp [getStoredBlockHash, stored.above height (by omega)]
      · change run.setup.configuredStart ≤ height
        omega
  case ancestor =>
    rw [answers]
    exact stored.ancestors fork started (Int.le_refl _)

/-- The walk-back of the first run's episode ends at the fork point. -/
theorem Halted.walks (halted : Halted chain fork tip db run)
    (node : NewChain chain served fork tip)
    (orphaned : OrphanedTip chain low fork top db run.setup) {episode : ReorgEpisode}
    (active : run.ledger.episode = some episode) {oracle : WalkOracle}
    (honest : HonestOracle chain fork tip oracle) :
    ∃ chainHashes, resolveForkPoint (run.walkView oracle) episode.anchor.1 episode.anchor.2 =
      .ok (fork, chainHashes) := by
  have popTime := halted.popTime episode active
  have parent := halted.parent episode active
  obtain ⟨above, below⟩ := halted.height episode active
  have start := orphaned.start
  have configured := orphaned.configured
  have beyond := orphaned.orphaned
  simp only [ReorgEpisode.anchor, popTime, Bool.false_eq_true, if_false, parent]
  have walkable : Walkable (run.walkView oracle) chain fork (episode.baseHeight - 1) :=
    orphaned.stored.walkable node honest halted.untouched (by omega) (by omega)
  exact resolveForkPoint_reaches walkable (by omega)

theorem Halted.keep (halted : Halted chain fork tip db run) (setup : next.setup = run.setup)
    (line : next.line = []) (holes : next.trace.holes = run.trace.holes)
    (untouched : next.db = run.db)
    (committedHashes : next.ledger.committedHashes = run.ledger.committedHashes)
    (episode : next.ledger.episode = run.ledger.episode ∨ next.ledger.episode = none)
    (point : next.ledger.rollbackPoint = run.ledger.rollbackPoint) :
    Halted chain fork tip db next := by
  have before : ∀ {other}, next.ledger.episode = some other →
      run.ledger.episode = some other := by
    intro other active
    rcases episode with same | gone
    · exact same ▸ active
    · rw [gone] at active
      cases active
  refine ⟨line, holes.trans halted.holes, untouched.trans halted.untouched,
    committedHashes.trans halted.uncommitted, fun other active => halted.popTime other (before active),
    fun other active => halted.parent other (before active), ?_, ?_⟩
  · rw [setup]
    exact fun other active => halted.height other (before active)
  · rw [point]
    exact halted.point

theorem Halted.collect {allowed : CollectMove → Prop} (halted : Halted chain fork tip db run)
    (known : Known run) (node : NewChain chain served fork tip)
    (items : ItemsSatisfy (OnChain chain served fork tip) run)
    (orphaned : OrphanedTip chain low fork top db run.setup)
    (permitted : ∀ fin episode oracle, allowed (.walk fin episode oracle) →
      HonestOracle chain fork tip oracle)
    (step : CollectStep allowed run next) : Halted chain fork tip db next := by
  obtain ⟨idle, _⟩ := halted.idle known.conserved
  have unread : run.pool.completionChan = [] := by
    simp only [Pool.items, List.append_eq_nil_iff, List.map_eq_nil_iff] at idle
    exact idle.2
  have noStale : ∀ {fin}, (run.pc = .tail fin ∧ run.pool.completionChan = [] ∨
      run.pc = .walk fin) → fin.confirmed ≠ none := by
    intro fin located unconfirmed
    obtain ⟨_, _, episode, active, finalizing⟩ := known.control.posture.finalizing
      (located.elim (fun at_tail => .inr (.inl at_tail.1)) fun at_walk => .inr (.inr at_walk))
    have kind := finalizing.kind
    rw [halted.popTime episode active, unconfirmed] at kind
    cases kind
  cases step with
  | hole popped located failed =>
      have onChain := items.position popped (by simp [located, Pc.items])
      rw [(onChain.facts node).1] at failed
      cases failed
  | passes popped queryFails located _ passed =>
      rw [(halted.breaks known node items orphaned located queryFails).2.2] at passed
      cases passed
  | breaks popped signal queryFails located _ broken =>
      obtain ⟨first, _, signalled⟩ := halted.breaks known node items orphaned located queryFails
      rw [signalled, Option.some.injEq] at broken
      have onChain := items.position popped (by simp [located, Pc.items])
      have start := orphaned.start
      refine ⟨halted.line, halted.holes, halted.untouched, halted.uncommitted, ?_, ?_, ?_,
        halted.point⟩
      · rintro episode ⟨⟩
        rfl
      · rintro episode ⟨⟩
        simp only [parkedEpisode, ← broken, first, start, Int.add_sub_cancel]
      · rintro episode ⟨⟩
        exact ⟨by simp only [parkedEpisode, Run.startReorgEpisode, first]; omega, onChain.below⟩
  | reanchors item episode located active =>
      have onChain := items.position item (by simp [located, Pc.items])
      obtain ⟨_, _, numbered, _, waits⟩ := known.control.posture.waiting (.inl located)
      have base := (waits episode active).2
      have above := (halted.height episode active).1
      have popTime := halted.popTime episode active
      refine ⟨halted.line, halted.holes, halted.untouched, halted.uncommitted, ?_, ?_, ?_,
        halted.point⟩
      · rintro other ⟨⟩
        exact popTime
      · rintro other ⟨⟩
        exact (onChain.facts node).2.2
      · rintro other ⟨⟩
        exact ⟨by simp only; omega, onChain.below⟩
  | refills item episode located active =>
      refine ⟨halted.line, halted.holes, halted.untouched, halted.uncommitted, ?_, ?_, ?_,
        halted.point⟩
      · rintro other ⟨⟩
        exact halted.popTime episode active
      · rintro other ⟨⟩
        exact halted.parent episode active
      · rintro other ⟨⟩
        exact halted.height episode active
  | receives _ _ _ arrived | receivesOpening _ _ _ _ arrived | drainReceives _ _ _ _ _ arrived =>
      simp [unread] at arrived
  | sends item located held =>
      have inLine : item ∈ run.line := by simp [Run.line, held]
      simp [halted.line] at inLine
  | concludesPop fin confirmed ledger resolved located _ concluded =>
      cases concluded with
      | abandoned | failed => exact halted.keep rfl halted.line rfl rfl rfl (.inr rfl) rfl
      | resolved episode oracle forkPoint chainHashes allowing _ active walked =>
          obtain ⟨hashes, reaches⟩ := halted.walks node orphaned active
            (permitted fin episode oracle allowing)
          rw [reaches, Except.ok.injEq, Prod.mk.injEq] at walked
          refine ⟨halted.line, halted.holes, halted.untouched, halted.uncommitted, (by intros; contradiction), (by intros; contradiction),
            (by intros; contradiction), ?_⟩
          rintro point ⟨⟩
          exact walked.1.symm
  | concludesBatch fin _ _ _ located unconfirmed
  | concludesOpening fin _ _ _ _ located unconfirmed => exact absurd unconfirmed (noStale located)
  | waitFails => exact halted.keep rfl halted.line rfl rfl rfl (.inr rfl) rfl
  | confirms | abandons | closesStore =>
      exact halted.keep rfl (by simp [Run.line, Run.withoutHeld, halted.handed]) rfl rfl rfl
        (.inl rfl) rfl
  | _ => exact halted.keep rfl halted.line rfl rfl rfl (.inl rfl) rfl

theorem Halted.step (node : NewChain chain served fork tip)
    (orphaned : OrphanedTip chain low fork top db setup) (run : Run) (move : Move)
    (known : Known run ∧ ItemsSatisfy (OnChain chain served fork tip) run ∧ run.setup = setup)
    (halted : Halted chain fork tip db run)
    (enabled : (restricted (StableNode chain served fork tip)).enabled run move) :
    Halted chain fork tip db
      ((restricted (StableNode chain served fork tip)).effect run move) := by
  obtain ⟨known, items, same⟩ := known
  subst same
  cases move with
  | pool move =>
      have idle := (halted.idle known.conserved).1
      simp only [Pool.items, List.append_eq_nil_iff, List.map_eq_nil_iff] at idle
      cases move with
      | take | release => exact halted.keep rfl halted.line rfl rfl rfl (.inl rfl) rfl
      | commitBlock | commitOthers | finishStore =>
          have storing := enabled.1.1
          simp [idle.1.1.2] at storing
      | report =>
          have reporting := enabled.1.1
          simp [idle.1.2] at reporting
  | collect move =>
      exact halted.collect known node items orphaned (fun _ _ _ permitted => permitted)
        (restricted_collect enabled)
  | cancel | dispatch | closeCompletions =>
      exact halted.keep rfl halted.line rfl rfl rfl (.inl rfl) rfl
  | finish =>
      refine ⟨halted.line, halted.holes, halted.untouched, halted.uncommitted, halted.popTime,
        halted.parent, halted.height, ?_⟩
      intro point recorded
      change Option.map _ _ = some point at recorded
      obtain ⟨before, found, rfl⟩ := Option.map_eq_some_iff.mp recorded
      exact halted.point before found

theorem RunUnder.halted (node : NewChain chain served fork tip)
    (orphaned : OrphanedTip chain low fork top db setup)
    (reached : RunUnder (StableNode chain served fork tip) setup db run) :
    Halted chain fork tip db run := by
  refine reached.invariant_under
    (fun _ reached => ⟨reached.known, reached.items stableNode_answers, reached.setup_eq⟩)
    (fun _ _ => ?_) (Halted.step node orphaned)
  constructor <;> simp [Run.start, Run.line]

end ShinzoGenerator.Indexer
