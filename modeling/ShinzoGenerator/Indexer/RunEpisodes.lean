import ShinzoGenerator.Indexer.RunDelivery

/-! Episodes and the rollback points they resolve to: where the fetched items
of a run come from, what an open episode knows about the chain, and what a
recorded rollback point covers. -/

set_option autoImplicit false

namespace ShinzoGenerator.Indexer

open Chains Defra

variable {allowed : CollectMove → Prop} {run next : Run}

/-! ### Dispatched heights -/

/-- Everything the collector sees was dispatched. -/
structure Bounded (run : Run) : Prop where
  ahead : run.dispatcher.nextBlock = run.dispatcher.dispatchedUpTo + 1
  fetching : ∀ height ∈ run.dispatcher.fetching, height ≤ run.dispatcher.dispatchedUpTo
  results : ∀ result ∈ run.dispatcher.resultChan, result.blockNum ≤ run.dispatcher.dispatchedUpTo
  pending : ∀ height ∈ run.check.pending, height ≤ run.dispatcher.dispatchedUpTo
  popped : run.check.nextToCommit ≤ run.dispatcher.dispatchedUpTo + 1

theorem bounded_start (setup : Setup) (episodeRollbacks : Nat) (heightRollbacks : HeightMap Nat)
    (db : DB) : Bounded (Run.start setup episodeRollbacks heightRollbacks db) := by
  constructor <;> simp [Run.start]

theorem Bounded.dispatch (bounded : Bounded run) {move : DispatchMove}
    (enabled : dispatchEnabled run.setup.workers run.check.nextToCommit run.ledger.ctxDone
      run.dispatcher move) :
    Bounded { run with dispatcher := dispatchEffect run.dispatcher move } := by
  have erased : ∀ {height other}, other ∈ run.dispatcher.fetching.erase height →
      other ≤ run.dispatcher.dispatchedUpTo :=
    fun member => bounded.fetching _ (List.mem_of_mem_erase member)
  cases move with
  | send =>
      have ahead := bounded.ahead
      constructor
      case ahead => rfl
      case fetching =>
        intro height member
        simp only [dispatchEffect] at member ⊢
        rcases List.mem_append.mp member with old | new
        · have := bounded.fetching height old
          omega
        · have := List.mem_singleton.mp new
          omega
      case results =>
        intro result member
        have := bounded.results result member
        simp only [dispatchEffect]
        omega
      case pending =>
        intro height member
        have := bounded.pending height member
        simp only [dispatchEffect]
        omega
      case popped =>
        have := bounded.popped
        simp only [dispatchEffect]
        omega
  | fetched height reply =>
      refine ⟨bounded.ahead, fun _ => erased, ?_, bounded.pending, bounded.popped⟩
      intro result member
      rcases List.mem_append.mp member with old | new
      · exact bounded.results result old
      · rw [List.mem_singleton.mp new, fetchAndConvertBlock_blockNum]
        exact bounded.fetching height enabled.1
  | dropped height => exact ⟨bounded.ahead, fun _ => erased, bounded.results, bounded.pending,
      bounded.popped⟩
  | shutdown | closeResults =>
      exact ⟨bounded.ahead, bounded.fetching, bounded.results, bounded.pending, bounded.popped⟩

theorem Bounded.collect (bounded : Bounded run) (step : CollectStep allowed run next) :
    Bounded next := by
  have pop : ∀ {popped : BlockResult},
      run.check.pending.lookup run.check.nextToCommit = some popped →
      ∀ pc, Bounded { run with check := run.check.popped, pc } := by
    intro popped found pc
    have present : run.check.nextToCommit ∈ run.check.pending := by
      rw [← AList.lookup_isSome, found]
      rfl
    refine ⟨bounded.ahead, bounded.fetching, bounded.results, ?_, ?_⟩
    · intro height member
      exact bounded.pending height (AList.mem_erase.mp member).2
    · have := bounded.pending _ present
      simp only [Checker.popped]
      omega
  cases step with
  | popDropped popped _ _ found | popParked popped _ _ _ found | popChecked popped _ _ found =>
      exact pop found _
  | recvResult result located arrived =>
      obtain ⟨tail, queue⟩ := List.head?_eq_some_iff.mp arrived
      refine ⟨bounded.ahead, bounded.fetching, ?_, ?_, bounded.popped⟩
      · intro other member
        exact bounded.results other (List.mem_of_mem_tail member)
      · intro height member
        rcases (AList.mem_insert _).mp member with rfl | old
        · exact bounded.results result (List.mem_of_head? arrived)
        · exact bounded.pending height old
  | _ => exact ⟨bounded.ahead, bounded.fetching, bounded.results, bounded.pending, bounded.popped⟩

theorem Bounded.step {allowed : Run → Move → Prop} (run : Run) (move : Move)
    (bounded : Bounded run) (enabled : (restricted allowed).enabled run move) :
    Bounded ((restricted allowed).effect run move) := by
  cases move with
  | dispatch move => exact bounded.dispatch enabled.1
  | collect move => exact bounded.collect (restricted_collect enabled)
  | cancel | pool | closeCompletions | finish =>
      exact ⟨bounded.ahead, bounded.fetching, bounded.results, bounded.pending, bounded.popped⟩

theorem RunUnder.bounded {allowed : Run → Move → Prop} {setup : Setup} {db : DB}
    (reached : RunUnder allowed setup db run) : Bounded run :=
  reached.invariant (fun _ _ => bounded_start _ _ _ _) Bounded.step

/-! ### Fetched items -/

/-- The items a position of the collector carries. -/
def Pc.items : Pc → List BlockResult
  | .check item | .resolve item | .refetch item => [item]
  | .drain fin | .tail fin | .walk fin => fin.confirmed.toList
  | _ => []

/-- Every item of the run satisfies a property of fetch answers. -/
structure ItemsSatisfy (good : BlockResult → Prop) (run : Run) : Prop where
  results : ∀ item ∈ run.dispatcher.resultChan, good item
  pending : ∀ height item, run.check.pending.lookup height = some item → good item
  position : ∀ item ∈ run.pc.items, good item
  line : ∀ item ∈ run.line, good item

/-- The answers of the node satisfy the property. -/
structure Answers (good : BlockResult → Prop) (allowed : Run → Move → Prop) : Prop where
  fetched : ∀ run height reply, allowed run (.dispatch (.fetched height reply)) →
    good (fetchAndConvertBlock height reply)
  refetched : ∀ run item reply, allowed run (.collect (.refetched item reply)) →
    good (fetchAndConvertBlock item.blockNum reply)

variable {good : BlockResult → Prop}

theorem Run.afterSelect_items (run : Run) : run.afterSelect.items = [] := by
  rcases run.afterSelect_cases with ⟨same, _⟩ | same <;> simp [same, Pc.items]

theorem ItemsSatisfy.keep (items : ItemsSatisfy good run)
    (results : next.dispatcher.resultChan.Sublist run.dispatcher.resultChan)
    (pending : next.check.pending = run.check.pending)
    (position : next.pc.items ⊆ run.pc.items) (line : next.line.Sublist run.line) :
    ItemsSatisfy good next :=
  ⟨fun item member => items.results item (results.mem member),
    fun height item found => items.pending height item (pending ▸ found),
    fun item member => items.position item (position member),
    fun item member => items.line item (line.mem member)⟩

theorem ItemsSatisfy.pop (items : ItemsSatisfy good run) {popped : BlockResult} (pc : Pc)
    (found : run.check.pending.lookup run.check.nextToCommit = some popped)
    (position : pc.items ⊆ [popped]) :
    ItemsSatisfy good { run with check := run.check.popped, pc } := by
  refine ⟨items.results, fun height item kept => ?_, fun item member => ?_, items.line⟩
  · by_cases same : height = run.check.nextToCommit
    · subst same
      simp [Checker.popped] at kept
    · exact items.pending height item
        (by simpa [Checker.popped, AList.lookup_erase_ne same] using kept)
  · rw [List.mem_singleton.mp (position member)]
    exact items.pending _ _ found

theorem ItemsSatisfy.collect (items : ItemsSatisfy good run)
    (refetched : ∀ item reply, allowed (.refetched item reply) →
      good (fetchAndConvertBlock item.blockNum reply))
    (step : CollectStep allowed run next) : ItemsSatisfy good next := by
  have emptied : (run.trace.handed ++ []).Sublist run.line :=
    (List.Sublist.refl _).append (List.nil_sublist _)
  have selected : run.afterSelect.items ⊆ run.pc.items := by simp [run.afterSelect_items]
  cases step with
  | popDropped popped _ _ found =>
      exact items.pop .hold found (List.nil_subset _)
  | popParked popped _ _ _ found | popChecked popped _ _ found =>
      exact items.pop _ found (List.Subset.refl _)
  | passes popped _ located =>
      refine ⟨items.results, items.pending, (by rintro _ ⟨⟩), fun item member => ?_⟩
      rcases List.mem_append.mp member with old | new
      · exact items.line item (List.mem_append_left _ old)
      · rw [List.mem_singleton.mp new]
        exact items.position popped (by simp [located, Pc.items])
  | confirms item _ located =>
      exact items.keep (.refl _) rfl (by simp [located, Pc.items]) emptied
  | abandons => exact items.keep (.refl _) rfl (List.nil_subset _) emptied
  | closesStore => exact items.keep (.refl _) rfl selected emptied
  | refills item _ located => exact items.keep (.refl _) rfl (by simp [located, Pc.items]) (.refl _)
  | refetches item reply permitted =>
      refine ⟨items.results, items.pending, fun other member => ?_, items.line⟩
      rw [List.mem_singleton.mp member]
      exact refetched item reply permitted
  | recvResult result located arrived =>
      refine ⟨fun item member => items.results item (List.mem_of_mem_tail member), ?_,
        fun item member => items.position item (selected member), items.line⟩
      intro height item found
      by_cases same : height = result.blockNum
      · subst same
        simp only [AList.lookup_insert, Option.some.injEq] at found
        exact found ▸ items.results result (List.mem_of_head? arrived)
      · rw [AList.lookup_insert_ne same] at found
        exact items.pending height item found
  | resultsClosed | completionsClosed =>
      exact items.keep (.refl _) rfl (by simp [Run.afterSelect_items]) (.refl _)
  | sends item located held =>
      refine items.keep (.refl _) rfl selected ?_
      simp [Run.line, held]
  | receives => exact items.keep (.refl _) rfl selected (.refl _)
  | receivesOpening => exact items.keep (.refl _) rfl (List.nil_subset _) emptied
  | drainReceives => exact items.keep (.refl _) rfl (List.Subset.refl _) (.refl _)
  | drainSettles fin located | drainEnds fin located =>
      exact items.keep (.refl _) rfl (by simp [located, Pc.items]) (.refl _)
  | concludesBatch => exact items.keep (.refl _) rfl selected (.refl _)
  | concludesOpening => exact items.keep (.refl _) rfl (List.nil_subset _) emptied
  | _ => exact items.keep (.refl _) rfl (List.nil_subset _) (.refl _)

theorem ItemsSatisfy.step {allowed : Run → Move → Prop} (answers : Answers good allowed)
    (run : Run) (move : Move) (items : ItemsSatisfy good run)
    (enabled : (restricted allowed).enabled run move) :
    ItemsSatisfy good ((restricted allowed).effect run move) := by
  cases move with
  | dispatch move =>
      cases move with
      | fetched height reply =>
          refine ⟨fun item member => ?_, items.pending, items.position, items.line⟩
          rcases List.mem_append.mp member with old | new
          · exact items.results item old
          · rw [List.mem_singleton.mp new]
            exact answers.fetched run height reply enabled.2
      | send | dropped | shutdown | closeResults =>
          exact ⟨items.results, items.pending, items.position, items.line⟩
  | collect move =>
      exact items.collect (answers.refetched run) (restricted_collect enabled)
  | cancel | pool | closeCompletions | finish =>
      exact ⟨items.results, items.pending, items.position, items.line⟩

/-- What the node's answers satisfy, every item of the run satisfies. -/
theorem RunUnder.items {allowed : Run → Move → Prop} {setup : Setup} {db : DB}
    (reached : RunUnder allowed setup db run) (answers : Answers good allowed) :
    ItemsSatisfy good run :=
  reached.invariant (fun _ _ => ⟨by simp [Run.start], by simp [Run.start],
    by simp [Run.start, Pc.items], by simp [Run.start, Run.line]⟩) (ItemsSatisfy.step answers)

/-! ### Open episodes -/

/-- The item's two hashes, when it has both, are a hash and its parent on the node's chain. -/
def Chained (links : String → String → Prop) (item : BlockResult) : Prop :=
  item.hash ≠ "" → item.parentHash ≠ "" → links item.hash item.parentHash

/-- A pop-time episode stands above everything handed over and knows the parent
of its parked block; a stale-pinned one is anchored at a consumed stale height. -/
structure EpisodeOk (links : String → String → Prop) (run : Run) (episode : ReorgEpisode) : Prop where
  parent : episode.stalePinned = false → episode.baseParentHash ≠ ""
  started : episode.stalePinned = false → run.setup.runStartBlock ≤ episode.baseHeight
  popped : episode.stalePinned = false → episode.baseHeight < run.check.nextToCommit
  above : episode.stalePinned = false → ∀ item ∈ run.line, item.blockNum < episode.baseHeight
  chained : episode.stalePinned = false → episode.lastParkedHash ≠ "" →
    links episode.lastParkedHash episode.baseParentHash
  anchored : episode.stalePinned = true → ∃ completion ∈ run.trace.received,
    completion.stale.isSome = true ∧ completion.item.blockNum = episode.staleTopHeight ∧
      completion.item.hash = episode.staleTopHash

def EpisodesOk (links : String → String → Prop) (run : Run) : Prop :=
  ∀ episode, run.ledger.episode = some episode → EpisodeOk links run episode

variable {links : String → String → Prop}

theorem EpisodeOk.keep {episode : ReorgEpisode} (ok : EpisodeOk links run episode)
    (setup : next.setup = run.setup)
    (cursor : run.check.nextToCommit ≤ next.check.nextToCommit)
    (line : next.line.Sublist run.line) (received : run.trace.received ⊆ next.trace.received) :
    EpisodeOk links next episode := by
  constructor
  case parent => exact ok.parent
  case started =>
    rw [setup]
    exact ok.started
  case popped =>
    intro popTime
    have := ok.popped popTime
    omega
  case above => exact fun popTime item member => ok.above popTime item (line.mem member)
  case chained => exact ok.chained
  case anchored =>
    intro stalePinned
    obtain ⟨completion, member, anchor⟩ := ok.anchored stalePinned
    exact ⟨completion, received member, anchor⟩

/-- A stale-pinned episode anchored at a consumed stale height. -/
theorem episodeOk_of_stale {episode : ReorgEpisode} {completion : StoreCompletion}
    (stalePinned : episode.stalePinned = true) (received : completion ∈ run.trace.received)
    (stale : completion.stale.isSome = true)
    (height : episode.staleTopHeight = completion.item.blockNum)
    (hash : episode.staleTopHash = completion.item.hash) : EpisodeOk links run episode := by
  have impossible : ¬ episode.stalePinned = false := by simp [stalePinned]
  exact ⟨fun popTime => absurd popTime impossible, fun popTime => absurd popTime impossible,
    fun popTime => absurd popTime impossible, fun popTime => absurd popTime impossible,
    fun popTime => absurd popTime impossible,
    fun _ => ⟨completion, received, stale, height.symm, hash.symm⟩⟩

/-- What a batch does to the episode, when its completions have been received. -/
theorem EpisodesOk.batch (ok : EpisodesOk links run) {ledger after : Ledger}
    {batch : List StoreCompletion} {rest : Option (List StoreCompletion)} {suppress : Bool}
    (applied : BatchApplied ledger after batch rest suppress)
    (before : ledger.episode = run.ledger.episode ∨ ledger.episode = none)
    (booked : next.ledger = after) (setup : next.setup = run.setup)
    (cursor : run.check.nextToCommit ≤ next.check.nextToCommit)
    (line : next.line.Sublist run.line) (received : run.trace.received ⊆ next.trace.received)
    (sources : ∀ completion ∈ batch, completion ∈ next.trace.received) :
    EpisodesOk links next := by
  subst booked
  intro episode active
  cases previous : ledger.episode with
  | none =>
      cases rest with
      | none =>
          rw [applied.closed rfl previous] at active
          cases active
      | some later =>
          obtain ⟨_, completion, member, stale, found⟩ := applied.opened later rfl
          rw [found, Option.some.injEq] at active
          subst active
          exact episodeOk_of_stale rfl (sources completion member) stale rfl rfl
  | some earlier =>
      obtain ⟨_, raised, found, relation⟩ := applied.kept earlier previous
      rw [found, Option.some.injEq] at active
      subst active
      have old : EpisodeOk links run earlier := by
        rcases before with same | absent
        · exact ok earlier (same ▸ previous)
        · rw [absent] at previous
          cases previous
      cases kind : earlier.stalePinned with
      | false =>
          rw [relation.popTime kind]
          exact old.keep setup cursor line received
      | true =>
          have pinned := relation.stalePinned.trans kind
          rcases relation.anchor with ⟨height, hash⟩ | ⟨completion, member, stale, height, hash⟩
          · obtain ⟨completion, member, stale, sameHeight, sameHash⟩ := old.anchored kind
            exact episodeOk_of_stale pinned (received member) stale (height.trans sameHeight.symm)
              (hash.trans sameHash.symm)
          · exact episodeOk_of_stale pinned (sources completion member) stale height hash

theorem continuityBreak_some {popped : BlockResult} {queryFails : Bool} {signal : ReorgSignal}
    (broken : run.continuityBreak popped queryFails = some signal) :
    signal.chainHash = popped.parentHash ∧ popped.parentHash ≠ "" := by
  rcases Option.or_eq_some_iff.mp broken with direct | ⟨_, gap⟩
  · exact continuitySignal_some direct
  · unfold Run.poppedGapSignal at gap
    split at gap
    · split at gap
      · cases gap
      · split at gap
        · cases gap
        · exact gapFallbackSignal_some gap
    · cases gap

/-- The invariants of a run that do not depend on the node's answers. -/
structure Known (run : Run) : Prop where
  control : Control run
  counted : Counted run
  settling : Settling run
  handoff : Handoff run
  conserved : Conserved run
  delivery : Delivery run
  bounded : Bounded run

theorem RunUnder.known {allowed : Run → Move → Prop} {setup : Setup} {db : DB}
    (reached : RunUnder allowed setup db run) : Known run :=
  ⟨reached.control, reached.counted, reached.settling, reached.handoff, reached.conserved,
    reached.delivery, reached.bounded⟩

/-- The completions a run gathers have been received. -/
theorem Known.gathered_received (known : Known run) {completion : StoreCompletion}
    (member : completion ∈ run.trace.gathered) : completion ∈ run.trace.received :=
  ((known.delivery.delivers.delivered_iff _).mp member).1

theorem Known.batch_received (known : Known run) {completion : StoreCompletion}
    (arrived : run.pool.completionChan.head? = some completion) :
    ∀ other ∈ run.batchOf completion, other ∈ (run.receive completion).trace.received := by
  intro other member
  have delivers := known.delivery.delivers_receive known.handoff known.conserved arrived
  exact ((delivers.delivered_iff other).mp (List.mem_append_right _ member)).1

theorem EpisodesOk.collect (ok : EpisodesOk links run) (known : Known run)
    (items : ItemsSatisfy (Chained links) run) (step : CollectStep allowed run next) :
    EpisodesOk links next := by
  have emptied : (run.trace.handed ++ []).Sublist run.line :=
    (List.Sublist.refl _).append (List.nil_sublist _)
  have same : ∀ {next : Run}, next.ledger.episode = run.ledger.episode →
      next.setup = run.setup → run.check.nextToCommit ≤ next.check.nextToCommit →
      next.line.Sublist run.line → run.trace.received ⊆ next.trace.received →
      EpisodesOk links next :=
    fun unchanged setup cursor line received episode active =>
      (ok episode (unchanged ▸ active)).keep setup cursor line received
  have waiting : ∀ {fin}, (run.pc = .tail fin ∧ run.pool.completionChan = [] ∨
      run.pc = .walk fin) → ∀ completion ∈ fin.rest, completion ∈ run.trace.received := by
    intro fin located completion member
    apply known.gathered_received
    apply known.delivery.applied.mem
    apply List.mem_append_right
    rcases located with ⟨located, _⟩ | located <;> simpa [located, Pc.waitingBatch] using member
  cases step with
  | popDropped | popParked | popChecked =>
      exact same rfl rfl (by simp only [Checker.popped]; omega) (.refl _) (List.Subset.refl _)
  | breaks popped signal _ located _ broken =>
      obtain ⟨chain, usable⟩ := continuityBreak_some broken
      obtain ⟨_, _, _, numbered⟩ := known.control.posture.checking located
      rintro episode ⟨⟩
      constructor
      case parent =>
        intro _
        simpa only [parkedEpisode, chain] using usable
      case started =>
        intro _
        have := (known.handoff.behind popped located).2
        simp only [parkedEpisode, Run.startReorgEpisode, numbered]
        omega
      case popped =>
        intro _
        simp only [parkedEpisode, Run.startReorgEpisode, numbered]
        omega
      case above =>
        intro _ item member
        have := known.handoff.bounds item member
        have := known.handoff.behind popped located
        simp only [parkedEpisode, numbered]
        omega
      case chained =>
        intro _ parked
        simp only [parkedEpisode, chain]
        exact items.position popped (by simp [located, Pc.items]) parked usable
      case anchored => exact fun impossible => by cases impossible
  | passes popped _ located =>
      obtain ⟨_, _, inactive, _⟩ := known.control.posture.checking located
      intro episode active
      rw [show run.ledger.episode = some episode from active] at inactive
      cases inactive
  | waitFails =>
      intro episode active
      cases active
  | reanchors item episode located active usable =>
      obtain ⟨_, _, numbered, _, waits⟩ := known.control.posture.waiting (.inl located)
      obtain ⟨kind, base⟩ := waits episode active
      simp only [BlockResult.usable, Bool.and_eq_true, bne_iff_ne, ne_eq] at usable
      rintro other ⟨⟩
      constructor
      case parent => exact fun _ => usable.2
      case started =>
        intro _
        have := (ok episode active).started kind
        simp only [numbered]
        omega
      case popped =>
        intro _
        simp only [numbered]
        omega
      case above =>
        intro _ other member
        have := (ok episode active).above kind other member
        simp only [numbered]
        omega
      case chained =>
        intro _ parked
        exact items.position item (by simp [located, Pc.items]) parked usable.2
      case anchored =>
        intro pinned
        rw [kind] at pinned
        cases pinned
  | refills item episode located active =>
      rintro other ⟨⟩
      have old := ok episode active
      exact ⟨old.parent, old.started, old.popped, old.above, old.chained, old.anchored⟩
  | confirms | abandons | closesStore =>
      exact same rfl rfl (Int.le_refl _) emptied (List.Subset.refl _)
  | sends item located held =>
      exact same rfl rfl (Int.le_refl _) (by simp [Run.line, held]) (List.Subset.refl _)
  | receives completion ledger located arrived applied =>
      exact ok.batch applied (.inl rfl) rfl rfl (Int.le_refl _) (.refl _)
        (List.subset_append_left _ _) (known.batch_received arrived)
  | receivesOpening completion ledger rest located arrived applied =>
      exact ok.batch applied (.inl rfl) rfl rfl (Int.le_refl _) emptied
        (List.subset_append_left _ _) (known.batch_received arrived)
  | drainReceives fin completion ledger rest located arrived applied =>
      exact ok.batch applied (.inl rfl) rfl rfl (Int.le_refl _) (.refl _)
        (List.subset_append_left _ _) (known.batch_received arrived)
  | concludesPop _ _ _ _ _ _ concluded =>
      intro episode active
      have inactive := concluded.episode_none
      rw [inactive] at active
      cases active
  | concludesBatch fin middle ledger resolved located _ concluded applied =>
      exact ok.batch applied (.inr concluded.episode_none) rfl rfl (Int.le_refl _) (.refl _)
        (List.Subset.refl _) (waiting located)
  | concludesOpening fin middle ledger resolved rest located _ concluded applied =>
      exact ok.batch applied (.inr concluded.episode_none) rfl rfl (Int.le_refl _) emptied
        (List.Subset.refl _) (waiting located)
  | _ => exact same rfl rfl (Int.le_refl _) (.refl _) (List.Subset.refl _)

theorem EpisodesOk.step {allowed : Run → Move → Prop} (run : Run) (move : Move)
    (known : Known run ∧ ItemsSatisfy (Chained links) run) (ok : EpisodesOk links run)
    (enabled : (restricted allowed).enabled run move) :
    EpisodesOk links ((restricted allowed).effect run move) := by
  cases move with
  | collect move => exact ok.collect known.1 known.2 (restricted_collect enabled)
  | cancel | dispatch | pool | closeCompletions | finish =>
      intro episode active
      exact (ok episode active).keep rfl (Int.le_refl _) (.refl _) (List.Subset.refl _)

/-- In a run that the node serves consistently, every open episode is in order. -/
theorem RunUnder.episodes {allowed : Run → Move → Prop} {setup : Setup} {db : DB}
    (reached : RunUnder allowed setup db run) (answers : Answers (Chained links) allowed) :
    EpisodesOk links run :=
  reached.invariant_under (fun _ reached => And.intro reached.known (reached.items answers))
    (by rintro _ _ _ ⟨⟩) EpisodesOk.step

end ShinzoGenerator.Indexer
