import ShinzoGenerator.Indexer.RunHandoff

/-! The completions of a run: nothing handed to the pool is lost or duplicated,
completions apply in height order, and the callback fires for exactly the
stores that succeeded. -/

set_option autoImplicit false

namespace ShinzoGenerator.Indexer

open Defra

variable {allowed : CollectMove → Prop} {run next : Run}

/-! ### Conservation -/

/-- The handed items whose completion has not been received. -/
def Pool.items (pool : Pool) : List BlockResult :=
  pool.storeChan ++ pool.storing ++ pool.reporting.map (·.item) ++
    pool.completionChan.map (·.item)

/-- Every handed item is in one place of the pool or its completion was received. -/
def Conserved (run : Run) : Prop :=
  (run.pool.items ++ run.trace.received.map (·.item)).Perm run.trace.handed

theorem Conserved.pool (conserved : Conserved run) {move : PoolMove}
    (enabled : poolEnabled run.setup.workers run.ledger.ctxDone run.pool run.db move) :
    Conserved
      { run with
        pool := (poolEffect run.pool run.db move).1
        db := (poolEffect run.pool run.db move).2 } := by
  refine List.Perm.trans (List.Perm.append_right _ (List.perm_iff_count.mpr fun other => ?_))
    conserved
  cases move with
  | take item =>
      obtain ⟨tail, queue⟩ := List.head?_eq_some_iff.mp enabled.1
      simp only [poolEffect, Pool.items, queue, List.tail_cons, List.count_append,
        List.count_cons, List.count_nil]
      omega
  | commitBlock | commitOthers | release => rfl
  | finishStore item computed queryFails =>
      have moved := (List.perm_cons_erase enabled.1).count_eq other
      simp only [poolEffect, Pool.items, runStoreTask, List.map_append, List.map_cons,
        List.map_nil, List.count_append, List.count_cons, List.count_nil] at moved ⊢
      omega
  | report completion =>
      have moved := ((List.perm_cons_erase enabled.1).map (·.item)).count_eq other
      simp only [poolEffect, Pool.items, List.map_append, List.map_cons, List.map_nil,
        List.count_append, List.count_cons, List.count_nil] at moved ⊢
      omega

/-- Receiving a completion moves its item out of the pool. -/
theorem Conserved.receive (conserved : Conserved run) {completion : StoreCompletion}
    (arrived : run.pool.completionChan.head? = some completion) :
    Conserved (run.receive completion) := by
  obtain ⟨tail, queue⟩ := List.head?_eq_some_iff.mp arrived
  refine List.Perm.trans (List.perm_iff_count.mpr fun other => ?_) conserved
  simp only [Run.receive, Pool.items, queue, List.tail_cons, List.map_append, List.map_cons,
    List.map_nil, List.count_append, List.count_cons, List.count_nil]
  omega

theorem Conserved.collect (conserved : Conserved run) (step : CollectStep allowed run next) :
    Conserved next := by
  cases step with
  | sends item =>
      refine List.perm_iff_count.mpr fun other => ?_
      have before := conserved.count_eq other
      simp only [Pool.items, List.count_append, List.count_cons, List.count_nil] at before ⊢
      omega
  | receives completion _ _ arrived | receivesOpening completion _ _ _ arrived
  | drainReceives _ completion _ _ _ arrived => exact conserved.receive arrived
  | _ => exact conserved

theorem Conserved.step {allowed : Run → Move → Prop} (run : Run) (move : Move)
    (conserved : Conserved run) (enabled : (restricted allowed).enabled run move) :
    Conserved ((restricted allowed).effect run move) := by
  cases move with
  | cancel | dispatch | closeCompletions | finish => exact conserved
  | pool move => exact conserved.pool enabled.1
  | collect move => exact conserved.collect (restricted_collect enabled)

theorem RunUnder.conserved {allowed : Run → Move → Prop} {setup : Setup} {db : DB}
    (reached : RunUnder allowed setup db run) : Conserved run :=
  reached.invariant (fun _ _ => .refl _) Conserved.step

theorem Conserved.handed_of_pool (conserved : Conserved run) {item : BlockResult}
    (member : item ∈ run.pool.items) : item ∈ run.trace.handed :=
  conserved.mem_iff.mp (List.mem_append_left _ member)

theorem Conserved.handed_of_storing (conserved : Conserved run) {item : BlockResult}
    (member : item ∈ run.pool.storing) : item ∈ run.trace.handed :=
  conserved.handed_of_pool (by simp [Pool.items, member])

theorem Conserved.handed_of_received (conserved : Conserved run) {completion : StoreCompletion}
    (member : completion ∈ run.trace.received) : completion.item ∈ run.trace.handed :=
  conserved.mem_iff.mp (List.mem_append_right _ (List.mem_map_of_mem member))

/-- The places of the pool and the received completions hold pairwise different heights. -/
theorem Conserved.heights (conserved : Conserved run) (handoff : Handoff run) :
    ((run.pool.items ++ run.trace.received.map (·.item)).map (·.blockNum)).Nodup := by
  rw [(conserved.map _).nodup_iff]
  exact handoff.heights

/-! ### Ordered apply -/

/-- The rest of a batch that waits behind an episode. -/
def Pc.waitingBatch : Pc → List StoreCompletion
  | .drain fin | .tail fin | .walk fin => fin.rest
  | _ => []

/-- The run has not opened a stale-pinned episode. -/
def NoStaleEpisode (run : Run) : Prop :=
  ∀ episode ∈ run.trace.opened, episode.stalePinned = false

structure Delivery (run : Run) : Prop where
  delivers : ReorderBuffer.Delivers (fun completion => completion.item.blockNum)
    run.setup.runStartBlock run.trace.received run.trace.holes run.trace.gathered run.buffer
  waiting : ∀ parked, parked ∈ run.buffer.parked → run.buffer.Waiting
  applied : (run.ledger.committed ++ run.pc.waitingBatch).Sublist run.trace.gathered
  succeeded : ∀ completion ∈ run.ledger.committed, completion.succeeded = true
  stale : ∀ fin, run.pc = .drain fin ∨ run.pc = .tail fin ∨ run.pc = .walk fin →
    fin.confirmed = none → ¬ NoStaleEpisode run
  complete : NoStaleEpisode run → run.ledger.fatalErr = none →
    run.ledger.committed = run.trace.gathered.filter StoreCompletion.succeeded

theorem delivery_start (setup : Setup) (episodeRollbacks : Nat) (heightRollbacks : HeightMap Nat)
    (db : DB) : Delivery (Run.start setup episodeRollbacks heightRollbacks db) := by
  constructor
  case delivers => exact ReorderBuffer.delivers_start _ _
  case waiting =>
    intro parked present
    simp [Run.start, ReorderBuffer.start] at present
  all_goals simp [Run.start, Pc.waitingBatch]

/-- A move that neither receives a completion nor books one. -/
theorem Delivery.keep (delivery : Delivery run) (setup : next.setup = run.setup)
    (buffer : next.buffer = run.buffer)
    (history : next.trace.received = run.trace.received ∧ next.trace.holes = run.trace.holes ∧
      next.trace.gathered = run.trace.gathered)
    (committed : next.ledger.committed = run.ledger.committed)
    (batch : next.pc.waitingBatch.Sublist run.pc.waitingBatch)
    (opened : NoStaleEpisode next → NoStaleEpisode run)
    (fatal : next.ledger.fatalErr = none → run.ledger.fatalErr = none)
    (stale : ∀ fin, next.pc = .drain fin ∨ next.pc = .tail fin ∨ next.pc = .walk fin →
      fin.confirmed = none → ¬ NoStaleEpisode next) : Delivery next := by
  constructor
  case delivers =>
    rw [setup, buffer, history.1, history.2.1, history.2.2]
    exact delivery.delivers
  case waiting => rw [buffer]; exact delivery.waiting
  case applied =>
    rw [committed, history.2.2]
    exact ((List.Sublist.refl _).append batch).trans delivery.applied
  case succeeded => rw [committed]; exact delivery.succeeded
  case stale => exact stale
  case complete =>
    intro none clean
    rw [committed, history.2.2]
    exact delivery.complete (opened none) (fatal clean)

theorem Delivery.hole (delivery : Delivery run) (handoff : Handoff run) (posture : Posture run)
    (conserved : Conserved run) {popped : BlockResult} (located : run.pc = .check popped) :
    Delivery
      { run with
        check := { run.check with lastCheckedNum := popped.blockNum, lastCheckedHash := "" }
        buffer := run.buffer.skip popped.blockNum
        trace := { run.trace with holes := run.trace.holes ++ [popped.blockNum] }
        pc := .hold } := by
  obtain ⟨_, _, _, numbered⟩ := posture.checking located
  have behind := (handoff.behind popped located).1
  have below : ∀ completion ∈ run.trace.received, completion.item.blockNum < popped.blockNum := by
    intro completion member
    have := handoff.bounds _ (List.mem_append_left _ (conserved.handed_of_received member))
    omega
  have ahead : run.buffer.cursor ≤ popped.blockNum := by
    by_contra passed
    rcases delivery.delivers.covered popped.blockNum
      (by have := handoff.behind popped located; omega) (by omega) with hole | ⟨other, member, same⟩
    · have := handoff.holes _ hole
      omega
    · have := below other member
      omega
  constructor
  case delivers =>
    refine delivery.delivers.skip ahead fun completion member => ?_
    have := below completion member
    omega
  case waiting =>
    -- a parked completion lies between the cursor and the new hole
    intro parked present
    obtain ⟨filled, absent⟩ := delivery.waiting parked present
    obtain ⟨completion, found⟩ := Option.isSome_iff_exists.mp (AList.lookup_isSome.mpr present)
    obtain ⟨member, rfl, above⟩ := (delivery.delivers.parked_iff _ _).mp found
    have := below completion member
    refine ⟨?_, absent⟩
    simp only [ReorderBuffer.skip, Finset.mem_insert, not_or]
    exact ⟨by omega, filled⟩
  case applied => exact ((List.Sublist.refl _).append (List.nil_sublist _)).trans delivery.applied
  case succeeded => exact delivery.succeeded
  case stale => simp
  case complete => exact delivery.complete

theorem Delivery.delivers_receive (delivery : Delivery run) (handoff : Handoff run)
    (conserved : Conserved run) {completion : StoreCompletion}
    (arrived : run.pool.completionChan.head? = some completion) :
    ReorderBuffer.Delivers (fun completion => completion.item.blockNum) run.setup.runStartBlock
      (run.trace.received ++ [completion]) run.trace.holes
      (run.trace.gathered ++ run.batchOf completion) (run.receive completion).buffer := by
  have unread : completion ∈ run.pool.completionChan := List.mem_of_head? arrived
  have inPool : completion.item ∈ run.pool.items :=
    List.mem_append_right _ (List.mem_map_of_mem unread)
  have inLine : completion.item ∈ run.line :=
    List.mem_append_left _ (conserved.handed_of_pool inPool)
  refine delivery.delivers.arrive (handoff.bounds _ inLine).1 ?_ (handoff.disjoint _ inLine)
  intro other member same
  have distinct := conserved.heights handoff
  rw [List.map_append, List.nodup_append] at distinct
  exact distinct.2.2 _ (List.mem_map_of_mem inPool) _
    (List.mem_map_of_mem (List.mem_map_of_mem member)) same.symm

/-- A received completion: `rest` waits behind an episode that its batch opened. -/
theorem Delivery.receive (delivery : Delivery run) (handoff : Handoff run)
    (conserved : Conserved run) (settling : Settling run) {completion : StoreCompletion}
    (arrived : run.pool.completionChan.head? = some completion) {ledger : Ledger}
    {rest : Option (List StoreCompletion)} {suppress : Bool}
    (applied : BatchApplied run.ledger ledger (run.batchOf completion) rest suppress)
    (setup : next.setup = run.setup) (buffer : next.buffer = (run.receive completion).buffer)
    (history : next.trace.received = run.trace.received ++ [completion] ∧
      next.trace.holes = run.trace.holes ∧
      next.trace.gathered = run.trace.gathered ++ run.batchOf completion)
    (booked : next.ledger = ledger)
    (batch : run.pc.waitingBatch = [] ∧ next.pc.waitingBatch = rest.getD [] ∨
      suppress = true ∧ next.pc.waitingBatch = run.pc.waitingBatch)
    (plain : NoStaleEpisode next → rest = none ∧ suppress = false ∧ NoStaleEpisode run)
    (stale : ∀ fin, next.pc = .drain fin ∨ next.pc = .tail fin ∨ next.pc = .walk fin →
      fin.confirmed = none → ¬ NoStaleEpisode next) : Delivery next := by
  subst booked
  obtain ⟨fired, booking, within, good, silent, complete⟩ := applied.committed
  constructor
  case delivers =>
    rw [setup, buffer, history.1, history.2.1, history.2.2]
    exact delivery.delivers_receive handoff conserved arrived
  case waiting =>
    rw [buffer]
    exact fun _ _ => ReorderBuffer.collect_waiting _ _ (Nat.lt_succ_self _)
  case applied =>
    rw [booking, history.2.2]
    rcases batch with ⟨before, after⟩ | ⟨quiet, same⟩
    · have earlier := delivery.applied
      rw [before, List.append_nil] at earlier
      rw [after, List.append_assoc]
      exact earlier.append within
    · rw [silent (.inl quiet), List.append_nil, same]
      exact delivery.applied.trans (List.sublist_append_left _ _)
  case succeeded =>
    rw [booking]
    intro other member
    rcases List.mem_append.mp member with old | new
    · exact delivery.succeeded other old
    · exact good other new
  case stale => exact stale
  case complete =>
    intro noStale clean
    obtain ⟨finished, loud, before⟩ := plain noStale
    -- an unread completion excludes a recorded rollback point
    have unresolved : run.ledger.rollbackPoint.isSome = false := by
      by_contra recorded
      rw [Bool.not_eq_false] at recorded
      simp [(settling.resolved recorded).2] at arrived
    have running : next.ledger.ended = false := by
      simp [Ledger.ended, applied.rollbackPoint, unresolved, clean]
    have cleanBefore : run.ledger.fatalErr = none := by
      cases failed : run.ledger.fatalErr with
      | none => rfl
      | some error =>
          have := applied.fatalStays (by simp [failed])
          simp [clean] at this
    rw [booking, history.2.2, List.filter_append, delivery.complete before cleanBefore,
      complete finished loud running]

theorem Run.afterSelect_batch (run : Run) : run.afterSelect.waitingBatch = [] := by
  rcases run.afterSelect_cases with ⟨same, _⟩ | same <;> simp [same, Pc.waitingBatch]

theorem Run.afterSelect_not_finalizing (run : Run) (fin : Finalization) :
    ¬ (run.afterSelect = .drain fin ∨ run.afterSelect = .tail fin ∨
      run.afterSelect = .walk fin) := by
  rcases run.afterSelect_cases with ⟨same, _⟩ | same <;> simp [same]

theorem Concluded.committed {fin : Finalization} {ledger : Ledger}
    {resolved : Option ReorgEpisode} (concluded : Concluded allowed run fin ledger resolved) :
    ledger.committed = run.ledger.committed := by
  cases concluded <;> rfl

theorem Concluded.fatalErr {fin : Finalization} {ledger : Ledger}
    {resolved : Option ReorgEpisode} (concluded : Concluded allowed run fin ledger resolved)
    (clean : ledger.fatalErr = none) : run.ledger.fatalErr = none := by
  cases concluded with
  | abandoned | resolved => exact clean
  | failed => cases clean

/-- The rest of a batch, applied after its episode was concluded. -/
theorem Delivery.conclude (delivery : Delivery run) {fin : Finalization} {middle ledger : Ledger}
    {resolved : Option ReorgEpisode} {rest : Option (List StoreCompletion)}
    (located : run.pc = .tail fin ∨ run.pc = .walk fin) (stalePinned : fin.confirmed = none)
    (concluded : Concluded allowed run fin middle resolved)
    (applied : BatchApplied middle ledger fin.rest rest false)
    (setup : next.setup = run.setup) (buffer : next.buffer = run.buffer)
    (history : next.trace.received = run.trace.received ∧ next.trace.holes = run.trace.holes ∧
      next.trace.gathered = run.trace.gathered)
    (booked : next.ledger = ledger) (batch : next.pc.waitingBatch = rest.getD [])
    (opened : NoStaleEpisode next → NoStaleEpisode run) : Delivery next := by
  have impossible : ¬ NoStaleEpisode next :=
    fun none => delivery.stale fin (.inr located) stalePinned (opened none)
  obtain ⟨fired, appended, within, good, _, _⟩ := applied.committed
  have waiting : run.pc.waitingBatch = fin.rest := by
    rcases located with located | located <;> rw [located] <;> rfl
  have booking : next.ledger.committed = run.ledger.committed ++ fired := by
    rw [booked, appended, concluded.committed]
  constructor
  case delivers =>
    rw [setup, buffer, history.1, history.2.1, history.2.2]
    exact delivery.delivers
  case waiting => rw [buffer]; exact delivery.waiting
  case applied =>
    rw [booking, history.2.2, batch, List.append_assoc]
    refine List.Sublist.trans ?_ delivery.applied
    rw [waiting]
    exact within.append_left _
  case succeeded =>
    rw [booking]
    intro other member
    rcases List.mem_append.mp member with old | new
    · exact delivery.succeeded other old
    · exact good other new
  case stale => exact fun _ _ _ => impossible
  case complete => exact fun none => absurd none impossible

theorem Delivery.collect (delivery : Delivery run) (control : Control run) (handoff : Handoff run)
    (conserved : Conserved run) (settling : Settling run)
    (step : CollectStep allowed run next) : Delivery next := by
  have batchless : ([] : List StoreCompletion).Sublist run.pc.waitingBatch := List.nil_sublist _
  have selected : run.afterSelect.waitingBatch.Sublist run.pc.waitingBatch :=
    run.afterSelect_batch ▸ batchless
  have more : ∀ {opened : List ReorgEpisode},
      (∀ episode ∈ run.trace.opened ++ opened, episode.stalePinned = false) →
      NoStaleEpisode run :=
    fun none episode member => none episode (List.mem_append_left _ member)
  have settled : ∀ {fin}, (run.pc = .tail fin ∧ run.pool.completionChan = [] ∨
      run.pc = .walk fin) → run.pc = .tail fin ∨ run.pc = .walk fin := fun located =>
    located.imp_left And.left
  have opens : ∀ {ledger : Ledger} {rest : List StoreCompletion} {middle : Ledger}
      {batch : List StoreCompletion}, BatchApplied middle ledger batch (some rest) false →
      ¬ ∀ episode ∈ run.trace.opened ++ ledger.episode.toList, episode.stalePinned = false := by
    intro ledger rest middle batch applied none
    obtain ⟨_, completion, _, _, found⟩ := applied.opened rest rfl
    have := none (staleEpisode completion.item) (by simp [found])
    simp [staleEpisode] at this
  cases step with
  | hole popped located => exact delivery.hole handoff control.posture conserved located
  | breaks =>
      exact delivery.keep rfl rfl ⟨rfl, rfl, rfl⟩ rfl batchless more id
        (by simp [Run.startReorgEpisode])
  | waitFails item error located failed =>
      have active := (control.posture.waiting located).2.2.2.1
      refine delivery.keep rfl rfl ⟨rfl, rfl, rfl⟩ rfl batchless id (fun clean => ?_) (by simp)
      rcases failed with recorded | inactive
      · rw [show error = none from clean] at recorded
        cases recorded
      · simp [inactive] at active
  | confirms =>
      refine delivery.keep rfl rfl ⟨rfl, rfl, rfl⟩ rfl batchless id id ?_
      rintro fin (⟨⟨⟩⟩ | impossible | impossible) unconfirmed
      · cases unconfirmed
      · cases impossible
      · cases impossible
  | drainSettles fin located =>
      refine delivery.keep rfl rfl ⟨rfl, rfl, rfl⟩ rfl ?_ id id ?_
      · rw [located]
        exact .refl _
      · rintro other (impossible | ⟨⟨⟩⟩ | impossible) unconfirmed
        · cases impossible
        · exact delivery.stale fin (.inl located) unconfirmed
        · cases impossible
  | drainEnds fin located =>
      refine delivery.keep rfl rfl ⟨rfl, rfl, rfl⟩ rfl ?_ id id ?_
      · rw [located]
        exact .refl _
      · rintro other (impossible | impossible | ⟨⟨⟩⟩) unconfirmed
        · cases impossible
        · cases impossible
        · exact delivery.stale fin (.inr (.inl located)) unconfirmed
  | recvResult | sends | closesStore =>
      exact delivery.keep rfl rfl ⟨rfl, rfl, rfl⟩ rfl selected id id
        fun fin impossible => absurd impossible (run.afterSelect_not_finalizing fin)
  | resultsClosed | completionsClosed =>
      exact delivery.keep rfl rfl ⟨rfl, rfl, rfl⟩ rfl
        (Run.afterSelect_batch _ ▸ batchless) id id
        fun fin impossible => absurd impossible (Run.afterSelect_not_finalizing _ fin)
  | receives completion ledger located arrived applied =>
      refine delivery.receive handoff conserved settling arrived applied rfl rfl ⟨rfl, rfl, rfl⟩
        rfl (.inl ⟨by rw [located]; rfl, run.afterSelect_batch⟩) (fun none => ⟨rfl, rfl, none⟩) ?_
      exact fun fin impossible => absurd impossible (run.afterSelect_not_finalizing fin)
  | receivesOpening completion ledger rest located arrived applied =>
      exact delivery.receive handoff conserved settling arrived applied rfl rfl ⟨rfl, rfl, rfl⟩
        rfl (.inl ⟨by rw [located]; rfl, rfl⟩) (fun none => absurd none (opens applied))
        fun _ _ _ => opens applied
  | drainReceives fin completion ledger rest located arrived applied =>
      obtain ⟨_, _, before, active, finalizing⟩ :=
        control.posture.finalizing (located.imp_right .inl)
      have unopened := (applied.kept before active).1
      have waiting : run.pc.waitingBatch = fin.rest := by
        rcases located with located | located <;> rw [located] <;> rfl
      have same : ∀ other, run.pc = .drain other ∨ run.pc = .tail other ∨ run.pc = .walk other →
          other.confirmed = none → ¬ NoStaleEpisode run := delivery.stale
      cases kind : fin.confirmed with
      | none =>
          rw [kind] at applied
          exact delivery.receive handoff conserved settling arrived applied rfl rfl
            ⟨rfl, rfl, rfl⟩ rfl (.inr ⟨rfl, rfl⟩)
            (fun none => absurd none (delivery.stale fin (located.imp_right .inl) kind)) same
      | some successor =>
          rw [kind] at applied
          have alone := (finalizing.popTime successor kind).1
          refine delivery.receive handoff conserved settling arrived applied rfl rfl
            ⟨rfl, rfl, rfl⟩ rfl (.inl ⟨waiting.trans alone, ?_⟩)
            (fun none => ⟨unopened, rfl, none⟩) same
          rw [unopened]
          exact waiting.trans alone
  | concludesPop _ _ _ _ _ _ concluded =>
      exact delivery.keep rfl rfl ⟨rfl, rfl, rfl⟩ concluded.committed batchless id
        concluded.fatalErr (by simp)
  | concludesBatch fin middle ledger resolved located stalePinned concluded applied =>
      exact delivery.conclude (settled located) stalePinned concluded applied rfl rfl
        ⟨rfl, rfl, rfl⟩ rfl run.afterSelect_batch id
  | concludesOpening fin middle ledger resolved rest located stalePinned concluded applied =>
      exact delivery.conclude (settled located) stalePinned concluded applied rfl rfl
        ⟨rfl, rfl, rfl⟩ rfl rfl more
  | _ => exact delivery.keep rfl rfl ⟨rfl, rfl, rfl⟩ rfl batchless id id (by simp)

theorem Delivery.step {allowed : Run → Move → Prop} (run : Run) (move : Move)
    (known : Control run ∧ Handoff run ∧ Conserved run ∧ Settling run) (delivery : Delivery run)
    (enabled : (restricted allowed).enabled run move) :
    Delivery ((restricted allowed).effect run move) := by
  obtain ⟨control, handoff, conserved, settling⟩ := known
  cases move with
  | collect move =>
      exact delivery.collect control handoff conserved settling (restricted_collect enabled)
  | cancel | dispatch | pool | closeCompletions | finish =>
      exact ⟨delivery.delivers, delivery.waiting, delivery.applied, delivery.succeeded,
        delivery.stale, delivery.complete⟩

theorem RunUnder.delivery {allowed : Run → Move → Prop} {setup : Setup} {db : DB}
    (reached : RunUnder allowed setup db run) : Delivery run :=
  reached.invariant_under
    (fun _ reached => ⟨reached.control, reached.handoff, reached.conserved, reached.settling⟩)
    (fun _ _ => delivery_start _ _ _ _) Delivery.step

/-! ### The callback -/

theorem BatchApplied.silent {ledger after : Ledger} {batch : List StoreCompletion}
    {rest : Option (List StoreCompletion)} {suppress : Bool}
    (applied : BatchApplied ledger after batch rest suppress) (ended : ledger.ended = true) :
    after.ended = true ∧ after.committed = ledger.committed := by
  obtain ⟨fired, appended, _, _, silent, _⟩ := applied.committed
  refine ⟨applied.ended_stays ended, ?_⟩
  rw [appended, silent (.inr ended), List.append_nil]

theorem Concluded.ended_stays {fin : Finalization} {ledger : Ledger}
    {resolved : Option ReorgEpisode} (concluded : Concluded allowed run fin ledger resolved)
    (ended : run.ledger.ended = true) : ledger.ended = true := by
  cases concluded with
  | abandoned => exact ended
  | failed => simp [Ledger.ended]
  | resolved => simp [Ledger.ended]

/-- Nothing is committed once a rollback point or a fatal error is recorded. -/
theorem CollectStep.silent (step : CollectStep allowed run next) (posture : Posture run)
    (ended : run.ledger.ended = true) :
    next.ledger.ended = true ∧ next.ledger.committed = run.ledger.committed := by
  cases step with
  | waitFails item error located failed =>
      have active := (posture.waiting located).2.2.2.1
      rcases failed with recorded | inactive
      · exact ⟨by simp [Ledger.ended, recorded], rfl⟩
      · simp [inactive] at active
  | receives _ _ _ _ applied | receivesOpening _ _ _ _ _ applied
  | drainReceives _ _ _ _ _ _ applied => exact applied.silent ended
  | concludesPop _ _ _ _ _ _ concluded => exact ⟨concluded.ended_stays ended, concluded.committed⟩
  | concludesBatch _ _ _ _ _ _ concluded applied
  | concludesOpening _ _ _ _ _ _ _ concluded applied =>
      obtain ⟨stays, same⟩ := applied.silent (concluded.ended_stays ended)
      exact ⟨stays, same.trans concluded.committed⟩
  | _ => exact ⟨ended, rfl⟩

theorem committed_of_ended {allowed : Run → Move → Prop} {run last : Run}
    (path : (restricted allowed).Path run last) (control : Control run)
    (ended : run.ledger.ended = true) :
    Control last ∧ last.ledger.ended = true ∧ last.ledger.committed = run.ledger.committed := by
  induction path with
  | refl => exact ⟨control, ended, rfl⟩
  | @step state move _ enabled ih =>
      obtain ⟨control, ended, same⟩ := ih
      refine ⟨Control.step state move control enabled, ?_⟩
      cases move with
      | cancel | dispatch | pool | closeCompletions => exact ⟨ended, same⟩
      | collect move =>
          obtain ⟨stays, silent⟩ := (restricted_collect enabled).silent control.posture ended
          exact ⟨stays, silent.trans same⟩
      | finish =>
          refine ⟨?_, same⟩
          change ((Option.map _ _).isSome || _) = true
          rwa [Option.isSome_map]

/-- Once every handed item has reported, the gathered completions are the handed items in order. -/
theorem gathered_items {setup : Setup} {db : DB} (reached : RunOf setup db run)
    (reported : ∀ item ∈ run.trace.handed, ∃ completion ∈ run.trace.received,
      completion.item = item) :
    (∀ parked, parked ∉ run.buffer.parked) ∧
      run.trace.gathered.map (·.item) = run.trace.handed := by
  have handoff := reached.handoff
  have conserved := reached.conserved
  have delivery := reached.delivery
  have complete : ∀ completion ∈ run.trace.received, ∀ below,
      run.setup.runStartBlock ≤ below → below ≤ completion.item.blockNum →
      below ∈ run.trace.holes ∨ ∃ other ∈ run.trace.received, other.item.blockNum = below := by
    intro completion member below above under
    rcases handoff.covered_handed (conserved.handed_of_received member) above under with
      hole | ⟨item, handed, same⟩
    · exact .inl hole
    · obtain ⟨other, received, rfl⟩ := reported item handed
      exact .inr ⟨other, received, same⟩
  obtain ⟨empty, everything⟩ := delivery.delivers.all_delivered delivery.waiting complete
  refine ⟨empty, ?_⟩
  have rising : (run.trace.gathered.map (·.item)).Pairwise
      (fun earlier later => earlier.blockNum < later.blockNum) :=
    List.pairwise_map.mpr delivery.delivers.increasing
  have handedRising : run.trace.handed.Pairwise
      (fun earlier later => earlier.blockNum < later.blockNum) :=
    handoff.linked_handed.imp Follows.higher
  have nodup : ∀ {items : List BlockResult},
      items.Pairwise (fun earlier later => earlier.blockNum < later.blockNum) → items.Nodup := by
    intro items rising
    refine rising.imp fun {earlier later} lower same => ?_
    rw [same] at lower
    omega
  refine List.Perm.eq_of_pairwise (fun _ _ _ _ lower higher => by omega) rising handedRising ?_
  rw [List.perm_ext_iff_of_nodup (nodup rising) (nodup handedRising)]
  intro item
  rw [List.mem_map]
  constructor
  · rintro ⟨completion, member, rfl⟩
    exact conserved.handed_of_received ((delivery.delivers.delivered_iff _).mp member).1
  · intro handed
    obtain ⟨completion, received, same⟩ := reported item handed
    exact ⟨completion, everything completion received, same⟩

/-- The handed item's store reported success. -/
def Reported (run : Run) (item : BlockResult) : Bool :=
  run.trace.received.any fun completion => completion.item = item && completion.succeeded

theorem reported_eq_succeeded {allowed : Run → Move → Prop} {setup : Setup} {db : DB}
    (reached : RunUnder allowed setup db run) {completion : StoreCompletion}
    (member : completion ∈ run.trace.received) :
    Reported run completion.item = completion.succeeded := by
  have only : ∀ other ∈ run.trace.received, other.item = completion.item → other = completion :=
    fun other received same => reached.delivery.delivers.unique received member (by rw [same])
  cases good : completion.succeeded with
  | true => exact List.any_eq_true.mpr ⟨completion, member, by simp [good]⟩
  | false =>
      refine List.any_eq_false.mpr fun other received => ?_
      by_cases same : other.item = completion.item
      · simp [only other received same, good]
      · simp [same]

theorem committed_sublist {allowed : Run → Move → Prop} {setup : Setup} {db : DB}
    (reached : RunUnder allowed setup db run) :
    run.ledger.committed.Sublist run.trace.gathered :=
  (List.sublist_append_left _ _).trans reached.delivery.applied

/-- The callbacks when every handed item has reported and nothing suppressed one. -/
theorem callbacks_eq_reported {setup : Setup} {db : DB} (reached : RunOf setup db run)
    (noStale : NoStaleEpisode run) (clean : run.ledger.fatalErr = none)
    (reported : ∀ item ∈ run.trace.handed, ∃ completion ∈ run.trace.received,
      completion.item = item) :
    run.ledger.callbacks = (run.trace.handed.filter (Reported run)).map (·.blockNum) := by
  have same : run.trace.gathered.filter StoreCompletion.succeeded =
      run.trace.gathered.filter (Reported run ∘ (·.item)) := by
    refine List.filter_congr fun completion member => ?_
    have received := ((reached.delivery.delivers.delivered_iff completion).mp member).1
    exact (reported_eq_succeeded reached received).symm
  rw [Ledger.callbacks, reached.delivery.complete noStale clean,
    ← (gathered_items reached reported).2, List.filter_map, List.map_map, same]
  rfl

/-- The callbacks of a run rise strictly, each belongs to a handed item whose
store succeeded, and none follows a rollback point or a fatal error. Without a
stale-pinned episode and a fatal error, once every handed item has reported,
nothing is parked and the callbacks are exactly the successful stores in order,
with gaps at failed fetches, conversions and stores. -/
theorem callbacks_ordered_and_complete {setup : Setup} {db : DB} (reached : RunOf setup db run) :
    run.ledger.callbacks.Pairwise (· < ·) ∧ run.ledger.callbacks.Nodup ∧
    (∀ height ∈ run.ledger.callbacks, ∃ item ∈ run.trace.handed, item.blockNum = height ∧
      Reported run item = true) ∧
    (∀ later, processBlocksOnce.Path run later →
      (run.ledger.rollbackPoint.isSome = true ∨ run.ledger.fatalErr.isSome = true) →
      later.ledger.callbacks = run.ledger.callbacks) ∧
    (NoStaleEpisode run → run.ledger.fatalErr = none →
      (∀ item ∈ run.trace.handed, ∃ completion ∈ run.trace.received, completion.item = item) →
      run.buffer.parked = ∅ ∧
      run.ledger.callbacks = (run.trace.handed.filter (Reported run)).map (·.blockNum) ∧
      ∀ item ∈ run.trace.handed, ∀ height, setup.runStartBlock ≤ height →
        height ≤ item.blockNum → (height ∉ run.ledger.callbacks ↔ height ∈ run.trace.holes ∨
          ∃ failed ∈ run.trace.handed, failed.blockNum = height ∧ Reported run failed = false)) := by
  have handoff := reached.handoff
  have delivery := reached.delivery
  have rising : run.ledger.callbacks.Pairwise (· < ·) :=
    List.pairwise_map.mpr (delivery.delivers.increasing.sublist (committed_sublist reached))
  refine ⟨rising, rising.imp fun lower same => ?_, ?_, ?_, ?_⟩
  · omega
  · intro height called
    obtain ⟨completion, member, rfl⟩ := List.mem_map.mp called
    have received := ((delivery.delivers.delivered_iff completion).mp
      ((committed_sublist reached).mem member)).1
    refine ⟨completion.item, reached.conserved.handed_of_received received, rfl, ?_⟩
    rw [reported_eq_succeeded reached received, delivery.succeeded completion member]
  · intro later path recorded
    have ended : run.ledger.ended = true := by simpa [Ledger.ended] using recorded
    rw [Ledger.callbacks, Ledger.callbacks,
      (committed_of_ended (path.to_restrict fun _ _ => trivial) reached.control ended).2.2]
  · intro noStale clean reported
    have exact_ := callbacks_eq_reported reached noStale clean reported
    refine ⟨?_, exact_, fun item member height above below => ?_⟩
    · apply AList.ext
      refine List.eq_nil_iff_forall_not_mem.mpr fun entry member => ?_
      exact (gathered_items reached reported).1 entry.1
        (AList.mem_keys.mpr (List.mem_map_of_mem member))
    · rw [exact_]
      simp only [List.mem_map, List.mem_filter, not_exists, not_and]
      constructor
      · intro missing
        rcases handoff.covered_handed member (reached.setup_eq ▸ above) below with
          hole | ⟨other, handed, same⟩
        · exact .inl hole
        · refine .inr ⟨other, handed, same, ?_⟩
          by_contra good
          exact missing other ⟨handed, by simpa using good⟩ same
      · rintro (hole | ⟨failed, handed, rfl, bad⟩) other ⟨otherHanded, good⟩ same
        · exact handoff.disjoint other (List.mem_append_left _ otherHanded) (same ▸ hole)
        · rw [handoff.unique otherHanded handed same, bad] at good
          cases good

/-- Height 6 fails to be fetched between two blocks that are stored. -/
theorem callbacks_with_a_hole :
    ∃ run, RunOf { runStartBlock := 5, seedHash := "0xa4", configuredStart := 5, workers := 2 }
        SoftStore.empty run ∧ run.trace.holes = [6] ∧ run.ledger.callbacks = [5, 7] ∧
      run.buffer.parked = ∅ := by
  obtain ⟨run, reached, facts⟩ := runOf_of_execution ⟨5, "0xa4", 5, 2⟩ SoftStore.empty
    (indexMoves 5 "0xa5" "0xa4" ++ fetchMoves 6 (.error "unavailable") ++
      [.dispatch .send, .dispatch (.fetched 7 (.ok (bareBlock 7 "0xa7" "0xa6"))),
        .collect .pop, .collect (.check (fetchAndConvertBlock 6 (.error "unavailable")) false),
        .collect .hold, .collect (.recvResult (served 7 (bareBlock 7 "0xa7" "0xa6")))] ++
      handMoves (served 7 (bareBlock 7 "0xa7" "0xa6")) ++
      storeMoves (served 7 (bareBlock 7 "0xa7" "0xa6")) ⟨.block, blockFields 7 "0xa7" "0xa6"⟩)
    (fun run => run.trace.holes = [6] && run.ledger.callbacks = [5, 7] &&
      run.trace.opened = [] && run.ledger.fatalErr = none &&
      run.trace.handed.all fun item => run.trace.received.any fun completion =>
        completion.item = item) (by decide +kernel)
  simp only [Bool.and_eq_true, decide_eq_true_eq, List.all_eq_true, List.any_eq_true] at facts
  obtain ⟨⟨⟨⟨holes, called⟩, unopened⟩, clean⟩, reported⟩ := facts
  refine ⟨run, reached, holes, called, ?_⟩
  exact ((callbacks_ordered_and_complete reached).2.2.2.2 (by simp [NoStaleEpisode, unopened])
    clean reported).1

end ShinzoGenerator.Indexer
