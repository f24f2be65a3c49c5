import ShinzoGenerator.Defra.StoredHeights
import ShinzoGenerator.Indexer.StoreWithRetry
import ShinzoGenerator.Pruner.Custody

/-! A block that was rolled back and comes back. Its document is hidden and not forgotten,
so that no store call gets past it until the pruner has purged it. -/

set_option autoImplicit false

namespace ShinzoGenerator.Indexer

open Chains Defra Pruner

variable {σ : Type} {env : Environment} {handler : BlockHandler}
  {stamper : Option (LinkStamper σ)} {converted : ConversionResult} {session : Session σ}
  {height : Int} {block : Doc}

/-! ### The retry loop at one height -/

/-- A conversion result for one block of the height, which stamping leaves one. -/
structure BlockFor (stamper : Option (LinkStamper σ)) (converted : ConversionResult)
    (height : Int) (block : Doc) : Prop where
  first : BlockFirst converted
  own : converted.blockDoc? = some block
  groups : ∀ group ∈ converted.groups, GroupAt height group
  signature : converted.signatureCollection = .blockSignature
  leavesBlocks : LeavesBlocks stamper
  leavesHeight : LeavesHeight stamper height

theorem BlockFor.restamped {groups : List DocumentGroup}
    (ready : BlockFor stamper converted height block)
    (same : List.Forall₂ (Restamped stamper) converted.groups groups) :
    BlockFor stamper { converted with groups } height block :=
  { ready with
    first := (ready.first.restamped ready.leavesBlocks same).1
    own := (ready.first.restamped ready.leavesBlocks same).2.trans ready.own
    groups := ready.leavesHeight.forall₂ same ready.groups }

theorem BlockFor.store (ready : BlockFor stamper converted height block) :
    StoredAt height block session.db (store env handler stamper converted session).session.db := by
  have located : session.db.Adds (AtHeight height)
      (Defra.store env handler stamper converted session).session.db :=
    store_adds_atHeight ready.leavesHeight ready.groups ready.signature
  have pooled : session.db.Adds _ (Defra.store env handler stamper converted session).session.db :=
    store_poolAdds ready.first ready.leavesBlocks
  refine ⟨(located.and pooled).mono ?_, ?_⟩
  · intro doc both
    refine ⟨both.1, fun isBlock => ?_⟩
    have kind := both.2
    rw [ready.own, Option.some.injEq] at kind
    exact (kind.resolve_right (not_not.mpr isBlock)).symm
  · rcases store_writes env handler stamper converted session with same |
      ⟨doc, _, stamped, others, blockNumber, blockHash, blockID, after, inserts, _, added, does⟩
    · exact .inl same
    · have own := insertion?_blockDoc ready.first ready.leavesBlocks inserts
      rw [ready.own, Option.some.injEq] at own
      have visible := SoftStore.add_ok_visible added
      have adds := (storeOthers_spec env handler stamper converted blockNumber blockHash stamped
        others blockID after).1
      rw [does, own]
      exact .inr (adds.visible (by simp [visible]))

theorem BlockFor.storeTurns (ready : BlockFor stamper converted height block) (blockNum : Int)
    (remaining : Nat) :
    StoredAt height block session.db
      (storeTurns env handler stamper blockNum remaining converted session).session.db := by
  have nothing : ∀ db : DB, StoredAt height block db db := fun _ => ⟨.refl, .inl rfl⟩
  induction remaining generalizing converted session with
  | zero => exact nothing session.db
  | succ remaining ih =>
      have turned : StoredAt height block (tested session).db
          (Defra.store env handler stamper converted (tested session)).session.db := ready.store
      unfold Indexer.storeTurns
      split
      · exact nothing session.db
      · have turn : TurnEnds env handler stamper converted (tested session) _ :=
          storeTurn_ends (0 < remaining)
        cases ends : storeTurn env handler stamper (0 < remaining) converted (tested session) with
        | returned outcome =>
            rw [ends] at turn
            cases turn with
            | stored | existing | cancelled | refused => exact turned
        | retry next after =>
            rw [ends] at turn
            cases turn with
            | retried =>
                have later : StoredAt height block (tested (Defra.store env handler stamper
                    converted (tested session)).session).db _ :=
                  ih (ready.restamped
                    (store_restamped env handler stamper converted (tested session)))
                exact turned.trans later

/-! ### A deleted block document -/

/-- The calls up to the insertion of the block document go through. -/
def ReachesInsertion (env : Environment) (session : Session σ) : Prop :=
  ∀ step < 4, env.failure (session.calls + step) = none

theorem storeBlockDoc_deleted {doc : Doc} (reaches : ReachesInsertion env session)
    (gone : doc ∈ session.db.deleted) :
    (storeBlockDoc env handler doc).run session =
      (.error { text := "create block: " ++ documentDeletedText },
        { session with calls := session.calls + 4 }) := by
  have first : env.failure session.calls = none := reaches 0 (by omega)
  have second := reaches 1 (by omega)
  have third := reaches 2 (by omega)
  have fourth := reaches 3 (by omega)
  have known := SoftStore.add_deleted_iff.mpr gone
  simp [storeBlockDoc, bind, Attempt.run, call, Attempt.read, Attempt.fail, known, first, second,
    third, fourth]

theorem storeTurn_deleted (inserts : insertion? stamper converted session = some block)
    (reaches : ReachesInsertion env session) (gone : block ∈ session.db.deleted) (again : Bool) :
    ∃ outcome text, storeTurn env handler stamper again converted session = .returned outcome ∧
      outcome.computed = .error (.documentDeleted text) := by
  obtain ⟨stamped, others, _, _, prepared, _, _, sameDb, sameCalls, _, does⟩ :=
    store_inserts handler inserts
  have ready : ReachesInsertion env prepared := by
    unfold ReachesInsertion
    rwa [sameCalls]
  have text : (Defra.store env handler stamper converted session).error =
      some ("create block: " ++ documentDeletedText) := by
    rw [does, storeBlockDoc_deleted ready (sameDb ▸ gone)]
  have fresh : Errors.isErrAlreadyExists ("create block: " ++ documentDeletedText) = false := by
    decide +kernel
  have final : Errors.isErrTransactionConflict ("create block: " ++ documentDeletedText) = false := by
    decide +kernel
  have known : storeFailure ("failed to store block: " ++ ("create block: " ++ documentDeletedText)) =
      .documentDeleted ("failed to store block: " ++ ("create block: " ++ documentDeletedText)) := by
    decide +kernel
  unfold storeTurn
  simp only [text, fresh, final, Bool.false_eq_true, if_false, Bool.false_and]
  exact ⟨_, _, rfl, congrArg Except.error known⟩

/-- However a try to store the block ends, nothing is stored; undisturbed, it ends with the
refusal that stops the run. -/
def Barred (handler : BlockHandler) (stamper : Option (LinkStamper σ))
    (converted : ConversionResult) (db : DB) : Prop :=
  ∀ env blockNum links,
    let stored := storeWithRetry env handler stamper blockNum converted { db, links }
    stored.session.db = db ∧ stored.computed.isOk = false ∧
      (Calm env → ∀ item nextToCommit suppress queryFails ledger,
        (applyOneCompletion nextToCommit suppress
          (runStoreTask db item stored.computed queryFails) ledger).fatalErr.isSome = true)

theorem BlockFor.barred {db : DB} (ready : BlockFor stamper converted height block)
    (inserts : ∀ session, insertion? stamper converted session = some block)
    (gone : block ∈ db.deleted) : Barred handler stamper converted db := by
  intro env blockNum links
  have stored : StoredAt height block ({ db, links } : Session σ).db
      (Indexer.storeTurns env handler stamper blockNum maxRPCRetries converted
        { db, links }).session.db := ready.storeTurns blockNum maxRPCRetries
  have hidden : block ∉ (Indexer.storeTurns env handler stamper blockNum maxRPCRetries converted
      { db, links }).session.db.visible := by
    intro visible
    exact SoftStore.separate _ block visible (stored.adds.deleted ▸ gone)
  have pooled : PoolStored converted ({ db, links } : Session σ).db
      (Indexer.storeTurns env handler stamper blockNum maxRPCRetries converted { db, links }) :=
    storeTurns_poolStored blockNum maxRPCRetries ready.first ready.leavesBlocks
  refine ⟨stored.led.resolve_right hidden, ?_, ?_⟩
  · rw [Bool.eq_false_iff]
    intro succeeded
    obtain ⟨doc, own, visible⟩ := pooled.stored succeeded
    rw [ready.own, Option.some.injEq] at own
    exact hidden (own ▸ visible)
  · intro calm item nextToCommit suppress queryFails ledger
    obtain ⟨outcome, text, ended, refused⟩ := @storeTurn_deleted σ env handler stamper converted
      (tested { db, links }) block (inserts _) (fun _ _ => calm.quiet _) gone (0 < 2)
    have computed : (storeWithRetry env handler stamper blockNum converted { db, links }).computed =
        outcome.computed := by
      unfold storeWithRetry maxRPCRetries Indexer.storeTurns
      simp only [calm.running, Bool.false_eq_true, if_false]
      rw [ended]
    rw [computed, refused]
    rfl

/-! ### Until it is purged -/

/-- The move does not make the store forget the document. -/
def Remembers (doc : Doc) (cfg : PrunerConfig) (handler : BlockHandler) (state : PruneState)
    (move : CustodyMove σ) : Prop :=
  (move.effect cfg handler state).db.Holds doc

theorem signExisting_deleted {source : CIDSource} (converted : ConversionResult)
    (blockHash : String) (blockNumber : Int) (session : Session σ) :
    ((signExisting env source handler converted blockHash blockNumber).run session).2.db.deleted =
      session.db.deleted := by
  have kept : (signExisting env source handler converted blockHash blockNumber).Ensures session
      (fun _ after => after.db.deleted = session.db.deleted)
      (fun _ after => after.db.deleted = session.db.deleted) := by
    unfold signExisting
    simp only [Attempt.ensures_bind]
    refine (queryGroups_ensures converted.groups session).mono ?_ fun _ _ stopped => by rw [stopped.1]
    rintro _ queried ⟨sameQueried, _, rfl⟩
    rw [← sameQueried]
    refine (waitForCIDs_ensures 0 0 maxCIDRetries queried (by simp)).mono ?_
      fun _ _ stopped => by rw [stopped.1]
    rintro _ waited ⟨sameWaited, _⟩
    rw [← sameWaited]
    refine (signBlockOverCIDs_ensures _ _ _ _ waited).mono ?_ fun _ _ same => by rw [same]
    rintro _ _ ⟨_, _, _, _, _, added⟩
    exact SoftStore.add_ok_deleted added
  rcases ran : (signExisting env source handler converted blockHash blockNumber).run session
    with ⟨error | id, after⟩
  · exact kept.of_error ran
  · exact kept.of_ok ran

/-- Among what an operation takes away, a deleted document is forgotten or stays deleted. -/
theorem deleted_of_purge {db : DB} {selected : Doc → Bool} {doc : Doc} (gone : doc ∈ db.deleted)
    (held : (db.purge selected).Holds doc) : doc ∈ (db.purge selected).deleted := by
  obtain ⟨_, spared⟩ := SoftStore.holds_purge.mp held
  exact List.mem_filter.mpr ⟨gone, by simp [spared]⟩

theorem deleted_of_pruneExcess {cfg : PrunerConfig} {context : String} {env : PruneEnvironment}
    {db : DB} {doc : Doc} (gone : doc ∈ db.deleted)
    (held : (pruneExcess context env cfg handler db).db.Holds doc) :
    doc ∈ (pruneExcess context env cfg handler db).db.deleted := by
  rcases @pruneExcess_db handler env context cfg db with same | ⟨_, _, _, _, purged⟩
  · rwa [same]
  · rw [purged] at held ⊢
    exact deleted_of_purge gone held

theorem deleted_step {cfg : PrunerConfig} {state : PruneState} {move : CustodyMove σ} {doc : Doc}
    (bare : ∀ stored, move ≠ .prune (.store stored)) (gone : doc ∈ state.db.deleted)
    (remembers : Remembers doc cfg handler state move) :
    doc ∈ (move.effect cfg handler state).db.deleted := by
  cases move with
  | handle call =>
      cases call with
      | store env stamper links converted =>
          have kept := (store_adds env handler stamper converted { db := state.db, links }).deleted
          exact kept ▸ gone
      | signExisting env source converted blockHash blockNumber =>
          have kept := @signExisting_deleted Unit env handler source converted blockHash
            blockNumber { db := state.db, links := () }
          exact kept ▸ gone
  | prune move =>
      cases move with
      | store stored => exact absurd rfl (bare stored)
      | rollbackBlocks low high chainHashes budget =>
          exact @rollbackBlocks_keeps (doc ∈ ·.deleted)
            (fun db selected gone => List.mem_append_right _ gone) low high chainHashes budget _ gone
      | startupCleanup env => exact deleted_of_pruneExcess gone remembers
      | runPrune env sorter =>
          simp only [Remembers, CustodyMove.effect, PruneMove.effect] at remembers ⊢
          by_cases full : cfg.maxBlocks < state.queue.entries.length
          · obtain ⟨outcome, ran⟩ := @runIndexerQueuePrune_drains handler env sorter cfg state full
            rw [ran] at remembers ⊢
            exact deleted_of_purge gone remembers
          · rw [runIndexerQueuePrune_filters sorter cfg state (not_lt.mp full)] at remembers ⊢
            exact deleted_of_pruneExcess gone remembers
      | restart saved => exact gone

/-- A deleted document stays deleted as long as it is not purged. -/
theorem deleted_path {cfg : PrunerConfig} {state later : PruneState} {doc : Doc}
    (gone : doc ∈ state.db.deleted)
    (reached : ((custodySystem σ cfg handler).restrict (Remembers doc cfg handler)).Path
      state later) : doc ∈ later.db.deleted :=
  reached.invariant gone fun _ _ gone enabled => deleted_step enabled.1 gone enabled.2

end ShinzoGenerator.Indexer
