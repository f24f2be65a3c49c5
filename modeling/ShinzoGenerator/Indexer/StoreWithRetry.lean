import ShinzoGenerator.Defra.BlockHandlerProperties
import ShinzoGenerator.Indexer.Run

/-! `storeWithRetry`, the retry loop of the store pool around `Store`, and when its
success means that the whole conversion result is stored. -/

set_option autoImplicit false

namespace ShinzoGenerator.Indexer

open Chains Defra Errors

variable {σ : Type}

def maxRPCRetries : Nat := 3

/-- The reason behind the text of an error; a cut-off call wraps the context's error. -/
def storeFailure (text : String) : StoreFailure :=
  if isErrDocumentDeleted text then .documentDeleted text
  else if TextSearch.contains text contextCanceled then .cutOff text
  else .other text

/-- What the loop returns, with the groups and the session it leaves behind. -/
structure StoreOutcome (σ : Type) where
  computed : Except StoreFailure String
  groups : List DocumentGroup
  session : Session σ

/-- The outcome with the block's number and hash. -/
structure StoredBlock (σ : Type) extends StoreOutcome σ where
  blockNum : Int
  hash : String

/-- The call after a test of the context. -/
def tested (session : Session σ) : Session σ :=
  { session with calls := session.calls + 1 }

/-- How one turn of the loop ends. -/
inductive Turn (σ : Type) where
  | returned (outcome : StoreOutcome σ)
  | retry (converted : ConversionResult) (session : Session σ)

/-- One turn behind the test of the context; `again` says that another one may follow.
The groups were stamped in place, so the next turn starts from what this one left. -/
def storeTurn (env : Environment) (handler : BlockHandler) (stamper : Option (LinkStamper σ))
    (again : Bool) (converted : ConversionResult) (session : Session σ) : Turn σ :=
  let reply := store env handler stamper converted session
  match reply.error with
  | none =>
      .returned ⟨.ok (reply.created.elim "" (·.blockID)), reply.groups, reply.session⟩
  | some text =>
      if isErrAlreadyExists text then .returned ⟨.ok "", reply.groups, reply.session⟩
      else if isErrTransactionConflict text && again then
        if env.cancelled reply.session.calls then
          .returned ⟨.error (.cutOff contextCanceled), reply.groups, tested reply.session⟩
        else .retry { converted with groups := reply.groups } (tested reply.session)
      else
        .returned
          ⟨.error (storeFailure ("failed to store block: " ++ text)), reply.groups, reply.session⟩

def storeTurns (env : Environment) (handler : BlockHandler) (stamper : Option (LinkStamper σ))
    (blockNum : Int) : Nat → ConversionResult → Session σ → StoreOutcome σ
  | 0, converted, session =>
      ⟨.error (storeFailure ("failed to store block " ++ toString blockNum ++
        ": exhausted retries")), converted.groups, session⟩
  | remaining + 1, converted, session =>
      if env.cancelled session.calls then
        ⟨.error (.cutOff contextCanceled), converted.groups, tested session⟩
      else
        match storeTurn env handler stamper (0 < remaining) converted (tested session) with
        | .returned outcome => outcome
        | .retry converted session =>
            storeTurns env handler stamper blockNum remaining converted session

def storeWithRetry (env : Environment) (handler : BlockHandler) (stamper : Option (LinkStamper σ))
    (blockNum : Int) (converted : ConversionResult) (session : Session σ) : StoredBlock σ :=
  { storeTurns env handler stamper blockNum maxRPCRetries converted session with
    blockNum
    hash := extractBlockHash converted.groups }

/-! ### How a turn ends -/

variable {env : Environment} {handler : BlockHandler} {stamper : Option (LinkStamper σ)}
  {converted : ConversionResult} {session : Session σ} {again : Bool}

/-- The ways a turn ends, each with what `Store` has replied. -/
inductive TurnEnds (env : Environment) (handler : BlockHandler) (stamper : Option (LinkStamper σ))
    (converted : ConversionResult) (session : Session σ) : Turn σ → Prop where
  | stored (sound : (store env handler stamper converted session).error = none) :
      TurnEnds env handler stamper converted session
        (.returned ⟨.ok ((store env handler stamper converted session).created.elim "" (·.blockID)),
          (store env handler stamper converted session).groups,
          (store env handler stamper converted session).session⟩)
  | existing {text : String}
      (failed : (store env handler stamper converted session).error = some text)
      (claims : isErrAlreadyExists text = true) :
      TurnEnds env handler stamper converted session
        (.returned ⟨.ok "", (store env handler stamper converted session).groups,
          (store env handler stamper converted session).session⟩)
  | cancelled : TurnEnds env handler stamper converted session
        (.returned ⟨.error (.cutOff contextCanceled), (store env handler stamper converted session).groups,
          tested (store env handler stamper converted session).session⟩)
  | retried {text : String}
      (failed : (store env handler stamper converted session).error = some text)
      (conflict : isErrTransactionConflict text = true) :
      TurnEnds env handler stamper converted session
        (.retry
          { converted with groups := (store env handler stamper converted session).groups }
          (tested (store env handler stamper converted session).session))
  | refused (text : String) : TurnEnds env handler stamper converted session
        (.returned ⟨.error (storeFailure ("failed to store block: " ++ text)),
          (store env handler stamper converted session).groups,
          (store env handler stamper converted session).session⟩)

theorem storeTurn_ends (again : Bool) :
    TurnEnds env handler stamper converted session
      (storeTurn env handler stamper again converted session) := by
  unfold storeTurn
  cases failed : (store env handler stamper converted session).error with
  | none =>
      simp only [failed]
      exact .stored failed
  | some text =>
      simp only [failed]
      cases claims : isErrAlreadyExists text with
      | true => exact .existing failed claims
      | false =>
          simp only [Bool.false_eq_true, if_false]
          split
          · rename_i conflicts
            split
            · exact .cancelled
            · exact .retried failed (Bool.and_eq_true_iff.mp conflicts).1
          · exact .refused text

theorem storeTurn_retry {next : ConversionResult} {after : Session σ}
    (ends : storeTurn env handler stamper again converted session = .retry next after) :
    (∃ text, (store env handler stamper converted session).error = some text ∧
        isErrTransactionConflict text = true) ∧
      next = { converted with groups := (store env handler stamper converted session).groups } ∧
      after.db = (store env handler stamper converted session).session.db := by
  have turn : TurnEnds env handler stamper converted session _ := storeTurn_ends again
  rw [ends] at turn
  cases turn with
  | retried failed conflict => exact ⟨⟨_, failed, conflict⟩, rfl, rfl⟩

/-! ### The loop as moves of the store pool -/

/-- Only the first group holds block documents. -/
structure BlockFirst (converted : ConversionResult) : Prop where
  block : ∀ group ∈ converted.groups.head?, group.collection = .block
  others : ∀ group ∈ converted.groups.tail, group.collection ≠ .block
  signature : converted.signatureCollection ≠ .block

/-- Stamping gives the block document no links. -/
def LeavesBlocks (stamper : Option (LinkStamper σ)) : Prop :=
  ∀ links ∈ stamper, ∀ docs state, (links.stampBeforeWrite .block docs state).2.1 = docs

theorem LeavesBlocks.restamped {before after : DocumentGroup} (leaves : LeavesBlocks stamper)
    (block : before.collection = .block) (restamped : Restamped stamper before after) :
    after.stored = before.stored := by
  rcases restamped with rfl | ⟨session, rfl⟩
  · rfl
  · cases stamper with
    | none => rfl
    | some links =>
        have same := leaves links rfl before.docs session.links
        simp only [stampBeforeWrite, DocumentGroup.stored, block, same]

theorem restamped_collections {before after : List DocumentGroup}
    (same : List.Forall₂ (Restamped stamper) before after) :
    after.map (·.collection) = before.map (·.collection) := by
  induction same with
  | nil => rfl
  | cons restamped _ ih => rw [List.map_cons, List.map_cons, restamped.shape.1, ih]

theorem BlockFirst.restamped {groups : List DocumentGroup} (first : BlockFirst converted)
    (leaves : LeavesBlocks stamper)
    (same : List.Forall₂ (Restamped stamper) converted.groups groups) :
    BlockFirst { converted with groups } ∧
      ConversionResult.blockDoc? { converted with groups } = converted.blockDoc? := by
  obtain ⟨block, others, signature⟩ := first
  unfold ConversionResult.blockDoc?
  cases grouped : converted.groups with
  | nil =>
      rw [grouped, List.forall₂_nil_left_iff] at same
      subst same
      exact ⟨⟨(by intros; contradiction), (by intros; contradiction), signature⟩, rfl⟩
  | cons blockGroup rest =>
      rw [grouped] at same block others
      have isBlock := block blockGroup rfl
      cases same with
      | @cons _ after _ afters restamped later =>
          refine ⟨⟨?_, ?_, signature⟩, ?_⟩
          · rintro _ ⟨⟩
            rw [restamped.shape.1, isBlock]
          · intro group member
            have listed := List.mem_map_of_mem (f := DocumentGroup.collection) member
            rw [List.tail_cons, restamped_collections later] at listed
            obtain ⟨other, old, same⟩ := List.mem_map.mp listed
            exact same ▸ others other old
          · simp only
            rw [leaves.restamped isBlock restamped]

theorem insertion?_blockDoc {doc : Doc} (first : BlockFirst converted)
    (leaves : LeavesBlocks stamper) (inserts : insertion? stamper converted session = some doc) :
    converted.blockDoc? = some doc := by
  obtain ⟨block, _, _⟩ := first
  unfold insertion? at inserts
  unfold ConversionResult.blockDoc?
  cases grouped : converted.groups with
  | nil => simp [grouped] at inserts
  | cons blockGroup rest =>
      rw [grouped] at block
      have stored := leaves.restamped (block blockGroup rfl)
        (.inr ⟨{ session with collector := [] }, rfl⟩)
      simp only [grouped] at inserts ⊢
      split at inserts
      · cases inserts
      · rename_i blockData more listed
        split at inserts
        · rename_i stamped _ _ stamping
          rw [stamping] at stored
          rw [← stored]
          have shape := congrArg List.length stored
          simp only [DocumentGroup.stored, List.length_map, listed, List.length_cons] at shape
          cases docs : stamped.docs with
          | nil => simp [docs] at shape
          | cons head tail =>
              rw [docs] at inserts
              simpa [DocumentGroup.stored, docs] using inserts
        · cases inserts

/-- What the loop does to the store, as the store pool sees it. -/
structure PoolStored (converted : ConversionResult) (before : DB)
    (outcome : StoreOutcome σ) : Prop where
  adds : before.Adds (fun doc => converted.blockDoc? = some doc ∨ doc.collection ≠ .block)
    outcome.session.db
  stored : outcome.computed.isOk = true →
    ∃ doc, converted.blockDoc? = some doc ∧ doc ∈ outcome.session.db.visible

theorem store_poolAdds (first : BlockFirst converted) (leaves : LeavesBlocks stamper) :
    session.db.Adds (fun doc => converted.blockDoc? = some doc ∨ doc.collection ≠ .block)
      (store env handler stamper converted session).session.db := by
  refine (store_adds env handler stamper converted session).mono ?_
  rintro doc (inserts | signature | ⟨group, member, same⟩)
  · exact .inl (insertion?_blockDoc first leaves inserts)
  · exact .inr (signature ▸ first.signature)
  · exact .inr (same ▸ first.others group member)

theorem storeTurn_poolStored {outcome : StoreOutcome σ} (first : BlockFirst converted)
    (leaves : LeavesBlocks stamper)
    (ends : storeTurn env handler stamper again converted session = .returned outcome) :
    PoolStored converted session.db outcome := by
  have adds : session.db.Adds _ (store env handler stamper converted session).session.db :=
    store_poolAdds first leaves
  have turn : TurnEnds env handler stamper converted session _ := storeTurn_ends again
  rw [ends] at turn
  cases turn with
  | stored sound =>
      obtain ⟨doc, _, _, inserts, _, _, visible, _⟩ := store_sound sound
      exact ⟨adds, fun _ => ⟨doc, insertion?_blockDoc first leaves inserts, visible⟩⟩
  | existing failed claims =>
      obtain ⟨doc, inserts, stored, _⟩ := store_claims_exists failed claims
      exact ⟨adds, fun _ => ⟨doc, insertion?_blockDoc first leaves inserts, adds.visible stored⟩⟩
  | cancelled | refused => exact ⟨adds, by intros; contradiction⟩

theorem storeTurns_poolStored (blockNum : Int) (remaining : Nat) (first : BlockFirst converted)
    (leaves : LeavesBlocks stamper) :
    PoolStored converted session.db
      (storeTurns env handler stamper blockNum remaining converted session) := by
  induction remaining generalizing converted session with
  | zero => exact ⟨.refl, by intros; contradiction⟩
  | succ remaining ih =>
      unfold storeTurns
      split
      · exact ⟨.refl, by intros; contradiction⟩
      · cases ends : storeTurn env handler stamper (0 < remaining) converted (tested session) with
        | returned outcome =>
            have result : PoolStored converted (tested session).db outcome :=
              storeTurn_poolStored first leaves ends
            exact result
        | retry next after =>
            obtain ⟨_, same, db⟩ := storeTurn_retry ends
            have adds : (tested session).db.Adds _ (store env handler stamper converted
              (tested session)).session.db := store_poolAdds first leaves
            obtain ⟨stillFirst, sameBlock⟩ := first.restamped leaves
              (store_restamped env handler stamper converted (tested session))
            rw [← same] at stillFirst sameBlock
            rw [← db] at adds
            have later : PoolStored next after.db
                (storeTurns env handler stamper blockNum remaining next after) := ih stillFirst
            obtain ⟨more, stored⟩ := later
            rw [sameBlock] at more stored
            exact ⟨adds.trans more, stored⟩

/-- The loop's writes are commits of its item. -/
theorem adds_path {run : Run} {item : BlockResult} {db : DB} (storing : item ∈ run.pool.storing)
    (adds : run.db.Adds
      (fun doc => item.converted.blockDoc? = some doc ∨ doc.collection ≠ .block) db) :
    processBlocksOnce.Path run { run with db } := by
  induction adds with
  | refl => exact .refl
  | @add store next doc _ kind added ih =>
      have single : SoftStore.addAll store [doc] = .ok next := by simp [SoftStore.addAll, added]
      rcases kind with block | other
      · have commits : processBlocksOnce.enabled { run with db := store }
            (.pool (.commitBlock item doc)) :=
          ⟨storing, block, by simp [added, Except.isOk, Except.toBool]⟩
        simpa [processBlocksOnce, poolEffect, added, Except.toOption] using ih.step commits
      · have commits : processBlocksOnce.enabled { run with db := store }
            (.pool (.commitOthers item [doc])) :=
          ⟨storing, by simpa using other, by simp [single, Except.isOk, Except.toBool]⟩
        simpa [processBlocksOnce, poolEffect, single, Except.toOption] using ih.step commits

/-- A worker that runs the loop and reports its outcome makes moves of the run. -/
theorem storeWithRetry_path (handler : BlockHandler) {run : Run} {item : BlockResult}
    (queryFails : Bool)
    (storing : item ∈ run.pool.storing) (first : BlockFirst item.converted)
    (leaves : LeavesBlocks stamper) (starts : session.db = run.db)
    (ending : storeCutOff (storeWithRetry env handler stamper item.blockNum item.converted
      session).computed = true → run.ledger.ctxDone = true) :
    let stored := storeWithRetry env handler stamper item.blockNum item.converted session
    processBlocksOnce.Path run
      { run with
        db := stored.session.db
        pool :=
          { run.pool with
            storing := run.pool.storing.erase item
            reporting := run.pool.reporting ++
              [runStoreTask stored.session.db item stored.computed queryFails] } } := by
  have result : PoolStored item.converted session.db
      (storeTurns env handler stamper item.blockNum maxRPCRetries item.converted session) :=
    storeTurns_poolStored item.blockNum maxRPCRetries first leaves
  obtain ⟨adds, stored⟩ := result
  rw [starts] at adds
  have finishes : processBlocksOnce.enabled
      { run with
        db := (storeWithRetry env handler stamper item.blockNum item.converted session).session.db }
      (.pool (.finishStore item
        (storeWithRetry env handler stamper item.blockNum item.converted session).computed
        queryFails)) := by
    refine ⟨storing, fun succeeded => ?_, ending⟩
    obtain ⟨doc, block, visible⟩ := stored succeeded
    simp only [blockStored, block, Option.any_some, decide_eq_true_eq]
    exact visible
  exact (adds_path storing adds).step finishes

/-! ### Success and completeness -/

theorem leavesBlocks_of_fills (fills : FillsLinks stamper) : LeavesBlocks stamper := by
  intro links listed docs state
  rw [fills.block links listed]

end ShinzoGenerator.Indexer
