import ShinzoGenerator.Defra.BlockHandler

/-! What the batches of a group commit, which ids they hand back for it, which CIDs they
leave in the collector and what their errors tell. A batch may be discarded, run again or
replaced by its fallback, so the collector can hold more than the committed documents:
their CIDs are a sublist of what was gathered. A batch gives up on a transaction conflict
only after its last try. -/

set_option autoImplicit false

namespace ShinzoGenerator.Defra

open Chains Errors

variable {σ : Type} {env : Environment} {handler : BlockHandler} {session : Session σ}

/-! ### Calls -/

theorem call_cases {context : String} {returns : Unit → Session σ → Prop}
    {fails : StoreError → Session σ → Prop}
    (returned : env.failure session.calls = none →
      returns () { session with calls := session.calls + 1 })
    (failed : ∀ text, env.failure session.calls = some text →
      fails { text := context ++ text } { session with calls := session.calls + 1 }) :
    (call env context).Ensures session returns fails := by
  unfold Attempt.Ensures Attempt.run call
  cases met : env.failure session.calls with
  | none => exact returned met
  | some text => exact failed text met

theorem call_either {context : String} {returns : Unit → Session σ → Prop}
    {fails : StoreError → Session σ → Prop}
    (returned : returns () { session with calls := session.calls + 1 })
    (failed : ∀ text, fails { text } { session with calls := session.calls + 1 }) :
    (call env context).Ensures session returns fails :=
  call_cases (fun _ => returned) fun _ _ => failed _

theorem commit_either {context : String} {db : DB} {returns : Unit → Session σ → Prop}
    {fails : StoreError → Session σ → Prop}
    (returned : returns () { session with calls := session.calls + 1, db })
    (failed : ∀ text, fails { text } { session with calls := session.calls + 1 }) :
    (commit env context db).Ensures session returns fails := by
  unfold commit
  rw [Attempt.ensures_bind]
  exact call_either returned failed

/-! ### Counting conflicts -/

/-- The call is answered with a transaction conflict. -/
def Environment.Conflicts (env : Environment) (call : Nat) : Prop :=
  ∃ text, env.failure call = some text ∧ isErrTransactionConflict text = true

/-- Fewer calls conflict than a batch has tries. -/
def FewConflicts (env : Environment) : Prop :=
  ∀ calls : List Nat, calls.Nodup → (∀ call ∈ calls, env.Conflicts call) →
    calls.length < maxBatchRetries

/-- So many of the calls in between conflict. -/
def ConflictsBetween (env : Environment) (count start stop : Nat) : Prop :=
  ∃ calls : List Nat, calls.length = count ∧ calls.Nodup ∧
    ∀ call ∈ calls, start ≤ call ∧ call < stop ∧ env.Conflicts call

theorem ConflictsBetween.earlier {count start earlier stop : Nat}
    (met : ConflictsBetween env count start stop) (before : earlier ≤ start) :
    ConflictsBetween env count earlier stop := by
  obtain ⟨calls, counted, distinct, conflicts⟩ := met
  refine ⟨calls, counted, distinct, fun call member => ?_⟩
  obtain ⟨low, high, conflict⟩ := conflicts call member
  exact ⟨before.trans low, high, conflict⟩

theorem ConflictsBetween.add {count start middle next stop : Nat}
    (one : ConflictsBetween env 1 start middle) (later : middle ≤ next) (ends : next ≤ stop)
    (met : ConflictsBetween env count next stop) :
    ConflictsBetween env (count + 1) start stop := by
  obtain ⟨first, single, _, early⟩ := one
  obtain ⟨call, rfl⟩ := List.length_eq_one_iff.mp single
  obtain ⟨low, high, conflict⟩ := early call (.head _)
  obtain ⟨calls, counted, distinct, conflicts⟩ := met
  refine ⟨call :: calls, by rw [List.length_cons, counted], List.nodup_cons.mpr ⟨?_, distinct⟩, ?_⟩
  · intro again
    have := (conflicts call again).1
    omega
  · intro other member
    cases member with
    | head => exact ⟨low, by omega, conflict⟩
    | tail _ member =>
        obtain ⟨after, before, also⟩ := conflicts other member
        exact ⟨by omega, before, also⟩

theorem ConflictsBetween.many {start stop : Nat}
    (met : ConflictsBetween env maxBatchRetries start stop) : ¬ FewConflicts env := by
  obtain ⟨calls, counted, distinct, conflicts⟩ := met
  intro few
  have := few calls distinct fun call member => (conflicts call member).2.2
  omega

/-- An error text that does not claim an existing block. If it tells of a conflict, so many
of the calls in between met one. -/
structure Told (env : Environment) (count start stop : Nat) (text : String) : Prop where
  truthful : Truthful text
  conflicts : isErrTransactionConflict text = true → ConflictsBetween env count start stop

namespace Told

variable {count start stop : Nat} {text : String}

theorem earlier {first : Nat} (told : Told env count start stop text) (before : first ≤ start) :
    Told env count first stop text :=
  ⟨told.truthful, fun conflict => (told.conflicts conflict).earlier before⟩

theorem sameKind {other : String} (told : Told env count start stop text)
    (same : SameKind other text) : Told env count start stop other :=
  ⟨same.truthful told.truthful, fun conflict =>
    told.conflicts (same.transactionConflict.symm.trans conflict)⟩

theorem other (truthful : Truthful text) (unlike : isErrTransactionConflict text = false) :
    Told env count start stop text := by
  refine ⟨truthful, fun conflict => ?_⟩
  rw [unlike] at conflict
  cases conflict

theorem deleted : Told env count start stop documentDeletedText :=
  .other (by unfold Truthful; decide) (by decide)

theorem canceled : Told env count start stop contextCanceled :=
  .other (by unfold Truthful; decide) (by decide)

/-- The database's own text. -/
theorem answer {call : Nat} (failed : env.failure call = some text) :
    Told env 1 call (call + 1) text := by
  refine ⟨env.reserved call text failed, fun conflict => ?_⟩
  refine ⟨[call], rfl, List.nodup_singleton call, fun other member => ?_⟩
  rw [List.mem_singleton.mp member]
  exact ⟨Nat.le_refl _, Nat.lt_succ_self _, text, failed, conflict⟩

end Told

/-! ### The texts of a batch -/

/-- What the contexts of a batch put before the name of its collection. -/
def batchContexts : List String :=
  ["create txn for ", "get collection ", "create doc in ", "add document to ", "add documents to ",
    "commit ", "write "]

theorem batchContexts_inert :
    ∀ lead ∈ batchContexts, ∀ marker ∈ markers, TextSearch.InertBefore lead marker := by
  simp only [batchContexts, List.forall_mem_cons]
  exact ⟨inert_markers rfl (by decide), inert_markers rfl (by decide),
    inert_markers rfl (by decide), inert_markers rfl (by decide), inert_markers rfl (by decide),
    inert_markers rfl (by decide), inert_markers rfl (by decide), fun _ none => by cases none⟩

theorem collectionName_plain (handler : BlockHandler) (collection : Collection) :
    ' ' ∉ (handler.collectionName collection).toList := by
  have plain := handler.plain
  unfold BlockHandler.collectionName
  rw [String.toList_append, String.toList_append]
  cases collection <;> simp [plain, Collection.suffix]

/-! ### What is committed and gathered -/

/-- One database holds the documents in addition to the other, and these are their ids. -/
structure Account (handler : BlockHandler) (before after : DB) (docs : List Doc)
    (ids : List String) : Prop where
  adds : before.Adds (· ∈ docs) after
  visible : after.visible = before.visible ++ docs
  named : ids = docs.map handler.docID

namespace Account

theorem nothing {db : DB} : Account handler db db [] [] :=
  ⟨.refl, (List.append_nil _).symm, rfl⟩

theorem append {before middle after : DB} {first second : List Doc}
    {ids more : List String} (early : Account handler before middle first ids)
    (late : Account handler middle after second more) :
    Account handler before after (first ++ second) (ids ++ more) where
  adds := (early.adds.mono fun _ member => List.mem_append_left second member).trans
    (late.adds.mono fun _ member => List.mem_append_right first member)
  visible := by rw [late.visible, early.visible, List.append_assoc]
  named := by rw [late.named, early.named, List.map_append]

theorem one {db next : DB} {doc : Doc} (added : db.add doc = .ok next) :
    Account handler db next [doc] [handler.docID doc] :=
  ⟨.add .refl (.head _) added, SoftStore.add_ok_visible added, rfl⟩

theorem all {db next : DB} {docs : List Doc} (added : db.addAll docs = .ok next) :
    Account handler db next docs (docs.map handler.docID) :=
  ⟨SoftStore.adds_addAll (fun _ member => member) added, SoftStore.addAll_ok_visible added, rfl⟩

/-- The ids of what one group committed stand under its collection. -/
theorem listed {collection : Collection} {before after : DB} {docs : List Doc}
    {ids : List String} (account : Account handler before after docs ids)
    (own : ∀ doc ∈ docs, doc.collection = collection) (others : List (Collection × List String)) :
    ∀ doc ∈ docs, ∃ entry ∈ (collection, ids) :: others,
      entry.1 = doc.collection ∧ handler.docID doc ∈ entry.2 := by
  intro doc member
  refine ⟨(collection, ids), .head _, (own doc member).symm, ?_⟩
  rw [account.named]
  exact List.mem_map_of_mem member

end Account

/-- The CIDs were gathered in their order, perhaps with others between them. -/
def Gathered (cids before after : List String) : Prop :=
  ∃ gathered, after = before ++ gathered ∧ cids.Sublist gathered

theorem Gathered.nothing {before after : List String} (kept : before <+: after) :
    Gathered [] before after := by
  obtain ⟨gathered, rfl⟩ := kept
  exact ⟨gathered, rfl, List.nil_sublist _⟩

theorem Gathered.exactly (cids before : List String) : Gathered cids before (before ++ cids) :=
  ⟨cids, rfl, List.Sublist.refl _⟩

theorem Gathered.kept {cids before after : List String} (gathered : Gathered cids before after) :
    before <+: after := by
  obtain ⟨added, rfl, _⟩ := gathered
  exact List.prefix_append before added

theorem Gathered.append {first second before middle after : List String}
    (early : Gathered first before middle) (late : Gathered second middle after) :
    Gathered (first ++ second) before after := by
  obtain ⟨added, rfl, among⟩ := early
  obtain ⟨more, rfl, alsoAmong⟩ := late
  exact ⟨added ++ more, List.append_assoc _ _ _, among.append alsoAmong⟩

/-- Nothing but the count of calls has changed, and perhaps CIDs were gathered. -/
structure Untouched (before after : Session σ) : Prop where
  db : after.db = before.db
  links : after.links = before.links
  collector : before.collector <+: after.collector
  calls : before.calls ≤ after.calls

theorem Untouched.counted {calls : Nat} (later : session.calls ≤ calls) :
    Untouched session { session with calls } :=
  ⟨rfl, rfl, List.prefix_rfl, later⟩

theorem Untouched.trans {before middle after : Session σ} (early : Untouched before middle)
    (late : Untouched middle after) : Untouched before after :=
  ⟨late.db.trans early.db, late.links.trans early.links, early.collector.trans late.collector,
    early.calls.trans late.calls⟩

/-- All of the documents are committed under these ids, and their CIDs gathered. -/
structure Committed (handler : BlockHandler) (docs : List Doc) (before : Session σ)
    (ids : List String) (after : Session σ) : Prop where
  account : Account handler before.db after.db docs ids
  links : after.links = before.links
  gathered : Gathered (docs.map handler.cid) before.collector after.collector
  calls : before.calls ≤ after.calls

theorem Untouched.committed {after : Session σ} (untouched : Untouched session after) :
    Committed handler [] session [] after :=
  ⟨untouched.db ▸ .nothing, untouched.links, .nothing untouched.collector, untouched.calls⟩

theorem Committed.append {first second : List Doc} {ids more : List String}
    {before middle after : Session σ} (early : Committed handler first before ids middle)
    (late : Committed handler second middle more after) :
    Committed handler (first ++ second) before (ids ++ more) after where
  account := early.account.append late.account
  links := late.links.trans early.links
  gathered := by
    rw [List.map_append]
    exact early.gathered.append late.gathered
  calls := early.calls.trans late.calls

/-- A failure hands back the ids of the documents it did commit, and takes no CID away. -/
structure Failed (env : Environment) (handler : BlockHandler) (count : Nat) (docs : List Doc)
    (before : Session σ) (error : StoreError) (after : Session σ) : Prop where
  written : ∃ written, Account handler before.db after.db written error.docIDs ∧
    written.Sublist docs
  links : after.links = before.links
  kept : before.collector <+: after.collector
  calls : before.calls ≤ after.calls
  told : Told env count before.calls after.calls error.text

/-- What follows committed documents fails. -/
theorem Committed.failed {count : Nat} {first second : List Doc} {ids : List String}
    {before middle after : Session σ} {error : StoreError}
    (early : Committed handler first before ids middle)
    (late : Failed env handler count second middle error after) :
    Failed env handler count (first ++ second) before
      { error with docIDs := ids ++ error.docIDs } after := by
  obtain ⟨written, account, among⟩ := late.written
  exact ⟨⟨first ++ written, early.account.append account, (List.Sublist.refl first).append among⟩,
    late.links.trans early.links, early.gathered.kept.trans late.kept, early.calls.trans late.calls,
    late.told.earlier early.calls⟩

def Commits (env : Environment) (handler : BlockHandler) (count : Nat) (docs : List Doc)
    (program : Write σ (List String)) : Prop :=
  ∀ session, program.Ensures session (Committed handler docs session)
    (Failed env handler count docs session)

/-- A failure that has committed nothing. -/
structure Refused (env : Environment) (before : Session σ) (error : StoreError)
    (after : Session σ) : Prop where
  untouched : Untouched before after
  none : error.docIDs = []
  told : Told env 1 before.calls after.calls error.text

theorem Refused.later {before middle after : Session σ} {error : StoreError}
    (early : Untouched before middle) (refused : Refused env middle error after) :
    Refused env before error after :=
  ⟨early.trans refused.untouched, refused.none, refused.told.earlier early.calls⟩

theorem call_refused {start : Session σ} {context : String} {returns : Unit → Session σ → Prop}
    (keeps : ∀ text, SameKind (context ++ text) text) (early : Untouched start session)
    (returned : returns () { session with calls := session.calls + 1 }) :
    (call env context).Ensures session returns (Refused env start) :=
  call_cases (fun _ => returned) fun text failed =>
    .later early ⟨.counted (Nat.le_succ _), rfl, (Told.answer failed).sameKind (keeps text)⟩

theorem commit_refused {start : Session σ} {context : String} {db : DB}
    {returns : Unit → Session σ → Prop} (keeps : ∀ text, SameKind (context ++ text) text)
    (early : Untouched start session)
    (returned : returns () { session with calls := session.calls + 1, db }) :
    (commit env context db).Ensures session returns (Refused env start) := by
  unfold commit
  rw [Attempt.ensures_bind]
  exact call_refused keeps early returned

/-- A failed try: a conflict has committed nothing. -/
def FailsClean (env : Environment) (handler : BlockHandler) (docs : List Doc)
    (before : Session σ) (error : StoreError) (after : Session σ) : Prop :=
  Failed env handler 1 docs before error after ∧
    (isErrTransactionConflict error.text = true → after.db = before.db)

theorem Refused.failsClean {docs : List Doc} {after : Session σ} {error : StoreError}
    (refused : Refused env session error after) : FailsClean env handler docs session error after := by
  have untouched := refused.untouched
  refine ⟨⟨⟨[], ?_, List.nil_sublist _⟩, untouched.links, untouched.collector, untouched.calls,
    refused.told⟩, fun _ => untouched.db⟩
  rw [untouched.db, refused.none]
  exact .nothing

/-! ### One batch -/

section Batch

variable {name : String} (plain : ' ' ∉ name.toList)
include plain

theorem batchContext_keeps {lead close : String} (listed : lead ∈ batchContexts)
    (closes : Closes close) (text : String) : SameKind (lead ++ name ++ close ++ text) text :=
  sameKind_context (batchContexts_inert lead listed) plain closes text

theorem batchCall_refused {lead : String} (listed : lead ∈ batchContexts) {start : Session σ}
    {returns : Unit → Session σ → Prop} (early : Untouched start session)
    (returned : returns () { session with calls := session.calls + 1 }) :
    (call env (lead ++ name ++ ": ")).Ensures session returns (Refused env start) :=
  call_refused (batchContext_keeps plain listed closes_colon) early returned

/-- The text of a batch with skipped documents. -/
theorem previouslyStored_sameKind (skipped total : Nat) :
    SameKind (name ++ " batch: " ++ toString skipped ++ " of " ++ toString total ++
      " documents were previously stored") " documents were previously stored" := by
  have empty : ∀ marker ∈ markers, TextSearch.InertBefore "" marker := by decide
  have named : ∀ text, SameKind (name ++ " batch: " ++ text) text := fun text => by
    simpa using sameKind_context empty plain closes_batch text
  have numbers : SameKind (toString skipped ++ (" of " ++ (toString total ++
      " documents were previously stored"))) " documents were previously stored" :=
    (sameKind_natToString _ _).trans ((sameKind_before (inert_markers rfl (by decide)) _).trans
      (sameKind_natToString _ _))
  have split : name ++ " batch: " ++ toString skipped ++ " of " ++ toString total ++
      " documents were previously stored" = name ++ " batch: " ++ (toString skipped ++ (" of " ++
        (toString total ++ " documents were previously stored"))) := by
    simp only [String.append_assoc]
  rw [split]
  exact (named _).trans numbers

/-- A batch with skipped documents is not run again. -/
theorem previouslyStored_not_conflict (skipped total : Nat) :
    isErrTransactionConflict (name ++ " batch: " ++ toString skipped ++ " of " ++ toString total ++
      " documents were previously stored") = false := by
  rw [(previouslyStored_sameKind plain skipped total).transactionConflict]
  decide

/-- The documents the fallback wrote, in its transaction. -/
theorem addEach_account (docs : List Doc) (db : DB) (session : Session σ) :
    (addEach env handler name docs db).Ensures session
      (fun added after => Untouched session after ∧
        Account handler db added.1 added.2.1 (added.2.1.map handler.docID) ∧
        added.2.1.Sublist docs ∧ added.2.1.length + added.2.2 = docs.length ∧
        Gathered (added.2.1.map handler.cid) session.collector after.collector)
      (Refused env session) := by
  induction docs generalizing db session with
  | nil =>
      exact ⟨.counted (Nat.le_refl _), .nothing, List.Sublist.refl _, rfl, .nothing List.prefix_rfl⟩
  | cons doc docs ih =>
      unfold addEach
      simp only [Attempt.ensures_bind]
      refine batchCall_refused plain (by simp [batchContexts]) (.counted (Nat.le_refl _)) ?_
      refine batchCall_refused plain (by simp [batchContexts]) (.counted (Nat.le_succ _)) ?_
      cases added : db.add doc with
      | error error =>
          cases error with
          | alreadyExists =>
              rw [Attempt.ensures_bind]
              refine (ih db _).mono ?_ fun _ _ => .later (.counted (Nat.le_add_right _ 2))
              rintro rest after ⟨untouched, account, among, counted, gathered⟩
              refine ⟨.trans (.counted (Nat.le_add_right _ 2)) untouched, account, among.cons doc, ?_,
                gathered⟩
              simp only [List.length_cons]
              omega
          | deleted =>
              exact ⟨.counted (Nat.le_add_right _ 2), rfl, Told.deleted.sameKind
                (batchContext_keeps plain (by simp [batchContexts]) closes_colon _)⟩
      | ok next =>
          simp only [Attempt.ensures_bind]
          unfold collect
          rw [Attempt.ensures_change]
          have early : Untouched session
              { session with
                calls := session.calls + 1 + 1
                collector := session.collector ++ [doc].map handler.cid } :=
            ⟨rfl, rfl, List.prefix_append _ _, Nat.le_add_right _ 2⟩
          refine (ih next _).mono ?_ fun _ _ => .later early
          rintro rest after ⟨untouched, account, among, counted, gathered⟩
          refine ⟨early.trans untouched, (Account.one added).append account, among.cons_cons doc, ?_,
            (Gathered.exactly [handler.cid doc] _).append gathered⟩
          simp only [List.length_cons]
          omega

theorem addDocsSkipExisting_account (docs : List Doc) (session : Session σ) :
    (addDocsSkipExisting env handler name docs).Ensures session
      (fun outcome after =>
        Committed handler outcome.1 session (outcome.1.map handler.docID) after ∧
          outcome.1.Sublist docs ∧ outcome.1.length + outcome.2 = docs.length)
      (Refused env session) := by
  unfold addDocsSkipExisting
  simp only [Attempt.ensures_bind]
  refine batchCall_refused plain (by simp [batchContexts]) (.counted (Nat.le_refl _)) ?_
  refine batchCall_refused plain (by simp [batchContexts]) (.counted (Nat.le_succ _)) ?_
  rw [Attempt.ensures_read]
  have early : Untouched session { session with calls := session.calls + 1 + 1 } :=
    .counted (Nat.le_add_right _ 2)
  refine (addEach_account plain docs _ _).mono ?_ fun _ _ => .later early
  rintro added after ⟨untouched, account, among, counted, gathered⟩
  have same := early.trans untouched
  split
  · rename_i none
    refine ⟨?_, among, counted⟩
    rw [none]
    exact same.committed
  · rw [Attempt.ensures_bind]
    refine commit_refused (batchContext_keeps plain (by simp [batchContexts]) closes_batch) same ?_
    exact ⟨⟨account, same.links, gathered, same.calls.trans (Nat.le_succ _)⟩, among, counted⟩

theorem writeBatchSkipExisting_account (docs : List Doc) (session : Session σ) :
    (writeBatchSkipExisting env handler name docs).Ensures session
      (Committed handler docs session) (FailsClean env handler docs session) := by
  unfold writeBatchSkipExisting
  rw [Attempt.ensures_bind, Attempt.ensures_mapError]
  refine (addDocsSkipExisting_account plain docs session).mono ?_ ?_
  · rintro outcome after ⟨done, among, counted⟩
    split
    · have unlike := previouslyStored_not_conflict plain outcome.2 docs.length
      refine ⟨⟨⟨outcome.1, done.account, among⟩, done.links, done.gathered.kept, done.calls, ?_⟩, ?_⟩
      · refine .other ?_ unlike
        exact (previouslyStored_sameKind plain _ _).truthful (by unfold Truthful; decide)
      · intro conflict
        rw [unlike] at conflict
        cases conflict
    · rename_i noneSkipped
      have all : outcome.1 = docs := among.eq_of_length (by omega)
      rwa [Attempt.ensures_pure, ← all]
  · intro error after refused
    exact Refused.failsClean ⟨refused.untouched, rfl, refused.told.sameKind
      (batchContext_keeps plain (by simp [batchContexts]) closes_perDocument _)⟩

theorem addManyDocuments_account (docs : List Doc) (session : Session σ) :
    (addManyDocuments env handler name docs).Ensures session
      (fun bulk after => Untouched session after ∧
        ∀ db, bulk = some db → session.db.addAll docs = .ok db ∧
          after.collector = session.collector ++ docs.map handler.cid)
      (Refused env session) := by
  have keeps : ∀ text, SameKind ("add documents to " ++ name ++ ": " ++ text) text :=
    batchContext_keeps plain (by simp [batchContexts]) closes_colon
  have untouched : ∀ more, Untouched session
      { session with calls := session.calls + 1, collector := session.collector ++ more } :=
    fun more => ⟨rfl, rfl, List.prefix_append _ more, Nat.le_succ _⟩
  unfold Attempt.Ensures Attempt.run addManyDocuments
  cases failed : env.failure session.calls with
  | some text => exact ⟨untouched _, rfl, (Told.answer failed).sameKind (keeps text)⟩
  | none =>
      cases env.purged session.calls with
      | true => exact ⟨untouched _, (by intros; contradiction)⟩
      | false =>
          cases added : session.db.addAll docs with
          | error error =>
              cases error with
              | alreadyExists => exact ⟨untouched _, (by intros; contradiction)⟩
              | deleted => exact ⟨untouched _, rfl, Told.deleted.sameKind (keeps _)⟩
          | ok db =>
              refine ⟨untouched _, ?_⟩
              rintro _ ⟨⟩
              exact ⟨rfl, rfl⟩

theorem buildDocs_untouched (docs : List Doc) (session : Session σ) :
    (buildDocs env name docs).Ensures session (fun _ after => Untouched session after ∧
        after.collector = session.collector)
      (Refused env session) := by
  induction docs generalizing session with
  | nil => exact ⟨.counted (Nat.le_refl _), rfl⟩
  | cons doc docs ih =>
      unfold buildDocs
      rw [Attempt.ensures_bind]
      refine batchCall_refused plain (by simp [batchContexts]) (.counted (Nat.le_refl _)) ?_
      have early : Untouched session { session with calls := session.calls + 1 } :=
        .counted (Nat.le_succ _)
      exact (ih _).mono (fun _ _ facts => ⟨early.trans facts.1, facts.2⟩) fun _ _ => .later early

theorem createDocsInTxn_account (docs : List Doc) (session : Session σ) :
    (createDocsInTxn env handler name docs).Ensures session
      (Committed handler docs session) (FailsClean env handler docs session) := by
  unfold createDocsInTxn
  simp only [Attempt.ensures_bind]
  refine (batchCall_refused plain (by simp [batchContexts]) (.counted (Nat.le_refl _)) ?_).mono
    (fun _ _ facts => facts) fun _ _ refused => refused.failsClean
  refine (batchCall_refused plain (by simp [batchContexts]) (.counted (Nat.le_succ _)) ?_).mono
    (fun _ _ facts => facts) fun _ _ refused => refused.failsClean
  refine (buildDocs_untouched plain docs _).mono ?_ fun _ _ refused =>
    (refused.later (.counted (Nat.le_add_right _ 2))).failsClean
  rintro _ built ⟨unchanged, collector⟩
  have early : Untouched session built := .trans (.counted (Nat.le_add_right _ 2)) unchanged
  split
  · rename_i none
    rw [Attempt.ensures_pure, none]
    exact early.committed
  · rw [Attempt.ensures_bind]
    refine (addManyDocuments_account plain docs built).mono ?_ fun _ _ refused =>
      (refused.later early).failsClean
    rintro bulk after ⟨untouched, added⟩
    have before := early.trans untouched
    cases bulk with
    | none =>
        refine (writeBatchSkipExisting_account plain docs after).mono
          (fun _ _ done => before.committed.append done) fun error last failed => ⟨?_, ?_⟩
        · exact before.committed.failed failed.1
        · exact fun conflict => (failed.2 conflict).trans before.db
    | some db =>
        obtain ⟨whole, gathered⟩ := added db rfl
        rw [Attempt.ensures_bind]
        refine (commit_refused (batchContext_keeps plain (by simp [batchContexts]) closes_batch)
          before ?_).mono (fun _ _ facts => facts) fun _ _ refused => refused.failsClean
        refine ⟨?_, before.links, ?_, before.calls.trans (Nat.le_succ _)⟩
        · rw [early.db] at whole
          exact .all whole
        · change Gathered _ _ after.collector
          rw [gathered, collector]
          exact .exactly _ _

end Batch

/-- A failed try gives its CIDs back. -/
theorem Failed.truncated {count : Nat} {docs : List Doc} {after : Session σ} {error : StoreError}
    (failed : Failed env handler 1 docs session error after)
    (last : isErrTransactionConflict error.text = true → count = 1) :
    Failed env handler count docs session error
      { after with collector := after.collector.take session.collector.length } := by
  refine ⟨failed.written, failed.links, ?_, failed.calls, failed.told.truthful, fun conflict => ?_⟩
  · change _ <+: after.collector.take session.collector.length
    rw [← List.prefix_iff_eq_take.mp failed.kept]
  · rw [last conflict]
    exact failed.told.conflicts conflict

/-- The last try decides what is committed, and an earlier one leaves no CID behind. Each
try that conflicts has met a conflict of its own. -/
theorem writeBatchWithRetry_commits {docs : List Doc} {write : Write σ (List String)}
    (tries : ∀ session, write.Ensures session (Committed handler docs session)
      (FailsClean env handler docs session)) (remaining : Nat) :
    Commits env handler (remaining + 1) docs (writeBatchWithRetry env write (remaining + 1)) := by
  induction remaining with
  | zero =>
      intro session
      unfold writeBatchWithRetry
      rw [Attempt.ensures_recover]
      refine (tries session).mono (fun _ _ done => done) fun error after failed => ?_
      rw [Attempt.ensures_bind, Attempt.ensures_change, if_pos (.inr rfl)]
      exact failed.1.truncated fun _ => rfl
  | succ remaining ih =>
      intro session
      unfold writeBatchWithRetry
      rw [Attempt.ensures_recover]
      refine (tries session).mono (fun _ _ done => done) fun error after failed => ?_
      rw [Attempt.ensures_bind, Attempt.ensures_change]
      split
      · rename_i last
        refine failed.1.truncated fun conflict => ?_
        rw [conflict] at last
        simp at last
      · rename_i again
        rw [Attempt.ensures_bind]
        change (if _ then _ else _ : Write σ _).Ensures _ _ _
        have conflict : isErrTransactionConflict error.text = true := by
          rw [not_or, Bool.not_eq_false] at again
          exact again.1
        have truncated := List.prefix_iff_eq_take.mp failed.1.kept
        have early : Untouched session
            { after with
              collector := after.collector.take session.collector.length
              calls := after.calls + 1 } :=
          ⟨failed.2 conflict, failed.1.links, by simp only [← truncated, List.prefix_rfl],
            failed.1.calls.trans (Nat.le_succ _)⟩
        split
        · exact ⟨failed.1.written, early.links, early.collector, early.calls,
            .canceled⟩
        · refine (ih _).mono (fun _ _ done => early.committed.append done)
            fun other last late => ?_
          have whole := early.committed.failed late
          exact ⟨whole.written, whole.links, whole.kept, whole.calls, late.told.truthful, fun met =>
            (failed.1.told.conflicts conflict).add (Nat.le_succ _) late.calls
              (late.told.conflicts met)⟩

/-! ### The batches of a group -/

theorem batches_flatten {size : Nat} (positive : 0 < size) (fuel : Nat) (docs : List Doc)
    (enough : docs.length ≤ fuel) : (batches size fuel docs).flatten = docs := by
  induction fuel generalizing docs with
  | zero =>
      rw [List.length_eq_zero_iff.mp (Nat.le_zero.mp enough)]
      rfl
  | succ fuel ih =>
      unfold batches
      split
      · rename_i none
        rw [none]
        rfl
      · rename_i some
        have shorter : (docs.drop size).length ≤ fuel := by
          have := List.length_pos_iff.mpr some
          rw [List.length_drop]
          omega
        rw [List.flatten_cons, ih _ shorter, List.take_append_drop]

theorem writeBatches_commits {name : String} (plain : ' ' ∉ name.toList)
    (chunks : List (List Doc)) :
    Commits env handler maxBatchRetries chunks.flatten
      (writeBatches env handler name chunks : Write σ _) := by
  induction chunks with
  | nil => exact fun session => Untouched.committed (.counted (Nat.le_refl _))
  | cons batch rest ih =>
      intro session
      rw [List.flatten_cons]
      unfold writeBatches
      simp only [Attempt.ensures_bind, Attempt.ensures_mapError, Attempt.ensures_pure]
      refine (writeBatchWithRetry_commits (createDocsInTxn_account plain batch) 2 session).mono ?_ ?_
      · intro ids after done
        exact (ih after).mono (fun _ _ late => done.append late) fun _ _ late => done.failed late
      · intro error after failed
        obtain ⟨written, account, among⟩ := failed.written
        exact ⟨⟨written, account, among.trans (List.sublist_append_left _ _)⟩, failed.links,
          failed.kept, failed.calls, failed.told⟩

theorem writeGroup_commits (group : DocumentGroup) :
    Commits env handler maxBatchRetries group.stored
      (writeGroup env handler group : Write σ (List String)) := by
  have size : 0 < (if group.batchSize = 0 then handler.maxDocsPerTxn else group.batchSize) := by
    have := handler.positive
    split <;> omega
  have commits : Commits env handler maxBatchRetries _
      (writeGroup env handler group : Write σ (List String)) :=
    writeBatches_commits (collectionName_plain handler group.collection) _
  rwa [batches_flatten size _ _ (Nat.le_refl _)] at commits

end ShinzoGenerator.Defra
