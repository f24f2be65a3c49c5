import ShinzoGenerator.Defra.Batches

/-! What `Store` guarantees: a group that is written without an error is visible
as a whole, visible documents stay, and only an existing block document makes the
call say that something already exists. -/

set_option autoImplicit false

namespace ShinzoGenerator.Defra

open Chains Errors

variable {σ : Type} {env : Environment} {handler : BlockHandler} {session : Session σ}

/-! ### The block document -/

/-- The block document is added, or the store is unchanged; an error that claims it
exists comes from the insertion of a stored block document. -/
theorem storeBlockDoc_ensures (doc : Doc) :
    (storeBlockDoc env handler doc).Ensures session
      (fun blockID after => session.db.add doc = .ok after.db ∧ blockID = handler.docID doc ∧
        after.links = session.links ∧ after.collector = session.collector ++ [handler.cid doc])
      (fun error after => after.db = session.db ∧ (isErrAlreadyExists error.text = true →
        doc ∈ session.db.visible)) := by
  have refuse : ∀ context text, (∀ marker ∈ markers, TextSearch.InertBefore context marker) →
      Truthful text → isErrAlreadyExists (context ++ text) = true → doc ∈ session.db.visible := by
    intro context text inert truthful claimed
    rw [(sameKind_before inert text).truthful truthful] at claimed
    cases claimed
  unfold storeBlockDoc
  simp only [Attempt.ensures_bind]
  refine call_cases (fun _ => ?_) fun text failed =>
    ⟨rfl, refuse _ text (inert_markers rfl (by decide)) (env.reserved _ text failed)⟩
  refine call_cases (fun _ => ?_) fun text failed =>
    ⟨rfl, refuse _ text (inert_markers rfl (by decide)) (env.reserved _ text failed)⟩
  refine call_cases (fun _ => ?_) fun text failed =>
    ⟨rfl, refuse _ text (inert_markers rfl (by decide)) (env.reserved _ text failed)⟩
  refine call_cases (fun _ => ?_) fun text failed =>
    ⟨rfl, refuse _ text (inert_markers rfl (by decide)) (env.reserved _ text failed)⟩
  rw [Attempt.ensures_read]
  cases added : session.db.add doc with
  | error error =>
      cases error with
      | alreadyExists =>
          rw [Attempt.ensures_fail]
          exact ⟨rfl, fun _ => SoftStore.add_alreadyExists_iff.mp added⟩
      | deleted =>
          rw [Attempt.ensures_fail]
          exact ⟨rfl, refuse _ _ (inert_markers rfl (by decide)) (by unfold Truthful; decide)⟩
  | ok db =>
      simp only [Attempt.ensures_bind]
      unfold collect commit
      rw [Attempt.ensures_change, Attempt.ensures_bind]
      refine call_cases (fun _ => ?_) fun text failed =>
        ⟨rfl, refuse _ text (inert_markers rfl (by decide)) (env.reserved _ text failed)⟩
      exact ⟨rfl, rfl, rfl, rfl⟩

/-! ### Stampers that fill in links -/

/-- The stamper changes nothing but links, has none for the block group, and its errors are
not taken for conflicts. -/
structure FillsLinks (stamper : Option (LinkStamper σ)) : Prop where
  content : ∀ links ∈ stamper, ∀ collection docs state,
    List.Forall₂ SameContent docs (links.stampBeforeWrite collection docs state).2.1
  block : ∀ links ∈ stamper, ∀ docs state,
    (links.stampBeforeWrite .block docs state).2 = (docs, none)
  stampErrors : ∀ links ∈ stamper, ∀ collection docs state text,
    (links.stampBeforeWrite collection docs state).2.2 = some text →
      isErrTransactionConflict text = false
  recordErrors : ∀ links ∈ stamper, ∀ collection docs ids state text,
    (links.recordDocIDs collection docs ids state).2 = some text →
      isErrTransactionConflict text = false

/-- An error behind the block document: where the stamper only fills in links, it is a
conflict only after many of them. -/
structure BatchError (env : Environment) (stamper : Option (LinkStamper σ)) (text : String) :
    Prop where
  truthful : Truthful text
  many : FillsLinks stamper → isErrTransactionConflict text = true → ¬ FewConflicts env

theorem BatchError.sameKind {stamper : Option (LinkStamper σ)} {text other : String}
    (failed : BatchError env stamper text) (same : SameKind other text) :
    BatchError env stamper other :=
  ⟨same.truthful failed.truthful, fun fills conflict =>
    failed.many fills (same.transactionConflict.symm.trans conflict)⟩

theorem BatchError.other {stamper : Option (LinkStamper σ)} {text : String}
    (truthful : Truthful text)
    (unlike : FillsLinks stamper → isErrTransactionConflict text = false) :
    BatchError env stamper text := by
  refine ⟨truthful, fun fills conflict => ?_⟩
  rw [unlike fills] at conflict
  cases conflict

/-! ### Groups -/

section Groups

variable (stamper : Option (LinkStamper σ)) (group : DocumentGroup)

theorem stampBeforeWrite_facts (session : Session σ) :
    (stampBeforeWrite stamper group session).2.2.db = session.db ∧
      (stampBeforeWrite stamper group session).2.2.calls = session.calls ∧
      (stampBeforeWrite stamper group session).2.2.collector = session.collector ∧
      (stampBeforeWrite stamper group session).1.collection = group.collection ∧
      (stampBeforeWrite stamper group session).1.docs.length = group.docs.length := by
  cases stamper with
  | none => exact ⟨rfl, rfl, rfl, rfl, rfl⟩
  | some stamper => exact ⟨rfl, rfl, rfl, rfl, stamper.inPlace _ _ _⟩

theorem recordDocIDs_facts (ids : List String) (session : Session σ) :
    (recordDocIDs stamper group ids session).2.db = session.db ∧
      (recordDocIDs stamper group ids session).2.collector = session.collector := by
  cases stamper with
  | none => exact ⟨rfl, rfl⟩
  | some stamper => exact ⟨rfl, rfl⟩

theorem stampBeforeWrite_error (env : Environment) (session : Session σ) (text : String)
    (failed : (stampBeforeWrite stamper group session).2.1 = some text) :
    BatchError env stamper text := by
  cases stamper with
  | none => cases failed
  | some links =>
      exact .other (links.stampErrors _ _ _ text failed) fun fills =>
        fills.stampErrors links rfl _ _ _ text failed

theorem recordDocIDs_error (env : Environment) (ids : List String) (session : Session σ)
    (text : String) (failed : (recordDocIDs stamper group ids session).1 = some text) :
    BatchError env stamper text := by
  cases stamper with
  | none => cases failed
  | some links =>
      exact .other (links.recordErrors _ _ _ _ text failed) fun fills =>
        fills.recordErrors links rfl _ _ _ _ text failed

end Groups

/-- Every document of every group is among these documents, up to its links. -/
def Covers (docs : List Doc) (groups : List DocumentGroup) : Prop :=
  ∀ group ∈ groups, ∀ doc ∈ group.stored, ∃ stored ∈ docs, stored.CopyOf doc

instance (docs : List Doc) (groups : List DocumentGroup) : Decidable (Covers docs groups) :=
  inferInstanceAs (Decidable (∀ group ∈ groups, ∀ doc ∈ group.stored, ∃ stored ∈ docs, _))

/-- Every document of every group is visible, up to its links. -/
def Complete (db : DB) (groups : List DocumentGroup) : Prop := Covers db.visible groups

instance (db : DB) (groups : List DocumentGroup) : Decidable (Complete db groups) :=
  inferInstanceAs (Decidable (Covers db.visible groups))

/-- The groups are visible with the links they have. -/
def Shown (db : DB) (groups : List DocumentGroup) : Prop :=
  ∀ group ∈ groups, group.stored ⊆ db.visible

/-- The documents belong to the collection of one of the groups. -/
def OfGroups (groups : List DocumentGroup) (doc : Doc) : Prop :=
  ∃ group ∈ groups, doc.collection = group.collection

/-- The documents that the groups behind the block group have committed: their ids are
handed back under their collections, and without an error they are all of them. -/
structure GroupsAccount (env : Environment) (handler : BlockHandler)
    (stamper : Option (LinkStamper σ)) (groups : List DocumentGroup) (session : Session σ)
    (docs : List Doc) (written : GroupsWritten σ) : Prop where
  account : Account handler session.db written.session.db docs
    (written.otherDocIDs.flatMap (·.2))
  own : ∀ doc ∈ docs, OfGroups groups doc
  listed : ∀ doc ∈ docs, ∃ entry ∈ written.otherDocIDs,
    entry.1 = doc.collection ∧ handler.docID doc ∈ entry.2
  among : docs.Sublist (written.groups.flatMap DocumentGroup.stored)
  whole : written.error = none → docs = written.groups.flatMap DocumentGroup.stored ∧
    Gathered (docs.map handler.cid) session.collector written.session.collector
  told : ∀ text, written.error = some text → BatchError env stamper text

theorem GroupsAccount.shown {stamper : Option (LinkStamper σ)} {groups : List DocumentGroup}
    {docs : List Doc} {written : GroupsWritten σ}
    (account : GroupsAccount env handler stamper groups session docs written)
    (finished : written.error = none) : Shown written.session.db written.groups := by
  intro group member doc stored
  rw [account.account.visible, (account.whole finished).1]
  exact List.mem_append_right _ (List.mem_flatMap.mpr ⟨group, member, stored⟩)

theorem writeGroups_account (stamper : Option (LinkStamper σ)) (groups : List DocumentGroup)
    (session : Session σ) :
    ∃ docs, GroupsAccount env handler stamper groups session docs
      (writeGroups env handler stamper groups session) := by
  induction groups generalizing session with
  | nil =>
      exact ⟨[], .nothing, by simp, by simp, by simp [writeGroups],
        fun _ => ⟨rfl, .nothing List.prefix_rfl⟩, (by intros; contradiction)⟩
  | cons group rest ih =>
      obtain ⟨stampDb, _, stampCollector, collection, _⟩ :=
        stampBeforeWrite_facts stamper group session
      have stampError := stampBeforeWrite_error stamper group env session
      unfold writeGroups
      rcases stamping : stampBeforeWrite stamper group session with ⟨stamped, _ | error, prepared⟩
      · rw [stamping] at stampDb collection stampCollector
        simp only at stampDb stampCollector collection
        have own : ∀ doc ∈ stamped.stored, doc.collection = group.collection := by
          intro doc member
          obtain ⟨fields, _, rfl⟩ := List.mem_map.mp member
          exact collection
        have commits : (writeGroup env handler stamped).Ensures prepared _ _ :=
          writeGroup_commits stamped prepared
        simp only
        rcases ran : (writeGroup env handler stamped).run prepared with ⟨error | ids, after⟩
        · have failed := commits.of_error ran
          obtain ⟨written, account, among⟩ := failed.written
          rw [stampDb] at account
          have placed := fun doc member => own doc (among.subset member)
          refine ⟨written, by simpa using account, fun doc member => ?_, account.listed placed [],
            among.trans (List.sublist_append_left _ _), (by intros; contradiction), ?_⟩
          · exact ⟨group, .head _, placed doc member⟩
          · rintro _ ⟨⟩
            exact ⟨failed.told.truthful, fun _ conflict => (failed.told.conflicts conflict).many⟩
        · have done := commits.of_ok ran
          have account := done.account
          have gathered := done.gathered
          rw [stampDb] at account
          rw [stampCollector] at gathered
          have placed : ∀ doc ∈ stamped.stored, OfGroups (group :: rest) doc :=
            fun doc member => ⟨group, .head _, own doc member⟩
          obtain ⟨recordDb, recordCollector⟩ := recordDocIDs_facts stamper stamped ids after
          have recordError := recordDocIDs_error stamper stamped env ids after
          simp only
          rcases recording : recordDocIDs stamper stamped ids after with ⟨_ | error, recorded⟩
          · rw [recording] at recordDb recordCollector
            simp only at recordDb recordCollector
            obtain ⟨docs, later⟩ := ih recorded
            have late := later.account
            rw [recordDb] at late
            refine ⟨stamped.stored ++ docs, account.append late, ?_, ?_, ?_, fun finished => ?_,
              later.told⟩
            · refine List.forall_mem_append.mpr ⟨placed, fun doc member => ?_⟩
              obtain ⟨other, among, same⟩ := later.own doc member
              exact ⟨other, .tail _ among, same⟩
            · refine List.forall_mem_append.mpr ⟨account.listed own _, fun doc member => ?_⟩
              obtain ⟨entry, present, facts⟩ := later.listed doc member
              exact ⟨entry, .tail _ present, facts⟩
            · exact (List.Sublist.refl _).append later.among
            · obtain ⟨whole, alsoGathered⟩ := later.whole finished
              rw [recordCollector] at alsoGathered
              rw [List.map_append]
              exact ⟨congrArg (stamped.stored ++ ·) whole, gathered.append alsoGathered⟩
          · rw [recording] at recordDb recordError
            simp only at recordDb
            exact ⟨stamped.stored, by simpa [recordDb] using account, placed, account.listed own [],
              List.sublist_append_left _ _, (by intros; contradiction), recordError⟩
      · rw [stamping] at stampDb stampError
        simp only at stampDb
        refine ⟨[], ?_, by simp, by simp, List.nil_sublist _, (by intros; contradiction), stampError⟩
        simp only [stampDb]
        exact .nothing

/-! ### The signature -/

theorem signBlockOverCIDs_ensures (blockNumber : Int) (blockHash : String) (cids : List String)
    (collection : Collection) (session : Session σ) :
    (signBlockOverCIDs env handler blockNumber blockHash cids collection).Ensures session
      (fun id after => ∃ fields doc,
        doc = buildBlockSignatureDocument blockNumber blockHash cids collection fields ∧
        env.sign session.calls cids = some fields ∧ id = handler.docID doc ∧
        session.db.add doc = .ok after.db)
      (fun _ after => after.db = session.db) := by
  unfold signBlockOverCIDs
  rw [Attempt.ensures_bind, Attempt.ensures_read]
  cases signing : env.sign session.calls cids with
  | none => exact rfl
  | some fields =>
      simp only [Attempt.ensures_bind]
      refine call_either ?_ fun _ => rfl
      refine call_either ?_ fun _ => rfl
      refine call_either ?_ fun _ => rfl
      refine call_either ?_ fun _ => rfl
      rw [Attempt.ensures_read]
      simp only
      split
      · exact rfl
      · exact rfl
      · rename_i db added
        rw [Attempt.ensures_bind]
        refine commit_either ?_ fun _ => rfl
        exact ⟨fields, _, rfl, rfl, rfl, added⟩

/-- Either nothing is signed, or there was no error and one CID per document. -/
theorem signStoredBlock_ensures (env : Environment) (handler : BlockHandler) (blockNumber : Int)
    (blockHash : String) (allDocIDs batchErrors : List String) (collection : Collection)
    (session : Session σ) :
    let signed := signStoredBlock env handler blockNumber blockHash allDocIDs batchErrors
      collection session
    (signed.1 = "" ∧ signed.2.db = session.db) ∨
      ∃ fields doc,
        doc = buildBlockSignatureDocument blockNumber blockHash session.collector collection fields ∧
        (batchErrors = [] ∧ session.collector.length = allDocIDs.length) ∧
        env.sign session.calls session.collector = some fields ∧ signed.1 = handler.docID doc ∧
        session.db.add doc = .ok signed.2.db := by
  unfold signStoredBlock
  dsimp only
  split
  · exact .inl ⟨rfl, rfl⟩
  · rename_i complete
    rw [not_or, not_ne_iff, not_ne_iff] at complete
    have signs : (signBlockOverCIDs env handler blockNumber blockHash session.collector
        collection).Ensures session _ _ :=
      signBlockOverCIDs_ensures blockNumber blockHash session.collector collection session
    rcases ran : (signBlockOverCIDs env handler blockNumber blockHash session.collector
      collection).run session with ⟨error | signature, after⟩
    · exact .inl ⟨rfl, signs.of_error ran⟩
    · obtain ⟨fields, doc, built, signed, named, added⟩ := signs.of_ok ran
      exact .inr ⟨fields, doc, built, complete, signed, named, added⟩

/-- A signature is added if every document with its number and hash may be. -/
theorem signStoredBlock_adds_allowed {allowed : Doc → Prop} {blockNumber : Int}
    {blockHash : String} {collection : Collection}
    (signature : ∀ cids fields,
      allowed (buildBlockSignatureDocument blockNumber blockHash cids collection fields))
    (allDocIDs batchErrors : List String) (session : Session σ) :
    session.db.Adds allowed (signStoredBlock env handler blockNumber blockHash allDocIDs
      batchErrors collection session).2.db := by
  rcases signStoredBlock_ensures env handler blockNumber blockHash allDocIDs batchErrors collection
    session with ⟨_, same⟩ | ⟨fields, _, rfl, _, _, _, added⟩
  · rw [same]
    exact .refl
  · exact .add .refl (signature _ fields) added

theorem signStoredBlock_adds (blockNumber : Int) (blockHash : String)
    (allDocIDs batchErrors : List String) (collection : Collection) (session : Session σ) :
    session.db.Adds (·.collection = collection) (signStoredBlock env handler blockNumber blockHash
      allDocIDs batchErrors collection session).2.db :=
  signStoredBlock_adds_allowed (fun _ _ => rfl) allDocIDs batchErrors session

theorem partiallyIndexed_sameKind (blockNumber : Int) (batchErrors : List String)
    (first : String) : SameKind (partiallyIndexed blockNumber batchErrors first) first := by
  have split : partiallyIndexed blockNumber batchErrors first =
      "block " ++ (toString blockNumber ++ (" partially indexed with " ++
        (toString batchErrors.length ++ (" batch errors (first: " ++ (first ++ ")"))))) := by
    simp only [partiallyIndexed, String.append_assoc]
  rw [split]
  exact (sameKind_before (inert_markers rfl (by decide)) _).trans ((sameKind_intToString _ _).trans
    ((sameKind_before (inert_markers rfl (by decide)) _).trans ((sameKind_natToString _ _).trans
      ((sameKind_before (inert_markers rfl (by decide)) _).trans
        (sameKind_after (by decide +kernel) _)))))

/-- What a call adds behind its block document. -/
def OfOthers (converted : ConversionResult) (others : List DocumentGroup) (doc : Doc) : Prop :=
  doc.collection = converted.signatureCollection ∨ OfGroups others doc

/-- Behind a stored block document, an error is never taken for an existing block,
and without one the other groups are complete. -/
theorem storeOthers_spec (env : Environment) (handler : BlockHandler)
    (stamper : Option (LinkStamper σ)) (converted : ConversionResult)
    (blockNumber : Int) (blockHash : String) (blockGroup : DocumentGroup)
    (others : List DocumentGroup) (blockID : String) (session : Session σ) :
    let reply := storeOthers env handler stamper converted blockNumber blockHash blockGroup others
      blockID session
    session.db.Adds (OfOthers converted others) reply.session.db ∧
      (∀ text, reply.error = some text → BatchError env stamper text) ∧
      (reply.error = none → ∃ written, reply.groups = blockGroup :: written ∧
        Shown reply.session.db written) := by
  obtain ⟨recordDb, _⟩ := recordDocIDs_facts stamper blockGroup [blockID] session
  have recordError := recordDocIDs_error stamper blockGroup env [blockID] session
  obtain ⟨docs, groups⟩ : ∃ docs, GroupsAccount env handler stamper others _ docs
      (writeGroups env handler stamper others _) :=
    writeGroups_account stamper others (recordDocIDs stamper blockGroup [blockID] session).2
  unfold storeOthers
  dsimp only
  generalize recordDocIDs stamper blockGroup [blockID] session = recorded
    at recordDb recordError groups ⊢
  generalize writeGroups env handler stamper others recorded.2 = written at groups ⊢
  refine ⟨?_, ?_, ?_⟩
  · have adds : recorded.2.db.Adds (OfOthers converted others) written.session.db :=
      groups.account.adds.mono fun doc member => .inr (groups.own doc member)
    rw [recordDb] at adds
    exact adds.trans ((signStoredBlock_adds _ _ _ _ _ _).mono fun _ own => .inl own)
  · intro text failed
    obtain ⟨first, found, rfl⟩ := Option.map_eq_some_iff.mp failed
    refine .sameKind ?_ (partiallyIndexed_sameKind _ _ _)
    rcases List.mem_append.mp (List.mem_of_head? found) with early | late
    · exact recordError first (Option.mem_toList.mp early)
    · exact groups.told first (Option.mem_toList.mp late)
  · intro sound
    have noErrors := List.head?_eq_none_iff.mp (Option.map_eq_none_iff.mp sound)
    have finished : written.error = none :=
      Option.toList_eq_nil_iff.mp (List.append_eq_nil_iff.mp noErrors).2
    exact ⟨written.groups, rfl, fun group member _ stored =>
      (signStoredBlock_adds _ _ _ _ _ _).visible (groups.shown finished group member stored)⟩

/-- A group as stamping leaves it. -/
def Restamped (stamper : Option (LinkStamper σ)) (before after : DocumentGroup) : Prop :=
  after = before ∨ ∃ session, after = (stampBeforeWrite stamper before session).1

theorem Restamped.shape {stamper : Option (LinkStamper σ)} {before after : DocumentGroup}
    (restamped : Restamped stamper before after) :
    after.collection = before.collection ∧ after.docs.length = before.docs.length := by
  rcases restamped with rfl | ⟨session, rfl⟩
  · exact ⟨rfl, rfl⟩
  · exact (stampBeforeWrite_facts stamper before session).2.2.2

namespace FillsLinks

variable {stamper : Option (LinkStamper σ)} (fills : FillsLinks stamper)
include fills

theorem sameGroup {before after : DocumentGroup} (restamped : Restamped stamper before after) :
    SameGroup before after := by
  rcases restamped with rfl | ⟨session, rfl⟩
  · exact .refl after
  · cases stamper with
    | none => exact .refl before
    | some links => exact ⟨rfl, fills.content links rfl _ _ _⟩

/-- What covers the stamped groups covers the groups before. -/
theorem covers {docs : List Doc} {before after : List DocumentGroup}
    (restamped : List.Forall₂ (Restamped stamper) before after) (covered : Covers docs after) :
    Covers docs before := by
  induction restamped with
  | nil => exact covered
  | @cons old new _ _ first _ ih =>
      obtain ⟨here, later⟩ := List.forall_mem_cons.mp covered
      refine List.forall_mem_cons.mpr ⟨fun doc member => ?_, ih later⟩
      obtain ⟨collection, same⟩ := fills.sameGroup first
      obtain ⟨fields, listed, rfl⟩ := List.mem_map.mp member
      obtain ⟨index, bound, rfl⟩ := List.mem_iff_getElem.mp listed
      have short : index < new.docs.length := same.length_eq ▸ bound
      obtain ⟨stored, among, copy⟩ :=
        here ⟨new.collection, new.docs[index]⟩ (List.mem_map_of_mem (List.getElem_mem short))
      exact ⟨stored, among, copy.1.trans collection, copy.2.trans (same.get bound short)⟩

end FillsLinks

theorem forall₂_restamped_refl (stamper : Option (LinkStamper σ)) (groups : List DocumentGroup) :
    List.Forall₂ (Restamped stamper) groups groups :=
  List.forall₂_same.mpr fun _ _ => .inl rfl

theorem writeGroups_restamped (stamper : Option (LinkStamper σ)) (groups : List DocumentGroup)
    (session : Session σ) :
    List.Forall₂ (Restamped stamper) groups
      (writeGroups env handler stamper groups session).groups := by
  induction groups generalizing session with
  | nil => exact .nil
  | cons group rest ih =>
      have first : Restamped stamper group (stampBeforeWrite stamper group session).1 :=
        .inr ⟨session, rfl⟩
      unfold writeGroups
      rcases stamping : stampBeforeWrite stamper group session with ⟨stamped, _ | error, prepared⟩
      · rw [stamping] at first
        simp only
        rcases (writeGroup env handler stamped).run prepared with ⟨error | ids, written⟩
        · exact .cons first (forall₂_restamped_refl stamper rest)
        · simp only
          rcases recordDocIDs stamper stamped ids written with ⟨_ | error, recorded⟩
          · exact .cons first (ih recorded)
          · exact .cons first (forall₂_restamped_refl stamper rest)
      · rw [stamping] at first
        exact .cons first (forall₂_restamped_refl stamper rest)

/-- A call hands the groups back in their order, stamped as far as it came. -/
theorem store_restamped (env : Environment) (handler : BlockHandler)
    (stamper : Option (LinkStamper σ)) (converted : ConversionResult) (session : Session σ) :
    List.Forall₂ (Restamped stamper) converted.groups
      (store env handler stamper converted session).groups := by
  unfold store
  cases converted.groups with
  | nil => exact .nil
  | cons blockGroup others =>
      have first : Restamped stamper blockGroup
          (stampBeforeWrite stamper blockGroup { session with collector := [] }).1 :=
        .inr ⟨_, rfl⟩
      have same := forall₂_restamped_refl stamper others
      dsimp only
      split
      · exact .cons (.inl rfl) same
      · split
        · exact .cons (.inl rfl) same
        · split
          · rename_i stamping
            rw [stamping] at first
            exact .cons first same
          · rename_i stamping
            rw [stamping] at first
            split
            · exact .cons first same
            · exact .cons first (writeGroups_restamped stamper others _)

/-- The block document that a call inserts, unless it stops before that. -/
def insertion? (stamper : Option (LinkStamper σ)) (converted : ConversionResult)
    (session : Session σ) : Option Doc :=
  match converted.groups with
  | [] => none
  | blockGroup :: _ =>
      match blockGroup.docs with
      | [] => none
      | blockData :: _ =>
          match toInt64? (blockData.lookup blockGroup.blockNumField),
              stampBeforeWrite stamper blockGroup { session with collector := [] } with
          | some _, (stamped, none, _) =>
              some ⟨stamped.collection, stamped.docs.headD blockData⟩
          | _, _ => none

/-- The first group holds one document, the block. -/
def OneBlock (converted : ConversionResult) : Prop :=
  ∀ blockGroup ∈ converted.groups.head?, blockGroup.docs.length ≤ 1

instance (converted : ConversionResult) : Decidable (OneBlock converted) :=
  inferInstanceAs (Decidable (∀ blockGroup ∈ converted.groups.head?, _))

theorem OneBlock.restamped {stamper : Option (LinkStamper σ)} {converted : ConversionResult}
    {groups : List DocumentGroup} (one : OneBlock converted)
    (same : List.Forall₂ (Restamped stamper) converted.groups groups) :
    OneBlock { converted with groups } := by
  unfold OneBlock at one
  intro group first
  cases grouped : converted.groups with
  | nil =>
      rw [grouped, List.forall₂_nil_left_iff] at same
      simp [same] at first
  | cons blockGroup others =>
      rw [grouped] at same one
      cases same with
      | cons restamped rest =>
          cases first
          rw [restamped.shape.2]
          exact one blockGroup rfl

/-- What a call does once it gets to its block document. -/
theorem store_inserts (handler : BlockHandler) {stamper : Option (LinkStamper σ)}
    {converted : ConversionResult} {doc : Doc}
    (inserts : insertion? stamper converted session = some doc) :
    ∃ stamped others blockNumber blockHash prepared,
      (∃ blockGroup, converted.groups = blockGroup :: others ∧
        Restamped stamper blockGroup stamped ∧ ∃ blockData ∈ blockGroup.docs,
          toInt64? (blockData.lookup blockGroup.blockNumField) = some blockNumber) ∧
      stamped.stored.head? = some doc ∧
      prepared.db = session.db ∧ prepared.calls = session.calls ∧ prepared.collector = [] ∧
      ∀ env, store env handler stamper converted session =
        match (storeBlockDoc env handler doc).run prepared with
        | (.error error, after) =>
            { error := some error.text, groups := stamped :: others, session := after }
        | (.ok blockID, after) =>
            storeOthers env handler stamper converted blockNumber blockHash stamped others blockID
              after := by
  unfold insertion? at inserts
  unfold store
  cases grouped : converted.groups with
  | nil => simp [grouped] at inserts
  | cons blockGroup others =>
      simp only [grouped] at inserts
      cases listed : blockGroup.docs with
      | nil => simp [listed] at inserts
      | cons blockData rest =>
          simp only [listed] at inserts
          cases numbered : toInt64? (blockData.lookup blockGroup.blockNumField) with
          | none => simp [numbered] at inserts
          | some blockNumber =>
              obtain ⟨sameDb, sameCalls, fresh, _, sameLength⟩ := stampBeforeWrite_facts stamper
                blockGroup { session with collector := [] }
              rcases stamping : stampBeforeWrite stamper blockGroup { session with collector := [] }
                with ⟨stamped, _ | error, prepared⟩
              · simp only [numbered, stamping, Option.some.injEq] at inserts
                subst inserts
                simp only [stamping] at sameDb sameCalls fresh sameLength
                refine ⟨stamped, others, blockNumber,
                  (stringField? blockData blockGroup.blockHashField).getD "", prepared,
                  ⟨blockGroup, rfl, .inr ⟨_, by rw [stamping]⟩, blockData,
                    by simp [listed], numbered⟩,
                  ?_, sameDb, sameCalls, fresh, fun env => ?_⟩
                · cases stampedDocs : stamped.docs with
                  | nil => simp [listed, stampedDocs] at sameLength
                  | cons first more => simp [DocumentGroup.stored, stampedDocs]
                · rcases ran : (storeBlockDoc env handler
                    ⟨stamped.collection, stamped.docs.headD blockData⟩).run prepared
                    with ⟨error | blockID, after⟩ <;>
                    simp only [listed, numbered, stamping, ran]
              · simp [numbered, stamping] at inserts

theorem invalidNumber_truthful (value : Option Value) :
    Truthful ("invalid block number: expected numeric type, got " ++ goType value) := by
  refine (sameKind_before (inert_markers rfl (by decide)) _).truthful ?_
  unfold goType Truthful
  split <;> decide

/-- A call that stops before its block document writes nothing, and is not taken for
one that found it. -/
theorem store_stops (env : Environment) (handler : BlockHandler)
    {stamper : Option (LinkStamper σ)} {converted : ConversionResult}
    (stops : insertion? stamper converted session = none) :
    (store env handler stamper converted session).session.db = session.db ∧
      (store env handler stamper converted session).created = none ∧
      ∃ text, (store env handler stamper converted session).error = some text ∧ Truthful text := by
  unfold insertion? at stops
  unfold store
  cases grouped : converted.groups with
  | nil => exact ⟨rfl, rfl, _, rfl, by unfold Truthful; decide⟩
  | cons blockGroup others =>
      simp only [grouped] at stops
      cases listed : blockGroup.docs with
      | nil =>
          simp only [listed]
          exact ⟨trivial, trivial, _, rfl, by unfold Truthful; decide⟩
      | cons blockData rest =>
          simp only [listed] at stops
          cases numbered : toInt64? (blockData.lookup blockGroup.blockNumField) with
          | none =>
              simp only [listed, numbered]
              exact ⟨trivial, trivial, _, rfl, invalidNumber_truthful _⟩
          | some blockNumber =>
              have sameDb := (stampBeforeWrite_facts stamper blockGroup
                { session with collector := [] }).1
              rcases stamping : stampBeforeWrite stamper blockGroup { session with collector := [] }
                with ⟨stamped, _ | error, prepared⟩
              · simp [numbered, stamping] at stops
              · rw [stamping] at sameDb
                have failed := stampBeforeWrite_error stamper blockGroup env _ error
                  (congrArg (·.2.1) stamping)
                simp only [listed, numbered, stamping]
                exact ⟨sameDb, trivial, _, rfl,
                  (sameKind_before (inert_markers rfl (by decide)) _).truthful failed.truthful⟩

/-- Only a call that meets its block document in the store is taken for one whose block
exists, and it writes nothing. -/
theorem store_claims_exists {stamper : Option (LinkStamper σ)} {converted : ConversionResult}
    {text : String}
    (failed : (store env handler stamper converted session).error = some text)
    (claims : isErrAlreadyExists text = true) :
    ∃ doc, insertion? stamper converted session = some doc ∧ doc ∈ session.db.visible ∧
      (store env handler stamper converted session).session.db = session.db := by
  cases inserts : insertion? stamper converted session with
  | none =>
      obtain ⟨_, _, other, same, truthful⟩ := store_stops env handler inserts
      rw [failed, Option.some.injEq] at same
      rw [same, truthful] at claims
      cases claims
  | some doc =>
      obtain ⟨stamped, others, blockNumber, blockHash, prepared, _, _, sameDb, _, _, does⟩ :=
        store_inserts handler inserts
      have blockDoc : (storeBlockDoc env handler doc).Ensures prepared _ _ :=
        storeBlockDoc_ensures doc
      rw [does] at failed ⊢
      rcases ran : (storeBlockDoc env handler doc).run prepared with ⟨error | blockID, after⟩
      · rw [ran, Option.some.injEq] at failed
        obtain ⟨same, known⟩ := blockDoc.of_error ran
        exact ⟨doc, rfl, sameDb ▸ known (failed ▸ claims), same.trans sameDb⟩
      · rw [ran] at failed
        have truthful := (storeOthers_spec env handler stamper converted
          blockNumber blockHash stamped others blockID after).2.1 text failed
        rw [truthful.truthful] at claims
        cases claims

/-- Without an error the block document is new, and it and the other groups are visible. -/
theorem store_sound {stamper : Option (LinkStamper σ)} {converted : ConversionResult}
    (sound : (store env handler stamper converted session).error = none) :
    ∃ doc stamped written, insertion? stamper converted session = some doc ∧
      (store env handler stamper converted session).groups = stamped :: written ∧
      doc ∉ session.db.visible ∧
      doc ∈ (store env handler stamper converted session).session.db.visible ∧
      Shown (store env handler stamper converted session).session.db written := by
  cases inserts : insertion? stamper converted session with
  | none =>
      obtain ⟨_, _, text, failed, _⟩ := store_stops env handler inserts
      rw [sound] at failed
      cases failed
  | some doc =>
      obtain ⟨stamped, others, blockNumber, blockHash, prepared, _, _, sameDb, _, _, does⟩ :=
        store_inserts handler inserts
      have blockDoc : (storeBlockDoc env handler doc).Ensures prepared _ _ :=
        storeBlockDoc_ensures doc
      rw [does] at sound ⊢
      rcases ran : (storeBlockDoc env handler doc).run prepared with ⟨error | blockID, after⟩
      · rw [ran] at sound
        cases sound
      · rw [ran] at sound
        obtain ⟨adds, _, finished⟩ := storeOthers_spec env handler stamper
          converted blockNumber blockHash stamped others blockID after
        obtain ⟨written, groups, shown⟩ := finished sound
        have added := (blockDoc.of_ok ran).1
        rw [sameDb] at added
        refine ⟨doc, stamped, written, rfl, groups, fun stored => ?_,
          adds.visible (by simp [SoftStore.add_ok_visible added]), shown⟩
        rw [SoftStore.add_alreadyExists_iff.mpr stored] at added
        cases added

/-- A call leaves the store alone, or it adds its block document and goes on behind it. -/
theorem store_writes (env : Environment) (handler : BlockHandler)
    (stamper : Option (LinkStamper σ)) (converted : ConversionResult) (session : Session σ) :
    (store env handler stamper converted session).session.db = session.db ∨
      ∃ doc blockGroup stamped others blockNumber blockHash blockID after,
        insertion? stamper converted session = some doc ∧
        (converted.groups = blockGroup :: others ∧ Restamped stamper blockGroup stamped ∧
          stamped.stored.head? = some doc ∧ ∃ blockData ∈ blockGroup.docs,
            toInt64? (blockData.lookup blockGroup.blockNumField) = some blockNumber) ∧
        session.db.add doc = .ok after.db ∧
        store env handler stamper converted session = storeOthers env handler stamper converted
          blockNumber blockHash stamped others blockID after := by
  cases inserts : insertion? stamper converted session with
  | none => exact .inl (store_stops env handler inserts).1
  | some doc =>
      obtain ⟨stamped, others, blockNumber, blockHash, prepared,
        ⟨blockGroup, grouped, restamped, numbered⟩, first, sameDb, _, _, does⟩ :=
        store_inserts handler inserts
      have blockDoc : (storeBlockDoc env handler doc).Ensures prepared _ _ :=
        storeBlockDoc_ensures doc
      rw [does]
      rcases ran : (storeBlockDoc env handler doc).run prepared with ⟨error | blockID, after⟩
      · exact .inl ((blockDoc.of_error ran).1.trans sameDb)
      · have added := (blockDoc.of_ok ran).1
        rw [sameDb] at added
        exact .inr ⟨doc, blockGroup, stamped, others, blockNumber, blockHash, blockID, after, rfl,
          ⟨grouped, restamped, first, numbered⟩, added, rfl⟩

/-- A call adds its block document and, behind it, documents of the other groups and
the signature. -/
theorem store_adds (env : Environment) (handler : BlockHandler)
    (stamper : Option (LinkStamper σ)) (converted : ConversionResult) (session : Session σ) :
    session.db.Adds (fun doc => insertion? stamper converted session = some doc ∨
        OfOthers converted converted.groups.tail doc)
      (store env handler stamper converted session).session.db := by
  rcases store_writes env handler stamper converted session with same |
    ⟨doc, _, stamped, others, blockNumber, blockHash, blockID, after, inserts, ⟨grouped, _⟩, added,
      does⟩
  · rw [same]
    exact .refl
  · have adds := (storeOthers_spec env handler stamper converted blockNumber blockHash stamped
      others blockID after).1
    rw [does, grouped, List.tail_cons]
    exact (SoftStore.Adds.add .refl (.inl inserts) added).trans (adds.mono fun _ own => .inr own)

end ShinzoGenerator.Defra
