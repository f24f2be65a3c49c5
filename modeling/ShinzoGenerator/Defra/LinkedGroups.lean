import ShinzoGenerator.Defra.StoreAccount

/-! A `Store` call without an error, seen from the link stamper: each group is stamped
with what the groups before it have recorded, becomes visible as a whole, and its
docIDs are recorded in the order of its documents. -/

set_option autoImplicit false

namespace ShinzoGenerator.Defra

open Chains

variable {σ : Type} {env : Environment} {handler : BlockHandler} {stamper : LinkStamper σ}

/-- Groups that were stamped, written and recorded one after the other from a lookup
state, and the documents they became. -/
inductive Linked (handler : BlockHandler) (stamper : LinkStamper σ) :
    List DocumentGroup → σ → List Doc → Prop
  | nil {links : σ} : Linked handler stamper [] links []
  | cons {group : DocumentGroup} {rest : List DocumentGroup} {links prepared after : σ}
      {docs : List Fields} {later : List Doc}
      (stamps : stamper.stampBeforeWrite group.collection group.docs links =
        (prepared, docs, none))
      (records : stamper.recordDocIDs group.collection docs
        ({ group with docs }.stored.map handler.docID) prepared = (after, none))
      (linked : Linked handler stamper rest after later) :
      Linked handler stamper (group :: rest) links ({ group with docs }.stored ++ later)

theorem writeGroups_linked {groups : List DocumentGroup} {session : Session σ}
    (finished : (writeGroups env handler (some stamper) groups session).error = none) :
    ∃ docs, Linked handler stamper groups session.links docs ∧
      (writeGroups env handler (some stamper) groups session).session.db.visible =
        session.db.visible ++ docs := by
  induction groups generalizing session with
  | nil => exact ⟨[], .nil, (List.append_nil _).symm⟩
  | cons group rest ih =>
      unfold writeGroups stampBeforeWrite at finished ⊢
      rcases stamping : stamper.stampBeforeWrite group.collection group.docs session.links with
        ⟨prepared, stamped, _ | error⟩
      · simp only [stamping] at finished ⊢
        rcases ran : (writeGroup env handler { group with docs := stamped }).run
          { session with links := prepared } with ⟨error | ids, written⟩
        · simp [ran] at finished
        · have commits : (writeGroup env handler { group with docs := stamped }).Ensures
            { session with links := prepared } _ _ := writeGroup_commits _ _
          obtain ⟨account, sameLinks, _, _⟩ := commits.of_ok ran
          simp only [ran, recordDocIDs] at finished ⊢
          rcases recording : stamper.recordDocIDs group.collection stamped ids written.links with
            ⟨after, _ | error⟩
          · simp only [recording] at finished ⊢
            obtain ⟨docs, linked, visible⟩ := ih finished
            refine ⟨_, .cons stamping ?_ linked, ?_⟩
            · rwa [account.named, sameLinks] at recording
            · rw [visible, account.visible, List.append_assoc]
          · simp [recording] at finished
      · simp [stamping] at finished

theorem storeOthers_linked {converted : ConversionResult} {blockNumber : Int} {blockHash : String}
    {blockGroup : DocumentGroup} {others : List DocumentGroup} {blockID : String}
    {session : Session σ}
    (finished : (storeOthers env handler (some stamper) converted blockNumber blockHash blockGroup
      others blockID session).error = none) :
    ∃ after docs signatures,
      stamper.recordDocIDs blockGroup.collection blockGroup.docs [blockID] session.links =
        (after, none) ∧
      Linked handler stamper others after docs ∧
      (storeOthers env handler (some stamper) converted blockNumber blockHash blockGroup others
        blockID session).session.db.visible = session.db.visible ++ docs ++ signatures ∧
      ∀ doc ∈ signatures, doc.collection = converted.signatureCollection := by
  unfold storeOthers recordDocIDs at finished ⊢
  dsimp only at finished ⊢
  have noErrors := List.append_eq_nil_iff.mp
    (List.head?_eq_none_iff.mp (Option.map_eq_none_iff.mp finished))
  rcases recording : stamper.recordDocIDs blockGroup.collection blockGroup.docs [blockID]
    session.links with ⟨after, _ | error⟩
  · obtain ⟨docs, linked, visible⟩ :=
      writeGroups_linked (Option.toList_eq_nil_iff.mp noErrors.2)
    simp only [recording] at linked visible ⊢
    have signing := signStoredBlock_ensures env handler blockNumber blockHash
      (blockID :: (writeGroups env handler (some stamper) others
        { session with links := after }).otherDocIDs.flatMap (·.2))
      ((none : Option String).toList ++ (writeGroups env handler (some stamper) others
        { session with links := after }).error.toList)
      converted.signatureCollection (writeGroups env handler (some stamper) others
        { session with links := after }).session
    dsimp only at signing
    rcases signing with ⟨_, same⟩ | ⟨_, doc, rfl, _, _, _, added⟩
    · exact ⟨after, docs, [], rfl, linked, by rw [same, visible, List.append_nil], by simp⟩
    · refine ⟨after, docs, _, rfl, linked, by rw [SoftStore.add_ok_visible added, visible], ?_⟩
      exact List.forall_mem_singleton.mpr rfl
  · simp [recording] at noErrors

/-- With one block document, the block group is linked like the others. -/
theorem store_linked {converted : ConversionResult} {session : Session σ}
    (one : OneBlock converted)
    (finished : (store env handler (some stamper) converted session).error = none) :
    ∃ docs signatures, Linked handler stamper converted.groups session.links docs ∧
      (store env handler (some stamper) converted session).session.db.visible =
        session.db.visible ++ docs ++ signatures ∧
      ∀ doc ∈ signatures, doc.collection = converted.signatureCollection := by
  unfold store at finished ⊢
  unfold OneBlock at one
  cases grouped : converted.groups with
  | nil => simp [grouped] at finished
  | cons blockGroup others =>
      simp only [grouped] at finished one ⊢
      have short := one blockGroup rfl
      cases listed : blockGroup.docs with
      | nil => simp [listed] at finished
      | cons blockData more =>
          simp only [listed] at finished ⊢
          cases numbered : toInt64? (blockData.lookup blockGroup.blockNumField) with
          | none => simp [numbered] at finished
          | some blockNumber =>
              simp only [numbered, stampBeforeWrite] at finished ⊢
              have length := stamper.inPlace blockGroup.collection blockGroup.docs session.links
              rcases stamping : stamper.stampBeforeWrite blockGroup.collection blockGroup.docs
                session.links with ⟨prepared, stamped, _ | error⟩
              · simp only [stamping] at finished length ⊢
                obtain ⟨blockFields, rfl⟩ : ∃ blockFields, stamped = [blockFields] := by
                  refine List.length_eq_one_iff.mp ?_
                  rw [length]
                  rw [listed, List.length_cons] at short ⊢
                  omega
                simp only [List.headD_cons] at finished ⊢
                rcases ran : (storeBlockDoc env handler ⟨blockGroup.collection, blockFields⟩).run
                  { session with collector := [], links := prepared } with ⟨error | blockID, after⟩
                · simp [ran] at finished
                · have blockDoc : (storeBlockDoc env handler
                    ⟨blockGroup.collection, blockFields⟩).Ensures
                    { session with collector := [], links := prepared } _ _ :=
                    storeBlockDoc_ensures _
                  obtain ⟨added, named, sameLinks, _⟩ := blockDoc.of_ok ran
                  simp only [ran] at finished ⊢
                  obtain ⟨recorded, docs, signatures, recording, linked, visible, placed⟩ :=
                    storeOthers_linked finished
                  refine ⟨_, signatures, .cons stamping ?_ linked, ?_, placed⟩
                  · rw [named, sameLinks] at recording
                    exact recording
                  · rw [visible, SoftStore.add_ok_visible added, ← List.append_assoc]
                    rfl
              · simp [stamping] at finished

end ShinzoGenerator.Defra
