import ShinzoGenerator.Defra.BlockHandlerProperties

/-! What a `Store` call commits, which ids it hands back for it, and what it signs. The
collector can hold more CIDs than those of the committed documents, and the count before
signing rules out the rest. -/

set_option autoImplicit false

namespace ShinzoGenerator.Defra

open Chains Errors

variable {σ : Type} {env : Environment} {handler : BlockHandler} {session : Session σ}

/-! ### The signature -/

/-- The document is a signature that was made over the CIDs. -/
def SignatureOver (env : Environment) (collection : Collection) (cids : List String)
    (doc : Doc) : Prop :=
  ∃ call fields blockNumber blockHash, env.sign call cids = some fields ∧
    doc = buildBlockSignatureDocument blockNumber blockHash cids collection fields

theorem SignatureOver.placed {collection : Collection} {cids : List String} {doc : Doc}
    (attests : SignatureOver env collection cids doc) : doc.collection = collection := by
  obtain ⟨_, _, _, _, _, rfl⟩ := attests
  rfl

/-! ### Store -/

/-- The documents a call writes: the first of the block group and all of the others. -/
def writtenDocs : List DocumentGroup → List Doc
  | [] => []
  | blockGroup :: others => blockGroup.stored.head?.toList ++ others.flatMap DocumentGroup.stored

theorem OneBlock.writtenDocs_eq {converted : ConversionResult} (one : OneBlock converted) :
    writtenDocs converted.groups = converted.groups.flatMap DocumentGroup.stored := by
  unfold OneBlock at one
  cases grouped : converted.groups with
  | nil => rfl
  | cons blockGroup others =>
      rw [grouped] at one
      have short := one blockGroup rfl
      cases listed : blockGroup.docs with
      | nil => simp [writtenDocs, DocumentGroup.stored, listed]
      | cons first more =>
          rw [listed, List.length_cons] at short
          have none : more = [] := List.length_eq_zero_iff.mp (by omega)
          simp [writtenDocs, DocumentGroup.stored, listed, none]

/-- What a call has committed, signatures apart, and the signatures it has made. A call
without a result committed nothing; with one, each document is in it. -/
structure StoreAccount (env : Environment) (handler : BlockHandler)
    (converted : ConversionResult) (before : DB) (reply : StoreReply σ)
    (committed signatures : List Doc) : Prop where
  visible : reply.session.db.visible = before.visible ++ committed ++ signatures
  among : committed.Sublist (writtenDocs reply.groups)
  unreported : reply.created = none → committed = [] ∧ signatures = []
  named : ∀ created, reply.created = some created →
    created.blockID :: created.otherDocIDs.flatMap (·.2) = committed.map handler.docID
  listed : ∀ created, reply.created = some created → ∀ doc ∈ committed,
    (handler.docID doc = created.blockID ∧ reply.groups.head?.map (·.collection) =
      some doc.collection) ∨
    ∃ entry ∈ created.otherDocIDs, entry.1 = doc.collection ∧ handler.docID doc ∈ entry.2
  signed : ∀ created, reply.created = some created →
    created.blockSignatureCollection = converted.signatureCollection ∧
    ((created.blockSignatureID = "" ∧ signatures = []) ∨
      ∃ doc, signatures = [doc] ∧ created.blockSignatureID = handler.docID doc ∧
        committed = writtenDocs reply.groups ∧
        SignatureOver env converted.signatureCollection (committed.map handler.cid) doc)

theorem storeOthers_account {stamper : Option (LinkStamper σ)} {converted : ConversionResult}
    {blockNumber : Int} {blockHash : String} {blockGroup : DocumentGroup}
    {others : List DocumentGroup} {blockID : String} {before : DB} {blockDoc : Doc}
    (block : Account handler before session.db [blockDoc] [blockID])
    (first : blockGroup.stored.head? = some blockDoc)
    (collector : session.collector = [handler.cid blockDoc]) :
    ∃ committed signatures, StoreAccount env handler converted before
      (storeOthers env handler stamper converted blockNumber blockHash blockGroup others blockID
        session) committed signatures := by
  obtain ⟨recordDb, recordCollector⟩ := recordDocIDs_facts stamper blockGroup [blockID] session
  obtain ⟨docs, spec⟩ : ∃ docs, GroupsAccount env handler stamper others _ docs
      (writeGroups env handler stamper others _) :=
    writeGroups_account stamper others (recordDocIDs stamper blockGroup [blockID] session).2
  unfold storeOthers
  dsimp only
  generalize recordDocIDs stamper blockGroup [blockID] session = recorded
    at recordDb recordCollector spec ⊢
  generalize writeGroups env handler stamper others recorded.2 = written at spec ⊢
  have late := spec.account
  rw [recordDb] at late
  have account := block.append late
  have own : blockDoc.collection = blockGroup.collection := by
    obtain ⟨fields, _, same⟩ := List.mem_map.mp (List.mem_of_head? first)
    rw [← same]
  have docsWritten : writtenDocs (blockGroup :: written.groups) =
      blockDoc :: written.groups.flatMap DocumentGroup.stored := by
    simp [writtenDocs, first]
  have listed : ∀ doc ∈ blockDoc :: docs,
      (handler.docID doc = blockID ∧ blockGroup.collection = doc.collection) ∨
        ∃ entry ∈ written.otherDocIDs, entry.1 = doc.collection ∧ handler.docID doc ∈ entry.2 := by
    intro doc member
    cases member with
    | head =>
        have named := block.named
        rw [List.map_singleton, List.singleton_inj] at named
        exact .inl ⟨named.symm, own.symm⟩
    | tail _ rest => exact .inr (spec.listed doc rest)
  have signing := signStoredBlock_ensures env handler blockNumber blockHash
    (blockID :: written.otherDocIDs.flatMap (·.2)) (recorded.1.toList ++ written.error.toList)
    converted.signatureCollection written.session
  dsimp only at signing
  generalize signStoredBlock env handler blockNumber blockHash _ _ _ _ = outcome at signing ⊢
  rcases signing with ⟨unsigned, same⟩ | ⟨fields, doc, built, ⟨noErrors, counted⟩, signing, named, added⟩
  · refine ⟨blockDoc :: docs, [], ?_, ?_, (by intros; contradiction), ?_, ?_, ?_⟩
    · simp only [same, List.append_nil]
      exact account.visible
    · simp only [docsWritten]
      exact spec.among.cons_cons blockDoc
    · rintro _ ⟨⟩
      exact account.named
    · rintro _ ⟨⟩
      simpa using listed
    · rintro _ ⟨⟩
      exact ⟨rfl, .inl ⟨unsigned, rfl⟩⟩
  · obtain ⟨whole, gathered⟩ := spec.whole
      (Option.toList_eq_nil_iff.mp (List.append_eq_nil_iff.mp noErrors).2)
    -- the committed CIDs are among the gathered ones, and there are as many of both
    have exact : written.session.collector = (blockDoc :: docs).map handler.cid := by
      obtain ⟨added, collected, among⟩ := gathered
      rw [recordCollector, collector] at collected
      rw [collected, late.named] at counted
      rw [collected, List.map_cons, among.eq_of_length (by simpa using counted.symm)]
      rfl
    have signed : SignatureOver env converted.signatureCollection
        ((blockDoc :: docs).map handler.cid) doc :=
      ⟨_, fields, blockNumber, blockHash, exact ▸ signing, exact ▸ built⟩
    refine ⟨blockDoc :: docs, [doc], ?_, ?_, (by intros; contradiction), ?_, ?_, ?_⟩
    · simp only [SoftStore.add_ok_visible added, account.visible]
      rfl
    · simp only [docsWritten]
      exact spec.among.cons_cons blockDoc
    · rintro _ ⟨⟩
      exact account.named
    · rintro _ ⟨⟩
      simpa using listed
    · rintro _ ⟨⟩
      refine ⟨rfl, .inr ⟨doc, rfl, named, ?_, signed⟩⟩
      simp only [docsWritten, whole]

theorem store_account (env : Environment) (handler : BlockHandler)
    (stamper : Option (LinkStamper σ)) (converted : ConversionResult) (session : Session σ) :
    ∃ committed signatures, StoreAccount env handler converted session.db
      (store env handler stamper converted session) committed signatures := by
  have nothing : ∀ reply : StoreReply σ, reply.session.db = session.db → reply.created = none →
      StoreAccount env handler converted session.db reply [] [] := by
    intro reply same unreported
    have refuse : ∀ {claim : BlockCreationResult → Prop} created,
        reply.created = some created → claim created := by
      intro claim created reported
      rw [unreported] at reported
      cases reported
    exact ⟨by simp [same], List.nil_sublist _, fun _ => ⟨rfl, rfl⟩, refuse, refuse, refuse⟩
  cases inserts : insertion? stamper converted session with
  | none =>
      obtain ⟨same, unreported, _⟩ := store_stops env handler inserts
      exact ⟨[], [], nothing _ same unreported⟩
  | some doc =>
      obtain ⟨stamped, others, blockNumber, blockHash, prepared, _, first, sameDb, _, fresh,
        does⟩ := store_inserts handler inserts
      have blockDoc : (storeBlockDoc env handler doc).Ensures prepared _ _ :=
        storeBlockDoc_ensures doc
      rw [does]
      rcases ran : (storeBlockDoc env handler doc).run prepared with ⟨error | blockID, after⟩
      · exact ⟨[], [], nothing _ ((blockDoc.of_error ran).1.trans sameDb) rfl⟩
      · obtain ⟨added, rfl, _, collector⟩ := blockDoc.of_ok ran
        rw [sameDb] at added
        rw [fresh] at collector
        exact storeOthers_account (.one added) first collector

/-- A signature is made only over what the call itself committed, each document once:
the block document and all documents of the other groups. -/
theorem store_signs_committed (env : Environment) (handler : BlockHandler)
    (stamper : Option (LinkStamper σ)) (converted : ConversionResult) (session : Session σ) :
    let reply := store env handler stamper converted session
    List.Forall₂ (Restamped stamper) converted.groups reply.groups ∧
      (OneBlock converted →
        writtenDocs reply.groups = reply.groups.flatMap DocumentGroup.stored) ∧
      ∃ committed signatures,
        reply.session.db.visible = session.db.visible ++ committed ++ signatures ∧
        committed.Nodup ∧ committed.Sublist (writtenDocs reply.groups) ∧
        (∀ created, reply.created = some created → signatures = [] →
          created.blockSignatureID = "") ∧
        ∀ signature ∈ signatures, committed = writtenDocs reply.groups ∧
          SignatureOver env converted.signatureCollection (committed.map handler.cid)
            signature := by
  have restamped := store_restamped env handler stamper converted session
  obtain ⟨committed, signatures, account⟩ := store_account env handler stamper converted session
  refine ⟨restamped, fun one => (one.restamped restamped).writtenDocs_eq, committed, signatures,
    account.visible, ?_, account.among, ?_, ?_⟩
  · have distinct := (store env handler stamper converted session).session.db.nodup
    rw [account.visible] at distinct
    exact (List.nodup_append.mp (List.nodup_append.mp distinct).1).2.1
  · rintro created reported rfl
    rcases (account.signed created reported).2 with ⟨unsigned, _⟩ | ⟨doc, some, _⟩
    · exact unsigned
    · cases some
  · intro signature member
    cases reported : (store env handler stamper converted session).created with
    | none =>
        rw [(account.unreported reported).2] at member
        cases member
    | some created =>
        rcases (account.signed created reported).2 with ⟨_, rfl⟩ | ⟨doc, rfl, _, whole, signed⟩
        · cases member
        · rw [List.mem_singleton.mp member]
          exact ⟨whole, signed⟩

/-! ### A block group with a second document -/

def labelHandler : BlockHandler where
  chainName := "Ethereum__Holesky"
  maxDocsPerTxn := 300
  docID doc := doc.collection.suffix ++ doc.hash
  cid doc := doc.collection.suffix ++ doc.hash
  positive := by decide
  plain := by decide

/-- Nothing fails and everything is signed. -/
def willing : Environment where
  failure _ := none
  cancelled _ := false
  leaked _ := 0
  sign _ _ := some []
  reserved := by
    intro call text met
    cases met

def twoBlockDocuments : ConversionResult where
  groups :=
    [{ collection := .block
       docs := [[(numberFieldName, .int64 5), (hashFieldName, .string "0xb5")],
         [(numberFieldName, .int64 5), (hashFieldName, .string "0xc5")]]
       blockNumField := numberFieldName
       blockHashField := hashFieldName }]

/-- Only the first document of the block group is written, and the block is signed. -/
theorem second_block_document_unsigned :
    let reply := store willing labelHandler none twoBlockDocuments { db := .empty, links := () }
    reply.created.map (·.blockSignatureID) = some "BlockSignature" ∧
      (docsAt reply.session.db 5 .blockSignature).length = 1 ∧
      ¬ Complete reply.session.db reply.groups := by
  decide +kernel

end ShinzoGenerator.Defra
