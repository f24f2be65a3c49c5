import ShinzoGenerator.Defra.LinkedGroups
import ShinzoGenerator.Evm.AccessLists

/-! The links of a stored block. Whatever the batches, retries and earlier calls were, a
`Store` call without an error leaves the block's documents linked to each other. -/

set_option autoImplicit false

namespace ShinzoGenerator.Evm

open Chains Defra FirstOccurrences

/-! ### Documents up to their links -/

theorem withoutLinks_setField {name : String} (fields : Fields) (value : Value)
    (link : name = blockIDFieldName ∨ name = transactionIDFieldName) :
    withoutLinks (setField fields name value) = withoutLinks fields := by
  have own : withoutLinks [(name, value)] = [] := by
    rcases link with rfl | rfl <;> rfl
  have others : withoutLinks (fields.filter (·.1 ≠ name)) = withoutLinks fields := by
    unfold withoutLinks
    rw [List.filter_filter]
    refine List.filter_congr fun field _ => ?_
    rw [Bool.eq_iff_iff, Bool.and_eq_true, decide_eq_true_iff, decide_eq_true_iff]
    rcases link with rfl | rfl <;> tauto
  unfold setField
  rw [withoutLinks, List.filter_append]
  exact (congrArg₂ (· ++ ·) others own).trans (List.append_nil _)

theorem lookup_filter (keep : String → Bool) {name : String} (kept : keep name = true)
    (fields : Fields) :
    (fields.filter fun field => keep field.1).lookup name = fields.lookup name := by
  induction fields with
  | nil => rfl
  | cons field fields ih =>
      rw [List.filter_cons, List.lookup_cons]
      cases found : name == field.1 with
      | true =>
          have stays : keep field.1 = true := eq_of_beq found ▸ kept
          rw [if_pos stays, List.lookup_cons, found]
      | false =>
          split
          · rw [List.lookup_cons, found]
            exact ih
          · exact ih

theorem lookup_withoutLinks {name : String} (block : name ≠ blockIDFieldName)
    (transaction : name ≠ transactionIDFieldName) (fields : Fields) :
    (withoutLinks fields).lookup name = fields.lookup name := by
  refine lookup_filter (fun name =>
    name ≠ blockIDFieldName ∧ name ≠ transactionIDFieldName) ?_ fields
  simp [block, transaction]

theorem lookup_setField_same (fields : Fields) (name : String) (value : Value) :
    (setField fields name value).lookup name = some value := by
  have absent : (fields.filter (·.1 ≠ name)).lookup name = none := by
    rw [List.lookup_eq_none_iff]
    intro field member
    have other : field.1 ≠ name := of_decide_eq_true (List.mem_filter.mp member).2
    exact bne_iff_ne.mpr other.symm
  unfold setField
  rw [List.lookup_append, absent]
  simp

theorem lookup_setField_other {name other : String} (fields : Fields) (value : Value)
    (apart : other ≠ name) : (setField fields name value).lookup other = fields.lookup other := by
  have kept : (fields.filter (·.1 ≠ name)).lookup other = fields.lookup other := by
    refine lookup_filter (fun field => field ≠ name) ?_ fields
    simpa using apart
  unfold setField
  rw [List.lookup_append, kept]
  have last : [(name, value)].lookup other = none := by
    simp [List.lookup_cons, beq_false_of_ne apart]
  rw [last, Option.or_none]

theorem sameContent_stringField {before after : Fields} (same : SameContent before after)
    {name : String} (block : name ≠ blockIDFieldName) (transaction : name ≠ transactionIDFieldName) :
    stringField? after name = stringField? before name := by
  have found := congrArg (List.lookup name) same
  rw [lookup_withoutLinks block transaction, lookup_withoutLinks block transaction] at found
  unfold stringField?
  rw [found]

/-! ### What stamping does to one document -/

variable {links : EvmLinks} {index : Nat} {doc after : Fields} {hash : String}

theorem filled_eq_some {fields : Fields} {name : String} :
    filled? fields name = some hash ↔ stringField? fields name = some hash ∧ hash ≠ "" := by
  unfold filled?
  rw [Option.filter_eq_some_iff]
  simp

theorem stampBlockID_ok {kind field : String}
    (stamped : stampBlockID kind field links index doc = .ok (hash, after)) :
    stringField? doc field = some hash ∧
      after = setField doc blockIDFieldName (.string links.blockID) := by
  unfold stampBlockID at stamped
  cases found : filled? doc field with
  | none => simp [found] at stamped
  | some other =>
      simp only [found] at stamped
      split at stamped
      · cases stamped
      · cases stamped
        exact ⟨(filled_eq_some.mp found).1, rfl⟩

theorem linkTransaction_sameContent (links : EvmLinks) (hash : String) (doc : Fields) :
    SameContent doc (linkTransaction links hash doc) := by
  unfold linkTransaction
  split
  · exact withoutLinks_setField doc _ (.inr rfl)
  · rfl

theorem linkTransaction_lookup {id : String} (recorded : links.txHashToID.lookup hash = some id)
    (doc : Fields) :
    (linkTransaction links hash doc).lookup transactionIDFieldName = some (.string id) := by
  unfold linkTransaction
  rw [recorded]
  exact lookup_setField_same doc _ _

theorem linkTransaction_blockID (links : EvmLinks) (hash : String) (doc : Fields) :
    (linkTransaction links hash doc).lookup blockIDFieldName = doc.lookup blockIDFieldName := by
  unfold linkTransaction
  split
  · exact lookup_setField_other doc _ (by decide)
  · rfl

theorem stampTransaction_ok (stamped : stampTransaction links index doc = .ok after) :
    SameContent doc after ∧ after.lookup blockIDFieldName = some (.string links.blockID) := by
  unfold stampTransaction at stamped
  cases checked : stampBlockID "transaction" hashFieldName links index doc with
  | error text =>
      rw [checked] at stamped
      cases stamped
  | ok outcome =>
      rw [checked] at stamped
      cases stamped
      obtain ⟨_, same⟩ := stampBlockID_ok checked
      dsimp only
      rw [same]
      exact ⟨withoutLinks_setField doc _ (.inl rfl), lookup_setField_same doc _ _⟩

theorem stampLog_ok (stamped : stampLog links index doc = .ok after) :
    SameContent doc after ∧ after.lookup blockIDFieldName = some (.string links.blockID) ∧
      ∀ hash id, stringField? doc transactionHashFieldName = some hash →
        links.txHashToID.lookup hash = some id →
        after.lookup transactionIDFieldName = some (.string id) := by
  unfold stampLog at stamped
  cases checked : stampBlockID "log" transactionHashFieldName links index doc with
  | error text =>
      rw [checked] at stamped
      cases stamped
  | ok outcome =>
      rw [checked] at stamped
      cases stamped
      obtain ⟨named, same⟩ := stampBlockID_ok checked
      refine ⟨?_, ?_, fun hash id claimed recorded => ?_⟩
      · exact (linkTransaction_sameContent links outcome.1 outcome.2).trans
          (same ▸ withoutLinks_setField doc _ (.inl rfl))
      · rw [linkTransaction_blockID, same]
        exact lookup_setField_same doc _ _
      · rw [named] at claimed
        cases claimed
        exact linkTransaction_lookup recorded outcome.2

theorem stampAccessListEntry_ok {refs : List String}
    (stamped : stampAccessListEntry refs links index doc = .ok after) : SameContent doc after := by
  unfold stampAccessListEntry at stamped
  split at stamped
  · cases stamped
    exact linkTransaction_sameContent links _ doc
  · cases stamped
    rfl

/-! ### What stamping does to a group -/

theorem forall₂_comp {α β γ : Type} {first : α → β → Prop} {second : β → γ → Prop}
    {both : α → γ → Prop} (compose : ∀ {a b c}, first a b → second b c → both a c)
    {left : List α} {middle : List β} {right : List γ} (early : List.Forall₂ first left middle)
    (late : List.Forall₂ second middle right) : List.Forall₂ both left right := by
  induction early generalizing right with
  | nil =>
      cases late
      exact .nil
  | cons here _ ih =>
      cases late with
      | cons there rest => exact .cons (compose here there) (ih rest)

theorem forall₂_zipWith {α β γ : Type} {before : α → β → Prop} {after : α → γ → Prop}
    {combine : α → β → γ} (step : ∀ {a b}, before a b → after a (combine a b)) {left : List α}
    {right : List β} (related : List.Forall₂ before left right) :
    List.Forall₂ after left (List.zipWith combine left right) := by
  induction related with
  | nil => exact .nil
  | cons here _ ih => exact .cons (step here) ih

/-- A relation to the documents is carried along when all of them are stamped. -/
theorem stampEach_related {α : Type} {stamp : Nat → Fields → Except String Fields}
    {before after : α → Fields → Prop} {sources : List α} {docs stamped : List Fields}
    (step : ∀ source doc index next, before source doc → stamp index doc = .ok next →
      after source next)
    (related : List.Forall₂ before sources docs)
    (stamps : stampEach stamp index docs = (stamped, none)) :
    List.Forall₂ after sources stamped := by
  induction related generalizing index stamped with
  | nil =>
      cases stamps
      exact .nil
  | @cons source doc sources docs first _ ih =>
      unfold stampEach at stamps
      cases stamping : stamp index doc with
      | error text => simp [stamping] at stamps
      | ok next =>
          simp only [stamping, Prod.mk.injEq] at stamps
          obtain ⟨rfl, finished⟩ := stamps
          exact .cons (step source doc index next first stamping)
            (ih (Prod.ext rfl finished))

/-- Also when stamping stops, only links have changed. -/
theorem stampEach_sameContent {stamp : Nat → Fields → Except String Fields}
    (step : ∀ index doc next, stamp index doc = .ok next → SameContent doc next)
    (index : Nat) (docs : List Fields) :
    List.Forall₂ SameContent docs (stampEach stamp index docs).1 := by
  induction docs generalizing index with
  | nil => exact .nil
  | cons doc docs ih =>
      unfold stampEach
      cases stamping : stamp index doc with
      | error text => exact List.forall₂_same.mpr fun _ _ => rfl
      | ok next => exact .cons (step index doc next stamping) (ih (index + 1))

theorem sameGroup_trans {first second third : DocumentGroup} (early : SameGroup first second)
    (late : SameGroup second third) : SameGroup first third where
  collection := late.collection.trans early.collection
  docs := forall₂_comp (fun here there => there.trans here) early.docs late.docs

theorem stampGroup_sameContent (names : CollectionNames) (refs : List String)
    (collection : Collection) (docs : List Fields) (links : EvmLinks) :
    List.Forall₂ SameContent docs (stampGroup names refs collection docs links).1 := by
  have same : List.Forall₂ SameContent docs docs := List.forall₂_same.mpr fun _ _ => rfl
  cases collection with
  | block => exact same
  | blockSignature => exact same
  | snapshotSignature => exact same
  | transaction =>
      exact stampEach_sameContent (fun _ _ _ stamped => (stampTransaction_ok stamped).1) 0 docs
  | log => exact stampEach_sameContent (fun _ _ _ stamped => (stampLog_ok stamped).1) 0 docs
  | accessListEntry =>
      exact stampEach_sameContent (fun _ _ _ stamped => stampAccessListEntry_ok stamped) 0 docs

theorem evm_fillsLinks (names : CollectionNames) (refs : List String) :
    FillsLinks (some (evmLinkStamper names refs)) where
  content := by
    rintro _ ⟨⟩ collection docs state
    exact stampGroup_sameContent names refs collection docs state
  block := by
    rintro _ ⟨⟩ docs state
    rfl
  stampErrors := by
    rintro _ ⟨⟩ collection docs state text failed
    exact (stampGroup_unmarked failed).not_conflict
  recordErrors := by
    rintro _ ⟨⟩ collection docs ids state text failed
    exact (recordGroup_unmarked failed).not_conflict

/-! ### What recording leaves -/

/-- All transactions are recorded under their hashes, and nothing else changes. -/
theorem recordTransactions_ok {hashes ids : List String} {docs : List Fields}
    {links after : EvmLinks} (distinct : hashes.Nodup)
    (named : List.Forall₂ (fun hash doc => stringField? doc hashFieldName = some hash) hashes docs)
    (parallel : ids.length = docs.length)
    (records : recordTransactions index docs ids links = (after, none)) :
    after.blockID = links.blockID ∧
      (∀ pair ∈ hashes.zip ids, after.txHashToID.lookup pair.1 = some pair.2) ∧
      ∀ hash, hash ∉ hashes →
        after.txHashToID.lookup hash = links.txHashToID.lookup hash := by
  induction named generalizing index ids links with
  | nil =>
      cases records
      exact ⟨rfl, by simp, fun _ _ => rfl⟩
  | @cons hash doc hashes docs first _ ih =>
      obtain ⟨id, ids, rfl⟩ := List.exists_of_length_succ ids parallel
      rw [List.nodup_cons] at distinct
      unfold recordTransactions at records
      cases found : filled? doc hashFieldName with
      | none => simp [found] at records
      | some other =>
          have same : other = hash := by
            rw [(filled_eq_some.mp found).1] at first
            exact Option.some.inj first
          subst same
          simp only [found] at records
          obtain ⟨block, recorded, kept⟩ := ih distinct.2 (by simpa using parallel) records
          refine ⟨block, ?_, fun hash absent => ?_⟩
          · rw [List.zip_cons_cons, List.forall_mem_cons]
            refine ⟨?_, recorded⟩
            rw [kept other distinct.1, List.lookup_cons_self]
          · rw [List.mem_cons, not_or] at absent
            rw [kept hash absent.2, List.lookup_cons, beq_false_of_ne absent.1]

/-! ### The calls -/

/-- What the earlier `Store` calls of a conversion hand on to the next one. -/
inductive Attempts (handler : BlockHandler) (converted : Converted) :
    ConversionResult → EvmLinks → Prop
  | first : Attempts handler converted converted.result {}
  | again {result : ConversionResult} (env : Environment) (session : Session EvmLinks)
      (earlier : Attempts handler converted result session.links) :
      Attempts handler converted
        { result with groups :=
            (store env handler (some converted.linkStamper) result session).groups }
        (store env handler (some converted.linkStamper) result session).session.links

theorem Attempts.sameGroups {handler : BlockHandler} {names : CollectionNames}
    {refs : List String} {converted : Converted} {result : ConversionResult} {links : EvmLinks}
    (made : converted.linkStamper = evmLinkStamper names refs)
    (attempts : Attempts handler converted result links) :
    List.Forall₂ SameGroup converted.result.groups result.groups ∧
      result.signatureCollection = converted.result.signatureCollection := by
  induction attempts with
  | first => exact ⟨List.forall₂_same.mpr fun group _ => .refl group, rfl⟩
  | @again result env session _ ih =>
      refine ⟨?_, ih.2⟩
      have restamped := store_restamped env handler (some converted.linkStamper) result session
      rw [made] at restamped ⊢
      refine forall₂_comp ?_ ih.1 restamped
      exact fun early late => sameGroup_trans early ((evm_fillsLinks names refs).sameGroup late)

/-! ### The groups of a conversion -/

variable {handler : BlockHandler} {names : CollectionNames} {refs : List String}

/-- A group that may have been left out is linked like one without documents. -/
theorem linked_unlessEmpty {group : DocumentGroup} {rest current : List DocumentGroup}
    {docs : List Doc}
    (known : group.collection = .transaction ∨ group.collection = .log ∨
      group.collection = .accessListEntry)
    (same : List.Forall₂ SameGroup (unlessEmpty group ++ rest) current)
    (linked : Linked handler (evmLinkStamper names refs) current links docs) :
    ∃ base stamped after remaining later, List.Forall₂ SameContent group.docs base ∧
      stampGroup names refs group.collection base links = (stamped, none) ∧
      recordGroup names group.collection stamped
        ((stamped.map (Doc.mk group.collection)).map handler.docID) links = (after, none) ∧
      docs = stamped.map (Doc.mk group.collection) ++ later ∧
      List.Forall₂ SameGroup rest remaining ∧
      Linked handler (evmLinkStamper names refs) remaining after later := by
  unfold unlessEmpty at same
  split at same
  · rename_i empty
    refine ⟨[], [], links, current, docs, ?_, ?_, ?_, rfl, same, linked⟩
    · rw [empty]
      exact .nil
    · rcases known with own | own | own <;> rw [own] <;> rfl
    · rcases known with own | own | own <;> rw [own] <;> rfl
  · cases same with
    | @cons _ actual _ _ here others =>
        cases linked with
        | @cons _ _ _ prepared after stamped later stamps records linked =>
            have unchanged : prepared = links := (congrArg Prod.fst stamps).symm
            subst unchanged
            have placed : { actual with docs := stamped }.stored =
                stamped.map (Doc.mk group.collection) := by
              rw [← here.collection]
              rfl
            rw [placed] at records ⊢
            rw [here.collection] at stamps records
            exact ⟨_, stamped, after, _, later, here.docs, congrArg Prod.snd stamps, records, rfl,
              others, linked⟩

/-- The stored document has the data, and links besides. -/
def Holds (collection : Collection) (data : Fields) (doc : Doc) : Prop :=
  doc.collection = collection ∧ withoutLinks doc.fields = data

/-- The document's link leads to the other document. -/
def LinksTo (handler : BlockHandler) (name : String) (doc target : Doc) : Prop :=
  doc.fields.lookup name = some (.string (handler.docID target))

/-- The documents of a bundle's block in the store, all of them linked. -/
structure LinkedBlock (handler : BlockHandler) (bundle : BlockBundle) (block : Block)
    (blockInt : Int) (blockDoc : Doc) (txDocs logDocs aleDocs : List Doc) : Prop where
  block : Holds .block (buildBlockData block blockInt) blockDoc
  transactions : List.Forall₂
    (fun tx doc => Holds .transaction (buildTransactionData tx) doc ∧
      LinksTo handler blockIDFieldName doc blockDoc)
    (bundle.transactions.filterMap id) txDocs
  logs : List.Forall₂
    (fun data doc => Holds .log data doc ∧ LinksTo handler blockIDFieldName doc blockDoc ∧
      ∀ pair ∈ (bundle.transactions.filterMap id).zip txDocs,
        stringField? data transactionHashFieldName = some pair.1.hash →
        LinksTo handler transactionIDFieldName doc pair.2)
    (buildLogDocs bundle.transactions (buildReceiptMap bundle.receipts)) logDocs
  accessLists : List.Forall₂
    (fun occurrence doc => Holds .accessListEntry (buildALEData occurrence.2 blockInt) doc ∧
      ∃ pair ∈ (bundle.transactions.filterMap id).zip txDocs,
        pair.1.hash = occurrence.1 ∧ occurrence.2 ∈ pair.1.accessList ∧
        LinksTo handler transactionIDFieldName doc pair.2)
    (emittedEntries bundle.transactions) aleDocs

theorem clean_logDocs (txs : List (Option Transaction))
    (receiptMap : List (String × TransactionReceipt)) :
    ∀ data ∈ buildLogDocs txs receiptMap, withoutLinks data = data := by
  intro data member
  obtain ⟨tx, _, inside⟩ := List.mem_flatMap.mp member
  split at inside
  · cases inside
  · obtain ⟨log, _, rfl⟩ := List.mem_map.mp inside
    rfl

/-- Documents that differ from data without links at most in links hold the data. -/
theorem forall₂_carries {sources docs : List Fields}
    (clean : ∀ data ∈ sources, withoutLinks data = data)
    (same : List.Forall₂ SameContent sources docs) :
    List.Forall₂ (fun data doc => withoutLinks doc = data) sources docs := by
  refine List.Forall₂.imp ?_ ((List.forall₂_and_left _ _).mpr ⟨clean, same⟩)
  intro data doc facts
  exact facts.2.trans facts.1

theorem linked_blockGroup {group : DocumentGroup} {rest current : List DocumentGroup}
    {docs : List Doc} {data : Fields} (own : group.collection = .block)
    (single : group.docs = [data]) (clean : withoutLinks data = data)
    (same : List.Forall₂ SameGroup (group :: rest) current)
    (linked : Linked handler (evmLinkStamper names refs) current links docs) :
    ∃ blockDoc remaining later, Holds .block data blockDoc ∧ docs = blockDoc :: later ∧
      List.Forall₂ SameGroup rest remaining ∧
      Linked handler (evmLinkStamper names refs) remaining
        { links with blockID := handler.docID blockDoc } later := by
  cases same with
  | @cons _ actual _ _ here others =>
      cases linked with
      | @cons _ _ _ prepared after stamped later stamps records linked =>
          have inBlock : actual.collection = .block := here.collection.trans own
          rw [inBlock] at stamps records
          obtain ⟨rfl, unchanged⟩ : links = prepared ∧ actual.docs = stamped := by
            cases stamps
            exact ⟨rfl, rfl⟩
          have contents := here.docs
          rw [single, unchanged] at contents
          cases contents with
          | @cons _ fields _ _ content none =>
              cases none
              have placed : { actual with docs := [fields] }.stored = [⟨.block, fields⟩] := by
                rw [← inBlock]
                rfl
              rw [placed]
              cases records
              exact ⟨⟨.block, fields⟩, _, later, ⟨rfl, content.trans clean⟩, rfl, others, linked⟩

theorem stamped_transactions {txs : List Transaction} {base stamped : List Fields}
    (same : List.Forall₂ SameContent (txs.map buildTransactionData) base)
    (stamps : stampEach (stampTransaction links) 0 base = (stamped, none)) :
    List.Forall₂ (fun tx doc => withoutLinks doc = buildTransactionData tx ∧
      doc.lookup blockIDFieldName = some (.string links.blockID)) txs stamped := by
  have clean : ∀ data ∈ txs.map buildTransactionData, withoutLinks data = data := by
    intro data member
    obtain ⟨tx, _, rfl⟩ := List.mem_map.mp member
    rfl
  have carried := List.forall₂_map_left_iff.mp (forall₂_carries clean same)
  refine stampEach_related ?_ carried stamps
  intro tx doc index next holds stamped
  obtain ⟨content, link⟩ := stampTransaction_ok stamped
  exact ⟨content.trans holds, link⟩

/-- After the transactions are recorded, each hash leads to its docID. -/
theorem recorded_transactions {txs : List Transaction} {stamped : List Fields} {after : EvmLinks}
    (distinct : (txs.map (·.hash)).Nodup)
    (carried : List.Forall₂ (fun tx doc => withoutLinks doc = buildTransactionData tx ∧
      doc.lookup blockIDFieldName = some (.string links.blockID)) txs stamped)
    (records : recordTransactions 0 stamped
      ((stamped.map (Doc.mk .transaction)).map handler.docID) links = (after, none)) :
    after.blockID = links.blockID ∧
      ∀ pair ∈ txs.zip (stamped.map (Doc.mk .transaction)),
        after.txHashToID.lookup pair.1.hash = some (handler.docID pair.2) := by
  have named : List.Forall₂ (fun hash doc => stringField? doc hashFieldName = some hash)
      (txs.map (·.hash)) stamped := by
    refine List.forall₂_map_left_iff.mpr (List.Forall₂.imp ?_ carried)
    intro tx doc facts
    have found := lookup_withoutLinks (show hashFieldName ≠ _ by decide) (by decide) doc
    rw [facts.1] at found
    unfold stringField?
    rw [← found]
    rfl
  obtain ⟨block, recorded, _⟩ := recordTransactions_ok distinct named (by simp) records
  refine ⟨block, fun pair member => ?_⟩
  have listed := List.mem_map_of_mem (f := Prod.map (·.hash) handler.docID) member
  rw [← List.zip_map] at listed
  exact recorded _ listed

theorem stamped_logs {sources base stamped : List Fields}
    (clean : ∀ data ∈ sources, withoutLinks data = data)
    (same : List.Forall₂ SameContent sources base)
    (stamps : stampEach (stampLog links) 0 base = (stamped, none)) :
    List.Forall₂ (fun data doc => withoutLinks doc = data ∧
      doc.lookup blockIDFieldName = some (.string links.blockID) ∧
      ∀ hash id, stringField? data transactionHashFieldName = some hash →
        links.txHashToID.lookup hash = some id →
        doc.lookup transactionIDFieldName = some (.string id)) sources stamped := by
  have carried := (List.forall₂_and_left _ _).mpr ⟨clean, same⟩
  refine stampEach_related ?_ carried stamps
  intro data doc index next facts stamped
  obtain ⟨content, block, transaction⟩ := stampLog_ok stamped
  refine ⟨(content.trans facts.2).trans facts.1, block, fun hash id claimed recorded => ?_⟩
  refine transaction hash id ?_ recorded
  rw [sameContent_stringField facts.2 (by decide) (by decide)]
  exact claimed

theorem stamped_entries {entries : List (String × AccessListEntry)} {blockInt : Int}
    {base stamped : List Fields}
    (same : List.Forall₂ SameContent (entries.map fun next => buildALEData next.2 blockInt) base)
    (stamps : stampEach (stampAccessListEntry (entries.map (·.1)) links) 0 base =
      (stamped, none)) :
    List.Forall₂ (fun next doc => withoutLinks doc = buildALEData next.2 blockInt ∧
      ∀ id, links.txHashToID.lookup next.1 = some id →
        doc.lookup transactionIDFieldName = some (.string id)) entries stamped := by
  have parallel : (entries.map (·.1)).length = base.length := by
    rw [List.length_map, ← same.length_eq, List.length_map]
  have linked : stampEach (stampAccessListEntry (entries.map (·.1)) links) 0 base =
      (List.zipWith (linkTransaction links) (entries.map (·.1)) base, none) :=
    stampEach_accessLists [] _ parallel
  rw [linked, Prod.mk.injEq] at stamps
  rw [← stamps.1, List.zipWith_map_left]
  refine forall₂_zipWith ?_ (List.forall₂_map_left_iff.mp same)
  intro next doc content
  exact ⟨(linkTransaction_sameContent links next.1 doc).trans content,
    fun id recorded => linkTransaction_lookup recorded doc⟩

theorem linkedBlock_of_linked {converter : Converter} {bundle : BlockBundle} {block : Block}
    {blockInt : Int} {current : List DocumentGroup} {docs : List Doc}
    (distinct : ((bundle.transactions.filterMap id).map (·.hash)).Nodup)
    (same : List.Forall₂ SameGroup (converter.groups bundle block blockInt) current)
    (linked : Linked handler
      (evmLinkStamper names (buildALEDocs bundle.transactions blockInt).2) current links docs) :
    ∃ blockDoc txDocs logDocs aleDocs, docs = blockDoc :: (txDocs ++ (logDocs ++ aleDocs)) ∧
      LinkedBlock handler bundle block blockInt blockDoc txDocs logDocs aleDocs := by
  obtain ⟨blockDoc, afterBlock, _, blockHolds, rfl, same, linked⟩ :=
    linked_blockGroup rfl rfl rfl same linked
  obtain ⟨_, txStamped, recorded, afterTxs, _, txSame, txStamps, txRecords, rfl, same, linked⟩ :=
    linked_unlessEmpty (.inl rfl) same linked
  obtain ⟨_, logStamped, _, afterLogs, _, logSame, logStamps, logRecords, rfl, same, linked⟩ :=
    linked_unlessEmpty (.inr (.inl rfl)) same linked
  cases logRecords
  rw [← List.append_nil (unlessEmpty _)] at same
  obtain ⟨_, aleStamped, _, _, _, aleSame, aleStamps, _, rfl, same, linked⟩ :=
    linked_unlessEmpty (.inr (.inr rfl)) same linked
  cases same
  cases linked
  have transactions := stamped_transactions txSame txStamps
  obtain ⟨sameBlock, found⟩ := recorded_transactions distinct transactions txRecords
  have logs := stamped_logs (clean_logDocs _ _) logSame logStamps
  rw [sameBlock] at logs
  simp only [buildALEDocs_eq] at aleSame aleStamps
  have entries := stamped_entries aleSame aleStamps
  refine ⟨blockDoc, txStamped.map (Doc.mk .transaction), logStamped.map (Doc.mk .log),
    aleStamped.map (Doc.mk .accessListEntry), by rw [List.append_nil], blockHolds, ?_, ?_, ?_⟩
  · refine List.forall₂_map_right_iff.mpr (List.Forall₂.imp ?_ transactions)
    intro tx doc facts
    exact ⟨⟨rfl, facts.1⟩, facts.2⟩
  · refine List.forall₂_map_right_iff.mpr (List.Forall₂.imp ?_ logs)
    intro data doc facts
    exact ⟨⟨rfl, facts.1⟩, facts.2.1, fun pair member claimed =>
      facts.2.2 _ _ claimed (found pair member)⟩
  · have carried : ∀ next ∈ emittedEntries bundle.transactions,
        ∃ pair ∈ (bundle.transactions.filterMap id).zip (txStamped.map (Doc.mk .transaction)),
          pair.1.hash = next.1 ∧ next.2 ∈ pair.1.accessList := by
      intro next member
      obtain ⟨tx, listed, named, inside⟩ :=
        mem_occurrences.mp ((firsts_sublist _ _ _).subset member)
      have parallel : (bundle.transactions.filterMap id).length =
          (txStamped.map (Doc.mk .transaction)).length := by
        rw [List.length_map, transactions.length_eq]
      have first : tx ∈ ((bundle.transactions.filterMap id).zip
          (txStamped.map (Doc.mk .transaction))).map Prod.fst := by
        rw [List.map_fst_zip parallel.le]
        simpa using listed
      obtain ⟨pair, paired, rfl⟩ := List.mem_map.mp first
      exact ⟨pair, paired, named, inside⟩
    refine List.forall₂_map_right_iff.mpr
      (List.Forall₂.imp ?_ ((List.forall₂_and_left _ _).mpr ⟨carried, entries⟩))
    rintro next doc ⟨⟨pair, paired, named, inside⟩, content, link⟩
    exact ⟨⟨rfl, content⟩, pair, paired, named, inside, link _ (named ▸ found pair paired)⟩

/-- A call without an error leaves the block with all its links, whichever calls came
before it. -/
theorem store_links_block (converter : Converter) (bundle : BlockBundle) (converted : Converted)
    (handler : BlockHandler) (env : Environment) (result : ConversionResult)
    (session : Session EvmLinks) (accepted : converter.convert bundle = .ok converted)
    (distinct : ((bundle.transactions.filterMap id).map (·.hash)).Nodup)
    (attempts : Attempts handler converted result session.links)
    (stored : (store env handler (some converted.linkStamper) result session).error = none) :
    ∃ block blockInt blockDoc txDocs logDocs aleDocs signatures,
      bundle.block = some block ∧ hexToInt block.number = .ok blockInt ∧
      (store env handler (some converted.linkStamper) result session).session.db.visible =
        session.db.visible ++ blockDoc :: (txDocs ++ (logDocs ++ aleDocs)) ++ signatures ∧
      (∀ doc ∈ signatures, doc.collection = .blockSignature) ∧
      LinkedBlock handler bundle block blockInt blockDoc txDocs logDocs aleDocs := by
  obtain ⟨block, blockInt, given, parsed, grouped, signs, made⟩ := convert_ok accepted
  obtain ⟨same, sameSignature⟩ := attempts.sameGroups made
  rw [grouped] at same
  have one : OneBlock result := by
    intro group first
    obtain ⟨actual, _, here, _, listed⟩ := List.forall₂_cons_left_iff.mp same
    rw [listed] at first
    cases first
    rw [← here.docs.length_eq]
    exact Nat.le_refl 1
  obtain ⟨docs, signatures, linked, visible, placed⟩ := store_linked one stored
  rw [made] at linked
  obtain ⟨blockDoc, txDocs, logDocs, aleDocs, rfl, links⟩ :=
    linkedBlock_of_linked distinct same linked
  refine ⟨block, blockInt, blockDoc, txDocs, logDocs, aleDocs, signatures, given, parsed, visible,
    ?_, links⟩
  rwa [sameSignature, signs] at placed

/-- A block whose transaction has an access list and leaves a log. -/
def loggedBundle : BlockBundle where
  block := some { hash := "0xb5", number := "0x5" }
  transactions := [some { hash := "0xaa", accessList := [⟨"0x01", ["0x0"]⟩, ⟨"0x02", []⟩] }]
  receipts :=
    [some
      { transactionHash := "0xaa"
        blockHash := "0xb5"
        cumulativeGasUsed := "21000"
        gasUsed := "21000"
        effectiveGasPrice := "7"
        status := "1"
        logs := [⟨"0x01", [], "0x", "0x5", "0xaa", 0, "0xb5", 0, false⟩] }]

theorem loggedBundle_linked : ∃ converted,
    unconfigured.convert loggedBundle = .ok converted ∧
      let reply := store willing labelHandler (some converted.linkStamper) converted.result
        { db := .empty, links := {} }
      reply.error = none ∧
        ∃ blockDoc txDocs logDocs aleDocs signatures, reply.session.db.visible =
          blockDoc :: (txDocs ++ (logDocs ++ aleDocs)) ++ signatures ∧
          LinkedBlock labelHandler loggedBundle { hash := "0xb5", number := "0x5" } 5 blockDoc
            txDocs logDocs aleDocs := by
  have stored : (store willing labelHandler
      (some (evmLinkStamper unconfigured.collections
        (buildALEDocs loggedBundle.transactions 5).2))
      { groups := unconfigured.groups loggedBundle { hash := "0xb5", number := "0x5" } 5 }
      { db := .empty, links := {} }).error = none := by
    decide +kernel
  refine ⟨_, rfl, stored, ?_⟩
  obtain ⟨block, blockInt, blockDoc, txDocs, logDocs, aleDocs, signatures, given, parsed, visible,
    _, linked⟩ := store_links_block unconfigured loggedBundle _ labelHandler willing _
      { db := .empty, links := {} } rfl (by decide) .first stored
  cases given
  cases parsed
  exact ⟨blockDoc, txDocs, logDocs, aleDocs, signatures, visible, linked⟩

end ShinzoGenerator.Evm
