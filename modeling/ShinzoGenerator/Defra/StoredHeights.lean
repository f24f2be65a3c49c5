import ShinzoGenerator.Defra.ReorgRollerProperties
import ShinzoGenerator.Defra.StoreAccount

/-! The height of what a `Store` call commits, and how a rollback of that height takes the
call back. -/

set_option autoImplicit false

namespace ShinzoGenerator.Defra

open Chains

section Additions

variable {σ : Type} {env : Environment} {handler : BlockHandler} {allowed : Doc → Prop}

/-! ### The documents of a call, one by one -/

theorem writeGroups_adds_allowed {stamper : Option (LinkStamper σ)} {groups : List DocumentGroup}
    (groupDocs : ∀ restamped, List.Forall₂ (Restamped stamper) groups restamped →
      ∀ group ∈ restamped, ∀ doc ∈ group.stored, allowed doc) (session : Session σ) :
    session.db.Adds allowed (writeGroups env handler stamper groups session).session.db := by
  obtain ⟨docs, account⟩ : ∃ docs, GroupsAccount env handler stamper groups session docs
      (writeGroups env handler stamper groups session) := writeGroups_account stamper groups session
  refine account.account.adds.mono fun doc committed => ?_
  obtain ⟨group, listed, stored⟩ := List.mem_flatMap.mp (account.among.subset committed)
  exact groupDocs _ (writeGroups_restamped stamper groups session) group listed doc stored

theorem storeOthers_adds_allowed {stamper : Option (LinkStamper σ)}
    {converted : ConversionResult} {blockNumber : Int} {blockHash : String}
    {others : List DocumentGroup}
    (groupDocs : ∀ restamped, List.Forall₂ (Restamped stamper) others restamped →
      ∀ group ∈ restamped, ∀ doc ∈ group.stored, allowed doc)
    (signature : ∀ cids fields, allowed (buildBlockSignatureDocument blockNumber blockHash cids
      converted.signatureCollection fields))
    (blockGroup : DocumentGroup) (blockID : String) (session : Session σ) :
    session.db.Adds allowed (storeOthers env handler stamper converted blockNumber blockHash
      blockGroup others blockID session).session.db := by
  unfold storeOthers
  dsimp only
  have recorded := (recordDocIDs_facts stamper blockGroup [blockID] session).1
  have written : (recordDocIDs stamper blockGroup [blockID] session).2.db.Adds allowed
      (writeGroups env handler stamper others _).session.db := writeGroups_adds_allowed groupDocs _
  rw [recorded] at written
  exact written.trans (signStoredBlock_adds_allowed signature _ _ _)

end Additions

/-! ### The height of a conversion result -/

/-- The document counts for the height when a rollback looks for it. -/
def AtHeight (height : Int) (doc : Doc) : Prop :=
  doc.collection ∈ blockScoped ∧ doc.height? = some height

/-- The documents of the group count for the height, and it says where they name it. -/
structure GroupAt (height : Int) (group : DocumentGroup) : Prop where
  named : group.blockNumField = group.collection.heightField
  tracked : group.collection ∈ blockScoped
  located : ∀ doc ∈ group.docs, (Doc.mk group.collection doc).height? = some height

theorem GroupAt.stored {height : Int} {group : DocumentGroup} (located : GroupAt height group) :
    ∀ doc ∈ group.stored, AtHeight height doc :=
  List.forall_mem_map.mpr fun fields listed => ⟨located.tracked, located.located fields listed⟩

section Heights

variable {σ : Type} {env : Environment} {handler : BlockHandler}
  {stamper : Option (LinkStamper σ)} {converted : ConversionResult} {session : Session σ}
  {height : Int}

/-- Stamping leaves the groups at the height. -/
def LeavesHeight (stamper : Option (LinkStamper σ)) (height : Int) : Prop :=
  ∀ before after, Restamped stamper before after → GroupAt height before → GroupAt height after

theorem LeavesHeight.forall₂ {before after : List DocumentGroup}
    (leaves : LeavesHeight stamper height)
    (restamped : List.Forall₂ (Restamped stamper) before after)
    (groups : ∀ group ∈ before, GroupAt height group) : ∀ group ∈ after, GroupAt height group := by
  induction restamped with
  | nil => exact groups
  | cons first _ ih =>
      rw [List.forall_mem_cons] at groups ⊢
      exact ⟨leaves _ _ first groups.1, ih groups.2⟩

/-- Whatever a call commits, the signature included, counts for the height. -/
theorem store_adds_atHeight (leaves : LeavesHeight stamper height)
    (groups : ∀ group ∈ converted.groups, GroupAt height group)
    (signature : converted.signatureCollection = .blockSignature) :
    session.db.Adds (AtHeight height) (store env handler stamper converted session).session.db := by
  rcases store_writes env handler stamper converted session with same |
    ⟨doc, blockGroup, stamped, others, blockNumber, blockHash, blockID, after, _,
      ⟨grouped, restamped, first, blockData, listed, number⟩, added, does⟩
  · rw [same]
    exact .refl
  · rw [grouped, List.forall_mem_cons] at groups
    obtain ⟨blockAt, othersAt⟩ := groups
    have numbered : blockNumber = height := by
      rw [blockAt.named] at number
      exact Option.some.inj (number.symm.trans (blockAt.located blockData listed))
    have own := (leaves _ _ restamped blockAt).stored doc (List.mem_of_mem_head? first)
    rw [does]
    refine (SoftStore.Adds.add .refl own added).trans (storeOthers_adds_allowed ?_ ?_ _ _ _)
    · exact fun restamped same group member =>
        (leaves.forall₂ same othersAt group member).stored
    · rw [signature, numbered]
      exact fun cids fields => ⟨(by decide : Collection.blockSignature ∈ blockScoped), rfl⟩

end Heights

/-! ### A rollback after the call -/

/-- What a call with one block document for the height makes of the store: nothing, or the
block document and others of the height. -/
structure StoredAt (height : Int) (block : Doc) (before after : DB) : Prop where
  adds : before.Adds (fun doc => AtHeight height doc ∧ (doc.collection = .block → doc = block)) after
  led : after = before ∨ block ∈ after.visible

theorem StoredAt.trans {height : Int} {block : Doc} {before middle after : DB}
    (early : StoredAt height block before middle) (late : StoredAt height block middle after) :
    StoredAt height block before after where
  adds := early.adds.trans late.adds
  led := by
    rcases late.led with rfl | visible
    · exact early.led
    · exact .inr visible

/-- The chain has another block at the height, within the range to roll back. -/
structure Displaced (low high : Int) (chainHashes : HeightMap String) (height : Int)
    (stored : String) : Prop where
  above : low ≤ height
  below : height ≤ high
  verified : ∃ hash, chainHashes.lookup height = some hash ∧ hash ≠ "" ∧ stored ≠ hash

section Rollback

variable {height low high : Int} {chainHashes : HeightMap String} {block : Doc} {before after : DB}

/-- No visible document counts for the height. -/
def Vacant (db : DB) (height : Int) : Prop :=
  ∀ doc ∈ db.visible, ¬ AtHeight height doc

theorem Vacant.not_orphan (vacant : Vacant before height) : ¬ Orphan before chainHashes height := by
  rintro ⟨_, stored, _, _, answered, present, _⟩
  obtain ⟨doc, rows, _⟩ := getStoredBlockHash_stored answered present
  have held : doc ∈ blocksAt before height := rows ▸ List.mem_singleton_self doc
  obtain ⟨visible, isBlock, located⟩ := mem_blocksAt.mp held
  exact vacant doc visible ⟨isBlock ▸ by decide, located⟩

theorem StoredAt.blocksAt_other (stored : StoredAt height block before after) {other : Int}
    (apart : other ≠ height) : blocksAt after other = blocksAt before other := by
  obtain ⟨docs, visible, kinds⟩ := stored.adds.appended
  have none : docs.filter (fun doc => doc.collection = .block ∧ doc.height? = some other) = [] := by
    refine List.filter_eq_nil_iff.mpr fun doc member => ?_
    simp [(kinds doc member).1.2, apart.symm]
  rw [blocksAt, docsAt, visible, List.filter_append, none, List.append_nil]
  rfl

theorem StoredAt.blocksAt_own (stored : StoredAt height block before after)
    (vacant : Vacant before height) : ∀ doc ∈ blocksAt after height, doc = block := by
  intro doc held
  obtain ⟨visible, isBlock, located⟩ := mem_blocksAt.mp held
  obtain ⟨docs, appended, kinds⟩ := stored.adds.appended
  rw [appended, List.mem_append] at visible
  rcases visible with old | new
  · exact absurd ⟨isBlock ▸ by decide, located⟩ (vacant doc old)
  · exact (kinds doc new).2 isBlock

theorem StoredAt.single (stored : StoredAt height block before after)
    (single : SingleBlocks before) (vacant : Vacant before height) : SingleBlocks after := by
  refine SingleBlocks.of_unique fun other left leftAt right rightAt => ?_
  by_cases own : other = height
  · subst own
    rw [stored.blocksAt_own vacant left leftAt, stored.blocksAt_own vacant right rightAt]
  · rw [stored.blocksAt_other own] at leftAt rightAt
    exact single.unique leftAt rightAt

/-- A rollback that displaces the block leaves what it would have left before the call. -/
theorem StoredAt.survives_iff (stored : StoredAt height block before after)
    (single : SingleBlocks before) (vacant : Vacant before height)
    (isBlock : block.collection = .block) (located : block.height? = some height)
    (usable : block.hash ≠ "") (displaced : Displaced low high chainHashes height block.hash)
    (doc : Doc) :
    Survives after low high chainHashes doc ↔ Survives before low high chainHashes doc := by
  rcases stored.led with rfl | held
  · rfl
  have within : height ∈ descending low high := mem_descending.mpr ⟨displaced.above, displaced.below⟩
  have orphan : Orphan after chainHashes height := by
    obtain ⟨hash, verified, filled, differs⟩ := displaced.verified
    have rows : blocksAt after height = [block] :=
      (stored.single single vacant).eq_singleton (mem_blocksAt.mpr ⟨held, isBlock, located⟩)
    refine ⟨hash, block.hash, verified, filled, ?_, usable, differs⟩
    rw [getStoredBlockHash, rows]
  have elsewhere : ∀ other, other ≠ height →
      (Orphan after chainHashes other ↔ Orphan before chainHashes other) :=
    fun other apart => orphan_congr (stored.blocksAt_other apart)
  obtain ⟨docs, appended, kinds⟩ := stored.adds.appended
  constructor
  · rintro ⟨visible, spared⟩
    rw [appended, List.mem_append] at visible
    rcases visible with old | new
    · refine ⟨old, ?_⟩
      rintro ⟨tracked, other, listed, there, condemned⟩
      have apart : other ≠ height := by
        rintro rfl
        exact vacant.not_orphan condemned
      exact spared ⟨tracked, other, listed, there, (elsewhere other apart).mpr condemned⟩
    · obtain ⟨⟨tracked, there⟩, _⟩ := kinds doc new
      exact absurd ⟨tracked, height, within, there, orphan⟩ spared
  · rintro ⟨visible, spared⟩
    refine ⟨stored.adds.visible visible, ?_⟩
    rintro ⟨tracked, other, listed, there, condemned⟩
    have apart : other ≠ height := by
      rintro rfl
      exact vacant doc visible ⟨tracked, there⟩
    exact spared ⟨tracked, other, listed, there, (elsewhere other apart).mp condemned⟩

end Rollback

end ShinzoGenerator.Defra
