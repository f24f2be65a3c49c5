import ShinzoGenerator.Evm.ServedBlocks
import ShinzoGenerator.Evm.StoredLinks
import ShinzoGenerator.Indexer.RestoredBlocks

/-! A chain that leaves a block and comes back to it. The rollback takes back whatever the
store of the block has committed, and until the pruner has purged the block document the
block cannot be stored again, however it is fetched. -/

set_option autoImplicit false

namespace ShinzoGenerator.Evm

open Chains Defra Indexer Pruner
open Geth (Keccak)

/-! ### What a fetched block is for the store -/

def ChainBlock.blockDoc (keccak256 : Keccak) (chain : ChainBlock) : Doc :=
  ⟨.block, buildBlockData (convertGethBlock keccak256 chain.block) chain.block.numberU64⟩

/-- A conversion of the chain's block, fetched with any client from any honest node. -/
def FetchedBlock (keccak256 : Keccak) (chain : ChainBlock) (converted : Converted) : Prop :=
  ∃ client node height bundle converter, EthereumClient.getPreferredClient client = some node ∧
    node.blockByNumber height = .ok chain.block ∧ Honest node chain ∧
    fetchBlock (some (client.rpc keccak256)) height = .ok bundle ∧
    Converter.convert converter bundle = .ok converted

theorem evm_leavesBlocks (names : CollectionNames) (refs : List String) :
    LeavesBlocks (some (evmLinkStamper names refs)) :=
  leavesBlocks_of_fills (evm_fillsLinks names refs)

theorem sameContent_height {collection : Collection} {before after : Fields}
    (same : SameContent before after) :
    (Doc.mk collection after).height? = (Doc.mk collection before).height? := by
  have found := congrArg (List.lookup collection.heightField) same
  rw [lookup_withoutLinks (by cases collection <;> decide) (by cases collection <;> decide),
    lookup_withoutLinks (by cases collection <;> decide) (by cases collection <;> decide)] at found
  exact congrArg toInt64? found

theorem evm_leavesHeight (names : CollectionNames) (refs : List String) (height : Int) :
    LeavesHeight (some (evmLinkStamper names refs)) height := by
  intro before after restamped located
  have same := (evm_fillsLinks names refs).sameGroup restamped
  have field : after.blockNumField = before.blockNumField := by
    rcases restamped with rfl | ⟨session, rfl⟩ <;> rfl
  have heights : ∀ {docs stamped : List Fields}, List.Forall₂ SameContent docs stamped →
      (∀ doc ∈ docs, (Doc.mk before.collection doc).height? = some height) →
      ∀ doc ∈ stamped, (Doc.mk before.collection doc).height? = some height := by
    intro docs stamped related
    induction related with
    | nil => exact id
    | cons first _ ih =>
        rw [List.forall_mem_cons, List.forall_mem_cons]
        exact fun known => ⟨(sameContent_height first).trans known.1, ih known.2⟩
  refine ⟨?_, ?_, ?_⟩
  · rw [field, same.collection, located.named]
  · exact same.collection ▸ located.tracked
  · rw [same.collection]
    exact heights same.docs located.located

theorem groups_collections {converter : Converter} {bundle : BlockBundle} {block : Block}
    {blockInt : Int} :
    ∀ group ∈ (converter.groups bundle block blockInt).tail,
      group.collection ∈ [Collection.transaction, .log, .accessListEntry] ∧
        group.blockNumField = blockNumberFieldName := by
  intro group member
  simp only [Converter.groups, List.tail_cons, List.mem_append, mem_unlessEmpty_iff] at member
  rcases member with ⟨_, rfl⟩ | ⟨_, rfl⟩ | ⟨_, rfl⟩ <;> simp

section Fetched

variable {keccak256 : Keccak} {chain : ChainBlock} {converted : Converted}

theorem FetchedBlock.blockFor (fetched : FetchedBlock keccak256 chain converted) :
    BlockFor (some converted.linkStamper) converted.result chain.block.numberU64
        (chain.blockDoc keccak256) ∧
      ∀ session, insertion? (some converted.linkStamper) converted.result session =
        some (chain.blockDoc keccak256) := by
  obtain ⟨client, node, height, bundle, converter, preferred, served, honest, answered, accepted⟩ :=
    fetched
  obtain ⟨receipts, goes, rfl⟩ := (fetched_eq preferred served).mp answered
  have carried := ((covered_of_goesOn preferred honest goes).convert_ok accepted).2
  obtain ⟨block, blockInt, given, parsed, grouped, signature, made⟩ := convert_ok accepted
  cases given
  obtain ⟨_, rfl⟩ := (hexToInt_toString (numberU64_fits chain.block)).mp parsed
  have others := @groups_collections converter (chainBundle keccak256 chain receipts)
    (convertGethBlock keccak256 chain.block) chain.block.numberU64
  refine ⟨⟨⟨?_, ?_, ?_⟩, ?_, ?_, signature, ?_, ?_⟩, ?_⟩
  · rw [grouped]
    rintro group ⟨⟩
    rfl
  · rw [grouped]
    intro group member isBlock
    have listed := (others group member).1
    rw [isBlock] at listed
    exact absurd listed (by decide)
  · rw [signature]
    decide
  · rw [ConversionResult.blockDoc?, grouped]
    rfl
  · intro group member
    have located : ∀ doc ∈ group.docs, (Doc.mk group.collection doc).height? = _ :=
      fun doc listed => (carried group member doc listed).2
    rw [grouped] at member
    rcases List.mem_cons.mp member with rfl | other
    · exact ⟨rfl, (by decide : Collection.block ∈ blockScoped), located⟩
    · obtain ⟨listed, field⟩ := others group other
      have children : ∀ collection ∈ [Collection.transaction, .log, .accessListEntry],
          collection.heightField = blockNumberFieldName ∧ collection ∈ blockScoped := by decide
      obtain ⟨height, tracked⟩ := children _ listed
      exact ⟨field.trans height.symm, tracked, located⟩
  · rw [made]
    exact evm_leavesBlocks _ _
  · rw [made]
    exact evm_leavesHeight _ _ _
  · intro session
    rw [made, insertion?, grouped]
    rfl

end Fetched

/-! ### There and back -/

/-- Behind a reorganisation the store shows what it would show had the displaced block never
been stored, and no fetch of that block is stored again before a purge. -/
theorem reorged_block_undone {keccak256 : Keccak} {chain : ChainBlock} {converted : Converted}
    {env : Environment} {handler : BlockHandler} {blockNum : Int} {session : Session EvmLinks}
    {low high : Int} {chainHashes : HeightMap String} {budget rest : Nat} {next : DB}
    (fetched : FetchedBlock keccak256 chain converted) (single : SingleBlocks session.db)
    (vacant : Vacant session.db chain.block.numberU64)
    (displaced : Displaced low high chainHashes chain.block.numberU64 chain.block.hash.hex)
    (rolledBack : rollbackBlocks low high chainHashes budget (storeWithRetry env handler
      (some converted.linkStamper) blockNum converted.result session).session.db =
        .ok (rest, next)) :
    (∀ doc, doc ∈ next.visible ↔ Survives session.db low high chainHashes doc) ∧
      (chain.blockDoc keccak256 ∈ (storeWithRetry env handler (some converted.linkStamper) blockNum
          converted.result session).session.db.visible →
        ∀ cfg state later, state.db = next →
          ((custodySystem EvmLinks cfg handler).restrict
            (Remembers (chain.blockDoc keccak256) cfg handler)).Path state later →
          ∀ again, FetchedBlock keccak256 chain again →
            Barred handler (some again.linkStamper) again.result later.db) := by
  obtain ⟨ready, _⟩ := fetched.blockFor
  have stored : StoredAt chain.block.numberU64 (chain.blockDoc keccak256) session.db
      (storeWithRetry env handler (some converted.linkStamper) blockNum converted.result
        session).session.db := ready.storeTurns blockNum maxRPCRetries
  have survives : ∀ doc, doc ∈ next.visible ↔ Survives session.db low high chainHashes doc := by
    intro doc
    rw [rollbackBlocks_success (stored.single single vacant) rolledBack]
    exact stored.survives_iff single vacant rfl rfl (hex_ne_empty _) displaced doc
  refine ⟨survives, fun committed cfg state later starts reached again refetched => ?_⟩
  have hidden : chain.blockDoc keccak256 ∉ next.visible := by
    intro visible
    exact vacant _ ((survives _).mp visible).1 ⟨(by decide : Collection.block ∈ blockScoped), rfl⟩
  have held : next.Holds (chain.blockDoc keccak256) := by
    have kept := rollbackBlocks_holds low high chainHashes budget (storeWithRetry env handler
      (some converted.linkStamper) blockNum converted.result session).session.db
      (chain.blockDoc keccak256)
    rw [rolledBack] at kept
    exact kept.mpr (.inl committed)
  obtain ⟨readyAgain, inserts⟩ := refetched.blockFor
  exact readyAgain.barred inserts (deleted_path (starts ▸ held.resolve_left hidden) reached)

/-! ### Six documents of one block -/

def otherBranch : HeightMap String := AList.insert (5 : Int) "0xa5" ∅

/-- The block at height 5 is fetched, stored and signed, and rolled back for one of another
branch. -/
def displacedBlock (client : EthereumClient) : Option (Converted × DB × Nat × DB) := do
  let bundle ← (fetchBlock (some (client.rpc fun _ => [])) 5).toOption
  let converted ← (unconfigured.convert bundle).toOption
  let stored := storeWithRetry willing heightHandler (some converted.linkStamper) 5
    converted.result { db := .empty, links := {} }
  let rolledBack ← (rollbackBlocks 5 5 otherBranch 10 stored.session.db).toOption
  pure (converted, stored.session.db, rolledBack)

theorem ok_of_toOption {ε α : Type} {attempt : Except ε α} {value : α}
    (found : attempt.toOption = some value) : attempt = .ok value := by
  cases attempt with
  | error error => cases found
  | ok other =>
      cases found
      rfl

theorem displacedBlock_some {client : EthereumClient} {converted : Converted} {db next : DB}
    {rest : Nat} (found : displacedBlock client = some (converted, db, rest, next)) :
    db = (storeWithRetry willing heightHandler (some converted.linkStamper) 5 converted.result
        { db := .empty, links := {} }).session.db ∧
      rollbackBlocks 5 5 otherBranch 10 db = .ok (rest, next) ∧
      ∃ bundle, fetchBlock (some (client.rpc fun _ => [])) 5 = .ok bundle ∧
        unconfigured.convert bundle = .ok converted := by
  simp only [displacedBlock, Option.bind_eq_bind, Option.bind_eq_some_iff, Option.pure_def,
    Option.some.injEq, Prod.mk.injEq] at found
  obtain ⟨bundle, answered, converted, accepted, _, rolledBack, rfl, rfl, rfl⟩ := found
  exact ⟨rfl, ok_of_toOption rolledBack, bundle, ok_of_toOption answered, ok_of_toOption accepted⟩

theorem displaced_block_barred :
    ∃ converted next, FetchedBlock (fun _ => []) twoReceipts converted ∧ next.visible = [] ∧
      next.deleted.length = 6 ∧
      Barred heightHandler (some converted.linkStamper) converted.result next := by
  have executed : (displacedBlock httpOnly).any (fun outcome =>
      twoReceipts.blockDoc (fun _ => []) ∈ outcome.2.1.visible ∧
        outcome.2.2.2.deleted.length = 6) = true := by decide +kernel
  obtain ⟨⟨converted, db, rest, next⟩, found, checked⟩ := (Option.any_eq_true _ _).mp executed
  obtain ⟨committed, six⟩ := of_decide_eq_true checked
  obtain ⟨stored, rolledBack, bundle, answered, accepted⟩ := displacedBlock_some found
  have fetched : FetchedBlock (fun _ => []) twoReceipts converted :=
    ⟨httpOnly, singleReceipts, 5, bundle, unconfigured, rfl, rfl, singleReceipts_honest, answered,
      accepted⟩
  have single : SingleBlocks (.empty : DB) := fun _ => by simp [blocksAt, docsAt, SoftStore.empty]
  have vacant : Vacant .empty twoReceipts.block.numberU64 := by
    intro doc visible
    simp [SoftStore.empty] at visible
  have displaced : Displaced 5 5 otherBranch twoReceipts.block.numberU64
      twoReceipts.block.hash.hex :=
    ⟨by decide, by decide, "0xa5", by decide, by decide, by decide +kernel⟩
  rw [stored] at rolledBack committed
  obtain ⟨survives, barred⟩ := reorged_block_undone fetched single vacant displaced rolledBack
  refine ⟨converted, next, fetched, ?_, six, ?_⟩
  · refine List.eq_nil_iff_forall_not_mem.mpr fun doc visible => ?_
    have old := ((survives doc).mp visible).1
    simp [SoftStore.empty] at old
  · exact barred committed keepOne { db := next, queue := {} } _ rfl .refl converted fetched

end ShinzoGenerator.Evm
