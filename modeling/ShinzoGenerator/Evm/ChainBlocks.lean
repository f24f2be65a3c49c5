import ShinzoGenerator.Evm.BlockNumbers
import ShinzoGenerator.Evm.EthereumClient

/-! A block from the chain to its documents. Whether the receipts come in one batch or one
by one, whatever calls fail and whichever branch the node answers from in between, a fetch
that succeeds gives the documents of the block and of its own receipts. -/

set_option autoImplicit false

namespace ShinzoGenerator.Evm

open Chains FirstOccurrences
open Geth (Keccak)

/-! ### What the chain has -/

/-- A block with the receipts of its transactions, in order. -/
structure ChainBlock where
  block : Geth.Block
  receipts : List Geth.Receipt
  paired : receipts.map (·.txHash) = block.transactions.map (·.hash)
  distinct : (block.transactions.map (·.hash)).Nodup
  own : ∀ receipt ∈ receipts, receipt.blockHash = block.hash
  numbered : ∀ receipt ∈ receipts, ∀ log ∈ receipt.logs, log.blockNumber.toNat = block.numberU64

/-- What the receipt says about the execution. -/
def executed (tx : Transaction) (receipt : Geth.Receipt) : Transaction :=
  tx.withOutcome
    { status := receipt.postState ≠ [] ∨ receipt.status = 1
      gasUsed := toString receipt.gasUsed.toNat
      cumulativeGasUsed := toString receipt.cumulativeGasUsed.toNat
      effectiveGasPrice := optionalDecimal receipt.effectiveGasPrice }

/-- The entries of the access lists, each with its transaction; a repeated one counts once. -/
def ChainBlock.accesses (chain : ChainBlock) : List (Geth.Hash × Geth.AccessTuple) :=
  firsts id [] (chain.block.transactions.flatMap fun tx => tx.accessList.map (tx.hash, ·))

/-- The documents that stand for the block in each collection. -/
def ChainBlock.documents (keccak256 : Keccak) (chain : ChainBlock) : Collection → List Fields
  | .block => [buildBlockData (convertGethBlock keccak256 chain.block) chain.block.numberU64]
  | .transaction =>
      (List.zipWith executed (convertGethBlock keccak256 chain.block).transactions
        chain.receipts).map buildTransactionData
  | .log => chain.receipts.flatMap fun receipt =>
      receipt.logs.map fun log => buildLogData (convertGethLog keccak256 log)
  | .accessListEntry => chain.accesses.map fun access =>
      buildALEData (convertAccessTuple keccak256 access.2) chain.block.numberU64
  | .blockSignature => []
  | .snapshotSignature => []

/-- Calls may fail, answer in part or come from another branch, but a receipt that names
the block is one of its own, and a single receipt is the one that was asked for. -/
structure Honest (node : EthClient) (chain : ChainBlock) : Prop where
  batch : ∀ {hash receipts receipt}, node.blockReceipts hash = .ok receipts →
    some receipt ∈ receipts → receipt.blockHash = chain.block.hash → receipt ∈ chain.receipts
  single : ∀ {index hash receipt}, node.transactionReceipt index hash = .ok receipt →
    receipt.txHash = hash ∧ (receipt.blockHash = chain.block.hash → receipt ∈ chain.receipts)

/-- The documents of all groups of one collection. -/
def documentsOf (groups : List DocumentGroup) (collection : Collection) : List Fields :=
  (groups.filter (·.collection = collection)).flatMap (·.docs)

/-! ### The client's answers -/

section Client

variable {keccak256 : Keccak} {client : EthereumClient} {node : EthClient}

theorem rpc_block_ok (preferred : client.getPreferredClient = some node) {height : Int}
    {block : Block} : (client.rpc keccak256).getBlockByNumber height = .ok block ↔
      ∃ gethBlock, node.blockByNumber height = .ok gethBlock ∧
        convertGethBlock keccak256 gethBlock = block := by
  simp only [EthereumClient.rpc, EthereumClient.getBlockByNumber, EthereumClient.call, preferred]
  cases node.blockByNumber height <;> simp [Except.map]

theorem rpc_batch_ok (preferred : client.getPreferredClient = some node) {hash : Geth.Hash}
    {batch : List (Option TransactionReceipt)} :
    (client.rpc keccak256).getBlockReceipts hash.hex = .ok batch ↔
      ∃ receipts, node.blockReceipts hash = .ok receipts ∧
        receipts.map (Option.map (convertGethReceipt keccak256)) = batch := by
  simp only [EthereumClient.rpc, EthereumClient.getBlockReceipts, EthereumClient.call, preferred,
    Geth.hexToHash_hex]
  cases node.blockReceipts hash <;> simp [Except.map]

theorem rpc_single_ok (preferred : client.getPreferredClient = some node) {index : Nat}
    {hash : Geth.Hash} {answer : Option TransactionReceipt} :
    (client.rpc keccak256).getTransactionReceipt index hash.hex = .ok answer ↔
      ∃ receipt, node.transactionReceipt index hash = .ok receipt ∧
        some (convertGethReceipt keccak256 receipt) = answer := by
  simp only [EthereumClient.rpc, EthereumClient.getTransactionReceipt, EthereumClient.call,
    preferred, Geth.hexToHash_hex]
  cases node.transactionReceipt index hash <;> simp [Except.map]

/-- Printed hashes only match themselves. -/
theorem equalFold_hex {left right : Geth.Hash} :
    equalFold left.hex right.hex = true ↔ left = right := by
  rw [equalFold, decide_eq_true_iff, Geth.toLower_hex, Geth.toLower_hex]
  exact Geth.hex_injective.eq_iff

theorem transactions_getElem? (keccak256 : Keccak) (block : Geth.Block) (index : Nat) :
    (convertGethBlock keccak256 block).transactions[index]? =
      (block.transactions[index]?).map (convertTransaction keccak256 block index) :=
  List.getElem?_mapIdx

theorem mem_transactions (keccak256 : Keccak) {block : Geth.Block} {tx : Geth.Transaction}
    (listed : tx ∈ block.transactions) : ∃ index, block.transactions[index]? = some tx ∧
      (convertGethBlock keccak256 block).transactions[index]? =
        some (convertTransaction keccak256 block index tx) := by
  obtain ⟨index, there⟩ := List.mem_iff_getElem?.mp listed
  exact ⟨index, there, by rw [transactions_getElem?, there, Option.map_some]⟩

end Client

/-! ### The receipts of a fetch -/

/-- The bundled receipts are receipts of the block, with one for each of its transactions. -/
structure Covered (keccak256 : Keccak) (chain : ChainBlock)
    (receipts : List (Option TransactionReceipt)) : Prop where
  own : ∀ receipt, some receipt ∈ receipts →
    ∃ served ∈ chain.receipts, convertGethReceipt keccak256 served = receipt
  all : ∀ tx ∈ chain.block.transactions,
    ∃ receipt, some receipt ∈ receipts ∧ receipt.transactionHash = tx.hash.hex

section Fetch

variable {keccak256 : Keccak} {client : EthereumClient} {node : EthClient} {chain : ChainBlock}
  {receipts : List (Option TransactionReceipt)}

theorem covered_of_batch (preferred : client.getPreferredClient = some node)
    (honest : Honest node chain)
    (usable : usableBatch? (client.rpc keccak256) (convertGethBlock keccak256 chain.block) =
      some receipts) : Covered keccak256 chain receipts := by
  obtain ⟨answered, matched, covers⟩ := usableBatch_eq_some.mp usable
  obtain ⟨served, answer, rfl⟩ := (rpc_batch_ok preferred).mp answered
  constructor
  · intro receipt member
    obtain ⟨gethReceipt, listed, converted⟩ := List.mem_map.mp member
    obtain ⟨original, rfl, rfl⟩ := Option.map_eq_some_iff.mp converted
    have same := List.all_eq_true.mp matched _ member
    exact ⟨original, honest.batch answer listed (equalFold_hex.mp same), rfl⟩
  · intro tx listed
    obtain ⟨index, _, there⟩ := mem_transactions keccak256 listed
    have asked : some (convertTransaction keccak256 chain.block index tx) ∈
        (convertGethBlock keccak256 chain.block).transactions.map some :=
      List.mem_map_of_mem (List.mem_of_getElem? there)
    have answeredFor := List.all_eq_true.mp covers _ (List.mem_filterMap.mpr ⟨_, asked, rfl⟩)
    obtain ⟨receipt, member, spelled⟩ := List.mem_map.mp (of_decide_eq_true answeredFor)
    obtain ⟨_, inBatch, rfl⟩ := List.mem_filterMap.mp member
    obtain ⟨_, _, converted⟩ := List.mem_map.mp inBatch
    obtain ⟨original, _, rfl⟩ := Option.map_eq_some_iff.mp converted
    refine ⟨_, inBatch, ?_⟩
    have lowered : toLower original.txHash.hex = toLower tx.hash.hex := spelled
    rwa [Geth.toLower_hex, Geth.toLower_hex] at lowered

theorem singles_getElem? (rpc : RpcClient) (keccak256 : Keccak) (block : Geth.Block)
    (index : Nat) :
    (fetchReceiptsIndividually rpc (convertGethBlock keccak256 block))[index]? =
      (block.transactions[index]?).map fun tx =>
        fetchReceipt rpc block.hash.hex index tx.hash.hex := by
  unfold fetchReceiptsIndividually
  rw [List.getElem?_mapIdx, transactions_getElem?, Option.map_map]
  rfl

theorem covered_of_singles (preferred : client.getPreferredClient = some node)
    (honest : Honest node chain)
    (individually : fetchReceiptsIndividually (client.rpc keccak256)
      (convertGethBlock keccak256 chain.block) = receipts) (whole : none ∉ receipts) :
    Covered keccak256 chain receipts := by
  subst individually
  constructor
  · intro receipt member
    obtain ⟨index, tx, there, answered, same⟩ := mem_fetchReceiptsIndividually member
    rw [transactions_getElem?, Option.map_eq_some_iff] at there
    obtain ⟨original, _, rfl⟩ := there
    obtain ⟨served, answer, converted⟩ := (rpc_single_ok preferred).mp answered
    cases converted
    exact ⟨served, (honest.single answer).2 (equalFold_hex.mp same), rfl⟩
  · intro tx listed
    obtain ⟨index, there⟩ := List.mem_iff_getElem?.mp listed
    have slot := singles_getElem? (client.rpc keccak256) keccak256 chain.block index
    rw [there, Option.map_some] at slot
    cases fetched : fetchReceipt (client.rpc keccak256) chain.block.hash.hex index tx.hash.hex with
    | none => exact absurd (List.mem_of_getElem? (fetched ▸ slot)) whole
    | some receipt =>
        obtain ⟨answered, _⟩ := fetchReceipt_eq_some.mp fetched
        obtain ⟨served, answer, converted⟩ := (rpc_single_ok preferred).mp answered
        cases converted
        refine ⟨_, List.mem_of_getElem? (fetched ▸ slot), ?_⟩
        exact congrArg Geth.Hash.hex (honest.single answer).1

theorem covered_of_goesOn (preferred : client.getPreferredClient = some node)
    (honest : Honest node chain)
    (goes : GoesOnWith (client.rpc keccak256) (convertGethBlock keccak256 chain.block) receipts) :
    Covered keccak256 chain receipts := by
  rcases goes with usable | ⟨_, individually, whole⟩
  · exact covered_of_batch preferred honest usable
  · exact covered_of_singles preferred honest individually whole

end Fetch

/-! ### The transactions with their receipts -/

section Outcomes

variable {keccak256 : Keccak} {chain : ChainBlock} {receipts : List (Option TransactionReceipt)}

/-- The receipt of a transaction stands at its index. -/
theorem ChainBlock.receipt_at (chain : ChainBlock) {index : Nat} {tx : Geth.Transaction}
    (there : chain.block.transactions[index]? = some tx) :
    ∃ receipt, chain.receipts[index]? = some receipt ∧ receipt.txHash = tx.hash := by
  have paired := congrArg (·[index]?) chain.paired
  simp only [List.getElem?_map, there, Option.map_some, Option.map_eq_some_iff] at paired
  exact paired

/-- The hashes of the receipts are those of the transactions, so they differ. -/
theorem ChainBlock.receipt_inj (chain : ChainBlock) {left right : Geth.Receipt}
    (leftOwn : left ∈ chain.receipts) (rightOwn : right ∈ chain.receipts)
    (same : left.txHash = right.txHash) : left = right := by
  have apart : (chain.receipts.map (·.txHash)).Nodup := chain.paired ▸ chain.distinct
  exact List.inj_on_of_nodup_map apart leftOwn rightOwn same

theorem ChainBlock.length_receipts (chain : ChainBlock) :
    chain.receipts.length = chain.block.transactions.length := by
  simpa using congrArg List.length chain.paired

theorem Covered.lookup (covered : Covered keccak256 chain receipts) {index : Nat}
    {tx : Geth.Transaction} {receipt : Geth.Receipt}
    (there : chain.block.transactions[index]? = some tx)
    (beside : chain.receipts[index]? = some receipt) :
    (buildReceiptMap receipts).lookup tx.hash.hex = some (convertGethReceipt keccak256 receipt) := by
  obtain ⟨some, present, named⟩ := covered.all tx (List.mem_of_getElem? there)
  obtain ⟨found, read⟩ := lookup_receipt_isSome present named
  obtain ⟨member, spelled⟩ := lookup_receipt read
  obtain ⟨served, own, rfl⟩ := covered.own found member
  obtain ⟨other, alsoBeside, hash⟩ := chain.receipt_at there
  rw [beside, Option.some.injEq] at alsoBeside
  subst alsoBeside
  have same : served.txHash = receipt.txHash := (Geth.hex_injective spelled).trans hash.symm
  rw [read, chain.receipt_inj own (List.mem_of_getElem? beside) same]

theorem executed_eq (tx : Transaction) (receipt : Geth.Receipt) :
    tx.withOutcome (convertGethReceipt keccak256 receipt).outcome = executed tx receipt := by
  have status : getReceiptStatus receipt = "1" ↔ receipt.postState ≠ [] ∨ receipt.status = 1 := by
    unfold getReceiptStatus
    simp only [List.length_pos_iff]
    split
    · rename_i rooted
      simp [rooted]
    · rename_i bare
      simp [bare]
  unfold executed TransactionReceipt.outcome convertGethReceipt
  simp only [status]
  rfl

/-- Each transaction of the bundle has the outcome of its own receipt. -/
theorem Covered.transactions (covered : Covered keccak256 chain receipts) :
    (convertGethBlock keccak256 chain.block).transactions.map
        (mergeReceipt (buildReceiptMap receipts)) =
      List.zipWith executed (convertGethBlock keccak256 chain.block).transactions
        chain.receipts := by
  apply List.ext_getElem?
  intro index
  rw [List.getElem?_map, List.getElem?_zipWith, transactions_getElem?]
  cases there : chain.block.transactions[index]? with
  | none => rfl
  | some tx =>
      obtain ⟨receipt, beside, _⟩ := chain.receipt_at there
      rw [beside, Option.map_some, Option.map_some]
      have merged : mergeReceipt (buildReceiptMap receipts)
          (convertTransaction keccak256 chain.block index tx) =
            executed (convertTransaction keccak256 chain.block index tx) receipt := by
        rw [← executed_eq]
        unfold mergeReceipt
        rw [show (convertTransaction keccak256 chain.block index tx).hash = tx.hash.hex from rfl,
          covered.lookup there beside]
      rw [merged]

/-- The bundle of a fetch with these receipts. -/
abbrev chainBundle (keccak256 : Keccak) (chain : ChainBlock)
    (receipts : List (Option TransactionReceipt)) : BlockBundle :=
  fetchedBundle (convertGethBlock keccak256 chain.block) receipts

theorem bundle_getElem? (covered : Covered keccak256 chain receipts) (index : Nat) :
    ((chainBundle keccak256 chain receipts).transactions.filterMap id)[index]? =
      (chain.block.transactions[index]?).bind fun tx => (chain.receipts[index]?).map fun receipt =>
        executed (convertTransaction keccak256 chain.block index tx) receipt := by
  have listed : (chainBundle keccak256 chain receipts).transactions.filterMap id =
      List.zipWith executed (convertGethBlock keccak256 chain.block).transactions
        chain.receipts := by
    rw [← covered.transactions]
    simp [fetchedBundle]
  rw [listed, List.getElem?_zipWith, transactions_getElem?]
  cases chain.block.transactions[index]? with
  | none => rfl
  | some tx => cases chain.receipts[index]? <;> rfl

theorem flatMap_eq_of_getElem? {α β γ : Type} {left : List α} {right : List β}
    {first : α → List γ} {second : β → List γ}
    (agree : ∀ index : Nat, (left[index]?).map first = (right[index]?).map second) :
    left.flatMap first = right.flatMap second := by
  rw [List.flatMap_def, List.flatMap_def]
  refine congrArg List.flatten (List.ext_getElem? fun index => ?_)
  rw [List.getElem?_map, List.getElem?_map, agree]

theorem Covered.logDocs (covered : Covered keccak256 chain receipts) :
    buildLogDocs (chainBundle keccak256 chain receipts).transactions (buildReceiptMap receipts) =
      chain.documents keccak256 .log := by
  refine flatMap_eq_of_getElem? fun index => ?_
  rw [bundle_getElem? covered]
  cases there : chain.block.transactions[index]? with
  | none =>
      have short : chain.receipts[index]? = none := by
        rw [List.getElem?_eq_none_iff, chain.length_receipts, ← List.getElem?_eq_none_iff, there]
      rw [short]
      rfl
  | some tx =>
      obtain ⟨receipt, beside, _⟩ := chain.receipt_at there
      have found : (buildReceiptMap receipts).lookup
          (executed (convertTransaction keccak256 chain.block index tx) receipt).hash =
            some (convertGethReceipt keccak256 receipt) := covered.lookup there beside
      simp only [beside, Option.bind_some, Option.map_some, Option.some.injEq, found]
      exact List.map_map

end Outcomes

/-! ### The access lists -/

section Accesses

variable {keccak256 : Keccak} {chain : ChainBlock} {receipts : List (Option TransactionReceipt)}

theorem lower_checksumChar {char : Char} (lower : char ∈ Hex.lowerDigits) (hash : List UInt8)
    (index : Nat) : (Geth.checksumChar hash index char).toLower = char := by
  have digits : Hex.lowerDigits.all (fun char => '9' < char →
      (Char.ofNat (char.toNat - 32)).toLower = char) = true := by decide
  have raised := of_decide_eq_true (List.all_eq_true.mp digits char lower)
  unfold Geth.checksumChar
  split
  · rename_i letter
    exact raised letter.1
  · exact Hex.toLower_of_lower lower

theorem lower_address (address : Geth.Address) :
    (address.hex keccak256).toList.map Char.toLower = '0' :: 'x' :: Hex.encode address.toList := by
  have digits : ((Hex.encode address.toList).mapIdx
      (Geth.checksumChar (keccak256 (Hex.encode address.toList)))).map Char.toLower =
        Hex.encode address.toList := by
    apply List.ext_getElem?
    intro index
    rw [List.getElem?_map, List.getElem?_mapIdx]
    cases there : (Hex.encode address.toList)[index]? with
    | none => rfl
    | some char =>
        have lower := Hex.encode_lower _ char (List.mem_of_getElem? there)
        rw [Option.map_some, Option.map_some, lower_checksumChar lower]
  unfold Geth.Address.hex
  rw [String.toList_append, List.map_append]
  exact congrArg (['0', 'x'] ++ ·) ((congrArg (List.map Char.toLower) String.toList_ofList).trans
    digits)

theorem lower_hash (hash : Geth.Hash) :
    hash.hex.toList.map Char.toLower = '0' :: 'x' :: Hex.encode hash.toList := by
  have lowered := congrArg String.toList (Geth.toLower_hex hash)
  rw [toLower, String.toList_ofList] at lowered
  rw [lowered, Geth.toList_hex]

theorem address_hex_injective : Function.Injective (Geth.Address.hex keccak256) := by
  intro left right same
  have spelled := congrArg (fun text : String => text.toList.map Char.toLower) same
  simp only [lower_address, List.cons.injEq, true_and] at spelled
  have read := congrArg Hex.decode spelled
  rw [Hex.decode_encode, Hex.decode_encode, Option.some.injEq] at read
  exact Subtype.ext read

/-- Hexadecimal texts keep apart from the separators. -/
theorem separable_of_lower {text : String} {bytes : List UInt8}
    (spelled : text.toList.map Char.toLower = '0' :: 'x' :: Hex.encode bytes) : Separable text := by
  have known : ∀ char ∈ text.toList, char.toLower ∈ '0' :: 'x' :: Hex.lowerDigits := by
    intro char member
    have lowered : char.toLower ∈ '0' :: 'x' :: Hex.encode bytes :=
      spelled ▸ List.mem_map_of_mem member
    simp only [List.mem_cons] at lowered ⊢
    rcases lowered with zero | mark | digit
    · exact .inl zero
    · exact .inr (.inl mark)
    · exact .inr (.inr (Hex.encode_lower bytes _ digit))
  refine ⟨?_, fun bar => absurd (known _ bar) (by decide), fun comma =>
    absurd (known _ comma) (by decide)⟩
  rintro rfl
  cases spelled

/-- The access of a transaction as the key of its document has it. -/
def printedAccess (keccak256 : Keccak) (access : Geth.Hash × Geth.AccessTuple) :
    String × AccessListEntry :=
  (access.1.hex, convertAccessTuple keccak256 access.2)

theorem printedAccess_separable (access : Geth.Hash × Geth.AccessTuple) :
    SeparableEntry (printedAccess keccak256 access) := by
  refine ⟨separable_of_lower (lower_hash access.1),
    separable_of_lower (lower_address access.2.address), ?_⟩
  intro key listed
  obtain ⟨hash, _, rfl⟩ := List.mem_map.mp listed
  exact separable_of_lower (lower_hash hash)

theorem printedAccess_injective : Function.Injective (printedAccess keccak256) := by
  intro left right same
  obtain ⟨hash, address, keys⟩ := left
  obtain ⟨otherHash, otherAddress, otherKeys⟩ := right
  simp only [printedAccess, convertAccessTuple, Prod.mk.injEq, AccessListEntry.mk.injEq] at same
  obtain ⟨hashes, addresses, keyTexts⟩ := same
  have sameKeys : keys = otherKeys := List.map_injective_iff.mpr Geth.hex_injective keyTexts
  rw [Geth.hex_injective hashes, address_hex_injective addresses, sameKeys]

theorem Covered.occurrences (covered : Covered keccak256 chain receipts) :
    occurrences (chainBundle keccak256 chain receipts).transactions =
      (chain.block.transactions.flatMap fun tx => tx.accessList.map (tx.hash, ·)).map
        (printedAccess keccak256) := by
  rw [List.map_flatMap]
  refine flatMap_eq_of_getElem? fun index => ?_
  rw [bundle_getElem? covered]
  cases there : chain.block.transactions[index]? with
  | none => rfl
  | some tx =>
      obtain ⟨receipt, beside, _⟩ := chain.receipt_at there
      simp only [beside, Option.bind_some, Option.map_some, Option.some.injEq]
      change (tx.accessList.map (convertAccessTuple keccak256)).map (tx.hash.hex, ·) = _
      rw [List.map_map, List.map_map]
      rfl

theorem Covered.accessDocs (covered : Covered keccak256 chain receipts) :
    (buildALEDocs (chainBundle keccak256 chain receipts).transactions
        chain.block.numberU64).1 = chain.documents keccak256 .accessListEntry := by
  have apart : Function.Injective (occurrenceKey ∘ printedAccess keccak256) := by
    intro left right same
    exact printedAccess_injective
      (occurrenceKey_inj (printedAccess_separable left) (printedAccess_separable right) same)
  rw [buildALEDocs_eq]
  dsimp only
  rw [emittedEntries, covered.occurrences]
  have kept := firsts_map apart []
    (chain.block.transactions.flatMap fun tx => tx.accessList.map (tx.hash, ·))
  rw [List.map_nil] at kept
  rw [kept, List.map_map]
  rfl

end Accesses

/-! ### The documents of the conversion -/

theorem documentsOf_unlessEmpty (group : DocumentGroup) (collection : Collection) :
    documentsOf (unlessEmpty group) collection =
      if group.collection = collection then group.docs else [] := by
  unfold unlessEmpty documentsOf
  by_cases empty : group.docs = []
  · simp [empty]
  · by_cases own : group.collection = collection <;> simp [empty, own]

theorem documentsOf_append (left right : List DocumentGroup) (collection : Collection) :
    documentsOf (left ++ right) collection =
      documentsOf left collection ++ documentsOf right collection := by
  simp [documentsOf]

theorem documentsOf_groups (converter : Converter) (bundle : BlockBundle) (block : Block)
    (blockInt : Int) (collection : Collection) :
    documentsOf (converter.groups bundle block blockInt) collection =
      match collection with
      | .block => [buildBlockData block blockInt]
      | .transaction => buildTransactionDocs bundle
      | .log => buildLogDocs bundle.transactions (buildReceiptMap bundle.receipts)
      | .accessListEntry => (buildALEDocs bundle.transactions blockInt).1
      | .blockSignature => []
      | .snapshotSignature => [] := by
  have split : ∀ (group : DocumentGroup) (groups : List DocumentGroup),
      documentsOf (group :: groups) collection =
        (if group.collection = collection then group.docs else []) ++
          documentsOf groups collection := by
    intro group groups
    by_cases own : group.collection = collection <;> simp [documentsOf, own]
  unfold Converter.groups
  rw [split, documentsOf_append, documentsOf_append, documentsOf_unlessEmpty,
    documentsOf_unlessEmpty, documentsOf_unlessEmpty]
  cases collection <;> simp

/-- The heights that the documents can hold. -/
def int64Heights : Nat := 9223372036854775808

theorem hexToInt_toString {number : Nat} (fits : number ≤ Strconv.maxUint64) {value : Int} :
    hexToInt (toString number) = .ok value ↔ number < int64Heights ∧ value = number := by
  have read := Strconv.parseInt_toString fits (.inl rfl)
  have spelled : toString number ≠ "" := by
    intro empty
    have digits := congrArg String.toList empty
    rw [Strconv.toList_toString] at digits
    exact Nat.toDigits_ne_nil digits
  have bound : Strconv.maxInt64 < (number : Int) ↔ ¬ number < int64Heights := by
    unfold Strconv.maxInt64 int64Heights
    omega
  unfold hexToInt
  simp only [spelled, if_false, read, bound]
  by_cases small : number < int64Heights <;> simp [small, eq_comm]

section Pipeline

variable {keccak256 : Keccak} {converter : Converter} {client : EthereumClient} {node : EthClient}
  {chain : ChainBlock} {receipts : List (Option TransactionReceipt)}

theorem numberU64_fits (block : Geth.Block) : block.numberU64 ≤ Strconv.maxUint64 :=
  Nat.le_of_lt_succ (Nat.mod_lt block.number (by decide))

/-- The bundle names its number by one text. -/
theorem Covered.numbersMatch (covered : Covered keccak256 chain receipts) {block : Block}
    (given : (chainBundle keccak256 chain receipts).block = some block) :
    NumbersMatch (chainBundle keccak256 chain receipts) block := by
  cases given
  constructor
  · intro tx listed
    have inside : tx ∈ (chainBundle keccak256 chain receipts).transactions.filterMap id :=
      List.mem_filterMap.mpr ⟨_, listed, rfl⟩
    obtain ⟨index, there⟩ := List.mem_iff_getElem?.mp inside
    rw [bundle_getElem? covered, Option.bind_eq_some_iff] at there
    obtain ⟨original, _, merged⟩ := there
    obtain ⟨receipt, _, rfl⟩ := Option.map_eq_some_iff.mp merged
    rfl
  · intro receipt listed log held
    obtain ⟨served, own, rfl⟩ := covered.own receipt listed
    obtain ⟨original, logged, rfl⟩ := List.mem_map.mp held
    exact congrArg toString (chain.numbered served own original logged)

theorem Covered.convert_ok (covered : Covered keccak256 chain receipts) {converted : Converted}
    (accepted : converter.convert (chainBundle keccak256 chain receipts) = .ok converted) :
    (∀ collection, documentsOf converted.result.groups collection =
        chain.documents keccak256 collection) ∧
      Carry converted.result.groups chain.block.numberU64 := by
  obtain ⟨block, blockInt, given, parsed, grouped, _⟩ := Evm.convert_ok accepted
  have named := covered.numbersMatch given
  cases given
  have fits := numberU64_fits chain.block
  obtain ⟨small, rfl⟩ := (hexToInt_toString fits).mp parsed
  constructor
  · intro collection
    rw [grouped, documentsOf_groups]
    cases collection with
    | block => rfl
    | transaction =>
        have listed : (chainBundle keccak256 chain receipts).transactions.filterMap id =
            (convertGethBlock keccak256 chain.block).transactions.map
              (mergeReceipt (buildReceiptMap receipts)) := by simp [fetchedBundle]
        exact congrArg (List.map buildTransactionData) (listed.trans covered.transactions)
    | log => exact covered.logDocs
    | accessListEntry => exact covered.accessDocs
    | blockSignature => rfl
    | snapshotSignature => rfl
  · have read : ∀ tx, some tx ∈ (chainBundle keccak256 chain receipts).transactions →
        (Strconv.parseInt tx.blockNumber 10).1 = (chain.block.numberU64 : Int) := by
      intro tx listed
      have below : ¬ Strconv.maxInt64 < (chain.block.numberU64 : Int) := by
        unfold int64Heights at small
        unfold Strconv.maxInt64
        omega
      rw [named.transactions tx listed]
      exact congrArg Prod.fst ((Strconv.parseInt_toString fits (.inr rfl)).trans (if_neg below))
    obtain ⟨number, carried⟩ := (carry_iff parsed named).mpr read
    have own : (buildBlockData (convertGethBlock keccak256 chain.block)
        chain.block.numberU64).lookup numberFieldName = some (.int64 number) :=
      (carried _ List.mem_cons_self _ (List.mem_singleton_self _)).1
    cases own
    rw [grouped]
    exact carried

theorem convert_chainBundle_iff (keccak256 : Keccak) (converter : Converter) (chain : ChainBlock)
    (receipts : List (Option TransactionReceipt)) :
    (∃ converted, converter.convert (chainBundle keccak256 chain receipts) = .ok converted) ↔
      chain.block.numberU64 < int64Heights := by
  have fits := numberU64_fits chain.block
  constructor
  · intro ⟨converted, accepted⟩
    obtain ⟨block, blockInt, given, parsed, _⟩ := Evm.convert_ok accepted
    cases given
    exact ((hexToInt_toString fits).mp parsed).1
  · intro small
    have parsed := (hexToInt_toString fits).mpr ⟨small, rfl⟩
    cases attempt : converter.convert (chainBundle keccak256 chain receipts) with
    | ok converted => exact ⟨converted, rfl⟩
    | error text =>
        unfold Converter.convert at attempt
        dsimp only [chainBundle, fetchedBundle, convertGethBlock] at attempt
        rw [parsed] at attempt
        cases attempt

/-- A fetch goes on with the block that was served. -/
theorem fetched_eq (preferred : client.getPreferredClient = some node) {height : Int}
    (served : node.blockByNumber height = .ok chain.block) {bundle : BlockBundle} :
    fetchBlock (some (client.rpc keccak256)) height = .ok bundle ↔
      ∃ receipts, GoesOnWith (client.rpc keccak256) (convertGethBlock keccak256 chain.block)
          receipts ∧ bundle = chainBundle keccak256 chain receipts := by
  rw [fetchBlock_ok]
  constructor
  · intro ⟨block, receipts, answered, goes, fetched⟩
    obtain ⟨gethBlock, answer, rfl⟩ := (rpc_block_ok preferred).mp answered
    rw [served, Except.ok.injEq] at answer
    subst answer
    exact ⟨receipts, goes, fetched⟩
  · intro ⟨receipts, goes, fetched⟩
    exact ⟨_, receipts, (rpc_block_ok preferred).mpr ⟨_, served, rfl⟩, goes, fetched⟩

/-- However the receipts were fetched, the conversion gives the documents of the chain's
block, all at its height; only a height that no document can hold is refused. -/
theorem fetched_documents_exact (converter : Converter)
    (preferred : client.getPreferredClient = some node) {height : Int}
    (served : node.blockByNumber height = .ok chain.block) (honest : Honest node chain)
    {bundle : BlockBundle}
    (fetched : fetchBlock (some (client.rpc keccak256)) height = .ok bundle) :
    ((∃ converted, converter.convert bundle = .ok converted) ↔
        chain.block.numberU64 < int64Heights) ∧
      ∀ converted, converter.convert bundle = .ok converted →
        (∀ collection, documentsOf converted.result.groups collection =
          chain.documents keccak256 collection) ∧
        Carry converted.result.groups chain.block.numberU64 := by
  obtain ⟨receipts, goes, rfl⟩ := (fetched_eq preferred served).mp fetched
  have covered := covered_of_goesOn preferred honest goes
  exact ⟨convert_chainBundle_iff keccak256 converter chain receipts,
    fun converted accepted => covered.convert_ok accepted⟩

/-! ### When a fetch succeeds -/

/-- All receipts of the block, in any order, and nothing else. -/
def CompleteBatch (chain : ChainBlock) (batch : List (Option Geth.Receipt)) : Prop :=
  (∀ receipt ∈ batch, ∃ own ∈ chain.receipts, receipt = some own) ∧
    ∀ own ∈ chain.receipts, some own ∈ batch

theorem usable_iff (keccak256 : Keccak) (preferred : client.getPreferredClient = some node)
    (honest : Honest node chain) :
    (∃ receipts, usableBatch? (client.rpc keccak256) (convertGethBlock keccak256 chain.block) =
        some receipts) ↔
      ∃ batch, node.blockReceipts chain.block.hash = .ok batch ∧ CompleteBatch chain batch := by
  constructor
  · intro ⟨receipts, usable⟩
    have covered := covered_of_batch preferred honest usable
    obtain ⟨answered, matched, _⟩ := usableBatch_eq_some.mp usable
    obtain ⟨batch, answer, rfl⟩ := (rpc_batch_ok preferred).mp answered
    have present : ∀ receipt ∈ batch, ∃ own ∈ chain.receipts, receipt = some own := by
      intro receipt listed
      have same := List.all_eq_true.mp matched _
        (List.mem_map_of_mem (f := Option.map (convertGethReceipt keccak256)) listed)
      cases receipt with
      | none => cases same
      | some own => exact ⟨own, honest.batch answer listed (equalFold_hex.mp same), rfl⟩
    refine ⟨batch, answer, present, fun own listed => ?_⟩
    have hashed : own.txHash ∈ chain.block.transactions.map (·.hash) :=
      chain.paired ▸ List.mem_map_of_mem listed
    obtain ⟨tx, inBlock, hash⟩ := List.mem_map.mp hashed
    obtain ⟨receipt, converted, spelled⟩ := covered.all tx inBlock
    obtain ⟨answered, inBatch, read⟩ := List.mem_map.mp converted
    obtain ⟨original, rfl, rfl⟩ := Option.map_eq_some_iff.mp read
    obtain ⟨served, servedOwn, same⟩ := present _ inBatch
    cases same
    have twin : original.txHash = own.txHash := (Geth.hex_injective spelled).trans hash
    exact chain.receipt_inj servedOwn listed twin ▸ inBatch
  · intro ⟨batch, answer, present, all⟩
    refine ⟨_, usableBatch_eq_some.mpr ⟨(rpc_batch_ok preferred).mpr ⟨batch, answer, rfl⟩, ?_, ?_⟩⟩
    · refine List.all_eq_true.mpr fun receipt converted => ?_
      obtain ⟨served, inBatch, rfl⟩ := List.mem_map.mp converted
      obtain ⟨own, listed, rfl⟩ := present served inBatch
      exact equalFold_hex.mpr (chain.own own listed)
    · refine List.all_eq_true.mpr fun tx listed => ?_
      obtain ⟨index, there⟩ := List.mem_iff_getElem?.mp listed
      simp only [List.filterMap_map, Function.comp_def, id, List.filterMap_some,
        transactions_getElem?, Option.map_eq_some_iff] at there
      obtain ⟨original, inBlock, rfl⟩ := there
      obtain ⟨own, beside, hash⟩ := chain.receipt_at inBlock
      have served := all own (List.mem_of_getElem? beside)
      refine decide_eq_true (List.mem_map.mpr ⟨convertGethReceipt keccak256 own, ?_, ?_⟩)
      · exact List.mem_filterMap.mpr ⟨_, List.mem_map_of_mem served, rfl⟩
      · exact congrArg (toLower ∘ Geth.Hash.hex) hash

theorem singles_whole_iff (keccak256 : Keccak) (preferred : client.getPreferredClient = some node)
    (honest : Honest node chain) :
    none ∉ fetchReceiptsIndividually (client.rpc keccak256)
        (convertGethBlock keccak256 chain.block) ↔
      ∀ index tx, chain.block.transactions[index]? = some tx →
        ∃ own ∈ chain.receipts, node.transactionReceipt index tx.hash = .ok own := by
  have answered : ∀ index (hash : Geth.Hash),
      (∃ receipt, fetchReceipt (client.rpc keccak256) chain.block.hash.hex index hash.hex =
        some receipt) ↔ ∃ own ∈ chain.receipts, node.transactionReceipt index hash = .ok own := by
    intro index hash
    constructor
    · intro ⟨receipt, fetched⟩
      obtain ⟨answered, same⟩ := fetchReceipt_eq_some.mp fetched
      obtain ⟨own, answer, converted⟩ := (rpc_single_ok preferred).mp answered
      cases converted
      exact ⟨own, (honest.single answer).2 (equalFold_hex.mp same), answer⟩
    · intro ⟨own, listed, answer⟩
      exact ⟨_, fetchReceipt_eq_some.mpr ⟨(rpc_single_ok preferred).mpr ⟨own, answer, rfl⟩,
        equalFold_hex.mpr (chain.own own listed)⟩⟩
  constructor
  · intro whole index tx there
    refine (answered index tx.hash).mp (Option.ne_none_iff_exists'.mp fun missing => whole ?_)
    have slot := singles_getElem? (client.rpc keccak256) keccak256 chain.block index
    rw [there, Option.map_some, missing] at slot
    exact List.mem_of_getElem? slot
  · intro all missing
    obtain ⟨index, slot⟩ := List.mem_iff_getElem?.mp missing
    rw [singles_getElem?, Option.map_eq_some_iff] at slot
    obtain ⟨tx, there, none⟩ := slot
    obtain ⟨receipt, fetched⟩ := (answered index tx.hash).mpr (all index tx there)
    rw [none] at fetched
    cases fetched

/-- A block is fetched exactly if the node answers with all its receipts in one batch, or
answers each call for a single one with the block's own. -/
theorem fetchBlock_succeeds_iff (preferred : client.getPreferredClient = some node) {height : Int}
    (served : node.blockByNumber height = .ok chain.block) (honest : Honest node chain) :
    (∃ bundle, fetchBlock (some (client.rpc keccak256)) height = .ok bundle) ↔
      (∃ batch, node.blockReceipts chain.block.hash = .ok batch ∧ CompleteBatch chain batch) ∨
        ∀ index tx, chain.block.transactions[index]? = some tx →
          ∃ own ∈ chain.receipts, node.transactionReceipt index tx.hash = .ok own := by
  rw [← usable_iff keccak256 preferred honest, ← singles_whole_iff keccak256 preferred honest]
  constructor
  · intro ⟨bundle, fetched⟩
    obtain ⟨receipts, goes, _⟩ := (fetched_eq preferred served).mp fetched
    rcases goes with usable | ⟨_, rfl, whole⟩
    · exact .inl ⟨receipts, usable⟩
    · exact .inr whole
  · intro answered
    have goes : ∃ receipts, GoesOnWith (client.rpc keccak256)
        (convertGethBlock keccak256 chain.block) receipts := by
      cases usable : usableBatch? (client.rpc keccak256)
          (convertGethBlock keccak256 chain.block) with
      | some receipts => exact ⟨receipts, .inl usable⟩
      | none =>
          rcases answered with ⟨receipts, found⟩ | whole
          · rw [usable] at found
            cases found
          · exact ⟨_, .inr ⟨usable, rfl, whole⟩⟩
    obtain ⟨receipts, goes⟩ := goes
    exact ⟨_, (fetched_eq preferred served).mpr ⟨receipts, goes, rfl⟩⟩

end Pipeline

/-! ### A node without batches -/

def repeatedHash (byte : UInt8) : Geth.Hash := List.Vector.replicate 32 byte

def repeatedAddress (byte : UInt8) : Geth.Address := List.Vector.replicate 20 byte

def plainTransaction (byte : UInt8) (accessList : List Geth.AccessTuple) : Geth.Transaction where
  hash := repeatedHash byte
  type := accessListTxType
  chainId := some 1
  sender _ := none
  recipient := none
  value := 0
  gas := 21000
  gasPrice := 7
  gasFeeCap := 7
  gasTipCap := 7
  data := []
  nonce := 0
  accessList
  v := 0
  r := 0
  s := 0

def plainBlock (number : Nat) (transactions : List Geth.Transaction) : Geth.Block where
  hash := repeatedHash 5
  number
  time := 0
  parentHash := repeatedHash 4
  difficulty := 0
  gasUsed := 0
  gasLimit := 0
  baseFee := none
  nonce := 0
  coinbase := repeatedAddress 0
  size := 0
  root := repeatedHash 0
  uncleHash := repeatedHash 0
  txHash := repeatedHash 0
  receiptHash := repeatedHash 0
  bloom := []
  extra := []
  mixDigest := repeatedHash 0
  uncles := []
  transactions

def plainReceipt (byte : UInt8) (status : UInt64) (logs : List Geth.Log) : Geth.Receipt where
  postState := []
  status
  cumulativeGasUsed := 21000
  logs
  txHash := repeatedHash byte
  gasUsed := 21000
  effectiveGasPrice := some 7
  blockHash := repeatedHash 5

def plainLog (byte : UInt8) : Geth.Log where
  address := repeatedAddress 9
  topics := []
  data := []
  blockNumber := 5
  txHash := repeatedHash byte
  txIndex := 0
  blockHash := repeatedHash 5
  index := 0
  removed := false

/-- The first transaction failed; the second one lists an access twice. -/
def twoReceipts : ChainBlock where
  block := plainBlock 5 [plainTransaction 1 [],
    plainTransaction 2 [⟨repeatedAddress 7, []⟩, ⟨repeatedAddress 7, []⟩]]
  receipts := [plainReceipt 1 0 [], plainReceipt 2 1 [plainLog 2]]
  paired := rfl
  distinct := by decide
  own := by simp [plainReceipt, plainBlock]
  numbered := by decide

def singleReceipts : EthClient where
  blockByNumber _ := .ok twoReceipts.block
  blockReceipts _ := .error "the method eth_getBlockReceipts does not exist"
  transactionReceipt _ hash :=
    match twoReceipts.receipts.find? (·.txHash = hash) with
    | some receipt => .ok receipt
    | none => .error "not found"

theorem singleReceipts_honest : Honest singleReceipts twoReceipts := by
  constructor
  · intro hash receipts receipt answered
    cases answered
  · intro index hash receipt answered
    simp only [singleReceipts] at answered
    split at answered
    · rename_i found
      cases answered
      have asked : receipt.txHash = hash := by simpa using List.find?_some found
      exact ⟨asked, fun _ => List.mem_of_find?_eq_some found⟩
    · cases answered

theorem singleReceipts_answer (index : Nat) (tx : Geth.Transaction)
    (there : twoReceipts.block.transactions[index]? = some tx) :
    ∃ own ∈ twoReceipts.receipts, singleReceipts.transactionReceipt index tx.hash = .ok own := by
  have answers : ∀ tx ∈ twoReceipts.block.transactions,
      (twoReceipts.receipts.find? (·.txHash = tx.hash)).isSome = true := by decide
  obtain ⟨own, found⟩ := Option.isSome_iff_exists.mp (answers tx (List.mem_of_getElem? there))
  refine ⟨own, List.mem_of_find?_eq_some found, ?_⟩
  simp only [singleReceipts, found]

def httpOnly : EthereumClient := { httpClient := some singleReceipts }

theorem fetchBlock_without_batch :
    ∃ bundle, fetchBlock (some (httpOnly.rpc fun _ => [])) 5 = .ok bundle :=
  (fetchBlock_succeeds_iff rfl rfl singleReceipts_honest).mpr (.inr singleReceipts_answer)

theorem httpOnly_fetches :
    ∃ bundle, fetchBlock (some (httpOnly.rpc fun _ => [])) 5 = .ok bundle := by
  have preferred : httpOnly.getPreferredClient = some singleReceipts := rfl
  have whole := (singles_whole_iff (fun _ => []) preferred singleReceipts_honest).mpr
    singleReceipts_answer
  exact ⟨_, (fetched_eq rfl rfl).mpr ⟨_, .inr ⟨rfl, rfl, whole⟩, rfl⟩⟩

theorem documents_without_batch :
    ∃ bundle converted, fetchBlock (some (httpOnly.rpc fun _ => [])) 5 = .ok bundle ∧
      unconfigured.convert bundle = .ok converted ∧
      (documentsOf converted.result.groups .transaction).map (·.lookup statusFieldName) =
        [some (.bool false), some (.bool true)] ∧
      (documentsOf converted.result.groups .accessListEntry).length = 1 := by
  obtain ⟨bundle, fetched⟩ := httpOnly_fetches
  obtain ⟨accepted, exactly⟩ :=
    fetched_documents_exact unconfigured rfl rfl singleReceipts_honest fetched
  obtain ⟨converted, given⟩ := accepted.mpr (by decide)
  obtain ⟨documents, _⟩ := exactly converted given
  refine ⟨bundle, converted, fetched, given, ?_, ?_⟩
  · rw [documents]
    decide +kernel
  · rw [documents]
    decide +kernel

end ShinzoGenerator.Evm
