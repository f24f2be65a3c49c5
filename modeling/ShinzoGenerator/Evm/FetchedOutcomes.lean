import Mathlib.Data.Set.Finite.Basic
import ShinzoGenerator.Evm.Fetcher

/-! When the transactions of a fetched block carry the outcomes of their receipts.
Receipts are accepted with their hashes in any letter case, and single ones whatever
their transaction hash is, but they are merged and converted by the exact hash. -/

set_option autoImplicit false

namespace ShinzoGenerator.Evm

open Chains

/-! ### The receipts by their hashes -/

variable {receipts : List (Option TransactionReceipt)} {hash : String}

theorem buildReceiptMap_eq (receipts : List (Option TransactionReceipt)) :
    buildReceiptMap receipts =
      ((receipts.filterMap id).map fun receipt => (receipt.transactionHash, receipt)).reverse := by
  have folded : ∀ (rest : List TransactionReceipt) (byHash : List (String × TransactionReceipt)),
      rest.foldl (fun byHash receipt => (receipt.transactionHash, receipt) :: byHash) byHash =
        (rest.map fun receipt => (receipt.transactionHash, receipt)).reverse ++ byHash := by
    intro rest
    induction rest with
    | nil => exact fun _ => rfl
    | cons receipt rest ih =>
        intro byHash
        rw [List.foldl_cons, ih]
        simp
  unfold buildReceiptMap
  rw [folded, List.append_nil]

theorem mem_buildReceiptMap {receipt : TransactionReceipt} :
    (hash, receipt) ∈ buildReceiptMap receipts ↔
      some receipt ∈ receipts ∧ receipt.transactionHash = hash := by
  rw [buildReceiptMap_eq]
  simp only [List.mem_reverse, List.mem_map, List.mem_filterMap, id, exists_eq_right, Prod.mk.injEq]
  constructor
  · rintro ⟨_, listed, named, rfl⟩
    exact ⟨listed, named⟩
  · rintro ⟨listed, named⟩
    exact ⟨receipt, listed, named, rfl⟩

theorem lookup_receipt {receipt : TransactionReceipt}
    (found : (buildReceiptMap receipts).lookup hash = some receipt) :
    some receipt ∈ receipts ∧ receipt.transactionHash = hash := by
  obtain ⟨before, after, split, _⟩ := List.lookup_eq_some_iff.mp found
  exact mem_buildReceiptMap.mp (split ▸ List.mem_append_right _ List.mem_cons_self)

theorem lookup_receipt_isSome {receipt : TransactionReceipt} (listed : some receipt ∈ receipts)
    (named : receipt.transactionHash = hash) :
    ∃ found, (buildReceiptMap receipts).lookup hash = some found := by
  rw [← Option.isSome_iff_exists, Option.isSome_iff_ne_none]
  intro missing
  have absent := List.lookup_eq_none_iff.mp missing _ (mem_buildReceiptMap.mpr ⟨listed, named⟩)
  simp at absent

/-! ### What a fetch goes on with -/

variable {client : RpcClient} {block : Block} {height : Int}

/-- The receipts that are merged: the batch, or all of the single ones. -/
def GoesOnWith (client : RpcClient) (block : Block)
    (receipts : List (Option TransactionReceipt)) : Prop :=
  usableBatch? client block = some receipts ∨
    usableBatch? client block = none ∧ fetchReceiptsIndividually client block = receipts ∧
      none ∉ receipts

def fetchedBundle (block : Block) (receipts : List (Option TransactionReceipt)) : BlockBundle :=
  let merged := block.transactions.map (mergeReceipt (buildReceiptMap receipts))
  { block := some { block with transactions := merged }
    transactions := merged.map some
    receipts }

theorem mergeReceipts_fetched (block : Block) (receipts : List (Option TransactionReceipt)) :
    mergeReceiptsOntoTransactions (block.transactions.map some) receipts =
      (fetchedBundle block receipts).transactions := by
  simp [mergeReceiptsOntoTransactions, fetchedBundle]

theorem failed_iff (receipts : List (Option TransactionReceipt)) :
    0 < receipts.countP (·.isNone) ↔ none ∈ receipts := by
  rw [List.countP_pos_iff]
  constructor
  · rintro ⟨receipt, member, missing⟩
    rwa [Option.isNone_iff_eq_none.mp missing] at member
  · exact fun member => ⟨none, member, rfl⟩

theorem fetch_of_goesOnWith (goes : GoesOnWith client block receipts) :
    fetchTransactionsAndReceipts client block height =
      .ok ((fetchedBundle block receipts).transactions, receipts) := by
  unfold fetchTransactionsAndReceipts
  rcases goes with usable | ⟨unusable, rfl, whole⟩
  · simp only [usable, mergeReceipts_fetched]
  · simp only [unusable, mergeReceipts_fetched, failed_iff, whole, if_false]

theorem goesOnWith_of_fetch {transactions : List (Option Transaction)}
    (fetched : fetchTransactionsAndReceipts client block height = .ok (transactions, receipts)) :
    GoesOnWith client block receipts ∧
      transactions = (fetchedBundle block receipts).transactions := by
  unfold fetchTransactionsAndReceipts at fetched
  cases usable : usableBatch? client block with
  | some batch =>
      simp only [usable, mergeReceipts_fetched] at fetched
      cases fetched
      exact ⟨.inl usable, rfl⟩
  | none =>
      simp only [usable, mergeReceipts_fetched, failed_iff] at fetched
      split at fetched
      · cases fetched
      · rename_i whole
        cases fetched
        exact ⟨.inr ⟨usable, rfl, whole⟩, rfl⟩

theorem fetchBlock_ok {bundle : BlockBundle} :
    fetchBlock (some client) height = .ok bundle ↔
      ∃ block receipts, client.getBlockByNumber height = .ok block ∧
        GoesOnWith client block receipts ∧ bundle = fetchedBundle block receipts := by
  have aliased : ∀ block receipts,
      (fetchedBundle block receipts).transactions.filterMap id =
        block.transactions.map (mergeReceipt (buildReceiptMap receipts)) := by
    intro block receipts
    simp [fetchedBundle]
  unfold fetchBlock
  constructor
  · intro fetched
    cases served : client.getBlockByNumber height with
    | error text => simp [served] at fetched
    | ok block =>
        simp only [served] at fetched
        cases inner : fetchTransactionsAndReceipts client block height with
        | error text => simp [inner] at fetched
        | ok outcome =>
            obtain ⟨transactions, receipts⟩ := outcome
            obtain ⟨goes, rfl⟩ := goesOnWith_of_fetch inner
            simp only [inner, Except.ok.injEq, aliased] at fetched
            exact ⟨block, receipts, rfl, goes, fetched.symm⟩
  · rintro ⟨block, receipts, served, goes, rfl⟩
    simp only [served, fetch_of_goesOnWith goes, aliased]
    rfl

theorem usableBatch_eq_some {batch : List (Option TransactionReceipt)} :
    usableBatch? client block = some batch ↔ client.getBlockReceipts block.hash = .ok batch ∧
      receiptHashesMatch batch block.hash = true ∧
      batchCoversTransactions (block.transactions.map some) batch = true := by
  unfold usableBatch?
  cases client.getBlockReceipts block.hash with
  | error text => simp
  | ok answer =>
      simp only [Bool.and_eq_true, Option.ite_none_right_eq_some, Option.some.injEq,
        Except.ok.injEq]
      constructor
      · rintro ⟨checks, rfl⟩
        exact ⟨rfl, checks⟩
      · rintro ⟨rfl, checks⟩
        exact ⟨checks, rfl⟩

/-- A single receipt that is accepted. -/
theorem fetchReceipt_eq_some {blockHash txHash : String} {index : Nat}
    {receipt : TransactionReceipt} :
    fetchReceipt client blockHash index txHash = some receipt ↔
      client.getTransactionReceipt index txHash = .ok (some receipt) ∧
        equalFold receipt.blockHash blockHash = true := by
  unfold fetchReceipt
  split
  · simp_all
  · simp_all
  · rename_i other answer
    simp only [answer, Option.ite_none_right_eq_some, Option.some.injEq, Except.ok.injEq]
    constructor
    · rintro ⟨matched, rfl⟩
      exact ⟨rfl, matched⟩
    · rintro ⟨rfl, matched⟩
      exact ⟨matched, rfl⟩

theorem mem_fetchReceiptsIndividually {receipt : TransactionReceipt}
    (member : some receipt ∈ fetchReceiptsIndividually client block) :
    ∃ index tx, block.transactions[index]? = some tx ∧
      client.getTransactionReceipt index tx.hash = .ok (some receipt) ∧
      equalFold receipt.blockHash block.hash = true := by
  obtain ⟨index, there⟩ := List.mem_iff_getElem?.mp member
  unfold fetchReceiptsIndividually at there
  rw [List.getElem?_mapIdx, Option.map_eq_some_iff] at there
  obtain ⟨tx, listed, fetched⟩ := there
  exact ⟨index, tx, listed, fetchReceipt_eq_some.mp fetched⟩

theorem GoesOnWith.blockHash (goes : GoesOnWith client block receipts)
    {receipt : TransactionReceipt} (member : some receipt ∈ receipts) :
    equalFold receipt.blockHash block.hash = true := by
  rcases goes with usable | ⟨_, rfl, _⟩
  · have matched := (usableBatch_eq_some.mp usable).2.1
    exact List.all_eq_true.mp matched _ member
  · obtain ⟨_, _, _, _, matched⟩ := mem_fetchReceiptsIndividually member
    exact matched

/-! ### What the client serves -/

/-- The single receipt in an answer, whatever it says. -/
def answered? (client : RpcClient) (index : Nat) (txHash : String) : Option TransactionReceipt :=
  match client.getTransactionReceipt index txHash with
  | .ok (some receipt) => some receipt
  | _ => none

/-- All receipts that the client serves for the block: the batch, and the single ones if
they are asked for. -/
def servedReceipts (client : RpcClient) (block : Block) : List TransactionReceipt :=
  (match client.getBlockReceipts block.hash with
    | .error _ => []
    | .ok batch => batch.filterMap id) ++
  (if (usableBatch? client block).isSome then []
    else (block.transactions.mapIdx fun index tx => answered? client index tx.hash).filterMap id)

theorem GoesOnWith.served (goes : GoesOnWith client block receipts)
    {receipt : TransactionReceipt} (member : some receipt ∈ receipts) :
    receipt ∈ servedReceipts client block := by
  unfold servedReceipts
  rcases goes with usable | ⟨unusable, rfl, _⟩
  · rw [(usableBatch_eq_some.mp usable).1]
    exact List.mem_append_left _ (List.mem_filterMap.mpr ⟨_, member, rfl⟩)
  · obtain ⟨index, tx, listed, answer, _⟩ := mem_fetchReceiptsIndividually member
    rw [unusable]
    refine List.mem_append_right _ (List.mem_filterMap.mpr ⟨some receipt, ?_, rfl⟩)
    refine List.mem_iff_getElem?.mpr ⟨index, ?_⟩
    rw [List.getElem?_mapIdx, listed]
    simp [answered?, answer]

/-- Two blocks that differ at most in what their transactions hold besides the hashes. -/
structure SameHashes (left right : Block) : Prop where
  block : left.hash = right.hash
  transactions : left.transactions.map (·.hash) = right.transactions.map (·.hash)

theorem mapIdx_hash {α : Type} (answer : Nat → String → α) (txs : List Transaction) :
    (txs.mapIdx fun index tx => answer index tx.hash) =
      (txs.map (·.hash)).mapIdx answer := by
  apply List.ext_getElem?
  intro index
  simp [Function.comp_def]

theorem SameHashes.usableBatch {left right : Block} (same : SameHashes left right) :
    usableBatch? client left = usableBatch? client right := by
  have covers : ∀ batch, batchCoversTransactions (left.transactions.map some) batch =
      batchCoversTransactions (right.transactions.map some) batch := by
    intro batch
    have hashes : ∀ txs : List Transaction, batchCoversTransactions (txs.map some) batch =
        (txs.map (·.hash)).all fun hash => toLower hash ∈
          (batch.filterMap id).map fun receipt => toLower receipt.transactionHash := by
      intro txs
      simp [batchCoversTransactions, List.all_map, Function.comp_def]
    rw [hashes, hashes, same.transactions]
  unfold usableBatch?
  rw [same.block]
  simp only [covers]

theorem SameHashes.goesOnWith {left right : Block} (same : SameHashes left right) :
    GoesOnWith client left receipts ↔ GoesOnWith client right receipts := by
  have individually : fetchReceiptsIndividually client left =
      fetchReceiptsIndividually client right := by
    unfold fetchReceiptsIndividually
    rw [mapIdx_hash, mapIdx_hash, same.transactions, same.block]
  unfold GoesOnWith
  rw [same.usableBatch, individually]

theorem SameHashes.servedReceipts {left right : Block} (same : SameHashes left right) :
    servedReceipts client left = servedReceipts client right := by
  unfold Evm.servedReceipts
  rw [same.usableBatch, same.block, mapIdx_hash, mapIdx_hash, same.transactions]

/-! ### What the transactions should carry -/

/-- However the bundle is converted, the log gets its document. -/
def EmitsLog (bundle : BlockBundle) (log : Log) : Prop :=
  ∀ (converter : Converter) (converted : Converted), converter.convert bundle = .ok converted →
    ∃ group ∈ converted.result.groups, group.collection = .log ∧ buildLogData log ∈ group.docs

/-- Each transaction of a fetched block carries the outcome of a receipt that was served
for it and for the block, and the logs of that receipt become documents. -/
def CarriesServed (client : RpcClient) (height : Int) : Prop :=
  ∀ bundle, fetchBlock (some client) height = .ok bundle →
    ∃ block, bundle.block = some block ∧ ∀ tx, some tx ∈ bundle.transactions →
      ∃ receipt ∈ servedReceipts client block,
        equalFold receipt.transactionHash tx.hash = true ∧
        equalFold receipt.blockHash block.hash = true ∧
        tx.outcome = receipt.outcome ∧ ∀ log ∈ receipt.logs, EmitsLog bundle log

/-- The block with other conversion defaults in its transactions. -/
def Block.withDefaults (block : Block) (defaults : Transaction → Outcome) : Block :=
  { block with transactions := block.transactions.map fun tx => tx.withOutcome (defaults tx) }

def RpcClient.withDefaults (client : RpcClient) (defaults : Transaction → Outcome) : RpcClient :=
  { client with
    getBlockByNumber := fun height =>
      (client.getBlockByNumber height).map (·.withDefaults defaults) }

/-! ### The condition -/

def NamedExactly (block : Block) (receipts : List (Option TransactionReceipt)) : Prop :=
  ∀ tx ∈ block.transactions, ∃ receipt, some receipt ∈ receipts ∧ receipt.transactionHash = tx.hash

/-- The batch passes both checks. -/
def Acceptable (block : Block) (batch : List (Option TransactionReceipt)) : Prop :=
  receiptHashesMatch batch block.hash = true ∧
    batchCoversTransactions (block.transactions.map some) batch = true

/-- Every call for a single receipt is answered with a receipt of the block. -/
def AnswersOneByOne (client : RpcClient) (block : Block) (answers : List TransactionReceipt) :
    Prop :=
  answers.length = block.transactions.length ∧
    ∀ index tx receipt, block.transactions[index]? = some tx → answers[index]? = some receipt →
      client.getTransactionReceipt index tx.hash = .ok (some receipt) ∧
        equalFold receipt.blockHash block.hash = true

/-- Among the receipts that get past the checks, each transaction has one that spells its
hash exactly as the block does. -/
def ExactReceipts (client : RpcClient) (height : Int) : Prop :=
  ∀ block, client.getBlockByNumber height = .ok block →
    (∀ batch, client.getBlockReceipts block.hash = .ok batch → Acceptable block batch →
      NamedExactly block batch) ∧
    ((∀ batch, client.getBlockReceipts block.hash = .ok batch → ¬ Acceptable block batch) →
      ∀ answers, AnswersOneByOne client block answers →
        NamedExactly block (answers.map some))

theorem answersOneByOne_iff {answers : List TransactionReceipt} :
    AnswersOneByOne client block answers ↔
      fetchReceiptsIndividually client block = answers.map some := by
  unfold AnswersOneByOne fetchReceiptsIndividually
  constructor
  · rintro ⟨parallel, answer⟩
    apply List.ext_getElem
    · simp [parallel]
    · intro index bound alsoBound
      simp only [List.length_mapIdx, List.length_map] at bound alsoBound
      rw [List.getElem_mapIdx, List.getElem_map]
      exact fetchReceipt_eq_some.mpr (answer index _ _ (List.getElem?_eq_getElem bound)
        (List.getElem?_eq_getElem alsoBound))
  · intro whole
    refine ⟨?_, fun index tx receipt listed there => ?_⟩
    · simpa using (congrArg List.length whole).symm
    · have here := congrArg (·[index]?) whole
      simp only [List.getElem?_mapIdx, List.getElem?_map, listed, there, Option.map_some,
        Option.some.injEq] at here
      exact fetchReceipt_eq_some.mp here

theorem map_some_filterMap (present : none ∉ receipts) :
    (receipts.filterMap id).map some = receipts := by
  induction receipts with
  | nil => rfl
  | cons receipt receipts ih =>
      rw [List.mem_cons, not_or] at present
      cases receipt with
      | none => exact absurd rfl present.1
      | some receipt => exact congrArg (some receipt :: ·) (ih present.2)

theorem exactReceipts_iff :
    ExactReceipts client height ↔ ∀ block receipts, client.getBlockByNumber height = .ok block →
      GoesOnWith client block receipts → NamedExactly block receipts := by
  have rejected : ∀ block, usableBatch? client block = none ↔
      ∀ batch, client.getBlockReceipts block.hash = .ok batch → ¬ Acceptable block batch := by
    intro block
    rw [Option.eq_none_iff_forall_ne_some]
    exact forall_congr' fun batch => by
      rw [Ne, usableBatch_eq_some, not_and]
      rfl
  constructor
  · intro exactly block receipts served goes
    rcases goes with usable | ⟨unusable, individually, whole⟩
    · obtain ⟨batched, acceptable⟩ := usableBatch_eq_some.mp usable
      exact (exactly block served).1 receipts batched acceptable
    · rw [← map_some_filterMap whole] at individually ⊢
      exact (exactly block served).2 ((rejected block).mp unusable) _
        (answersOneByOne_iff.mpr individually)
  · intro named block served
    constructor
    · intro batch batched acceptable
      exact named block batch served (.inl (usableBatch_eq_some.mpr ⟨batched, acceptable⟩))
    · intro refused answers answer
      exact named block _ served
        (.inr ⟨(rejected block).mpr refused, answersOneByOne_iff.mp answer, by simp⟩)

/-! ### When they carry it -/

theorem hash_mergeReceipt (byHash : List (String × TransactionReceipt)) (tx : Transaction) :
    (mergeReceipt byHash tx).hash = tx.hash := by
  unfold mergeReceipt
  split <;> rfl

theorem sameHashes_fetched (block : Block) (receipts : List (Option TransactionReceipt)) :
    SameHashes
      { block with transactions :=
          block.transactions.map (mergeReceipt (buildReceiptMap receipts)) } block :=
  ⟨rfl, by simp [hash_mergeReceipt, Function.comp_def]⟩

theorem sameHashes_withDefaults (block : Block) (defaults : Transaction → Outcome) :
    SameHashes (block.withDefaults defaults) block :=
  ⟨rfl, by simp [Block.withDefaults, Transaction.withOutcome, Function.comp_def]⟩

theorem mem_unlessEmpty {group : DocumentGroup} (some : group.docs ≠ []) :
    group ∈ unlessEmpty group := by
  unfold unlessEmpty
  rw [if_neg some]
  exact List.mem_singleton_self group

theorem emitsLog {bundle : BlockBundle} {tx : Transaction} {receipt : TransactionReceipt}
    (listed : some tx ∈ bundle.transactions)
    (found : (buildReceiptMap bundle.receipts).lookup tx.hash = some receipt) :
    ∀ log ∈ receipt.logs, EmitsLog bundle log := by
  intro log logged converter converted accepted
  obtain ⟨block, blockInt, _, _, grouped, _⟩ := convert_ok accepted
  have emitted : buildLogData log ∈
      buildLogDocs bundle.transactions (buildReceiptMap bundle.receipts) := by
    refine List.mem_flatMap.mpr ⟨tx, List.mem_filterMap.mpr ⟨_, listed, rfl⟩, ?_⟩
    rw [found]
    exact List.mem_map_of_mem logged
  rw [grouped]
  refine ⟨_, List.mem_cons_of_mem _ (List.mem_append_right _ (List.mem_append_left _
    (mem_unlessEmpty ?_))), ?_, ?_⟩
  · exact List.ne_nil_of_mem emitted
  · exact rfl
  · exact emitted

theorem ExactReceipts.carriesServed (exactly : ExactReceipts client height) :
    CarriesServed client height := by
  intro bundle fetched
  obtain ⟨block, receipts, served, goes, rfl⟩ := fetchBlock_ok.mp fetched
  refine ⟨_, rfl, fun tx listed => ?_⟩
  obtain ⟨original, inBlock, rfl⟩ : ∃ original ∈ block.transactions,
      mergeReceipt (buildReceiptMap receipts) original = tx := by
    simpa [fetchedBundle] using listed
  obtain ⟨_, present, named⟩ := exactReceipts_iff.mp exactly block receipts served goes
    original inBlock
  obtain ⟨receipt, found⟩ := lookup_receipt_isSome present named
  obtain ⟨accepted, spelled⟩ := lookup_receipt found
  rw [(sameHashes_fetched block receipts).servedReceipts, hash_mergeReceipt]
  refine ⟨receipt, goes.served accepted, ?_, goes.blockHash accepted, ?_, ?_⟩
  · simp [equalFold, spelled]
  · simp only [mergeReceipt, found]
    rfl
  · refine emitsLog listed ?_
    rw [hash_mergeReceipt]
    exact found

theorem exists_fresh_gasUsed (served : List TransactionReceipt) :
    ∃ gasUsed, ∀ receipt ∈ served, receipt.gasUsed ≠ gasUsed := by
  have injective : Function.Injective fun count => String.ofList (List.replicate count '0') := by
    intro left right same
    simpa using congrArg String.length same
  obtain ⟨count, unused⟩ := ((List.finite_toSet (served.map (·.gasUsed))).preimage
    injective.injOn).exists_notMem
  refine ⟨String.ofList (List.replicate count '0'), fun receipt member same => unused ?_⟩
  exact List.mem_map.mpr ⟨receipt, member, same⟩

theorem exactReceipts_of_carriesServed
    (carries : ∀ defaults, CarriesServed (client.withDefaults defaults) height) :
    ExactReceipts client height := by
  refine exactReceipts_iff.mpr fun block receipts served goes tx inBlock => ?_
  by_contra unnamed
  -- conversion defaults that no served receipt has give the transaction away
  obtain ⟨gasUsed, fresh⟩ := exists_fresh_gasUsed (servedReceipts client block)
  let defaults : Transaction → Outcome := fun _ => ⟨true, gasUsed, "", ""⟩
  have same := sameHashes_withDefaults block defaults
  have goesOn : GoesOnWith (client.withDefaults defaults) (block.withDefaults defaults) receipts :=
    same.goesOnWith.mpr goes
  have fetched : fetchBlock (some (client.withDefaults defaults)) height =
      .ok (fetchedBundle (block.withDefaults defaults) receipts) := by
    refine fetchBlock_ok.mpr ⟨_, receipts, ?_, goesOn, rfl⟩
    simp only [RpcClient.withDefaults, served]
    rfl
  have unmerged : mergeReceipt (buildReceiptMap receipts) (tx.withOutcome (defaults tx)) =
      tx.withOutcome (defaults tx) := by
    unfold mergeReceipt
    cases found : (buildReceiptMap receipts).lookup (tx.withOutcome (defaults tx)).hash with
    | none => rfl
    | some receipt => exact absurd ⟨receipt, lookup_receipt found⟩ unnamed
  obtain ⟨_, given, all⟩ := carries defaults _ fetched
  cases given
  have listed : some (tx.withOutcome (defaults tx)) ∈
      (fetchedBundle (block.withDefaults defaults) receipts).transactions := by
    refine List.mem_map.mpr ⟨_, List.mem_map.mpr ⟨_, ?_, unmerged⟩, rfl⟩
    exact List.mem_map.mpr ⟨tx, inBlock, rfl⟩
  obtain ⟨receipt, given, _, _, kept, _⟩ := all _ listed
  rw [(sameHashes_fetched _ receipts).servedReceipts, same.servedReceipts] at given
  exact fresh receipt given (congrArg Outcome.gasUsed kept).symm

/-- Exactly the receipts that spell the hashes as the block does bring their outcomes to
the transactions, whatever the conversion defaults are. -/
theorem carriesServed_iff_exactReceipts (client : RpcClient) (height : Int) :
    (ExactReceipts client height → CarriesServed client height) ∧
      ((∀ defaults, CarriesServed (client.withDefaults defaults) height) ↔
        ExactReceipts client height) := by
  refine ⟨fun exactly => exactly.carriesServed, exactReceipts_of_carriesServed,
    fun exactly defaults => ExactReceipts.carriesServed ?_⟩
  refine exactReceipts_iff.mpr fun block receipts served goes tx inBlock => ?_
  cases original : client.getBlockByNumber height with
  | error text => simp [RpcClient.withDefaults, original, Except.map] at served
  | ok first =>
      have changed : first.withDefaults defaults = block := by
        simpa [RpcClient.withDefaults, original, Except.map] using served
      subst changed
      have goesOn : GoesOnWith client first receipts :=
        (sameHashes_withDefaults first defaults).goesOnWith.mp goes
      obtain ⟨before, inFirst, rfl⟩ := List.mem_map.mp inBlock
      exact exactReceipts_iff.mp exactly first receipts original goesOn before inFirst

/-! ### A receipt of another transaction -/

def failedReceipt : TransactionReceipt where
  transactionHash := "0xbb"
  blockHash := "0xb5"
  cumulativeGasUsed := "42000"
  gasUsed := "21000"
  effectiveGasPrice := "7"
  logs := []
  status := "0"

def twoTransactions : Block where
  hash := "0xb5"
  number := "5"
  transactions := [{ hash := "0xaa", status := true }, { hash := "0xbb", status := true }]

/-- The batch call is not supported, and the node answers both calls for single receipts
with the same one. -/
def mixedUpClient : RpcClient where
  getBlockByNumber _ := .ok twoTransactions
  getBlockReceipts _ := .error "the method eth_getBlockReceipts does not exist"
  getTransactionReceipt _ _ := .ok (some failedReceipt)

/-- The first transaction is reported as successful, with no receipt for it. -/
theorem mixedUp_keeps_default : ¬ CarriesServed mixedUpClient 5 := by
  intro carries
  have goes : GoesOnWith mixedUpClient twoTransactions [some failedReceipt, some failedReceipt] :=
    .inr ⟨rfl, by decide +kernel, by decide⟩
  obtain ⟨block, given, all⟩ := carries _ (fetchBlock_ok.mpr ⟨_, _, rfl, goes, rfl⟩)
  cases given
  obtain ⟨receipt, served, named, _⟩ := all { hash := "0xaa", status := true } (.head _)
  have others : ∀ receipt ∈ [failedReceipt, failedReceipt],
      equalFold receipt.transactionHash "0xaa" = false := by
    decide +kernel
  rw [others receipt served] at named
  cases named

-- The same happens when a batch spells the hash in other letter case.
example :
    let txs : List (Option Transaction) := [some { hash := "0xbb", status := true }]
    let batch := [some { failedReceipt with transactionHash := "0xBB" }]
    batchCoversTransactions txs batch = true ∧ mergeReceiptsOntoTransactions txs batch = txs := by
  decide +kernel

end ShinzoGenerator.Evm
