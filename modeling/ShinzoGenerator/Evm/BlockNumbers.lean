import ShinzoGenerator.Lib.Numerals
import ShinzoGenerator.Evm.AccessLists
import ShinzoGenerator.Evm.FetchedOutcomes

/-! The block number in the documents of one block. The block and its logs read it in the
base it announces, its transactions in base 10. -/

set_option autoImplicit false

namespace ShinzoGenerator.Evm

open Chains Defra Strconv

/-- Every document has the number where its group names it, and where queries by height
look for it. -/
def Carry (groups : List DocumentGroup) (number : Int) : Prop :=
  ∀ group ∈ groups, ∀ doc ∈ group.docs,
    doc.lookup group.blockNumField = some (.int64 number) ∧
      (⟨group.collection, doc⟩ : Doc).height? = some number

/-- The transactions and the logs name the block by the text it has itself. -/
structure NumbersMatch (bundle : BlockBundle) (block : Block) : Prop where
  transactions : ∀ tx, some tx ∈ bundle.transactions → tx.blockNumber = block.number
  logs : ∀ receipt, some receipt ∈ bundle.receipts → ∀ log ∈ receipt.logs,
    log.blockNumber = block.number

/-! ### The documents of the groups -/

/-- What the documents of a group are built from. -/
inductive Built (bundle : BlockBundle) (block : Block) (blockInt : Int) :
    DocumentGroup → Fields → Prop where
  | block {group : DocumentGroup} (kind : group.collection = .block)
      (field : group.blockNumField = numberFieldName) :
      Built bundle block blockInt group (buildBlockData block blockInt)
  | transaction {group : DocumentGroup} {tx : Transaction} (kind : group.collection = .transaction)
      (field : group.blockNumField = blockNumberFieldName)
      (listed : some tx ∈ bundle.transactions) :
      Built bundle block blockInt group (buildTransactionData tx)
  | log {group : DocumentGroup} {receipt : TransactionReceipt} {log : Log}
      (kind : group.collection = .log) (field : group.blockNumField = blockNumberFieldName)
      (listed : some receipt ∈ bundle.receipts) (held : log ∈ receipt.logs) :
      Built bundle block blockInt group (buildLogData log)
  | accessListEntry {group : DocumentGroup} {ale : AccessListEntry}
      (kind : group.collection = .accessListEntry)
      (field : group.blockNumField = blockNumberFieldName) :
      Built bundle block blockInt group (buildALEData ale blockInt)

section Groups

variable {converter : Converter} {bundle : BlockBundle} {block : Block} {blockInt : Int}

theorem mem_unlessEmpty_iff {group wanted : DocumentGroup} :
    group ∈ unlessEmpty wanted ↔ wanted.docs ≠ [] ∧ group = wanted := by
  unfold unlessEmpty
  split <;> simp_all

theorem mem_buildTransactionDocs {doc : Fields} :
    doc ∈ buildTransactionDocs bundle ↔
      ∃ tx, some tx ∈ bundle.transactions ∧ buildTransactionData tx = doc := by
  simp [buildTransactionDocs]

theorem built_of_mem_logDocs {doc : Fields}
    (listed : doc ∈ buildLogDocs bundle.transactions (buildReceiptMap bundle.receipts)) :
    ∃ receipt log, some receipt ∈ bundle.receipts ∧ log ∈ receipt.logs ∧ buildLogData log = doc := by
  obtain ⟨tx, _, inside⟩ := List.mem_flatMap.mp listed
  split at inside
  · cases inside
  · rename_i receipt found
    obtain ⟨log, held, built⟩ := List.mem_map.mp inside
    exact ⟨receipt, log, (lookup_receipt found).1, held, built⟩

theorem built_of_mem {group : DocumentGroup} {doc : Fields}
    (grouped : group ∈ converter.groups bundle block blockInt) (listed : doc ∈ group.docs) :
    Built bundle block blockInt group doc := by
  unfold Converter.groups at grouped
  simp only [List.mem_cons, List.mem_append, mem_unlessEmpty_iff] at grouped
  rcases grouped with rfl | ⟨_, rfl⟩ | ⟨_, rfl⟩ | ⟨_, rfl⟩
  · rw [List.mem_singleton.mp listed]
    exact .block rfl rfl
  · obtain ⟨tx, given, rfl⟩ := mem_buildTransactionDocs.mp listed
    exact .transaction rfl rfl given
  · obtain ⟨receipt, log, given, held, rfl⟩ := built_of_mem_logDocs listed
    exact .log rfl rfl given held
  · dsimp only at listed
    rw [buildALEDocs_eq] at listed
    obtain ⟨entry, _, rfl⟩ := List.mem_map.mp listed
    exact .accessListEntry rfl rfl

/-- The group of the transactions holds each of them. -/
theorem transaction_grouped (converter : Converter) (block : Block) (blockInt : Int)
    {tx : Transaction} (listed : some tx ∈ bundle.transactions) :
    ∃ group ∈ converter.groups bundle block blockInt,
      group.blockNumField = blockNumberFieldName ∧ buildTransactionData tx ∈ group.docs := by
  have held := mem_buildTransactionDocs.mpr ⟨tx, listed, rfl⟩
  exact ⟨_, List.mem_cons_of_mem _ (List.mem_append_left _
    (mem_unlessEmpty_iff.mpr ⟨List.ne_nil_of_mem held, rfl⟩)), rfl, held⟩

/-- A number in the field of the group is found by height. -/
theorem carries_of_lookup {group : DocumentGroup} {doc : Fields} {number : Int}
    (field : group.blockNumField = group.collection.heightField)
    (found : doc.lookup group.collection.heightField = some (.int64 number)) :
    doc.lookup group.blockNumField = some (.int64 number) ∧
      (⟨group.collection, doc⟩ : Doc).height? = some number := by
  rw [field, Doc.height?, found]
  exact ⟨rfl, rfl⟩

/-- The groups carry one number if the transactions read that of the block. -/
theorem carry_iff (parsed : hexToInt block.number = .ok blockInt)
    (named : NumbersMatch bundle block) :
    (∃ number, Carry (converter.groups bundle block blockInt) number) ↔
      ∀ tx, some tx ∈ bundle.transactions → (parseInt tx.blockNumber 10).1 = blockInt := by
  constructor
  · rintro ⟨number, carried⟩ tx listed
    have own : (buildBlockData block blockInt).lookup numberFieldName = some (.int64 number) :=
      (carried _ List.mem_cons_self _ (List.mem_singleton_self _)).1
    obtain ⟨group, grouped, field, held⟩ := transaction_grouped converter block blockInt listed
    have read : (buildTransactionData tx).lookup blockNumberFieldName = some (.int64 number) :=
      field ▸ (carried group grouped _ held).1
    cases own
    exact Value.int64.inj (Option.some.inj read)
  · intro alike
    refine ⟨blockInt, fun group grouped doc listed => ?_⟩
    cases built_of_mem grouped listed with
    | block kind field =>
      apply carries_of_lookup
      · rw [kind, field, Collection.heightField]
      · rw [kind]
        rfl
    | transaction kind field given =>
      apply carries_of_lookup
      · rw [kind, field, Collection.heightField]
        exact Collection.noConfusion
      · rw [kind, ← alike _ given]
        rfl
    | log kind field given held =>
      rename_i receipt log
      have text := named.logs receipt given log held
      apply carries_of_lookup
      · rw [kind, field, Collection.heightField]
        exact Collection.noConfusion
      · have read : (hexToInt log.blockNumber).toOption.getD 0 = blockInt := by
          rw [text, parsed]
          rfl
        rw [kind, ← read]
        rfl
    | accessListEntry kind field =>
      apply carries_of_lookup
      · rw [kind, field, Collection.heightField]
        exact Collection.noConfusion
      · rw [kind]
        rfl

end Groups

theorem hexToInt_ok {text : String} {value : Int} (parsed : hexToInt text = .ok value) :
    parseInt text 0 = (value, none) := by
  unfold hexToInt at parsed
  split at parsed
  · cases parsed
  · split at parsed
    · rename_i read
      cases parsed
      exact read
    · cases parsed

/-- An accepted block carries one number exactly if it has no transactions, or base 10
reads its numeral as the base it announces does. -/
theorem convert_carries_iff {converter : Converter} {bundle : BlockBundle} {block : Block}
    {converted : Converted} (accepted : converter.convert bundle = .ok converted)
    (given : bundle.block = some block) (named : NumbersMatch bundle block) :
    (∃ number, Carry converted.result.groups number) ↔
      (∀ tx, some tx ∉ bundle.transactions) ∨
        ReadsAlike (isNegative block.number) (unsigned block.number) := by
  obtain ⟨found, blockInt, held, parsed, grouped, _, _⟩ := convert_ok accepted
  rw [given] at held
  cases held
  rw [grouped, carry_iff parsed named, ← parseInt_ten_eq_iff (hexToInt_ok parsed)]
  constructor
  · intro alike
    by_cases empty : ∀ tx, some tx ∉ bundle.transactions
    · exact .inl empty
    · obtain ⟨tx, listed⟩ := not_forall_not.mp empty
      exact .inr (named.transactions tx listed ▸ alike tx listed)
  · intro alike tx listed
    cases alike with
    | inl empty => exact absurd listed (empty tx)
    | inr same => rw [named.transactions tx listed, same]

def numberedBundle (number : String) : BlockBundle where
  block := some { hash := "0xb5", number }
  transactions := [some { hash := "0xaa", blockNumber := number }]
  receipts :=
    [some
      { transactionHash := "0xaa"
        blockHash := "0xb5"
        cumulativeGasUsed := "21000"
        gasUsed := "21000"
        effectiveGasPrice := "7"
        status := "1"
        logs := [⟨"0x01", [], "0x", number, "0xaa", 0, "0xb5", 0, false⟩] }]

theorem numberedBundle_match (number : String) :
    NumbersMatch (numberedBundle number) { hash := "0xb5", number } := by
  constructor
  · intro tx listed
    simp only [numberedBundle, List.mem_singleton, Option.some.injEq] at listed
    rw [listed]
  · intro receipt listed log held
    simp only [numberedBundle, List.mem_singleton, Option.some.injEq] at listed
    rw [listed, List.mem_singleton] at held
    rw [held]

theorem decimal_carried :
    ∃ converted, unconfigured.convert (numberedBundle "21000000") = .ok converted ∧
      ∃ number, Carry converted.result.groups number := by
  refine ⟨_, rfl, ?_⟩
  refine (convert_carries_iff rfl rfl (numberedBundle_match "21000000")).mpr ?_
  exact .inr (.plain (by decide) (by decide))

/-- The transaction of a block with a hexadecimal number is stored at height 0. -/
theorem hexadecimal_not_carried :
    ∃ converted, unconfigured.convert (numberedBundle "0x5") = .ok converted ∧
      converted.result.groups.map (fun group => group.docs.map (·.lookup group.blockNumField)) =
        [[some (.int64 5)], [some (.int64 0)], [some (.int64 5)]] ∧
      ¬ ∃ number, Carry converted.result.groups number := by
  refine ⟨_, rfl, by decide +kernel, ?_⟩
  have parsed : hexToInt "0x5" = .ok 5 := by decide +kernel
  intro carried
  have read := (carry_iff parsed (numberedBundle_match "0x5")).mp carried _ (List.mem_singleton_self _)
  exact absurd read (by decide +kernel)

end ShinzoGenerator.Evm
