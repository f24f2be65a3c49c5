import ShinzoGenerator.Evm.LinkStamper

/-! The EVM converter: the bundle of one block becomes document groups and the link
stamper for them. -/

set_option autoImplicit false

namespace ShinzoGenerator.Evm

open Chains Defra Strconv

/-! ### What the chain node serves -/

structure AccessListEntry where
  address : String
  storageKeys : List String
deriving DecidableEq, Repr

structure Log where
  address : String
  topics : List String
  data : String
  blockNumber : String
  transactionHash : String
  transactionIndex : Int
  blockHash : String
  logIndex : Int
  removed : Bool
deriving DecidableEq

structure TransactionReceipt where
  transactionHash : String
  blockHash : String
  cumulativeGasUsed : String
  gasUsed : String
  effectiveGasPrice : String
  logs : List Log
  status : String
deriving DecidableEq

structure Transaction where
  hash : String
  blockHash : String := ""
  blockNumber : String := ""
  fromAddress : String := ""
  toAddress : String := ""
  value : String := ""
  gas : String := ""
  gasPrice : String := ""
  maxFeePerGas : String := ""
  maxPriorityFeePerGas : String := ""
  input : String := ""
  nonce : String := ""
  transactionIndex : Int := 0
  type : String := ""
  chainID : String := ""
  accessList : List AccessListEntry := []
  v : String := ""
  r : String := ""
  s : String := ""
  status : Bool := false
  gasUsed : String := ""
  cumulativeGasUsed : String := ""
  effectiveGasPrice : String := ""
deriving DecidableEq

structure Block where
  hash : String
  number : String
  timestamp : String := ""
  parentHash : String := ""
  difficulty : String := ""
  totalDifficulty : String := ""
  gasUsed : String := ""
  gasLimit : String := ""
  baseFeePerGas : String := ""
  nonce : String := ""
  miner : String := ""
  size : String := ""
  stateRoot : String := ""
  sha3Uncles : String := ""
  transactionsRoot : String := ""
  receiptsRoot : String := ""
  logsBloom : String := ""
  extraData : String := ""
  mixHash : String := ""
  uncles : List String := []
  transactions : List Transaction := []
deriving DecidableEq

/-- A missing pointer is `none`. -/
structure BlockBundle where
  block : Option Block
  transactions : List (Option Transaction)
  receipts : List (Option TransactionReceipt)
deriving DecidableEq

/-! ### The configuration -/

structure Config where
  chainName : String
  network : String
  maxDocsPerTxn : Int
  maxTxDocsPerBatch : Int
  maxLogDocsPerBatch : Int
  maxALEDocsPerBatch : Int

def defaultChainName : String := "Ethereum"
def defaultNetwork : String := "Mainnet"
def defaultCollectionPrefix : String := "Ethereum__Mainnet"

def chainPrefixFromConfig : Option Config → String
  | none => defaultCollectionPrefix
  | some cfg =>
      let name := if cfg.chainName = "" then defaultChainName else cfg.chainName
      let network := if cfg.network = "" then defaultNetwork else cfg.network
      name ++ "__" ++ network

structure Converter where
  cfg : Option Config
  plain : ' ' ∉ (chainPrefixFromConfig cfg).toList

def Converter.collections (converter : Converter) : CollectionNames :=
  ⟨chainPrefixFromConfig converter.cfg, converter.plain⟩

theorem defaultPrefix_plain : ' ' ∉ (chainPrefixFromConfig none).toList := by decide

/-- The converter without a configuration. -/
def unconfigured : Converter := ⟨none, defaultPrefix_plain⟩

/-- A configured size counts when it is positive. -/
def Converter.sizeOr (converter : Converter) (size : Config → Int) (fallback : Nat) : Nat :=
  match converter.cfg with
  | none => fallback
  | some cfg => if 0 < size cfg then (size cfg).toNat else fallback

def Converter.maxDocsPerTxn (converter : Converter) : Nat :=
  converter.sizeOr (·.maxDocsPerTxn) 1000

def Converter.txBatchSize (converter : Converter) (defaultBatch : Nat) : Nat :=
  converter.sizeOr (·.maxTxDocsPerBatch) defaultBatch

def Converter.logBatchSize (converter : Converter) (defaultBatch : Nat) : Nat :=
  converter.sizeOr (·.maxLogDocsPerBatch) defaultBatch

def Converter.aleBatchSize (converter : Converter) (defaultBatch : Nat) : Nat :=
  converter.sizeOr (·.maxALEDocsPerBatch) defaultBatch

/-! ### The data maps -/

def hexToInt (text : String) : Except String Int :=
  let invalid := "[INVALID_HEX] Invalid hexadecimal format: " ++ text
  if text = "" then .error invalid
  else
    match parseInt text 0 with
    | (value, none) => .ok value
    | (_, some error) => .error (invalid ++ ": " ++ error.text "ParseInt" text)

def addressFieldName : String := "address"
def storageKeysFieldName : String := "storageKeys"
def transactionIndexFieldName : String := "transactionIndex"
def nonceFieldName : String := "nonce"
def gasUsedFieldName : String := "gasUsed"
def cumulativeGasUsedFieldName : String := "cumulativeGasUsed"
def effectiveGasPriceFieldName : String := "effectiveGasPrice"
def statusFieldName : String := "status"

def buildBlockData (block : Block) (blockInt : Int) : Fields :=
  [(hashFieldName, .string block.hash),
    (numberFieldName, .int64 blockInt),
    ("timestamp", .string block.timestamp),
    (parentHashFieldName, .string block.parentHash),
    ("difficulty", .string block.difficulty),
    ("totalDifficulty", .string block.totalDifficulty),
    (gasUsedFieldName, .string block.gasUsed),
    ("gasLimit", .string block.gasLimit),
    ("baseFeePerGas", .string block.baseFeePerGas),
    (nonceFieldName, .string block.nonce),
    ("miner", .string block.miner),
    ("size", .string block.size),
    ("stateRoot", .string block.stateRoot),
    ("sha3Uncles", .string block.sha3Uncles),
    ("transactionsRoot", .string block.transactionsRoot),
    ("receiptsRoot", .string block.receiptsRoot),
    ("logsBloom", .string block.logsBloom),
    ("extraData", .string block.extraData),
    ("mixHash", .string block.mixHash),
    ("uncles", .strings block.uncles)]

/-- A block number that does not parse is not an error here. -/
def buildTransactionData (tx : Transaction) : Fields :=
  [(hashFieldName, .string tx.hash),
    (blockNumberFieldName, .int64 (parseInt tx.blockNumber 10).1),
    (blockHashFieldName, .string tx.blockHash),
    (transactionIndexFieldName, .int tx.transactionIndex),
    ("from", .string tx.fromAddress),
    ("to", .string tx.toAddress),
    ("value", .string tx.value),
    ("gas", .string tx.gas),
    ("gasPrice", .string tx.gasPrice),
    ("maxFeePerGas", .string tx.maxFeePerGas),
    ("maxPriorityFeePerGas", .string tx.maxPriorityFeePerGas),
    ("input", .string tx.input),
    (nonceFieldName, .string tx.nonce),
    ("type", .string tx.type),
    ("chainId", .string tx.chainID),
    ("v", .string tx.v),
    ("r", .string tx.r),
    ("s", .string tx.s),
    (gasUsedFieldName, .string tx.gasUsed),
    (cumulativeGasUsedFieldName, .string tx.cumulativeGasUsed),
    (effectiveGasPriceFieldName, .string tx.effectiveGasPrice),
    (statusFieldName, .bool tx.status)]

def buildLogData (logEntry : Log) : Fields :=
  [(addressFieldName, .string logEntry.address),
    ("topics", .strings logEntry.topics),
    ("data", .string logEntry.data),
    (blockNumberFieldName, .int64 ((hexToInt logEntry.blockNumber).toOption.getD 0)),
    (transactionHashFieldName, .string logEntry.transactionHash),
    (transactionIndexFieldName, .int logEntry.transactionIndex),
    (blockHashFieldName, .string logEntry.blockHash),
    ("logIndex", .int logEntry.logIndex),
    ("removed", .string (if logEntry.removed then "true" else "false"))]

def buildALEData (ale : AccessListEntry) (blockNumber : Int) : Fields :=
  [(addressFieldName, .string ale.address),
    (blockNumberFieldName, .int64 blockNumber),
    (storageKeysFieldName, .strings ale.storageKeys)]

/-! ### The documents of a bundle -/

def buildTransactionDocs (bundle : BlockBundle) : List Fields :=
  (bundle.transactions.filterMap id).map buildTransactionData

/-- The receipts by transaction hash; a later receipt replaces an earlier one. -/
def buildReceiptMap (receipts : List (Option TransactionReceipt)) :
    List (String × TransactionReceipt) :=
  (receipts.filterMap id).foldl (fun byHash receipt => (receipt.transactionHash, receipt) :: byHash) []

def buildLogDocs (txs : List (Option Transaction))
    (receiptMap : List (String × TransactionReceipt)) : List Fields :=
  (txs.filterMap id).flatMap fun tx =>
    match receiptMap.lookup tx.hash with
    | none => []
    | some receipt => receipt.logs.map buildLogData

/-- The identity of an access-list entry document within one conversion. -/
def aleDocKey (txHash : String) (ale : AccessListEntry) : String :=
  txHash ++ "|" ++ ale.address ++ "|" ++ ",".intercalate ale.storageKeys

structure ALEDocs where
  docs : List Fields := []
  parentRefs : List String := []
  seen : List String := []

/-- A repeated entry is dropped. -/
def emitALE (blockInt : Int) (txHash : String) (emitted : ALEDocs) (ale : AccessListEntry) :
    ALEDocs :=
  if aleDocKey txHash ale ∈ emitted.seen then emitted
  else
    { docs := emitted.docs ++ [buildALEData ale blockInt]
      parentRefs := emitted.parentRefs ++ [txHash]
      seen := aleDocKey txHash ale :: emitted.seen }

def emitTransaction (blockInt : Int) (emitted : ALEDocs) : Option Transaction → ALEDocs
  | none => emitted
  | some tx => tx.accessList.foldl (emitALE blockInt tx.hash) emitted

def buildALEDocs (txs : List (Option Transaction)) (blockInt : Int) : List Fields × List String :=
  let emitted := txs.foldl (emitTransaction blockInt) {}
  (emitted.docs, emitted.parentRefs)

/-- A group that is left out when it has no documents. -/
def unlessEmpty (group : DocumentGroup) : List DocumentGroup :=
  if group.docs = [] then [] else [group]

/-- A conversion result with its link stamper. -/
structure Converted where
  result : ConversionResult
  linkStamper : LinkStamper EvmLinks

def Converter.groups (converter : Converter) (bundle : BlockBundle) (block : Block)
    (blockInt : Int) : List DocumentGroup :=
  let defaultBatch := converter.maxDocsPerTxn
  { collection := .block
    docs := [buildBlockData block blockInt]
    batchSize := defaultBatch
    blockNumField := numberFieldName
    blockHashField := hashFieldName
    parentHashField := parentHashFieldName } ::
  (unlessEmpty
    { collection := .transaction
      docs := buildTransactionDocs bundle
      batchSize := converter.txBatchSize defaultBatch
      blockNumField := blockNumberFieldName } ++
  (unlessEmpty
    { collection := .log
      docs := buildLogDocs bundle.transactions (buildReceiptMap bundle.receipts)
      batchSize := converter.logBatchSize defaultBatch
      blockNumField := blockNumberFieldName } ++
  unlessEmpty
    { collection := .accessListEntry
      docs := (buildALEDocs bundle.transactions blockInt).1
      batchSize := converter.aleBatchSize defaultBatch
      blockNumField := blockNumberFieldName }))

def Converter.convert (converter : Converter) (bundle : BlockBundle) : Except String Converted :=
  match bundle.block with
  | none => .error "converter: nil block in bundle"
  | some block =>
      match hexToInt block.number with
      | .error text => .error ("converter: parse block number: " ++ text)
      | .ok blockInt =>
          .ok
            { result :=
                { groups := converter.groups bundle block blockInt
                  signatureCollection := .blockSignature }
              linkStamper := evmLinkStamper converter.collections
                (buildALEDocs bundle.transactions blockInt).2 }

theorem convert_ok {converter : Converter} {bundle : BlockBundle} {converted : Converted}
    (accepted : converter.convert bundle = .ok converted) :
    ∃ block blockInt, bundle.block = some block ∧ hexToInt block.number = .ok blockInt ∧
      converted.result.groups = converter.groups bundle block blockInt ∧
      converted.result.signatureCollection = .blockSignature ∧
      converted.linkStamper = evmLinkStamper converter.collections
        (buildALEDocs bundle.transactions blockInt).2 := by
  unfold Converter.convert at accepted
  cases given : bundle.block with
  | none => simp [given] at accepted
  | some block =>
      simp only [given] at accepted
      cases parsed : hexToInt block.number with
      | error text => simp [parsed] at accepted
      | ok blockInt =>
          simp only [parsed, Except.ok.injEq] at accepted
          subst accepted
          exact ⟨block, blockInt, rfl, parsed, rfl, rfl, rfl⟩

end ShinzoGenerator.Evm
