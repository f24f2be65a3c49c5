import ShinzoGenerator.Evm.Converter

/-! `FetchBlock`: a block with its transactions and receipts. The receipts come in one
batch when that is complete, and one by one otherwise; then the outcomes of the
execution are merged onto the transactions. -/

set_option autoImplicit false

namespace ShinzoGenerator.Evm

/-- The answers of the chain node to the calls of one fetch; the calls for single
receipts are numbered like the transactions. -/
structure RpcClient where
  getBlockByNumber : Int → Except String Block
  getBlockReceipts : String → Except String (List (Option TransactionReceipt))
  getTransactionReceipt : Nat → String → Except String (Option TransactionReceipt)

def toLower (text : String) : String := String.ofList (text.toList.map Char.toLower)

def equalFold (left right : String) : Bool := toLower left = toLower right

/-- What the execution of a transaction has come to. -/
structure Outcome where
  status : Bool
  gasUsed : String
  cumulativeGasUsed : String
  effectiveGasPrice : String
deriving DecidableEq

def Transaction.outcome (tx : Transaction) : Outcome :=
  ⟨tx.status, tx.gasUsed, tx.cumulativeGasUsed, tx.effectiveGasPrice⟩

def TransactionReceipt.outcome (receipt : TransactionReceipt) : Outcome :=
  ⟨receipt.status = "1", receipt.gasUsed, receipt.cumulativeGasUsed, receipt.effectiveGasPrice⟩

def Transaction.withOutcome (tx : Transaction) (outcome : Outcome) : Transaction :=
  { tx with
    status := outcome.status
    gasUsed := outcome.gasUsed
    cumulativeGasUsed := outcome.cumulativeGasUsed
    effectiveGasPrice := outcome.effectiveGasPrice }

/-- A transaction without a receipt keeps what it has. -/
def mergeReceipt (byHash : List (String × TransactionReceipt)) (tx : Transaction) : Transaction :=
  match byHash.lookup tx.hash with
  | none => tx
  | some receipt => tx.withOutcome receipt.outcome

/-- The receipts are indexed by the same loop as for the logs. -/
def mergeReceiptsOntoTransactions (txs : List (Option Transaction))
    (receipts : List (Option TransactionReceipt)) : List (Option Transaction) :=
  txs.map (Option.map (mergeReceipt (buildReceiptMap receipts)))

def receiptHashesMatch (receipts : List (Option TransactionReceipt)) (blockHash : String) : Bool :=
  receipts.all fun receipt =>
    match receipt with
    | none => false
    | some receipt => equalFold receipt.blockHash blockHash

def batchCoversTransactions (txs : List (Option Transaction))
    (receipts : List (Option TransactionReceipt)) : Bool :=
  let served := (receipts.filterMap id).map fun receipt => toLower receipt.transactionHash
  (txs.filterMap id).all fun tx => toLower tx.hash ∈ served

/-- Only the block hash of a single receipt is checked. -/
def fetchReceipt (client : RpcClient) (blockHash : String) (index : Nat) (txHash : String) :
    Option TransactionReceipt :=
  match client.getTransactionReceipt index txHash with
  | .error _ => none
  | .ok none => none
  | .ok (some receipt) => if equalFold receipt.blockHash blockHash then some receipt else none

def fetchReceiptsIndividually (client : RpcClient) (block : Block) :
    List (Option TransactionReceipt) :=
  block.transactions.mapIdx fun index tx => fetchReceipt client block.hash index tx.hash

/-- The batch, unless it failed or was rejected. -/
def usableBatch? (client : RpcClient) (block : Block) : Option (List (Option TransactionReceipt)) :=
  match client.getBlockReceipts block.hash with
  | .error _ => none
  | .ok batch =>
      if receiptHashesMatch batch block.hash &&
          batchCoversTransactions (block.transactions.map some) batch then some batch
      else none

def fetchTransactionsAndReceipts (client : RpcClient) (block : Block) (blockNum : Int) :
    Except String (List (Option Transaction) × List (Option TransactionReceipt)) :=
  let transactions := block.transactions.map some
  match usableBatch? client block with
  | some batch => .ok (mergeReceiptsOntoTransactions transactions batch, batch)
  | none =>
      let receipts := fetchReceiptsIndividually client block
      let failed := receipts.countP (·.isNone)
      if 0 < failed then
        .error ("block " ++ toString blockNum ++ ": " ++ toString failed ++ "/" ++
          toString receipts.length ++ " transaction receipts could not be fetched")
      else .ok (mergeReceiptsOntoTransactions transactions receipts, receipts)

/-- The transactions of the bundle are those of the block itself. -/
def fetchBlock (client : Option RpcClient) (height : Int) : Except String BlockBundle :=
  match client with
  | none => .error "fetcher not connected: call Connect(ctx) before FetchBlock"
  | some client =>
      match client.getBlockByNumber height with
      | .error text => .error text
      | .ok block =>
          match fetchTransactionsAndReceipts client block height with
          | .error text =>
              .error ("failed to fetch block " ++ toString height ++ " receipts: " ++ text)
          | .ok (transactions, receipts) =>
              .ok
                { block := some { block with transactions := transactions.filterMap id }
                  transactions
                  receipts }

end ShinzoGenerator.Evm
