import ShinzoGenerator.Evm.Geth

/-! The Ethereum client: go-ethereum's values become the records the fetcher works on, over
the WebSocket connection if there is one and over HTTP otherwise. -/

set_option autoImplicit false

namespace ShinzoGenerator.Evm

open Geth (Keccak Signer)

/-! ### Conversions -/

/-- Fallback for transactions without a sender. -/
def zeroAddress : String := "0x0000000000000000000000000000000000000000"

def legacyTxType : UInt8 := 0
def accessListTxType : UInt8 := 1
def dynamicFeeTxType : UInt8 := 2

/-- The decimal text of a number that may be missing. -/
def optionalDecimal : Option Nat → String
  | none => ""
  | some number => toString number

def getEffectiveGasPrice (receipt : Geth.Receipt) : String :=
  optionalDecimal receipt.effectiveGasPrice

def getBaseFeePerGas (block : Geth.Block) : String := optionalDecimal block.baseFee

/-- A receipt with a post-state root has no status field. -/
def getReceiptStatus (receipt : Geth.Receipt) : String :=
  if 0 < receipt.postState.length then "1"
  else if receipt.status = 1 then "1"
  else "0"

def convertGethLog (keccak256 : Keccak) (log : Geth.Log) : Log where
  address := log.address.hex keccak256
  topics := log.topics.map Geth.Hash.hex
  data := Geth.bytesToHex log.data
  blockNumber := toString log.blockNumber.toNat
  transactionHash := log.txHash.hex
  transactionIndex := log.txIndex.toInt64.toInt
  blockHash := log.blockHash.hex
  logIndex := log.index.toInt64.toInt
  removed := log.removed

def convertGethReceipt (keccak256 : Keccak) (receipt : Geth.Receipt) : TransactionReceipt where
  transactionHash := receipt.txHash.hex
  blockHash := receipt.blockHash.hex
  cumulativeGasUsed := toString receipt.cumulativeGasUsed.toNat
  gasUsed := toString receipt.gasUsed.toNat
  effectiveGasPrice := getEffectiveGasPrice receipt
  logs := receipt.logs.map (convertGethLog keccak256)
  status := getReceiptStatus receipt

/-- The signers to try; without a chain id the transaction is from before they had one. -/
def signersFor (tx : Geth.Transaction) : List Signer :=
  match tx.chainId with
  | none => [.homestead, .frontier]
  | some chainID =>
      if chainID ≤ 0 then [.homestead, .frontier]
      else [.latest chainID, .eip155 chainID, .london chainID]

/-- The sender by the first signer that recovers one. -/
def getFromAddress (tx : Geth.Transaction) : Option Geth.Address :=
  (signersFor tx).findSome? tx.sender

def getToAddress (keccak256 : Keccak) (tx : Geth.Transaction) : String :=
  match tx.recipient with
  | none => ""
  | some address => address.hex keccak256

def getGasPrice (tx : Geth.Transaction) : Nat :=
  if tx.type = legacyTxType ∨ tx.type = accessListTxType then tx.gasPrice
  else if tx.type = dynamicFeeTxType then tx.gasFeeCap
  else tx.gasPrice

def getMaxFeePerGas (tx : Geth.Transaction) : String :=
  if tx.type = dynamicFeeTxType then toString tx.gasFeeCap else ""

def getMaxPriorityFeePerGas (tx : Geth.Transaction) : String :=
  if tx.type = dynamicFeeTxType then toString tx.gasTipCap else ""

def getChainID (tx : Geth.Transaction) : String :=
  match tx.chainId with
  | none => ""
  | some chainID => toString chainID

def convertAccessTuple (keccak256 : Keccak) (tuple : Geth.AccessTuple) : AccessListEntry where
  address := tuple.address.hex keccak256
  storageKeys := tuple.storageKeys.map Geth.Hash.hex

/-- A signed payload has no outcome; its status starts as a success. -/
def convertTransaction (keccak256 : Keccak) (gethBlock : Geth.Block) (index : Nat)
    (tx : Geth.Transaction) : Transaction where
  hash := tx.hash.hex
  blockHash := gethBlock.hash.hex
  blockNumber := toString gethBlock.numberU64
  fromAddress :=
    match getFromAddress tx with
    | none => zeroAddress
    | some address => address.hex keccak256
  toAddress := getToAddress keccak256 tx
  value := toString tx.value
  gas := toString tx.gas.toNat
  gasPrice := toString (getGasPrice tx)
  maxFeePerGas := getMaxFeePerGas tx
  maxPriorityFeePerGas := getMaxPriorityFeePerGas tx
  input := "0x" ++ Geth.bytesToHex tx.data
  nonce := toString tx.nonce.toNat
  transactionIndex := index
  type := toString tx.type.toNat
  chainID := getChainID tx
  accessList := tx.accessList.map (convertAccessTuple keccak256)
  v := toString tx.v
  r := toString tx.r
  s := toString tx.s
  status := true

def convertGethBlock (keccak256 : Keccak) (gethBlock : Geth.Block) : Block where
  hash := gethBlock.hash.hex
  number := toString gethBlock.numberU64
  timestamp := toString gethBlock.time.toNat
  parentHash := gethBlock.parentHash.hex
  difficulty := toString gethBlock.difficulty
  totalDifficulty := ""
  gasUsed := toString gethBlock.gasUsed.toNat
  gasLimit := toString gethBlock.gasLimit.toNat
  baseFeePerGas := getBaseFeePerGas gethBlock
  nonce := toString gethBlock.nonce.toNat
  miner := gethBlock.coinbase.hex keccak256
  size := toString gethBlock.size.toNat
  stateRoot := gethBlock.root.hex
  sha3Uncles := gethBlock.uncleHash.hex
  transactionsRoot := gethBlock.txHash.hex
  receiptsRoot := gethBlock.receiptHash.hex
  logsBloom := Geth.bytesToHex gethBlock.bloom
  extraData := Geth.bytesToHex gethBlock.extra
  mixHash := gethBlock.mixDigest.hex
  uncles := gethBlock.uncles.map Geth.Hash.hex
  transactions := gethBlock.transactions.mapIdx (convertTransaction keccak256 gethBlock)

/-! ### Calls -/

/-- What a node answers over one connection; the calls for single receipts are numbered. -/
structure EthClient where
  blockByNumber : Int → Except String Geth.Block
  blockReceipts : Geth.Hash → Except String (List (Option Geth.Receipt))
  transactionReceipt : Nat → Geth.Hash → Except String Geth.Receipt

structure EthereumClient where
  httpClient : Option EthClient := none
  wsClient : Option EthClient := none

def errNoClientAvailable : String := "no client available"

/-- The WebSocket connection comes first. -/
def EthereumClient.getPreferredClient (client : EthereumClient) : Option EthClient :=
  client.wsClient <|> client.httpClient

/-- A call over the preferred connection, with the text its errors are put behind. -/
def EthereumClient.call {α : Type} (client : EthereumClient) (context : String)
    (request : EthClient → Except String α) : Except String α :=
  match client.getPreferredClient with
  | none => .error errNoClientAvailable
  | some preferred =>
      match request preferred with
      | .error text => .error (context ++ text)
      | .ok answer => .ok answer

def EthereumClient.getBlockByNumber (keccak256 : Keccak) (client : EthereumClient)
    (blockNumber : Int) : Except String Block :=
  (client.call ("failed to get block " ++ toString blockNumber ++ ": ")
    (·.blockByNumber blockNumber)).map (convertGethBlock keccak256)

def EthereumClient.getBlockReceipts (keccak256 : Keccak) (client : EthereumClient)
    (blockHash : String) : Except String (List (Option TransactionReceipt)) :=
  (client.call ("failed to get block receipts for block hash " ++ blockHash ++ ": ")
    (·.blockReceipts (Geth.hexToHash blockHash))).map
      (List.map (Option.map (convertGethReceipt keccak256)))

def EthereumClient.getTransactionReceipt (keccak256 : Keccak) (client : EthereumClient)
    (index : Nat) (txHash : String) : Except String (Option TransactionReceipt) :=
  (client.call "failed to get transaction receipt: "
    (·.transactionReceipt index (Geth.hexToHash txHash))).map
      (some ∘ convertGethReceipt keccak256)

/-- The client as the fetcher uses it. -/
def EthereumClient.rpc (keccak256 : Keccak) (client : EthereumClient) : RpcClient where
  getBlockByNumber := client.getBlockByNumber keccak256
  getBlockReceipts := client.getBlockReceipts keccak256
  getTransactionReceipt := client.getTransactionReceipt keccak256

end ShinzoGenerator.Evm
