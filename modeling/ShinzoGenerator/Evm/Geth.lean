import Mathlib.Data.Vector.Basic
import ShinzoGenerator.Evm.Fetcher
import ShinzoGenerator.Lib.Hex
import ShinzoGenerator.Lib.PrintedNumerals

/-! The values of the go-ethereum client library, and the texts they are printed as. -/

set_option autoImplicit false

namespace ShinzoGenerator.Geth

abbrev Hash := List.Vector UInt8 32

abbrev Address := List.Vector UInt8 20

/-- The hash function behind the letter case of addresses. -/
abbrev Keccak := List Char → List UInt8

def bytesToHex (bytes : List UInt8) : String := String.ofList (Hex.encode bytes)

def Hash.hex (hash : Hash) : String := "0x" ++ bytesToHex hash.toList

def nibble (bytes : List UInt8) (index : Nat) : Nat :=
  let byte := (bytes.getD (index / 2) 0).toNat
  if index % 2 = 0 then byte / 16 else byte % 16

/-- The letter is raised where the hash of the digits says so. -/
def checksumChar (hash : List UInt8) (index : Nat) (char : Char) : Char :=
  if '9' < char ∧ 7 < nibble hash index then Char.ofNat (char.toNat - 32) else char

def Address.hex (keccak256 : Keccak) (address : Address) : String :=
  let digits := Hex.encode address.toList
  "0x" ++ String.ofList (digits.mapIdx (checksumChar (keccak256 digits)))

/-! ### Reading hashes -/

/-- The digits behind the prefix, one more if their number is odd; what follows the first
pair that is no number is lost. -/
def fromHex (text : String) : List UInt8 :=
  let digits :=
    match text.toList with
    | '0' :: 'x' :: rest => rest
    | '0' :: 'X' :: rest => rest
    | chars => chars
  Hex.decodeUpTo (if (digits.map Char.utf8Size).sum % 2 = 1 then '0' :: digits else digits)

/-- A longer value keeps its last bytes, a shorter one is padded in front. -/
def bytesToHash (bytes : List UInt8) : Hash :=
  ⟨List.replicate (32 - bytes.length) 0 ++ bytes.drop (bytes.length - 32), by simp; omega⟩

def hexToHash (text : String) : Hash := bytesToHash (fromHex text)

/-! ### What a node serves -/

structure Log where
  address : Address
  topics : List Hash
  data : List UInt8
  blockNumber : UInt64
  txHash : Hash
  txIndex : UInt64
  blockHash : Hash
  index : UInt64
  removed : Bool

structure Receipt where
  postState : List UInt8
  status : UInt64
  cumulativeGasUsed : UInt64
  logs : List Log
  txHash : Hash
  gasUsed : UInt64
  effectiveGasPrice : Option Nat
  blockHash : Hash

/-- The rules by which a sender is recovered. -/
inductive Signer where
  | homestead
  | frontier
  | latest (chainID : Int)
  | eip155 (chainID : Int)
  | london (chainID : Int)
deriving DecidableEq

structure AccessTuple where
  address : Address
  storageKeys : List Hash
deriving DecidableEq

/-- A signed transaction, with what each signer makes of its signature. -/
structure Transaction where
  hash : Hash
  type : UInt8
  chainId : Option Int
  sender : Signer → Option Address
  recipient : Option Address
  value : Nat
  gas : UInt64
  gasPrice : Nat
  gasFeeCap : Nat
  gasTipCap : Nat
  data : List UInt8
  nonce : UInt64
  accessList : List AccessTuple
  v : Nat
  r : Nat
  s : Nat

structure Block where
  hash : Hash
  number : Nat
  time : UInt64
  parentHash : Hash
  difficulty : Nat
  gasUsed : UInt64
  gasLimit : UInt64
  baseFee : Option Nat
  nonce : UInt64
  coinbase : Address
  size : UInt64
  root : Hash
  uncleHash : Hash
  txHash : Hash
  receiptHash : Hash
  bloom : List UInt8
  extra : List UInt8
  mixDigest : Hash
  uncles : List Hash
  transactions : List Transaction

/-- The number is cut to 64 bits. -/
def Block.numberU64 (block : Block) : Nat := block.number % 18446744073709551616

/-! ### Printed hashes -/

theorem toList_hex (hash : Hash) : hash.hex.toList = '0' :: 'x' :: Hex.encode hash.toList := by
  have digits : (bytesToHex hash.toList).toList = Hex.encode hash.toList := String.toList_ofList
  rw [Hash.hex, String.toList_append, digits]
  rfl

theorem hex_injective : Function.Injective Hash.hex := by
  intro left right same
  have spelled := congrArg String.toList same
  rw [toList_hex, toList_hex, List.cons.injEq, List.cons.injEq] at spelled
  have read := congrArg Hex.decode spelled.2.2
  rw [Hex.decode_encode, Hex.decode_encode, Option.some.injEq] at read
  exact Subtype.ext read

theorem toLower_hex (hash : Hash) : Evm.toLower hash.hex = hash.hex := by
  apply String.toList_injective
  rw [Evm.toLower, String.toList_ofList, toList_hex, List.map_cons, List.map_cons]
  have digits : (Hex.encode hash.toList).map Char.toLower = Hex.encode hash.toList := by
    refine List.map_congr_left (fun char member => ?_) |>.trans (List.map_id _)
    exact Hex.toLower_of_lower (Hex.encode_lower _ char member)
  rw [digits]
  rfl

/-- A printed hash is read as the hash. -/
theorem hexToHash_hex (hash : Hash) : hexToHash hash.hex = hash := by
  have even : ((Hex.encode hash.toList).map Char.utf8Size).sum % 2 = 0 := by
    have small : Hex.lowerDigits.all (fun char => char.utf8Size = 1) = true := by decide
    have ones : (Hex.encode hash.toList).map Char.utf8Size =
        (Hex.encode hash.toList).map fun _ => 1 := by
      refine List.map_congr_left fun char member => ?_
      exact of_decide_eq_true (List.all_eq_true.mp small char (Hex.encode_lower _ char member))
    rw [ones, List.map_const', List.sum_replicate_nat, Nat.mul_one, Hex.length_encode]
    omega
  have read : fromHex hash.hex = hash.toList := by
    simp only [fromHex, toList_hex, even, Nat.zero_ne_one, if_false, Hex.decodeUpTo_encode]
  have size : hash.toList.length = 32 := hash.toList_length
  apply Subtype.ext
  rw [hexToHash, read]
  change List.replicate (32 - hash.toList.length) 0 ++ hash.toList.drop (hash.toList.length - 32) =
    hash.toList
  rw [size]
  rfl

end ShinzoGenerator.Geth
