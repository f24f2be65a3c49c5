import ShinzoGenerator.Lib.MerkleTree
import ShinzoGenerator.Lib.Sha256
import ShinzoGenerator.Snapshot.KvSnapshot

/-! Signing a snapshot: the Merkle root of the roots of its block signatures, signed
with the key of the identity in the context. -/

set_option autoImplicit false

namespace ShinzoGenerator.Snapshot

open Json

structure SnapshotSignatureData where
  version : Int
  snapshotFile : String
  startBlock : Int64
  endBlock : Int64
  merkleRoot : String
  blockCount : Nat
  signatureType : String
  signatureIdentity : String
  signatureValue : String
  createdAt : Bytes
  blockSigMerkleRoots : List String

/-- Hashes are paired level by level; an odd one moves up as it is. -/
def computeSnapshotMerkleRoot (blockSigMerkleRoots : List Bytes) : Option Bytes :=
  MerkleTree.root Sha256.sum blockSigMerkleRoots

/-! ### Keys -/

inductive KeyType where
  | secp256k1
  | ed25519
  | other (name : String)
deriving DecidableEq

def KeyType.name : KeyType → String
  | .secp256k1 => "secp256k1"
  | .ed25519 => "ed25519"
  | .other name => name

/-- A private key with the text of its public key. -/
structure PrivateKey where
  type : KeyType
  sign : Bytes → Except String Bytes
  publicKey : String

/-- What the context holds for an identity. -/
inductive Identity where
  | missing
  | notFull
  | full (key : PrivateKey)

def secp256k1ValueString : String := "ES256K"

def ed25519ValueString : String := "Ed25519"

def signatureType : KeyType → Option String
  | .secp256k1 => some secp256k1ValueString
  | .ed25519 => some ed25519ValueString
  | .other _ => none

/-- The type, the identity and the value of a signature. -/
def signMerkleRoot (identity : Identity) (merkleRoot : Bytes) :
    Except String (String × String × Bytes) :=
  match identity with
  | .missing => .error "no identity in context"
  | .notFull => .error "identity is not a full identity (no private key)"
  | .full key =>
      match signatureType key.type with
      | none => .error ("unsupported key type: " ++ key.type.name)
      | some sigType =>
          match key.sign merkleRoot with
          | .error error => .error ("sign merkle root: " ++ error)
          | .ok value => .ok (sigType, key.publicKey, value)

def hexString (bytes : Bytes) : String := String.ofList (Hex.encode bytes)

/-- The signature that is stored for a snapshot. Without roots or a usable key there is
none, which is only logged. -/
def signSnapshotWithRoots (identity : Identity) (snapshotFilename : String)
    (startBlock endBlock : Int64) (roots : List Bytes) (blockCount : Nat) (now : Timestamp) :
    Except String (Option SnapshotSignatureData) :=
  if roots.isEmpty then .ok none
  else
    match computeSnapshotMerkleRoot roots with
    | none => .error "failed to compute snapshot merkle root"
    | some snapshotRoot =>
        match signMerkleRoot identity snapshotRoot with
        | .error _ => .ok none
        | .ok (sigType, sigIdentity, sigValue) => .ok (some {
            version := 1
            snapshotFile := snapshotFilename
            startBlock := startBlock
            endBlock := endBlock
            merkleRoot := hexString snapshotRoot
            blockCount := blockCount
            signatureType := sigType
            signatureIdentity := sigIdentity
            signatureValue := hexString sigValue
            createdAt := now.rfc3339
            blockSigMerkleRoots := roots.map hexString })

end ShinzoGenerator.Snapshot
