import ShinzoGenerator.Lib.Lines
import ShinzoGenerator.Snapshot.Signing

/-! Verifying a snapshot against its signature. The roots are read from those lines of the
file that are block-signature entries. -/

set_option autoImplicit false

namespace ShinzoGenerator.Snapshot

open Json

/-! ### Block-signature entries -/

/-- An entry of a line: its type and the members of its data, unless the data is nil. -/
structure Entry where
  type : Bytes
  data : Option (List (Bytes × Value))

/-- Members are added to those of an earlier object. -/
def mapField (old : Option (List (Bytes × Value))) : Value → Option (Option (List (Bytes × Value)))
  | .null => some none
  | .obj members => if fitMembers members then some (some (old.getD [] ++ members)) else none
  | _ => none

def Entry.set (entry : Entry) (member : Bytes × Value) : Option Entry :=
  let name := foldName member.1
  if name = foldName (ascii "type") then
    (stringField entry.type member.2).map fun type => { entry with type }
  else if name = foldName (ascii "data") then
    (mapField entry.data member.2).map fun data => { entry with data }
  else some entry

def emptyEntry : Entry where
  type := []
  data := none

def decodeEntry : Value → Option Entry
  | .obj members => members.foldlM Entry.set emptyEntry
  | .null => some emptyEntry
  | _ => none

def blockSignatureTypeValue : Bytes := ascii "block_signature"

def merkleRootFieldName : Bytes := ascii "merkleRoot"

/-- The last member of a name is the one that stays in a map. -/
def lookupLast (name : Bytes) (members : List (Bytes × Value)) : Option Value :=
  (members.reverse.find? fun member => member.1 = name).map Prod.snd

def Entry.merkleRoot (entry : Entry) : Option Bytes :=
  if entry.type = blockSignatureTypeValue then
    match entry.data.bind (lookupLast merkleRootFieldName) with
    | some (.str text) => if text = [] then none else Hex.decode (textOf text)
    | _ => none
  else none

/-- The root that a line of the file contributes. -/
def lineRoot (line : Bytes) : Option Bytes := do
  let value ← unmarshal line
  let entry ← decodeEntry value
  entry.merkleRoot

def mb : Nat := 1048576

def maxTokenSize : Nat := 10 * mb

inductive ExtractError where
  | openSnapshot (error : String)
  | tokenTooLong
deriving DecidableEq

/-- The roots of the block-signature entries, in the order of their lines. -/
def extractBlockSigMerkleRoots (file : Except String Bytes) : Except ExtractError (List Bytes) :=
  match file with
  | .error error => .error (.openSnapshot error)
  | .ok bytes =>
      match Lines.scan maxTokenSize bytes with
      | none => .error .tokenTooLong
      | some lines => .ok (lines.filterMap lineRoot)

/-! ### Verifying -/

/-- The database's keys. -/
structure Crypto where
  PublicKey : Type
  publicKeyFromString : KeyType → String → Except String PublicKey
  verify : PublicKey → Bytes → Bytes → Except String Bool

inductive VerifyError where
  | extract (error : ExtractError)
  | noBlockSignatures
  | merkleRootMismatch (computed expected : String)
  | decodeMerkleRoot
  | decodeSignature
  | unsupportedSignatureType (name : String)
  | parsePublicKey (error : String)
  | verifySignature (error : String)
  | verificationFailed
deriving DecidableEq

structure VerifyResult where
  valid : Bool := false
  snapshotFile : String
  startBlock : Int64
  endBlock : Int64
  blockCount : Nat
  blockSigsFound : Nat := 0
  merkleRootMatch : Bool := false
  signatureValid : Bool := false
  signerIdentity : String
  error : Option VerifyError := none

def verifyMerkleRoot (file : Except String Bytes) (sig : SnapshotSignatureData)
    (result : VerifyResult) : VerifyResult :=
  match extractBlockSigMerkleRoots file with
  | .error error => { result with error := some (.extract error) }
  | .ok roots =>
      let result := { result with blockSigsFound := roots.length }
      if roots.isEmpty then { result with error := some .noBlockSignatures }
      else
        let computedRootHex := hexString ((computeSnapshotMerkleRoot roots).getD [])
        if computedRootHex = sig.merkleRoot then { result with merkleRootMatch := true }
        else
          { result with
            merkleRootMatch := false
            error := some (.merkleRootMismatch computedRootHex sig.merkleRoot) }

def resolveKeyType (sigType : String) : Option KeyType :=
  if sigType = secp256k1ValueString ∨ sigType = "ecdsa-256k" then some .secp256k1
  else if sigType = ed25519ValueString ∨ sigType = ed25519ValueString.toLower then some .ed25519
  else none

variable (crypto : Crypto)

/-- The result, and whether the call itself fails. -/
def verifyCryptoSignature (sig : SnapshotSignatureData) (result : VerifyResult) :
    VerifyResult × Bool :=
  match Hex.decode sig.merkleRoot.toList with
  | none => ({ result with error := some .decodeMerkleRoot }, true)
  | some merkleRootBytes =>
      match Hex.decode sig.signatureValue.toList with
      | none => ({ result with error := some .decodeSignature }, false)
      | some sigValueBytes =>
          match resolveKeyType sig.signatureType with
          | none =>
              ({ result with
                error := some (.unsupportedSignatureType sig.signatureType)
                signatureValid := false }, true)
          | some keyType =>
              match crypto.publicKeyFromString keyType sig.signatureIdentity with
              | .error error =>
                  ({ result with error := some (.parsePublicKey error), signatureValid := false },
                    false)
              | .ok pubKey =>
                  match crypto.verify pubKey merkleRootBytes sigValueBytes with
                  | .error error =>
                      ({ result with
                        error := some (.verifySignature error), signatureValid := false }, false)
                  | .ok valid => ({ result with signatureValid := valid }, false)

def VerifyResult.conclude (result : VerifyResult) : VerifyResult :=
  let valid := result.merkleRootMatch && result.signatureValid
  { result with
    valid := valid
    error := if !valid && result.error.isNone then some .verificationFailed else result.error }

/-- The result, and whether the call itself fails. -/
def verifySnapshotWithSig (file : Except String Bytes) (sig : SnapshotSignatureData) :
    VerifyResult × Bool :=
  let rooted := verifyMerkleRoot file sig {
    snapshotFile := sig.snapshotFile
    startBlock := sig.startBlock
    endBlock := sig.endBlock
    blockCount := sig.blockCount
    signerIdentity := sig.signatureIdentity }
  if rooted.error.isSome then (rooted, false)
  else
    let signed := verifyCryptoSignature crypto sig rooted
    if signed.2 ∨ signed.1.error.isSome then signed else (signed.1.conclude, false)

end ShinzoGenerator.Snapshot
