import Mathlib.Data.List.AList
import Mathlib.Data.List.Sort
import ShinzoGenerator.Lib.Framing
import ShinzoGenerator.Lib.JsonProperties
import ShinzoGenerator.Snapshot.Snapshotter

/-! The key-value snapshot file: a length-prefixed JSON header, the exported records of
every collection behind each other, and one closing sentinel. Files stand for what
their compression holds. -/

set_option autoImplicit false

namespace ShinzoGenerator.Snapshot

open Json Framing

/-! ### The header -/

/-- The header, over the kind of text its strings are. -/
structure KVSnapshotHeader (text : Type) where
  magic : text
  version : Int64
  startBlock : Int64
  endBlock : Int64
  createdAt : text
  blockSigMerkleRoots : List text

def KVSnapshotHeader.map {text other : Type} (change : text → other)
    (header : KVSnapshotHeader text) : KVSnapshotHeader other where
  magic := change header.magic
  version := header.version
  startBlock := header.startBlock
  endBlock := header.endBlock
  createdAt := change header.createdAt
  blockSigMerkleRoots := header.blockSigMerkleRoots.map change

def magicKey : PlainText := ⟨ascii "magic", by decide⟩
def versionKey : PlainText := ⟨ascii "version", by decide⟩
def startBlockKey : PlainText := ⟨ascii "start_block", by decide⟩
def endBlockKey : PlainText := ⟨ascii "end_block", by decide⟩
def createdAtKey : PlainText := ⟨ascii "created_at", by decide⟩
def rootsKey : PlainText := ⟨ascii "block_sig_merkle_roots", by decide⟩

/-- An empty list of roots is omitted. -/
def rootsMember (roots : List PlainText) : List (PlainText × Bytes) :=
  if roots.isEmpty then [] else [(rootsKey, marshalArray (roots.map fun root => quoted root.text))]

def headerMembers (header : KVSnapshotHeader PlainText) : List (PlainText × Bytes) :=
  [(magicKey, quoted header.magic.text),
    (versionKey, marshalInt header.version.toInt),
    (startBlockKey, marshalInt header.startBlock.toInt),
    (endBlockKey, marshalInt header.endBlock.toInt),
    (createdAtKey, quoted header.createdAt.text)]

def marshalHeader (header : KVSnapshotHeader PlainText) : Bytes :=
  marshalObject (headerMembers header ++ rootsMember header.blockSigMerkleRoots)

/-- A member name up to the case of its letters, of which two are also written otherwise. -/
def foldName : Bytes → Bytes
  | 0xC5 :: 0xBF :: rest => byte 'S' :: foldName rest
  | 0xE2 :: 0x84 :: 0xAA :: rest => byte 'K' :: foldName rest
  | char :: rest =>
      (if byte 'a' ≤ char ∧ char ≤ byte 'z' then char - 32 else char) :: foldName rest
  | [] => []

/-- One character for each byte. -/
def textOf (bytes : Bytes) : List Char := bytes.map fun char => Char.ofNat char.toNat

/-- A string field keeps its value at a null and refuses other values. -/
def stringField (old : Bytes) : Value → Option Bytes
  | .str text => some text
  | .null => some old
  | _ => none

def intField (old : Int64) : Value → Option Int64
  | .num text => (parseInt (textOf text)).map Int64.ofInt
  | .null => some old
  | _ => none

def stringsField : Value → Option (List Bytes)
  | .arr items => items.mapM (stringField [])
  | .null => some []
  | _ => none

/-- Stores a member in the field of its name; members of other names are ignored. -/
def KVSnapshotHeader.set (header : KVSnapshotHeader Bytes) (member : Bytes × Value) :
    Option (KVSnapshotHeader Bytes) :=
  let name := foldName member.1
  if name = foldName magicKey.text then
    (stringField header.magic member.2).map fun magic => { header with magic }
  else if name = foldName versionKey.text then
    (intField header.version member.2).map fun version => { header with version }
  else if name = foldName startBlockKey.text then
    (intField header.startBlock member.2).map fun startBlock => { header with startBlock }
  else if name = foldName endBlockKey.text then
    (intField header.endBlock member.2).map fun endBlock => { header with endBlock }
  else if name = foldName createdAtKey.text then
    (stringField header.createdAt member.2).map fun createdAt => { header with createdAt }
  else if name = foldName rootsKey.text then
    (stringsField member.2).map fun blockSigMerkleRoots => { header with blockSigMerkleRoots }
  else some header

def emptyHeader : KVSnapshotHeader Bytes where
  magic := []
  version := 0
  startBlock := 0
  endBlock := 0
  createdAt := []
  blockSigMerkleRoots := []

def decodeHeader : Value → Option (KVSnapshotHeader Bytes)
  | .obj members => members.foldlM KVSnapshotHeader.set emptyHeader
  | .null => some emptyHeader
  | _ => none

/-! ### Writing -/

/-- A moment in coordinated universal time. -/
structure Timestamp where
  year : Nat
  month : Nat
  day : Nat
  hour : Nat
  minute : Nat
  second : Nat

/-- Decimal digits with zeros in front up to the width. -/
def padded (width number : Nat) : Bytes :=
  let digits := (Nat.toDigits 10 number).map byte
  List.replicate (width - digits.length) (byte '0') ++ digits

def Timestamp.rfc3339 (moment : Timestamp) : Bytes :=
  padded 4 moment.year ++ byte '-' :: padded 2 moment.month ++ byte '-' :: padded 2 moment.day ++
    byte 'T' :: padded 2 moment.hour ++ byte ':' :: padded 2 moment.minute ++
    byte ':' :: padded 2 moment.second ++ [byte 'Z']

theorem isPlain_of_isDigit {char : UInt8} (digit : isDigit char = true) : isPlain char = true := by
  simp only [isDigit, Bool.and_eq_true, decide_eq_true_eq] at digit
  have low : 48 ≤ char.toNat := digit.1
  have high : char.toNat ≤ 57 := digit.2
  have other : ∀ {other : UInt8}, other.toNat < 48 ∨ 57 < other.toNat → char ≠ other := by
    rintro other outside rfl
    omega
  simp only [isPlain, Bool.and_eq_true, decide_eq_true_eq, bne_iff_ne, ne_eq]
  refine ⟨⟨⟨⟨⟨⟨?_, ?_⟩, other (by decide)⟩, other (by decide)⟩, other (by decide)⟩,
    other (by decide)⟩, other (by decide)⟩
  · exact UInt8.le_iff_toNat_le.mpr (Nat.le_trans (by decide) low)
  · exact UInt8.lt_iff_toNat_lt.mpr (Nat.lt_of_le_of_lt high (by decide))

theorem isPlain_padded (width number : Nat) : (padded width number).all isPlain = true := by
  rw [padded, List.all_append, Bool.and_eq_true, List.all_eq_true, List.all_eq_true]
  constructor
  · intro char member
    rw [List.eq_of_mem_replicate member]
    decide
  · exact fun char member => isPlain_of_isDigit (isDigit_toDigits number char member)

def Timestamp.text (moment : Timestamp) : PlainText where
  text := moment.rfc3339
  plain := by
    simp only [Timestamp.rfc3339, List.all_append, List.all_cons, isPlain_padded, Bool.true_and]
    decide

/-- The hexadecimal text of a root. -/
def hexText (root : Bytes) : PlainText where
  text := (Hex.encode root).map byte
  plain := by
    have digits : Hex.lowerDigits.all (fun digit => isPlain (byte digit)) = true := by decide
    rw [List.all_eq_true] at digits ⊢
    intro char member
    obtain ⟨digit, written, rfl⟩ := List.mem_map.mp member
    exact digits digit (Hex.encode_lower root digit written)

def headerMagicValue : PlainText := ⟨ascii "DFKV", by decide⟩

/-- What the snapshotter asks the database and the chain for. The document ids are a Go
map, so a collection occurs once. -/
structure SnapshotSource where
  ctxErr : Option String := none
  blockSigDocs : Except String (List (Option String))
  docIDsByBlockRange : Except String (AList fun _ : String => List String)
  exportDocKVs : String → List String → Except String (Bytes × Nat)

/-- The usable roots of the block signatures, in the order of their block numbers, and
the number of signatures. -/
def getBlockSigMerkleRoots (docs : List (Option String)) : List Bytes × Nat :=
  (docs.filterMap fun field =>
      match field with
      | none => none
      | some text => if text = "" then none else Hex.decode text.toList,
    docs.length)

def sentinelLen : Nat := 4

/-- An export without the sentinel that closes it. -/
def stripSentinel (data : Bytes) : Bytes :=
  if sentinelLen ≤ data.length then data.take (data.length - sentinelLen) else data

/-- The exports of the named collections behind each other, with the number of records. -/
def exportEach (source : SnapshotSource) (docIDs : AList fun _ : String => List String) :
    List String → Except String (Bytes × Nat)
  | [] => .ok ([], 0)
  | name :: names =>
      let ids := (docIDs.lookup name).getD []
      if ids.isEmpty then exportEach source docIDs names
      else
        match source.exportDocKVs name ids with
        | .error error => .error ("export KVs for " ++ name ++ ": " ++ error)
        | .ok (data, count) =>
            match exportEach source docIDs names with
            | .error error => .error error
            | .ok (others, total) => .ok (stripSentinel data ++ others, count + total)

def exportCollectionKVs (source : SnapshotSource) (startBlock endBlock : Int64) :
    Except String (Bytes × Nat) :=
  match source.docIDsByBlockRange with
  | .error error => .error ("failed to get docIDs for blocks in range " ++
      toString startBlock.toInt ++ "-" ++ toString endBlock.toInt ++ ": " ++ error)
  | .ok docIDs => exportEach source docIDs (docIDs.keys.insertionSort (· ≤ ·))

def snapshotHeader (startBlock endBlock : Int64) (now : Timestamp) (roots : List Bytes) :
    KVSnapshotHeader PlainText where
  magic := headerMagicValue
  version := 1
  startBlock := startBlock
  endBlock := endBlock
  createdAt := now.text
  blockSigMerkleRoots := roots.map hexText

/-- The roots that go into the header; a failed query is only logged. -/
def SnapshotSource.roots (source : SnapshotSource) : List Bytes :=
  match source.blockSigDocs with
  | .error _ => []
  | .ok docs => (getBlockSigMerkleRoots docs).1

/-- The file, and the roots for its signature. -/
def writeKVSnapshotContents (source : SnapshotSource) (startBlock endBlock : Int64)
    (now : Timestamp) : Except String (Bytes × List Bytes) :=
  match source.ctxErr with
  | some error => .error error
  | none =>
      let header := marshalHeader (snapshotHeader startBlock endBlock now source.roots)
      match exportCollectionKVs source startBlock endBlock with
      | .error error => .error error
      | .ok (data, _) => .ok (be32 header.length ++ header ++ data ++ sentinel, source.roots)

/-! ### Importing -/

structure ImportResult where
  startBlock : Int64
  endBlock : Int64
deriving DecidableEq

inductive ImportError where
  | openSnapshot (error : String)
  | readHeaderLength
  | readHeader
  | parseHeader
  | invalidMagic (magic : Bytes)
  | importRawKVs (error : String)
deriving DecidableEq

/-- Reads the header and leaves the stream for the raw import. -/
def readHeader (file : Bytes) : Except ImportError (ImportResult × Bytes) :=
  match readBe32 file with
  | none => .error .readHeaderLength
  | some (headerLen, rest) =>
      if rest.length < headerLen then .error .readHeader
      else
        match (unmarshal (rest.take headerLen)).bind decodeHeader with
        | none => .error .parseHeader
        | some header =>
            if header.magic ≠ headerMagicValue.text then .error (.invalidMagic header.magic)
            else .ok (⟨header.startBlock, header.endBlock⟩, rest.drop headerLen)

/-- `importRawKVs` is the database's raw import, with the number of records it wrote. -/
def importKV (importRawKVs : Bytes → Except String Nat) (file : Except String Bytes) :
    Except ImportError ImportResult :=
  match file with
  | .error error => .error (.openSnapshot error)
  | .ok bytes =>
      match readHeader bytes with
      | .error error => .error error
      | .ok (result, stream) =>
          match importRawKVs stream with
          | .error error => .error (.importRawKVs error)
          | .ok _ => .ok result

end ShinzoGenerator.Snapshot
