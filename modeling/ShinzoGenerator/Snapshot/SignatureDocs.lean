import ShinzoGenerator.Snapshot.VerifyProperties

/-! The signature documents of snapshots: how a signature becomes a document, how a query
reads the documents back, and how they are deleted with their file. -/

set_option autoImplicit false

namespace ShinzoGenerator.Snapshot

open Json

/-! ### Documents -/

/-- A field by the Go type of its value. Of a slice of any values only the strings matter,
and other types are not told apart. -/
inductive RowValue where
  | int64 (number : Int64)
  | string (text : String)
  | strings (texts : List String)
  | anys (items : List (Option String))
  | other
deriving DecidableEq

abbrev Row := List (String × RowValue)

/-- A document of the signature collection; `own` tells what this generator wrote from
what its peers sent. -/
structure SignatureDoc where
  row : Row
  own : Bool
deriving DecidableEq

/-- The time is written in ASCII. -/
def createSnapshotSignatureDoc (sig : SnapshotSignatureData) : SignatureDoc where
  row :=
    [("startBlock", .int64 sig.startBlock),
      ("endBlock", .int64 sig.endBlock),
      ("merkleRoot", .string sig.merkleRoot),
      ("blockCount", .int64 (Int64.ofNat sig.blockCount)),
      ("signatureType", .string sig.signatureType),
      ("signatureIdentity", .string sig.signatureIdentity),
      ("signatureValue", .string sig.signatureValue),
      ("snapshotFile", .string sig.snapshotFile),
      ("createdAt", .string (String.ofList (textOf sig.createdAt))),
      ("blockSigMerkleRoots", .strings sig.blockSigMerkleRoots)]
  own := true

/-! ### Reading -/

/-- A type assertion on a field, which leaves the zero value if it fails. -/
def Row.stringAt (row : Row) (name : String) : String :=
  match row.lookup name with
  | some (.string text) => text
  | _ => ""

def Row.int64At (row : Row) (name : String) : Int64 :=
  match row.lookup name with
  | some (.int64 number) => number
  | _ => 0

def parseBlockSigMerkleRoots : Option RowValue → List String
  | some (.anys items) => items.filterMap id
  | some (.strings texts) => texts
  | _ => []

def parseSnapshotSignatureDoc (row : Row) : SnapshotSignatureData where
  version := 1
  snapshotFile := row.stringAt "snapshotFile"
  startBlock := row.int64At "startBlock"
  endBlock := row.int64At "endBlock"
  merkleRoot := row.stringAt "merkleRoot"
  blockCount := (row.int64At "blockCount").toInt.toNat
  signatureType := row.stringAt "signatureType"
  signatureIdentity := row.stringAt "signatureIdentity"
  signatureValue := row.stringAt "signatureValue"
  createdAt := (row.stringAt "createdAt").toList.map byte
  blockSigMerkleRoots := parseBlockSigMerkleRoots (row.lookup "blockSigMerkleRoots")

/-- The Go type in which the database hands out a list of strings. -/
inductive ListType where
  | strings
  | anys
  | other
deriving DecidableEq

def ListType.render : ListType → RowValue → RowValue
  | .anys, .strings texts => .anys (texts.map some)
  | .other, .strings _ => .other
  | _, value => value

def ListType.renderRow (type : ListType) (row : Row) : Row :=
  row.map fun field => (field.1, type.render field.2)

/-- The database returns documents in an order of its own. -/
structure RowOrder where
  arrange : List SignatureDoc → List SignatureDoc
  perm : ∀ docs, (arrange docs).Perm docs

inductive RowsAnswer where
  | fails (error : String)
  | noData
  | rows (type : ListType) (order : RowOrder)

def fetchSnapshotSignatureDocs (docs : List SignatureDoc) : RowsAnswer → Except String (List Row)
  | .fails error => .error ("query snapshot signatures: " ++ error)
  | .noData => .ok []
  | .rows type order => .ok ((order.arrange docs).map fun doc => type.renderRow doc.row)

abbrev SignatureMap := AList fun _ : String => SnapshotSignatureData

/-- A later document of the same file takes the place of an earlier one. -/
def addSignature (sigs : SignatureMap) (row : Row) : SignatureMap :=
  let sig := parseSnapshotSignatureDoc row
  if sig.snapshotFile = "" then sigs else sigs.insert sig.snapshotFile sig

def querySnapshotSignatures (snapshotSigCollection : String) (docs : List SignatureDoc)
    (answer : RowsAnswer) : Except String SignatureMap :=
  if snapshotSigCollection = "" then .ok ∅
  else (fetchSnapshotSignatureDocs docs answer).map fun rows => rows.foldl addSignature ∅

/-! ### Deleting -/

/-- The file a document is for, as the filter of a query compares it. -/
def SignatureDoc.file (doc : SignatureDoc) : String := doc.row.stringAt "snapshotFile"

/-- How far the deletion gets: without a node or a collection name nothing is asked. -/
inductive DeleteAnswer where
  | unavailable
  | queryFails
  | lookupFails
  | purgeFails
  | purges
deriving DecidableEq

/-- The documents left, and whether those of the file are gone. Every failure is only
logged. -/
def deleteSnapshotSignatureDoc (answer : DeleteAnswer) (filename : String)
    (docs : List SignatureDoc) : List SignatureDoc × Bool :=
  match answer with
  | .purges => (docs.filter fun doc => doc.file ≠ filename, true)
  | .unavailable | .queryFails | .lookupFails | .purgeFails => (docs, false)

/-! ### Reading what was written -/

theorem byte_ofNat (char : UInt8) : byte (Char.ofNat char.toNat) = char := by
  have small := char.toNat_lt
  have valid : char.toNat.isValidChar := Or.inl (by omega)
  have code : (Char.ofNat char.toNat).toNat = char.toNat := by
    rw [Char.ofNat, dif_pos valid]
    rfl
  rw [byte, code]
  exact UInt8.ofNat_toNat

theorem map_byte_textOf (bytes : Bytes) : (textOf bytes).map byte = bytes := by
  rw [textOf, List.map_map]
  exact (List.map_congr_left fun char _ => byte_ofNat char).trans (List.map_id _)

theorem toInt_ofNat_toNat {number : Nat} (small : number < int64Limit) :
    (Int64.ofNat number).toInt.toNat = number := by
  rw [int64Limit] at small
  rw [Int64.toInt_ofNat_of_lt small, Int.toNat_natCast]

theorem lookup_renderRow (type : ListType) (row : Row) (name : String) :
    (type.renderRow row).lookup name = (row.lookup name).map type.render := by
  induction row with
  | nil => rfl
  | cons field row ih =>
      obtain ⟨key, value⟩ := field
      simp only [ListType.renderRow, List.map_cons] at ih ⊢
      rw [List.lookup_cons, List.lookup_cons]
      cases name == key with
      | true => rfl
      | false => exact ih

theorem stringAt_renderRow (type : ListType) (row : Row) (name : String) :
    (type.renderRow row).stringAt name = row.stringAt name := by
  rw [Row.stringAt, Row.stringAt, lookup_renderRow]
  cases row.lookup name with
  | none => rfl
  | some value => cases type <;> cases value <;> rfl

theorem int64At_renderRow (type : ListType) (row : Row) (name : String) :
    (type.renderRow row).int64At name = row.int64At name := by
  rw [Row.int64At, Row.int64At, lookup_renderRow]
  cases row.lookup name with
  | none => rfl
  | some value => cases type <;> cases value <;> rfl

@[simp] theorem file_createSnapshotSignatureDoc (sig : SnapshotSignatureData) :
    (createSnapshotSignatureDoc sig).file = sig.snapshotFile := rfl

theorem parse_snapshotFile (type : ListType) (doc : SignatureDoc) :
    (parseSnapshotSignatureDoc (type.renderRow doc.row)).snapshotFile = doc.file :=
  stringAt_renderRow type doc.row _

/-- The list of roots comes back as it was stored, or not at all if the database hands it
out in a type that the parser does not know. -/
theorem parse_created (type : ListType) {sig : SnapshotSignatureData} (first : sig.version = 1)
    (counted : sig.blockCount < int64Limit) :
    parseSnapshotSignatureDoc (type.renderRow (createSnapshotSignatureDoc sig).row) =
      { sig with
        blockSigMerkleRoots := if type = .other then [] else sig.blockSigMerkleRoots } := by
  have time : (Row.stringAt (createSnapshotSignatureDoc sig).row "createdAt").toList.map byte =
      sig.createdAt := by
    change (String.ofList (textOf sig.createdAt)).toList.map byte = sig.createdAt
    rw [String.toList_ofList, map_byte_textOf]
  have count : (Row.int64At (createSnapshotSignatureDoc sig).row "blockCount").toInt.toNat =
      sig.blockCount := toInt_ofNat_toNat counted
  have roots : parseBlockSigMerkleRoots
      ((type.renderRow (createSnapshotSignatureDoc sig).row).lookup "blockSigMerkleRoots") =
        if type = .other then [] else sig.blockSigMerkleRoots := by
    rw [lookup_renderRow]
    cases type with
    | strings => rfl
    | anys =>
        change (sig.blockSigMerkleRoots.map some).filterMap id = _
        rw [List.filterMap_map]
        exact List.filterMap_some
    | other => rfl
  rw [parseSnapshotSignatureDoc, roots]
  simp only [stringAt_renderRow, int64At_renderRow, time, count, ← first]
  rfl

/-! ### The map by file -/

/-- Where an entry of the map comes from, and which documents have one. -/
theorem lookup_foldl_addSignature (rows : List Row) (sigs : SignatureMap) (name : String) :
    ((rows.foldl addSignature sigs).lookup name = sigs.lookup name ∧
        ∀ row ∈ rows, (parseSnapshotSignatureDoc row).snapshotFile = name → name = "") ∨
      ∃ row ∈ rows, (parseSnapshotSignatureDoc row).snapshotFile = name ∧ name ≠ "" ∧
        (rows.foldl addSignature sigs).lookup name = some (parseSnapshotSignatureDoc row) := by
  induction rows generalizing sigs with
  | nil =>
      refine .inl ⟨rfl, fun row member => ?_⟩
      cases member
  | cons row rows ih =>
      rw [List.foldl_cons]
      rcases ih (addSignature sigs row) with ⟨same, others⟩ | ⟨later, member, found⟩
      · -- No later row is for the file, so that this row decides.
        by_cases named : (parseSnapshotSignatureDoc row).snapshotFile = name ∧ name ≠ ""
        · refine .inr ⟨row, List.mem_cons_self, named.1, named.2, ?_⟩
          rw [same, addSignature, named.1]
          simp only [if_neg named.2, AList.lookup_insert]
        · refine .inl ⟨?_, ?_⟩
          · rw [same, addSignature]
            split
            · rfl
            · rename_i nonempty
              exact AList.lookup_insert_ne fun equal => named ⟨equal.symm, equal ▸ nonempty⟩
          · intro other member is
            rcases List.mem_cons.mp member with rfl | member
            · by_contra nonempty
              exact named ⟨is, nonempty⟩
            · exact others other member is
      · exact .inr ⟨later, List.mem_cons_of_mem _ member, found⟩

/-- What the map holds for a file, if the query succeeds: nothing without a document of
that file, and otherwise the parsed form of one of them. -/
theorem lookup_querySnapshotSignatures {snapshotSigCollection : String}
    (resolved : snapshotSigCollection ≠ "") (docs : List SignatureDoc) (type : ListType)
    (order : RowOrder) :
    ∃ sigs, querySnapshotSignatures snapshotSigCollection docs (.rows type order) = .ok sigs ∧
      ∀ name, name ≠ "" →
        (sigs.lookup name = none ∧ ∀ doc ∈ docs, doc.file ≠ name) ∨
          ∃ doc ∈ docs, doc.file = name ∧
            sigs.lookup name = some (parseSnapshotSignatureDoc (type.renderRow doc.row)) := by
  refine ⟨_, by rw [querySnapshotSignatures, if_neg resolved]; rfl, fun name nonempty => ?_⟩
  have found := lookup_foldl_addSignature
    ((order.arrange docs).map fun doc => type.renderRow doc.row) ∅ name
  rcases found with ⟨same, others⟩ | ⟨row, member, is, _, found⟩
  · refine .inl ⟨same, fun doc member is => nonempty ?_⟩
    refine others _ (List.mem_map.mpr ⟨doc, (order.perm docs).mem_iff.mpr member, rfl⟩) ?_
    rw [parse_snapshotFile, is]
  · obtain ⟨doc, arranged, rfl⟩ := List.mem_map.mp member
    rw [parse_snapshotFile] at is
    exact .inr ⟨doc, (order.perm docs).mem_iff.mp arranged, is, found⟩

end ShinzoGenerator.Snapshot
