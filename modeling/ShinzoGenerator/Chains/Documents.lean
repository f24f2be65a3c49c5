import Mathlib.Data.Rat.Init
import ShinzoGenerator.Lib.SoftStore

/-! Documents as the converters produce them and the database keeps them.
A document is a map from field names to values inside one collection. -/

set_option autoImplicit false

namespace ShinzoGenerator.Chains

/-- The collections of a chain, in the order `AllCollections` registers them. -/
inductive Collection where
  | block
  | blockSignature
  | snapshotSignature
  | transaction
  | accessListEntry
  | log
deriving DecidableEq, Repr

def allCollections : List Collection :=
  [.block, .blockSignature, .snapshotSignature, .transaction, .accessListEntry, .log]

/-- The collection name after the chain's name and its two underscores. -/
def Collection.suffix : Collection → String
  | .block => "Block"
  | .blockSignature => "BlockSignature"
  | .snapshotSignature => "SnapshotSignature"
  | .transaction => "Transaction"
  | .accessListEntry => "AccessListEntry"
  | .log => "Log"

/-- The dynamic values a document field can hold. -/
inductive Value where
  | int64 (value : Int)
  | int (value : Int)
  | float64 (value : Rat)
  | string (value : String)
  | strings (values : List String)
  | bool (value : Bool)
  | null
deriving DecidableEq

def numberFieldName : String := "number"
def blockNumberFieldName : String := "blockNumber"
def hashFieldName : String := "hash"
def parentHashFieldName : String := "parentHash"
def blockIDFieldName : String := "_blockID"
def transactionIDFieldName : String := "_transactionID"

abbrev Fields := List (String × Value)

/-- A type assertion on a field: the string there, if it is one. -/
def stringField? (fields : Fields) (name : String) : Option String :=
  match fields.lookup name with
  | some (.string value) => some value
  | _ => none

/-- The fields that no link stamper touches. -/
def withoutLinks (fields : Fields) : Fields :=
  fields.filter fun field => field.1 ≠ blockIDFieldName ∧ field.1 ≠ transactionIDFieldName

/-- Two documents that differ at most in their links. -/
def SameContent (before after : Fields) : Prop := withoutLinks after = withoutLinks before

instance (before after : Fields) : Decidable (SameContent before after) :=
  inferInstanceAs (Decidable (withoutLinks after = withoutLinks before))

/-- `toInt64` accepts the integer kinds and truncates a float. -/
def toInt64? : Option Value → Option Int
  | some (.int64 value) => some value
  | some (.int value) => some value
  | some (.float64 value) => some (value.num.tdiv value.den)
  | _ => none

/-- A batch of documents destined for a single collection. -/
structure DocumentGroup where
  collection : Collection
  docs : List Fields
  batchSize : Nat := 0
  blockNumField : String
  blockHashField : String := ""
  parentHashField : String := ""
deriving DecidableEq

/-- The converter's output, less the link stamper. -/
structure ConversionResult where
  groups : List DocumentGroup := []
  signatureCollection : Collection := .blockSignature
deriving DecidableEq

def extractField (field : DocumentGroup → String) : List DocumentGroup → String
  | [] => ""
  | group :: groups =>
      match group.docs with
      | doc :: _ =>
          if field group ≠ "" then
            match stringField? doc (field group) with
            | some hash => hash
            | none => extractField field groups
          else extractField field groups
      | [] => extractField field groups

def extractBlockHash (groups : List DocumentGroup) : String :=
  extractField (·.blockHashField) groups

def extractBlockParentHash (groups : List DocumentGroup) : String :=
  extractField (·.parentHashField) groups

/-- A stored document. Its content is its identity, so it is its own docID. -/
structure Doc where
  collection : Collection
  fields : Fields
deriving DecidableEq

/-- The stored document is the given one, whatever its links are. -/
def Doc.CopyOf (stored doc : Doc) : Prop :=
  stored.collection = doc.collection ∧ SameContent doc.fields stored.fields

instance (stored doc : Doc) : Decidable (stored.CopyOf doc) :=
  inferInstanceAs (Decidable (_ ∧ _))

/-- The field the range queries filter a collection by. -/
def Collection.heightField : Collection → String
  | .block => numberFieldName
  | _ => blockNumberFieldName

def Doc.height? (doc : Doc) : Option Int :=
  toInt64? (doc.fields.lookup doc.collection.heightField)

def Doc.hash (doc : Doc) : String :=
  (stringField? doc.fields hashFieldName).getD ""

/-- Two groups that differ at most in the links of their documents. -/
structure SameGroup (before after : DocumentGroup) : Prop where
  collection : after.collection = before.collection
  docs : List.Forall₂ SameContent before.docs after.docs

theorem SameGroup.refl (group : DocumentGroup) : SameGroup group group :=
  ⟨rfl, List.forall₂_same.mpr fun _ _ => rfl⟩

def DocumentGroup.stored (group : DocumentGroup) : List Doc :=
  group.docs.map (⟨group.collection, ·⟩)

/-- The document `storeBlockDoc` writes: the first one of the first group. -/
def ConversionResult.blockDoc? (result : ConversionResult) : Option Doc :=
  match result.groups with
  | [] => none
  | group :: _ => group.stored.head?

end ShinzoGenerator.Chains
