import Mathlib.Algebra.BigOperators.Group.List.Basic
import Mathlib.Data.List.Sort
import ShinzoGenerator.Lib.Hex
import ShinzoGenerator.Lib.KeyedLists

/-! The pruner's queue: one entry per stored block, with the docIDs of its documents
packed as raw UUIDs, and the file the queue is kept in between runs. -/

set_option autoImplicit false

namespace ShinzoGenerator.Pruner

open KeyedLists

/-! ### UUIDs -/

def uuidSize : Nat := 16
def uuidHexWithoutHyphensLen : Nat := 32
def indexerQueueGobVersion : Int := 1
def docIDPrefix : String := "bae"

/-- A byte array of fixed size. -/
structure UUID where
  bytes : List UInt8
  size : bytes.length = uuidSize
deriving DecidableEq

def UUID.zero : UUID := ⟨List.replicate uuidSize 0, List.length_replicate⟩

/-- What a slice leaves in a zeroed array it is copied into. -/
def UUID.copy (bytes : List UInt8) : UUID :=
  ⟨(bytes ++ List.replicate uuidSize 0).take uuidSize, by simp⟩

/-- Parses a UUID with hyphens into its raw bytes. -/
def parseUUIDHex (uuidStr : String) : Except String UUID :=
  let clean := uuidStr.toList.filter (· ≠ '-')
  if clean.length ≠ uuidHexWithoutHyphensLen then .error ("invalid UUID: " ++ uuidStr)
  else
    match Hex.decode clean with
    | none => .error "encoding/hex: invalid byte"
    | some bytes => .ok (UUID.copy bytes)

/-- The UUID after the first hyphen of a docID; what stands before it is not looked at. -/
def extractUUID (docID : String) : Except String UUID :=
  match docID.toList.dropWhile (· ≠ '-') with
  | [] => .error ("invalid docID format: " ++ docID)
  | _ :: after => parseUUIDHex (String.ofList after)

def formatUUID (uuid : UUID) : String :=
  let digits := Hex.encode uuid.bytes
  String.ofList (digits.take 8 ++ '-' :: (digits.drop 8).take 4 ++ '-' :: (digits.drop 12).take 4 ++
    '-' :: (digits.drop 16).take 4 ++ '-' :: digits.drop 20)

def restoreDocID (uuid : UUID) : String := docIDPrefix ++ "-" ++ formatUUID uuid

/-- Sixteen bytes per docID. -/
def packDocIDs : List String → Except String (List UInt8)
  | [] => .ok []
  | id :: ids => do
      let uuid ← extractUUID id
      let packed ← packDocIDs ids
      .ok (uuid.bytes ++ packed)

def unpackDocIDs (packed : List UInt8) : List String :=
  (List.range (packed.length / uuidSize)).map fun i =>
    restoreDocID (UUID.copy ((packed.drop (i * uuidSize)).take uuidSize))

/-! ### Entries -/

/-- The names under which the chain's collections are known. -/
structure CollectionNames where
  block : String
  blockSignature : String
  named : block ≠ ""
  apart : block ≠ blockSignature

/-- All document ids created for a single block. -/
structure BlockEntry where
  blockNumber : Int
  blockDocID : UUID := .zero
  otherDocIDs : AList (fun _ : String => List UInt8) := ∅
  batchSigID : UUID := .zero
  hasBatchSig : Bool := false
deriving DecidableEq

/-- The documents an entry stands for, under the names of their collections. -/
def BlockEntry.docs (names : CollectionNames) (entry : BlockEntry) : Multiset (String × String) :=
  {(names.block, restoreDocID entry.blockDocID)} + pairs unpackDocIDs entry.otherDocIDs +
    if entry.hasBatchSig then {(names.blockSignature, restoreDocID entry.batchSigID)} else 0

/-- The other collections of a block, packed one after the other. -/
def packOthers : List (Sigma fun _ : String => List String) →
    AList (fun _ : String => List UInt8) → Except String (AList (fun _ : String => List UInt8))
  | [], packed => .ok packed
  | ⟨colName, docIDs⟩ :: rest, packed =>
      if docIDs = [] then packOthers rest packed
      else
        match packDocIDs docIDs with
        | .error text => .error ("invalid docID for " ++ colName ++ ": " ++ text)
        | .ok bytes => packOthers rest (if bytes = [] then packed else packed.insert colName bytes)

/-- An optional docID of an entry; `field` is what its error is wrapped in. -/
def optionalUUID (field docID : String) : Except String UUID :=
  if docID = "" then .ok .zero
  else
    match extractUUID docID with
    | .error text => .error ("invalid " ++ field ++ " docID: " ++ text)
    | .ok uuid => .ok uuid

def newEntry (blockNumber : Int) (blockDocID : String)
    (otherDocIDs : AList (fun _ : String => List String)) (batchSigID : String) :
    Except String BlockEntry := do
  let blockUUID ← optionalUUID "block" blockDocID
  let others ← packOthers otherDocIDs.entries ∅
  let batchSigUUID ← optionalUUID "batch sig" batchSigID
  .ok
    { blockNumber
      blockDocID := blockUUID
      otherDocIDs := others
      batchSigID := batchSigUUID
      hasBatchSig := batchSigID ≠ "" }

/-- Block document, other documents and signature. -/
def entryDocCount (entry : BlockEntry) : Nat :=
  1 + (entry.otherDocIDs.entries.map fun packed => packed.2.length / uuidSize).sum +
    if entry.hasBatchSig then 1 else 0

/-! ### The queue -/

/-- Documents grouped by collection, ready for deletion. -/
structure DrainResult where
  docIDsByCollection : AList (fun _ : String => List String)
  blockCount : Nat

structure IndexerQueue where
  entries : List BlockEntry := []
  filePath : String := ""
deriving DecidableEq

/-- A sort by block number that may put entries of one number in any order. -/
structure EntrySorter where
  sort : List BlockEntry → List BlockEntry
  perm : ∀ entries, (sort entries).Perm entries
  ordered : ∀ entries, (sort entries).Pairwise fun first second =>
    first.blockNumber ≤ second.blockNumber

/-- A sort that keeps entries of one number in their order. -/
def EntrySorter.insertion : EntrySorter where
  sort := List.insertionSort fun first second => first.blockNumber ≤ second.blockNumber
  perm := List.perm_insertionSort _
  ordered := by
    intro entries
    have total : Std.Total fun first second : BlockEntry =>
        first.blockNumber ≤ second.blockNumber := ⟨fun _ _ => le_total _ _⟩
    have trans : IsTrans BlockEntry fun first second =>
        first.blockNumber ≤ second.blockNumber := ⟨fun _ _ _ => le_trans⟩
    exact List.pairwise_insertionSort _ entries

namespace IndexerQueue

def docs (names : CollectionNames) (queue : IndexerQueue) : Multiset (String × String) :=
  (queue.entries.map (BlockEntry.docs names)).sum

/-- Adds a block's docIDs to the queue, or reports the first docID that has no UUID. -/
def trackBlockDocIDs (queue : IndexerQueue) (blockNumber : Int) (blockDocID : String)
    (otherDocIDs : AList (fun _ : String => List String)) (batchSigID : String) :
    Except String IndexerQueue := do
  let entry ← newEntry blockNumber blockDocID otherDocIDs batchSigID
  .ok { queue with entries := queue.entries ++ [entry] }

/-- The other collections of a drained entry. -/
def drainOthers : List (Sigma fun _ : String => List UInt8) →
    AList (fun _ : String => List String) → AList (fun _ : String => List String)
  | [], result => result
  | ⟨colName, packed⟩ :: rest, result =>
      let ids := unpackDocIDs packed
      drainOthers rest (if ids = [] then result else append result colName ids)

/-- A drained entry less its block document. -/
def drainEntry (blockSigCollectionName : String) (result : AList (fun _ : String => List String))
    (entry : BlockEntry) : AList (fun _ : String => List String) :=
  let others := drainOthers entry.otherDocIDs.entries result
  if entry.hasBatchSig then
    append others blockSigCollectionName [restoreDocID entry.batchSigID]
  else others

/-- The block documents are assigned last, over whatever stands under their name. -/
def buildDrainResult (drained : List BlockEntry) (names : CollectionNames) : DrainResult :=
  let blockIDs := drained.map fun entry => restoreDocID entry.blockDocID
  let others := drained.foldl (drainEntry names.blockSignature) ∅
  { docIDsByCollection :=
      if blockIDs ≠ [] ∧ names.block ≠ "" then others.insert names.block blockIDs else others
    blockCount := drained.length }

/-- Removes the oldest entries but the last `keep`; a negative `keep` panics when the
remaining entries are allocated. -/
def drain (queue : IndexerQueue) (sorter : EntrySorter) (keep : Int) (names : CollectionNames) :
    Option (Option DrainResult × IndexerQueue) :=
  if (queue.entries.length : Int) ≤ keep then some (none, queue)
  else if keep < 0 then none
  else
    let entries := sorter.sort queue.entries
    let drainCount := entries.length - keep.toNat
    some (some (buildDrainResult (entries.take drainCount) names),
      { queue with entries := entries.drop drainCount })

/-- The number of entries after which the count reaches `excess`, if it does. -/
def cutoff (excess : Int) : List BlockEntry → Int → Nat → Option Nat
  | [], _, _ => none
  | entry :: entries, docsAccumulated, i =>
      let total := docsAccumulated + entryDocCount entry
      if excess ≤ total then some (i + 1) else cutoff excess entries total (i + 1)

/-- Removes the oldest entries until they hold `excess` documents. -/
def drainByDocCount (queue : IndexerQueue) (sorter : EntrySorter) (excess : Int)
    (names : CollectionNames) : Option DrainResult × IndexerQueue :=
  if queue.entries = [] ∨ excess ≤ 0 then (none, queue)
  else
    let entries := sorter.sort queue.entries
    let drainCount := (cutoff excess entries 0 0).getD entries.length
    (some (buildDrainResult (entries.take drainCount) names),
      { queue with entries := entries.drop drainCount })

end IndexerQueue

/-! ### The queue file -/

/-- The serializable form of the queue. -/
structure IndexerQueueSnapshot where
  version : Int
  docIDPrefix : String
  entries : List BlockEntry
deriving DecidableEq

/-- The files by their paths. -/
abbrev Files := AList (fun _ : String => IndexerQueueSnapshot)

namespace IndexerQueue

/-- An empty queue removes its file; a queue without a path keeps nothing. -/
def save (queue : IndexerQueue) (files : Files) : Files :=
  if queue.filePath = "" then files
  else if queue.entries = [] then files.erase queue.filePath
  else files.insert queue.filePath
    { version := indexerQueueGobVersion, docIDPrefix, entries := queue.entries }

/-- A missing file and a file of another version leave the entries as they are. -/
def loadFromFile (queue : IndexerQueue) (files : Files) (path : String) : IndexerQueue :=
  match files.lookup path with
  | none => { queue with filePath := path }
  | some snap =>
      if snap.version ≠ indexerQueueGobVersion then { queue with filePath := path }
      else { entries := snap.entries, filePath := path }

end IndexerQueue

end ShinzoGenerator.Pruner
