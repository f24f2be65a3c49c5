import Mathlib.Algebra.Order.BigOperators.Group.List
import Mathlib.Data.List.Sort
import ShinzoGenerator.Pruner.IndexerQueue

/-! The queue loses and invents no document: what was tracked is what was drained
together with what is still queued, over any mix of operations. -/

set_option autoImplicit false

namespace ShinzoGenerator.Pruner

open KeyedLists

/-! ### Packing docIDs -/

/-- The prefix, then a lowercase UUID with its hyphens. -/
def CanonicalDocID (docID : String) : Prop :=
  ∃ first second third fourth fifth : List Char,
    docID.toList = "bae-".toList ++
      (first ++ '-' :: (second ++ '-' :: (third ++ '-' :: (fourth ++ '-' :: fifth)))) ∧
    first.length = 8 ∧ second.length = 4 ∧ third.length = 4 ∧ fourth.length = 4 ∧
    fifth.length = 12 ∧ Hex.Lower (first ++ (second ++ (third ++ (fourth ++ fifth))))

theorem UUID.bytes_copy {bytes : List UInt8} (size : bytes.length = uuidSize) :
    (UUID.copy bytes).bytes = bytes := List.take_left' size

theorem UUID.copy_take (uuid : UUID) (rest : List UInt8) :
    UUID.copy ((uuid.bytes ++ rest).take uuidSize) = uuid := by
  rw [List.take_left' uuid.size]
  have same := UUID.bytes_copy uuid.size
  cases uuid
  exact (UUID.mk.injEq ..).mpr same

private theorem filter_hyphen {text : List Char} (lower : Hex.Lower text) :
    text.filter (· ≠ '-') = text := by
  rw [List.filter_eq_self]
  intro char member
  have hyphen : '-' ∉ Hex.lowerDigits := by decide
  exact decide_eq_true fun same => hyphen (same ▸ lower char member)

/-- A canonical docID is packed without loss. -/
theorem CanonicalDocID.extractUUID {docID : String} (canonical : CanonicalDocID docID) :
    ∃ uuid, Pruner.extractUUID docID = .ok uuid ∧ restoreDocID uuid = docID := by
  obtain ⟨first, second, third, fourth, fifth, spelled, firstSize, secondSize, thirdSize,
    fourthSize, fifthSize, lower⟩ := canonical
  have size : (first ++ (second ++ (third ++ (fourth ++ fifth)))).length = 32 := by
    simp only [List.length_append]
    omega
  obtain ⟨bytes, decoded, encoded⟩ := Hex.decode_of_lower lower (by omega)
  have bytesSize : bytes.length = uuidSize := by
    have both := Hex.length_encode bytes
    rw [encoded, size] at both
    simp only [uuidSize]
    omega
  simp only [Hex.lower_append] at lower
  obtain ⟨firstLower, secondLower, thirdLower, fourthLower, fifthLower⟩ := lower
  refine ⟨UUID.copy bytes, ?_, ?_⟩
  · have clean : (first ++ '-' :: (second ++ '-' :: (third ++ '-' :: (fourth ++ '-' :: fifth)))).filter
        (· ≠ '-') = first ++ (second ++ (third ++ (fourth ++ fifth))) := by
      simp only [List.filter_append, List.filter_cons, filter_hyphen firstLower,
        filter_hyphen secondLower, filter_hyphen thirdLower, filter_hyphen fourthLower,
        filter_hyphen fifthLower, ne_eq, not_true_eq_false, decide_false, Bool.false_eq_true,
        if_false]
    have after : docID.toList.dropWhile (· ≠ '-') =
        '-' :: (first ++ '-' :: (second ++ '-' :: (third ++ '-' :: (fourth ++ '-' :: fifth)))) := by
      rw [spelled]
      rfl
    have sized : ¬ (first ++ (second ++ (third ++ (fourth ++ fifth)))).length ≠
        uuidHexWithoutHyphensLen := not_not.mpr size
    simp only [Pruner.extractUUID, after, parseUUIDHex, String.toList_ofList, clean, if_neg sized,
      decoded]
  · have written : Hex.encode (UUID.copy bytes).bytes =
        first ++ (second ++ (third ++ (fourth ++ fifth))) := by
      rw [UUID.bytes_copy bytesSize, encoded]
    have dropped8 : (first ++ (second ++ (third ++ (fourth ++ fifth)))).drop 8 =
        second ++ (third ++ (fourth ++ fifth)) := List.drop_left' firstSize
    have dropped12 : (first ++ (second ++ (third ++ (fourth ++ fifth)))).drop 12 =
        third ++ (fourth ++ fifth) := by
      rw [← List.drop_drop (i := 4) (j := 8), dropped8, List.drop_left' secondSize]
    have dropped16 : (first ++ (second ++ (third ++ (fourth ++ fifth)))).drop 16 =
        fourth ++ fifth := by
      rw [← List.drop_drop (i := 4) (j := 12), dropped12, List.drop_left' thirdSize]
    have dropped20 : (first ++ (second ++ (third ++ (fourth ++ fifth)))).drop 20 = fifth := by
      rw [← List.drop_drop (i := 4) (j := 16), dropped16, List.drop_left' fourthSize]
    rw [← String.toList_inj, spelled]
    simp only [restoreDocID, formatUUID, written, docIDPrefix, dropped8, dropped12, dropped16,
      dropped20, List.take_left' firstSize, List.take_left' secondSize, List.take_left' thirdSize,
      List.take_left' fourthSize, String.toList_append, String.toList_ofList, List.append_assoc,
      List.cons_append]
    rfl

@[simp] theorem unpackDocIDs_nil : unpackDocIDs [] = [] := rfl

theorem unpackDocIDs_append (uuid : UUID) (rest : List UInt8) :
    unpackDocIDs (uuid.bytes ++ rest) = restoreDocID uuid :: unpackDocIDs rest := by
  have count : (uuid.bytes ++ rest).length / uuidSize = rest.length / uuidSize + 1 := by
    rw [List.length_append, uuid.size, Nat.add_div_left _ (by decide)]
  have later : ∀ i : Nat, (uuid.bytes ++ rest).drop ((i + 1) * uuidSize) = rest.drop (i * uuidSize) := by
    intro i
    rw [Nat.succ_mul, Nat.add_comm, ← List.drop_drop, List.drop_left' uuid.size]
  rw [unpackDocIDs, count, List.range_succ_eq_map, List.map_cons, List.map_map, Nat.zero_mul,
    List.drop_zero, UUID.copy_take]
  simp only [Function.comp_def, later, unpackDocIDs]

/-- Canonical docIDs come back from their packed form in their order. -/
theorem packDocIDs_canonical {ids : List String} (canonical : ∀ id ∈ ids, CanonicalDocID id) :
    ∃ packed, packDocIDs ids = .ok packed ∧ unpackDocIDs packed = ids := by
  induction ids with
  | nil => exact ⟨[], rfl, rfl⟩
  | cons id ids ih =>
      obtain ⟨uuid, extracted, restored⟩ := (canonical id List.mem_cons_self).extractUUID
      obtain ⟨packed, rest, unpacked⟩ :=
        ih fun other member => canonical other (List.mem_cons_of_mem _ member)
      refine ⟨uuid.bytes ++ packed, ?_, ?_⟩
      · rw [packDocIDs, extracted, rest]
        rfl
      · rw [unpackDocIDs_append, restored, unpacked]

/-! ### Tracking a block -/

/-- The pairs of a list of map entries. -/
def entryPairs {β : Type} (view : β → List String) (entries : List (Sigma fun _ : String => β)) :
    Multiset (String × String) :=
  (entries.map fun entry => pairsAt entry.1 (view entry.2)).sum

theorem pairs_eq_entryPairs {β : Type} (view : β → List String)
    (groups : AList (fun _ : String => β)) : pairs view groups = entryPairs view groups.entries := by
  rw [pairs, entryPairs]
  induction groups.entries with
  | nil => rfl
  | cons entry entries ih =>
      rw [List.flatMap_cons, List.map_cons, List.sum_cons, ← ih, ← Multiset.coe_add]
      rfl

theorem packOthers_canonical {entries : List (Sigma fun _ : String => List String)}
    (distinct : entries.NodupKeys)
    (canonical : ∀ entry ∈ entries, ∀ id ∈ entry.2, CanonicalDocID id)
    {packed : AList (fun _ : String => List UInt8)} (fresh : ∀ key ∈ entries.keys, key ∉ packed) :
    ∃ result, packOthers entries packed = .ok result ∧
      pairs unpackDocIDs result = pairs unpackDocIDs packed + entryPairs id entries ∧
      ∀ key ∈ result, key ∈ packed ∨ key ∈ entries.keys := by
  induction entries generalizing packed with
  | nil => exact ⟨packed, rfl, (add_zero _).symm, fun _ member => .inl member⟩
  | cons entry entries ih =>
      obtain ⟨colName, docIDs⟩ := entry
      obtain ⟨unseen, distinctRest⟩ := List.nodupKeys_cons.mp distinct
      have canonicalRest : ∀ entry ∈ entries, ∀ id ∈ entry.2, CanonicalDocID id :=
        fun entry member => canonical entry (List.mem_cons_of_mem _ member)
      have freshRest : ∀ key ∈ entries.keys, key ∉ packed :=
        fun key member => fresh key (List.mem_cons_of_mem _ member)
      by_cases empty : docIDs = []
      · obtain ⟨result, rest, same, keys⟩ := ih distinctRest canonicalRest freshRest
        refine ⟨result, ?_, ?_, fun key member => (keys key member).imp_right (.tail _)⟩
        · rw [packOthers, if_pos empty, rest]
        · simp [same, entryPairs, empty]
      · obtain ⟨bytes, bytesPacked, unpacked⟩ :=
          packDocIDs_canonical (canonical ⟨colName, docIDs⟩ List.mem_cons_self)
        have held : bytes ≠ [] := by
          rintro rfl
          exact empty unpacked.symm
        have absent : colName ∉ packed := fresh colName List.mem_cons_self
        have freshInserted : ∀ key ∈ entries.keys, key ∉ packed.insert colName bytes := by
          intro key member inserted
          rcases (AList.mem_insert _).mp inserted with rfl | old
          · exact unseen member
          · exact freshRest key member old
        obtain ⟨result, rest, same, keys⟩ := ih distinctRest canonicalRest freshInserted
        refine ⟨result, ?_, ?_, ?_⟩
        · rw [packOthers, if_neg empty, bytesPacked]
          simp only [if_neg held]
          exact rest
        · rw [same, pairs_insert_fresh absent, unpacked]
          simp only [entryPairs, List.map_cons, List.sum_cons, id_eq]
          rw [add_comm (pairsAt colName docIDs), add_assoc]
        · intro key member
          rcases keys key member with inserted | listed
          · rcases (AList.mem_insert _).mp inserted with rfl | old
            · exact .inr List.mem_cons_self
            · exact .inl old
          · exact .inr (List.mem_cons_of_mem _ listed)

/-- The documents a call tracks, under the names of their collections. -/
def trackedDocs (names : CollectionNames) (blockDocID : String)
    (otherDocIDs : AList (fun _ : String => List String)) (batchSigID : String) :
    Multiset (String × String) :=
  {(names.block, blockDocID)} + pairs id otherDocIDs +
    if batchSigID ≠ "" then {(names.blockSignature, batchSigID)} else 0

/-- Canonical docIDs throughout, and none of the other collections is the block collection. -/
structure CanonicalBlock (names : CollectionNames) (blockDocID : String)
    (otherDocIDs : AList (fun _ : String => List String)) (batchSigID : String) : Prop where
  block : CanonicalDocID blockDocID
  others : ∀ entry ∈ otherDocIDs.entries, ∀ id ∈ entry.2, CanonicalDocID id
  signature : batchSigID = "" ∨ CanonicalDocID batchSigID
  foreign : names.block ∉ otherDocIDs

theorem CanonicalDocID.nonempty {docID : String} (canonical : CanonicalDocID docID) : docID ≠ "" := by
  rintro rfl
  obtain ⟨_, _, _, _, _, spelled, _⟩ := canonical
  cases spelled

theorem CanonicalDocID.optionalUUID {docID : String} (canonical : CanonicalDocID docID)
    (field : String) :
    ∃ uuid, Pruner.optionalUUID field docID = .ok uuid ∧ restoreDocID uuid = docID := by
  obtain ⟨uuid, extracted, restored⟩ := canonical.extractUUID
  refine ⟨uuid, ?_, restored⟩
  rw [Pruner.optionalUUID, if_neg canonical.nonempty, extracted]

/-- Canonical docIDs are tracked as they are. -/
theorem newEntry_tracks (names : CollectionNames) (blockNumber : Int) {blockDocID : String}
    {otherDocIDs : AList (fun _ : String => List String)} {batchSigID : String}
    (block : CanonicalDocID blockDocID)
    (others : ∀ entry ∈ otherDocIDs.entries, ∀ id ∈ entry.2, CanonicalDocID id)
    (signature : batchSigID = "" ∨ CanonicalDocID batchSigID) :
    ∃ entry, newEntry blockNumber blockDocID otherDocIDs batchSigID = .ok entry ∧
      entry.docs names = trackedDocs names blockDocID otherDocIDs batchSigID ∧
      entry.blockNumber = blockNumber ∧ ∀ key ∈ entry.otherDocIDs, key ∈ otherDocIDs := by
  obtain ⟨blockUUID, blockParsed, blockRestored⟩ := block.optionalUUID "block"
  obtain ⟨packedOthers, packed, same, keys⟩ :=
    packOthers_canonical otherDocIDs.nodupKeys others (fun key _ => AList.notMem_empty key)
  have own : ∀ key ∈ packedOthers, key ∈ otherDocIDs := by
    intro key member
    rcases keys key member with empty | listed
    · exact absurd empty (AList.notMem_empty _)
    · exact listed
  have sameOthers : pairs unpackDocIDs packedOthers = pairs id otherDocIDs := by
    rw [same, pairs_empty, zero_add, pairs_eq_entryPairs]
  have signed : ∃ uuid, optionalUUID "batch sig" batchSigID = .ok uuid ∧
      (batchSigID ≠ "" → restoreDocID uuid = batchSigID) := by
    rcases signature with none | given
    · exact ⟨.zero, by rw [optionalUUID, if_pos none], fun present => absurd none present⟩
    · obtain ⟨uuid, parsed, restored⟩ := given.optionalUUID "batch sig"
      exact ⟨uuid, parsed, fun _ => restored⟩
  obtain ⟨sigUUID, sigParsed, sigRestored⟩ := signed
  refine ⟨_, by rw [newEntry, blockParsed, packed, sigParsed]; rfl, ?_, rfl, own⟩
  by_cases none : batchSigID = ""
  · simp [BlockEntry.docs, trackedDocs, blockRestored, sameOthers, none]
  · simp [BlockEntry.docs, trackedDocs, blockRestored, sameOthers, none, sigRestored none]

theorem newEntry_canonical {names : CollectionNames} {blockNumber : Int} {blockDocID : String}
    {otherDocIDs : AList (fun _ : String => List String)} {batchSigID : String}
    (canonical : CanonicalBlock names blockDocID otherDocIDs batchSigID) :
    ∃ entry, newEntry blockNumber blockDocID otherDocIDs batchSigID = .ok entry ∧
      entry.docs names = trackedDocs names blockDocID otherDocIDs batchSigID ∧
      entry.blockNumber = blockNumber ∧ names.block ∉ entry.otherDocIDs := by
  obtain ⟨entry, built, docs, number, keys⟩ := newEntry_tracks names blockNumber canonical.block
    canonical.others canonical.signature
  exact ⟨entry, built, docs, number, fun member => canonical.foreign (keys _ member)⟩

/-! ### Handing documents out -/

/-- The documents of an entry but its block document. -/
def BlockEntry.otherDocs (names : CollectionNames) (entry : BlockEntry) :
    Multiset (String × String) :=
  pairs unpackDocIDs entry.otherDocIDs +
    if entry.hasBatchSig then {(names.blockSignature, restoreDocID entry.batchSigID)} else 0

theorem BlockEntry.docs_eq (names : CollectionNames) (entry : BlockEntry) :
    entry.docs names = {(names.block, restoreDocID entry.blockDocID)} + entry.otherDocs names := by
  rw [BlockEntry.docs, BlockEntry.otherDocs, add_assoc]

namespace IndexerQueue

theorem pairs_drainOthers (entries : List (Sigma fun _ : String => List UInt8))
    (result : AList (fun _ : String => List String)) :
    pairs id (drainOthers entries result) = pairs id result + entryPairs unpackDocIDs entries := by
  induction entries generalizing result with
  | nil => exact (add_zero _).symm
  | cons entry entries ih =>
      obtain ⟨colName, packed⟩ := entry
      rw [drainOthers, ih]
      simp only [entryPairs, List.map_cons, List.sum_cons]
      split
      · rename_i empty
        rw [empty, pairsAt_nil, zero_add]
      · rw [pairs_append, add_assoc]

theorem mem_drainOthers {entries : List (Sigma fun _ : String => List UInt8)}
    {result : AList (fun _ : String => List String)} {key : String}
    (member : key ∈ drainOthers entries result) : key ∈ result ∨ key ∈ entries.keys := by
  induction entries generalizing result with
  | nil => exact .inl member
  | cons entry entries ih =>
      obtain ⟨colName, packed⟩ := entry
      rw [drainOthers] at member
      rcases ih member with old | listed
      · split at old
        · exact .inl old
        · rcases mem_append.mp old with rfl | old
          · exact .inr List.mem_cons_self
          · exact .inl old
      · exact .inr (List.mem_cons_of_mem _ listed)

theorem pairs_drainEntry (names : CollectionNames) (entry : BlockEntry)
    (result : AList (fun _ : String => List String)) :
    pairs id (drainEntry names.blockSignature result entry) =
      pairs id result + entry.otherDocs names := by
  rw [drainEntry, BlockEntry.otherDocs, pairs_eq_entryPairs unpackDocIDs]
  by_cases signed : entry.hasBatchSig = true
  · rw [if_pos signed, if_pos signed, pairs_append, pairs_drainOthers, pairsAt_singleton, add_assoc]
  · rw [if_neg signed, if_neg signed, pairs_drainOthers, add_zero]

theorem drainEntry_foreign {names : CollectionNames} {entry : BlockEntry}
    {result : AList (fun _ : String => List String)} (entryForeign : names.block ∉ entry.otherDocIDs)
    (resultForeign : names.block ∉ result) :
    names.block ∉ drainEntry names.blockSignature result entry := by
  have others : names.block ∉ drainOthers entry.otherDocIDs.entries result := by
    intro member
    rcases mem_drainOthers member with old | listed
    · exact resultForeign old
    · exact entryForeign listed
  rw [drainEntry]
  split
  · intro member
    rcases mem_append.mp member with same | old
    · exact names.apart same
    · exact others old
  · exact others

theorem pairs_foldl_drainEntry (names : CollectionNames) {drained : List BlockEntry}
    (foreign : ∀ entry ∈ drained, names.block ∉ entry.otherDocIDs)
    {result : AList (fun _ : String => List String)} (resultForeign : names.block ∉ result) :
    pairs id (drained.foldl (drainEntry names.blockSignature) result) =
        pairs id result + (drained.map (BlockEntry.otherDocs names)).sum ∧
      names.block ∉ drained.foldl (drainEntry names.blockSignature) result := by
  induction drained generalizing result with
  | nil => exact ⟨(add_zero _).symm, resultForeign⟩
  | cons entry drained ih =>
      have stepForeign := drainEntry_foreign (foreign entry List.mem_cons_self) resultForeign
      obtain ⟨same, absent⟩ :=
        ih (fun other member => foreign other (List.mem_cons_of_mem _ member)) stepForeign
      refine ⟨?_, absent⟩
      rw [List.foldl_cons, same, pairs_drainEntry, List.map_cons, List.sum_cons, add_assoc]

/-- Every document of the drained entries is handed out, and nothing else. -/
theorem pairs_buildDrainResult (names : CollectionNames) {drained : List BlockEntry}
    (foreign : ∀ entry ∈ drained, names.block ∉ entry.otherDocIDs) :
    pairs id (buildDrainResult drained names).docIDsByCollection =
      (drained.map (BlockEntry.docs names)).sum := by
  obtain ⟨same, absent⟩ := pairs_foldl_drainEntry names foreign (AList.notMem_empty names.block)
  have blocks : pairsAt names.block (drained.map fun entry => restoreDocID entry.blockDocID) =
      (drained.map fun entry =>
        ({(names.block, restoreDocID entry.blockDocID)} : Multiset (String × String))).sum := by
    clear same absent foreign
    induction drained with
    | nil => rfl
    | cons entry drained ih =>
        rw [List.map_cons, List.map_cons, List.sum_cons, ← ih]
        rfl
  have total : (drained.map (BlockEntry.docs names)).sum =
      pairsAt names.block (drained.map fun entry => restoreDocID entry.blockDocID) +
        (drained.map (BlockEntry.otherDocs names)).sum := by
    rw [blocks, ← List.sum_map_add]
    exact congrArg List.sum (List.map_congr_left fun entry _ => entry.docs_eq names)
  rw [buildDrainResult, total]
  by_cases empty : drained = []
  · subst empty
    rfl
  · have written : drained.map (fun entry => restoreDocID entry.blockDocID) ≠ [] ∧
        names.block ≠ "" := ⟨by simpa using empty, names.named⟩
    simp only [if_pos written]
    rw [pairs_insert_fresh absent, same, pairs_empty, zero_add]
    rfl

/-! ### What a drain removes -/

/-- The documents of a list of entries. -/
def docCount (names : CollectionNames) (entries : List BlockEntry) : Nat :=
  Multiset.card (entries.map (BlockEntry.docs names)).sum

theorem card_entryPairs (entries : List (Sigma fun _ : String => List UInt8)) :
    Multiset.card (entryPairs unpackDocIDs entries) =
      (entries.map fun packed => packed.2.length / uuidSize).sum := by
  induction entries with
  | nil => rfl
  | cons entry entries ih =>
      have own : Multiset.card (pairsAt entry.1 (unpackDocIDs entry.2)) =
          entry.2.length / uuidSize := by
        simp [pairsAt, unpackDocIDs]
      rw [entryPairs, List.map_cons, List.sum_cons, Multiset.card_add, own, ← entryPairs, ih,
        List.map_cons, List.sum_cons]

/-- The count a drain accumulates is the number of documents it would hand out. -/
theorem entryDocCount_eq (names : CollectionNames) (entry : BlockEntry) :
    entryDocCount entry = Multiset.card (entry.docs names) := by
  rw [entryDocCount, BlockEntry.docs, pairs_eq_entryPairs, Multiset.card_add, Multiset.card_add,
    card_entryPairs, Multiset.card_singleton]
  by_cases signed : entry.hasBatchSig = true
  · rw [if_pos signed, if_pos signed, Multiset.card_singleton]
  · rw [if_neg signed, if_neg signed, Multiset.card_zero]

@[simp] theorem docCount_nil (names : CollectionNames) : docCount names [] = 0 := rfl

theorem docCount_cons (names : CollectionNames) (entry : BlockEntry) (entries : List BlockEntry) :
    docCount names (entry :: entries) = entryDocCount entry + docCount names entries := by
  rw [docCount, List.map_cons, List.sum_cons, Multiset.card_add, ← entryDocCount_eq, docCount]

/-- The prefix up to `cut` is the shortest one with `excess` documents, or there is none
and `cut` takes everything. -/
def ShortestReaching (names : CollectionNames) (entries : List BlockEntry) (excess : Int)
    (cut : Nat) : Prop :=
  cut ≤ entries.length ∧ (∀ shorter < cut, (docCount names (entries.take shorter) : Int) < excess) ∧
    (excess ≤ docCount names (entries.take cut) ∨ cut = entries.length)

/-- The walk counts from `accumulated` on, so what it still has to reach is the difference. -/
theorem shortestReaching_cutoff (names : CollectionNames) (excess : Int) (entries : List BlockEntry)
    {accumulated : Int} (below : accumulated < excess) (i : Nat) :
    ∃ cut, (cutoff excess entries accumulated i).getD (i + entries.length) = i + cut ∧
      ShortestReaching names entries (excess - accumulated) cut := by
  induction entries generalizing accumulated i with
  | nil => exact ⟨0, rfl, le_rfl, by simp, .inr rfl⟩
  | cons entry entries ih =>
      rw [cutoff]
      by_cases reached : excess ≤ accumulated + entryDocCount entry
      · refine ⟨1, by simp [reached], by simp, ?_, .inl ?_⟩
        · intro shorter small
          have first : shorter = 0 := by omega
          rw [first, List.take_zero, docCount_nil]
          omega
        · rw [List.take_succ_cons, List.take_zero, docCount_cons, docCount_nil]
          omega
      · obtain ⟨cut, found, bounded, shortest, reaching⟩ :=
          @ih (accumulated + entryDocCount entry) (by omega) (i + 1)
        refine ⟨cut + 1, ?_, by simpa using bounded, ?_, ?_⟩
        · simp only [if_neg reached]
          rw [List.length_cons, ← Nat.add_assoc, Nat.add_right_comm, found]
          omega
        · intro shorter small
          cases shorter with
          | zero =>
              rw [List.take_zero, docCount_nil]
              omega
          | succ shorter =>
              have still := shortest shorter (by omega)
              rw [List.take_succ_cons, docCount_cons]
              omega
        · rw [List.take_succ_cons, docCount_cons, List.length_cons]
          omega

/-- One drain of the queue: `removed` are the entries it hands out. -/
structure Drained (names : CollectionNames) (queue : IndexerQueue) (removed : List BlockEntry)
    (result : Option DrainResult) (next : IndexerQueue) : Prop where
  split : queue.entries.Perm (removed ++ next.entries)
  oldest : ∀ gone ∈ removed, ∀ kept ∈ next.entries, gone.blockNumber ≤ kept.blockNumber
  filePath : next.filePath = queue.filePath
  none : result = .none → removed = []
  some : ∀ drained, result = .some drained →
    drained = buildDrainResult removed names ∧ drained.blockCount = removed.length

theorem drained_nothing (names : CollectionNames) (queue : IndexerQueue) :
    Drained names queue [] .none queue :=
  ⟨.refl _, by simp, rfl, fun _ => rfl, by simp⟩

theorem drained_sorted (names : CollectionNames) (queue : IndexerQueue) (sorter : EntrySorter)
    (cut : Nat) :
    Drained names queue ((sorter.sort queue.entries).take cut)
      (.some (buildDrainResult ((sorter.sort queue.entries).take cut) names))
      { queue with entries := (sorter.sort queue.entries).drop cut } where
  split := by
    rw [List.take_append_drop]
    exact (sorter.perm queue.entries).symm
  oldest := by
    have ordered := sorter.ordered queue.entries
    rw [← List.take_append_drop cut (sorter.sort queue.entries)] at ordered
    exact (List.pairwise_append.mp ordered).2.2
  filePath := rfl
  none := by simp
  some := by
    intro drained same
    cases same
    exact ⟨rfl, rfl⟩

/-- A drain that returns removes the entries above `keep`, the oldest ones. -/
theorem drain_spec {names : CollectionNames} {queue next : IndexerQueue} {sorter : EntrySorter}
    {keep : Int} {result : Option DrainResult}
    (returned : queue.drain sorter keep names = .some (result, next)) :
    ∃ removed, Drained names queue removed result next ∧
      (removed.length : Int) = max 0 (queue.entries.length - keep) := by
  rw [drain] at returned
  split at returned
  · rename_i enough
    cases returned
    refine ⟨[], drained_nothing names queue, ?_⟩
    rw [List.length_nil]
    omega
  · rename_i surplus
    split at returned
    · cases returned
    · rename_i nonnegative
      cases returned
      refine ⟨_, drained_sorted names queue sorter _, ?_⟩
      rw [List.length_take, (sorter.perm queue.entries).length_eq]
      omega

/-- Only a negative `keep` stops a drain from returning. -/
theorem drain_returns_iff {names : CollectionNames} {queue : IndexerQueue} {sorter : EntrySorter}
    {keep : Int} : (queue.drain sorter keep names).isSome = true ↔ 0 ≤ keep := by
  rw [drain]
  split
  · rename_i enough
    simp only [Option.isSome_some, true_iff]
    omega
  · split
    · rename_i negative
      simp [negative]
    · rename_i nonnegative
      simpa using nonnegative

theorem drainByDocCount_spec {names : CollectionNames} {queue next : IndexerQueue}
    {sorter : EntrySorter} {excess : Int} {result : Option DrainResult}
    (returned : queue.drainByDocCount sorter excess names = (result, next)) :
    ∃ ordered cut, queue.entries.Perm ordered ∧
      ordered.Pairwise (fun first second => first.blockNumber ≤ second.blockNumber) ∧
      ShortestReaching names ordered excess cut ∧
      Drained names queue (ordered.take cut) result next := by
  have total : ShortestReaching names (sorter.sort queue.entries) excess 0 ↔
      queue.entries = [] ∨ excess ≤ 0 := by
    rw [ShortestReaching, List.take_zero, docCount_nil, eq_comm (a := 0), List.length_eq_zero_iff]
    have empty : sorter.sort queue.entries = [] ↔ queue.entries = [] :=
      ⟨fun none => List.perm_nil.mp (none ▸ (sorter.perm queue.entries).symm),
        fun none => List.perm_nil.mp (none ▸ sorter.perm queue.entries)⟩
    rw [empty]
    simp [or_comm]
  refine ⟨sorter.sort queue.entries, ?_⟩
  rw [drainByDocCount] at returned
  split at returned
  · rename_i nothing
    cases returned
    refine ⟨0, (sorter.perm _).symm, sorter.ordered _, total.mpr nothing, ?_⟩
    exact drained_nothing names queue
  · rename_i something
    cases returned
    have positive : 0 < excess := by
      rw [not_or] at something
      omega
    obtain ⟨cut, found, shortest⟩ :=
      shortestReaching_cutoff names excess (sorter.sort queue.entries) positive 0
    rw [Nat.zero_add, Nat.zero_add] at found
    rw [sub_zero] at shortest
    rw [found]
    exact ⟨cut, (sorter.perm _).symm, sorter.ordered _, shortest, drained_sorted names queue sorter cut⟩

theorem docs_perm {names : CollectionNames} {first second : List BlockEntry}
    (same : first.Perm second) :
    (first.map (BlockEntry.docs names)).sum = (second.map (BlockEntry.docs names)).sum :=
  (same.map _).sum_eq

/-- The documents a drain hands out. -/
def handedOut (result : Option DrainResult) : Multiset (String × String) :=
  match result with
  | .none => 0
  | .some drained => pairs id drained.docIDsByCollection

/-- A drain moves documents from the queue to its result. -/
theorem Drained.docs_eq {names : CollectionNames} {queue next : IndexerQueue}
    {removed : List BlockEntry} {result : Option DrainResult}
    (drained : Drained names queue removed result next)
    (foreign : ∀ entry ∈ queue.entries, names.block ∉ entry.otherDocIDs) :
    queue.docs names = handedOut result + next.docs names := by
  have removedForeign : ∀ entry ∈ removed, names.block ∉ entry.otherDocIDs := fun entry member =>
    foreign entry (drained.split.mem_iff.mpr (List.mem_append_left _ member))
  have handed : handedOut result = (removed.map (BlockEntry.docs names)).sum := by
    cases result with
    | none =>
        rw [drained.none rfl]
        rfl
    | some given =>
        rw [handedOut, (drained.some given rfl).1, pairs_buildDrainResult names removedForeign]
  rw [handed, docs, docs, docs_perm drained.split, List.map_append, List.sum_append]

end IndexerQueue

end ShinzoGenerator.Pruner
