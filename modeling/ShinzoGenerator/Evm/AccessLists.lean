import Mathlib.Data.Set.Function
import ShinzoGenerator.Evm.Converter
import ShinzoGenerator.Lib.FirstOccurrences

/-! The access-list documents of a block: one for each entry that a transaction brings,
in the order of the first occurrences, and no two alike once they are linked. -/

set_option autoImplicit false

namespace ShinzoGenerator.Evm

open Chains Defra FirstOccurrences

/-- The entries of the access lists, each with the hash of its transaction. -/
def occurrences (txs : List (Option Transaction)) : List (String × AccessListEntry) :=
  (txs.filterMap id).flatMap fun tx => tx.accessList.map fun entry => (tx.hash, entry)

def occurrenceKey (occurrence : String × AccessListEntry) : String :=
  aleDocKey occurrence.1 occurrence.2

/-- The occurrences that become documents. -/
def emittedEntries (txs : List (Option Transaction)) : List (String × AccessListEntry) :=
  firsts occurrenceKey [] (occurrences txs)

variable {txs : List (Option Transaction)} {blockInt : Int}

theorem mem_occurrences {occurrence : String × AccessListEntry} :
    occurrence ∈ occurrences txs ↔
      ∃ tx, some tx ∈ txs ∧ tx.hash = occurrence.1 ∧ occurrence.2 ∈ tx.accessList := by
  unfold occurrences
  constructor
  · intro member
    obtain ⟨tx, listed, carried⟩ := List.mem_flatMap.mp member
    obtain ⟨entry, inside, rfl⟩ := List.mem_map.mp carried
    exact ⟨tx, by simpa using listed, rfl, inside⟩
  · rintro ⟨tx, listed, named, inside⟩
    refine List.mem_flatMap.mpr ⟨tx, by simpa using listed, List.mem_map.mpr ⟨_, inside, ?_⟩⟩
    rw [named]

/-! ### The loop -/

theorem foldl_emitTransaction (txs : List (Option Transaction)) (emitted : ALEDocs) :
    txs.foldl (emitTransaction blockInt) emitted =
      (occurrences txs).foldl (fun emitted next => emitALE blockInt next.1 emitted next.2)
        emitted := by
  induction txs generalizing emitted with
  | nil => rfl
  | cons tx txs ih =>
      rw [List.foldl_cons, ih]
      cases tx with
      | none => rfl
      | some tx =>
          have split : occurrences (some tx :: txs) =
            (tx.accessList.map fun entry => (tx.hash, entry)) ++ occurrences txs := rfl
          rw [split, List.foldl_append, List.foldl_map]
          rfl

/-- Behind what is already emitted come the entries with new keys. -/
theorem foldl_emitALE (blockInt : Int) (entries : List (String × AccessListEntry))
    (emitted : ALEDocs) :
    ∃ seen, entries.foldl (fun emitted next => emitALE blockInt next.1 emitted next.2) emitted =
      { docs := emitted.docs ++ (firsts occurrenceKey emitted.seen entries).map
          fun next => buildALEData next.2 blockInt
        parentRefs := emitted.parentRefs ++ (firsts occurrenceKey emitted.seen entries).map (·.1)
        seen } := by
  induction entries generalizing emitted with
  | nil => exact ⟨emitted.seen, by simp [firsts]⟩
  | cons next entries ih =>
      rw [List.foldl_cons]
      unfold firsts emitALE occurrenceKey
      split
      · exact ih emitted
      · obtain ⟨seen, run⟩ := ih
          { docs := emitted.docs ++ [buildALEData next.2 blockInt]
            parentRefs := emitted.parentRefs ++ [next.1]
            seen := aleDocKey next.1 next.2 :: emitted.seen }
        refine ⟨seen, run.trans ?_⟩
        simp only [List.append_assoc, List.singleton_append, List.map_cons]
        rfl

theorem buildALEDocs_eq (txs : List (Option Transaction)) (blockInt : Int) :
    buildALEDocs txs blockInt =
      ((emittedEntries txs).map fun next => buildALEData next.2 blockInt,
        (emittedEntries txs).map (·.1)) := by
  unfold buildALEDocs
  obtain ⟨seen, run⟩ := foldl_emitALE blockInt (occurrences txs) {}
  rw [foldl_emitTransaction, run]
  rfl

theorem buildALEDocs_parallel (txs : List (Option Transaction)) (blockInt : Int) :
    (buildALEDocs txs blockInt).2.length = (buildALEDocs txs blockInt).1.length := by
  rw [buildALEDocs_eq, List.length_map, List.length_map]

/-! ### The key -/

/-- A text that keeps apart from the separators of the key. -/
def Separable (text : String) : Prop := text ≠ "" ∧ '|' ∉ text.toList ∧ ',' ∉ text.toList

instance (text : String) : Decidable (Separable text) :=
  inferInstanceAs (Decidable (_ ∧ _ ∧ _))

def SeparableEntry (occurrence : String × AccessListEntry) : Prop :=
  Separable occurrence.1 ∧ Separable occurrence.2.address ∧
    ∀ key ∈ occurrence.2.storageKeys, Separable key

theorem occurrenceKey_inj {left right : String × AccessListEntry} (solid : SeparableEntry left)
    (alsoSolid : SeparableEntry right) (same : occurrenceKey left = occurrenceKey right) :
    left = right := by
  obtain ⟨hash, address, keys⟩ := left
  obtain ⟨otherHash, otherAddress, otherKeys⟩ := right
  have pieces : ∀ {keys : List String}, (∀ key ∈ keys, Separable key) →
      ∀ piece ∈ keys.map String.toList, piece ≠ [] ∧ ',' ∉ piece := by
    intro keys solid piece member
    obtain ⟨key, inside, rfl⟩ := List.mem_map.mp member
    exact ⟨by simpa using (solid key inside).1, (solid key inside).2.2⟩
  have spelled := congrArg String.toList same
  simp only [occurrenceKey, aleDocKey, String.toList_append, List.append_assoc,
    String.toList_intercalate] at spelled
  obtain ⟨hashes, rest⟩ := TextSearch.append_separator_inj solid.1.2.1 alsoSolid.1.2.1 spelled
  obtain ⟨addresses, joined⟩ :=
    TextSearch.append_separator_inj solid.2.1.2.1 alsoSolid.2.1.2.1 rest
  have listed := TextSearch.intercalate_inj (pieces solid.2.2) (pieces alsoSolid.2.2) joined
  have sameHash : hash = otherHash := String.toList_injective hashes
  have sameAddress : address = otherAddress := String.toList_injective addresses
  have sameKeys : keys = otherKeys := 
    List.map_injective_iff.mpr (fun _ _ => String.toList_injective) listed
  rw [sameHash, sameAddress, sameKeys]

/-! ### The documents -/

/-- At the index stand the hash and a document with the entry's address and keys. -/
def StandsAt (emitted : List Fields × List String) (index : Nat)
    (occurrence : String × AccessListEntry) : Prop :=
  emitted.2[index]? = some occurrence.1 ∧ ∃ doc, emitted.1[index]? = some doc ∧
    doc.lookup addressFieldName = some (.string occurrence.2.address) ∧
    doc.lookup storageKeysFieldName = some (.strings occurrence.2.storageKeys)

theorem standsAt_iff {index : Nat} {occurrence : String × AccessListEntry} :
    StandsAt (buildALEDocs txs blockInt) index occurrence ↔
      (emittedEntries txs)[index]? = some occurrence := by
  unfold StandsAt
  rw [buildALEDocs_eq]
  simp only [List.getElem?_map]
  cases (emittedEntries txs)[index]? with
  | none => simp
  | some next =>
      obtain ⟨hash, address, keys⟩ := next
      obtain ⟨otherHash, otherAddress, otherKeys⟩ := occurrence
      have keysThere : (buildALEData ⟨address, keys⟩ blockInt).lookup storageKeysFieldName =
        some (.strings keys) := rfl
      have addressThere : (buildALEData ⟨address, keys⟩ blockInt).lookup addressFieldName =
        some (.string address) := rfl
      simp [keysThere, addressThere]

theorem emittedEntries_nodup (txs : List (Option Transaction)) : (emittedEntries txs).Nodup :=
  (nodup_map_firsts occurrenceKey [] (occurrences txs)).of_map

theorem mem_emittedEntries (solid : ∀ occurrence ∈ occurrences txs, SeparableEntry occurrence)
    {occurrence : String × AccessListEntry} :
    occurrence ∈ emittedEntries txs ↔ occurrence ∈ occurrences txs :=
  mem_firsts_iff fun left leftIn right rightIn =>
    occurrenceKey_inj (solid left leftIn) (solid right rightIn)

/-! ### After stamping -/

theorem stampEach_accessLists (front refs : List String) {docs : List Fields} {links : EvmLinks}
    (parallel : refs.length = docs.length) :
    stampEach (stampAccessListEntry (front ++ refs) links) front.length docs =
      (List.zipWith (linkTransaction links) refs docs, none) := by
  induction docs generalizing front refs with
  | nil => simp [stampEach]
  | cons doc docs ih =>
      cases refs with
      | nil => cases parallel
      | cons hash refs =>
          have rest := ih (front ++ [hash]) refs (by simpa using parallel)
          rw [List.append_assoc, List.singleton_append, List.length_append,
            List.length_singleton] at rest
          have stamped : stampAccessListEntry (front ++ hash :: refs) links front.length doc =
              .ok (linkTransaction links hash doc) := by
            simp [stampAccessListEntry]
          unfold stampEach
          rw [stamped]
          simp only [rest, List.zipWith_cons_cons]

/-- Two documents that differ in some field. -/
def Apart (left right : Fields) : Prop := ∃ name, left.lookup name ≠ right.lookup name

/-- The document of an entry with the link to its transaction. -/
def linkedALE (blockInt : Int) (assign : String → String)
    (occurrence : String × AccessListEntry) : Fields :=
  buildALEData occurrence.2 blockInt ++
    [(transactionIDFieldName, .string (assign occurrence.1))]

theorem linkTransaction_ale {links : EvmLinks} {hash id : String}
    (recorded : links.txHashToID.lookup hash = some id) (entry : AccessListEntry)
    (blockInt : Int) :
    linkTransaction links hash (buildALEData entry blockInt) =
      buildALEData entry blockInt ++ [(transactionIDFieldName, .string id)] := by
  unfold linkTransaction
  rw [recorded]
  rfl

theorem stamped_accessLists {names : CollectionNames} {links : EvmLinks}
    {assign : String → String}
    (assigned : ∀ tx, some tx ∈ txs → links.txHashToID.lookup tx.hash = some (assign tx.hash)) :
    (evmLinkStamper names (buildALEDocs txs blockInt).2).stampBeforeWrite .accessListEntry
        (buildALEDocs txs blockInt).1 links =
      (links, (emittedEntries txs).map (linkedALE blockInt assign), none) := by
  have stamped : stampEach (stampAccessListEntry (buildALEDocs txs blockInt).2 links) 0
      (buildALEDocs txs blockInt).1 =
      (List.zipWith (linkTransaction links) (buildALEDocs txs blockInt).2
        (buildALEDocs txs blockInt).1, none) :=
    stampEach_accessLists [] _ (buildALEDocs_parallel txs blockInt)
  have linked : List.zipWith (linkTransaction links) (buildALEDocs txs blockInt).2
      (buildALEDocs txs blockInt).1 = (emittedEntries txs).map (linkedALE blockInt assign) := by
    rw [buildALEDocs_eq, List.zipWith_map, List.zipWith_self]
    refine List.map_congr_left fun occurrence member => ?_
    obtain ⟨tx, listed, named, _⟩ :=
      mem_occurrences.mp ((firsts_sublist _ _ _).subset member)
    exact linkTransaction_ale (named ▸ assigned tx listed) occurrence.2 blockInt
  rw [← linked]
  exact congrArg (Prod.mk links) stamped

theorem linkedALE_apart {assign : String → String} {left right : String × AccessListEntry}
    (apart : left.1 ≠ right.1 → assign left.1 ≠ assign right.1) (differ : left ≠ right) :
    Apart (linkedALE blockInt assign left) (linkedALE blockInt assign right) := by
  obtain ⟨hash, address, keys⟩ := left
  obtain ⟨otherHash, otherAddress, otherKeys⟩ := right
  by_cases hashes : hash = otherHash
  · by_cases addresses : address = otherAddress
    · refine ⟨storageKeysFieldName, fun same => differ ?_⟩
      have sameKeys : some (Value.strings keys) = some (.strings otherKeys) := same
      cases sameKeys
      rw [hashes, addresses]
    · refine ⟨addressFieldName, fun same => addresses ?_⟩
      have sameAddress : some (Value.string address) = some (.string otherAddress) := same
      cases sameAddress
      rfl
  · refine ⟨transactionIDFieldName, fun same => apart hashes ?_⟩
    have sameLink : some (Value.string (assign hash)) = some (.string (assign otherHash)) := same
    rwa [Option.some.injEq, Value.string.injEq] at sameLink

/-! ### All together -/

/-- Every entry of the access lists has one document, in the order of first occurrences,
and no injective assignment of docIDs makes two of the documents alike. -/
theorem buildALEDocs_exact (txs : List (Option Transaction)) (blockInt : Int)
    (solid : ∀ tx, some tx ∈ txs → Separable tx.hash ∧ ∀ entry ∈ tx.accessList,
      Separable entry.address ∧ ∀ key ∈ entry.storageKeys, Separable key) :
    let emitted := buildALEDocs txs blockInt
    emitted.1.length = emitted.2.length ∧
      (∀ occurrence ∈ occurrences txs, ∃! index, StandsAt emitted index occurrence) ∧
      (∀ index < emitted.1.length, ∃ occurrence ∈ occurrences txs,
        StandsAt emitted index occurrence) ∧
      (∀ first second left right, StandsAt emitted first left → StandsAt emitted second right →
        first < second → (occurrences txs).idxOf left < (occurrences txs).idxOf right) ∧
      ∀ (names : CollectionNames) (links : EvmLinks) (assign : String → String),
        Set.InjOn assign {hash | ∃ tx, some tx ∈ txs ∧ tx.hash = hash} →
        (∀ tx, some tx ∈ txs → links.txHashToID.lookup tx.hash = some (assign tx.hash)) →
        let stamped :=
          ((evmLinkStamper names emitted.2).stampBeforeWrite .accessListEntry emitted.1 links).2
        stamped.2 = none ∧ stamped.1.Pairwise Apart ∧
          ∀ occurrence ∈ occurrences txs, ∃ doc ∈ stamped.1,
            doc.lookup addressFieldName = some (.string occurrence.2.address) ∧
            doc.lookup storageKeysFieldName = some (.strings occurrence.2.storageKeys) ∧
            doc.lookup transactionIDFieldName = some (.string (assign occurrence.1)) := by
  have entries : ∀ occurrence ∈ occurrences txs, SeparableEntry occurrence := by
    intro occurrence member
    obtain ⟨tx, listed, named, carried⟩ := mem_occurrences.mp member
    exact ⟨named ▸ (solid tx listed).1, (solid tx listed).2 _ carried⟩
  have inside : ∀ occurrence ∈ emittedEntries txs, occurrence ∈ occurrences txs :=
    fun _ member => (mem_emittedEntries entries).mp member
  dsimp only
  refine ⟨(buildALEDocs_parallel txs blockInt).symm, ?_, ?_, ?_, ?_⟩
  · intro occurrence member
    obtain ⟨index, here⟩ := List.mem_iff_getElem?.mp ((mem_emittedEntries entries).mpr member)
    refine ⟨index, standsAt_iff.mpr here, fun other there => ?_⟩
    have bound := (List.getElem?_eq_some_iff.mp here).1
    exact ((List.getElem?_inj bound (emittedEntries_nodup txs)).mp
      (here.trans (standsAt_iff.mp there).symm)).symm
  · intro index bound
    have short : index < (emittedEntries txs).length := by
      simpa [buildALEDocs_eq] using bound
    exact ⟨_, inside _ (List.getElem_mem short),
      standsAt_iff.mpr (List.getElem?_eq_getElem short)⟩
  · intro first second left right here there less
    obtain ⟨bound, rfl⟩ := List.getElem?_eq_some_iff.mp (standsAt_iff.mp here)
    obtain ⟨alsoBound, rfl⟩ := List.getElem?_eq_some_iff.mp (standsAt_iff.mp there)
    exact List.pairwise_iff_getElem.mp (pairwise_idxOf_firsts occurrenceKey [] (occurrences txs))
      first second bound alsoBound less
  · intro names links assign injective assigned
    rw [stamped_accessLists assigned]
    have hashes : ∀ occurrence ∈ occurrences txs, ∃ tx, some tx ∈ txs ∧ tx.hash = occurrence.1 := by
      intro occurrence member
      obtain ⟨tx, listed, named, _⟩ := mem_occurrences.mp member
      exact ⟨tx, listed, named⟩
    refine ⟨rfl, ?_, ?_⟩
    · rw [List.pairwise_map]
      refine (emittedEntries_nodup txs).imp_of_mem fun leftIn rightIn differ => ?_
      refine linkedALE_apart (fun other => ?_) differ
      exact fun same => other (injective (hashes _ (inside _ leftIn))
        (hashes _ (inside _ rightIn)) same)
    · intro occurrence member
      exact ⟨_, List.mem_map_of_mem ((mem_emittedEntries entries).mpr member), rfl, rfl, rfl⟩

/-- One transaction repeats an entry, and another brings the same one. -/
def repeatedEntries : List (Option Transaction) :=
  [some
    { hash := "0xaa"
      accessList := [⟨"0x01", ["0x0"]⟩, ⟨"0x01", []⟩, ⟨"0x01", ["0x0"]⟩] },
    none,
    some { hash := "0xbb", accessList := [⟨"0x01", ["0x0"]⟩] }]

theorem repeatedEntries_once :
    (buildALEDocs repeatedEntries 7).2 = ["0xaa", "0xaa", "0xbb"] ∧
      ∃! index, StandsAt (buildALEDocs repeatedEntries 7) index ("0xbb", ⟨"0x01", ["0x0"]⟩) := by
  have solid : ∀ tx ∈ repeatedEntries.filterMap id, Separable tx.hash ∧
      ∀ entry ∈ tx.accessList, Separable entry.address ∧
        ∀ key ∈ entry.storageKeys, Separable key := by
    decide +kernel
  refine ⟨by decide +kernel, ?_⟩
  exact (buildALEDocs_exact repeatedEntries 7 fun tx listed =>
    solid tx (by simpa using listed)).2.1 _ (by decide +kernel)

end ShinzoGenerator.Evm
