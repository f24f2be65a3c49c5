import ShinzoGenerator.Snapshot.VerifyProperties

/-! What a snapshot signature commits to. The verifier compares Merkle roots and not the
number of block signatures, and the tree hashes leaves and inner nodes alike. -/

set_option autoImplicit false

namespace ShinzoGenerator.Snapshot

open Json

/-! ### Files of entries -/

def entryFile (roots : List Bytes) : Bytes :=
  roots.flatMap fun root => entryLine root ++ [Lines.lineFeed]

theorem pieces_entryFile (roots : List Bytes) :
    Lines.pieces (entryFile roots) = roots.map entryLine ++ [[]] := by
  induction roots with
  | nil => rfl
  | cons root roots ih =>
      rw [entryFile, List.flatMap_cons, ← entryFile, List.append_assoc, List.singleton_append,
        Lines.pieces_line (lineFeed_notMem_entryLine root), ih]
      rfl

theorem tokens_entryFile (roots : List Bytes) :
    Lines.tokens (entryFile roots) = (roots.map entryLine).map Lines.dropCR := by
  rw [Lines.tokens, pieces_entryFile, if_pos (List.getLast?_concat), List.dropLast_concat]

theorem dropCR_entryLine (root : Bytes) : Lines.dropCR (entryLine root) = entryLine root := by
  have last : (entryLine root).getLast? = some (byte '}') := by
    rw [entryLine, marshalObject, List.getLast?_concat]
  rw [Lines.dropCR, last, if_neg (by decide)]

/-- A file of entries holds their roots. -/
theorem extract_entryFile {roots : List Bytes} (nonempty : ∀ root ∈ roots, root ≠ [])
    (short : ∀ root ∈ roots, (entryLine root).length < maxTokenSize) :
    extractBlockSigMerkleRoots (.ok (entryFile roots)) = .ok roots := by
  have fits : Lines.Short maxTokenSize (entryFile roots) := by
    intro piece member
    rw [pieces_entryFile, List.mem_append, List.mem_map, List.mem_singleton] at member
    rcases member with ⟨root, listed, rfl⟩ | rfl
    · exact short root listed
    · decide
  have read : ∀ root ∈ roots, lineRoot (Lines.dropCR (entryLine root)) = some root := by
    intro root listed
    rw [dropCR_entryLine, lineRoot_entryLine (nonempty root listed)]
  have gathered : ((roots.map entryLine).map Lines.dropCR).filterMap lineRoot = roots := by
    rw [List.filterMap_map, List.filterMap_map]
    calc roots.filterMap _ = roots.filterMap some := List.filterMap_congr read
      _ = roots := List.filterMap_some
  rw [extractBlockSigMerkleRoots, Lines.scan, if_pos fits, tokens_entryFile]
  simp only [gathered]

/-- An empty line in front of a file does not matter. -/
theorem extract_lineFeed (file : Bytes) :
    extractBlockSigMerkleRoots (.ok (Lines.lineFeed :: file)) =
      extractBlockSigMerkleRoots (.ok file) := by
  have cut : Lines.pieces (Lines.lineFeed :: file) = [] :: Lines.pieces file := by
    rw [Lines.pieces_cons, if_pos rfl]
  have lines : Lines.tokens (Lines.lineFeed :: file) = Lines.dropCR [] :: Lines.tokens file :=
    Lines.tokens_line List.not_mem_nil file
  have fits : Lines.Short maxTokenSize (Lines.lineFeed :: file) ↔
      Lines.Short maxTokenSize file := by
    rw [Lines.Short, cut, List.forall_mem_cons, Lines.Short]
    exact and_iff_right (by decide)
  have none : lineRoot (Lines.dropCR []) = none := rfl
  rw [extractBlockSigMerkleRoots, extractBlockSigMerkleRoots, Lines.scan, Lines.scan]
  by_cases short : Lines.Short maxTokenSize file
  · simp only [if_pos (fits.mpr short), if_pos short, lines, List.filterMap_cons, none]
  · simp only [if_neg (mt fits.mp short), if_neg short]

/-! ### What a signature commits to -/

theorem computed_eq_of_valid {crypto : Crypto} {sig : SnapshotSignatureData}
    {first second : Except String Bytes} {firstRoots secondRoots : List Bytes}
    (firstValid : (verifySnapshotWithSig crypto first sig).1.valid = true)
    (secondValid : (verifySnapshotWithSig crypto second sig).1.valid = true)
    (firstExtracted : extractBlockSigMerkleRoots first = .ok firstRoots)
    (secondExtracted : extractBlockSigMerkleRoots second = .ok secondRoots) :
    computeSnapshotMerkleRoot firstRoots = computeSnapshotMerkleRoot secondRoots := by
  have recorded : ∀ {file : Except String Bytes} {roots : List Bytes},
      (verifySnapshotWithSig crypto file sig).1.valid = true →
      extractBlockSigMerkleRoots file = .ok roots →
      ∃ root, computeSnapshotMerkleRoot roots = some root ∧ hexString root = sig.merkleRoot := by
    intro file roots valid extracted
    obtain ⟨found, again, nonempty, matched, _⟩ := verifySnapshotWithSig_valid.mp valid
    cases extracted.symm.trans again
    obtain ⟨root, computed⟩ := exists_merkleRoot nonempty
    rw [computed, Option.getD_some] at matched
    exact ⟨root, computed, matched⟩
  obtain ⟨root, computed, matched⟩ := recorded firstValid firstExtracted
  obtain ⟨other, otherComputed, otherMatched⟩ := recorded secondValid secondExtracted
  rw [computed, otherComputed, hexString_injective (matched.trans otherMatched.symm)]

/-- Two files that one signature accepts hold the same roots exactly if no root of one
that is as long as two digests stands for an inner node of the tree over the other. -/
theorem accepted_roots_eq_iff {crypto : Crypto} {sig : SnapshotSignatureData}
    {first second : Except String Bytes} {firstRoots secondRoots : List Bytes}
    (firstValid : (verifySnapshotWithSig crypto first sig).1.valid = true)
    (secondValid : (verifySnapshotWithSig crypto second sig).1.valid = true)
    (firstExtracted : extractBlockSigMerkleRoots first = .ok firstRoots)
    (secondExtracted : extractBlockSigMerkleRoots second = .ok secondRoots)
    (free : MerkleTree.NoCollision Sha256.sum
      (MerkleTree.inputs Sha256.sum firstRoots ++ MerkleTree.inputs Sha256.sum secondRoots)) :
    firstRoots = secondRoots ↔ MerkleTree.Aligned 32 firstRoots secondRoots := by
  have same := computed_eq_of_valid firstValid secondValid firstExtracted secondExtracted
  constructor
  · rintro rfl
    exact MerkleTree.aligned_refl _
  · exact MerkleTree.eq_of_root_eq Sha256.length_sum free same

/-! Two roots, and one root that is the input of their common node. -/

def leftRoot : Bytes := List.replicate 32 1

def rightRoot : Bytes := List.replicate 32 2

def joinedRoot : Bytes := Sha256.sum leftRoot ++ Sha256.sum rightRoot

theorem joined_noCollision : MerkleTree.NoCollision Sha256.sum
    (MerkleTree.inputs Sha256.sum [leftRoot, rightRoot] ++
      MerkleTree.inputs Sha256.sum [joinedRoot]) := by
  have single : MerkleTree.inputs Sha256.sum [joinedRoot] = [joinedRoot] := rfl
  rw [MerkleTree.inputs_pair, single, ← joinedRoot]
  have checked : ∀ first ∈ [joinedRoot, leftRoot, rightRoot] ++ [joinedRoot],
      ∀ second ∈ [joinedRoot, leftRoot, rightRoot] ++ [joinedRoot],
        Sha256.sum first = Sha256.sum second → first = second := by decide +kernel
  exact checked

theorem extract_sampleFiles :
    extractBlockSigMerkleRoots (.ok (entryFile [leftRoot, rightRoot])) = .ok [leftRoot, rightRoot] ∧
      extractBlockSigMerkleRoots (.ok (entryFile [joinedRoot])) = .ok [joinedRoot] := by
  constructor
  · apply extract_entryFile
    · decide
    · decide
  · apply extract_entryFile
    · decide +kernel
    · decide +kernel

/-- A file with the roots of a signature is valid under it. -/
theorem valid_of_extract {crypto : Crypto} {key : PrivateKey} (lawful : key.Lawful crypto)
    {snapshotFilename : String} {startBlock endBlock : Int64} {roots : List Bytes}
    {blockCount : Nat} {now : Timestamp} {sig : SnapshotSignatureData}
    (signed : signSnapshotWithRoots (.full key) snapshotFilename startBlock endBlock roots
      blockCount now = .ok (some sig))
    {file : Except String Bytes} {found : List Bytes}
    (extracted : extractBlockSigMerkleRoots file = .ok found)
    (same : computeSnapshotMerkleRoot found = computeSnapshotMerkleRoot roots) :
    (verifySnapshotWithSig crypto file sig).1.valid = true := by
  obtain ⟨accepted, root, computed, recorded⟩ := signed_accepted lawful signed
  rw [computed] at same
  have nonempty : found ≠ [] := by
    intro empty
    rw [empty] at same
    cases same
  rw [verifySnapshotWithSig_valid]
  refine ⟨found, extracted, nonempty, ?_, accepted⟩
  rw [same, Option.getD_some, recorded]

theorem exists_pair_signature : ∃ sig, signSnapshotWithRoots (.full echoKey)
    "snapshot_1_2.kvsnap.gz" 1 2 [leftRoot, rightRoot] 2 sampleMoment = .ok (some sig) :=
  exists_signature rfl (fun message => ⟨message, rfl⟩) (List.cons_ne_nil _ _) _ _ _ _ _

/-- The signature of two roots is one of a single root, without a collision. -/
theorem one_signature_two_lists :
    ∃ sig,
      (verifySnapshotWithSig echoCrypto (.ok (entryFile [leftRoot, rightRoot])) sig).1.valid = true ∧
      (verifySnapshotWithSig echoCrypto (.ok (entryFile [joinedRoot])) sig).1.valid = true ∧
      extractBlockSigMerkleRoots (.ok (entryFile [leftRoot, rightRoot])) =
        .ok [leftRoot, rightRoot] ∧
      extractBlockSigMerkleRoots (.ok (entryFile [joinedRoot])) = .ok [joinedRoot] ∧
      MerkleTree.NoCollision Sha256.sum
        (MerkleTree.inputs Sha256.sum [leftRoot, rightRoot] ++
          MerkleTree.inputs Sha256.sum [joinedRoot]) ∧
      [leftRoot, rightRoot] ≠ [joinedRoot] := by
  obtain ⟨sig, signed⟩ := exists_pair_signature
  obtain ⟨pair, single⟩ := extract_sampleFiles
  exact ⟨sig, valid_of_extract echoKey_lawful signed pair rfl,
    valid_of_extract echoKey_lawful signed single (MerkleTree.root_joined _ _ _), pair, single,
    joined_noCollision, by simp⟩

/-- Two files of one signature with the same number of roots. -/
theorem counted_files_same_roots :
    ∃ sig roots,
      (verifySnapshotWithSig echoCrypto (.ok (entryFile [leftRoot, rightRoot])) sig).1.valid = true ∧
      (verifySnapshotWithSig echoCrypto
        (.ok (Lines.lineFeed :: entryFile [leftRoot, rightRoot])) sig).1.valid = true ∧
      extractBlockSigMerkleRoots (.ok (Lines.lineFeed :: entryFile [leftRoot, rightRoot])) =
        .ok roots ∧
      [leftRoot, rightRoot] = roots := by
  obtain ⟨sig, signed⟩ := exists_pair_signature
  obtain ⟨pair, _⟩ := extract_sampleFiles
  have spaced : extractBlockSigMerkleRoots (.ok (Lines.lineFeed ::
      entryFile [leftRoot, rightRoot])) = .ok [leftRoot, rightRoot] := by
    rw [extract_lineFeed, pair]
  have first := valid_of_extract echoKey_lawful signed pair rfl
  have second := valid_of_extract echoKey_lawful signed spaced rfl
  refine ⟨sig, _, first, second, spaced, ?_⟩
  refine (accepted_roots_eq_iff first second pair spaced ?_).mpr (MerkleTree.aligned_of_length rfl)
  have listed : ∀ {input : Bytes}, input ∈ MerkleTree.inputs Sha256.sum [leftRoot, rightRoot] ++
      MerkleTree.inputs Sha256.sum [leftRoot, rightRoot] →
      input ∈ MerkleTree.inputs Sha256.sum [leftRoot, rightRoot] ++
        MerkleTree.inputs Sha256.sum [joinedRoot] := by
    intro input member
    exact List.mem_append_left _ ((List.mem_append.mp member).elim id id)
  intro left leftIn right rightIn same
  exact joined_noCollision left (listed leftIn) right (listed rightIn) same

end ShinzoGenerator.Snapshot
