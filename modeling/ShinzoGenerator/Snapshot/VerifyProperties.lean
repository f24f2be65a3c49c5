import ShinzoGenerator.Snapshot.KvSnapshotProperties
import ShinzoGenerator.Snapshot.Verify

/-! What verifying a written snapshot finds. The writer puts the roots into the header,
the verifier reads lines with block-signature entries: only entries inside the exported
records are ever found. -/

set_option autoImplicit false

namespace ShinzoGenerator.Snapshot

open Json Framing

/-! ### Acceptance -/

/-- The signature of the record is valid for its Merkle root. -/
def SignatureAccepted (crypto : Crypto) (sig : SnapshotSignatureData) : Prop :=
  ∃ merkleRoot value keyType pubKey,
    Hex.decode sig.merkleRoot.toList = some merkleRoot ∧
    Hex.decode sig.signatureValue.toList = some value ∧
    resolveKeyType sig.signatureType = some keyType ∧
    crypto.publicKeyFromString keyType sig.signatureIdentity = .ok pubKey ∧
    crypto.verify pubKey merkleRoot value = .ok true

theorem verifyCryptoSignature_accepts {crypto : Crypto} {sig : SnapshotSignatureData}
    {result : VerifyResult} (fresh : result.error = none) :
    ((verifyCryptoSignature crypto sig result).2 = false ∧
        (verifyCryptoSignature crypto sig result).1.error = none ∧
        (verifyCryptoSignature crypto sig result).1.signatureValid = true) ↔
      SignatureAccepted crypto sig := by
  cases root : Hex.decode sig.merkleRoot.toList with
  | none => simp [verifyCryptoSignature, SignatureAccepted, root]
  | some merkleRoot =>
      cases text : Hex.decode sig.signatureValue.toList with
      | none => simp [verifyCryptoSignature, SignatureAccepted, root, text]
      | some value =>
          cases type : resolveKeyType sig.signatureType with
          | none => simp [verifyCryptoSignature, SignatureAccepted, root, text, type]
          | some keyType =>
              cases key : crypto.publicKeyFromString keyType sig.signatureIdentity with
              | error => simp [verifyCryptoSignature, SignatureAccepted, root, text, type, key]
              | ok pubKey =>
                  cases verified : crypto.verify pubKey merkleRoot value with
                  | error =>
                      simp [verifyCryptoSignature, SignatureAccepted, root, text, type, key, verified]
                  | ok valid =>
                      simp [verifyCryptoSignature, SignatureAccepted, root, text, type, key,
                        verified, fresh]

theorem verifyCryptoSignature_keeps (crypto : Crypto) (sig : SnapshotSignatureData)
    (result : VerifyResult) :
    (verifyCryptoSignature crypto sig result).1.merkleRootMatch = result.merkleRootMatch ∧
      (verifyCryptoSignature crypto sig result).1.valid = result.valid := by
  unfold verifyCryptoSignature
  repeat' split
  all_goals exact ⟨rfl, rfl⟩

/-- What a valid result says about the file. -/
theorem verifySnapshotWithSig_valid {crypto : Crypto} {file : Except String Bytes}
    {sig : SnapshotSignatureData} :
    (verifySnapshotWithSig crypto file sig).1.valid = true ↔
      ∃ roots, extractBlockSigMerkleRoots file = .ok roots ∧ roots ≠ [] ∧
        hexString ((computeSnapshotMerkleRoot roots).getD []) = sig.merkleRoot ∧
        SignatureAccepted crypto sig := by
  rw [verifySnapshotWithSig]
  cases extracted : extractBlockSigMerkleRoots file with
  | error => simp [verifyMerkleRoot, extracted]
  | ok roots =>
      by_cases empty : roots = []
      · simp [verifyMerkleRoot, extracted, empty]
      · by_cases matched : hexString ((computeSnapshotMerkleRoot roots).getD []) = sig.merkleRoot
        · have nonempty : roots.isEmpty = false := by simpa using empty
          simp only [verifyMerkleRoot, extracted, nonempty, matched, if_true, Bool.false_eq_true,
            if_false, Option.isSome_none]
          -- the roots match, so the signature decides
          generalize rooted : VerifyResult.mk _ _ _ _ _ _ _ _ _ _ = result
          have fresh : result.error = none ∧ result.merkleRootMatch = true ∧
              result.valid = false := by
            rw [← rooted]
            exact ⟨rfl, rfl, rfl⟩
          have keeps := verifyCryptoSignature_keeps crypto sig result
          have accepts : _ ↔ SignatureAccepted crypto sig :=
            verifyCryptoSignature_accepts fresh.1
          rw [fresh.2.1, fresh.2.2] at keeps
          generalize verifyCryptoSignature crypto sig result = signed at keeps accepts
          simp only [Except.ok.injEq, exists_eq_left', empty, ne_eq, not_false_eq_true, matched,
            true_and, ← accepts]
          split
          · rename_i failed
            rw [keeps.2]
            cases failed with
            | inl failed => simp [failed]
            | inr failed =>
                rw [Option.isSome_iff_ne_none] at failed
                simp [failed]
          · rename_i passed
            rw [not_or, Bool.not_eq_true, Bool.not_eq_true, Option.isSome_eq_false_iff,
              Option.isNone_iff_eq_none] at passed
            simp [VerifyResult.conclude, keeps.1, passed]
        · simp [verifyMerkleRoot, extracted, empty, matched]

/-! ### Lines that hold no root -/

theorem unmarshal_of_lineRoot {line root : Bytes} (found : lineRoot line = some root) :
    ∃ members, unmarshal line = some (.obj members) ∧
      ∃ entry, decodeEntry (.obj members) = some entry ∧ entry.merkleRoot = some root := by
  obtain ⟨value, read, behind⟩ := Option.bind_eq_some_iff.mp found
  obtain ⟨entry, decoded, carried⟩ := Option.bind_eq_some_iff.mp behind
  cases value with
  | obj members => exact ⟨members, read, entry, decoded, carried⟩
  | null =>
      cases decoded
      cases carried
  | bool | num | str | arr => cases decoded

theorem lineRoot_zero_last (line : Bytes) : lineRoot (Lines.dropCR (line ++ [0])) = none := by
  have kept : Lines.dropCR (line ++ [0]) = line ++ [0] := by
    rw [Lines.dropCR, List.getLast?_concat, if_neg (by decide)]
  rw [kept, Option.eq_none_iff_forall_ne_some]
  intro root found
  obtain ⟨members, read, _⟩ := unmarshal_of_lineRoot found
  exact absurd (unmarshal_obj_last read) (by decide)

theorem lineRoot_zero_first (line : Bytes) : lineRoot (Lines.dropCR (0 :: line)) = none := by
  rw [← List.singleton_append, Lines.dropCR_append (by decide), List.singleton_append,
    Option.eq_none_iff_forall_ne_some]
  intro root found
  obtain ⟨members, read, _⟩ := unmarshal_of_lineRoot found
  exact absurd (unmarshal_obj_first read) (by decide)

theorem lineRoot_short {line : Bytes} (short : line.length ≤ 1) :
    lineRoot (Lines.dropCR line) = none := by
  rw [Option.eq_none_iff_forall_ne_some]
  intro root found
  obtain ⟨members, read, _⟩ := unmarshal_of_lineRoot found
  have long := unmarshal_obj_length read
  have bound : (Lines.dropCR line).length ≤ line.length := by
    rw [Lines.dropCR]
    split
    · rw [List.length_dropLast]
      omega
    · exact Nat.le_refl _
  omega

def headerKeys : List PlainText :=
  [magicKey, versionKey, startBlockKey, endBlockKey, createdAtKey, rootsKey]

theorem set_headerKey : ∀ key ∈ headerKeys, ∀ (entry : Entry) (value : Value),
    entry.set (key.text, value) = some entry := by
  have keys : headerKeys.all (fun key => foldName key.text ≠ foldName (ascii "type") ∧
      foldName key.text ≠ foldName (ascii "data")) = true := by decide
  intro key listed entry value
  have other := List.all_eq_true.mp keys key listed
  rw [decide_eq_true_eq] at other
  rw [Entry.set, if_neg other.1, if_neg other.2]

/-- No member of a header is one of an entry. -/
theorem decodeEntry_headerReads (header : KVSnapshotHeader PlainText) :
    decodeEntry (.obj (headerReads header)) = some emptyEntry := by
  have ignored := set_headerKey
  simp only [headerKeys, List.forall_mem_cons] at ignored
  obtain ⟨magic, version, start, finish, created, listed, _⟩ := ignored
  simp only [decodeEntry, headerReads, List.foldlM_cons, magic, version, start, finish, created,
    Option.bind_eq_bind, Option.bind_some]
  split
  · rfl
  · rw [List.foldlM_cons, listed]
    rfl

/-- The header's line holds no root, whatever stands behind the header and however the
bytes of the length field are cut off. -/
theorem lineRoot_header {front : Bytes} (short : front.length ≤ 2) (startBlock endBlock : Int64)
    (now : Timestamp) (roots : List Bytes) (behind : Bytes) :
    lineRoot (Lines.dropCR (front ++ (marshalHeader (snapshotHeader startBlock endBlock now roots) ++
      behind))) = none := by
  obtain ⟨inside, written, _⟩ := marshalHeader_front startBlock endBlock now roots
  have ends : (front ++ marshalHeader (snapshotHeader startBlock endBlock now roots)).getLast? ≠
      some Lines.carriageReturn := by
    rw [written, ← List.append_assoc, List.getLast?_concat]
    decide
  have starts : ∃ rest, marshalHeader (snapshotHeader startBlock endBlock now roots) =
      byte '{' :: byte '"' :: byte 'm' :: rest := ⟨_, rfl⟩
  rw [← List.append_assoc, Lines.dropCR_append ends, List.append_assoc,
    Option.eq_none_iff_forall_ne_some]
  intro root found
  obtain ⟨members, read, entry, decoded, carried⟩ := unmarshal_of_lineRoot found
  have blank : ∀ char ∈ front, isSpace char = true := by
    obtain ⟨rest, starts⟩ := starts
    rw [starts] at read
    exact isSpace_of_unmarshal short (by decide) (by decide) read
  -- what is left is the header alone, and its members are not those of an entry
  rw [unmarshal, skipSpace_append blank, ← unmarshal, unmarshal_marshalHeader] at read
  split at read
  · cases read
    rw [decodeEntry_headerReads] at decoded
    cases decoded
    cases carried
  · cases read

/-! ### Lines of entries -/

def typeKey : PlainText := ⟨ascii "type", by decide⟩
def dataKey : PlainText := ⟨ascii "data", by decide⟩
def merkleRootKey : PlainText := ⟨merkleRootFieldName, by decide⟩

/-- The line of a block signature. -/
def entryLine (root : Bytes) : Bytes :=
  marshalObject [(typeKey, quoted blockSignatureTypeValue),
    (dataKey, marshalObject [(merkleRootKey, quoted (hexText root).text)])]

theorem unmarshal_entryLine (root : Bytes) :
    unmarshal (entryLine root) = some (.obj [(typeKey.text, .str blockSignatureTypeValue),
      (dataKey.text, .obj [(merkleRootKey.text, .str (hexText root).text)])]) := by
  have type : (blockSignatureTypeValue).all isPlain = true := by decide
  have data : Reads 9999 (marshalObject [(merkleRootKey, quoted (hexText root).text)])
      (.obj [(merkleRootKey.text, .str (hexText root).text)]) := fun rest _ =>
    parseValue_object (.cons ⟨rfl, reads_quoted 9998 _⟩ .nil) rest
  have read := unmarshal_object (.cons ⟨rfl, fun rest _ => parseValue_quoted type 9999 rest⟩
    (.cons ⟨rfl, data⟩ .nil) : List.Forall₂ (ReadsMember 9999)
      [(typeKey, quoted blockSignatureTypeValue),
        (dataKey, marshalObject [(merkleRootKey, quoted (hexText root).text)])]
      [(typeKey.text, .str blockSignatureTypeValue),
        (dataKey.text, .obj [(merkleRootKey.text, .str (hexText root).text)])]) []
  rw [List.append_nil, if_pos (by decide)] at read
  exact read

theorem textOf_hexText (root : Bytes) : textOf (hexText root).text = Hex.encode root := by
  have narrow : Hex.lowerDigits.all (fun digit => digit.toNat < 256) = true := by decide
  refine textOf_bytes fun char member => ?_
  have small := List.all_eq_true.mp narrow char (Hex.encode_lower root char member)
  exact of_decide_eq_true small

/-- An entry contributes its root. -/
theorem lineRoot_entryLine {root : Bytes} (nonempty : root ≠ []) :
    lineRoot (entryLine root) = some root := by
  have solid : (hexText root).text ≠ [] := by
    intro empty
    have size : (Hex.encode root).length = 0 := by
      rw [hexText, List.map_eq_nil_iff] at empty
      rw [empty]
      rfl
    rw [Hex.length_encode] at size
    exact nonempty (List.length_eq_zero_iff.mp (by omega))
  have decoded : decodeEntry (.obj [(typeKey.text, .str blockSignatureTypeValue),
      (dataKey.text, .obj [(merkleRootKey.text, .str (hexText root).text)])]) =
      some ⟨blockSignatureTypeValue, some [(merkleRootKey.text, .str (hexText root).text)]⟩ := rfl
  have found : lookupLast merkleRootFieldName [(merkleRootKey.text, .str (hexText root).text)] =
      some (.str (hexText root).text) := rfl
  rw [lineRoot, unmarshal_entryLine, Option.bind_eq_bind, Option.bind_some, decoded,
    Option.bind_eq_bind, Option.bind_some, Entry.merkleRoot, if_pos rfl, Option.bind_some, found]
  simp only [if_neg solid, textOf_hexText, Hex.decode_encode]

theorem lineFeed_notMem_entryLine (root : Bytes) : Lines.lineFeed ∉ entryLine root := by
  have text : Lines.lineFeed ∉ (hexText root).text := by
    intro member
    have plain := List.all_eq_true.mp (hexText root).plain _ member
    exact absurd plain (by decide)
  have keys : Lines.lineFeed ∉ typeKey.text ∧ Lines.lineFeed ∉ dataKey.text ∧
      Lines.lineFeed ∉ merkleRootKey.text ∧ Lines.lineFeed ∉ blockSignatureTypeValue := by decide
  have marks : [byte '{', byte '}', byte '"', byte ':', byte ','].all (Lines.lineFeed ≠ ·) =
      true := by decide
  simp only [List.all_cons, List.all_nil, Bool.and_true, Bool.and_eq_true, decide_eq_true_eq] at marks
  simp only [entryLine, marshalObject, List.map_cons, List.map_nil, commas, marshalMember, quoted,
    List.mem_append, List.mem_cons, List.not_mem_nil, text, keys, marks, or_false, not_false_eq_true]

/-! ### The roots of a written file -/

/-- The roots of the block-signature entries that are lines of the exported bytes. -/
def carriedRoots (data : Bytes) : List Bytes :=
  ((Lines.inner data).map Lines.dropCR).filterMap lineRoot

/-- The length of a header that fits a line starts with a zero byte, so that at most two
of its bytes stand on the line of the header. -/
theorem pieces_lengthField {size : Nat} (small : size < 16777216) :
    (∀ piece ∈ (Lines.pieces (be32 size)).dropLast, piece.head? = some 0 ∨ piece.length ≤ 1) ∧
      (((Lines.pieces (be32 size)).getLastD []).head? = some 0 ∨
        ((Lines.pieces (be32 size)).getLastD []).length ≤ 2) := by
  have high : UInt8.ofNat (size / 16777216) = 0 := by
    rw [Nat.div_eq_of_lt small]
    rfl
  have zero : (0 : UInt8) ≠ Lines.lineFeed := by decide
  have none : Lines.pieces [] = [[]] := rfl
  rw [be32, high]
  generalize UInt8.ofNat (size / 65536) = second
  generalize UInt8.ofNat (size / 256) = third
  generalize UInt8.ofNat size = fourth
  simp only [Lines.pieces_cons, if_neg zero, none]
  by_cases cutSecond : second = Lines.lineFeed <;> by_cases cutThird : third = Lines.lineFeed <;>
    by_cases cutFourth : fourth = Lines.lineFeed <;>
    simp [cutSecond, cutThird, cutFourth]

/-- No line feed in the header. -/
theorem lineFeed_notMem_marshalHeader (startBlock endBlock : Int64) (now : Timestamp)
    (roots : List Bytes) :
    Lines.lineFeed ∉ marshalHeader (snapshotHeader startBlock endBlock now roots) := by
  obtain ⟨front, written, inner⟩ := marshalHeader_front startBlock endBlock now roots
  intro member
  rw [written, List.mem_append, List.mem_cons] at member
  rcases member with (brace | inside) | brace
  · exact absurd brace (by decide)
  · have other := List.all_eq_true.mp inner _ inside
    exact absurd other (by decide)
  · rw [List.mem_singleton] at brace
    exact absurd brace (by decide)

theorem lineRoot_fieldHeader {front : Bytes} (cut : front.head? = some 0 ∨ front.length ≤ 2)
    (startBlock endBlock : Int64) (now : Timestamp) (roots : List Bytes) (behind : Bytes) :
    lineRoot (Lines.dropCR (front ++ (marshalHeader (snapshotHeader startBlock endBlock now roots) ++
      behind))) = none := by
  cases cut with
  | inl zero =>
      obtain ⟨rest, rfl⟩ := List.head?_eq_some_iff.mp zero
      exact lineRoot_zero_first _
  | inr short => exact lineRoot_header short startBlock endBlock now roots behind

theorem filterMap_lineRoot_eq_nil {pieces : List Bytes}
    (none : ∀ piece ∈ pieces, lineRoot (Lines.dropCR piece) = none) :
    (pieces.map Lines.dropCR).filterMap lineRoot = [] := by
  rw [List.filterMap_map, List.filterMap_eq_nil_iff]
  exact none

/-- A written file holds those roots that its exported bytes hold. -/
theorem tokens_headedFile {startBlock endBlock : Int64} {now : Timestamp} {roots : List Bytes}
    (small : headerSize startBlock endBlock now roots < 16777216) (data : Bytes) :
    (Lines.tokens (headedFile startBlock endBlock now roots (data ++ sentinel))).filterMap lineRoot =
      carriedRoots data := by
  have zeros : Lines.lineFeed ∉ sentinel := by decide
  have solid := lineFeed_notMem_marshalHeader startBlock endBlock now roots
  rw [← length_marshalHeader] at small
  obtain ⟨before, field⟩ := pieces_lengthField small
  have header := lineRoot_fieldHeader field startBlock endBlock now roots
  have cut := Lines.pieces_append
    (be32 (marshalHeader (snapshotHeader startBlock endBlock now roots)).length)
    (marshalHeader (snapshotHeader startBlock endBlock now roots) ++ (data ++ sentinel))
  rw [← headedFile, Lines.pieces_append_left solid, Lines.pieces_append_right data zeros] at cut
  generalize marshalHeader (snapshotHeader startBlock endBlock now roots) = text at *
  generalize Lines.pieces (be32 text.length) = parts at *
  have early : (parts.dropLast.map Lines.dropCR).filterMap lineRoot = [] := by
    refine filterMap_lineRoot_eq_nil fun piece member => ?_
    cases before piece member with
    | inl zero =>
        obtain ⟨rest, rfl⟩ := List.head?_eq_some_iff.mp zero
        exact lineRoot_zero_first _
    | inr short => exact lineRoot_short short
  have closing : ∀ line, lineRoot (Lines.dropCR (line ++ sentinel)) = none := by
    intro line
    have split : line ++ sentinel = line ++ [0, 0, 0] ++ [0] := by simp [sentinel, be32]
    rw [split]
    exact lineRoot_zero_last _
  cases lines : Lines.pieces data with
  | nil => exact absurd lines (Lines.pieces_ne_nil data)
  | cons first others =>
      rw [carriedRoots, Lines.inner, lines, List.tail_cons]
      rw [lines] at cut
      cases others with
      | nil =>
          simp only [List.dropLast_singleton, List.nil_append, List.modifyHead_cons,
            List.getLastD_cons, List.getLastD_nil] at cut
          rw [Lines.tokens_of_last cut (by simp [sentinel, be32]), cut, List.map_append,
            List.filterMap_append, early, List.map_singleton, List.filterMap_cons, header]
          rfl
      | cons second others =>
          simp only [List.dropLast_cons_cons, List.cons_append, List.modifyHead_cons] at cut
          rw [← List.cons_append, ← List.append_assoc] at cut
          rw [Lines.tokens_of_last cut (by simp [sentinel, be32]), cut]
          simp only [List.map_append, List.map_cons, List.filterMap_append, List.filterMap_cons,
            List.map_nil, List.filterMap_nil, early, header, closing, List.nil_append,
            List.append_nil]

/-- The length of the header is part of the length of a line. -/
theorem headerSize_of_short {startBlock endBlock : Int64} {now : Timestamp} {roots : List Bytes}
    {behind : Bytes}
    (short : Lines.Short maxTokenSize (headedFile startBlock endBlock now roots behind)) :
    headerSize startBlock endBlock now roots < 16777216 := by
  have solid := lineFeed_notMem_marshalHeader startBlock endBlock now roots
  rw [← length_marshalHeader]
  have cut := Lines.pieces_append
    (be32 (marshalHeader (snapshotHeader startBlock endBlock now roots)).length)
    (marshalHeader (snapshotHeader startBlock endBlock now roots) ++ behind)
  rw [← headedFile, Lines.pieces_append_left solid] at cut
  cases lines : Lines.pieces behind with
  | nil => exact absurd lines (Lines.pieces_ne_nil behind)
  | cons first others =>
      rw [lines, List.modifyHead_cons, List.modifyHead_cons] at cut
      have bound := short _ (cut ▸ List.mem_append_right _ List.mem_cons_self)
      have limit : maxTokenSize < 16777216 := by decide
      simp only [List.length_append] at bound
      omega

theorem extract_headedFile {startBlock endBlock : Int64} {now : Timestamp} {roots : List Bytes}
    {data : Bytes} (found : List Bytes) :
    extractBlockSigMerkleRoots
        (.ok (headedFile startBlock endBlock now roots (data ++ sentinel))) = .ok found ↔
      Lines.Short maxTokenSize (headedFile startBlock endBlock now roots (data ++ sentinel)) ∧
        carriedRoots data = found := by
  rw [extractBlockSigMerkleRoots, Lines.scan]
  by_cases short : Lines.Short maxTokenSize
      (headedFile startBlock endBlock now roots (data ++ sentinel))
  · have size := headerSize_of_short short
    simp only [short, if_true, tokens_headedFile size, Except.ok.injEq, true_and]
  · simp [short]

/-! ### Signed by its own key -/

/-- The public text of a key is read back, and the key accepts its own signatures. -/
def PrivateKey.Lawful (crypto : Crypto) (key : PrivateKey) : Prop :=
  ∃ pubKey, crypto.publicKeyFromString key.type key.publicKey = .ok pubKey ∧
    ∀ message value, key.sign message = .ok value → crypto.verify pubKey message value = .ok true

theorem resolveKeyType_signatureType {type : KeyType} {name : String}
    (supported : signatureType type = some name) : resolveKeyType name = some type := by
  cases type with
  | secp256k1 =>
      cases supported
      rfl
  | ed25519 =>
      cases supported
      rfl
  | other => cases supported

theorem decode_hexString (bytes : Bytes) : Hex.decode (hexString bytes).toList = some bytes := by
  rw [hexString, String.toList_ofList, Hex.decode_encode]

theorem hexString_injective {first second : Bytes} (same : hexString first = hexString second) :
    first = second := by
  have decoded := decode_hexString first
  rw [same, decode_hexString] at decoded
  exact (Option.some.inj decoded).symm

/-- What a signature that was built says about its roots and its key. -/
theorem signed_accepted {crypto : Crypto} {key : PrivateKey} (lawful : key.Lawful crypto)
    {snapshotFilename : String} {startBlock endBlock : Int64} {roots : List Bytes}
    {blockCount : Nat} {now : Timestamp} {sig : SnapshotSignatureData}
    (signed : signSnapshotWithRoots (.full key) snapshotFilename startBlock endBlock roots
      blockCount now = .ok (some sig)) :
    SignatureAccepted crypto sig ∧
      ∃ root, computeSnapshotMerkleRoot roots = some root ∧ sig.merkleRoot = hexString root := by
  rw [signSnapshotWithRoots] at signed
  split at signed
  · cases signed
  · cases computed : computeSnapshotMerkleRoot roots with
    | none => simp [computed] at signed
    | some root =>
        cases supported : signatureType key.type with
        | none => simp [computed, signMerkleRoot, supported] at signed
        | some name =>
            cases value : key.sign root with
            | error => simp [computed, signMerkleRoot, supported, value] at signed
            | ok bytes =>
                simp only [computed, signMerkleRoot, supported, value, Except.ok.injEq,
                  Option.some.injEq] at signed
                obtain ⟨pubKey, read, accepts⟩ := lawful
                subst signed
                exact ⟨⟨root, bytes, key.type, pubKey, decode_hexString _, decode_hexString _,
                  resolveKeyType_signatureType supported, read, accepts _ _ value⟩, root, rfl, rfl⟩

theorem writeKVSnapshotContents_data {source : SnapshotSource} {startBlock endBlock : Int64}
    {now : Timestamp} {data : Bytes} {total : Nat}
    (exported : exportCollectionKVs source startBlock endBlock = .ok (data, total))
    (running : source.ctxErr = none) :
    writeKVSnapshotContents source startBlock endBlock now =
      .ok (headedFile startBlock endBlock now source.roots (data ++ sentinel), source.roots) := by
  simp only [writeKVSnapshotContents, running, exported, headedFile, List.append_assoc]

theorem ctxErr_of_written {source : SnapshotSource} {startBlock endBlock : Int64}
    {now : Timestamp} {written : Bytes × List Bytes}
    (wrote : writeKVSnapshotContents source startBlock endBlock now = .ok written) :
    source.ctxErr = none := by
  cases stopped : source.ctxErr with
  | none => rfl
  | some error => simp [writeKVSnapshotContents, stopped] at wrote

theorem exists_merkleRoot {roots : List Bytes} (nonempty : roots ≠ []) :
    ∃ root, computeSnapshotMerkleRoot roots = some root :=
  Option.ne_none_iff_exists'.mp fun none => nonempty (MerkleTree.root_eq_none.mp none)

/-- A snapshot is valid under its own signature exactly if no line of it is too long and
its exported bytes carry entries whose roots have the Merkle root of the signed ones. -/
theorem written_snapshot_valid_iff {crypto : Crypto} {key : PrivateKey} (lawful : key.Lawful crypto)
    {source : SnapshotSource} {startBlock endBlock : Int64} {written signedAt : Timestamp}
    {file : Bytes} {roots : List Bytes}
    (wrote : writeKVSnapshotContents source startBlock endBlock written = .ok (file, roots))
    {data : Bytes} {total : Nat}
    (exported : exportCollectionKVs source startBlock endBlock = .ok (data, total))
    {snapshotFilename : String} {blockCount : Nat} {sig : SnapshotSignatureData}
    (signed : signSnapshotWithRoots (.full key) snapshotFilename startBlock endBlock roots
      blockCount signedAt = .ok (some sig)) :
    (verifySnapshotWithSig crypto (.ok file) sig).1.valid = true ↔
      Lines.Short maxTokenSize file ∧ carriedRoots data ≠ [] ∧
        computeSnapshotMerkleRoot (carriedRoots data) = computeSnapshotMerkleRoot roots := by
  obtain ⟨accepted, root, computed, recorded⟩ := signed_accepted lawful signed
  rw [writeKVSnapshotContents_data exported (ctxErr_of_written wrote), Except.ok.injEq,
    Prod.mk.injEq] at wrote
  obtain ⟨rfl, rfl⟩ := wrote
  rw [verifySnapshotWithSig_valid, recorded, computed]
  constructor
  · intro valid
    obtain ⟨found, extracted, nonempty, matched, _⟩ := valid
    obtain ⟨short, rfl⟩ := (extract_headedFile found).mp extracted
    refine ⟨short, nonempty, ?_⟩
    obtain ⟨carried, some⟩ := exists_merkleRoot nonempty
    rw [some, Option.getD_some] at matched
    rw [some, hexString_injective matched]
  · intro holds
    obtain ⟨short, nonempty, same⟩ := holds
    refine ⟨carriedRoots data, (extract_headedFile _).mpr ⟨short, rfl⟩, nonempty, ?_, accepted⟩
    rw [same, Option.getD_some]

/-! A snapshot of one signed block with one record. -/

/-- Signs by repeating the message. -/
def echoKey : PrivateKey where
  type := .ed25519
  sign := fun message => .ok message
  publicKey := "echo"

def echoCrypto : Crypto where
  PublicKey := String
  publicKeyFromString := fun _ text => .ok text
  verify := fun _ message value => .ok (message = value)

theorem echoKey_lawful : echoKey.Lawful echoCrypto := by
  refine ⟨"echo", rfl, fun message value signed => ?_⟩
  cases signed
  simp [echoCrypto]

def sampleRoot : Bytes := List.replicate 32 7

def oneDocument : AList fun _ : String => List String := AList.singleton "Block" ["doc"]

def oneBlock (record : Bytes) : SnapshotSource where
  blockSigDocs := .ok [some (hexString sampleRoot)]
  docIDsByBlockRange := .ok oneDocument
  exportDocKVs := fun _ _ => .ok (frames [record] ++ sentinel, 1)

theorem exportCollectionKVs_oneBlock (record : Bytes) :
    exportCollectionKVs (oneBlock record) 1 1 = .ok (frames [record], 1) := by
  have ids : (oneDocument.lookup "Block").getD [] = ["doc"] := rfl
  have names : oneDocument.keys.insertionSort (· ≤ ·) = ["Block"] := rfl
  simp only [exportCollectionKVs, oneBlock, names, exportEach, ids, stripSentinel_frames]
  simp

theorem roots_oneBlock (record : Bytes) : (oneBlock record).roots = [sampleRoot] := by
  have decoded : Hex.decode (hexString sampleRoot).toList = some sampleRoot :=
    decode_hexString sampleRoot
  have solid : hexString sampleRoot ≠ "" := by decide
  simp [SnapshotSource.roots, oneBlock, getBlockSigMerkleRoots, decoded, solid]

theorem oneBlock_written (record : Bytes) :
    writeKVSnapshotContents (oneBlock record) 1 1 sampleMoment =
      .ok (headedFile 1 1 sampleMoment [sampleRoot] (frames [record] ++ sentinel), [sampleRoot]) := by
  rw [writeKVSnapshotContents_data (exportCollectionKVs_oneBlock record) rfl, roots_oneBlock]

theorem exists_signature {key : PrivateKey} {name : String}
    (supported : signatureType key.type = some name)
    (signs : ∀ message, ∃ value, key.sign message = .ok value) {roots : List Bytes}
    (nonempty : roots ≠ []) (snapshotFilename : String) (startBlock endBlock : Int64)
    (blockCount : Nat) (now : Timestamp) :
    ∃ sig, signSnapshotWithRoots (.full key) snapshotFilename startBlock endBlock roots blockCount
      now = .ok (some sig) := by
  obtain ⟨root, computed⟩ := exists_merkleRoot nonempty
  obtain ⟨value, signed⟩ := signs root
  have some : ¬ roots.isEmpty = true := by simpa using nonempty
  simp only [signSnapshotWithRoots, if_neg some, computed, signMerkleRoot, supported, signed]
  exact ⟨_, rfl⟩

/-- The signature of the block. -/
theorem exists_echo_signature : ∃ sig, signSnapshotWithRoots (.full echoKey)
    "snapshot_1_1.kvsnap.gz" 1 1 [sampleRoot] 1 sampleMoment = .ok (some sig) :=
  exists_signature rfl (fun message => ⟨message, rfl⟩) (List.cons_ne_nil _ _) _ _ _ _ _

/-- A snapshot with an ordinary record is written and signed, and found to hold no block
signatures. -/
theorem ordinary_snapshot_rejected :
    ∃ file sig,
      writeKVSnapshotContents (oneBlock (ascii "block 1")) 1 1 sampleMoment =
        .ok (file, [sampleRoot]) ∧
      signSnapshotWithRoots (.full echoKey) "snapshot_1_1.kvsnap.gz" 1 1 [sampleRoot] 1
        sampleMoment = .ok (some sig) ∧
      echoKey.Lawful echoCrypto ∧
      (verifySnapshotWithSig echoCrypto (.ok file) sig).1.valid = false ∧
      (verifySnapshotWithSig echoCrypto (.ok file) sig).1.error = some .noBlockSignatures := by
  obtain ⟨sig, signed⟩ := exists_echo_signature
  refine ⟨_, sig, oneBlock_written _, signed, echoKey_lawful, ?_⟩
  have short : Lines.Short maxTokenSize (headedFile 1 1 sampleMoment [sampleRoot]
      (frames [ascii "block 1"] ++ sentinel)) := by decide +kernel
  have extracted := (extract_headedFile []).mpr ⟨short, by decide +kernel⟩
  simp [verifySnapshotWithSig, verifyMerkleRoot, extracted]

/-- A snapshot whose record is a line of a block-signature entry is accepted. -/
theorem entry_record_accepted :
    ∃ file sig,
      writeKVSnapshotContents (oneBlock (Lines.lineFeed :: entryLine sampleRoot ++ [Lines.lineFeed]))
        1 1 sampleMoment = .ok (file, [sampleRoot]) ∧
      signSnapshotWithRoots (.full echoKey) "snapshot_1_1.kvsnap.gz" 1 1 [sampleRoot] 1
        sampleMoment = .ok (some sig) ∧
      (verifySnapshotWithSig echoCrypto (.ok file) sig).1.valid = true := by
  obtain ⟨sig, signed⟩ := exists_echo_signature
  have carried : carriedRoots (frames [Lines.lineFeed :: entryLine sampleRoot ++
      [Lines.lineFeed]]) = [sampleRoot] := by decide +kernel
  refine ⟨_, sig, oneBlock_written _, signed, ?_⟩
  refine (written_snapshot_valid_iff echoKey_lawful (oneBlock_written _)
    (exportCollectionKVs_oneBlock _) signed).mpr ⟨by decide +kernel, ?_, ?_⟩
  · rw [carried]
    exact List.cons_ne_nil _ _
  · rw [carried]

end ShinzoGenerator.Snapshot
