import ShinzoGenerator.Snapshot.KvSnapshot
import ShinzoGenerator.Snapshot.SnapshotterRuns

/-! A written snapshot file is imported as it was written. The length field of the header
has four bytes, and nothing keeps the header below what they can hold. -/

set_option autoImplicit false

namespace ShinzoGenerator.Snapshot

open Json Framing

/-! ### The header -/

theorem textOf_bytes {chars : List Char} (narrow : ∀ char ∈ chars, char.toNat < 256) :
    textOf (chars.map byte) = chars := by
  have same : ∀ char ∈ chars, Char.ofNat (byte char).toNat = id char := by
    intro char member
    rw [byte, UInt8.toNat_ofNat', Nat.mod_eq_of_lt (narrow char member), Char.ofNat_toNat, id]
  rw [textOf, List.map_map]
  exact (List.map_congr_left same).trans (List.map_id chars)

theorem textOf_digits (number : Nat) :
    textOf ((Nat.toDigits 10 number).map byte) = Nat.toDigits 10 number := by
  refine textOf_bytes fun char member => ?_
  have digit := Nat.isDigit_of_mem_toDigits (by decide) (by decide) member
  simp only [Char.isDigit, Bool.and_eq_true, decide_eq_true_eq] at digit
  exact Nat.lt_of_le_of_lt digit.2 (by decide)

theorem parseInt_marshalInt (number : Int64) :
    parseInt (textOf (marshalInt number.toInt)) = some number.toInt := by
  have low := number.le_toInt
  have high := number.toInt_lt
  cases spelled : number.toInt with
  | ofNat magnitude =>
      rw [spelled] at high
      have digits : (toString (magnitude : Int)).toList = Nat.toDigits 10 magnitude := by
        have same : toString (magnitude : Int) = toString magnitude := rfl
        rw [same, Nat.toString_eq_ofList_toDigits, String.toList_ofList]
      rw [Int.ofNat_eq_natCast, marshalInt_nat, textOf_digits, ← digits]
      refine parseInt_toString ?_
      rw [Int.ofNat_eq_natCast] at high
      rw [int64Limit]
      omega
  | negSucc magnitude =>
      rw [spelled] at low
      have text : textOf (marshalInt (Int.negSucc magnitude)) =
          '-' :: Nat.toDigits 10 (magnitude + 1) := by
        rw [marshalInt_neg, textOf, List.map_cons, ← textOf, textOf_digits]
        rfl
      have bound : magnitude + 1 ≤ int64Limit := by
        rw [int64Limit]
        omega
      rw [text]
      simp only [parseInt, parseDigits_toDigits, Option.bind_eq_bind, Option.bind_some, if_pos bound]
      rfl

theorem reads_quoted (depth : Nat) (text : PlainText) :
    Reads depth (quoted text.text) (.str text.text) :=
  fun rest _ => parseValue_quoted text.plain depth rest

/-- The members of a written header, as they are read. -/
def headerReads (header : KVSnapshotHeader PlainText) : List (Bytes × Value) :=
  (magicKey.text, .str header.magic.text) ::
    (versionKey.text, .num (marshalInt header.version.toInt)) ::
    (startBlockKey.text, .num (marshalInt header.startBlock.toInt)) ::
    (endBlockKey.text, .num (marshalInt header.endBlock.toInt)) ::
    (createdAtKey.text, .str header.createdAt.text) ::
    if header.blockSigMerkleRoots.isEmpty then []
    else [(rootsKey.text, .arr (header.blockSigMerkleRoots.map fun root => .str root.text))]

theorem reads_rootsMember (roots : List PlainText) :
    List.Forall₂ (ReadsMember 9999) (rootsMember roots)
      (if roots.isEmpty then [] else [(rootsKey.text, .arr (roots.map fun root => .str root.text))]) := by
  rw [rootsMember]
  split
  · exact .nil
  · have items : List.Forall₂ (Reads 9998) (roots.map fun root => quoted root.text)
        (roots.map fun root => Value.str root.text) := by
      rw [List.forall₂_map_left_iff, List.forall₂_map_right_iff, List.forall₂_same]
      exact fun root _ => reads_quoted 9998 root
    exact .cons ⟨rfl, fun rest _ => parseValue_array items rest⟩ .nil

theorem unmarshal_marshalHeader (header : KVSnapshotHeader PlainText) (rest : Bytes) :
    unmarshal (marshalHeader header ++ rest) =
      if skipSpace rest = [] then some (.obj (headerReads header)) else none :=
  unmarshal_object
    (.cons ⟨rfl, reads_quoted 9999 _⟩ (.cons ⟨rfl, reads_int 9999 _⟩ (.cons ⟨rfl, reads_int 9999 _⟩
      (.cons ⟨rfl, reads_int 9999 _⟩ (.cons ⟨rfl, reads_quoted 9999 _⟩
        (reads_rootsMember header.blockSigMerkleRoots)))))) rest

theorem intField_marshalInt (old number : Int64) :
    intField old (.num (marshalInt number.toInt)) = some number := by
  rw [intField, parseInt_marshalInt, Option.map_some, Int64.ofInt_toInt]

theorem stringsField_strings (texts : List PlainText) :
    stringsField (.arr (texts.map fun text => .str text.text)) = some (texts.map (·.text)) := by
  rw [stringsField]
  induction texts with
  | nil => rfl
  | cons text texts ih =>
      rw [List.map_cons, List.mapM_cons, ih]
      rfl

/-- Each member is stored in the field of its name. -/
theorem set_members (header : KVSnapshotHeader Bytes) (value : Value) :
    header.set (magicKey.text, value) =
        (stringField header.magic value).map (fun magic => { header with magic }) ∧
      header.set (versionKey.text, value) =
        (intField header.version value).map (fun version => { header with version }) ∧
      header.set (startBlockKey.text, value) =
        (intField header.startBlock value).map (fun startBlock => { header with startBlock }) ∧
      header.set (endBlockKey.text, value) =
        (intField header.endBlock value).map (fun endBlock => { header with endBlock }) ∧
      header.set (createdAtKey.text, value) =
        (stringField header.createdAt value).map (fun createdAt => { header with createdAt }) ∧
      header.set (rootsKey.text, value) =
        (stringsField value).map (fun blockSigMerkleRoots => { header with blockSigMerkleRoots }) := by
  refine ⟨?_, ?_, ?_, ?_, ?_, ?_⟩ <;> unfold KVSnapshotHeader.set <;> rfl

/-- The header is read back as it was written. -/
theorem decodeHeader_headerReads (header : KVSnapshotHeader PlainText) :
    decodeHeader (.obj (headerReads header)) = some (header.map (·.text)) := by
  have set := set_members
  simp only [decodeHeader, headerReads, List.foldlM_cons, set, stringField, intField_marshalInt,
    Option.map_some, Option.bind_eq_bind, Option.bind_some]
  cases written : header.blockSigMerkleRoots with
  | nil => simp [KVSnapshotHeader.map, emptyHeader, written]
  | cons root roots =>
      simp only [List.isEmpty_cons, Bool.false_eq_true, if_false, List.foldlM_cons, set,
        stringsField_strings, Option.map_some, Option.bind_eq_bind, Option.bind_some]
      simp [KVSnapshotHeader.map, written]

/-! ### The bytes of the header -/

/-- A byte that neither closes an object nor ends a line. -/
def isInner (char : UInt8) : Bool := char != byte '}' && char != byte '\n'

theorem isInner_of_isDigit {char : UInt8} (digit : isDigit char = true) : isInner char = true := by
  have other : ∀ {other : UInt8}, isDigit other = false → char ≠ other := by
    rintro other none rfl
    rw [none] at digit
    cases digit
  simp only [isInner, Bool.and_eq_true, bne_iff_ne, ne_eq]
  exact ⟨other (by decide), other (by decide)⟩

theorem isInner_digits (number : Nat) :
    ((Nat.toDigits 10 number).map byte).all isInner = true :=
  List.all_eq_true.mpr fun char member => isInner_of_isDigit (isDigit_toDigits number char member)

theorem isInner_marshalInt (number : Int) : (marshalInt number).all isInner = true := by
  cases number with
  | ofNat magnitude =>
      rw [Int.ofNat_eq_natCast, marshalInt_nat]
      exact isInner_digits magnitude
  | negSucc magnitude =>
      rw [marshalInt_neg, List.all_cons, isInner_digits]
      decide

theorem isInner_quoted {text : Bytes} (inner : text.all isInner = true) :
    (quoted text).all isInner = true := by
  rw [quoted, List.all_append, List.all_cons, inner]
  decide

theorem isInner_commas {texts : List Bytes} (inner : ∀ text ∈ texts, text.all isInner = true) :
    (commas texts).all isInner = true := by
  induction texts with
  | nil => rfl
  | cons text texts ih =>
      have first := inner text List.mem_cons_self
      have others := ih fun other member => inner other (List.mem_cons_of_mem _ member)
      cases texts with
      | nil => exact first
      | cons next texts =>
          rw [commas, List.all_append, List.all_cons, first, others]
          decide

theorem isInner_padded (width number : Nat) : (padded width number).all isInner = true := by
  rw [padded, List.all_append, isInner_digits, Bool.and_true, List.all_eq_true]
  intro char member
  rw [List.eq_of_mem_replicate member]
  decide

theorem isInner_rfc3339 (moment : Timestamp) : moment.rfc3339.all isInner = true := by
  simp only [Timestamp.rfc3339, List.all_append, List.all_cons, isInner_padded, Bool.true_and]
  decide

theorem isInner_hexText (root : Bytes) : (hexText root).text.all isInner = true := by
  have digits : Hex.lowerDigits.all (fun digit => isInner (byte digit)) = true := by decide
  rw [List.all_eq_true] at digits ⊢
  intro char member
  obtain ⟨digit, written, rfl⟩ := List.mem_map.mp member
  exact digits digit (Hex.encode_lower root digit written)

theorem isInner_rootsMember (roots : List Bytes) :
    ∀ member ∈ rootsMember (roots.map hexText), (marshalMember member).all isInner = true := by
  intro member written
  rw [rootsMember] at written
  split at written
  · cases written
  · rw [List.mem_singleton] at written
    subst written
    have items : (commas ((roots.map hexText).map fun root => quoted root.text)).all isInner = true := by
      refine isInner_commas fun text member => ?_
      obtain ⟨plain, made, rfl⟩ := List.mem_map.mp member
      obtain ⟨root, _, rfl⟩ := List.mem_map.mp made
      exact isInner_quoted (isInner_hexText root)
    simp only [marshalMember, marshalArray, List.all_append, List.all_cons, items]
    decide

/-- The header of a snapshot closes at its last byte, and has one line. -/
theorem marshalHeader_front (startBlock endBlock : Int64) (now : Timestamp) (roots : List Bytes) :
    ∃ front, marshalHeader (snapshotHeader startBlock endBlock now roots) =
        byte '{' :: front ++ [byte '}'] ∧ front.all isInner = true := by
  refine ⟨_, rfl, isInner_commas fun text member => ?_⟩
  have value : ∀ {key : PlainText} {text : Bytes}, key.text.all isInner = true →
      text.all isInner = true → (marshalMember (key, text)).all isInner = true := by
    intro key text keyInner textInner
    rw [marshalMember, List.all_append, List.all_cons, isInner_quoted keyInner, textInner]
    decide
  simp only [headerMembers, List.map_cons, List.cons_append, List.nil_append,
    List.mem_cons] at member
  rcases member with rfl | rfl | rfl | rfl | rfl | others
  · exact value (by decide) (isInner_quoted (by decide : headerMagicValue.text.all isInner = true))
  · exact value (by decide) (isInner_marshalInt _)
  · exact value (by decide) (isInner_marshalInt _)
  · exact value (by decide) (isInner_marshalInt _)
  · exact value (by decide) (isInner_quoted (isInner_rfc3339 now))
  · obtain ⟨member, written, rfl⟩ := List.mem_map.mp others
    exact isInner_rootsMember roots member written

theorem length_commas_append {first : List Bytes} (nonempty : first ≠ []) (text : Bytes) :
    (commas (first ++ [text])).length = (commas first).length + 1 + text.length := by
  induction first with
  | nil => exact absurd rfl nonempty
  | cons other texts ih =>
      cases texts with
      | nil =>
          simp only [List.cons_append, List.nil_append, commas, List.length_append,
            List.length_cons]
          omega
      | cons next texts =>
          have others := ih (by simp)
          simp only [List.cons_append, commas, List.length_append, List.length_cons] at others ⊢
          omega

theorem length_commas_hexTexts {roots : List Bytes} (nonempty : roots ≠ []) :
    (commas ((roots.map hexText).map fun root => quoted root.text)).length + 1 =
      (roots.map fun root => 2 * root.length + 3).sum := by
  induction roots with
  | nil => exact absurd rfl nonempty
  | cons root roots ih =>
      have size : (quoted (hexText root).text).length = 2 * root.length + 2 := by
        simp [quoted, hexText]
      cases roots with
      | nil => simp [commas, size]
      | cons next roots =>
          have others := ih (by simp)
          simp only [List.map_cons, commas, List.length_append, List.length_cons, size,
            List.sum_cons] at others ⊢
          omega

/-- What a list of roots adds to the header. -/
def rootsSize (roots : List Bytes) : Nat :=
  if roots.isEmpty then 0 else 27 + (roots.map fun root => 2 * root.length + 3).sum

/-- The length of the header: names and punctuation, then what the inputs write. -/
def headerSize (startBlock endBlock : Int64) (now : Timestamp) (roots : List Bytes) : Nat :=
  72 + (marshalInt startBlock.toInt).length + (marshalInt endBlock.toInt).length +
    now.rfc3339.length + rootsSize roots

theorem length_marshalMember (key : PlainText) (text : Bytes) :
    (marshalMember (key, text)).length = key.text.length + text.length + 3 := by
  simp only [marshalMember, quoted, List.length_append, List.length_cons, List.length_nil]
  omega

theorem length_commas_headerMembers (startBlock endBlock : Int64) (now : Timestamp)
    (roots : List Bytes) :
    (commas ((headerMembers (snapshotHeader startBlock endBlock now roots)).map
      marshalMember)).length + 2 = headerSize startBlock endBlock now [] := by
  have magic : (quoted headerMagicValue.text).length = 6 := by decide
  have version : (marshalInt (1 : Int64).toInt).length = 1 := by decide
  have created : (quoted now.text.text).length = now.rfc3339.length + 2 := by
    simp [quoted, Timestamp.text]
  have keys : magicKey.text.length = 5 ∧ versionKey.text.length = 7 ∧
      startBlockKey.text.length = 11 ∧ endBlockKey.text.length = 9 ∧
      createdAtKey.text.length = 10 := by decide
  simp only [headerMembers, snapshotHeader, List.map_cons, List.map_nil, commas,
    List.length_append, List.length_cons, length_marshalMember, magic, version, created, keys,
    headerSize, rootsSize, List.isEmpty_nil, if_true]
  omega

theorem length_marshalHeader (startBlock endBlock : Int64) (now : Timestamp) (roots : List Bytes) :
    (marshalHeader (snapshotHeader startBlock endBlock now roots)).length =
      headerSize startBlock endBlock now roots := by
  have members := length_commas_headerMembers startBlock endBlock now roots
  have start : (snapshotHeader startBlock endBlock now roots).blockSigMerkleRoots =
    roots.map hexText := rfl
  rw [marshalHeader, marshalObject, List.map_append, start]
  cases roots with
  | nil =>
      rw [← members]
      simp [rootsMember]
  | cons root others =>
      have items := length_commas_hexTexts (show root :: others ≠ [] by simp)
      have key : rootsKey.text.length = 22 := by decide
      have base : (headerMembers (snapshotHeader startBlock endBlock now (root :: others))).map
          marshalMember ≠ [] := by simp [headerMembers]
      have written : (rootsMember ((root :: others).map hexText)).map marshalMember =
          [marshalMember (rootsKey,
            marshalArray (((root :: others).map hexText).map fun root => quoted root.text))] := rfl
      rw [written, List.length_append, List.length_cons, length_commas_append base,
        length_marshalMember, key, marshalArray]
      simp only [headerSize, rootsSize, List.isEmpty_nil, List.isEmpty_cons, List.length_append,
        List.length_cons, List.length_nil, if_true, Bool.false_eq_true, if_false] at members ⊢
      omega

/-! ### The records -/

/-- Exports are length-prefixed records with a sentinel behind them. -/
structure ExportsFrames (source : SnapshotSource)
    (records : String → List String → List Bytes) : Prop where
  exported : ∀ name ids, ∃ count,
    source.exportDocKVs name ids = .ok (frames (records name ids) ++ sentinel, count)
  framed : ∀ name ids, ∀ record ∈ records name ids, Framed record

/-- The records of a collection that has documents in the range. -/
def collectionRecords (records : String → List String → List Bytes)
    (docIDs : AList fun _ : String => List String) (name : String) : List Bytes :=
  let ids := (docIDs.lookup name).getD []
  if ids.isEmpty then [] else records name ids

theorem stripSentinel_frames (records : List Bytes) :
    stripSentinel (frames records ++ sentinel) = frames records := by
  have size : (sentinel : Bytes).length = sentinelLen := rfl
  rw [stripSentinel, List.length_append, size, if_pos (Nat.le_add_left _ _), Nat.add_sub_cancel,
    List.take_left]

theorem exportEach_frames {source : SnapshotSource} {records : String → List String → List Bytes}
    (exports : ExportsFrames source records) (docIDs : AList fun _ : String => List String)
    (names : List String) :
    ∃ total, exportEach source docIDs names =
      .ok (frames (names.flatMap (collectionRecords records docIDs)), total) := by
  induction names with
  | nil => exact ⟨0, rfl⟩
  | cons name names ih =>
      obtain ⟨total, others⟩ := ih
      simp only [exportEach, List.flatMap_cons, collectionRecords]
      split
      · exact ⟨total, others⟩
      · obtain ⟨count, exported⟩ := exports.exported name ((docIDs.lookup name).getD [])
        refine ⟨count + total, ?_⟩
        simp only [exported, others, stripSentinel_frames, frames_append]

/-! ### Importing what was written -/

/-- Whatever stands behind the header, it is read back unless its length overflows. -/
theorem readHeader_written (startBlock endBlock : Int64) (now : Timestamp) (roots : List Bytes)
    (behind : Bytes)
    (short : (marshalHeader (snapshotHeader startBlock endBlock now roots)).length < lengthLimit) :
    readHeader (be32 (marshalHeader (snapshotHeader startBlock endBlock now roots)).length ++
        (marshalHeader (snapshotHeader startBlock endBlock now roots) ++ behind)) =
      .ok (⟨startBlock, endBlock⟩, behind) := by
  have read := unmarshal_marshalHeader (snapshotHeader startBlock endBlock now roots) []
  rw [List.append_nil, if_pos (by decide)] at read
  have fits : ∀ header : Bytes, ¬ (header ++ behind).length < header.length := by
    intro header
    rw [List.length_append]
    omega
  rw [readHeader, readBe32_be32, Nat.mod_eq_of_lt short]
  simp only [if_neg (fits _), List.take_left, List.drop_left, read]
  rw [Option.bind_some, decodeHeader_headerReads]
  rfl

/-- A header whose length overflows is cut off before its closing brace. -/
theorem readHeader_overflow (startBlock endBlock : Int64) (now : Timestamp) (roots : List Bytes)
    (behind : Bytes)
    (long : lengthLimit ≤ (marshalHeader (snapshotHeader startBlock endBlock now roots)).length) :
    readHeader (be32 (marshalHeader (snapshotHeader startBlock endBlock now roots)).length ++
        (marshalHeader (snapshotHeader startBlock endBlock now roots) ++ behind)) =
      .error .parseHeader := by
  obtain ⟨front, written, inner⟩ := marshalHeader_front startBlock endBlock now roots
  generalize marshalHeader (snapshotHeader startBlock endBlock now roots) = header at written long
  subst written
  have positive : 0 < lengthLimit := by decide
  have cut := Nat.mod_lt (byte '{' :: front ++ [byte '}']).length positive
  generalize kept : (byte '{' :: front ++ [byte '}']).length % lengthLimit = size at cut
  have within : size ≤ (byte '{' :: front).length := by
    simp only [List.length_append, List.length_cons, List.length_nil] at long ⊢
    omega
  have unread : (unmarshal ((byte '{' :: front).take size)).bind decodeHeader = none := by
    cases size with
    | zero => rfl
    | succ size =>
        rw [List.take_succ_cons]
        cases read : unmarshal (byte '{' :: front.take size) with
        | none => rfl
        | some value =>
            obtain ⟨members, rfl⟩ := unmarshal_brace read
            obtain ⟨rest, after, start, _, closes, _⟩ := unmarshal_obj read
            rw [skipSpace_cons (by decide), List.cons.injEq] at start
            have member : byte '}' ∈ front := by
              have inside := closes.subset List.mem_cons_self
              rw [← start.2] at inside
              exact List.mem_of_mem_take inside
            have other := List.all_eq_true.mp inner _ member
            exact absurd other (by decide)
  have fits : ¬ (byte '{' :: front ++ [byte '}'] ++ behind).length < size := by
    rw [List.append_assoc, List.length_append]
    omega
  rw [readHeader, readBe32_be32, kept]
  simp only [if_neg fits]
  rw [List.append_assoc, List.take_append_of_le_length within, unread]

/-- The import reports the range and hands on one stream that holds the records, with
nothing behind them. -/
def ImportsAs (file : Bytes) (startBlock endBlock : Int64) (records : List Bytes) : Prop :=
  ∃ stream,
    (∀ importRawKVs, importKV importRawKVs (.ok file) =
      ((importRawKVs stream).map fun _ => ⟨startBlock, endBlock⟩).mapError .importRawKVs) ∧
    readAll stream = some (records, [])

/-- The records of all collections, in the order of the collections' names. -/
def allRecords (records : String → List String → List Bytes)
    (docIDs : AList fun _ : String => List String) : List Bytes :=
  (docIDs.keys.insertionSort (· ≤ ·)).flatMap (collectionRecords records docIDs)

/-- A file with this header, with the bytes behind it. -/
def headedFile (startBlock endBlock : Int64) (now : Timestamp) (roots : List Bytes)
    (behind : Bytes) : Bytes :=
  be32 (marshalHeader (snapshotHeader startBlock endBlock now roots)).length ++
    (marshalHeader (snapshotHeader startBlock endBlock now roots) ++ behind)

theorem writeKVSnapshotContents_frames {source : SnapshotSource}
    {records : String → List String → List Bytes} (exports : ExportsFrames source records)
    {docIDs : AList fun _ : String => List String} (found : source.docIDsByBlockRange = .ok docIDs)
    (running : source.ctxErr = none) (startBlock endBlock : Int64) (now : Timestamp) :
    writeKVSnapshotContents source startBlock endBlock now =
      .ok (headedFile startBlock endBlock now source.roots
        (frames (allRecords records docIDs) ++ sentinel), source.roots) := by
  obtain ⟨total, exported⟩ := exportEach_frames exports docIDs
    (docIDs.keys.insertionSort (· ≤ ·))
  simp only [writeKVSnapshotContents, running, exportCollectionKVs, found, exported, headedFile,
    allRecords, List.append_assoc]

theorem framed_allRecords {source : SnapshotSource}
    {records : String → List String → List Bytes} (exports : ExportsFrames source records)
    (docIDs : AList fun _ : String => List String) :
    ∀ record ∈ allRecords records docIDs, Framed record := by
  intro record member
  obtain ⟨name, _, inside⟩ := List.mem_flatMap.mp member
  rw [collectionRecords] at inside
  split at inside
  · cases inside
  · exact exports.framed _ _ record inside

theorem importsAs_headedFile {startBlock endBlock : Int64} {now : Timestamp} {roots : List Bytes}
    {records : List Bytes} (framed : ∀ record ∈ records, Framed record)
    (short : headerSize startBlock endBlock now roots < lengthLimit) :
    ImportsAs (headedFile startBlock endBlock now roots (frames records ++ sentinel))
      startBlock endBlock records := by
  rw [← length_marshalHeader] at short
  refine ⟨frames records ++ sentinel, fun importRawKVs => ?_, readAll_frames framed⟩
  simp only [importKV, headedFile, readHeader_written _ _ _ _ _ short]
  cases importRawKVs (frames records ++ sentinel) with
  | error => rfl
  | ok => rfl

theorem not_importsAs_headedFile {startBlock endBlock : Int64} {now : Timestamp}
    {roots : List Bytes} (behind : Bytes) (records : List Bytes)
    (long : lengthLimit ≤ headerSize startBlock endBlock now roots) :
    ¬ ImportsAs (headedFile startBlock endBlock now roots behind) startBlock endBlock records := by
  rw [← length_marshalHeader] at long
  intro imports
  obtain ⟨stream, imported, _⟩ := imports
  have failed := imported fun _ => .ok 0
  simp only [importKV, headedFile, readHeader_overflow _ _ _ _ _ long] at failed
  cases failed

/-- A snapshot is imported as it was written exactly if its header is shorter than what
the length field can hold. -/
theorem written_snapshot_imports_iff {source : SnapshotSource}
    {records : String → List String → List Bytes} (exports : ExportsFrames source records)
    {docIDs : AList fun _ : String => List String} (found : source.docIDsByBlockRange = .ok docIDs)
    (running : source.ctxErr = none) (startBlock endBlock : Int64) (now : Timestamp) :
    ∃ file, writeKVSnapshotContents source startBlock endBlock now = .ok (file, source.roots) ∧
      (ImportsAs file startBlock endBlock (allRecords records docIDs) ↔
        headerSize startBlock endBlock now source.roots < lengthLimit) := by
  refine ⟨_, writeKVSnapshotContents_frames exports found running startBlock endBlock now, ?_⟩
  constructor
  · intro imports
    by_contra long
    exact not_importsAs_headedFile _ _ (Nat.le_of_not_lt long) imports
  · exact importsAs_headedFile (framed_allRecords exports docIDs)

/-! Signatures of more blocks than the length field of a header can count. -/

def sampleMoment : Timestamp := ⟨2026, 1, 2, 3, 4, 5⟩

def zeroRoot : String := String.ofList (List.replicate 64 '0')

/-- No documents in the range, and the given number of block signatures. -/
def signedBlocks (count : Nat) : SnapshotSource where
  blockSigDocs := .ok (List.replicate count (some zeroRoot))
  docIDsByBlockRange := .ok ∅
  exportDocKVs := fun _ _ => .ok (sentinel, 0)

theorem roots_signedBlocks (count : Nat) :
    (signedBlocks count).roots = List.replicate count (List.replicate 32 0) := by
  rw [SnapshotSource.roots, signedBlocks]
  refine List.filterMap_replicate_of_some ?_
  decide

theorem exports_signedBlocks (count : Nat) :
    ExportsFrames (signedBlocks count) fun _ _ => [] :=
  ⟨fun _ _ => ⟨0, rfl⟩, by simp⟩

theorem headerSize_signedBlocks (startBlock endBlock : Int64) (now : Timestamp) (count : Nat) :
    67 * count ≤ headerSize startBlock endBlock now (signedBlocks count).roots := by
  rw [headerSize, roots_signedBlocks]
  cases count with
  | zero => exact Nat.zero_le _
  | succ count =>
      have nonempty : (List.replicate (count + 1) (List.replicate 32 (0 : UInt8))).isEmpty = false :=
        rfl
      rw [rootsSize, nonempty, if_neg (by decide), List.map_replicate, List.sum_replicate_nat,
        List.length_replicate]
      omega

/-- Enough signed blocks in one file make a header that is not read back. -/
theorem long_header_not_imported :
    ∃ file,
      writeKVSnapshotContents (signedBlocks 67108864) 1 67108864 sampleMoment =
        .ok (file, (signedBlocks 67108864).roots) ∧
      ¬ ImportsAs file 1 67108864 (allRecords (fun _ _ => []) ∅) := by
  refine ⟨_, writeKVSnapshotContents_frames (exports_signedBlocks _) rfl rfl _ _ _, ?_⟩
  apply not_importsAs_headedFile
  exact Nat.le_trans (by decide) (headerSize_signedBlocks 1 67108864 sampleMoment 67108864)

/-! A range with documents in two of three collections. -/

def sampleDocIDs : AList fun _ : String => List String :=
  ((AList.insert "Transaction" ["tx-1", "tx-2"] ∅).insert "AccessListEntry" []).insert "Block"
    ["block-1"]

def sampleRecords (name : String) (ids : List String) : List Bytes :=
  ids.map fun _ => [0, UInt8.ofNat name.length, 0]

def sampleSource : SnapshotSource where
  blockSigDocs := .ok [some zeroRoot, none, some "not hex"]
  docIDsByBlockRange := .ok sampleDocIDs
  exportDocKVs := fun name ids => .ok (frames (sampleRecords name ids) ++ sentinel, ids.length)

theorem exports_sampleSource : ExportsFrames sampleSource sampleRecords := by
  refine ⟨fun _ ids => ⟨ids.length, rfl⟩, fun name ids record member => ?_⟩
  obtain ⟨_, _, rfl⟩ := List.mem_map.mp member
  exact ⟨List.cons_ne_nil _ _, show 3 < lengthLimit by decide⟩

theorem sampleSource_imports :
    ∃ file,
      writeKVSnapshotContents sampleSource 1 2 sampleMoment = .ok (file, sampleSource.roots) ∧
      ImportsAs file 1 2 [[0, 5, 0], [0, 11, 0], [0, 11, 0]] := by
  obtain ⟨file, written, imports⟩ :=
    written_snapshot_imports_iff exports_sampleSource rfl rfl 1 2 sampleMoment
  have ordered : allRecords sampleRecords sampleDocIDs =
      [[0, 5, 0], [0, 11, 0], [0, 11, 0]] := by decide +kernel
  rw [ordered] at imports
  exact ⟨file, written, imports.mpr (by decide +kernel)⟩

end ShinzoGenerator.Snapshot
