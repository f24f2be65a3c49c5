import ShinzoGenerator.Snapshot.Archive

/-! The snapshot endpoints of the health server: the list of the files with their
signatures, and the download of a file. What a client gets from the two belongs together. -/

set_option autoImplicit false

namespace ShinzoGenerator.Server

open Json Snapshot

/-! ### Handlers -/

/-- An entry of the list. A missing signature is a nil pointer. -/
structure SnapshotListEntry where
  info : SnapshotInfo
  signed : Bool
  signature : Option SnapshotSignatureData

inductive Response where
  | error (status : Nat) (text : String)
  | snapshots (entries : List SnapshotListEntry)
  | file (filename : String) (bytes : Bytes)
  | noBody (filename : String)

/-- How the disk answers; `unfinished` is what a temporary file holds so far. -/
structure Disk where
  statFails : String → Bool
  openFails : String → Bool
  fileStatFails : String → Bool
  unfinished : String → Bytes

/-- The snapshotter, with its collection and its archive as they are, and the answer of
the database; without a node nothing is asked. -/
structure SnapshotServer where
  archive : Archive
  snapshotSigCollection : String
  node : Option RowsAnswer

def methodGet : String := "GET"

/-- The signatures by file. A failed query is only logged. -/
def SnapshotServer.signatures (server : SnapshotServer) : SignatureMap :=
  match server.node with
  | none => ∅
  | some answer =>
      match querySnapshotSignatures server.snapshotSigCollection server.archive.docs answer with
      | .ok sigs => sigs
      | .error _ => ∅

def snapshotsListHandler (method : String) (snapshotter : Option SnapshotServer) (disk : Disk) :
    Response :=
  if method ≠ methodGet then .error 405 "Method not allowed"
  else
    match snapshotter with
    | none => .error 404 "Snapshots not enabled"
    | some server =>
        .snapshots ((listSnapshots disk.statFails server.archive.life.dir).map fun info =>
          let sig := server.signatures.lookup info.filename
          { info, signed := sig.isSome, signature := sig })

/-- The last element of a path: a path of slashes only is a slash, and none is a dot. -/
def pathBase (path : List Char) : List Char :=
  if path = [] then ['.']
  else
    let last := ((path.reverse.dropWhile (· = '/')).takeWhile (· ≠ '/')).reverse
    if last = [] then ['/'] else last

/-- The names that denote directories. -/
def directoryNames : List String := [".", "..", "/"]

/-- A file of the snapshot directory, or a directory, by its name alone. -/
def getSnapshotPath (disk : Disk) (dir : Directory) (filename : String) : Option String :=
  if pathBase filename.toList ≠ filename.toList then none
  else if disk.statFails filename ∨ (filename ∉ dir ∧ filename ∉ directoryNames) then none
  else some filename

def downloadRoute : String := "/snapshots/"

/-- A directory is opened as well, but gives no bytes. -/
def snapshotDownloadHandler (method : String) (snapshotter : Option SnapshotServer) (disk : Disk)
    (path : String) : Response :=
  if method ≠ methodGet then .error 405 "Method not allowed"
  else
    match snapshotter with
    | none => .error 404 "Snapshots not enabled"
    | some server =>
        let filename :=
          if downloadRoute.toList.isPrefixOf path.toList
          then String.ofList (path.toList.drop downloadRoute.length) else path
        if filename = "" then snapshotsListHandler method snapshotter disk
        else
          match getSnapshotPath disk server.archive.life.dir filename with
          | none => .error 404 "Snapshot not found"
          | some name =>
              if disk.openFails name then .error 500 "Failed to open file"
              else if disk.fileStatFails name then .error 500 "Failed to stat file"
              else if name ∈ directoryNames then .noBody name
              else .file name ((server.archive.contents.lookup name).getD (disk.unfinished name))

/-! ### Names -/

theorem pathBase_of_plain {name : List Char} (nonempty : name ≠ []) (plain : '/' ∉ name) :
    pathBase name = name := by
  have other : ∀ char ∈ name.reverse, char ≠ '/' := fun char member slash =>
    plain (slash ▸ List.mem_reverse.mp member)
  have kept : name.reverse.dropWhile (· = '/') = name.reverse := by
    cases reversed : name.reverse with
    | nil => rfl
    | cons char rest =>
        have differs := other char (reversed ▸ List.mem_cons_self)
        rw [List.dropWhile_cons_of_neg (by simpa using differs)]
  have whole : name.reverse.takeWhile (· ≠ '/') = name.reverse :=
    List.takeWhile_eq_self_iff.mpr fun char member => decide_eq_true (other char member)
  simp only [pathBase, if_neg nonempty, kept, whole, List.reverse_reverse]

theorem slash_absent (number : Int) : '/' ∉ (toString number).toList := by
  have digits : ∀ count : Nat, '/' ∉ (toString count).toList := by
    intro count member
    rw [Nat.toString_eq_ofList_toDigits, String.toList_ofList] at member
    have digit := Nat.isDigit_of_mem_toDigits (by decide) (by decide) member
    exact absurd digit (by decide)
  cases number with
  | ofNat count => exact digits count
  | negSucc count =>
      have same : toString (Int.negSucc count) = "-" ++ toString (count + 1) := rfl
      rw [same, String.toList_append, List.mem_append, not_or]
      exact ⟨by decide, digits _⟩

theorem slash_absent_fileName (file : Completion) : '/' ∉ file.fileName.toList := by
  simp only [Completion.fileName, snapshotFileName, String.toList_append, List.mem_append, not_or]
  exact ⟨⟨⟨⟨by decide, slash_absent _⟩, by decide⟩, slash_absent _⟩, by decide⟩

/-- A snapshot file has a name of its own kind. -/
theorem fileName_ne_of_noGlob {file : Completion} {name : String} (other : matchesGlob name = false) :
    file.fileName ≠ name := by
  intro same
  have glob := matchesGlob_snapshotFileName file.startBlock file.endBlock
  rw [← Completion.fileName, same, other] at glob
  cases glob

theorem getSnapshotPath_file {disk : Disk} {dir : Directory} {file : Completion}
    (inside : file.fileName ∈ dir) (found : disk.statFails file.fileName = false) :
    getSnapshotPath disk dir file.fileName = some file.fileName := by
  have nonempty : file.fileName.toList ≠ [] := by
    intro empty
    exact fileName_ne_of_noGlob (by decide) (String.toList_eq_nil_iff.mp empty)
  have base := pathBase_of_plain nonempty (slash_absent_fileName file)
  simp only [getSnapshotPath, base, found, inside, ne_eq, not_true_eq_false, if_false,
    Bool.false_eq_true, false_and, or_self]

theorem download_file {server : SnapshotServer} {disk : Disk} {file : Completion} {bytes : Bytes}
    (inside : file.fileName ∈ server.archive.life.dir)
    (held : server.archive.contents.lookup file.fileName = some bytes)
    (found : disk.statFails file.fileName = false) (opens : disk.openFails file.fileName = false)
    (measured : disk.fileStatFails file.fileName = false) :
    snapshotDownloadHandler methodGet (some server) disk (downloadRoute ++ file.fileName) =
      .file file.fileName bytes := by
  have routed : downloadRoute.toList.isPrefixOf (downloadRoute ++ file.fileName).toList = true := by
    rw [String.toList_append, List.isPrefixOf_iff_prefix]
    exact List.prefix_append _ _
  have rest : String.ofList ((downloadRoute ++ file.fileName).toList.drop downloadRoute.length) =
      file.fileName := by
    rw [String.toList_append, ← String.length_toList, List.drop_left, String.ofList_toList]
  have nonempty : file.fileName ≠ "" := fileName_ne_of_noGlob (by decide)
  have notDirectory : file.fileName ∉ directoryNames := by
    simp only [directoryNames, List.mem_cons, List.not_mem_nil, or_false, not_or]
    exact ⟨fileName_ne_of_noGlob (by decide), fileName_ne_of_noGlob (by decide),
      fileName_ne_of_noGlob (by decide)⟩
  simp only [snapshotDownloadHandler, ne_eq, not_true_eq_false, if_false, routed, if_true, rest,
    nonempty, getSnapshotPath_file inside found, opens, measured, Bool.false_eq_true, notDirectory,
    held, Option.getD_some]

/-! ### What is listed -/

/-- The signature of a listed file: it is for this file and its range, it signs the Merkle
root of the roots in the header, and it is accepted for the signer it names. -/
structure Attests (crypto : Crypto) (info : SnapshotInfo) (roots : List Bytes)
    (sig : SnapshotSignatureData) : Prop where
  file : sig.snapshotFile = info.filename
  range : sig.startBlock.toInt = info.startBlock ∧ sig.endBlock.toInt = info.endBlock
  count : sig.blockCount = roots.length
  merkleRoot : ∃ root, computeSnapshotMerkleRoot roots = some root ∧
    sig.merkleRoot = hexString root
  roots : sig.blockSigMerkleRoots = [] ∨ sig.blockSigMerkleRoots = roots.map hexString
  accepted : SignatureAccepted crypto sig

section Listing

variable {cfg : SnapshotConfig} {identity : Identity} {archive : Archive}

theorem int64_bounds {number : Int} (low : 0 < number) (high : number < int64Limit) :
    (Int64.ofInt number).toInt = number := by
  rw [int64Limit] at high
  exact Int64.toInt_ofInt_of_le (by omega) (by omega)

/-- What a document of this generator attests after it was stored and read back. -/
theorem attests_of_signedBy {crypto : Crypto}
    (lawful : ∀ key, identity = .full key → key.Lawful crypto) {file : Completion}
    (fits : file.Fits cfg) {roots : List Bytes} (counted : roots.length < int64Limit)
    {doc : SignatureDoc} (signed : file.SignedBy identity roots doc) (type : ListType) :
    Attests crypto file.info roots
      (parseSnapshotSignatureDoc (type.renderRow doc.row)) := by
  obtain ⟨now, sig, signed, rfl⟩ := signed
  obtain ⟨⟨key, rfl⟩, version, named, first, last, count, listed⟩ := Completion.sign_some signed
  obtain ⟨accepted, root, computed, recorded⟩ := signed_accepted (lawful key rfl) signed
  have bounds := fits.bounds
  rw [parse_created type version (count ▸ counted)]
  refine ⟨named, ⟨?_, ?_⟩, count, ⟨root, computed, recorded⟩, ?_, accepted⟩
  · rw [first]
    exact int64_bounds bounds.1 (by omega)
  · rw [last]
    exact int64_bounds (by omega) bounds.2.2
  · by_cases other : type = .other
    · exact .inl (if_pos other)
    · exact .inr ((if_neg other).trans listed)

/-- One list of roots stands for the file and for all documents of this generator. -/
theorem exists_roots (sound : Sound cfg archive.life) (archived : Archived identity archive)
    {file : Completion} (done : file ∈ archive.life.completed) :
    ∃ roots, archive.HoldsRoots file roots ∧ ∀ doc ∈ archive.own, doc.file = file.fileName →
      roots.length < int64Limit ∧ file.SignedBy identity roots doc := by
  by_cases signed : ∃ doc ∈ archive.own, doc.file = file.fileName
  · obtain ⟨doc, own, named⟩ := signed
    obtain ⟨other, otherDone, roots, counted, holds, signed⟩ := archived.vouched doc own
    have same := sound.file_unique otherDone done (signed.file.symm.trans named)
    subst same
    refine ⟨roots, holds, fun second secondOwn secondNamed => ?_⟩
    have unique := List.inj_on_of_nodup_map archived.once secondOwn own
      (secondNamed.trans named.symm)
    exact ⟨counted, unique ▸ signed⟩
  · obtain ⟨roots, holds⟩ := archived.headed file done
    exact ⟨roots, holds, fun doc own named => absurd ⟨doc, own, named⟩ signed⟩

/-- A signature that the server finds for a file is that of a document for it. -/
theorem signatures_from (server : SnapshotServer) {name : String} (nonempty : name ≠ "")
    {sig : SnapshotSignatureData} (found : server.signatures.lookup name = some sig) :
    ∃ type : ListType, ∃ doc ∈ server.archive.docs, doc.file = name ∧
      parseSnapshotSignatureDoc (type.renderRow doc.row) = sig := by
  rw [SnapshotServer.signatures] at found
  have nothing : (∅ : SignatureMap).lookup name ≠ some sig := by simp
  cases node : server.node with
  | none => exact absurd (by simpa only [node] using found) nothing
  | some answer =>
      simp only [node] at found
      by_cases resolved : server.snapshotSigCollection = ""
      · rw [querySnapshotSignatures, if_pos resolved] at found
        exact absurd found nothing
      · cases answer with
        | fails error =>
            rw [querySnapshotSignatures, if_neg resolved] at found
            exact absurd found nothing
        | noData =>
            rw [querySnapshotSignatures, if_neg resolved] at found
            exact absurd found nothing
        | rows type order =>
            obtain ⟨sigs, queried, held⟩ :=
              lookup_querySnapshotSignatures resolved server.archive.docs type order
            simp only [queried] at found
            rcases held name nonempty with ⟨none, _⟩ | ⟨doc, stored, named, parsed⟩
            · rw [none] at found
              cases found
            · rw [parsed, Option.some.injEq] at found
              exact ⟨type, doc, stored, named, found⟩

theorem signatures_isSome {server : SnapshotServer} {type : ListType} {order : RowOrder}
    (answered : server.node = some (.rows type order))
    (resolved : server.snapshotSigCollection ≠ "") {name : String} (nonempty : name ≠ "") :
    (server.signatures.lookup name).isSome = true ↔
      ∃ doc ∈ server.archive.docs, doc.file = name := by
  obtain ⟨sigs, queried, held⟩ :=
    lookup_querySnapshotSignatures resolved server.archive.docs type order
  simp only [SnapshotServer.signatures, answered, queried]
  rcases held name nonempty with ⟨none, others⟩ | ⟨doc, stored, named, parsed⟩
  · rw [none]
    simpa using others
  · rw [parsed]
    exact ⟨fun _ => ⟨doc, stored, named⟩, fun _ => rfl⟩

/-- The listed files are disjoint ranges in ascending order. Each one can be downloaded and
begins with a header of its range; and a signature listed with it attests the roots of that
header, unless a peer sent a document for the same file name. With an answer from the
database, a file is listed as signed exactly if there is a document for it. -/
theorem listed_snapshots_authentic {crypto : Crypto}
    (lawful : ∀ key, identity = .full key → key.Lawful crypto)
    (reached : (archiving cfg identity).Path {} archive) (snapshotSigCollection : String)
    (node : Option RowsAnswer) (disk : Disk) {entries : List SnapshotListEntry}
    (listed : snapshotsListHandler methodGet
      (some { archive, snapshotSigCollection, node }) disk = .snapshots entries) :
    entries.Pairwise (fun first second => first.info.endBlock < second.info.startBlock) ∧
      ∀ entry ∈ entries, ∃ now roots behind,
        (∀ reads : Disk, reads.statFails entry.info.filename = false →
          reads.openFails entry.info.filename = false →
          reads.fileStatFails entry.info.filename = false →
          snapshotDownloadHandler methodGet (some { archive, snapshotSigCollection, node }) reads
              (downloadRoute ++ entry.info.filename) =
            .file entry.info.filename (headedFile (.ofInt entry.info.startBlock)
              (.ofInt entry.info.endBlock) now roots behind)) ∧
        (∀ sig, entry.signature = some sig → Attests crypto entry.info roots sig ∨
          ∃ doc ∈ archive.docs, doc.own = false ∧ doc.file = entry.info.filename) ∧
        ∀ type order, node = some (.rows type order) → snapshotSigCollection ≠ "" →
          (entry.signed = true ↔ ∃ doc ∈ archive.docs, doc.file = entry.info.filename) := by
  have below := lifetime_path reached
  have sound := sound_path below
  have archived := archived_path reached
  cases listed
  refine ⟨List.pairwise_map.mpr (listed_ascending sound disk.statFails), fun entry member => ?_⟩
  obtain ⟨info, shown, rfl⟩ := List.mem_map.mp member
  obtain ⟨file, done, inside, rfl⟩ := listed_completed sound shown
  obtain ⟨roots, holds, signed⟩ := exists_roots sound archived done
  obtain ⟨bytes, held⟩ : ∃ bytes, archive.contents.lookup file.fileName = some bytes :=
    Option.isSome_iff_exists.mp (AList.lookup_isSome.mpr
      ((archived.present file.fileName).mpr ⟨inside, matchesGlob_snapshotFileName _ _⟩))
  obtain ⟨_, now, behind, rfl⟩ := holds bytes held
  have nonempty : file.fileName ≠ "" := fileName_ne_of_noGlob (by decide)
  refine ⟨now, roots, behind, fun reads stat opens measured => ?_, fun sig is => ?_,
    fun type order answered resolved => signatures_isSome answered resolved nonempty⟩
  · exact download_file inside held stat opens measured
  · obtain ⟨type, doc, stored, named, rfl⟩ := signatures_from _ nonempty is
    cases own : doc.own with
    | false => exact .inr ⟨doc, stored, own, named⟩
    | true =>
        obtain ⟨counted, written⟩ := signed doc (List.mem_filter.mpr ⟨stored, own⟩) named
        exact .inl (attests_of_signedBy lawful (sound.fits file done) counted written type)

end Listing

/-! A first file is completed and signed. -/

def signingMoves : List ArchiveMove :=
  [.snapshot (.start fun _ => false), .snapshot .purged, .snapshot (.cycle 1 4),
    .rename (signedBlocks 1) sampleMoment, .sign sampleMoment true]

def signedArchive : Archive :=
  signingMoves.foldl (archiveEffect pairFiles (.full echoKey)) {}

theorem signedArchive_reached : (archiving pairFiles (.full echoKey)).Path {} signedArchive := by
  have leads : (archiving pairFiles (.full echoKey)).Leads signingMoves {} signedArchive :=
    ⟨⟨rfl, rfl, rfl⟩, ⟨rfl, rfl, rfl⟩, ⟨rfl, rfl, rfl, by decide, by decide, by decide⟩,
      ⟨rfl, ⟨2, 3, 1, 4⟩, _, _, rfl, rfl, by decide⟩, ⟨_, rfl⟩, rfl⟩
  exact leads.path

def storedOrder : RowOrder where
  arrange := id
  perm _ := .refl _

def readable : Disk where
  statFails _ := false
  openFails _ := false
  fileStatFails _ := false
  unfinished _ := []

def signedServer : SnapshotServer where
  archive := signedArchive
  snapshotSigCollection := "SnapshotSignature"
  node := some (.rows .other storedOrder)

/-- The file is listed with a signature that attests its header. -/
theorem signed_file_attested :
    ∃ entry, snapshotsListHandler methodGet (some signedServer) readable = .snapshots [entry] ∧
      entry.info = ⟨snapshotFileName 2 3, 2, 3⟩ ∧ entry.signed = true ∧
      ∃ roots, ∀ sig, entry.signature = some sig → Attests echoCrypto entry.info roots sig := by
  have lawful : ∀ key, Identity.full echoKey = .full key → key.Lawful echoCrypto := by
    intro key same
    cases same
    exact echoKey_lawful
  have infos : listSnapshots readable.statFails signedArchive.life.dir =
      [⟨snapshotFileName 2 3, 2, 3⟩] := by decide +kernel
  have own : signedArchive.docs.map (·.own) = [true] := by decide +kernel
  have files : signedArchive.docs.map (·.file) = [snapshotFileName 2 3] := by decide +kernel
  have listed : snapshotsListHandler methodGet (some signedServer) readable =
      .snapshots ([⟨snapshotFileName 2 3, 2, 3⟩].map fun info =>
        let sig := signedServer.signatures.lookup info.filename
        { info, signed := sig.isSome, signature := sig }) := by
    rw [← infos]
    rfl
  obtain ⟨now, roots, behind, _, attested, signed⟩ := (listed_snapshots_authentic lawful
    signedArchive_reached "SnapshotSignature" (some (.rows .other storedOrder)) readable
      listed).2 _ (List.mem_singleton_self _)
  refine ⟨_, listed, rfl, (signed _ _ rfl (by decide)).mpr ?_, roots, fun sig is => ?_⟩
  · exact List.mem_map.mp (files ▸ List.mem_singleton_self _)
  · refine (attested sig is).resolve_right fun peer => ?_
    obtain ⟨doc, stored, foreign, _⟩ := peer
    have member : doc.own ∈ signedArchive.docs.map (·.own) := List.mem_map.mpr ⟨doc, stored, rfl⟩
    rw [own, List.mem_singleton, foreign] at member
    cases member

end ShinzoGenerator.Server
