import ShinzoGenerator.Snapshot.Retained
import ShinzoGenerator.Snapshot.SignatureDocs

/-! The snapshot files with what they hold, and the signature documents beside them, over
whole lifetimes of a directory. A document is written once its file has its name and
deleted once its file is gone; the process may end between the two. -/

set_option autoImplicit false

namespace ShinzoGenerator.Snapshot

open Json

/-! ### The archive -/

/-- What is left to do for one file: to sign it with the roots in its header, or to delete
its documents. -/
inductive Errand where
  | none
  | sign (roots : List Bytes)
  | deleteDocs (filename : String)
deriving DecidableEq

/-- The file whose documents would stay if the process ended now. -/
def Errand.undeleted : Errand → List String
  | .deleteDocs filename => [filename]
  | .none | .sign _ => []

/-- The directory with the contents of its snapshot files, and the signature documents.
`stranded` records the removed files whose documents were not deleted. -/
structure Archive where
  life : Lifetime := {}
  contents : AList (fun _ : String => Bytes) := ∅
  docs : List SignatureDoc := []
  errand : Errand := .none
  stranded : List String := []

inductive ArchiveMove where
  | snapshot (move : SnapshotMove)
  | rename (source : SnapshotSource) (now : Timestamp)
  | sign (now : Timestamp) (stores : Bool)
  | remove (fails : Bool)
  | deleteDocs (answer : DeleteAnswer)
  | crash
  | replicate (row : Row)

/-- The moves of the snapshotter that neither complete nor remove a file. -/
def SnapshotMove.quiet : SnapshotMove → Bool
  | .start _ | .cycle _ _ | .createFails _ | .advance _ | .purged => true
  | .rename | .remove _ | .crash => false

/-- What is written into the file of a range. -/
def Completion.write (file : Completion) (source : SnapshotSource) (now : Timestamp) :
    Except String (Bytes × List Bytes) :=
  writeKVSnapshotContents source (.ofInt file.startBlock) (.ofInt file.endBlock) now

def Completion.sign (file : Completion) (identity : Identity) (roots : List Bytes)
    (now : Timestamp) : Except String (Option SnapshotSignatureData) :=
  signSnapshotWithRoots identity file.fileName (.ofInt file.startBlock) (.ofInt file.endBlock)
    roots roots.length now

/-- The document that signing adds. A failure to store it is only logged. -/
def Completion.signedDocs (file : Completion) (identity : Identity) (roots : List Bytes)
    (now : Timestamp) (stores : Bool) : List SignatureDoc :=
  match file.sign identity roots now with
  | .ok (some sig) => if stores then [createSnapshotSignatureDoc sig] else []
  | _ => []

/-- The roots are a Go slice, counted by an `int`. -/
def archiveEnabled (archive : Archive) : ArchiveMove → Prop
  | .snapshot move =>
      archive.errand = .none ∧ move.quiet = true ∧ snapshotEnabled archive.life move
  | .rename source now => archive.errand = .none ∧ ∃ file bytes roots,
      archive.life.phase = .writing file ∧ file.write source now = .ok (bytes, roots) ∧
        roots.length < int64Limit
  | .sign _ _ => ∃ roots, archive.errand = .sign roots
  | .remove _ => archive.errand = .none ∧ ∃ name rest, archive.life.phase = .purging (name :: rest)
  | .deleteDocs _ => ∃ filename, archive.errand = .deleteDocs filename
  | .crash => archive.life.phase ≠ .down
  | .replicate _ => True

def archiveEffect (cfg : SnapshotConfig) (identity : Identity) (archive : Archive)
    (move : ArchiveMove) : Archive :=
  match move with
  | .snapshot move => { archive with life := snapshotEffect cfg archive.life move }
  | .rename source now =>
      match archive.life.phase with
      | .writing file =>
          match file.write source now with
          | .ok (bytes, roots) =>
              { archive with
                life := snapshotEffect cfg archive.life .rename
                contents := archive.contents.insert file.fileName bytes
                errand := .sign roots }
          | .error _ => archive
      | _ => archive
  | .sign now stores =>
      match archive.errand, archive.life.phase with
      | .sign roots, .renamed file =>
          { archive with
            docs := archive.docs ++ file.signedDocs identity roots now stores
            errand := .none }
      | _, _ => archive
  | .remove fails =>
      match archive.life.phase with
      | .purging (name :: _) =>
          { archive with
            life := snapshotEffect cfg archive.life (.remove fails)
            contents := if fails then archive.contents else archive.contents.erase name
            errand := if fails then .none else .deleteDocs name }
      | _ => archive
  | .deleteDocs answer =>
      match archive.errand with
      | .deleteDocs filename =>
          let left := deleteSnapshotSignatureDoc answer filename archive.docs
          { archive with
            docs := left.1
            errand := .none
            stranded := if left.2 then archive.stranded else archive.stranded ++ [filename] }
      | _ => archive
  | .crash =>
      { archive with
        life := snapshotEffect cfg archive.life .crash
        errand := .none
        stranded := archive.stranded ++ archive.errand.undeleted }
  | .replicate row => { archive with docs := archive.docs ++ [{ row, own := false }] }

def archiving (cfg : SnapshotConfig) (identity : Identity) :
    GuardedSystem Archive ArchiveMove where
  enabled := archiveEnabled
  effect := archiveEffect cfg identity

/-! ### The snapshotter below -/

section Archiving

variable {cfg : SnapshotConfig} {identity : Identity} {archive : Archive}

/-- What happens to the archive is a lifetime of the directory. -/
theorem lifetime_path (reached : (archiving cfg identity).Path {} archive) :
    (snapshotter cfg).Path {} archive.life := by
  induction reached with
  | refl => exact .refl
  | @step archive move _ enabled path =>
      change (snapshotter cfg).Path {} (archiveEffect cfg identity archive move).life
      cases move with
      | snapshot move => exact path.step enabled.2.2
      | rename source now =>
          obtain ⟨_, file, bytes, roots, writing, wrote, _⟩ := enabled
          simp only [archiveEffect, writing, wrote]
          exact path.step (show snapshotEnabled archive.life .rename from ⟨file, writing⟩)
      | sign now stores =>
          simp only [archiveEffect]
          split
          · exact path
          · exact path
      | remove fails =>
          obtain ⟨_, name, rest, purging⟩ := enabled
          simp only [archiveEffect, purging]
          exact path.step
            (show snapshotEnabled archive.life (.remove fails) from ⟨name, rest, purging⟩)
      | deleteDocs answer =>
          simp only [archiveEffect]
          split
          · exact path
          · exact path
      | crash => exact path.step (show snapshotEnabled archive.life .crash from enabled)
      | replicate row => exact path

/-- A quiet move changes temporary files only. -/
theorem quiet_keeps {life : Lifetime} {move : SnapshotMove} (quiet : move.quiet = true) :
    (snapshotEffect cfg life move).completed = life.completed ∧
      ∀ name, matchesGlob name = true →
        (name ∈ (snapshotEffect cfg life move).dir ↔ name ∈ life.dir) := by
  unfold snapshotEffect
  split
  · exact ⟨rfl, fun _ _ => Iff.rfl⟩
  · split
    · exact ⟨rfl, fun _ _ => Iff.rfl⟩
    · refine ⟨rfl, fun name glob => ?_⟩
      simp only [Directory.mem_with, or_iff_left (ne_tmpFileName glob _)]
  · refine ⟨rfl, fun name glob => ?_⟩
    split
    · exact Iff.rfl
    · simp only [Directory.mem_without, and_iff_left (ne_tmpFileName glob _)]
  · cases quiet
  · exact ⟨rfl, fun _ _ => Iff.rfl⟩
  · cases quiet
  · exact ⟨rfl, fun _ _ => Iff.rfl⟩
  · cases quiet
  · exact ⟨rfl, fun _ _ => Iff.rfl⟩

/-! ### What is about to be removed -/

/-- What a purge is about to remove are files that were completed. -/
def Lifetime.Expiring (life : Lifetime) : Prop :=
  ∀ names, life.phase = .purging names → ∀ name ∈ names,
    ∃ file ∈ life.completed, file.fileName = name

theorem Sound.expiredNames_completed {life : Lifetime} (sound : Sound cfg life)
    (statFails : String → Bool) :
    ∀ name ∈ expiredNames cfg statFails life.dir, ∃ file ∈ life.completed, file.fileName = name := by
  intro name expired
  obtain ⟨info, member, rfl⟩ := List.mem_map.mp expired
  obtain ⟨count, taken, _⟩ := expiredSnapshots_rest cfg (List.ne_nil_of_mem member)
  rw [taken] at member
  obtain ⟨inside, glob, _⟩ := mem_listSnapshots (List.mem_of_mem_take member)
  exact sound.own _ inside glob

theorem expiring_step {life : Lifetime} {move : SnapshotMove} (sound : Sound cfg life)
    (expiring : life.Expiring) (enabled : (snapshotter cfg).enabled life move) :
    ((snapshotter cfg).effect life move).Expiring := by
  change (snapshotEffect cfg life move).Expiring
  cases move with
  | start statFails =>
      have located : life.phase = .down := enabled
      simp only [snapshotEffect, located]
      intro names purging
      cases purging
      exact sound.expiredNames_completed statFails
  | advance statFails =>
      obtain ⟨file, renamed⟩ := enabled
      simp only [snapshotEffect, renamed]
      intro names purging
      cases purging
      exact sound.expiredNames_completed statFails
  | remove fails =>
      obtain ⟨name, rest, located⟩ := enabled
      simp only [snapshotEffect, located]
      intro names purging
      cases purging
      exact fun other listed => expiring _ located other (List.mem_cons_of_mem _ listed)
  | cycle lowest highest =>
      have idle : life.phase = .idle := enabled.1
      simp only [snapshotEffect, idle]
      cases decideSnapshot cfg life.lastSnapshotBlock lowest highest with
      | none => exact expiring
      | some range =>
          intro names purging
          cases purging
  | createFails tmpStays =>
      obtain ⟨file, writing⟩ := enabled
      simp only [snapshotEffect, writing]
      intro names purging
      cases purging
  | rename =>
      obtain ⟨file, writing⟩ := enabled
      simp only [snapshotEffect, writing]
      intro names purging
      cases purging
  | purged =>
      have located : life.phase = .purging [] := enabled
      simp only [snapshotEffect, located]
      intro names purging
      cases purging
  | crash =>
      simp only [snapshotEffect]
      intro names purging
      cases purging

theorem expiring_path {life : Lifetime} (reached : (snapshotter cfg).Path {} life) :
    life.Expiring := by
  refine reached.invariant_under (fun _ path => sound_path path) ?_
    (fun _ _ sound expiring enabled => expiring_step sound expiring enabled)
  intro names purging
  cases purging

/-! ### The invariant -/

/-- The bytes of a file: a header of its range with these roots comes first. -/
def Completion.Headed (file : Completion) (roots : List Bytes) (bytes : Bytes) : Prop :=
  roots.length < int64Limit ∧ ∃ now behind,
    bytes = headedFile (.ofInt file.startBlock) (.ofInt file.endBlock) now roots behind

/-- A document that this generator wrote for a file, signing these roots. -/
def Completion.SignedBy (file : Completion) (identity : Identity) (roots : List Bytes)
    (doc : SignatureDoc) : Prop :=
  ∃ now sig, file.sign identity roots now = .ok (some sig) ∧ doc = createSnapshotSignatureDoc sig

/-- Whatever the archive holds under the name of the file has a header with these roots. -/
def Archive.HoldsRoots (archive : Archive) (file : Completion) (roots : List Bytes) : Prop :=
  ∀ bytes, archive.contents.lookup file.fileName = some bytes → file.Headed roots bytes

def Archive.own (archive : Archive) : List SignatureDoc := archive.docs.filter (·.own)

/-- The removed files whose documents are still there, for good or for a moment. -/
def Archive.lost (archive : Archive) : List String :=
  archive.stranded ++ archive.errand.undeleted

structure Archived (identity : Identity) (archive : Archive) : Prop where
  present : ∀ name, name ∈ archive.contents ↔
    name ∈ archive.life.dir ∧ matchesGlob name = true
  headed : ∀ file ∈ archive.life.completed, ∃ roots, archive.HoldsRoots file roots
  vouched : ∀ doc ∈ archive.own, ∃ file ∈ archive.life.completed, ∃ roots,
    roots.length < int64Limit ∧ archive.HoldsRoots file roots ∧ file.SignedBy identity roots doc
  once : (archive.own.map (·.file)).Nodup
  signing : ∀ roots, archive.errand = .sign roots → ∃ file, archive.life.phase = .renamed file ∧
    roots.length < int64Limit ∧ archive.HoldsRoots file roots ∧
      ∀ doc ∈ archive.own, doc.file ≠ file.fileName
  gone : ∀ name ∈ archive.lost,
    name ∉ archive.life.dir ∧ ∃ file ∈ archive.life.completed, file.fileName = name
  kept : ∀ doc ∈ archive.own, doc.file ∈ archive.life.dir ∨ doc.file ∈ archive.lost

/-- A signature is made with a full identity, and it records what it is for. -/
theorem Completion.sign_some {file : Completion} {roots : List Bytes} {now : Timestamp}
    {sig : SnapshotSignatureData} (signed : file.sign identity roots now = .ok (some sig)) :
    (∃ key, identity = .full key) ∧ sig.version = 1 ∧ sig.snapshotFile = file.fileName ∧
      sig.startBlock = .ofInt file.startBlock ∧ sig.endBlock = .ofInt file.endBlock ∧
      sig.blockCount = roots.length ∧ sig.blockSigMerkleRoots = roots.map hexString := by
  rw [Completion.sign, signSnapshotWithRoots] at signed
  repeat' split at signed
  all_goals cases signed
  rename_i named
  refine ⟨?_, rfl, rfl, rfl, rfl, rfl, rfl⟩
  cases identity with
  | missing => cases named
  | notFull => cases named
  | full key => exact ⟨key, rfl⟩

theorem Completion.SignedBy.file {file : Completion} {roots : List Bytes} {doc : SignatureDoc}
    (signed : file.SignedBy identity roots doc) : doc.file = file.fileName := by
  obtain ⟨now, sig, signed, rfl⟩ := signed
  exact (Completion.sign_some signed).2.2.1

/-- A new lifetime under the same archive. -/
theorem Archived.of_life (archived : Archived identity archive) {life : Lifetime}
    (completed : life.completed = archive.life.completed)
    (dir : ∀ name, matchesGlob name = true → (name ∈ life.dir ↔ name ∈ archive.life.dir))
    (idle : archive.errand = .none) : Archived identity { archive with life } := by
  have inDir : ∀ {file : Completion}, file ∈ archive.life.completed →
      (file.fileName ∈ life.dir ↔ file.fileName ∈ archive.life.dir) :=
    fun _ => dir _ (matchesGlob_snapshotFileName _ _)
  refine ⟨fun name => ?_, ?_, ?_, archived.once, ?_, ?_, ?_⟩
  · rw [archived.present name]
    exact and_congr_left fun glob => (dir name glob).symm
  · simp only [completed]
    exact archived.headed
  · simp only [completed]
    exact archived.vouched
  · intro roots signing
    rw [idle] at signing
    cases signing
  · intro name lost
    obtain ⟨absent, file, done, rfl⟩ := archived.gone name lost
    exact ⟨fun member => absent ((inDir done).mp member), file, completed ▸ done, rfl⟩
  · intro doc own
    obtain ⟨file, done, _, _, _, signed⟩ := archived.vouched doc own
    refine (archived.kept doc own).imp_left fun member => ?_
    rw [signed.file] at member ⊢
    exact (inDir done).mpr member

/-- What is left to do changes, but not the files whose documents are still there. -/
theorem Archived.settle (archived : Archived identity archive) {errand : Errand}
    {stranded : List String} (same : stranded ++ errand.undeleted = archive.lost)
    (idle : ∀ roots, errand ≠ .sign roots) : Archived identity { archive with errand, stranded } := by
  have lost : Archive.lost { archive with errand, stranded } = archive.lost := same
  refine ⟨archived.present, archived.headed, archived.vouched, archived.once,
    fun roots signing => absurd signing (idle roots), ?_, ?_⟩
  · rw [lost]
    exact archived.gone
  · rw [lost]
    exact archived.kept

theorem Archived.addDoc (archived : Archived identity archive) (idle : archive.errand = .none)
    {file : Completion} (done : file ∈ archive.life.completed)
    (inside : file.fileName ∈ archive.life.dir) {roots : List Bytes}
    (counted : roots.length < int64Limit) (holds : archive.HoldsRoots file roots)
    (unsigned : ∀ doc ∈ archive.own, doc.file ≠ file.fileName) {doc : SignatureDoc}
    (own : doc.own = true) (signed : file.SignedBy identity roots doc) :
    Archived identity { archive with docs := archive.docs ++ [doc] } := by
  have docs : Archive.own { archive with docs := archive.docs ++ [doc] } =
      archive.own ++ [doc] := by
    simp only [Archive.own, List.filter_append]
    simp [own]
  refine ⟨archived.present, archived.headed, ?_, ?_, ?_, archived.gone, ?_⟩
  · intro other member
    rw [docs] at member
    rcases List.mem_append.mp member with old | single
    · exact archived.vouched other old
    · rw [List.mem_singleton.mp single]
      exact ⟨file, done, roots, counted, holds, signed⟩
  · rw [docs, List.map_append]
    refine List.nodup_append.mpr ⟨archived.once, List.nodup_singleton _, ?_⟩
    intro name named other single same
    obtain ⟨earlier, member, rfl⟩ := List.mem_map.mp named
    refine unsigned earlier member ?_
    rw [same, List.mem_singleton.mp single]
    exact signed.file
  · intro roots signing
    rw [idle] at signing
    cases signing
  · intro other member
    rw [docs] at member
    rcases List.mem_append.mp member with old | single
    · exact archived.kept other old
    · rw [List.mem_singleton.mp single, signed.file]
      exact .inl inside

/-! ### Steps -/

theorem Archived.own_file (archived : Archived identity archive) {doc : SignatureDoc}
    (own : doc ∈ archive.own) : ∃ file ∈ archive.life.completed, doc.file = file.fileName := by
  obtain ⟨file, done, _, _, _, signed⟩ := archived.vouched doc own
  exact ⟨file, done, signed.file⟩

theorem Completion.headed_write {file : Completion} {source : SnapshotSource} {now : Timestamp}
    {bytes : Bytes} {roots : List Bytes} (wrote : file.write source now = .ok (bytes, roots))
    (counted : roots.length < int64Limit) : file.Headed roots bytes := by
  rw [Completion.write] at wrote
  cases exported : exportCollectionKVs source (.ofInt file.startBlock) (.ofInt file.endBlock) with
  | error error =>
      simp [writeKVSnapshotContents, ctxErr_of_written wrote, exported] at wrote
  | ok data =>
      rw [writeKVSnapshotContents_data exported (ctxErr_of_written wrote), Except.ok.injEq,
        Prod.mk.injEq] at wrote
      obtain ⟨rfl, rfl⟩ := wrote
      exact ⟨counted, now, _, rfl⟩

theorem Archive.HoldsRoots.insert {file other : Completion} {roots : List Bytes}
    (holds : archive.HoldsRoots file roots) (differ : file.fileName ≠ other.fileName)
    (bytes : Bytes) (life : Lifetime) (errand : Errand) :
    Archive.HoldsRoots { archive with
      life, contents := archive.contents.insert other.fileName bytes, errand } file roots := by
  intro held found
  refine holds held ?_
  rwa [AList.lookup_insert_ne differ] at found

theorem Archived.rename (archived : Archived identity archive) (sound : Sound cfg archive.life)
    (idle : archive.errand = .none) {file : Completion} (writing : archive.life.phase = .writing file)
    {bytes : Bytes} {roots : List Bytes} (headed : file.Headed roots bytes) :
    Archived identity { archive with
      life := snapshotEffect cfg archive.life .rename
      contents := archive.contents.insert file.fileName bytes
      errand := .sign roots } := by
  have fresh := sound.fresh writing
  have glob : ∀ done : Completion, matchesGlob done.fileName = true :=
    fun done => matchesGlob_snapshotFileName _ _
  have lost : ∀ roots, Archive.lost { archive with errand := .sign roots } = archive.lost := by
    intro roots
    rw [Archive.lost, Archive.lost, idle]
    rfl
  have new : Archive.HoldsRoots { archive with
      life := snapshotEffect cfg archive.life .rename
      contents := archive.contents.insert file.fileName bytes
      errand := .sign roots } file roots := by
    intro held found
    rw [AList.lookup_insert, Option.some.injEq] at found
    exact found ▸ headed
  simp only [snapshotEffect, writing] at new ⊢
  refine ⟨fun name => ?_, ?_, ?_, archived.once, ?_, ?_, ?_⟩
  · rw [AList.mem_insert, archived.present name]
    constructor
    · intro known
      rcases known with rfl | ⟨inside, matched⟩
      · exact ⟨Directory.mem_with.mpr (.inr rfl), glob file⟩
      · refine ⟨Directory.mem_with.mpr (.inl ?_), matched⟩
        exact Directory.mem_without.mpr ⟨inside, ne_tmpFileName matched _⟩
    · intro known
      refine (Directory.mem_with.mp known.1).symm.imp_right fun inside => ?_
      exact ⟨(Directory.mem_without.mp inside).1, known.2⟩
  · intro done member
    rcases List.mem_append.mp member with old | single
    · obtain ⟨known, holds⟩ := archived.headed done old
      exact ⟨known, holds.insert (fresh done old) _ _ _⟩
    · rw [List.mem_singleton.mp single]
      exact ⟨roots, new⟩
  · intro doc own
    obtain ⟨done, old, known, counted, holds, signed⟩ := archived.vouched doc own
    exact ⟨done, List.mem_append_left _ old, known, counted,
      holds.insert (fresh done old) _ _ _, signed⟩
  · intro other signing
    cases signing
    refine ⟨file, rfl, headed.1, new, fun doc own same => ?_⟩
    obtain ⟨done, old, named⟩ := archived.own_file own
    exact fresh done old (named.symm.trans same)
  · intro name member
    obtain ⟨absent, done, old, rfl⟩ := archived.gone name (lost roots ▸ member)
    refine ⟨fun inside => ?_, done, List.mem_append_left _ old, rfl⟩
    rcases Directory.mem_with.mp inside with before | same
    · exact absent (Directory.mem_without.mp before).1
    · exact fresh done old same
  · intro doc own
    obtain ⟨done, old, named⟩ := archived.own_file own
    refine (archived.kept doc own).imp (fun inside => Directory.mem_with.mpr (.inl ?_))
      fun member => (lost roots).symm ▸ member
    exact Directory.mem_without.mpr ⟨inside, named ▸ ne_tmpFileName (glob done) _⟩

/-- Signing adds nothing, or one document of the file. -/
theorem signedDocs_cases (file : Completion) (roots : List Bytes) (now : Timestamp)
    (stores : Bool) :
    file.signedDocs identity roots now stores = [] ∨
      ∃ doc, file.signedDocs identity roots now stores = [doc] ∧ doc.own = true ∧
        file.SignedBy identity roots doc := by
  rw [Completion.signedDocs]
  split
  · rename_i sig signed
    cases stores with
    | true => exact .inr ⟨_, rfl, rfl, now, sig, signed, rfl⟩
    | false => exact .inl rfl
  · exact .inl rfl

theorem Archived.sign (archived : Archived identity archive) (sound : Sound cfg archive.life)
    {roots : List Bytes} (signing : archive.errand = .sign roots) (now : Timestamp) (stores : Bool) :
    Archived identity (archiveEffect cfg identity archive (.sign now stores)) := by
  obtain ⟨file, renamed, counted, holds, unsigned⟩ := archived.signing roots signing
  have newest := sound.cursor
  rw [CursorAt, renamed] at newest
  have settled : Archived identity { archive with errand := .none } := by
    refine archived.settle ?_ (fun roots same => by cases same)
    rw [Archive.lost, signing]
    rfl
  simp only [archiveEffect, signing, renamed]
  rcases signedDocs_cases file roots now stores with none | ⟨doc, added, own, signed⟩
  · rw [none, List.append_nil]
    exact settled
  · rw [added]
    exact settled.addDoc rfl (List.mem_of_getLast? newest) (sound.newest file newest) counted holds
      unsigned own signed

theorem Archived.remove (archived : Archived identity archive) (expiring : archive.life.Expiring)
    (idle : archive.errand = .none) {name : String} {rest : List String}
    (purging : archive.life.phase = .purging (name :: rest)) (fails : Bool) :
    Archived identity (archiveEffect cfg identity archive (.remove fails)) := by
  simp only [archiveEffect, snapshotEffect, purging]
  cases fails with
  | true =>
      have same : Archived identity
          { archive with life := { archive.life with phase := .purging rest } } :=
        archived.of_life rfl (fun _ _ => Iff.rfl) idle
      simpa only [if_true, idle] using same
  | false =>
      have before : archive.lost = archive.stranded := by
        rw [Archive.lost, idle]
        exact List.append_nil _
      have erased : ∀ {file : Completion} {roots : List Bytes}, archive.HoldsRoots file roots →
          ∀ bytes, (archive.contents.erase name).lookup file.fileName = some bytes →
            file.Headed roots bytes := by
        intro file roots holds bytes found
        by_cases same : file.fileName = name
        · rw [same, AList.lookup_erase] at found
          cases found
        · rw [AList.lookup_erase_ne same] at found
          exact holds bytes found
      refine ⟨fun other => ?_, ?_, ?_, archived.once, ?_, ?_, ?_⟩
      · simp only [Bool.false_eq_true, if_false, AList.mem_erase, archived.present other,
          Directory.mem_without]
        tauto
      · intro file done
        obtain ⟨roots, holds⟩ := archived.headed file done
        exact ⟨roots, erased holds⟩
      · intro doc own
        obtain ⟨file, done, roots, counted, holds, signed⟩ := archived.vouched doc own
        exact ⟨file, done, roots, counted, erased holds, signed⟩
      · intro roots same
        cases same
      · intro other member
        simp only [Bool.false_eq_true, if_false, Directory.mem_without]
        rcases List.mem_append.mp member with old | single
        · obtain ⟨absent, found⟩ := archived.gone other (before.symm ▸ old)
          exact ⟨fun inside => absent inside.1, found⟩
        · rw [List.mem_singleton.mp single]
          exact ⟨fun inside => inside.2 rfl, expiring _ purging name List.mem_cons_self⟩
      · intro doc own
        simp only [Bool.false_eq_true, if_false, Directory.mem_without]
        by_cases same : doc.file = name
        · exact .inr (List.mem_append_right _ (same ▸ List.mem_singleton_self _))
        · exact (archived.kept doc own).imp (fun inside => ⟨inside, same⟩)
            fun member => List.mem_append_left _ (before ▸ member)

theorem Archived.deleteDocs (archived : Archived identity archive) {filename : String}
    (pending : archive.errand = .deleteDocs filename) (answer : DeleteAnswer) :
    Archived identity (archiveEffect cfg identity archive (.deleteDocs answer)) := by
  have lost : archive.lost = archive.stranded ++ [filename] := by
    rw [Archive.lost, pending]
    rfl
  simp only [archiveEffect, pending]
  have stays : Archived identity { archive with
      errand := .none, stranded := archive.stranded ++ [filename] } :=
    archived.settle ((List.append_nil _).trans lost.symm) (fun roots same => by cases same)
  cases answer with
  | unavailable => exact stays
  | queryFails => exact stays
  | lookupFails => exact stays
  | purgeFails => exact stays
  | purges =>
      simp only [deleteSnapshotSignatureDoc, if_true]
      have docs : (archive.docs.filter fun doc => doc.file ≠ filename).filter (·.own) =
          archive.own.filter fun doc => doc.file ≠ filename := List.filter_comm _ _ _
      refine ⟨archived.present, archived.headed, ?_, ?_, ?_, ?_, ?_⟩
      · intro doc member
        rw [Archive.own, docs] at member
        exact archived.vouched doc (List.mem_of_mem_filter member)
      · rw [Archive.own, docs]
        exact archived.once.sublist (List.filter_sublist.map _)
      · intro roots same
        cases same
      · intro name member
        have old : name ∈ archive.stranded := (List.append_nil archive.stranded) ▸ member
        exact archived.gone name (lost.symm ▸ List.mem_append_left _ old)
      · intro doc member
        rw [Archive.own, docs] at member
        obtain ⟨own, differs⟩ := List.mem_filter.mp member
        refine (archived.kept doc own).imp_right fun named => ?_
        rcases List.mem_append.mp (lost ▸ named) with old | single
        · exact List.mem_append_left _ old
        · exact absurd (List.mem_singleton.mp single) (of_decide_eq_true differs)

theorem Archived.crash (archived : Archived identity archive) :
    Archived identity (archiveEffect cfg identity archive .crash) := by
  have settled : Archived identity { archive with errand := .none, stranded := archive.lost } :=
    archived.settle (List.append_nil _) (fun roots same => by cases same)
  exact settled.of_life rfl (fun _ _ => Iff.rfl) rfl

theorem Archived.replicate (archived : Archived identity archive) (row : Row) :
    Archived identity (archiveEffect cfg identity archive (.replicate row)) := by
  have docs : Archive.own { archive with docs := archive.docs ++ [{ row, own := false }] } =
      archive.own := by
    simp only [Archive.own, List.filter_append]
    simp
  simp only [archiveEffect]
  refine ⟨archived.present, archived.headed, ?_, ?_, ?_, archived.gone, ?_⟩
  · rw [docs]
    exact archived.vouched
  · rw [docs]
    exact archived.once
  · rw [docs]
    exact archived.signing
  · rw [docs]
    exact archived.kept

theorem archived_step {move : ArchiveMove} (sound : Sound cfg archive.life)
    (expiring : archive.life.Expiring) (archived : Archived identity archive)
    (enabled : (archiving cfg identity).enabled archive move) :
    Archived identity ((archiving cfg identity).effect archive move) := by
  change Archived identity (archiveEffect cfg identity archive move)
  cases move with
  | snapshot move =>
      obtain ⟨idle, quiet, _⟩ := enabled
      have keeps := @quiet_keeps cfg archive.life move quiet
      exact archived.of_life keeps.1 keeps.2 idle
  | rename source now =>
      obtain ⟨idle, file, bytes, roots, writing, wrote, counted⟩ := enabled
      have renamed := archived.rename sound idle writing (Completion.headed_write wrote counted)
      simpa only [archiveEffect, writing, wrote] using renamed
  | sign now stores =>
      obtain ⟨roots, signing⟩ := enabled
      exact archived.sign sound signing now stores
  | remove fails =>
      obtain ⟨idle, name, rest, purging⟩ := enabled
      exact archived.remove expiring idle purging fails
  | deleteDocs answer =>
      obtain ⟨filename, pending⟩ := enabled
      exact archived.deleteDocs pending answer
  | crash => exact archived.crash
  | replicate row => exact archived.replicate row

theorem archived_path (reached : (archiving cfg identity).Path {} archive) :
    Archived identity archive := by
  induction reached with
  | refl =>
      refine ⟨fun name => by simp, by simp, by simp [Archive.own], by simp [Archive.own], ?_,
        by simp [Archive.lost, Errand.undeleted], by simp [Archive.own]⟩
      intro roots same
      cases same
  | step path enabled archived =>
      have below := lifetime_path path
      exact archived_step (sound_path below) (expiring_path below) archived enabled

/-- A file has at most one signature document of this generator. The document outlives
its file exactly if deleting it is what comes next, or if the process ended or the deletion
failed at that point. -/
theorem signature_documents_follow_files (reached : (archiving cfg identity).Path {} archive) :
    (archive.own.map (·.file)).Nodup ∧
      ∀ doc ∈ archive.own, doc.file ∉ archive.life.dir ↔
        doc.file ∈ archive.stranded ∨ archive.errand = .deleteDocs doc.file := by
  have archived := archived_path reached
  have pending : ∀ name, name ∈ archive.errand.undeleted ↔ archive.errand = .deleteDocs name := by
    intro name
    cases archive.errand with
    | none => simp [Errand.undeleted]
    | sign roots => simp [Errand.undeleted]
    | deleteDocs filename => simp [Errand.undeleted, eq_comm]
  refine ⟨archived.once, fun doc own => ?_⟩
  rw [← pending, ← List.mem_append]
  constructor
  · exact (archived.kept doc own).resolve_left
  · exact fun lost => (archived.gone doc.file lost).1

end Archiving

/-! Files of two blocks, of which one is kept. The first one is signed; when the second one
takes its place, the process ends between the removal and the deletion. -/

def strandingMoves : List ArchiveMove :=
  [.snapshot (.start fun _ => false), .snapshot .purged, .snapshot (.cycle 1 4),
    .rename (signedBlocks 1) sampleMoment, .sign sampleMoment true,
    .snapshot (.advance fun _ => false), .snapshot .purged, .snapshot (.cycle 3 9),
    .rename (signedBlocks 1) sampleMoment, .sign sampleMoment false,
    .snapshot (.advance fun _ => false), .remove false, .crash]

def strandedArchive : Archive :=
  strandingMoves.foldl (archiveEffect pairFiles (.full echoKey)) {}

theorem strandedArchive_reached :
    (archiving pairFiles (.full echoKey)).Path {} strandedArchive := by
  have leads : (archiving pairFiles (.full echoKey)).Leads strandingMoves {} strandedArchive := by
    refine ⟨⟨rfl, rfl, rfl⟩, ⟨rfl, rfl, rfl⟩, ⟨rfl, rfl, rfl, by decide, by decide, by decide⟩,
      ⟨rfl, ⟨2, 3, 1, 4⟩, _, _, rfl, rfl, by decide⟩, ⟨_, rfl⟩, ⟨rfl, rfl, ⟨2, 3, 1, 4⟩, rfl⟩,
      ⟨rfl, rfl, ?purged⟩, ⟨rfl, rfl, ?_, by decide, by decide, by decide⟩,
      ⟨rfl, ⟨4, 5, 3, 9⟩, _, _, ?_, rfl, by decide⟩, ⟨_, rfl⟩, ⟨rfl, rfl, ⟨4, 5, 3, 9⟩, ?_⟩,
      ⟨rfl, snapshotFileName 2 3, [], ?_⟩, ?crash, rfl⟩
    case purged => change Lifetime.phase _ = Phase.purging []; decide +kernel
    case crash => change Lifetime.phase _ ≠ Phase.down; decide +kernel
    all_goals decide +kernel
  exact leads.path

/-- The document of the first file is left without it. -/
theorem interrupted_purge_strands :
    strandedArchive.own.map (·.file) = [snapshotFileName 2 3] ∧
      ∀ doc ∈ strandedArchive.own, doc.file ∉ strandedArchive.life.dir := by
  have named : strandedArchive.own.map (·.file) = [snapshotFileName 2 3] := by decide +kernel
  have stranded : strandedArchive.stranded = [snapshotFileName 2 3] := by decide +kernel
  refine ⟨named, fun doc own => ?_⟩
  refine ((signature_documents_follow_files strandedArchive_reached).2 doc own).mpr (.inl ?_)
  rw [stranded, ← named]
  exact List.mem_map.mpr ⟨doc, own, rfl⟩

end ShinzoGenerator.Snapshot
