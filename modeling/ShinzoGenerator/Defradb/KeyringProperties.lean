import ShinzoGenerator.Defradb.Keyring

/-! The node identity over restarts and crashes. A start only ever adds files, a
migration that returns has the legacy key at the new place, and what is saved there is
the identity that every later start loads. -/

set_option autoImplicit false

namespace ShinzoGenerator.Defradb

/-! ### Disks -/

/-- What is there stays as it is. -/
def Disk.Extends (before after : Disk) : Prop :=
  ∀ dir name node, before.lookup dir name = some node → after.lookup dir name = some node

/-- Only one place may differ. -/
def Disk.SameExcept (dir : FilePath) (name : String) (before after : Disk) : Prop :=
  ∀ otherDir otherName, ¬ (otherDir = dir ∧ otherName = name) →
    after.lookup otherDir otherName = before.lookup otherDir otherName

variable {disk base after : Disk} {dir : FilePath} {name : String}

theorem Disk.lookup_put_self (node : Node) : (disk.put dir name node).lookup dir name = some node := by
  simp only [lookup, put, Function.update_self, AList.lookup_insert]

theorem Disk.sameExcept_refl : disk.SameExcept dir name disk := fun _ _ _ => rfl

theorem Disk.SameExcept.trans {middle : Disk} (first : disk.SameExcept dir name middle)
    (second : middle.SameExcept dir name after) : disk.SameExcept dir name after :=
  fun otherDir otherName other =>
    (second otherDir otherName other).trans (first otherDir otherName other)

theorem Disk.sameExcept_put (node : Node) : disk.SameExcept dir name (disk.put dir name node) := by
  intro otherDir otherName other
  simp only [lookup, put]
  by_cases same : otherDir = dir
  · subst same
    rw [Function.update_self, AList.lookup_insert_ne fun equal => other ⟨rfl, equal⟩]
  · rw [Function.update_of_ne same]

theorem Disk.sameExcept_append (byte : UInt8) :
    disk.SameExcept dir name (disk.append dir name byte) := by
  rw [append]
  split
  · exact sameExcept_put _
  · exact sameExcept_refl

theorem Disk.data_append (byte : UInt8) :
    (disk.append dir name byte).data dir name = (disk.data dir name).map (· ++ [byte]) := by
  cases found : disk.lookup dir name with
  | none => simp [append, data, found]
  | some node =>
      cases node with
      | file file => simp [append, data, found, lookup_put_self]
      | directory => simp [append, data, found]

theorem Disk.data_eq_of_lookup {otherDir : FilePath} {otherName : String}
    (same : after.lookup otherDir otherName = disk.lookup dir name) :
    after.data otherDir otherName = disk.data dir name := by
  rw [data, data, same]

theorem Disk.lookup_of_data {bytes : Bytes} (found : disk.data dir name = some bytes) :
    ∃ file : File, disk.lookup dir name = some (.file file) ∧ file.data = bytes := by
  rw [data] at found
  split at found
  · rename_i file stored
    exact ⟨file, stored, Option.some.inj found⟩
  · cases found

theorem Disk.Extends.data {bytes : Bytes} (grown : disk.Extends after)
    (found : disk.data dir name = some bytes) : after.data dir name = some bytes := by
  obtain ⟨file, stored, rfl⟩ := lookup_of_data found
  rw [Disk.data, grown dir name _ stored]

theorem Disk.extends_refl : disk.Extends disk := fun _ _ _ found => found

theorem Disk.Extends.trans {middle : Disk} (first : disk.Extends middle)
    (second : middle.Extends after) : disk.Extends after :=
  fun dir name node found => second dir name node (first dir name node found)

/-- A place that the base does not have may be written. -/
theorem Disk.Extends.of_sameExcept (grown : base.Extends disk)
    (same : disk.SameExcept dir name after) (absent : base.lookup dir name = none) :
    base.Extends after := by
  intro otherDir otherName node found
  rw [same otherDir otherName]
  · exact grown otherDir otherName node found
  · rintro ⟨rfl, rfl⟩
    rw [absent] at found
    cases found

theorem Disk.Extends.absent (grown : base.Extends disk) (absent : disk.lookup dir name = none) :
    base.lookup dir name = none := by
  cases found : base.lookup dir name with
  | none => rfl
  | some node =>
      rw [grown dir name node found] at absent
      cases absent

/-! ### Rules for starts -/

/-- Whenever the crash comes, the program ends with the disk as described; it generates
no identity. -/
def Start.Meets {α : Type} (program : Start α) (disk : Disk) (returns : α → Disk → Prop)
    (fails : Disk → Prop) : Prop :=
  ∀ clock generated, program.Ensures ⟨disk, clock, generated⟩
    (fun value after => returns value after.disk ∧ after.generated = generated)
    (fun _ after => fails after.disk ∧ after.generated = generated)

namespace Start

variable {α β : Type} {program : Start α} {next : α → Start β} {returns : α → Disk → Prop}
  {fails : Disk → Prop}

theorem meets_pure {value : α} (returned : returns value disk) :
    (pure value : Start α).Meets disk returns fails :=
  fun _ _ => ⟨returned, rfl⟩

theorem meets_error {text : String} (failed : fails disk) :
    (error text : Start α).Meets disk returns fails :=
  fun _ _ => ⟨failed, rfl⟩

theorem meets_bind {returns : β → Disk → Prop} (between : α → Disk → Prop)
    (first : program.Meets disk between fails)
    (second : ∀ value middle, between value middle → (next value).Meets middle returns fails) :
    (program >>= next).Meets disk returns fails := by
  intro clock generated
  rw [Attempt.ensures_bind]
  refine (first clock generated).mono ?_ fun _ _ failed => failed
  rintro value ⟨middle, left, after⟩ ⟨reached, rfl⟩
  exact second value middle reached left after

theorem meets_operation {next : Unit → Start β} {returns : β → Disk → Prop} (failed : fails disk)
    (second : (next ()).Meets disk returns fails) :
    (operation >>= next).Meets disk returns fails := by
  intro clock generated
  rw [Attempt.ensures_bind]
  cases clock with
  | zero => exact ⟨failed, rfl⟩
  | succ clock => exact second clock generated

theorem meets_write {update : Disk → Disk} {next : Unit → Start β} {returns : β → Disk → Prop}
    (second : (next ()).Meets (update disk) returns fails) :
    (write update >>= next).Meets disk returns fails := by
  intro clock generated
  rw [Attempt.ensures_bind]
  exact second clock generated

theorem meets_read {next : Machine → Start β} {returns : β → Disk → Prop}
    (second : ∀ clock generated, (next ⟨disk, clock, generated⟩).Meets disk returns fails) :
    Meets (Attempt.read >>= next) disk returns fails := by
  intro clock generated
  rw [Attempt.ensures_bind, Attempt.ensures_read]
  exact second clock generated clock generated

theorem meets_mapError {rename : Failure → Failure} (meets : program.Meets disk returns fails) :
    Meets (program.mapError rename) disk returns fails := by
  intro clock generated
  rw [Attempt.ensures_mapError]
  exact meets clock generated

theorem Meets.mono {weaker : α → Disk → Prop} {weakerFails : Disk → Prop}
    (meets : program.Meets disk returns fails)
    (returned : ∀ value after, returns value after → weaker value after)
    (failed : ∀ after, fails after → weakerFails after) :
    program.Meets disk weaker weakerFails :=
  fun clock generated => (meets clock generated).mono
    (fun value after reached => ⟨returned value after.disk reached.1, reached.2⟩)
    (fun _ after reached => ⟨failed after.disk reached.1, reached.2⟩)

/-! ### File operations -/

theorem stat_meets (failed : fails disk) : (stat dir name).Meets disk
    (fun present after => disk = after ∧ present = (disk.lookup dir name).isSome) fails :=
  meets_operation failed (meets_read fun _ _ => meets_pure ⟨rfl, rfl⟩)

theorem readDir_meets (failed : fails disk) : (readDir dir).Meets disk
    (fun entries after => disk = after ∧ ∀ name node, disk.lookup dir name = some node →
      (name, node.isDir) ∈ entries) fails := by
  refine meets_operation failed (meets_read fun _ _ => meets_pure ⟨rfl, ?_⟩)
  intro name node found
  rw [List.mem_insertionSort, List.mem_map]
  exact ⟨⟨name, node⟩, AList.mem_lookup_iff.mp found, rfl⟩

theorem readFile_meets (failed : fails disk) : (readFile dir name).Meets disk
    (fun file after => disk = after ∧ disk.lookup dir name = some (.file file)) fails := by
  refine meets_operation failed (meets_read fun _ _ => ?_)
  dsimp only
  split
  · exact meets_error failed
  · exact meets_error failed
  · rename_i file found
    exact meets_pure ⟨rfl, found⟩

/-- Wherever the crash comes, only the one file is concerned. -/
theorem appendBytes_meets (bytes : Bytes) (disk : Disk) : (appendBytes dir name bytes).Meets disk
    (fun _ after => disk.SameExcept dir name after ∧
      after.data dir name = (disk.data dir name).map (· ++ bytes))
    (disk.SameExcept dir name ·) := by
  induction bytes generalizing disk with
  | nil =>
      refine meets_pure ⟨Disk.sameExcept_refl, ?_⟩
      simp
  | cons byte rest ih =>
      refine meets_operation Disk.sameExcept_refl ?_
      refine meets_write ?_
      have first : disk.SameExcept dir name (disk.append dir name byte) :=
        Disk.sameExcept_append byte
      refine (ih _).mono ?_ fun after failed => first.trans failed
      rintro _ after ⟨same, data⟩
      refine ⟨first.trans same, ?_⟩
      rw [data, Disk.data_append, Option.map_map]
      simp [Function.comp_def]

theorem writeFile_meets (data : Bytes) (mode : Nat) : (writeFile dir name data mode).Meets disk
    (fun _ after => disk.SameExcept dir name after ∧ after.data dir name = some data)
    (disk.SameExcept dir name ·) := by
  refine meets_operation Disk.sameExcept_refl ?_
  refine meets_write ?_
  have first : disk.SameExcept dir name (disk.put dir name (.file ⟨[], mode⟩)) :=
    Disk.sameExcept_put _
  refine (appendBytes_meets data _).mono ?_ fun after failed => first.trans failed
  rintro _ after ⟨same, written⟩
  refine ⟨first.trans same, ?_⟩
  rw [written, Disk.data, Disk.lookup_put_self]
  rfl

end Start

open Start

/-! ### Sources of the identity -/

variable {PrivateKey Identity : Type} {keyring : FileKeyring}
  {library : IdentityLibrary PrivateKey Identity} {config : KeyConfig}

/-- The in-store keyring is a place of its own. -/
def KeyConfig.HasLegacy (config : KeyConfig) : Prop :=
  config.storePath ≠ "" ∧ legacyPathFor config.storePath ≠ config.keyringPath

instance (config : KeyConfig) : Decidable config.HasLegacy :=
  inferInstanceAs (Decidable (_ ∧ _))

def legacyEntry (config : KeyConfig) (disk : Disk) : Option Bytes :=
  if config.HasLegacy then disk.data (legacyPathFor config.storePath) nodeIdentityKeyName else none

def siblingEntry (config : KeyConfig) (disk : Disk) : Option Bytes :=
  disk.data config.keyringPath nodeIdentityKeyName

def plaintextIdentity (library : IdentityLibrary PrivateKey Identity) (config : KeyConfig)
    (disk : Disk) : Option Identity :=
  if config.storePath = "" then none
  else (disk.data (FilePath.clean config.storePath) plaintextIdentityFileName).bind
    (fullIdentityFromHexFile library)

/-- The entry of a keyring holds the identity. -/
def Holds (keyring : FileKeyring) (library : IdentityLibrary PrivateKey Identity)
    (config : KeyConfig) (entry : Bytes) (identity : Identity) : Prop :=
  ∃ data, keyring.decrypt config.keyringSecret entry = .ok data ∧
    loadIdentityFromBytes library data = .ok identity

/-- The legacy entry, if any, is a regular file. -/
def LegacyRegular (config : KeyConfig) (disk : Disk) : Prop :=
  config.HasLegacy →
    disk.lookup (legacyPathFor config.storePath) nodeIdentityKeyName ≠ some .directory

theorem Holds.unique {entry : Bytes} {first second : Identity}
    (left : Holds keyring library config entry first)
    (right : Holds keyring library config entry second) : first = second := by
  obtain ⟨data, opened, loaded⟩ := left
  obtain ⟨other, reopened, reloaded⟩ := right
  rw [opened] at reopened
  cases reopened
  rw [loaded] at reloaded
  exact Except.ok.inj reloaded

/-- What is saved in the prefixed format is loaded again. -/
theorem load_identityBytes {identity : Identity} {key : PrivateKey}
    (private_ : library.privateKey identity = some key) :
    loadIdentityFromBytes library (identityBytes library key) = .ok identity := by
  obtain ⟨rebuilt, restored⟩ := library.restores identity key private_
  have colon : 58 ∈ identityBytes library key := by simp [identityBytes]
  have position : (identityBytes library key).idxOf 58 = (library.keyType key).length := by
    rw [identityBytes, List.idxOf_append_of_notMem (library.plainType key)]
    simp
  simp only [loadIdentityFromBytes, if_pos colon, position]
  simp [identityBytes, rebuilt, restored, Except.mapError, bind, Except.bind]

/-! ### Migration -/

section Migration

variable {legacyPath keyringPath : FilePath}

theorem copyKeyringFile_meets : (copyKeyringFile legacyPath keyringPath name).Meets disk
    (fun _ after => disk.SameExcept keyringPath name after ∧
      after.data keyringPath name = disk.data legacyPath name)
    (disk.SameExcept keyringPath name ·) := by
  refine meets_bind _ (readFile_meets Disk.sameExcept_refl) ?_
  rintro file _ ⟨rfl, found⟩
  refine meets_bind _ (readFile_meets Disk.sameExcept_refl) ?_
  rintro info _ ⟨rfl, _⟩
  refine (writeFile_meets file.data info.mode).mono ?_ fun after failed => failed
  rintro _ after ⟨same, written⟩
  refine ⟨same, ?_⟩
  rw [written, Disk.data, found]

/-- Files are only added, and none to the legacy directory. -/
structure Copying (legacyPath : FilePath) (base current : Disk) : Prop where
  grown : base.Extends current
  legacy : ∀ name, current.lookup legacyPath name = base.lookup legacyPath name

theorem Copying.of_sameExcept (apart : legacyPath ≠ keyringPath)
    (copying : Copying legacyPath base disk) (absent : disk.lookup keyringPath name = none)
    (same : disk.SameExcept keyringPath name after) : Copying legacyPath base after :=
  ⟨copying.grown.of_sameExcept same (copying.grown.absent absent), fun other =>
    (same legacyPath other fun equal => apart equal.1).trans (copying.legacy other)⟩

/-- The loop copies the key once its turn comes, unless it was there before. -/
theorem copyEntries_meets (apart : legacyPath ≠ keyringPath) {key : Bytes}
    (original : base.data legacyPath nodeIdentityKeyName = some key)
    (entries : List (String × Bool)) (disk : Disk) (copying : Copying legacyPath base disk) :
    (copyEntries legacyPath keyringPath entries).Meets disk
      (fun _ after => Copying legacyPath base after ∧
        (disk.data keyringPath nodeIdentityKeyName = some key ∨
          disk.lookup keyringPath nodeIdentityKeyName = none ∧
            (nodeIdentityKeyName, false) ∈ entries →
          after.data keyringPath nodeIdentityKeyName = some key))
      (Copying legacyPath base ·) := by
  induction entries generalizing disk with
  | nil =>
      refine meets_pure ⟨copying, fun found => ?_⟩
      rcases found with found | ⟨_, member⟩
      · exact found
      · cases member
  | cons entry rest ih =>
      obtain ⟨name, isDir⟩ := entry
      cases isDir with
      | true =>
          refine (ih disk copying).mono (fun _ after reached => ⟨reached.1, fun found => ?_⟩)
            fun after failed => failed
          apply reached.2
          rcases found with found | ⟨absent, member⟩
          · exact .inl found
          · cases member with
            | tail _ member => exact .inr ⟨absent, member⟩
      | false =>
          refine meets_bind _ (stat_meets copying) ?_
          rintro present _ ⟨rfl, rfl⟩
          cases there : disk.lookup keyringPath name with
          | some node =>
              refine (ih disk copying).mono (fun _ after reached => ⟨reached.1, fun found => ?_⟩)
                fun after failed => failed
              apply reached.2
              rcases found with found | ⟨absent, member⟩
              · exact .inl found
              · cases member with
                | head =>
                    rw [absent] at there
                    cases there
                | tail _ member => exact .inr ⟨absent, member⟩
          | none =>
              refine meets_bind _ (meets_mapError (copyKeyringFile_meets.mono
                (fun _ after reached => reached)
                fun after failed => copying.of_sameExcept apart there failed)) ?_
              rintro _ middle ⟨same, copied⟩
              have going := copying.of_sameExcept apart there same
              refine (ih middle going).mono (fun _ after reached => ⟨reached.1, fun found => ?_⟩)
                fun after failed => failed
              apply reached.2
              by_cases turn : name = nodeIdentityKeyName
              · subst turn
                refine .inl ?_
                rw [copied, Disk.data_eq_of_lookup (copying.legacy nodeIdentityKeyName), original]
              · have kept := same keyringPath nodeIdentityKeyName fun equal => turn equal.2.symm
                rcases found with found | ⟨absent, member⟩
                · rw [Disk.data_eq_of_lookup kept]
                  exact .inl found
                · cases member with
                  | head => exact absurd rfl turn
                  | tail _ member => exact .inr ⟨kept.trans absent, member⟩

theorem ensureNoKeyConflict_meets : (ensureNoKeyConflict legacyPath keyringPath).Meets disk
    (fun _ after => disk = after ∧ ∃ key, disk.data legacyPath nodeIdentityKeyName = some key ∧
      disk.data keyringPath nodeIdentityKeyName = some key)
    (disk = ·) := by
  refine meets_bind _ (meets_mapError (readFile_meets rfl)) ?_
  rintro legacyFile _ ⟨rfl, legacy⟩
  refine meets_bind _ (meets_mapError (readFile_meets rfl)) ?_
  rintro newFile _ ⟨rfl, sibling⟩
  by_cases equal : legacyFile.data = newFile.data
  · rw [if_pos equal]
    refine meets_pure ⟨rfl, newFile.data, ?_, ?_⟩
    · rw [Disk.data, legacy, ← equal]
    · rw [Disk.data, sibling]
  · rw [if_neg equal]
    exact meets_error rfl

end Migration

/-- A migration adds nothing without a legacy entry, and with one it returns only when the
keyring has the same entry. -/
structure Migrated (config : KeyConfig) (before after : Disk) : Prop where
  grown : before.Extends after
  idle : legacyEntry config before = none → after = before

theorem migrateKeyringDir_meets (regular : LegacyRegular config disk) :
    (migrateKeyringDir config.storePath config.keyringPath).Meets disk
      (fun _ after => Migrated config disk after ∧
        ∀ key, legacyEntry config disk = some key → siblingEntry config after = some key)
      (Migrated config disk ·) := by
  have unchanged : Migrated config disk disk := ⟨Disk.extends_refl, fun _ => rfl⟩
  by_cases own : config.HasLegacy
  · rw [migrateKeyringDir, if_neg own.1, if_neg own.2]
    have entry : legacyEntry config disk =
        disk.data (legacyPathFor config.storePath) nodeIdentityKeyName := by
      rw [legacyEntry, if_pos own]
    refine meets_bind _ (stat_meets unchanged) ?_
    rintro legacy _ ⟨rfl, rfl⟩
    cases stored : disk.lookup (legacyPathFor config.storePath) nodeIdentityKeyName with
    | none =>
        refine meets_pure ⟨unchanged, fun key found => ?_⟩
        rw [entry, Disk.data, stored] at found
        cases found
    | some node =>
        cases node with
        | directory => exact absurd stored (regular own)
        | file file =>
            have key : legacyEntry config disk = some file.data := by
              rw [entry, Disk.data, stored]
            have copied : ∀ {after : Disk}, disk.Extends after → Migrated config disk after := by
              intro after grown
              refine ⟨grown, fun none => ?_⟩
              rw [key] at none
              cases none
            refine meets_bind _ (stat_meets unchanged) ?_
            rintro present _ ⟨rfl, rfl⟩
            cases there : disk.lookup config.keyringPath nodeIdentityKeyName with
            | some other =>
                refine ensureNoKeyConflict_meets.mono ?_ ?_
                · rintro _ after ⟨rfl, shared, legacy, sibling⟩
                  refine ⟨unchanged, fun found equal => ?_⟩
                  rw [entry, legacy] at equal
                  rw [siblingEntry, sibling, equal]
                · rintro _ rfl
                  exact unchanged
            | none =>
                refine meets_bind _ (readDir_meets unchanged) ?_
                rintro entries _ ⟨rfl, listed⟩
                refine (copyEntries_meets own.2 (entry ▸ key) entries disk
                  ⟨Disk.extends_refl, fun _ => rfl⟩).mono ?_ fun after failed => copied failed.grown
                rintro _ after ⟨copying, arrives⟩
                refine ⟨copied copying.grown, fun found equal => ?_⟩
                rw [key] at equal
                rw [← equal]
                exact arrives (.inr ⟨there, listed _ _ stored⟩)
  · have none : legacyEntry config disk = none := by rw [legacyEntry, if_neg own]
    have skips : migrateKeyringDir config.storePath config.keyringPath = pure () := by
      rw [migrateKeyringDir]
      by_cases empty : config.storePath = ""
      · rw [if_pos empty]
      · rw [if_neg empty, if_pos]
        by_contra apart
        exact own ⟨empty, apart⟩
    rw [skips]
    refine meets_pure ⟨unchanged, fun key found => ?_⟩
    rw [none] at found
    cases found

/-! ### Loading, importing and saving -/

theorem get_meets {fails : Disk → Prop} (failed : fails disk) :
    (keyring.get config nodeIdentityKeyName).Meets disk
      (fun held after => disk = after ∧
        (held = none → disk.lookup config.keyringPath nodeIdentityKeyName = none) ∧
        ∀ data, held = some data → ∃ entry, siblingEntry config disk = some entry ∧
          keyring.decrypt config.keyringSecret entry = .ok data)
      fails := by
  refine meets_operation failed (meets_read fun _ _ => ?_)
  dsimp only
  split
  · rename_i absent
    exact meets_pure ⟨rfl, fun _ => absent, fun _ held => (by cases held)⟩
  · exact meets_error failed
  · rename_i file found
    split
    · rename_i data opened
      refine meets_pure ⟨rfl, fun none => (by cases none), fun held equal => ?_⟩
      cases equal
      exact ⟨file.data, by rw [siblingEntry, Disk.data, found], opened⟩
    · exact meets_error failed

/-- The keyring has got an entry for the identity, and nothing else has changed. -/
structure Saved (keyring : FileKeyring) (library : IdentityLibrary PrivateKey Identity)
    (config : KeyConfig) (before : Disk) (identity : Identity) (after : Disk) : Prop where
  same : before.SameExcept config.keyringPath nodeIdentityKeyName after
  entry : ∃ entry, siblingEntry config after = some entry ∧
    Holds keyring library config entry identity

theorem saveNodeIdentityToKeyring_meets (entropy : Nat) (identity : Identity) :
    (saveNodeIdentityToKeyring keyring library config entropy identity).Meets disk
      (fun _ after => Saved keyring library config disk identity after) (disk = ·) := by
  rw [saveNodeIdentityToKeyring]
  split
  · exact meets_error rfl
  · rename_i key private_
    split
    · exact meets_error rfl
    · refine meets_mapError (meets_operation rfl fun _ _ => ⟨⟨Disk.sameExcept_put _, ?_⟩, rfl⟩)
      refine ⟨keyring.encrypt config.keyringSecret entropy (identityBytes library key), ?_,
        identityBytes library key, keyring.decrypt_encrypt _ _ _, load_identityBytes private_⟩
      simp only [siblingEntry, Disk.data, Disk.lookup_put_self]

/-- What an import may have done. -/
inductive Imported (keyring : FileKeyring) (library : IdentityLibrary PrivateKey Identity)
    (config : KeyConfig) (before : Disk) : Disk → Prop where
  | nothing
      (covered : before.lookup config.keyringPath nodeIdentityKeyName = none →
        plaintextIdentity library config before = none) :
      Imported keyring library config before before
  | saved {identity : Identity} {after : Disk}
      (absent : before.lookup config.keyringPath nodeIdentityKeyName = none)
      (plaintext : plaintextIdentity library config before = some identity)
      (saved : Saved keyring library config before identity after) :
      Imported keyring library config before after

theorem importPlaintextIdentity_meets (entropy : Nat) :
    (importPlaintextIdentity keyring library config entropy).Meets disk
      (fun _ after => Imported keyring library config disk after) (disk = ·) := by
  rw [importPlaintextIdentity]
  split
  · rename_i empty
    refine meets_pure (.nothing fun _ => ?_)
    rw [plaintextIdentity, if_pos empty]
  · rename_i path
    have parsed : plaintextIdentity library config disk =
        (disk.data (FilePath.clean config.storePath) plaintextIdentityFileName).bind
          (fullIdentityFromHexFile library) := by
      rw [plaintextIdentity, if_neg path]
    refine meets_bind _ (stat_meets rfl) ?_
    rintro present _ ⟨rfl, rfl⟩
    cases there : disk.lookup (FilePath.clean config.storePath) plaintextIdentityFileName with
    | none =>
        refine meets_pure (.nothing fun _ => ?_)
        rw [parsed, Disk.data, there]
        rfl
    | some node =>
        refine meets_bind _ (meets_mapError (get_meets rfl)) ?_
        rintro held _ ⟨rfl, none, some⟩
        cases held with
        | some data =>
            obtain ⟨entry, stored, _⟩ := some data rfl
            obtain ⟨file, found, _⟩ := Disk.lookup_of_data stored
            refine meets_pure (.nothing fun absent => ?_)
            rw [found] at absent
            cases absent
        | none =>
            refine meets_operation rfl (meets_read fun _ _ => ?_)
            dsimp only
            rw [← parsed]
            cases plaintext : plaintextIdentity library config disk with
            | none => exact meets_pure (.nothing fun _ => plaintext)
            | some identity =>
                refine (saveNodeIdentityToKeyring_meets entropy identity).mono
                  (fun _ after saved => .saved (none rfl) plaintext saved) fun _ failed => failed

/-! ### One start -/

/-- What a start, finished or cut, has done to the disk. -/
structure Continues (keyring : FileKeyring) (library : IdentityLibrary PrivateKey Identity)
    (config : KeyConfig) (before after : Disk) : Prop where
  grown : before.Extends after
  untouched : legacyEntry config before = none →
    before.SameExcept config.keyringPath nodeIdentityKeyName after
  saved : legacyEntry config before = none →
    before.lookup config.keyringPath nodeIdentityKeyName = none →
    ∀ entry, siblingEntry config after = some entry →
      ∃ identity, Holds keyring library config entry identity ∧
        ∀ plain, plaintextIdentity library config before = some plain → identity = plain

theorem Saved.continues {identity : Identity} (saved : Saved keyring library config disk identity after)
    (absent : disk.lookup config.keyringPath nodeIdentityKeyName = none)
    (right : ∀ plain, plaintextIdentity library config disk = some plain → identity = plain) :
    Continues keyring library config disk after := by
  refine ⟨Disk.extends_refl.of_sameExcept saved.same absent, fun _ => saved.same, ?_⟩
  intro _ _ entry found
  obtain ⟨stored, there, holds⟩ := saved.entry
  rw [there] at found
  cases found
  exact ⟨identity, holds, right⟩

theorem continues_refl : Continues keyring library config disk disk := by
  refine ⟨Disk.extends_refl, fun _ => Disk.sameExcept_refl, fun _ absent entry found => ?_⟩
  rw [siblingEntry, Disk.data, absent] at found
  cases found

theorem Migrated.continues (migrated : Migrated config disk after) :
    Continues keyring library config disk after := by
  cases legacy : legacyEntry config disk with
  | none =>
      rw [migrated.idle legacy]
      exact continues_refl
  | some key =>
      refine ⟨migrated.grown, fun none => ?_, fun none => ?_⟩ <;>
      · rw [legacy] at none
        cases none

/-- None of the three sources has an identity. -/
structure NoSource (library : IdentityLibrary PrivateKey Identity) (config : KeyConfig)
    (disk : Disk) : Prop where
  legacy : legacyEntry config disk = none
  sibling : siblingEntry config disk = none
  plaintext : plaintextIdentity library config disk = none

/-- The keyring after it was opened: it lacks the entry only if there is no source. -/
structure Opened (keyring : FileKeyring) (library : IdentityLibrary PrivateKey Identity)
    (config : KeyConfig) (before after : Disk) : Prop where
  continues : Continues keyring library config before after
  legacy : ∀ key, legacyEntry config before = some key → siblingEntry config after = some key
  lacking : after.lookup config.keyringPath nodeIdentityKeyName = none →
    after = before ∧ NoSource library config before

theorem siblingEntry_of_absent (absent : disk.lookup config.keyringPath nodeIdentityKeyName = none) :
    siblingEntry config disk = none := by
  rw [siblingEntry, Disk.data, absent]

theorem Imported.opened {middle : Disk} (migrated : Migrated config disk middle)
    (legacy : ∀ key, legacyEntry config disk = some key → siblingEntry config middle = some key)
    (imported : Imported keyring library config middle after) :
    Opened keyring library config disk after := by
  cases found : legacyEntry config disk with
  | some key =>
      have present : middle.lookup config.keyringPath nodeIdentityKeyName ≠ none := by
        intro absent
        have gone := siblingEntry_of_absent absent
        rw [legacy key found] at gone
        cases gone
      cases imported with
      | nothing covered => exact ⟨migrated.continues, legacy, fun absent => absurd absent present⟩
      | saved absent plaintext saved => exact absurd absent present
  | none =>
      have same := migrated.idle found
      subst same
      have noLegacy : ∀ {entry : Option Bytes} (key : Bytes),
          legacyEntry config middle = some key → entry = some key := by
        intro entry key equal
        rw [found] at equal
        cases equal
      cases imported with
      | nothing covered =>
          exact ⟨continues_refl, noLegacy, fun absent =>
            ⟨rfl, found, siblingEntry_of_absent absent, covered absent⟩⟩
      | saved absent plaintext saved =>
          refine ⟨saved.continues absent fun plain equal => ?_, noLegacy, fun gone => ?_⟩
          · rw [plaintext] at equal
            exact Option.some.inj equal
          · obtain ⟨entry, stored, _⟩ := saved.entry
            rw [siblingEntry_of_absent gone] at stored
            cases stored

theorem openKeyring_meets (regular : LegacyRegular config disk) (entropy : Nat) :
    (openKeyring keyring library config entropy).Meets disk
      (fun _ after => Opened keyring library config disk after)
      (Continues keyring library config disk ·) := by
  rw [openKeyring]
  split
  · exact meets_error continues_refl
  · refine meets_operation continues_refl ?_
    refine meets_bind _ (meets_mapError ((migrateKeyringDir_meets regular).mono
      (fun _ _ reached => reached) fun _ failed => failed.continues)) ?_
    rintro _ middle ⟨migrated, legacy⟩
    refine meets_operation migrated.continues ?_
    refine meets_mapError ((importPlaintextIdentity_meets entropy).mono
      (fun _ after imported => imported.opened migrated legacy) ?_)
    rintro _ rfl
    exact migrated.continues

theorem createIdentity_ensures (entropy : Nat) (machine : Machine) :
    (createIdentity keyring library config entropy).Ensures machine
      (fun identity after => Saved keyring library config machine.disk identity after.disk)
      (fun _ after => machine.disk = after.disk) := by
  rw [createIdentity, Attempt.ensures_bind, Attempt.ensures_change]
  cases library.generate entropy with
  | error text => exact rfl
  | ok identity =>
      simp only [Attempt.ensures_bind, Attempt.ensures_mapError, Attempt.ensures_pure]
      exact (saveNodeIdentityToKeyring_meets entropy identity machine.clock true).mono
        (fun _ _ reached => reached.1) fun _ _ reached => reached.1

/-- A start that returns has its identity in the keyring. -/
structure Served (keyring : FileKeyring) (library : IdentityLibrary PrivateKey Identity)
    (config : KeyConfig) (before : Disk) (identity : Identity) (after : Disk) : Prop where
  continues : Continues keyring library config before after
  legacy : ∀ key, legacyEntry config before = some key → siblingEntry config after = some key
  entry : ∃ entry, siblingEntry config after = some entry ∧
    Holds keyring library config entry identity

theorem getOrCreateNodeIdentity_ensures (regular : LegacyRegular config disk)
    (entropy clock : Nat) :
    (getOrCreateNodeIdentity keyring library config entropy).Ensures ⟨disk, clock, false⟩
      (fun identity after => Served keyring library config disk identity after.disk ∧
        (after.generated = true → NoSource library config disk))
      (fun _ after => Continues keyring library config disk after.disk ∧
        (after.generated = true → NoSource library config disk)) := by
  have early : ∀ {machine : Machine}, machine.generated = false →
      machine.generated = true → NoSource library config disk := by
    intro machine kept generated
    rw [kept] at generated
    cases generated
  rw [getOrCreateNodeIdentity, Attempt.ensures_bind, Attempt.ensures_mapError]
  refine (openKeyring_meets regular entropy clock false).mono ?_
    fun _ _ failed => ⟨failed.1, early failed.2⟩
  rintro _ ⟨middle, left, _⟩ ⟨opened, rfl⟩
  rw [Attempt.ensures_bind, Attempt.ensures_mapError]
  refine (get_meets opened.continues left false).mono ?_
    fun _ _ failed => ⟨failed.1, early failed.2⟩
  rintro held ⟨_, rest, _⟩ ⟨⟨rfl, absent, present⟩, rfl⟩
  cases held with
  | none =>
      obtain ⟨rfl, none⟩ := opened.lacking (absent rfl)
      refine (createIdentity_ensures entropy _).mono ?_ ?_
      · intro identity after saved
        have right : ∀ plain, plaintextIdentity library config middle = some plain →
            identity = plain := by
          intro plain equal
          rw [none.plaintext] at equal
          cases equal
        refine ⟨⟨saved.continues (absent rfl) right, fun key equal => ?_, saved.entry⟩, fun _ => none⟩
        rw [none.legacy] at equal
        cases equal
      · intro _ after same
        rw [← same]
        exact ⟨opened.continues, fun _ => none⟩
  | some data =>
      obtain ⟨entry, stored, decrypted⟩ := present data rfl
      dsimp only
      split
      · rename_i identity loaded
        exact ⟨⟨opened.continues, opened.legacy, entry, stored, data, decrypted, loaded⟩, early rfl⟩
      · exact ⟨opened.continues, early rfl⟩

/-! ### All starts -/

theorem legacyEntry_eq (same : disk.SameExcept config.keyringPath nodeIdentityKeyName after) :
    legacyEntry config after = legacyEntry config disk := by
  rw [legacyEntry, legacyEntry]
  split
  · rename_i own
    exact Disk.data_eq_of_lookup (same _ _ fun equal => own.2 equal.1)
  · rfl

theorem plaintextIdentity_eq
    (same : disk.SameExcept config.keyringPath nodeIdentityKeyName after) :
    plaintextIdentity library config after = plaintextIdentity library config disk := by
  have names : plaintextIdentityFileName ≠ nodeIdentityKeyName := by decide
  rw [plaintextIdentity, plaintextIdentity,
    Disk.data_eq_of_lookup (same _ _ fun equal => names equal.2)]

theorem Continues.trans {middle : Disk} (first : Continues keyring library config disk middle)
    (second : Continues keyring library config middle after) :
    Continues keyring library config disk after := by
  refine ⟨first.grown.trans second.grown, fun none => ?_, fun none absent entry found => ?_⟩
  · have still := (legacyEntry_eq (first.untouched none)).trans none
    exact (first.untouched none).trans (second.untouched still)
  · have still := (legacyEntry_eq (first.untouched none)).trans none
    cases there : middle.lookup config.keyringPath nodeIdentityKeyName with
    | none =>
        have saved := second.saved still there entry found
        rwa [plaintextIdentity_eq (first.untouched none)] at saved
    | some node =>
        have kept : siblingEntry config middle = some entry := by
          rw [← found]
          exact (Disk.data_eq_of_lookup ((second.grown _ _ _ there).trans there.symm)).symm
        exact first.saved none absent entry kept

theorem Continues.regular (continues : Continues keyring library config disk after)
    (regular : LegacyRegular config disk) : LegacyRegular config after := by
  intro own
  cases stored : disk.lookup (legacyPathFor config.storePath) nodeIdentityKeyName with
  | some node =>
      rw [continues.grown _ _ _ stored, ← stored]
      exact regular own
  | none =>
      have none : legacyEntry config disk = none := by
        rw [legacyEntry, if_pos own, Disk.data, stored]
      rw [continues.untouched none _ _ fun equal => own.2 equal.1, stored]
      simp

/-- What a report says about its start. -/
structure Sound (keyring : FileKeyring) (library : IdentityLibrary PrivateKey Identity)
    (config : KeyConfig) (report : Report Identity) : Prop where
  continues : Continues keyring library config report.before report.after
  served : ∀ identity, report.outcome = .ok identity →
    Served keyring library config report.before identity report.after
  generated : report.generated = true → NoSource library config report.before

theorem launch_sound (regular : LegacyRegular config disk) (start : Launch) :
    Sound keyring library config (launch keyring library config disk start) := by
  cases ran : (getOrCreateNodeIdentity keyring library config start.entropy).run
      ⟨disk, start.clock, false⟩ with
  | mk outcome machine =>
      cases outcome with
      | ok identity =>
          obtain ⟨served, generated⟩ :=
            (getOrCreateNodeIdentity_ensures regular start.entropy start.clock).of_ok ran
          simp only [launch, ran]
          refine ⟨served.continues, fun other equal => ?_, generated⟩
          cases equal
          exact served
      | error failure =>
          obtain ⟨continues, generated⟩ :=
            (getOrCreateNodeIdentity_ensures regular start.entropy start.clock).of_error ran
          simp only [launch, ran]
          exact ⟨continues, fun _ equal => (by cases equal), generated⟩

/-- Every start goes on from the disk before it, and the last disk has all their files. -/
theorem restarts_sound (regular : LegacyRegular config disk) (starts : List Launch) :
    ∃ last, disk.Extends last ∧ ∀ report ∈ restarts keyring library config disk starts,
      Continues keyring library config disk report.before ∧
        Sound keyring library config report ∧ report.after.Extends last := by
  induction starts generalizing disk with
  | nil =>
      refine ⟨disk, Disk.extends_refl, fun report member => ?_⟩
      cases member
  | cons start rest ih =>
      have first : Sound keyring library config (launch keyring library config disk start) :=
        launch_sound regular start
      obtain ⟨last, grown, others⟩ := ih (first.continues.regular regular)
      refine ⟨last, first.continues.grown.trans grown, fun report member => ?_⟩
      cases member with
      | head => exact ⟨continues_refl, first, grown⟩
      | tail _ member =>
          obtain ⟨continues, sound, kept⟩ := others report member
          exact ⟨first.continues.trans continues, sound, kept⟩

/-- The identity that the sources of a disk prescribe: the legacy one first, then that of
the keyring, then the plaintext one. -/
structure Prescribed (keyring : FileKeyring) (library : IdentityLibrary PrivateKey Identity)
    (config : KeyConfig) (disk : Disk) (identity : Identity) : Prop where
  legacy : ∀ entry, legacyEntry config disk = some entry →
    Holds keyring library config entry identity
  sibling : legacyEntry config disk = none → ∀ entry, siblingEntry config disk = some entry →
    Holds keyring library config entry identity
  plaintext : legacyEntry config disk = none → siblingEntry config disk = none →
    ∀ plain, plaintextIdentity library config disk = some plain → identity = plain

theorem Served.prescribed {middle : Disk} {identity : Identity}
    (continues : Continues keyring library config disk middle)
    (served : Served keyring library config middle identity after) :
    Prescribed keyring library config disk identity := by
  obtain ⟨entry, stored, holds⟩ := served.entry
  have all := continues.trans served.continues
  refine ⟨fun key found => ?_, fun _ key found => ?_, fun none absent plain parsed => ?_⟩
  · have kept : legacyEntry config middle = some key := by
      rw [legacyEntry] at found ⊢
      split at found
      · rename_i own
        rw [if_pos own]
        exact continues.grown.data found
      · cases found
    have copied := served.legacy key kept
    rw [stored] at copied
    cases copied
    exact holds
  · have kept := all.grown.data found
    rw [← siblingEntry, stored] at kept
    cases kept
    exact holds
  · cases there : disk.lookup config.keyringPath nodeIdentityKeyName with
    | none =>
        obtain ⟨saved, held, right⟩ := all.saved none there entry stored
        rw [holds.unique held]
        exact right plain parsed
    | some node =>
        have kept := Disk.data_eq_of_lookup ((all.grown _ _ _ there).trans there.symm)
        rw [← siblingEntry, ← siblingEntry, stored, absent] at kept
        cases kept

/-- Over any restarts, with crashes anywhere: all starts that return have one identity, it
is the prescribed one, none is generated while there is a source, and no file that exists
is ever changed. -/
theorem node_identity_stable (regular : LegacyRegular config disk) (starts : List Launch) :
    (∀ earlier ∈ restarts keyring library config disk starts,
      ∀ later ∈ restarts keyring library config disk starts, ∀ first second,
        earlier.outcome = .ok first → later.outcome = .ok second → first = second) ∧
    ∀ report ∈ restarts keyring library config disk starts,
      (∀ identity, report.outcome = .ok identity →
        Prescribed keyring library config disk identity) ∧
      (report.generated = true → NoSource library config report.before) ∧
      report.before.Extends report.after := by
  obtain ⟨last, _, sound⟩ := restarts_sound regular starts
  refine ⟨fun earlier member later other first second left right => ?_, fun report member => ?_⟩
  · obtain ⟨_, ok, kept⟩ := sound earlier member
    obtain ⟨_, okLater, keptLater⟩ := sound later other
    obtain ⟨entry, stored, holds⟩ := (ok.served first left).entry
    obtain ⟨entryLater, storedLater, holdsLater⟩ := (okLater.served second right).entry
    have same := (kept.data stored).symm.trans (keptLater.data storedLater)
    cases same
    exact holds.unique holdsLater
  · obtain ⟨continues, ok, _⟩ := sound report member
    exact ⟨fun identity served => (ok.served identity served).prescribed continues, ok.generated,
      ok.continues.grown⟩

/-! A legacy keyring with two entries; the first start crashes in the first copy. -/

def sampleKeyring : FileKeyring where
  encrypt _ entropy data := UInt8.ofNat entropy :: data
  decrypt _ entry := if entry = [] then .error "empty entry" else .ok entry.tail
  mode := 384
  decrypt_encrypt _ _ _ := rfl

def sampleLibrary : IdentityLibrary Bytes Bytes where
  privateKeyFromBytes _ raw := .ok raw
  fromPrivateKey key := .ok key
  privateKey := some
  keyType _ := secp256k1
  raw key := key
  generate entropy := .ok [UInt8.ofNat entropy]
  plainType _ := by decide
  restores _ _ equal := ⟨rfl, congrArg Except.ok (Option.some.inj equal).symm⟩

def sampleConfig : KeyConfig where
  storePath := "/data/store"
  keyringSecret := "secret"

def legacyKey : Bytes := 1 :: (secp256k1 ++ [58, 42])

def sampleDisk : Disk where
  directory := Function.update (fun _ => ∅) ⟨true, ["data", "store", "keys"]⟩
    (((∅ : AList fun _ : String => Node).insert nodeIdentityKeyName (.file ⟨legacyKey, 384⟩)).insert
      "encryption-key" (.file ⟨[9, 9, 9], 384⟩))

def sampleStarts : List Launch := [⟨9, 5⟩, ⟨100, 6⟩, ⟨100, 7⟩]

theorem sample_identity_stable :
    (restarts sampleKeyring sampleLibrary sampleConfig sampleDisk sampleStarts).map
        (·.outcome.toOption) = [none, some [42], some [42]] ∧
      ∀ report ∈ restarts sampleKeyring sampleLibrary sampleConfig sampleDisk sampleStarts,
        ∀ identity, report.outcome = .ok identity →
          Prescribed sampleKeyring sampleLibrary sampleConfig sampleDisk identity := by
  have regular : LegacyRegular sampleConfig sampleDisk := fun _ => by decide +kernel
  refine ⟨by decide +kernel, fun report member => ?_⟩
  exact ((node_identity_stable regular sampleStarts).2 report member).1

end ShinzoGenerator.Defradb
