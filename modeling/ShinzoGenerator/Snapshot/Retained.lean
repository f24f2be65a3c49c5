import Mathlib.Data.List.Pairwise
import ShinzoGenerator.Snapshot.SnapshotterRuns

/-! Which snapshot files are on disk. As long as files can be inspected and removed, the
directory holds the newest files that the limit admits, whenever the process ends and
however often it starts again. -/

set_option autoImplicit false

namespace ShinzoGenerator.Snapshot

section Listing

variable {cfg : SnapshotConfig} {life : Lifetime}

/-! ### Names of files -/

theorem range_of_fileName {first second : Completion} (firstFits : first.Fits cfg)
    (secondFits : second.Fits cfg) (same : first.fileName = second.fileName) :
    first.startBlock = second.startBlock ∧ first.endBlock = second.endBlock := by
  have parsed := firstFits.snapshotInfo?
  rw [same, secondFits.snapshotInfo?, Option.some.injEq, SnapshotInfo.mk.injEq] at parsed
  exact ⟨parsed.2.1.symm, parsed.2.2.symm⟩

theorem Sound.ascending (sound : Sound cfg life) :
    life.completed.Pairwise fun earlier later => earlier.startBlock < later.startBlock := by
  refine sound.ordered.imp_of_mem fun member _ below => ?_
  have bounds := (sound.fits _ member).bounds
  omega

/-- A file in the making has a name that no file had before. -/
theorem Sound.fresh (sound : Sound cfg life) {file : Completion}
    (writing : life.phase = .writing file) :
    ∀ done ∈ life.completed, done.fileName ≠ file.fileName := by
  intro done member same
  have cursor := sound.cursor
  rw [CursorAt, writing] at cursor
  obtain ⟨_, fits, beyond⟩ := cursor
  have starts := (range_of_fileName (sound.fits done member) fits same).1
  have below := sound.le_newestEnd member
  have bounds := (sound.fits done member).bounds
  omega

theorem Sound.file_unique (sound : Sound cfg life) {first second : Completion}
    (firstDone : first ∈ life.completed) (secondDone : second ∈ life.completed)
    (same : first.fileName = second.fileName) : first = second := by
  have starts := (range_of_fileName (sound.fits _ firstDone) (sound.fits _ secondDone) same).1
  have distinct : (life.completed.map (·.startBlock)).Nodup :=
    List.pairwise_map.mpr (sound.ascending.imp fun below => ne_of_lt below)
  exact List.inj_on_of_nodup_map distinct firstDone secondDone starts

/-! ### What is listed -/

def Completion.info (file : Completion) : SnapshotInfo where
  filename := file.fileName
  startBlock := file.startBlock
  endBlock := file.endBlock

theorem listed_completed (sound : Sound cfg life) {statFails : String → Bool}
    {info : SnapshotInfo} (listed : info ∈ listSnapshots statFails life.dir) :
    ∃ file ∈ life.completed, file.fileName ∈ life.dir ∧ info = file.info := by
  obtain ⟨inside, glob, parsed⟩ := mem_listSnapshots listed
  obtain ⟨file, done, named⟩ := sound.own _ inside glob
  rw [← named, (sound.fits file done).snapshotInfo?, Option.some.injEq] at parsed
  exact ⟨file, done, named ▸ inside, parsed.symm⟩

theorem listed_of_mem (sound : Sound cfg life) {statFails : String → Bool} {file : Completion}
    (done : file ∈ life.completed) (inside : file.fileName ∈ life.dir)
    (found : statFails file.fileName = false) : file.info ∈ listSnapshots statFails life.dir := by
  rw [listSnapshots, List.mem_insertionSort]
  refine List.mem_filterMap.mpr ⟨file.fileName, List.mem_filter.mpr ⟨inside, ?_⟩,
    (sound.fits file done).snapshotInfo?⟩
  rw [found, Completion.fileName, matchesGlob_snapshotFileName]
  rfl

/-- The ranges are listed in ascending order and do not overlap. -/
theorem listed_ascending (sound : Sound cfg life) (statFails : String → Bool) :
    (listSnapshots statFails life.dir).Pairwise fun first second =>
      first.endBlock < second.startBlock := by
  have symmetric : Std.Symm fun first second : Completion =>
      first.endBlock < second.startBlock ∨ second.endBlock < first.startBlock :=
    ⟨fun _ _ apart => apart.symm⟩
  have disjoint := (sound.ordered.imp fun {first second} below =>
    (Or.inl below : first.endBlock < second.startBlock ∨ second.endBlock < first.startBlock)).forall
  have both := (sorted_listSnapshots statFails life.dir).and
    (nodup_listSnapshots sound.nodup statFails)
  refine both.imp_of_mem fun {first second} firstListed secondListed sorted => ?_
  obtain ⟨file, done, _, rfl⟩ := listed_completed sound firstListed
  obtain ⟨other, otherDone, _, rfl⟩ := listed_completed sound secondListed
  have apart := disjoint done otherDone fun same => sorted.2 (same ▸ rfl)
  have bounds := (sound.fits other otherDone).bounds
  have order := sorted.1
  simp only [Completion.info] at order ⊢
  omega

/-- With every file open to inspection, the list is that of the files on disk. -/
theorem listSnapshots_eq (sound : Sound cfg life) {removed kept : List Completion}
    (split : life.completed = removed ++ kept)
    (gone : ∀ file ∈ removed, file.fileName ∉ life.dir)
    (held : ∀ file ∈ kept, file.fileName ∈ life.dir) {statFails : String → Bool}
    (found : ∀ name, statFails name = false) :
    listSnapshots statFails life.dir = kept.map Completion.info := by
  have starts : (kept.map Completion.info).Pairwise fun first second =>
      first.startBlock < second.startBlock := by
    have ascending := sound.ascending
    rw [split] at ascending
    exact List.pairwise_map.mpr (List.pairwise_append.mp ascending).2.1
  have listed : (listSnapshots statFails life.dir).Pairwise fun first second =>
      first.startBlock < second.startBlock := by
    refine (listed_ascending sound statFails).imp_of_mem fun member _ below => ?_
    obtain ⟨file, done, _, rfl⟩ := listed_completed sound member
    have bounds := (sound.fits file done).bounds
    simp only [Completion.info] at below ⊢
    omega
  have distinct : (kept.map Completion.info).Nodup := by
    refine starts.imp fun {first second} below same => ?_
    rw [same] at below
    exact lt_irrefl _ below
  have perm : (listSnapshots statFails life.dir).Perm (kept.map Completion.info) := by
    refine (List.perm_ext_iff_of_nodup (nodup_listSnapshots sound.nodup statFails)
      distinct).mpr fun info => ?_
    constructor
    · intro member
      obtain ⟨file, done, inside, rfl⟩ := listed_completed sound member
      rw [split] at done
      rcases List.mem_append.mp done with old | new
      · exact absurd inside (gone file old)
      · exact List.mem_map.mpr ⟨file, new, rfl⟩
    · intro member
      obtain ⟨file, new, rfl⟩ := List.mem_map.mp member
      exact listed_of_mem sound (split ▸ List.mem_append_right _ new) (held file new) (found _)
  refine perm.eq_of_pairwise (fun first second _ _ below above => ?_) listed starts
  omega

end Listing

/-! ### The limit -/

/-- The number of files to keep, unless all are. -/
def SnapshotConfig.limit? (cfg : SnapshotConfig) : Option Nat :=
  if cfg.maxSnapshots < 0 then none
  else some (if cfg.maxSnapshots = 0 then defaultMaxSnapshots else cfg.maxSnapshots).toNat

def SnapshotConfig.excess (cfg : SnapshotConfig) (files : List Completion) : List Completion :=
  match cfg.limit? with
  | none => []
  | some limit => files.take (files.length - limit)

/-- The newest files within the limit. -/
def SnapshotConfig.newest (cfg : SnapshotConfig) (completed : List Completion) :
    List Completion :=
  match cfg.limit? with
  | none => completed
  | some limit => completed.drop (completed.length - limit)

theorem expiredSnapshots_info (cfg : SnapshotConfig) (kept : List Completion) :
    expiredSnapshots cfg (kept.map Completion.info) = (cfg.excess kept).map Completion.info := by
  rw [expiredSnapshots, SnapshotConfig.excess, SnapshotConfig.limit?]
  by_cases unlimited : cfg.maxSnapshots < 0
  · simp only [if_pos unlimited, List.map_nil]
  · simp only [if_neg unlimited, List.length_map]
    have positive : 0 < if cfg.maxSnapshots = 0 then defaultMaxSnapshots else cfg.maxSnapshots := by
      split
      · decide
      · omega
    generalize (if cfg.maxSnapshots = 0 then defaultMaxSnapshots else cfg.maxSnapshots) = limit
      at positive
    by_cases few : (kept.length : Int) ≤ limit
    · have none : kept.length - limit.toNat = 0 := by omega
      rw [if_pos few, none, List.take_zero, List.map_nil]
    · rw [if_neg few, List.map_take]

/-! ### Undisturbed lifetimes -/

/-- Every file can be inspected and removed. -/
def Undisturbed (_ : Lifetime) : SnapshotMove → Prop
  | .start statFails | .advance statFails => ∀ name, statFails name = false
  | .remove fails => fails = false
  | .cycle _ _ | .createFails _ | .rename | .purged | .crash => True

/-- The completed files split into removed ones and newer ones on disk. -/
structure Retained (cfg : SnapshotConfig) (life : Lifetime) (removed kept : List Completion) :
    Prop where
  split : life.completed = removed ++ kept
  gone : ∀ file ∈ removed, file.fileName ∉ life.dir
  held : ∀ file ∈ kept, file.fileName ∈ life.dir
  enough : removed ≠ [] → ∃ limit, cfg.limit? = some limit ∧ limit ≤ kept.length
  few : ∀ limit, cfg.limit? = some limit → kept.length ≤ limit + 1
  settled : life.phase = .idle ∨ (∃ file, life.phase = .writing file) →
    ∀ limit, cfg.limit? = some limit → kept.length ≤ limit
  purging : ∀ names, life.phase = .purging names →
    names = (cfg.excess kept).map Completion.fileName

section Steps

variable {cfg : SnapshotConfig} {life : Lifetime} {removed kept : List Completion}

/-- A change of temporary files, of the cursor and of the phase. -/
theorem Retained.of_tmp (retained : Retained cfg life removed kept) {dir : Directory}
    {lastSnapshotBlock : Int} {phase : Phase}
    (same : ∀ name, matchesGlob name = true → (name ∈ dir ↔ name ∈ life.dir))
    (settled : phase = .idle ∨ (∃ file, phase = .writing file) →
      ∀ limit, cfg.limit? = some limit → kept.length ≤ limit)
    (purging : ∀ names, phase = .purging names → names = (cfg.excess kept).map Completion.fileName) :
    Retained cfg { life with dir, lastSnapshotBlock, phase } removed kept where
  split := retained.split
  gone file member inside :=
    retained.gone file member ((same _ (matchesGlob_snapshotFileName _ _)).mp inside)
  held file member := (same _ (matchesGlob_snapshotFileName _ _)).mpr (retained.held file member)
  enough := retained.enough
  few := retained.few
  settled := settled
  purging := purging

theorem Retained.expiredNames_eq (retained : Retained cfg life removed kept)
    (sound : Sound cfg life) {statFails : String → Bool} (found : ∀ name, statFails name = false) :
    expiredNames cfg statFails life.dir = (cfg.excess kept).map Completion.fileName := by
  rw [expiredNames, listSnapshots_eq sound retained.split retained.gone retained.held found,
    expiredSnapshots_info, List.map_map]
  rfl

/-- A purge begins with the files that are too many. -/
theorem Retained.purge (retained : Retained cfg life removed kept) (sound : Sound cfg life)
    {statFails : String → Bool} (found : ∀ name, statFails name = false)
    (lastSnapshotBlock : Int) :
    Retained cfg { life with
      lastSnapshotBlock, phase := .purging (expiredNames cfg statFails life.dir) } removed kept := by
  refine retained.of_tmp (fun _ _ => Iff.rfl) (fun active => ?_) fun names same => ?_
  · simp at active
  · cases same
    exact retained.expiredNames_eq sound found

theorem Retained.rename (retained : Retained cfg life removed kept) (sound : Sound cfg life)
    {file : Completion} (writing : life.phase = .writing file) :
    Retained cfg { life with
      dir := (life.dir.without (tmpFileName file.fileName)).with file.fileName
      completed := life.completed ++ [file]
      phase := .renamed file } removed (kept ++ [file]) := by
  have fresh := sound.fresh writing
  have settled := retained.settled (.inr ⟨file, writing⟩)
  refine ⟨?_, ?_, ?_, ?_, ?_, ?_, ?_⟩
  · rw [retained.split, List.append_assoc]
  · intro old member inside
    rcases Directory.mem_with.mp inside with before | same
    · exact retained.gone old member (Directory.mem_without.mp before).1
    · exact fresh old (retained.split ▸ List.mem_append_left _ member) same
  · intro old member
    rcases List.mem_append.mp member with earlier | single
    · refine Directory.mem_with.mpr (.inl (Directory.mem_without.mpr ?_))
      exact ⟨retained.held old earlier, ne_tmpFileName (matchesGlob_snapshotFileName _ _) _⟩
    · exact Directory.mem_with.mpr (.inr (congrArg _ (List.mem_singleton.mp single)))
  · intro some
    obtain ⟨limit, is, enough⟩ := retained.enough some
    exact ⟨limit, is, by rw [List.length_append]; omega⟩
  · intro limit is
    rw [List.length_append]
    exact Nat.add_le_add_right (settled limit is) 1
  · simp
  · intro names same
    cases same

/-- The first of the files that are too many goes. -/
theorem Retained.remove (retained : Retained cfg life removed kept) (sound : Sound cfg life)
    {name : String} {rest : List String} (purging : life.phase = .purging (name :: rest)) :
    ∃ file others, kept = file :: others ∧
      Retained cfg { life with dir := life.dir.without name, phase := .purging rest }
        (removed ++ [file]) others := by
  have names := retained.purging _ purging
  cases limited : cfg.limit? with
  | none =>
      rw [SnapshotConfig.excess, limited] at names
      cases names
  | some limit =>
      simp only [SnapshotConfig.excess, limited] at names
      cases files : kept with
      | nil =>
          rw [files, List.take_nil] at names
          cases names
      | cons file others =>
          have many : ∃ extra, kept.length - limit = extra + 1 := by
            refine Nat.exists_eq_succ_of_ne_zero fun none => ?_
            rw [none, List.take_zero] at names
            cases names
          obtain ⟨extra, count⟩ := many
          rw [count, files, List.take_succ_cons, List.map_cons, List.cons.injEq] at names
          have length : others.length - limit = extra := by
            rw [files, List.length_cons] at count
            omega
          have split : life.completed = removed ++ file :: others := files ▸ retained.split
          refine ⟨file, others, rfl, ?_, ?_, ?_, ?_, ?_, ?_, ?_⟩
          · rw [split, List.append_assoc]
            rfl
          · intro old member inside
            obtain ⟨before, differs⟩ := Directory.mem_without.mp inside
            rcases List.mem_append.mp member with earlier | single
            · exact retained.gone old earlier before
            · exact differs ((congrArg _ (List.mem_singleton.mp single)).trans names.1.symm)
          · intro other member
            refine Directory.mem_without.mpr
              ⟨retained.held other (files ▸ List.mem_cons_of_mem _ member), fun same => ?_⟩
            -- The same name would be the same file, but the files ascend.
            have ascending := sound.ascending
            rw [split] at ascending
            have above := List.rel_of_pairwise_cons (List.pairwise_append.mp ascending).2.1 member
            have fileDone : file ∈ life.completed := by simp [split]
            have otherDone : other ∈ life.completed := by simp [split, member]
            have one := sound.file_unique otherDone fileDone (same.trans names.1)
            rw [one] at above
            exact lt_irrefl _ above
          · intro _
            exact ⟨limit, limited, by rw [files, List.length_cons] at count; omega⟩
          · intro other is
            have few := retained.few other is
            rw [files, List.length_cons] at few
            omega
          · simp
          · intro others' same
            cases same
            simp only [SnapshotConfig.excess, limited, length]
            exact names.2

/-- Nothing is left to remove. -/
theorem Retained.within (retained : Retained cfg life removed kept)
    (purging : life.phase = .purging []) : ∀ limit, cfg.limit? = some limit → kept.length ≤ limit := by
  intro limit is
  have names := retained.purging _ purging
  simp only [SnapshotConfig.excess, is] at names
  have empty := List.map_eq_nil_iff.mp names.symm
  rcases List.take_eq_nil_iff.mp empty with none | nil
  · omega
  · rw [nil]
    exact Nat.zero_le _

theorem retained_step {move : SnapshotMove} (sound : Sound cfg life)
    (retained : Retained cfg life removed kept)
    (enabled : (snapshotter cfg).enabled life move) (undisturbed : Undisturbed life move) :
    ∃ removed kept, Retained cfg ((snapshotter cfg).effect life move) removed kept := by
  change ∃ removed kept, Retained cfg (snapshotEffect cfg life move) removed kept
  cases move with
  | start statFails =>
      have located : life.phase = .down := enabled
      simp only [snapshotEffect, located]
      exact ⟨removed, kept, retained.purge sound undisturbed _⟩
  | cycle lowest highest =>
      have idle : life.phase = .idle := enabled.1
      simp only [snapshotEffect, idle]
      cases decideSnapshot cfg life.lastSnapshotBlock lowest highest with
      | none => exact ⟨removed, kept, retained⟩
      | some range =>
          refine ⟨removed, kept, retained.of_tmp (fun name glob => ?_)
            (fun _ => retained.settled (.inl idle)) fun names same => ?_⟩
          · rw [Directory.mem_with, or_iff_left (ne_tmpFileName glob _)]
          · cases same
  | createFails tmpStays =>
      obtain ⟨file, writing⟩ := enabled
      simp only [snapshotEffect, writing]
      refine ⟨removed, kept, retained.of_tmp (fun name glob => ?_)
        (fun _ => retained.settled (.inr ⟨file, writing⟩)) fun names same => ?_⟩
      · cases tmpStays with
        | true => exact Iff.rfl
        | false => exact Directory.mem_without.trans (and_iff_left (ne_tmpFileName glob _))
      · cases same
  | rename =>
      obtain ⟨file, writing⟩ := enabled
      simp only [snapshotEffect, writing]
      exact ⟨removed, kept ++ [file], retained.rename sound writing⟩
  | advance statFails =>
      obtain ⟨file, renamed⟩ := enabled
      simp only [snapshotEffect, renamed]
      exact ⟨removed, kept, retained.purge sound undisturbed _⟩
  | remove fails =>
      obtain ⟨name, rest, purging⟩ := enabled
      have works : fails = false := undisturbed
      obtain ⟨file, others, _, after⟩ := retained.remove sound purging
      simp only [snapshotEffect, purging, works, Bool.false_eq_true, if_false]
      exact ⟨_, _, after⟩
  | purged =>
      have located : life.phase = .purging [] := enabled
      simp only [snapshotEffect, located]
      refine ⟨removed, kept, retained.of_tmp (fun _ _ => Iff.rfl)
        (fun _ => retained.within located) fun names same => ?_⟩
      cases same
  | crash =>
      simp only [snapshotEffect]
      refine ⟨removed, kept, retained.of_tmp (fun _ _ => Iff.rfl) (fun active => ?_)
        fun names same => ?_⟩
      · simp at active
      · cases same

end Steps

theorem retained_path {cfg : SnapshotConfig} {life : Lifetime}
    (reached : ((snapshotter cfg).restrict Undisturbed).Path {} life) :
    ∃ removed kept, Retained cfg life removed kept := by
  induction reached with
  | refl =>
      refine ⟨[], [], rfl, by simp, by simp, fun some => absurd rfl some, fun _ _ => by simp,
        fun _ _ _ => by simp, fun names same => ?_⟩
      cases same
  | step path enabled retained =>
      obtain ⟨removed, kept, retained⟩ := retained
      exact retained_step (sound_path path.of_restrict) retained enabled.1 enabled.2

/-- What is kept between the cycles are the newest files within the limit. -/
theorem Retained.newest_eq {cfg : SnapshotConfig} {life : Lifetime}
    {removed kept : List Completion} (retained : Retained cfg life removed kept)
    (settled : ∀ limit, cfg.limit? = some limit → kept.length ≤ limit) :
    cfg.newest life.completed = kept := by
  rw [SnapshotConfig.newest, retained.split]
  cases limited : cfg.limit? with
  | none =>
      by_cases none : removed = []
      · rw [none, List.nil_append]
      · obtain ⟨limit, is, _⟩ := retained.enough none
        rw [limited] at is
        cases is
  | some limit =>
      have most := settled limit limited
      simp only [List.length_append]
      by_cases none : removed = []
      · rw [none, List.nil_append, List.length_nil, Nat.zero_add, Nat.sub_eq_zero_of_le most,
          List.drop_zero]
      · obtain ⟨other, is, least⟩ := retained.enough none
        rw [limited, Option.some.injEq] at is
        have count : removed.length + kept.length - limit = removed.length := by omega
        rw [count, List.drop_left]

/-! ### The window on disk -/

/-- So many files above a height end so many blocks above it. -/
theorem ends_above {cfg : SnapshotConfig} {files : List Completion} {floor : Int}
    (fits : ∀ file ∈ files, file.Fits cfg)
    (ordered : files.Pairwise fun first second => first.endBlock < second.startBlock)
    (above : ∀ file ∈ files, floor < file.startBlock) {newest : Completion}
    (last : files.getLast? = some newest) :
    floor + files.length * cfg.blocksPerFile ≤ newest.endBlock := by
  induction files generalizing floor with
  | nil => cases last
  | cons file files ih =>
      have size := (fits file List.mem_cons_self).size
      have start := above file List.mem_cons_self
      rw [List.pairwise_cons] at ordered
      cases files with
      | nil =>
          have only : file = newest := Option.some.inj last
          rw [List.length_singleton, Int.natCast_one, Int.one_mul, ← only]
          omega
      | cons next rest =>
          rw [List.getLast?_cons_cons] at last
          have later := ih (fun other member => fits other (List.mem_cons_of_mem _ member))
            ordered.2 ordered.1 last
          rw [List.length_cons, Int.natCast_add, Int.natCast_one, Int.add_mul, Int.one_mul]
          omega

/-- A height that was snapshotted, and lies less than the limit's worth of blocks below the
newest one, is in a file on disk between the cycles. -/
theorem window_on_disk {cfg : SnapshotConfig} {life : Lifetime}
    (reached : ((snapshotter cfg).restrict Undisturbed).Path {} life) {window : Int}
    (spans : ∀ limit, cfg.limit? = some limit → window ≤ limit * cfg.blocksPerFile)
    {file : Completion} (done : file ∈ life.completed) {height : Int}
    (inside : height ≤ file.endBlock) (near : newestEnd life.completed - height < window) :
    file.fileName ∈ life.dir := by
  have sound := sound_path reached.of_restrict
  obtain ⟨removed, kept, retained⟩ := retained_path reached
  have split := retained.split
  rw [split] at done
  rcases List.mem_append.mp done with old | new
  · exfalso
    obtain ⟨limit, limited, enough⟩ := retained.enough (List.ne_nil_of_mem old)
    have wide := spans limit limited
    have size := cfg.positive
    have more : (limit : Int) * cfg.blocksPerFile ≤ kept.length * cfg.blocksPerFile :=
      Int.mul_le_mul_of_nonneg_right (by omega) (by omega)
    have fits := sound.fits
    have ordered := sound.ordered
    rw [split] at fits
    rw [split, List.pairwise_append] at ordered
    cases last : kept.getLast? with
    | none =>
        rw [List.getLast?_eq_none_iff.mp last, List.length_nil, Int.natCast_zero, Int.zero_mul] at more
        have below := sound.le_newestEnd (split ▸ List.mem_append_left kept old)
        omega
    | some newest =>
        have above := ends_above (fun other member => fits other (List.mem_append_right _ member))
          ordered.2.1 (fun other member => ordered.2.2 file old other member) last
        have top : newestEnd life.completed = newest.endBlock := by
          rw [newestEnd, split, List.getLast?_append, last]
          rfl
        omega
  · exact retained.held file new

/-- If every file can be inspected and removed, then there is never more than one file
beyond the limit, and between the cycles the snapshot files on disk are exactly the newest
completed ones within the limit. -/
theorem newest_snapshots_retained (cfg : SnapshotConfig) {life : Lifetime}
    (reached : ((snapshotter cfg).restrict Undisturbed).Path {} life) :
    (∀ limit, cfg.limit? = some limit → (life.dir.filter matchesGlob).length ≤ limit + 1) ∧
      (life.phase = .idle ∨ (∃ file, life.phase = .writing file) → ∀ name,
        name ∈ life.dir ∧ matchesGlob name = true ↔
          ∃ file ∈ cfg.newest life.completed, file.fileName = name) := by
  have sound := sound_path reached.of_restrict
  obtain ⟨removed, kept, retained⟩ := retained_path reached
  have onDisk : ∀ name, name ∈ life.dir ∧ matchesGlob name = true ↔
      ∃ file ∈ kept, file.fileName = name := by
    intro name
    constructor
    · intro ⟨inside, glob⟩
      obtain ⟨file, done, rfl⟩ := sound.own name inside glob
      rw [retained.split] at done
      rcases List.mem_append.mp done with old | new
      · exact absurd inside (retained.gone file old)
      · exact ⟨file, new, rfl⟩
    · intro ⟨file, member, named⟩
      exact named ▸ ⟨retained.held file member, matchesGlob_snapshotFileName _ _⟩
  refine ⟨fun limit is => ?_, fun settled => ?_⟩
  · have names : life.dir.filter matchesGlob ⊆ kept.map Completion.fileName := fun name member =>
      List.mem_map.mpr ((onDisk name).mp (List.mem_filter.mp member))
    have fewer := (List.subperm_of_subset (sound.nodup.filter _) names).length_le
    rw [List.length_map] at fewer
    exact fewer.trans (retained.few limit is)
  · rw [retained.newest_eq (retained.settled settled)]
    exact onDisk

/-! Files of two blocks, of which one is kept. The process ends once the second file has
its name, and the next start removes the first one. -/

def restartedMoves : List SnapshotMove :=
  [.start fun _ => false, .purged, .cycle 1 4, .rename, .advance fun _ => false, .purged,
    .cycle 3 9, .rename, .crash, .start fun _ => false, .remove false, .purged]

def restartedLife : Lifetime where
  dir := [snapshotFileName 4 5]
  lastSnapshotBlock := 5
  phase := .idle
  completed :=
    [{ startBlock := 2, endBlock := 3, lowest := 1, highest := 4 },
      { startBlock := 4, endBlock := 5, lowest := 3, highest := 9 }]

theorem restart_keeps_newest :
    (snapshotter pairFiles).run? restartedMoves {} = some restartedLife ∧
      ∀ name, name ∈ restartedLife.dir ∧ matchesGlob name = true ↔
        ∃ file ∈ pairFiles.newest restartedLife.completed, file.fileName = name := by
  have executed : (snapshotter pairFiles).run? restartedMoves {} = some restartedLife := by
    decide +kernel
  have undisturbed : ∀ move ∈ restartedMoves, ∀ life, Undisturbed life move := by
    simp [restartedMoves, Undisturbed]
  have reached := GuardedSystem.path_of_run?_restrict undisturbed executed
  exact ⟨executed, (newest_snapshots_retained pairFiles reached).2 (.inl rfl)⟩

end ShinzoGenerator.Snapshot
