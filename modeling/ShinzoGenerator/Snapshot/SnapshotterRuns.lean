import Mathlib.Data.List.MinMax
import Mathlib.Data.List.Nodup
import ShinzoGenerator.Lib.GuardedSystem
import ShinzoGenerator.Snapshot.Snapshotter

/-! Snapshot cycles over whole lifetimes of a directory, with failures, purges and
crashes at every step. The file names always know the newest completed range. -/

set_option autoImplicit false

namespace ShinzoGenerator.Snapshot

/-! ### Reading names back -/

private theorem toList_toString (number : Nat) :
    (toString (number : Int)).toList = Nat.toDigits 10 number := by
  have same : toString (number : Int) = toString number := rfl
  rw [same, Nat.toString_eq_ofList_toDigits, String.toList_ofList]

private theorem underscore_absent (number : Nat) : '_' ∉ (toString (number : Int)).toList := by
  rw [toList_toString]
  exact Nat.underscore_not_in_toDigits

theorem parseDigits_toDigits (number : Nat) :
    parseDigits (Nat.toDigits 10 number) = some number := by
  have digits : (Nat.toDigits 10 number).all Char.isDigit = true := by
    rw [List.all_eq_true]
    intro char member
    exact Nat.isDigit_of_mem_toDigits (by decide) (by decide) member
  have written : ¬ (Nat.toDigits 10 number = [] ∨ (Nat.toDigits 10 number).all Char.isDigit = false) := by
    rw [digits]
    simp [Nat.toDigits_ne_nil]
  rw [parseDigits, if_neg written, Nat.ofDigitChars_ten_toDigits]

theorem parseInt_toString {number : Nat} (small : number < int64Limit) :
    parseInt (toString (number : Int)).toList = some (number : Int) := by
  have parsed := parseDigits_toDigits number
  rw [toList_toString]
  cases spelled : Nat.toDigits 10 number with
  | nil => exact absurd spelled Nat.toDigits_ne_nil
  | cons first rest =>
      have digit : first.isDigit = true :=
        Nat.isDigit_of_mem_toDigits (by decide) (by decide) (spelled ▸ List.mem_cons_self)
      rw [spelled] at parsed
      unfold parseInt
      split
      · rename_i same
        cases same
        exact absurd digit (by decide)
      · rename_i same
        cases same
        exact absurd digit (by decide)
      · simp [parsed, small]

theorem nameParts_snapshotFileName (startBlock endBlock : Nat) :
    nameParts (snapshotFileName startBlock endBlock) =
      ["snapshot".toList, (toString (startBlock : Int)).toList, (toString (endBlock : Int)).toList] := by
  have spelled : (snapshotFileName startBlock endBlock).toList =
      ("snapshot".toList ++ '_' :: ((toString (startBlock : Int)).toList ++
        '_' :: (toString (endBlock : Int)).toList)) ++ fileSuffix.toList := by
    simp [snapshotFileName, filePrefix]
  have suffixed : fileSuffix.toList.isSuffixOf (snapshotFileName startBlock endBlock).toList = true := by
    rw [List.isSuffixOf_iff_suffix, spelled]
    exact List.suffix_append _ _
  simp only [nameParts, suffixed, if_true]
  rw [spelled, List.length_append, ← String.length_toList, Nat.add_sub_cancel, List.take_left,
    List.splitOn_append_cons_self_of_not_mem (by decide),
    List.splitOn_append_cons_self_of_not_mem (underscore_absent startBlock),
    List.splitOn_eq_singleton (underscore_absent endBlock)]

theorem matchesGlob_snapshotFileName (startBlock endBlock : Int) :
    matchesGlob (snapshotFileName startBlock endBlock) = true := by
  simp only [matchesGlob, Bool.and_eq_true, List.isPrefixOf_iff_prefix, List.isSuffixOf_iff_suffix,
    decide_eq_true_eq]
  refine ⟨⟨?_, ?_⟩, ?_⟩
  · simp [snapshotFileName, List.append_assoc]
  · rw [snapshotFileName, String.toList_append]
    exact List.suffix_append _ _
  · simp only [snapshotFileName, String.length_append]
    omega

theorem matchesGlob_tmpFileName (filename : String) : matchesGlob (tmpFileName filename) = false := by
  have foreign : fileSuffix.toList.isSuffixOf (tmpFileName filename).toList = false := by
    rw [Bool.eq_false_iff, ne_eq, List.isSuffixOf_iff_suffix]
    rintro ⟨front, same⟩
    have last := congrArg List.getLast? same
    simp [tmpFileName, fileSuffix, tmpSuffix] at last
  simp [matchesGlob, foreign]

/-! ### Lifetimes of a directory -/

/-- A snapshot file that was completed, with the stored heights its cycle observed. -/
structure Completion where
  startBlock : Int
  endBlock : Int
  lowest : Int
  highest : Int
deriving DecidableEq

def Completion.fileName (done : Completion) : String :=
  snapshotFileName done.startBlock done.endBlock

/-- Where the snapshot goroutine is. A file counts as completed from its rename on, even
if the process does not live to advance its cursor; signing it never fails the cycle. -/
inductive Phase where
  | down
  | idle
  | writing (file : Completion)
  | renamed (file : Completion)
  | purging (expired : List String)
deriving DecidableEq

/-- The directory and the cursor, and the completed files in the order of their creation. -/
structure Lifetime where
  dir : Directory := []
  lastSnapshotBlock : Int := 0
  phase : Phase := .down
  completed : List Completion := []
deriving DecidableEq

inductive SnapshotMove where
  | start (statFails : String → Bool)
  | cycle (lowest highest : Int)
  | createFails (tmpStays : Bool)
  | rename
  | advance (statFails : String → Bool)
  | remove (fails : Bool)
  | purged
  | crash

def Directory.without (dir : Directory) (name : String) : Directory := dir.filter (· ≠ name)

def Directory.with (dir : Directory) (name : String) : Directory := dir.without name ++ [name]

/-- The files that the retention limit removes. -/
def expiredNames (cfg : SnapshotConfig) (statFails : String → Bool) (dir : Directory) :
    List String :=
  (expiredSnapshots cfg (listSnapshots statFails dir)).map (·.filename)

/-- Block numbers are `int64` values that the queries filter to be non-negative. -/
def snapshotEnabled (life : Lifetime) : SnapshotMove → Prop
  | .start _ => life.phase = .down
  | .cycle lowest highest => life.phase = .idle ∧ 0 ≤ lowest ∧ 0 ≤ highest ∧ highest < int64Limit
  | .createFails _ | .rename => ∃ file, life.phase = .writing file
  | .advance _ => ∃ file, life.phase = .renamed file
  | .remove _ => ∃ name rest, life.phase = .purging (name :: rest)
  | .purged => life.phase = .purging []
  | .crash => life.phase ≠ .down

def snapshotEffect (cfg : SnapshotConfig) (life : Lifetime) (move : SnapshotMove) : Lifetime :=
  match move, life.phase with
  | .start statFails, .down =>
      { life with
        lastSnapshotBlock := scanExisting life.dir
        phase := .purging (expiredNames cfg statFails life.dir) }
  | .cycle lowest highest, .idle =>
      match decideSnapshot cfg life.lastSnapshotBlock lowest highest with
      | none => life
      | some (startBlock, endBlock) =>
          let file : Completion := { startBlock, endBlock, lowest, highest }
          { life with dir := life.dir.with (tmpFileName file.fileName), phase := .writing file }
  | .createFails tmpStays, .writing file =>
      { life with
        dir := if tmpStays then life.dir else life.dir.without (tmpFileName file.fileName)
        phase := .idle }
  | .rename, .writing file =>
      { life with
        dir := (life.dir.without (tmpFileName file.fileName)).with file.fileName
        completed := life.completed ++ [file]
        phase := .renamed file }
  | .advance statFails, .renamed file =>
      { life with
        lastSnapshotBlock := file.endBlock
        phase := .purging (expiredNames cfg statFails life.dir) }
  | .remove fails, .purging (name :: rest) =>
      { life with dir := if fails then life.dir else life.dir.without name, phase := .purging rest }
  | .purged, .purging [] => { life with phase := .idle }
  | .crash, _ => { life with phase := .down }
  | _, _ => life

def snapshotter (cfg : SnapshotConfig) : GuardedSystem Lifetime SnapshotMove where
  enabled := snapshotEnabled
  effect := snapshotEffect cfg

instance (phase : Phase) : Decidable (∃ file, phase = .writing file) :=
  match phase with
  | .writing file => isTrue ⟨file, rfl⟩
  | .down | .idle | .renamed _ | .purging _ => isFalse fun found => by
      obtain ⟨_, same⟩ := found
      cases same

instance (phase : Phase) : Decidable (∃ file, phase = .renamed file) :=
  match phase with
  | .renamed file => isTrue ⟨file, rfl⟩
  | .down | .idle | .writing _ | .purging _ => isFalse fun found => by
      obtain ⟨_, same⟩ := found
      cases same

instance (phase : Phase) : Decidable (∃ name rest, phase = .purging (name :: rest)) :=
  match phase with
  | .purging (name :: rest) => isTrue ⟨name, rest, rfl⟩
  | .down | .idle | .writing _ | .renamed _ | .purging [] => isFalse fun found => by
      obtain ⟨_, _, same⟩ := found
      cases same

instance (cfg : SnapshotConfig) (life : Lifetime) (move : SnapshotMove) :
    Decidable ((snapshotter cfg).enabled life move) :=
  match move with
  | .start _ => inferInstanceAs (Decidable (life.phase = .down))
  | .cycle _ highest => inferInstanceAs (Decidable (life.phase = .idle ∧ _ ∧ _ ∧ highest < int64Limit))
  | .createFails _ => inferInstanceAs (Decidable (∃ file, life.phase = .writing file))
  | .rename => inferInstanceAs (Decidable (∃ file, life.phase = .writing file))
  | .advance _ => inferInstanceAs (Decidable (∃ file, life.phase = .renamed file))
  | .remove _ => inferInstanceAs (Decidable (∃ name rest, life.phase = .purging (name :: rest)))
  | .purged => inferInstanceAs (Decidable (life.phase = .purging []))
  | .crash => inferInstanceAs (Decidable (life.phase ≠ .down))

/-! ### The ranges -/

theorem alignUp_spec {blocksPerFile lowest : Int} (positive : 0 < blocksPerFile) (low : 0 < lowest) :
    blocksPerFile ∣ alignUp blocksPerFile lowest ∧ lowest ≤ alignUp blocksPerFile lowest := by
  refine ⟨Int.dvd_mul_left _ _, ?_⟩
  rw [alignUp, Int.tdiv_eq_ediv_of_nonneg (by omega)]
  have split := Int.mul_ediv_add_emod (lowest + blocksPerFile - 1) blocksPerFile
  have small := Int.emod_lt_of_pos (lowest + blocksPerFile - 1) positive
  rw [Int.mul_comm] at split
  omega

/-- Where the next range starts: at a boundary, in what is stored and above the cursor. -/
theorem nextSnapshotRange_start (cfg : SnapshotConfig) {lastSnapshot lowest : Int} (highest : Int)
    (aligned : lastSnapshot = 0 ∨ 0 < lastSnapshot ∧ cfg.blocksPerFile ∣ lastSnapshot + 1)
    (low : 0 < lowest) :
    ∃ start, cfg.blocksPerFile ∣ start ∧ lowest ≤ start ∧ lastSnapshot < start ∧
      nextSnapshotRange cfg lastSnapshot lowest highest =
        if highest < start + cfg.blocksPerFile - 1 then none
        else some (start, start + cfg.blocksPerFile - 1) := by
  obtain ⟨divides, above⟩ := alignUp_spec cfg.positive low
  rcases aligned with none | ⟨cursor, next⟩
  · refine ⟨alignUp cfg.blocksPerFile lowest, divides, above, by omega, ?_⟩
    simp only [nextSnapshotRange, if_pos none, if_neg (not_lt.mpr above)]
  · have known : lastSnapshot ≠ 0 := by omega
    by_cases overtaken : lastSnapshot + 1 < lowest
    · refine ⟨alignUp cfg.blocksPerFile lowest, divides, above, by omega, ?_⟩
      simp only [nextSnapshotRange, if_neg known, if_pos overtaken]
    · refine ⟨lastSnapshot + 1, next, by omega, by omega, ?_⟩
      simp only [nextSnapshotRange, if_neg known, if_neg overtaken]

/-- A decided range is aligned, above the cursor, and within what was observed. -/
theorem decideSnapshot_spec {cfg : SnapshotConfig} {lastSnapshot lowest highest startBlock endBlock : Int}
    (aligned : lastSnapshot = 0 ∨ 0 < lastSnapshot ∧ cfg.blocksPerFile ∣ lastSnapshot + 1)
    (low : 0 ≤ lowest)
    (decided : decideSnapshot cfg lastSnapshot lowest highest = some (startBlock, endBlock)) :
    cfg.blocksPerFile ∣ startBlock ∧ endBlock = startBlock + cfg.blocksPerFile - 1 ∧
      0 < lowest ∧ lowest ≤ startBlock ∧ endBlock ≤ highest ∧ lastSnapshot < startBlock := by
  rw [decideSnapshot] at decided
  split at decided
  · cases decided
  · rename_i nonzero
    obtain ⟨start, divides, above, beyond, next⟩ :=
      nextSnapshotRange_start cfg highest aligned (by omega : 0 < lowest)
    rw [next] at decided
    split at decided
    · cases decided
    · rename_i inside
      cases decided
      exact ⟨divides, rfl, by omega, above, by omega, beyond⟩

/-! ### The invariant -/

/-- A file of the configured size, aligned, and within the heights its cycle observed. -/
structure Completion.Fits (cfg : SnapshotConfig) (file : Completion) : Prop where
  aligned : cfg.blocksPerFile ∣ file.startBlock
  size : file.endBlock = file.startBlock + cfg.blocksPerFile - 1
  observed : 0 < file.lowest ∧ file.lowest ≤ file.startBlock ∧ file.endBlock ≤ file.highest
  bounded : file.highest < int64Limit

/-- The end of the newest completed range, or zero. -/
def newestEnd (completed : List Completion) : Int :=
  match completed.getLast? with
  | none => 0
  | some file => file.endBlock

/-- Where the cursor stands while the process is up. -/
def CursorAt (cfg : SnapshotConfig) (life : Lifetime) : Prop :=
  match life.phase with
  | .down => True
  | .idle => life.lastSnapshotBlock = newestEnd life.completed
  | .writing file => life.lastSnapshotBlock = newestEnd life.completed ∧ file.Fits cfg ∧
      newestEnd life.completed < file.startBlock
  | .renamed file => life.completed.getLast? = some file
  | .purging expired => life.lastSnapshotBlock = newestEnd life.completed ∧
      ∀ file, life.completed.getLast? = some file → file.fileName ∉ expired

structure Sound (cfg : SnapshotConfig) (life : Lifetime) : Prop where
  ordered : life.completed.Pairwise fun first second => first.endBlock < second.startBlock
  fits : ∀ file ∈ life.completed, file.Fits cfg
  nodup : life.dir.Nodup
  own : ∀ name ∈ life.dir, matchesGlob name = true → ∃ file ∈ life.completed, file.fileName = name
  newest : ∀ file, life.completed.getLast? = some file → file.fileName ∈ life.dir
  cursor : CursorAt cfg life

theorem Completion.Fits.bounds {cfg : SnapshotConfig} {file : Completion} (fits : file.Fits cfg) :
    0 < file.startBlock ∧ file.startBlock ≤ file.endBlock ∧ file.endBlock < int64Limit := by
  have positive := cfg.positive
  obtain ⟨low, within, below⟩ := fits.observed
  have size := fits.size
  have bounded := fits.bounded
  omega

theorem Completion.Fits.snapshotInfo? {cfg : SnapshotConfig} {file : Completion}
    (fits : file.Fits cfg) :
    Snapshot.snapshotInfo? file.fileName =
      some { filename := file.fileName, startBlock := file.startBlock, endBlock := file.endBlock } := by
  obtain ⟨low, order, high⟩ := fits.bounds
  obtain ⟨first, firstEq⟩ := Int.eq_ofNat_of_zero_le (by omega : 0 ≤ file.startBlock)
  obtain ⟨last, lastEq⟩ := Int.eq_ofNat_of_zero_le (by omega : 0 ≤ file.endBlock)
  have firstParsed : parseInt (toString (first : Int)).toList = some (first : Int) :=
    parseInt_toString (by omega)
  have lastParsed : parseInt (toString (last : Int)).toList = some (last : Int) :=
    parseInt_toString (by omega)
  rw [Completion.fileName, firstEq, lastEq, Snapshot.snapshotInfo?, nameParts_snapshotFileName]
  simp only [firstParsed, lastParsed]

theorem Completion.Fits.scannedEnd? {cfg : SnapshotConfig} {file : Completion}
    (fits : file.Fits cfg) : Snapshot.scannedEnd? file.fileName = some file.endBlock := by
  obtain ⟨low, order, high⟩ := fits.bounds
  obtain ⟨first, firstEq⟩ := Int.eq_ofNat_of_zero_le (by omega : 0 ≤ file.startBlock)
  obtain ⟨last, lastEq⟩ := Int.eq_ofNat_of_zero_le (by omega : 0 ≤ file.endBlock)
  rw [Completion.fileName, firstEq, lastEq, Snapshot.scannedEnd?, nameParts_snapshotFileName]
  exact parseInt_toString (by omega)

/-- The newest range lies above all others. -/
theorem Sound.le_newest {cfg : SnapshotConfig} {life : Lifetime} (sound : Sound cfg life)
    {newest file : Completion} (last : life.completed.getLast? = some newest)
    (member : file ∈ life.completed) : file = newest ∨ file.endBlock < newest.startBlock := by
  obtain ⟨front, split⟩ := List.getLast?_eq_some_iff.mp last
  have ordered := sound.ordered
  rw [split] at ordered member
  rcases List.mem_append.mp member with earlier | same
  · exact .inr ((List.pairwise_append.mp ordered).2.2 file earlier newest (by simp))
  · exact .inl (List.mem_singleton.mp same)

theorem Sound.le_newestEnd {cfg : SnapshotConfig} {life : Lifetime} (sound : Sound cfg life)
    {file : Completion} (member : file ∈ life.completed) :
    file.endBlock ≤ newestEnd life.completed := by
  rw [newestEnd]
  cases last : life.completed.getLast? with
  | none =>
      rw [List.getLast?_eq_none_iff] at last
      rw [last] at member
      cases member
  | some newest =>
      have bounds := (sound.fits newest (List.mem_of_getLast? last)).bounds
      rcases sound.le_newest last member with rfl | below
      · exact le_rfl
      · simp only
        omega

theorem foldl_max_eq {values : List Int} {start bound : Int} (below : ∀ value ∈ values, value ≤ bound)
    (startBelow : start ≤ bound) (attained : start = bound ∨ bound ∈ values) :
    values.foldl max start = bound := by
  induction values generalizing start with
  | nil => simpa using attained
  | cons value values ih =>
      have valueBelow := below value List.mem_cons_self
      refine ih (fun other member => below other (List.mem_cons_of_mem _ member))
        (max_le startBelow valueBelow) ?_
      rcases attained with same | member
      · exact .inl (by omega)
      · rcases List.mem_cons.mp member with same | later
        · exact .inl (by omega)
        · exact .inr later

/-- The names in the directory know the newest range. -/
theorem Sound.scanExisting_eq {cfg : SnapshotConfig} {life : Lifetime} (sound : Sound cfg life) :
    scanExisting life.dir = newestEnd life.completed := by
  have below : ∀ value ∈ (life.dir.filter matchesGlob).filterMap scannedEnd?,
      value ≤ newestEnd life.completed := by
    intro value member
    obtain ⟨name, listed, scanned⟩ := List.mem_filterMap.mp member
    obtain ⟨inside, glob⟩ := List.mem_filter.mp listed
    obtain ⟨file, completed, rfl⟩ := sound.own name inside glob
    rw [(sound.fits file completed).scannedEnd?, Option.some.injEq] at scanned
    exact scanned ▸ sound.le_newestEnd completed
  have nonnegative : 0 ≤ newestEnd life.completed := by
    rw [newestEnd]
    cases last : life.completed.getLast? with
    | none => exact le_rfl
    | some newest =>
        have bounds := (sound.fits newest (List.mem_of_getLast? last)).bounds
        simp only
        omega
  refine foldl_max_eq below nonnegative ?_
  cases last : life.completed.getLast? with
  | none =>
      left
      rw [newestEnd, last]
  | some newest =>
      right
      have named := (sound.fits newest (List.mem_of_getLast? last)).scannedEnd?
      rw [newestEnd, last, List.mem_filterMap]
      exact ⟨newest.fileName,
        List.mem_filter.mpr ⟨sound.newest newest last, matchesGlob_snapshotFileName _ _⟩, named⟩

/-! ### Purging keeps the newest file -/

theorem snapshotInfo?_filename {name : String} {info : SnapshotInfo}
    (parsed : snapshotInfo? name = some info) : info.filename = name := by
  rw [snapshotInfo?] at parsed
  split at parsed
  · split at parsed
    · cases parsed
      rfl
    · cases parsed
  · cases parsed

theorem mem_listSnapshots {statFails : String → Bool} {dir : Directory} {info : SnapshotInfo}
    (member : info ∈ listSnapshots statFails dir) :
    info.filename ∈ dir ∧ matchesGlob info.filename = true ∧
      snapshotInfo? info.filename = some info := by
  rw [listSnapshots, List.mem_insertionSort] at member
  obtain ⟨name, listed, parsed⟩ := List.mem_filterMap.mp member
  obtain ⟨inside, checked⟩ := List.mem_filter.mp listed
  rw [Bool.and_eq_true] at checked
  rw [snapshotInfo?_filename parsed]
  exact ⟨inside, checked.1, parsed⟩

theorem nodup_listSnapshots {dir : Directory} (nodup : dir.Nodup) (statFails : String → Bool) :
    (listSnapshots statFails dir).Nodup := by
  rw [listSnapshots, (List.perm_insertionSort _ _).nodup_iff]
  refine (nodup.filter _).filterMap fun first second info firstParsed secondParsed => ?_
  exact (snapshotInfo?_filename firstParsed).symm.trans (snapshotInfo?_filename secondParsed)

theorem sorted_listSnapshots (statFails : String → Bool) (dir : Directory) :
    (listSnapshots statFails dir).Pairwise fun first second =>
      first.startBlock ≤ second.startBlock := by
  have total : Std.Total fun first second : SnapshotInfo =>
      first.startBlock ≤ second.startBlock := ⟨fun _ _ => le_total _ _⟩
  have trans : IsTrans SnapshotInfo fun first second =>
      first.startBlock ≤ second.startBlock := ⟨fun _ _ _ => le_trans⟩
  exact List.pairwise_insertionSort _ _

/-- Something is always left behind the expired files. -/
theorem expiredSnapshots_rest (cfg : SnapshotConfig) {infos : List SnapshotInfo}
    (some : expiredSnapshots cfg infos ≠ []) :
    ∃ count, expiredSnapshots cfg infos = infos.take count ∧ count < infos.length := by
  rw [expiredSnapshots] at some ⊢
  by_cases unlimited : cfg.maxSnapshots < 0
  · simp [unlimited] at some
  · simp only [if_neg unlimited] at some ⊢
    have positive : 0 < if cfg.maxSnapshots = 0 then defaultMaxSnapshots else cfg.maxSnapshots := by
      split
      · decide
      · omega
    by_cases few : (infos.length : Int) ≤
        if cfg.maxSnapshots = 0 then defaultMaxSnapshots else cfg.maxSnapshots
    · simp [few] at some
    · simp only [if_neg few]
      exact ⟨_, rfl, by omega⟩

/-- The newest file never expires, whichever files can be inspected. -/
theorem Sound.newest_not_expired {cfg : SnapshotConfig} {life : Lifetime} (sound : Sound cfg life)
    (statFails : String → Bool) {newest : Completion} (last : life.completed.getLast? = some newest) :
    newest.fileName ∉ expiredNames cfg statFails life.dir := by
  intro expired
  obtain ⟨info, member, named⟩ := List.mem_map.mp expired
  obtain ⟨count, taken, short⟩ := expiredSnapshots_rest cfg (List.ne_nil_of_mem member)
  rw [taken] at member
  obtain ⟨other, later⟩ := List.exists_mem_of_length_pos
    (by rw [List.length_drop]; omega : 0 < ((listSnapshots statFails life.dir).drop count).length)
  -- The files that stay are not older, so one of them is the newest file as well.
  have infoIs := (sound.fits newest (List.mem_of_getLast? last)).snapshotInfo?
  obtain ⟨_, _, infoParsed⟩ := mem_listSnapshots (List.mem_of_mem_take member)
  rw [named, infoIs, Option.some.injEq] at infoParsed
  obtain ⟨otherInside, otherGlob, otherParsed⟩ := mem_listSnapshots (List.mem_of_mem_drop later)
  obtain ⟨file, completed, fileNamed⟩ := sound.own _ otherInside otherGlob
  rw [← fileNamed, (sound.fits file completed).snapshotInfo?, Option.some.injEq] at otherParsed
  have sorted := sorted_listSnapshots statFails life.dir
  rw [← List.take_append_drop count (listSnapshots statFails life.dir), List.pairwise_append] at sorted
  have notOlder := sorted.2.2 info member other later
  have same : file = newest := by
    rcases sound.le_newest last completed with same | below
    · exact same
    · have order := (sound.fits file completed).bounds
      rw [← infoParsed, ← otherParsed] at notOlder
      simp only at notOlder
      omega
  have twice : info = other := by rw [← infoParsed, ← otherParsed, same]
  have apart := List.disjoint_take_drop (nodup_listSnapshots sound.nodup statFails) (le_refl count)
  exact apart member (twice ▸ later)

/-! ### Steps -/

@[simp] theorem Directory.mem_without {dir : Directory} {name other : String} :
    other ∈ dir.without name ↔ other ∈ dir ∧ other ≠ name := by
  simp [Directory.without]

@[simp] theorem Directory.mem_with {dir : Directory} {name other : String} :
    other ∈ dir.with name ↔ other ∈ dir ∨ other = name := by
  by_cases same : other = name <;> simp [Directory.with, same]

theorem Directory.nodup_without {dir : Directory} (nodup : dir.Nodup) (name : String) :
    (dir.without name).Nodup := nodup.filter _

theorem Directory.nodup_with {dir : Directory} (nodup : dir.Nodup) (name : String) :
    (dir.with name).Nodup := by
  refine List.nodup_append.mpr ⟨Directory.nodup_without nodup name, List.nodup_singleton _, ?_⟩
  intro first member second single same
  rw [List.mem_singleton.mp single] at same
  exact (Directory.mem_without.mp member).2 same

theorem ne_tmpFileName {name : String} (glob : matchesGlob name = true) (other : String) :
    name ≠ tmpFileName other := by
  intro same
  rw [same, matchesGlob_tmpFileName] at glob
  cases glob

/-- The cursor stands before a boundary. -/
theorem Sound.cursor_aligned {cfg : SnapshotConfig} {life : Lifetime} (sound : Sound cfg life) :
    newestEnd life.completed = 0 ∨ 0 < newestEnd life.completed ∧
      cfg.blocksPerFile ∣ newestEnd life.completed + 1 := by
  rw [newestEnd]
  cases last : life.completed.getLast? with
  | none => exact .inl rfl
  | some newest =>
      right
      have fits := sound.fits newest (List.mem_of_getLast? last)
      have bounds := fits.bounds
      have next : newest.endBlock + 1 = newest.startBlock + cfg.blocksPerFile := by
        rw [fits.size]
        omega
      simp only
      refine ⟨by omega, ?_⟩
      rw [next]
      exact Int.dvd_add fits.aligned (Int.dvd_refl _)

/-- A change of the temporary files alone. -/
theorem Sound.of_tmp {cfg : SnapshotConfig} {life : Lifetime} (sound : Sound cfg life)
    {dir : Directory} {lastSnapshotBlock : Int} {phase : Phase} (nodup : dir.Nodup)
    (same : ∀ name, matchesGlob name = true → (name ∈ dir ↔ name ∈ life.dir))
    (cursor : CursorAt cfg { life with dir, lastSnapshotBlock, phase }) :
    Sound cfg { life with dir, lastSnapshotBlock, phase } where
  ordered := sound.ordered
  fits := sound.fits
  nodup := nodup
  own name member glob := sound.own name ((same name glob).mp member) glob
  newest file last := (same _ (matchesGlob_snapshotFileName _ _)).mpr (sound.newest file last)
  cursor := cursor

theorem Sound.start {cfg : SnapshotConfig} {life : Lifetime} (sound : Sound cfg life)
    (statFails : String → Bool) :
    Sound cfg { life with
      lastSnapshotBlock := scanExisting life.dir
      phase := .purging (expiredNames cfg statFails life.dir) } :=
  sound.of_tmp sound.nodup (fun _ _ => Iff.rfl)
    ⟨sound.scanExisting_eq, fun _ last => sound.newest_not_expired statFails last⟩

theorem Sound.cycle {cfg : SnapshotConfig} {life : Lifetime} (sound : Sound cfg life)
    (idle : life.phase = .idle) {lowest highest startBlock endBlock : Int} (low : 0 ≤ lowest)
    (high : highest < int64Limit)
    (decided : decideSnapshot cfg life.lastSnapshotBlock lowest highest = some (startBlock, endBlock)) :
    Sound cfg { life with
      dir := life.dir.with (tmpFileName (snapshotFileName startBlock endBlock))
      phase := .writing { startBlock, endBlock, lowest, highest } } := by
  have cursor := sound.cursor
  rw [CursorAt, idle] at cursor
  simp only at cursor
  have aligned := sound.cursor_aligned
  rw [cursor] at decided
  obtain ⟨divides, size, positive, above, inside, beyond⟩ :=
    decideSnapshot_spec aligned low decided
  refine sound.of_tmp (Directory.nodup_with sound.nodup _) (fun name glob => ?_)
    ⟨cursor, ⟨divides, size, ⟨positive, above, inside⟩, high⟩, beyond⟩
  rw [Directory.mem_with, or_iff_left (ne_tmpFileName glob _)]

theorem Sound.rename {cfg : SnapshotConfig} {life : Lifetime} (sound : Sound cfg life)
    {file : Completion} (writing : life.phase = .writing file) :
    Sound cfg { life with
      dir := (life.dir.without (tmpFileName file.fileName)).with file.fileName
      completed := life.completed ++ [file]
      phase := .renamed file } := by
  have cursor := sound.cursor
  rw [CursorAt, writing] at cursor
  obtain ⟨_, fits, beyond⟩ := cursor
  have last : (life.completed ++ [file]).getLast? = some file := by simp
  refine ⟨?_, ?_, ?_, ?_, ?_, last⟩
  · refine List.pairwise_append.mpr ⟨sound.ordered, List.pairwise_singleton _ _, ?_⟩
    intro first member second single
    rw [List.mem_singleton.mp single]
    exact (sound.le_newestEnd member).trans_lt beyond
  · intro other member
    rcases List.mem_append.mp member with old | new
    · exact sound.fits other old
    · rw [List.mem_singleton.mp new]
      exact fits
  · exact Directory.nodup_with (Directory.nodup_without sound.nodup _) _
  · intro name member glob
    rcases Directory.mem_with.mp member with old | rfl
    · obtain ⟨other, completed, named⟩ := sound.own name (Directory.mem_without.mp old).1 glob
      exact ⟨other, List.mem_append_left _ completed, named⟩
    · exact ⟨file, by simp, rfl⟩
  · intro newest newestIs
    rw [last, Option.some.injEq] at newestIs
    rw [← newestIs, Directory.mem_with]
    exact .inr rfl

theorem Sound.advance {cfg : SnapshotConfig} {life : Lifetime} (sound : Sound cfg life)
    {file : Completion} (renamed : life.phase = .renamed file) (statFails : String → Bool) :
    Sound cfg { life with
      lastSnapshotBlock := file.endBlock
      phase := .purging (expiredNames cfg statFails life.dir) } := by
  have last := sound.cursor
  rw [CursorAt, renamed] at last
  simp only at last
  refine sound.of_tmp sound.nodup (fun _ _ => Iff.rfl)
    ⟨?_, fun _ newest => sound.newest_not_expired statFails newest⟩
  rw [newestEnd, last]

theorem Sound.remove {cfg : SnapshotConfig} {life : Lifetime} (sound : Sound cfg life)
    {name : String} {rest : List String} (purging : life.phase = .purging (name :: rest))
    (fails : Bool) :
    Sound cfg { life with
      dir := if fails then life.dir else life.dir.without name
      phase := .purging rest } := by
  have cursor := sound.cursor
  rw [CursorAt, purging] at cursor
  obtain ⟨last, spared⟩ := cursor
  have kept : ∀ file, life.completed.getLast? = some file → file.fileName ∉ rest :=
    fun file newest listed => spared file newest (List.mem_cons_of_mem _ listed)
  cases fails with
  | true => exact sound.of_tmp sound.nodup (fun _ _ => Iff.rfl) ⟨last, kept⟩
  | false =>
      refine ⟨sound.ordered, sound.fits, Directory.nodup_without sound.nodup _, ?_, ?_, last, kept⟩
      · exact fun other member => sound.own other (Directory.mem_without.mp member).1
      · intro file newest
        refine Directory.mem_without.mpr ⟨sound.newest file newest, fun same => ?_⟩
        exact spared file newest (same ▸ List.mem_cons_self)

theorem sound_step {cfg : SnapshotConfig} {life : Lifetime} {move : SnapshotMove}
    (sound : Sound cfg life) (enabled : (snapshotter cfg).enabled life move) :
    Sound cfg ((snapshotter cfg).effect life move) := by
  change Sound cfg (snapshotEffect cfg life move)
  cases move with
  | start statFails =>
      have located : life.phase = .down := enabled
      simp only [snapshotEffect, located]
      exact sound.start statFails
  | cycle lowest highest =>
      obtain ⟨idle, low, _, high⟩ := enabled
      simp only [snapshotEffect, idle]
      cases decided : decideSnapshot cfg life.lastSnapshotBlock lowest highest with
      | none => exact sound
      | some range => exact sound.cycle idle low high decided
  | createFails tmpStays =>
      obtain ⟨file, writing⟩ := enabled
      have cursor := sound.cursor
      rw [CursorAt, writing] at cursor
      simp only [snapshotEffect, writing]
      refine sound.of_tmp ?_ (fun name glob => ?_) cursor.1
      · cases tmpStays with
        | true => exact sound.nodup
        | false => exact Directory.nodup_without sound.nodup _
      · cases tmpStays with
        | true => rfl
        | false =>
            exact ⟨fun member => (Directory.mem_without.mp member).1,
              fun member => Directory.mem_without.mpr ⟨member, ne_tmpFileName glob _⟩⟩
  | rename =>
      obtain ⟨file, writing⟩ := enabled
      simp only [snapshotEffect, writing]
      exact sound.rename writing
  | advance statFails =>
      obtain ⟨file, renamed⟩ := enabled
      simp only [snapshotEffect, renamed]
      exact sound.advance renamed statFails
  | remove fails =>
      obtain ⟨name, rest, purging⟩ := enabled
      simp only [snapshotEffect, purging]
      exact sound.remove purging fails
  | purged =>
      have located : life.phase = .purging [] := enabled
      have cursor := sound.cursor
      rw [CursorAt, located] at cursor
      simp only [snapshotEffect, located]
      exact sound.of_tmp sound.nodup (fun _ _ => Iff.rfl) cursor.1
  | crash =>
      simp only [snapshotEffect]
      exact sound.of_tmp sound.nodup (fun _ _ => Iff.rfl) trivial

theorem sound_path {cfg : SnapshotConfig} {life : Lifetime}
    (reached : (snapshotter cfg).Path {} life) : Sound cfg life := by
  refine reached.invariant ?_ fun _ _ sound enabled => sound_step sound enabled
  exact ⟨.nil, by simp, .nil, by simp, by simp, trivial⟩

/-- The snapshot files ever completed are aligned, of one size, within what their cycles
observed, and each starts above the end of all earlier ones; and a restart finds the end
of the highest one, or zero if there was none. -/
theorem completed_ranges_sound (cfg : SnapshotConfig) {life : Lifetime}
    (reached : (snapshotter cfg).Path {} life) :
    life.completed.Pairwise (fun first second =>
        first.startBlock < second.startBlock ∧ first.endBlock < second.startBlock) ∧
      (∀ file ∈ life.completed, cfg.blocksPerFile ∣ file.startBlock ∧
        file.endBlock = file.startBlock + cfg.blocksPerFile - 1 ∧
        file.lowest ≤ file.startBlock ∧ file.endBlock ≤ file.highest) ∧
      ∀ statFails, (snapshotter cfg).enabled life (.start statFails) →
        let restarted := (snapshotter cfg).effect life (.start statFails)
        (∀ file ∈ life.completed, file.endBlock ≤ restarted.lastSnapshotBlock) ∧
          (restarted.lastSnapshotBlock = 0 ∧ life.completed = [] ∨
            ∃ file ∈ life.completed, file.endBlock = restarted.lastSnapshotBlock) := by
  have sound := sound_path reached
  refine ⟨?_, ?_, ?_⟩
  · refine sound.ordered.imp_of_mem fun member _ below => ⟨?_, below⟩
    have bounds := (sound.fits _ member).bounds
    omega
  · intro file member
    have fits := sound.fits file member
    exact ⟨fits.aligned, fits.size, fits.observed.2⟩
  · intro statFails enabled
    have located : life.phase = .down := enabled
    have cursor : ((snapshotter cfg).effect life (.start statFails)).lastSnapshotBlock =
        newestEnd life.completed := by
      change (snapshotEffect cfg life (.start statFails)).lastSnapshotBlock = _
      simp only [snapshotEffect, located]
      exact sound.scanExisting_eq
    simp only [cursor]
    refine ⟨fun file member => sound.le_newestEnd member, ?_⟩
    rw [newestEnd]
    cases last : life.completed.getLast? with
    | none => exact .inl ⟨rfl, List.getLast?_eq_none_iff.mp last⟩
    | some newest => exact .inr ⟨newest, List.mem_of_getLast? last, rfl⟩

/-! Files of two blocks, of which one is kept. The second file is completed, but the
process ends before the cursor moves. -/

theorem pair_positive : (0 : Int) < 2 := by decide

def pairFiles : SnapshotConfig where
  blocksPerFile := 2
  maxSnapshots := 1
  positive := pair_positive

def crashAfterRename : List SnapshotMove :=
  [.start fun _ => false, .purged, .cycle 1 4, .rename, .advance fun _ => false, .purged,
    .cycle 1 5, .createFails true, .cycle 6 5, .cycle 3 9, .rename, .crash]

def crashedLife : Lifetime where
  dir := [snapshotFileName 2 3, snapshotFileName 4 5]
  lastSnapshotBlock := 3
  completed :=
    [{ startBlock := 2, endBlock := 3, lowest := 1, highest := 4 },
      { startBlock := 4, endBlock := 5, lowest := 3, highest := 9 }]

theorem crashedLife_ranges_sound :
    (snapshotter pairFiles).run? crashAfterRename {} = some crashedLife ∧
      ∀ file ∈ crashedLife.completed, file.endBlock ≤
        ((snapshotter pairFiles).effect crashedLife (.start fun _ => false)).lastSnapshotBlock := by
  have executed : (snapshotter pairFiles).run? crashAfterRename {} = some crashedLife := by
    decide +kernel
  have sound := completed_ranges_sound pairFiles (GuardedSystem.path_of_run? executed)
  exact ⟨executed, (sound.2.2 _ rfl).1⟩

end ShinzoGenerator.Snapshot
