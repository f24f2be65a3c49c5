import Mathlib.Data.List.Sort

/-! The snapshotter's files and ranges. A completed snapshot is known by the name of
its file alone: the cursor is rebuilt from the names in the directory. -/

set_option autoImplicit false

namespace ShinzoGenerator.Snapshot

/-! ### File names -/

def filePrefix : String := "snapshot_"
def fileSuffix : String := ".kvsnap.gz"
def tmpSuffix : String := ".tmp"

def snapshotFileName (startBlock endBlock : Int) : String :=
  filePrefix ++ toString startBlock ++ "_" ++ toString endBlock ++ fileSuffix

def tmpFileName (filename : String) : String := filename ++ tmpSuffix

/-- The pattern of snapshot files, with anything between its two ends. -/
def matchesGlob (name : String) : Bool :=
  filePrefix.toList.isPrefixOf name.toList && fileSuffix.toList.isSuffixOf name.toList &&
    filePrefix.length + fileSuffix.length ≤ name.length

def int64Limit : Nat := 9223372036854775808

/-- A decimal number without a sign. -/
def parseDigits (text : List Char) : Option Nat :=
  if text = [] ∨ text.all Char.isDigit = false then none else some (Nat.ofDigitChars 10 text 0)

/-- A decimal number with an optional sign, within the range of an `int64`. -/
def parseInt (text : List Char) : Option Int :=
  match text with
  | '-' :: digits => do
      let magnitude ← parseDigits digits
      if magnitude ≤ int64Limit then some (-magnitude) else none
  | '+' :: digits | digits => do
      let magnitude ← parseDigits digits
      if magnitude < int64Limit then some magnitude else none

/-- The parts of a name between underscores, without the suffix of snapshot files. -/
def nameParts (name : String) : List (List Char) :=
  let text := name.toList
  let trimmed :=
    if fileSuffix.toList.isSuffixOf text then text.take (text.length - fileSuffix.length) else text
  trimmed.splitOn '_'

/-- The end of the range that a file name carries. -/
def scannedEnd? (name : String) : Option Int :=
  match nameParts name with
  | [_, _, last] => parseInt last
  | _ => none

/-- A well-formed snapshot file. -/
structure SnapshotInfo where
  filename : String
  startBlock : Int
  endBlock : Int
deriving DecidableEq

def snapshotInfo? (name : String) : Option SnapshotInfo :=
  match nameParts name with
  | [_, first, last] =>
      match parseInt first, parseInt last with
      | some startBlock, some endBlock => some { filename := name, startBlock, endBlock }
      | _, _ => none
  | _ => none

/-! ### The directory -/

/-- The names in the snapshot directory. -/
abbrev Directory := List String

/-- The well-formed snapshot files that can be inspected, oldest range first. -/
def listSnapshots (statFails : String → Bool) (dir : Directory) : List SnapshotInfo :=
  ((dir.filter fun name => matchesGlob name && !statFails name).filterMap snapshotInfo?).insertionSort
    fun first second => first.startBlock ≤ second.startBlock

/-- The highest block a file name tells of; zero stands for no file. -/
def scanExisting (dir : Directory) : Int :=
  ((dir.filter matchesGlob).filterMap scannedEnd?).foldl max 0

/-! ### Ranges and retention -/

def defaultMaxSnapshots : Int := 100

structure SnapshotConfig where
  blocksPerFile : Int
  maxSnapshots : Int := defaultMaxSnapshots
  positive : 0 < blocksPerFile

/-- The first multiple of the file size at or above a height. -/
def alignUp (blocksPerFile lowest : Int) : Int :=
  ((lowest + blocksPerFile - 1).tdiv blocksPerFile) * blocksPerFile

/-- The next aligned range; there is none while the highest block lies below its end. -/
def nextSnapshotRange (cfg : SnapshotConfig) (lastSnapshot lowest highest : Int) :
    Option (Int × Int) :=
  let expected :=
    if lastSnapshot = 0 then alignUp cfg.blocksPerFile lowest else lastSnapshot + 1
  let start := if expected < lowest then alignUp cfg.blocksPerFile lowest else expected
  let stop := start + cfg.blocksPerFile - 1
  if highest < stop then none else some (start, stop)

/-- What a cycle decides from the two stored heights it has read. -/
def decideSnapshot (cfg : SnapshotConfig) (lastSnapshot lowest highest : Int) :
    Option (Int × Int) :=
  if lowest = 0 ∨ highest = 0 then none else nextSnapshotRange cfg lastSnapshot lowest highest

/-- The files beyond the limit, oldest first; a negative limit keeps everything. -/
def expiredSnapshots (cfg : SnapshotConfig) (infos : List SnapshotInfo) : List SnapshotInfo :=
  if cfg.maxSnapshots < 0 then []
  else
    let limit := if cfg.maxSnapshots = 0 then defaultMaxSnapshots else cfg.maxSnapshots
    if (infos.length : Int) ≤ limit then [] else infos.take (infos.length - limit.toNat)

end ShinzoGenerator.Snapshot
