import ShinzoGenerator.Defra.ReorgRoller

/-! The values the processor passes between its goroutines, and the pure rules
that detect a continuity break: the parent-hash check in pop order, the gap
fallback against the stored predecessor, and the stale-orphan verification of
a failed store. -/

set_option autoImplicit false

namespace ShinzoGenerator.Indexer

open Chains Defra

/-- What a fetch worker hands to the collector. -/
structure BlockResult where
  blockNum : Int
  hash : String := ""
  parentHash : String := ""
  success : Bool := false
  error : Option String := none
  converted : ConversionResult := {}
deriving DecidableEq

/-- One fetch and conversion; the reply is what the node and the converter answer. -/
def fetchAndConvertBlock (blockNum : Int) (reply : Except String ConversionResult) : BlockResult :=
  match reply with
  | .error error => { blockNum, error := some error }
  | .ok converted =>
      { blockNum
        hash := extractBlockHash converted.groups
        parentHash := extractBlockParentHash converted.groups
        success := true
        converted }

/-- A stored hash and the chain-side hash it disagrees with. -/
structure ReorgSignal where
  rollbackFrom : Int
  orphanHash : String
  chainHash : String
deriving DecidableEq

structure RollbackPoint where
  forkPoint : Int
  oldTip : Int := 0
  chainHashes : HeightMap String
deriving DecidableEq

/-- The confirmation wait between a mismatch and its resolution. -/
structure ReorgEpisode where
  baseHeight : Int
  baseParentHash : String := ""
  lastParkedHash : String := ""
  rewalks : Nat := 0
  gapRefills : Nat := 0
  stalePinned : Bool := false
  staleTopHeight : Int := 0
  staleTopHash : String := ""
deriving DecidableEq

/-- The reasons a store fails for. The end of the run cuts a store off between the calls
of `Store` or inside one; the error then wraps that of the context. -/
inductive StoreFailure where
  | documentDeleted (text : String)
  | cutOff (text : String)
  | other (text : String)
deriving DecidableEq

/-- The end of the run cut the store off. -/
def storeCutOff : Except StoreFailure String → Bool
  | .error (.cutOff _) => true
  | _ => false

/-- A pool-side store outcome: the block document's id, or the failure. -/
structure StoreCompletion where
  item : BlockResult
  computed : Except StoreFailure String
  stale : Option ReorgSignal := none
deriving DecidableEq

def StoreCompletion.succeeded (completion : StoreCompletion) : Bool :=
  completion.computed.isOk

/-- The seed check at the run's first block, then the check against the last popped item. -/
def continuitySignal (runStartBlock : Int) (seedHash : String) (lastCheckedNum : Int)
    (lastCheckedHash : String) (next : BlockResult) : Option ReorgSignal :=
  if next.blockNum = runStartBlock ∧ seedHash ≠ "" ∧
      next.parentHash ≠ "" ∧ next.parentHash ≠ seedHash then
    some ⟨next.blockNum - 1, seedHash, next.parentHash⟩
  else if lastCheckedNum = next.blockNum - 1 ∧ lastCheckedHash ≠ "" ∧
      next.parentHash ≠ "" ∧ next.parentHash ≠ lastCheckedHash then
    some ⟨next.blockNum - 1, lastCheckedHash, next.parentHash⟩
  else none

def gapFallbackSignal (storedHash : String) (next : BlockResult) : Option ReorgSignal :=
  if storedHash = "" ∨ next.parentHash = "" ∨ storedHash = next.parentHash then none
  else some ⟨next.blockNum - 1, storedHash, next.parentHash⟩

/-- The failure handler of a store that failed at the item's height. -/
def detectStaleOrphan (stored : Except String String) (item : BlockResult) : Option ReorgSignal :=
  if item.hash = "" then none
  else
    match stored with
    | .error _ => none
    | .ok storedHash =>
        if storedHash = "" then none
        else if storedHash = item.hash then none
        else some ⟨item.blockNum, storedHash, item.hash⟩

/-- A passed check ties the item to the last popped hash, when both are usable. -/
theorem continuitySignal_none {runStartBlock lastCheckedNum : Int}
    {seedHash lastCheckedHash : String} {next : BlockResult}
    (passed : continuitySignal runStartBlock seedHash lastCheckedNum lastCheckedHash next = none)
    (usable : next.parentHash ≠ "") :
    (next.blockNum = runStartBlock → seedHash ≠ "" → next.parentHash = seedHash) ∧
      (lastCheckedNum = next.blockNum - 1 → lastCheckedHash ≠ "" →
        next.parentHash = lastCheckedHash) := by
  unfold continuitySignal at passed
  split at passed
  · cases passed
  · rename_i atSeam
    split at passed
    · cases passed
    · rename_i inRun
      constructor
      · intro first seeded
        by_contra differs
        exact atSeam ⟨first, seeded, usable, differs⟩
      · intro adjacent known
        by_contra differs
        exact inRun ⟨adjacent, known, usable, differs⟩

/-- Either detection rule hands the item's own parent hash to the walk-back. -/
theorem continuitySignal_some {runStartBlock lastCheckedNum : Int}
    {seedHash lastCheckedHash : String} {next : BlockResult} {signal : ReorgSignal}
    (broken : continuitySignal runStartBlock seedHash lastCheckedNum lastCheckedHash next =
      some signal) :
    signal.chainHash = next.parentHash ∧ next.parentHash ≠ "" := by
  unfold continuitySignal at broken
  split at broken
  · rename_i found
    cases broken
    exact ⟨rfl, found.2.2.1⟩
  · split at broken
    · rename_i found
      cases broken
      exact ⟨rfl, found.2.2.1⟩
    · cases broken

theorem gapFallbackSignal_some {storedHash : String} {next : BlockResult} {signal : ReorgSignal}
    (broken : gapFallbackSignal storedHash next = some signal) :
    signal.chainHash = next.parentHash ∧ next.parentHash ≠ "" := by
  unfold gapFallbackSignal at broken
  split at broken
  · cases broken
  · rename_i found
    cases broken
    exact ⟨rfl, fun empty => found (.inr (.inl empty))⟩

/-- A stale verification saw two usable hashes that disagree. -/
theorem detectStaleOrphan_some {stored : Except String String} {item : BlockResult}
    {signal : ReorgSignal} (verified : detectStaleOrphan stored item = some signal) :
    item.hash ≠ "" ∧ ∃ storedHash, stored = .ok storedHash ∧ storedHash ≠ "" ∧
      storedHash ≠ item.hash := by
  unfold detectStaleOrphan at verified
  split at verified
  · cases verified
  · rename_i usable
    refine ⟨usable, ?_⟩
    split at verified
    · cases verified
    · rename_i storedHash
      split at verified
      · cases verified
      · rename_i present
        split at verified
        · cases verified
        · rename_i differs
          exact ⟨storedHash, rfl, present, differs⟩

end ShinzoGenerator.Indexer
