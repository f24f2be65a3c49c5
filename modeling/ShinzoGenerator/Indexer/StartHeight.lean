import ShinzoGenerator.Defra.Database

/-! The height a process starts indexing from. Resuming is derived from the
highest visible block alone. -/

set_option autoImplicit false

namespace ShinzoGenerator.Indexer

open Chains Defra

/-- The ways the tip query comes back without a block number. -/
inductive HighestBlockError where
  | queryFailed
  | documentNotFound
  | blockNumberCorrupt
deriving DecidableEq

/-- The numbers of the rows that the filter on a non-negative `number` selects. -/
def blockNumbers (db : DB) : List Int :=
  db.visible.filterMap fun doc =>
    if doc.collection = .block then doc.height?.filter (0 ≤ ·) else none

def getHighestStoredBlockNumber (queryFails : Bool) (db : DB) : Except HighestBlockError Int :=
  if queryFails then .error .queryFailed
  else
    match (blockNumbers db).max? with
    | some number => .ok number
    | none =>
        if db.visible.any (·.collection = .block) then .error .blockNumberCorrupt
        else .error .documentNotFound

/-- The configured start height and the number of blocks kept behind the chain tip. -/
structure StartConfig where
  startHeight : Int
  startBuffer : Int

def resolveStartHeight (cfg : StartConfig) (highest : Except HighestBlockError Int)
    (latestBlock : Except String Int) : Except String Int :=
  let highestExisting :=
    match highest with
    | .error _ => 0
    | .ok number => number
  match latestBlock with
  | .error error => .error ("failed to get latest block number from RPC: " ++ error)
  | .ok chainTip =>
      if 0 < highestExisting then
        if cfg.startBuffer < chainTip - highestExisting then .ok (chainTip - cfg.startBuffer)
        else .ok (highestExisting + 1)
      else if 0 < cfg.startHeight then .ok cfg.startHeight
      else .ok (max (chainTip - cfg.startBuffer) 0)

theorem mem_blockNumbers {db : DB} {number : Int} :
    number ∈ blockNumbers db ↔ 0 ≤ number ∧ ∃ doc, doc ∈ blocksAt db number := by
  simp only [blockNumbers, List.mem_filterMap, mem_blocksAt]
  constructor
  · rintro ⟨doc, visible, found⟩
    split at found
    · rename_i isBlock
      obtain ⟨located, positive⟩ := Option.filter_eq_some_iff.mp found
      exact ⟨by simpa using positive, doc, visible, isBlock, located⟩
    · cases found
  · rintro ⟨positive, doc, visible, isBlock, located⟩
    exact ⟨doc, visible, by simp [isBlock, located, Option.filter, positive]⟩

/-- The highest stored block is stored, and no block stands above it. -/
theorem getHighestStoredBlockNumber_ok {queryFails : Bool} {db : DB} {highest : Int}
    (found : getHighestStoredBlockNumber queryFails db = .ok highest) :
    (∃ doc, doc ∈ blocksAt db highest) ∧
      ∀ height doc, doc ∈ blocksAt db height → height ≤ highest := by
  unfold getHighestStoredBlockNumber at found
  split at found
  · cases found
  · split at found
    · rename_i number top
      cases found
      obtain ⟨member, above⟩ := List.max?_eq_some_iff.mp top
      obtain ⟨positive, stored⟩ := mem_blockNumbers.mp member
      refine ⟨stored, fun height doc present => ?_⟩
      by_cases negative : height < 0
      · omega
      · exact above height (mem_blockNumbers.mpr ⟨by omega, doc, present⟩)
    · split at found <;> cases found

/-- Within the buffer, a process resumes right above the highest visible block. -/
theorem resolveStartHeight_resumes (cfg : StartConfig) {highest chainTip : Int}
    (stored : 0 < highest) (close : chainTip - highest ≤ cfg.startBuffer) :
    resolveStartHeight cfg (.ok highest) (.ok chainTip) = .ok (highest + 1) := by
  have within : ¬ cfg.startBuffer < chainTip - highest := by omega
  simp [resolveStartHeight, stored, within]

end ShinzoGenerator.Indexer
