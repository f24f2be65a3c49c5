import ShinzoGenerator.Indexer.Continuity

/-! The walk-back of a confirmed reorg. It follows parent hashes down from the
anchor until a stored hash agrees with the chain, and records the chain's hash
at every height it visits. -/

set_option autoImplicit false

namespace ShinzoGenerator.Indexer

open Defra

/-- What the walk-back reads. The node may answer a repeated header lookup
differently, so `header` also takes the depth of the lookup. -/
structure WalkView where
  stored : Int → Except String String
  header : Nat → String → Except String String
  finalizedKnown : Bool
  configuredStart : Int

def maxWalkBackDepth : Nat := 64

/-- The loop of the walk-back; the first number is one above the height it visits. -/
def descend (view : WalkView) (startHeight : Int) :
    Nat → Nat → String → HeightMap String → Except String (Int × HeightMap String)
  | 0, _, _, _ =>
      .error ("reorg walk-back from height " ++ toString startHeight ++
        ": walked past genesis without a common ancestor")
  | cur + 1, depth, curHash, visited =>
      let chainHashes : HeightMap String := visited.insert (cur : Int) curHash
      match view.stored cur with
      | .error error =>
          .error ("reorg walk-back: query stored hash at " ++ toString cur ++ ": " ++ error)
      | .ok stored =>
          if stored ≠ "" ∧ stored = curHash then .ok (cur, chainHashes)
          else if stored = "" ∧ (cur : Int) < view.configuredStart then .ok (cur, chainHashes)
          else if view.finalizedKnown = false ∧ maxWalkBackDepth ≤ depth then
            .error ("reorg walk-back from height " ++ toString startHeight ++ ": exceeded the " ++
              toString maxWalkBackDepth ++
              "-level depth cap without a common ancestor (no finalized height available)")
          else
            match view.header depth curHash with
            | .error error =>
                .error ("reorg walk-back from height " ++ toString startHeight ++ ": " ++ error)
            | .ok parentHash =>
                if parentHash = "" then
                  .error ("reorg walk-back: block " ++ curHash ++ " carries no parent hash")
                else descend view startHeight cur (depth + 1) parentHash chainHashes

def resolveForkPoint (view : WalkView) (startHeight : Int) (startChainHash : String) :
    Except String (Int × HeightMap String) :=
  if startHeight < 0 then
    .error "reorg walk-back: walked past genesis without a common ancestor"
  else if startChainHash = "" then
    .error ("reorg walk-back from height " ++ toString startHeight ++
      ": the chain hash at the conflict height is unknown")
  else descend view startHeight (startHeight.toNat + 1) 0 startChainHash ∅

/-- The hash that the header lookups lead to, so many levels below the anchor. -/
def WalkView.headerAt (view : WalkView) (anchorHash : String) : Nat → Option String
  | 0 => some anchorHash
  | depth + 1 => (view.headerAt anchorHash depth).bind fun hash => (view.header depth hash).toOption

/-! ### What a walk-back visits -/

/-- The heights from `low` to the anchor have been visited: the map holds the
chain's hash of each, linked by header lookups, and nothing above `low` agreed
with the store or counted as the verification boundary. -/
structure Trail (view : WalkView) (anchor : Int) (anchorHash : String) (low : Int)
    (lowHash : String) (chainHashes : HeightMap String) : Prop where
  ordered : low ≤ anchor
  keys : ∀ height, height ∈ chainHashes ↔ low ≤ height ∧ height ≤ anchor
  atAnchor : chainHashes.lookup anchor = some anchorHash
  atLow : chainHashes.lookup low = some lowHash
  usable : ∀ height hash, chainHashes.lookup height = some hash → hash ≠ ""
  visits : ∀ height hash, chainHashes.lookup height = some hash →
    view.headerAt anchorHash (anchor - height).toNat = some hash
  linked : ∀ height, low < height → height ≤ anchor → ∃ hash parentHash depth,
    chainHashes.lookup height = some hash ∧ chainHashes.lookup (height - 1) = some parentHash ∧
      view.header depth hash = .ok parentHash
  disagrees : ∀ height hash, low < height → chainHashes.lookup height = some hash →
    ∃ stored, view.stored height = .ok stored ∧ stored ≠ hash ∧
      (stored = "" → view.configuredStart ≤ height)

/-- Why the walk-back stopped at the fork point. -/
def StopsAt (view : WalkView) (forkPoint : Int) (forkHash : String) : Prop :=
  view.stored forkPoint = .ok forkHash ∨
    (view.stored forkPoint = .ok "" ∧ forkPoint < view.configuredStart)

instance (view : WalkView) (forkPoint : Int) (forkHash : String) :
    Decidable (StopsAt view forkPoint forkHash) :=
  inferInstanceAs (Decidable (_ ∨ _ ∧ _))

variable {view : WalkView} {anchor : Int} {anchorHash : String}

theorem Trail.start (usable : anchorHash ≠ "") :
    Trail view anchor anchorHash anchor anchorHash (AList.insert anchor anchorHash ∅) := by
  have only : ∀ height hash, (AList.insert anchor anchorHash ∅ : HeightMap String).lookup height =
      some hash → height = anchor ∧ hash = anchorHash := by
    intro height hash found
    by_cases same : height = anchor
    · subst same
      rw [AList.lookup_insert, Option.some.injEq] at found
      exact ⟨rfl, found.symm⟩
    · rw [AList.lookup_insert_ne same] at found
      simp at found
  constructor
  case ordered => exact Int.le_refl _
  case keys =>
    intro height
    simp only [AList.mem_insert, AList.notMem_empty, or_false]
    omega
  case atAnchor => exact AList.lookup_insert _
  case atLow => exact AList.lookup_insert _
  case usable =>
    intro height hash found
    exact (only height hash found).2 ▸ usable
  case visits =>
    intro height hash found
    obtain ⟨rfl, rfl⟩ := only height hash found
    simp [WalkView.headerAt]
  case linked =>
    intro height above below
    omega
  case disagrees =>
    intro height hash above found
    have := (only height hash found).1
    omega

theorem Trail.extend {low : Int} {lowHash parentHash stored : String} {depth : Nat}
    {chainHashes : HeightMap String} (trail : Trail view anchor anchorHash low lowHash chainHashes)
    (level : depth = (anchor - low).toNat)
    (answered : view.stored low = .ok stored) (differs : stored ≠ lowHash)
    (notBoundary : stored = "" → view.configuredStart ≤ low)
    (looked : view.header depth lowHash = .ok parentHash) (usable : parentHash ≠ "") :
    Trail view anchor anchorHash (low - 1) parentHash
      (chainHashes.insert (low - 1) parentHash) := by
  have ordered := trail.ordered
  have old : ∀ height, low ≤ height →
      (chainHashes.insert (low - 1) parentHash).lookup height = chainHashes.lookup height := by
    intro height above
    exact AList.lookup_insert_ne (by omega)
  have new : (chainHashes.insert (low - 1) parentHash).lookup (low - 1) = some parentHash :=
    AList.lookup_insert _
  constructor
  case ordered => omega
  case keys =>
    intro height
    rw [AList.mem_insert, trail.keys]
    omega
  case atAnchor => rw [old anchor ordered, trail.atAnchor]
  case atLow => exact new
  case usable =>
    intro height hash found
    by_cases bottom : height = low - 1
    · rw [bottom, new, Option.some.injEq] at found
      exact found ▸ usable
    · rw [AList.lookup_insert_ne bottom] at found
      exact trail.usable height hash found
  case visits =>
    intro height hash found
    by_cases bottom : height = low - 1
    · rw [bottom, new, Option.some.injEq] at found
      have deeper : (anchor - height).toNat = depth + 1 := by omega
      rw [deeper, WalkView.headerAt, level, trail.visits low lowHash trail.atLow, ← level,
        Option.bind_some, looked, ← found]
      rfl
    · rw [AList.lookup_insert_ne bottom] at found
      exact trail.visits height hash found
  case linked =>
    intro height above below
    by_cases bottom : height = low
    · subst bottom
      exact ⟨lowHash, parentHash, depth, by rw [old height (Int.le_refl _), trail.atLow], new, looked⟩
    · rw [old height (by omega), old (height - 1) (by omega)]
      exact trail.linked height (by omega) below
  case disagrees =>
    intro height hash above found
    rw [old height (by omega)] at found
    by_cases bottom : height = low
    · subst bottom
      rw [trail.atLow, Option.some.injEq] at found
      exact ⟨stored, answered, found ▸ differs, notBoundary⟩
    · exact trail.disagrees height hash (by omega) found

/-- One turn of the loop: it stops at this height or goes on one below. -/
theorem descend_cases {startHeight forkPoint : Int} {chainHashes visited : HeightMap String}
    {cur depth : Nat} {curHash : String} (usable : curHash ≠ "")
    (resolved : descend view startHeight (cur + 1) depth curHash visited =
      .ok (forkPoint, chainHashes)) :
    (forkPoint = cur ∧ chainHashes = visited.insert (cur : Int) curHash ∧
        StopsAt view cur curHash) ∨
      ∃ stored parentHash, view.stored cur = .ok stored ∧ stored ≠ curHash ∧
        (stored = "" → view.configuredStart ≤ cur) ∧
        ¬ (view.finalizedKnown = false ∧ maxWalkBackDepth ≤ depth) ∧
        view.header depth curHash = .ok parentHash ∧ parentHash ≠ "" ∧
        descend view startHeight cur (depth + 1) parentHash (visited.insert (cur : Int) curHash) =
          .ok (forkPoint, chainHashes) := by
  simp only [descend] at resolved
  split at resolved
  · cases resolved
  · rename_i stored answered
    split at resolved
    · rename_i agrees
      cases resolved
      exact .inl ⟨rfl, rfl, .inl (agrees.2 ▸ answered)⟩
    · rename_i differs
      split at resolved
      · rename_i boundary
        cases resolved
        exact .inl ⟨rfl, rfl, .inr ⟨boundary.1 ▸ answered, boundary.2⟩⟩
      · rename_i inside
        split at resolved
        · cases resolved
        · rename_i uncapped
          split at resolved
          · cases resolved
          · rename_i parentHash looked
            split at resolved
            · cases resolved
            · rename_i linked
              refine .inr ⟨stored, parentHash, answered, ?_, ?_, uncapped, looked, linked, resolved⟩
              · rintro rfl
                exact differs ⟨usable, rfl⟩
              · intro empty
                by_contra below
                exact inside ⟨empty, by omega⟩

theorem descend_trail {startHeight forkPoint : Int} {chainHashes : HeightMap String}
    (cur depth : Nat) (curHash : String) (visited : HeightMap String)
    (trail : Trail view anchor anchorHash cur curHash (visited.insert (cur : Int) curHash))
    (level : depth = (anchor - cur).toNat)
    (resolved : descend view startHeight (cur + 1) depth curHash visited =
      .ok (forkPoint, chainHashes)) :
    0 ≤ forkPoint ∧ ∃ forkHash, Trail view anchor anchorHash forkPoint forkHash chainHashes ∧
      StopsAt view forkPoint forkHash := by
  have usable : curHash ≠ "" := trail.usable _ _ trail.atLow
  induction cur generalizing depth curHash visited with
  | zero =>
      rcases descend_cases usable resolved with ⟨rfl, rfl, stops⟩ | ⟨_, _, _, _, _, _, _, _, further⟩
      · exact ⟨by omega, curHash, trail, stops⟩
      · simp [descend] at further
  | succ cur ih =>
      rcases descend_cases usable resolved with
        ⟨rfl, rfl, stops⟩ |
        ⟨stored, parentHash, answered, differs, inside, _, looked, linked, further⟩
      · exact ⟨by omega, curHash, trail, stops⟩
      · have below := trail.extend level answered differs inside looked linked
        have ordered := trail.ordered
        rw [Int.natCast_succ, Int.add_sub_cancel] at below
        exact ih _ _ _ below (by omega) further linked

/-- A resolved walk-back: the map covers exactly the heights from the fork point
to the anchor, and the fork point is where the store agrees with the chain. -/
theorem resolveForkPoint_trail {forkPoint : Int} {chainHashes : HeightMap String}
    (resolved : resolveForkPoint view anchor anchorHash = .ok (forkPoint, chainHashes)) :
    0 ≤ forkPoint ∧ ∃ forkHash, Trail view anchor anchorHash forkPoint forkHash chainHashes ∧
      StopsAt view forkPoint forkHash := by
  unfold resolveForkPoint at resolved
  split at resolved
  · cases resolved
  · rename_i aboveGenesis
    split at resolved
    · cases resolved
    · rename_i usable
      have atAnchor : (anchor.toNat : Int) = anchor := by omega
      refine descend_trail anchor.toNat 0 anchorHash ∅ ?_ (by omega) resolved
      rw [atAnchor]
      exact Trail.start usable

/-- The descent from the anchor reaches the height and does not stop at it or above. -/
def DescentPasses (view : WalkView) (anchor : Int × String) (height : Int) : Prop :=
  height ≤ anchor.1 ∧ ∀ offset < (anchor.1 - height).toNat + 1,
    ∀ hash ∈ view.headerAt anchor.2 offset, ¬ StopsAt view (anchor.1 - offset) hash

instance (view : WalkView) (anchor : Int × String) (height : Int) :
    Decidable (DescentPasses view anchor height) :=
  inferInstanceAs (Decidable (_ ∧ _))

/-- The heights a resolved walk-back passes are those above its fork point. -/
theorem descentPasses_iff {forkPoint : Int} {chainHashes : HeightMap String}
    (resolved : resolveForkPoint view anchor anchorHash = .ok (forkPoint, chainHashes))
    (height : Int) :
    DescentPasses view (anchor, anchorHash) height ↔ forkPoint < height ∧ height ≤ anchor := by
  obtain ⟨_, forkHash, trail, stops⟩ := resolveForkPoint_trail resolved
  have ordered := trail.ordered
  constructor
  · rintro ⟨below, passes⟩
    refine ⟨?_, below⟩
    by_contra stopped
    have visited := trail.visits forkPoint forkHash trail.atLow
    refine passes (anchor - forkPoint).toNat (by simp only at below ⊢; omega) forkHash visited ?_
    have same : anchor - ((anchor - forkPoint).toNat : Int) = forkPoint := by omega
    simpa only [same] using stops
  · rintro ⟨above, below⟩
    refine ⟨below, fun offset bound hash reached stops => ?_⟩
    simp only at bound stops
    have inside : anchor - (offset : Int) ∈ chainHashes := (trail.keys _).mpr (by omega)
    obtain ⟨found, lookup⟩ := Option.isSome_iff_exists.mp (AList.lookup_isSome.mpr inside)
    have same := trail.visits _ _ lookup
    rw [show (anchor - (anchor - (offset : Int))).toNat = offset by omega, reached] at same
    cases same
    obtain ⟨stored, answered, differs, boundary⟩ := trail.disagrees _ _ (by omega) lookup
    rcases stops with agrees | ⟨empty, lower⟩
    · rw [answered] at agrees
      cases agrees
      exact differs rfl
    · rw [answered] at empty
      cases empty
      have := boundary rfl
      omega

/-! ### When a walk-back succeeds -/

/-- The node serves `chain` and the store first agrees with it at `forkPoint`. -/
structure Walkable (view : WalkView) (chain : Int → String) (forkPoint anchor : Int) : Prop where
  bottom : 0 ≤ forkPoint
  finalized : view.finalizedKnown = true
  usable : ∀ height, forkPoint ≤ height → height ≤ anchor → chain height ≠ ""
  served : ∀ height depth, forkPoint < height → height ≤ anchor →
    view.header depth (chain height) = .ok (chain (height - 1))
  orphaned : ∀ height, forkPoint < height → height ≤ anchor →
    ∃ stored, view.stored height = .ok stored ∧ stored ≠ chain height ∧
      (stored = "" → view.configuredStart ≤ height)
  ancestor : view.stored forkPoint = .ok (chain forkPoint)

theorem descend_reaches {chain : Int → String} {forkPoint : Int}
    (walkable : Walkable view chain forkPoint anchor) (startHeight : Int) (cur depth : Nat)
    (visited : HeightMap String) (above : forkPoint ≤ cur) (below : (cur : Int) ≤ anchor) :
    ∃ chainHashes, descend view startHeight (cur + 1) depth (chain cur) visited =
      .ok (forkPoint, chainHashes) := by
  by_cases reached : forkPoint = cur
  · have answered : view.stored cur = .ok (chain cur) := reached ▸ walkable.ancestor
    have usable : chain cur ≠ "" := walkable.usable cur above below
    exact ⟨visited.insert (cur : Int) (chain cur), by simp [descend, answered, usable, reached]⟩
  · cases cur with
    | zero =>
        have := walkable.bottom
        omega
    | succ cur =>
        obtain ⟨stored, answered, differs, inside⟩ := walkable.orphaned _ (by omega) below
        have looked := walkable.served _ depth (by omega) below
        have usable := walkable.usable (cur : Int) (by omega) (by omega)
        rw [Int.natCast_succ, Int.add_sub_cancel] at looked
        obtain ⟨chainHashes, rest⟩ := descend_reaches walkable startHeight cur (depth + 1)
          (visited.insert ((cur : Int) + 1) (chain (cur + 1))) (by omega) (by omega)
        refine ⟨chainHashes, ?_⟩
        rw [descend]
        simp only [Int.natCast_succ] at answered differs inside ⊢
        have notBoundary : ¬ (stored = "" ∧ (cur : Int) + 1 < view.configuredStart) := by
          rintro ⟨empty, lower⟩
          have := inside empty
          omega
        simp [answered, differs, notBoundary, walkable.finalized, looked, usable, rest]

theorem resolveForkPoint_reaches {chain : Int → String} {forkPoint : Int}
    (walkable : Walkable view chain forkPoint anchor) (above : forkPoint ≤ anchor) :
    ∃ chainHashes, resolveForkPoint view anchor (chain anchor) = .ok (forkPoint, chainHashes) := by
  have bottom := walkable.bottom
  have usable := walkable.usable anchor above (Int.le_refl _)
  have atAnchor : (anchor.toNat : Int) = anchor := by omega
  have reached := descend_reaches walkable anchor anchor.toNat 0 ∅ (by omega) (by omega)
  rw [atAnchor] at reached
  have notNegative : ¬ anchor < 0 := by omega
  simpa [resolveForkPoint, notNegative, usable] using reached

end ShinzoGenerator.Indexer
