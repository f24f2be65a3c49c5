import ShinzoGenerator.Indexer.ForkPoint
import ShinzoGenerator.Indexer.StoreWithRetry

/-! The walk-back from the replies of the node: header lookups that are retried, and what
`resolveForkPoint` answers for every store and every chain of headers. -/

set_option autoImplicit false

namespace ShinzoGenerator.Indexer

open Defra

/-! ### Header lookups -/

/-- What one turn of a header lookup meets. -/
inductive HeaderReply where
  | cancelled (error : String)
  | header (parentHash : String)
  | notFound
  | failure (error : String)
deriving DecidableEq

/-- The replies to one lookup, by the number of its turn; the node does not answer that it
does not know the hash forever. -/
structure HeaderLookup where
  reply : Nat → HeaderReply
  answering : ∀ turn, ∃ later, turn ≤ later ∧ reply later ≠ .notFound

/-- The first turn from the given one on with a reply other than not-found. -/
def HeaderLookup.answered (lookup : HeaderLookup) (turn : Nat) : Nat :=
  Nat.find (lookup.answering turn)

theorem HeaderLookup.answered_succ {lookup : HeaderLookup} {turn : Nat}
    (unknown : lookup.reply turn = .notFound) :
    lookup.answered (turn + 1) - (turn + 1) < lookup.answered turn - turn := by
  obtain ⟨later, known⟩ := Nat.find_spec (lookup.answering turn)
  have after : turn < lookup.answered turn := by
    refine lt_of_le_of_ne later fun same => known ?_
    exact (congrArg lookup.reply same.symm).trans unknown
  have bound : lookup.answered (turn + 1) ≤ lookup.answered turn :=
    Nat.find_min' (lookup.answering (turn + 1)) ⟨after, known⟩
  omega

/-- Not-found replies are waited out, others are counted. -/
def fetchHeaderByHashWithRetry (hash : String) (lookup : HeaderLookup) (turn otherErrors : Nat) :
    Except String String :=
  match reply : lookup.reply turn with
  | .cancelled error => .error error
  | .header parentHash => .ok parentHash
  | .notFound => fetchHeaderByHashWithRetry hash lookup (turn + 1) otherErrors
  | .failure error =>
      if maxRPCRetries ≤ otherErrors + 1 then
        .error ("failed to fetch block header by hash " ++ hash ++ ": " ++ error)
      else fetchHeaderByHashWithRetry hash lookup (turn + 1) (otherErrors + 1)
termination_by (maxRPCRetries - otherErrors, lookup.answered turn - turn)
decreasing_by
  · exact Prod.Lex.right _ (HeaderLookup.answered_succ reply)
  · exact Prod.Lex.left _ _ (by omega)

/-- What the processor's walk-back reads: the store, the node's replies to each lookup and
the finalized height, if the node reports one. -/
structure WalkSource where
  stored : Int → Except String String
  lookup : Nat → String → HeaderLookup
  finalized : Option Int
  configuredStart : Int

def WalkSource.view (source : WalkSource) : WalkView where
  stored := source.stored
  header depth hash := fetchHeaderByHashWithRetry hash (source.lookup depth hash) 0 0
  finalizedKnown := source.finalized.any (0 ≤ ·)
  configuredStart := source.configuredStart

/-! ### When the walk-back returns -/

variable {view : WalkView}

/-- The parent hash of a header, unless its lookup fails or it carries none. -/
def WalkView.parent? (view : WalkView) (depth : Nat) (hash : String) : Option String :=
  (view.header depth hash).toOption.filter (· ≠ "")

/-- The hash so many levels below the given one, as far as headers lead there. -/
def WalkView.ancestor (view : WalkView) : Nat → String → Nat → Option String
  | _, hash, 0 => some hash
  | depth, hash, levels + 1 =>
      (view.parent? depth hash).bind fun parentHash => view.ancestor (depth + 1) parentHash levels

/-- From the height on, visited at the depth, some height at or above genesis and within
the depth cap meets a stop condition, and every query above it answers. -/
def StopsWithin (view : WalkView) (height : Int) (depth : Nat) (hash : String) : Prop :=
  ∃ (levels : Nat) (ancestor : String), levels ≤ height ∧
    (view.finalizedKnown = true ∨ depth + levels ≤ maxWalkBackDepth) ∧
    view.ancestor depth hash levels = some ancestor ∧
    (∀ above : Nat, above < levels → ∃ stored, view.stored (height - above) = .ok stored) ∧
    StopsAt view (height - levels) ancestor

theorem parent?_eq_some {depth : Nat} {hash parentHash : String} :
    view.parent? depth hash = some parentHash ↔
      view.header depth hash = .ok parentHash ∧ parentHash ≠ "" := by
  rw [WalkView.parent?]
  cases view.header depth hash with
  | error error => simp [Except.toOption]
  | ok found => simp [Except.toOption, Option.filter_eq_some_iff]

theorem stopsWithin_of_stopsAt {height : Int} {depth : Nat} {hash : String} (above : 0 ≤ height)
    (cap : view.finalizedKnown = true ∨ depth ≤ maxWalkBackDepth)
    (stops : StopsAt view height hash) : StopsWithin view height depth hash := by
  refine ⟨0, hash, by simpa using above, cap, rfl, fun offset bound => ?_, ?_⟩
  · cases bound
  · simpa using stops

/-- A stop further down is one from the parent on. -/
theorem stopsWithin_of_parent {height : Int} {depth : Nat} {hash parentHash stored : String}
    (answered : view.stored height = .ok stored)
    (parent : view.parent? depth hash = some parentHash)
    (below : StopsWithin view (height - 1) (depth + 1) parentHash) :
    StopsWithin view height depth hash := by
  obtain ⟨levels, ancestor, bound, cap, leads, answers, stops⟩ := below
  refine ⟨levels + 1, ancestor, by omega, ?_, ?_, ?_, ?_⟩
  · exact cap.imp_right (by omega)
  · rw [WalkView.ancestor, parent]
    exact leads
  · intro above within
    cases above with
    | zero => exact ⟨stored, by simpa using answered⟩
    | succ above =>
        obtain ⟨found, equal⟩ := answers above (by omega)
        refine ⟨found, ?_⟩
        rw [← equal]
        congr 1
        omega
  · have same : height - ((levels + 1 : Nat) : Int) = height - 1 - levels := by omega
    rwa [same]

/-- What stops within reach stops here, or further down behind an answered query. -/
theorem stopsWithin_cases {height : Int} {depth : Nat} {hash : String}
    (within : StopsWithin view height depth hash) :
    0 ≤ height ∧ (StopsAt view height hash ∨
      1 ≤ height ∧ (view.finalizedKnown = true ∨ depth < maxWalkBackDepth) ∧
        ∃ stored parentHash, view.stored height = .ok stored ∧
          view.parent? depth hash = some parentHash ∧
          StopsWithin view (height - 1) (depth + 1) parentHash) := by
  obtain ⟨levels, ancestor, bound, cap, leads, answers, stops⟩ := within
  cases levels with
  | zero =>
      cases leads
      exact ⟨by omega, .inl (by simpa using stops)⟩
  | succ levels =>
      rw [WalkView.ancestor, Option.bind_eq_some_iff] at leads
      obtain ⟨parentHash, parent, leads⟩ := leads
      obtain ⟨stored, answered⟩ := answers 0 (by omega)
      refine ⟨by omega, .inr ⟨by omega, cap.imp_right (by omega), stored, parentHash,
        by simpa using answered, parent, levels, ancestor, by omega, cap.imp_right (by omega), leads,
        fun above within => ?_, ?_⟩⟩
      · obtain ⟨found, equal⟩ := answers (above + 1) (by omega)
        refine ⟨found, ?_⟩
        rw [← equal]
        congr 1
        omega
      · have same : height - 1 - (levels : Int) = height - ((levels + 1 : Nat) : Int) := by omega
        rwa [same]

/-- One turn of the loop goes on where it does not stop. -/
theorem descend_of_parent {startHeight : Int} {cur depth : Nat} {curHash stored parentHash : String}
    {visited : HeightMap String} (answered : view.stored cur = .ok stored)
    (cap : view.finalizedKnown = true ∨ depth < maxWalkBackDepth)
    (parent : view.parent? depth curHash = some parentHash)
    (further : ∃ result, descend view startHeight cur (depth + 1) parentHash
      (visited.insert (cur : Int) curHash) = .ok result) :
    ∃ result, descend view startHeight (cur + 1) depth curHash visited = .ok result := by
  obtain ⟨looked, usable⟩ := parent?_eq_some.mp parent
  have uncapped : ¬ (view.finalizedKnown = false ∧ maxWalkBackDepth ≤ depth) := by
    rintro ⟨unknown, deep⟩
    rcases cap with known | shallow
    · rw [unknown] at known
      cases known
    · omega
  simp only [descend, answered]
  split
  · exact ⟨_, rfl⟩
  · split
    · exact ⟨_, rfl⟩
    · simpa only [if_neg uncapped, looked, if_neg usable] using further

theorem descend_of_stopsAt {startHeight : Int} {cur depth : Nat} {curHash : String}
    {visited : HeightMap String} (usable : curHash ≠ "") (stops : StopsAt view cur curHash) :
    ∃ result, descend view startHeight (cur + 1) depth curHash visited = .ok result := by
  rcases stops with agrees | ⟨empty, below⟩
  · refine ⟨(cur, visited.insert (cur : Int) curHash), ?_⟩
    simp [descend, agrees, usable]
  · refine ⟨(cur, visited.insert (cur : Int) curHash), ?_⟩
    simp [descend, empty, below]

theorem descend_returns_iff (startHeight : Int) (cur depth : Nat) (curHash : String)
    (visited : HeightMap String) (usable : curHash ≠ "")
    (cap : view.finalizedKnown = true ∨ depth ≤ maxWalkBackDepth) :
    (∃ result, descend view startHeight (cur + 1) depth curHash visited = .ok result) ↔
      StopsWithin view cur depth curHash := by
  induction cur generalizing depth curHash visited with
  | zero =>
      constructor
      · rintro ⟨⟨forkPoint, chainHashes⟩, resolved⟩
        rcases descend_cases usable resolved with
          ⟨_, _, stops⟩ | ⟨_, _, _, _, _, _, _, _, further⟩
        · exact stopsWithin_of_stopsAt (by omega) cap stops
        · cases further
      · intro within
        obtain ⟨_, stops | ⟨above, _⟩⟩ := stopsWithin_cases within
        · exact descend_of_stopsAt usable stops
        · cases above
  | succ cur ih =>
      have below : ((cur + 1 : Nat) : Int) - 1 = cur := by omega
      constructor
      · rintro ⟨⟨forkPoint, chainHashes⟩, resolved⟩
        rcases descend_cases usable resolved with
          ⟨_, _, stops⟩ | ⟨stored, parentHash, answered, _, _, uncapped, looked, linked, further⟩
        · exact stopsWithin_of_stopsAt (by omega) cap stops
        · have shallow : view.finalizedKnown = true ∨ depth + 1 ≤ maxWalkBackDepth := by
            cases known : view.finalizedKnown with
            | true => exact .inl rfl
            | false =>
                refine .inr ?_
                by_contra deep
                exact uncapped ⟨known, by omega⟩
          have rest := (ih (depth + 1) parentHash _ linked shallow).mp ⟨_, further⟩
          rw [← below] at rest
          exact stopsWithin_of_parent answered (parent?_eq_some.mpr ⟨looked, linked⟩) rest
      · intro within
        obtain ⟨_, stops | ⟨_, shallow, stored, parentHash, answered, parent, rest⟩⟩ :=
          stopsWithin_cases within
        · exact descend_of_stopsAt usable stops
        · rw [below] at rest
          have linked := (parent?_eq_some.mp parent).2
          exact descend_of_parent answered shallow parent
            ((ih (depth + 1) parentHash _ linked (shallow.imp_right id)).mpr rest)

theorem resolveForkPoint_returns_iff {startHeight : Int} {startHash : String}
    (usable : startHash ≠ "") :
    (∃ result, resolveForkPoint view startHeight startHash = .ok result) ↔
      StopsWithin view startHeight 0 startHash := by
  rw [resolveForkPoint]
  split
  · rename_i negative
    constructor
    · rintro ⟨_, failed⟩
      cases failed
    · intro within
      have := (stopsWithin_cases within).1
      omega
  · have atStart : (startHeight.toNat : Int) = startHeight := by omega
    rw [descend_returns_iff startHeight startHeight.toNat 0 startHash ∅ usable
      (.inr (Nat.zero_le _)), atStart]

/-- The fork point and the hashes of the descent: the chain of headers from the start down
to the first height that meets a stop condition. -/
structure WalkResult (view : WalkView) (startHeight : Int) (startHash : String) (forkPoint : Int)
    (chainHashes : HeightMap String) : Prop where
  keys : ∀ height, height ∈ chainHashes ↔ forkPoint ≤ height ∧ height ≤ startHeight
  atStart : chainHashes.lookup startHeight = some startHash
  parents : ∀ height, forkPoint < height → height ≤ startHeight → ∃ hash parentHash,
    chainHashes.lookup height = some hash ∧ chainHashes.lookup (height - 1) = some parentHash ∧
      view.header (startHeight - height).toNat hash = .ok parentHash
  stops : ∃ hash, chainHashes.lookup forkPoint = some hash ∧ StopsAt view forkPoint hash
  passes : ∀ height hash, forkPoint < height → chainHashes.lookup height = some hash →
    ¬ StopsAt view height hash

theorem resolved_of_trail {startHeight forkPoint : Int} {startHash forkHash : String}
    {chainHashes : HeightMap String}
    (trail : Trail view startHeight startHash forkPoint forkHash chainHashes)
    (stops : StopsAt view forkPoint forkHash) :
    WalkResult view startHeight startHash forkPoint chainHashes := by
  refine ⟨trail.keys, trail.atAnchor, fun height above below => ?_, ⟨forkHash, trail.atLow, stops⟩,
    fun height hash above found stopped => ?_⟩
  · obtain ⟨hash, parentHash, _, found, next, _⟩ := trail.linked height above below
    refine ⟨hash, parentHash, found, next, ?_⟩
    -- The lookup that led to the parent is the one at the depth of this height.
    have reached := trail.visits (height - 1) parentHash next
    have deeper : (startHeight - (height - 1)).toNat = (startHeight - height).toNat + 1 := by omega
    rw [deeper, WalkView.headerAt, trail.visits height hash found, Option.bind_some] at reached
    cases looked : view.header (startHeight - height).toNat hash with
    | error error =>
        rw [looked] at reached
        cases reached
    | ok parent =>
        rw [looked] at reached
        cases reached
        rfl
  · obtain ⟨stored, answered, differs, boundary⟩ := trail.disagrees height hash above found
    rcases stopped with agrees | ⟨empty, below⟩
    · rw [answered] at agrees
      cases agrees
      exact differs rfl
    · rw [answered] at empty
      cases empty
      have := boundary rfl
      omega

/-- What the walk-back returns and when it fails, for every store and every node. -/
theorem resolveForkPoint_spec (source : WalkSource) (startHeight : Int) {startHash : String}
    (usable : startHash ≠ "") :
    (∀ forkPoint chainHashes,
      resolveForkPoint source.view startHeight startHash = .ok (forkPoint, chainHashes) →
        WalkResult source.view startHeight startHash forkPoint chainHashes) ∧
    ((∃ error, resolveForkPoint source.view startHeight startHash = .error error) ↔
      ¬ StopsWithin source.view startHeight 0 startHash) := by
  refine ⟨fun forkPoint chainHashes resolved => ?_, ?_⟩
  · obtain ⟨_, forkHash, trail, stops⟩ := resolveForkPoint_trail resolved
    exact resolved_of_trail trail stops
  · rw [← resolveForkPoint_returns_iff usable]
    cases resolveForkPoint source.view startHeight startHash with
    | error error => simp
    | ok result => simp

/-! A store whose block one was orphaned; the node knows the new block one at its second try. -/

def secondTry (parentHash : String) : HeaderLookup where
  reply turn := if turn = 0 then .notFound else .header parentHash
  answering turn := ⟨turn + 1, by omega, by simp⟩

def orphanedTip : WalkSource where
  stored height := if height = 1 then .ok "old" else if height = 0 then .ok "genesis" else .ok ""
  lookup _ _ := secondTry "genesis"
  finalized := none
  configuredStart := 0

theorem fetchHeader_secondTry (hash parentHash : String) :
    fetchHeaderByHashWithRetry hash (secondTry parentHash) 0 0 = .ok parentHash := by
  rw [fetchHeaderByHashWithRetry]
  simp only [secondTry]
  rw [fetchHeaderByHashWithRetry]
  simp

theorem orphanedTip_resolved :
    ∃ chainHashes, resolveForkPoint orphanedTip.view 1 "new" = .ok (0, chainHashes) ∧
      WalkResult orphanedTip.view 1 "new" 0 chainHashes := by
  have looked : orphanedTip.view.header 0 "new" = .ok "genesis" := fetchHeader_secondTry _ _
  have resolved : resolveForkPoint orphanedTip.view 1 "new" =
      .ok (0, (AList.insert (1 : Int) "new" ∅).insert 0 "genesis") := by
    have tip : orphanedTip.view.stored 1 = .ok "old" := rfl
    have bottom : orphanedTip.view.stored 0 = .ok "genesis" := rfl
    simp [resolveForkPoint, descend, tip, bottom, looked, maxWalkBackDepth]
  exact ⟨_, resolved, (resolveForkPoint_spec orphanedTip 1 (by decide)).1 _ _ resolved⟩

end ShinzoGenerator.Indexer
