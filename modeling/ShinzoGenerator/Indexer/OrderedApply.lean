import ShinzoGenerator.Indexer.ForkPoint
import ShinzoGenerator.Lib.ReorderBuffer

/-! The ordered apply of pool completions: commit bookkeeping, the callback, and
the episode or fatal error that a failed store can start. -/

set_option autoImplicit false

namespace ShinzoGenerator.Indexer

open Defra

/-- The run state that completions and episodes write. `committed` lists the
completions that `onBlockProcessed` was called for. -/
structure Ledger where
  rollbackPoint : Option RollbackPoint := none
  episode : Option ReorgEpisode := none
  fatalErr : Option String := none
  committedHashes : HeightMap String := ∅
  episodeRollbacks : Nat := 0
  heightRollbacks : HeightMap Nat := ∅
  ctxDone : Bool := false
  committed : List StoreCompletion := []
deriving DecidableEq

/-- The heights `onBlockProcessed` was called with, in call order. -/
def Ledger.callbacks (ledger : Ledger) : List Int :=
  ledger.committed.map (·.item.blockNum)

def Ledger.ended (ledger : Ledger) : Bool :=
  ledger.rollbackPoint.isSome || ledger.fatalErr.isSome

/-- The first fatal error wins, and the run context is cancelled. -/
def Ledger.failRun (ledger : Ledger) (error : String) : Ledger :=
  { ledger with
    fatalErr := some (ledger.fatalErr.getD error)
    ctxDone := true }

/-- Drops the history below the bound. -/
def trimBelow (bound : Int) (hashes : HeightMap String) : HeightMap String :=
  (hashes.keys.filter fun height => height < bound).foldl
    (fun kept height => kept.erase height) hashes

def Ledger.applyCommit (ledger : Ledger) (nextToCommit : Int) (completion : StoreCompletion) :
    Ledger :=
  { ledger with
    committedHashes := trimBelow (nextToCommit - 2)
      (ledger.committedHashes.insert completion.item.blockNum completion.item.hash)
    episodeRollbacks := 0
    heightRollbacks := ∅
    committed := ledger.committed ++ [completion] }

def storeRefused (item : BlockResult) (error : String) : String :=
  "block " ++ toString item.blockNum ++ " store refused: " ++ error ++
    " (a soft-deleted content-derived docID cannot be re-added; the deleted documents must be " ++
    "hard-purged by the pruner before this height can be re-indexed; indexing stopped)"

/-- A drained stale failure raises the anchor of an open stale-pinned episode. -/
def ReorgEpisode.raise (episode : ReorgEpisode) (item : BlockResult) : ReorgEpisode :=
  if episode.stalePinned = true ∧ episode.staleTopHeight < item.blockNum then
    { episode with
      staleTopHeight := item.blockNum
      staleTopHash := item.hash }
  else episode

def staleEpisode (item : BlockResult) : ReorgEpisode :=
  { baseHeight := item.blockNum
    stalePinned := true
    staleTopHeight := item.blockNum
    staleTopHash := item.hash }

/-- The completion is a verified stale failure and nothing stands in the way of a new episode. -/
def opensEpisode (completion : StoreCompletion) (ledger : Ledger) : Bool :=
  match completion.computed with
  | .ok _ | .error (.documentDeleted _) => false
  | .error _ => completion.stale.isSome && !ledger.ended && ledger.episode.isNone

/-- One ordered completion, except for the case that opens an episode. -/
def applyOneCompletion (nextToCommit : Int) (suppress : Bool) (completion : StoreCompletion)
    (ledger : Ledger) : Ledger :=
  match completion.computed with
  | .error (.documentDeleted error) => ledger.failRun (storeRefused completion.item error)
  | .error _ =>
      if completion.stale.isSome && !ledger.ended then
        { ledger with episode := ledger.episode.map (·.raise completion.item) }
      else ledger
  | .ok _ => if suppress then ledger else ledger.applyCommit nextToCommit completion

/-- Applies the batch in order. When a completion opens a stale-pinned episode,
the rest of the batch waits for the episode to finalize and is returned. -/
def applyBatch (nextToCommit : Int) (suppress : Bool) :
    List StoreCompletion → Ledger → Ledger × Option (List StoreCompletion)
  | [], ledger => (ledger, none)
  | completion :: rest, ledger =>
      if opensEpisode completion ledger then
        ({ ledger with episode := some (staleEpisode completion.item) }, some rest)
      else
        applyBatch nextToCommit suppress rest
          (applyOneCompletion nextToCommit (suppress || ledger.ended) completion ledger)

/-! ### Applying one completion -/

variable {nextToCommit : Int} {suppress : Bool} {completion : StoreCompletion} {ledger : Ledger}

/-- What an applied completion can do to the run state. -/
structure Applied (ledger next : Ledger) (completion : StoreCompletion) (suppress : Bool) :
    Prop where
  rollbackPoint : next.rollbackPoint = ledger.rollbackPoint
  episode : next.episode = ledger.episode ∨
    (completion.stale.isSome = true ∧ next.episode = ledger.episode.map (·.raise completion.item))
  fatal : next.fatalErr = ledger.fatalErr ∨ (next.fatalErr.isSome = true ∧ next.ctxDone = true)
  cancelled : ledger.ctxDone = true → next.ctxDone = true
  fatalStays : ledger.fatalErr.isSome = true → next.fatalErr.isSome = true
  committed : next.committed = ledger.committed ∨
    (suppress = false ∧ completion.succeeded = true ∧
      next.committed = ledger.committed ++ [completion])
  commits : suppress = false → completion.succeeded = true →
    next.committed = ledger.committed ++ [completion]

theorem applyOneCompletion_applied (nextToCommit : Int) (suppress : Bool)
    (completion : StoreCompletion) (ledger : Ledger) :
    Applied ledger (applyOneCompletion nextToCommit suppress completion ledger) completion
      suppress := by
  unfold applyOneCompletion
  split
  · rename_i error failed
    constructor <;> simp [Ledger.failRun, StoreCompletion.succeeded, failed, Except.isOk, Except.toBool]
  · rename_i failure _ failed
    split
    · rename_i verified
      simp only [Bool.and_eq_true] at verified
      constructor <;>
        simp [StoreCompletion.succeeded, failed, Except.isOk, Except.toBool, verified.1]
    · constructor <;> simp [StoreCompletion.succeeded, failed, Except.isOk, Except.toBool]
  · rename_i stored succeeded
    split
    · rename_i suppressed
      constructor <;> simp [suppressed]
    · rename_i applying
      constructor <;>
        simp [Ledger.applyCommit, StoreCompletion.succeeded, succeeded, Except.isOk, Except.toBool,
          applying]

/-! ### Applying a batch -/

/-- The episode after some completions: only a stale-pinned anchor can have moved,
to a verified stale height among them. -/
structure Raised (batch : List StoreCompletion) (before after : ReorgEpisode) : Prop where
  stalePinned : after.stalePinned = before.stalePinned
  popTime : before.stalePinned = false → after = before
  anchor : (after.staleTopHeight = before.staleTopHeight ∧
      after.staleTopHash = before.staleTopHash) ∨
    ∃ completion ∈ batch, completion.stale.isSome = true ∧
      after.staleTopHeight = completion.item.blockNum ∧
      after.staleTopHash = completion.item.hash

theorem Raised.refl (batch : List StoreCompletion) (episode : ReorgEpisode) :
    Raised batch episode episode :=
  ⟨rfl, fun _ => rfl, .inl ⟨rfl, rfl⟩⟩

theorem Raised.trans {first second : List StoreCompletion} {before middle after : ReorgEpisode}
    (early : Raised first before middle) (late : Raised second middle after) :
    Raised (first ++ second) before after := by
  refine ⟨late.stalePinned.trans early.stalePinned, fun popTime => ?_, ?_⟩
  · rw [late.popTime (early.stalePinned.trans popTime), early.popTime popTime]
  · rcases late.anchor with ⟨height, hash⟩ | ⟨completion, member, raised⟩
    · rcases early.anchor with ⟨height', hash'⟩ | ⟨completion, member, stale, height', hash'⟩
      · exact .inl ⟨height.trans height', hash.trans hash'⟩
      · exact .inr ⟨completion, List.mem_append_left _ member, stale, height.trans height',
          hash.trans hash'⟩
    · exact .inr ⟨completion, List.mem_append_right _ member, raised⟩

theorem raise_raised {completion : StoreCompletion} (stale : completion.stale.isSome = true)
    (episode : ReorgEpisode) : Raised [completion] episode (episode.raise completion.item) := by
  unfold ReorgEpisode.raise
  split
  · rename_i higher
    refine ⟨rfl, fun popTime => ?_, .inr ⟨completion, .head _, stale, rfl, rfl⟩⟩
    rw [popTime] at higher
    cases higher.1
  · exact Raised.refl _ _

/-- What a whole batch can do; `rest` is what waits behind an episode it opened. -/
structure BatchApplied (ledger next : Ledger) (batch : List StoreCompletion)
    (rest : Option (List StoreCompletion)) (suppress : Bool) : Prop where
  rollbackPoint : next.rollbackPoint = ledger.rollbackPoint
  fatal : next.fatalErr = ledger.fatalErr ∨ (next.fatalErr.isSome = true ∧ next.ctxDone = true)
  fatalStays : ledger.fatalErr.isSome = true → next.fatalErr.isSome = true
  cancelled : ledger.ctxDone = true → next.ctxDone = true
  closed : rest = none → ledger.episode = none → next.episode = none
  kept : ∀ before, ledger.episode = some before → rest = none ∧
    ∃ after, next.episode = some after ∧ Raised batch before after
  opened : ∀ later, rest = some later → ledger.ended = false ∧ ∃ completion ∈ batch,
    completion.stale.isSome = true ∧ next.episode = some (staleEpisode completion.item)
  committed : ∃ fired, next.committed = ledger.committed ++ fired ∧
    (fired ++ rest.getD []).Sublist batch ∧ (∀ completion ∈ fired, completion.succeeded = true) ∧
    ((suppress = true ∨ ledger.ended = true) → fired = []) ∧
    (rest = none → suppress = false → next.ended = false →
      fired = batch.filter StoreCompletion.succeeded)

theorem opensEpisode_facts (opens : opensEpisode completion ledger = true) :
    completion.succeeded = false ∧ completion.stale.isSome = true ∧ ledger.ended = false ∧
      ledger.episode = none := by
  unfold opensEpisode at opens
  split at opens
  · cases opens
  · cases opens
  · rename_i failure _ failed
    simp only [Bool.and_eq_true, Bool.not_eq_true', Option.isNone_iff_eq_none] at opens
    refine ⟨?_, opens.1.1, opens.1.2, opens.2⟩
    simp [StoreCompletion.succeeded, failed, Except.isOk, Except.toBool]

theorem Applied.ended_stays {next : Ledger} (applied : Applied ledger next completion suppress)
    (ended : ledger.ended = true) : next.ended = true := by
  simp only [Ledger.ended, Bool.or_eq_true, applied.rollbackPoint] at ended ⊢
  exact ended.imp_right applied.fatalStays

theorem BatchApplied.ended_stays {next : Ledger} {batch : List StoreCompletion}
    {rest : Option (List StoreCompletion)}
    (applied : BatchApplied ledger next batch rest suppress)
    (ended : ledger.ended = true) : next.ended = true := by
  simp only [Ledger.ended, Bool.or_eq_true, applied.rollbackPoint] at ended ⊢
  exact ended.imp_right applied.fatalStays

/-- One completion followed by the rest of its batch. -/
theorem Applied.andThen {middle next : Ledger} {batch : List StoreCompletion}
    {rest : Option (List StoreCompletion)}
    (first : Applied ledger middle completion (suppress || ledger.ended))
    (later : BatchApplied middle next batch rest suppress) :
    BatchApplied ledger next (completion :: batch) rest suppress := by
  have sameEpisode : ledger.episode = none → middle.episode = none := by
    intro free
    rcases first.episode with same | ⟨_, same⟩ <;> simp [same, free]
  constructor
  case rollbackPoint => exact later.rollbackPoint.trans first.rollbackPoint
  case fatal =>
    rcases later.fatal with same | failed
    · rcases first.fatal with same' | ⟨failed, cancelled⟩
      · exact .inl (same.trans same')
      · exact .inr ⟨same ▸ failed, later.cancelled cancelled⟩
    · exact .inr failed
  case fatalStays => exact fun failed => later.fatalStays (first.fatalStays failed)
  case cancelled => exact fun cancelled => later.cancelled (first.cancelled cancelled)
  case closed => exact fun finished free => later.closed finished (sameEpisode free)
  case kept =>
    intro before found
    obtain ⟨between, foundMiddle, early⟩ : ∃ between, middle.episode = some between ∧
        Raised [completion] before between := by
      rcases first.episode with same | ⟨stale, same⟩
      · exact ⟨before, same.trans found, Raised.refl _ _⟩
      · exact ⟨_, by rw [same, found]; rfl, raise_raised stale before⟩
    obtain ⟨finished, after, foundNext, late⟩ := later.kept between foundMiddle
    exact ⟨finished, after, foundNext, early.trans late⟩
  case opened =>
    intro waiting opened
    obtain ⟨running, opener, member, stale, found⟩ := later.opened waiting opened
    refine ⟨?_, opener, .tail _ member, stale, found⟩
    by_contra ended
    rw [Bool.not_eq_false] at ended
    simp [first.ended_stays ended] at running
  case committed =>
    obtain ⟨fired, appended, within, succeeded, silent, complete⟩ := later.committed
    -- a run that has not ended after the batch had not ended before it
    have applying : suppress = false → next.ended = false → (suppress || ledger.ended) = false := by
      intro loud running
      rw [loud, Bool.false_or]
      by_contra ended
      rw [Bool.not_eq_false] at ended
      simp [later.ended_stays (first.ended_stays ended)] at running
    rcases first.committed with same | ⟨loud, good, committed⟩
    · refine ⟨fired, by rw [appended, same], within.trans (List.sublist_cons_self _ _), succeeded,
        fun quiet => silent (quiet.imp_right first.ended_stays), ?_⟩
      intro finished loud running
      rw [complete finished loud running, List.filter_cons_of_neg]
      intro good
      have := first.commits (applying loud running) good
      simp [same] at this
    · refine ⟨completion :: fired, ?_, within.cons_cons _, ?_, ?_, ?_⟩
      · rw [appended, committed, List.append_assoc, List.singleton_append]
      · intro other member
        rcases List.mem_cons.mp member with rfl | old
        · exact good
        · exact succeeded other old
      · rintro (quiet | quiet) <;> simp [quiet] at loud
      · intro finished unsuppressed running
        rw [complete finished unsuppressed running, List.filter_cons_of_pos good]

theorem applyBatch_applied (nextToCommit : Int) (suppress : Bool) (batch : List StoreCompletion)
    (ledger : Ledger) :
    BatchApplied ledger (applyBatch nextToCommit suppress batch ledger).1 batch
      (applyBatch nextToCommit suppress batch ledger).2 suppress := by
  induction batch generalizing ledger with
  | nil =>
      constructor
      case kept => exact fun before found => ⟨rfl, before, found, Raised.refl _ _⟩
      all_goals simp [applyBatch]
  | cons completion batch ih =>
      unfold applyBatch
      split
      · rename_i opens
        obtain ⟨failed, stale, running, free⟩ := opensEpisode_facts opens
        constructor
        case opened => exact fun _ _ => ⟨running, completion, .head _, stale, rfl⟩
        case kept =>
          intro before found
          simp [free] at found
        case committed =>
          refine ⟨[], by simp, by simp, by simp, by simp, ?_⟩
          intro finished
          cases finished
        all_goals simp
      · have first := applyOneCompletion_applied nextToCommit (suppress || ledger.ended)
          completion ledger
        generalize applyOneCompletion nextToCommit (suppress || ledger.ended) completion ledger =
          middle at first
        have later := ih middle
        generalize applyBatch nextToCommit suppress batch middle = result at later
        exact first.andThen later

end ShinzoGenerator.Indexer
