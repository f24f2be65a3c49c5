import ShinzoGenerator.Pruner.IndexerQueueProperties

/-! Sequences of queue operations, restarts over the queue file included, with a
record of what was tracked and what was handed out. -/

set_option autoImplicit false

namespace ShinzoGenerator.Pruner

open IndexerQueue

/-- The operations on the queue; `restart` saves it and loads the file into a new one. -/
inductive QueueOp where
  | trackBlockDocIDs (blockNumber : Int) (blockDocID : String)
      (otherDocIDs : AList (fun _ : String => List String)) (batchSigID : String)
  | drain (sorter : EntrySorter) (keep : Int)
  | drainByDocCount (sorter : EntrySorter) (excess : Int)
  | restart

/-- The queue with its files, and every document tracked and handed out so far. -/
structure QueueHistory where
  queue : IndexerQueue
  files : Files
  tracked : Multiset (String × String) := 0
  drained : Multiset (String × String) := 0

/-- A new queue bound to a path without a file. -/
def QueueHistory.opened (path : String) : QueueHistory where
  queue := loadFromFile {} ∅ path
  files := ∅

/-- One operation; it has no outcome if it panics. -/
def QueueOp.perform (names : CollectionNames) (history : QueueHistory) :
    QueueOp → Option QueueHistory
  | .trackBlockDocIDs blockNumber blockDocID otherDocIDs batchSigID =>
      match history.queue.trackBlockDocIDs blockNumber blockDocID otherDocIDs batchSigID with
      | .error _ => some history
      | .ok queue => some { history with
          queue
          tracked := history.tracked + trackedDocs names blockDocID otherDocIDs batchSigID }
  | .drain sorter keep =>
      match history.queue.drain sorter keep names with
      | none => none
      | some (result, queue) => some { history with
          queue
          drained := history.drained + handedOut result }
  | .drainByDocCount sorter excess =>
      let (result, queue) := history.queue.drainByDocCount sorter excess names
      some { history with
        queue
        drained := history.drained + handedOut result }
  | .restart =>
      let files := history.queue.save history.files
      some { history with
        queue := loadFromFile {} files history.queue.filePath
        files }

def performAll (names : CollectionNames) : List QueueOp → QueueHistory → Option QueueHistory
  | [], history => some history
  | op :: ops, history => (op.perform names history).bind (performAll names ops)

/-- Tracks only canonical docIDs, none of them under the name of the block collection. -/
def QueueOp.Canonical (names : CollectionNames) : QueueOp → Prop
  | .trackBlockDocIDs _ blockDocID otherDocIDs batchSigID =>
      CanonicalBlock names blockDocID otherDocIDs batchSigID
  | _ => True

/-- Nothing is lost and nothing is invented. -/
structure QueueHistory.Balanced (names : CollectionNames) (history : QueueHistory) : Prop where
  balance : history.tracked = history.drained + history.queue.docs names
  foreign : ∀ entry ∈ history.queue.entries, names.block ∉ entry.otherDocIDs
  bound : history.queue.filePath ≠ ""

/-- A saved queue is loaded back as it was. -/
theorem loadFromFile_save {queue : IndexerQueue} (bound : queue.filePath ≠ "") (files : Files) :
    loadFromFile {} (queue.save files) queue.filePath = queue := by
  rw [save, if_neg bound]
  by_cases empty : queue.entries = []
  · have missing : (files.erase queue.filePath).lookup queue.filePath = none := AList.lookup_erase ..
    rw [if_pos empty, loadFromFile, missing]
    cases queue
    cases empty
    rfl
  · rw [if_neg empty, loadFromFile, AList.lookup_insert]
    rfl

theorem opened_balanced (names : CollectionNames) {path : String} (named : path ≠ "") :
    (QueueHistory.opened path).Balanced names :=
  ⟨rfl, by simp [QueueHistory.opened, loadFromFile], named⟩

theorem IndexerQueue.Drained.balanced {names : CollectionNames} {history : QueueHistory} {queue : IndexerQueue}
    {removed : List BlockEntry} {result : Option DrainResult}
    (drained : Drained names history.queue removed result queue)
    (balanced : history.Balanced names) :
    QueueHistory.Balanced names
      { history with queue, drained := history.drained + handedOut result } where
  balance := by
    rw [add_assoc, ← drained.docs_eq balanced.foreign]
    exact balanced.balance
  foreign entry member :=
    balanced.foreign entry (drained.split.mem_iff.mpr (List.mem_append_right _ member))
  bound := drained.filePath ▸ balanced.bound

theorem perform_balanced {names : CollectionNames} {history next : QueueHistory} {op : QueueOp}
    (canonical : op.Canonical names) (balanced : history.Balanced names)
    (performed : op.perform names history = some next) : next.Balanced names := by
  cases op with
  | trackBlockDocIDs blockNumber blockDocID otherDocIDs batchSigID =>
      obtain ⟨entry, built, docs, _, foreign⟩ :=
        @newEntry_canonical names blockNumber _ _ _ canonical
      have tracked : history.queue.trackBlockDocIDs blockNumber blockDocID otherDocIDs batchSigID =
          .ok { history.queue with entries := history.queue.entries ++ [entry] } := by
        rw [IndexerQueue.trackBlockDocIDs, built]
        rfl
      simp only [QueueOp.perform, tracked, Option.some.injEq] at performed
      subst performed
      refine ⟨?_, ?_, balanced.bound⟩
      · simp only [IndexerQueue.docs, List.map_append, List.sum_append, List.map_cons, List.map_nil,
          List.sum_cons, List.sum_nil, add_zero, docs, ← add_assoc]
        rw [balanced.balance]
        rfl
      · intro other member
        rcases List.mem_append.mp member with old | new
        · exact balanced.foreign other old
        · rw [List.mem_singleton.mp new]
          exact foreign
  | drain sorter keep =>
      simp only [QueueOp.perform] at performed
      split at performed
      · cases performed
      · rename_i returned
        cases performed
        obtain ⟨_, drained, _⟩ := drain_spec returned
        exact drained.balanced balanced
  | drainByDocCount sorter excess =>
      cases performed
      obtain ⟨_, _, _, _, _, drained⟩ :=
        drainByDocCount_spec (rfl : history.queue.drainByDocCount sorter excess names = _)
      exact drained.balanced balanced
  | restart =>
      cases performed
      have same := loadFromFile_save balanced.bound history.files
      exact ⟨by rw [same]; exact balanced.balance, by rw [same]; exact balanced.foreign,
        by rw [same]; exact balanced.bound⟩

theorem performAll_balanced {names : CollectionNames} {ops : List QueueOp}
    (canonical : ∀ op ∈ ops, op.Canonical names) {history finish : QueueHistory}
    (balanced : history.Balanced names) (performed : performAll names ops history = some finish) :
    finish.Balanced names := by
  induction ops generalizing history with
  | nil =>
      cases performed
      exact balanced
  | cons op ops ih =>
      obtain ⟨next, first, rest⟩ := Option.bind_eq_some_iff.mp performed
      have nextBalanced := perform_balanced (canonical op List.mem_cons_self) balanced first
      exact ih (fun other member => canonical other (List.mem_cons_of_mem _ member)) nextBalanced rest

/-- Over every sequence of operations the documents tracked are those handed out and
those still queued. A drain hands out the oldest entries, as many as it has to. -/
theorem tracked_eq_drained_add_queued (names : CollectionNames) {path : String}
    (named : path ≠ "") (ops : List QueueOp) (canonical : ∀ op ∈ ops, op.Canonical names)
    {history : QueueHistory}
    (performed : performAll names ops (.opened path) = some history) :
    history.tracked = history.drained + history.queue.docs names ∧
      (∀ sorter keep, 0 ≤ keep → ∃ removed result next,
        history.queue.drain sorter keep names = some (result, next) ∧
        Drained names history.queue removed result next ∧
        (removed.length : Int) = max 0 (history.queue.entries.length - keep)) ∧
      ∀ sorter excess, ∃ ordered cut result next,
        history.queue.drainByDocCount sorter excess names = (result, next) ∧
        history.queue.entries.Perm ordered ∧
        ordered.Pairwise (fun first second => first.blockNumber ≤ second.blockNumber) ∧
        ShortestReaching names ordered excess cut ∧
        Drained names history.queue (ordered.take cut) result next := by
  refine ⟨(performAll_balanced canonical (opened_balanced names named) performed).balance, ?_, ?_⟩
  · intro sorter keep nonnegative
    obtain ⟨⟨result, next⟩, returned⟩ :=
      Option.isSome_iff_exists.mp ((@drain_returns_iff names history.queue sorter keep).mpr nonnegative)
    obtain ⟨removed, drained, count⟩ := drain_spec returned
    exact ⟨removed, result, next, returned, drained, count⟩
  · intro sorter excess
    obtain ⟨ordered, cut, perm, sorted, shortest, drained⟩ :=
      drainByDocCount_spec (rfl : history.queue.drainByDocCount sorter excess names = _)
    exact ⟨ordered, cut, _, _, rfl, perm, sorted, shortest, drained⟩

/-- The names of a chain's collections. -/
def CollectionNames.mainnet : CollectionNames where
  block := "Ethereum__Mainnet__Block"
  blockSignature := "Ethereum__Mainnet__BlockSignature"
  named := by decide
  apart := by decide

def sampleDocID (digit : Char) : String :=
  "bae-" ++ String.ofList (List.replicate 8 digit) ++ "-0000-4000-8000-0123456789ab"

theorem sampleDocID_canonical {digit : Char} (lower : digit ∈ Hex.lowerDigits) :
    CanonicalDocID (sampleDocID digit) := by
  refine ⟨List.replicate 8 digit, "0000".toList, "4000".toList, "8000".toList,
    "0123456789ab".toList, ?_, by simp, rfl, rfl, rfl, rfl, ?_⟩
  · simp [sampleDocID]
  · rw [Hex.lower_append]
    exact ⟨fun char member => (List.eq_of_mem_replicate member) ▸ lower, by decide⟩

/-- Two blocks with their children, one drained, a restart and another drain by count. -/
def sampleOps : List QueueOp :=
  [.trackBlockDocIDs 8 (sampleDocID '1')
      (AList.singleton "Ethereum__Mainnet__Log" [sampleDocID '2', sampleDocID '2']) (sampleDocID '3'),
    .trackBlockDocIDs 7 (sampleDocID '4') (AList.singleton "Ethereum__Mainnet__Transaction" []) "",
    .drain .insertion 1,
    .restart,
    .drainByDocCount .insertion 2]

theorem sampleOps_conserved :
    ∃ history, performAll .mainnet sampleOps (.opened "prune_queue.gob") = some history ∧
      Multiset.card history.tracked = 5 ∧ history.queue.entries = [] ∧
      history.tracked = history.drained + history.queue.docs .mainnet := by
  have canonical : ∀ op ∈ sampleOps, op.Canonical .mainnet := by
    simp only [sampleOps, List.forall_mem_cons]
    refine ⟨⟨sampleDocID_canonical (by decide), ?_, .inr (sampleDocID_canonical (by decide)),
      by decide⟩, ⟨sampleDocID_canonical (by decide), by simp, .inl rfl, by decide⟩, trivial, trivial,
      trivial, by simp⟩
    intro entry member id listed
    rw [AList.singleton_entries, List.mem_singleton] at member
    subst member
    have same : id = sampleDocID '2' := by simpa using listed
    exact same ▸ sampleDocID_canonical (by decide)
  have counted : (performAll .mainnet sampleOps (.opened "prune_queue.gob")).map
      (fun history => (Multiset.card history.tracked, history.queue.entries)) = some (5, []) := by
    decide +kernel
  obtain ⟨history, performed, same⟩ := Option.map_eq_some_iff.mp counted
  rw [Prod.mk.injEq] at same
  exact ⟨history, performed, same.1, same.2,
    (tracked_eq_drained_add_queued .mainnet (by decide) sampleOps canonical performed).1⟩

end ShinzoGenerator.Pruner
