import ShinzoGenerator.Indexer.StoreWithRetry
import ShinzoGenerator.Pruner.Checkpoint
import ShinzoGenerator.Pruner.TrackedCommits

/-! The life of the documents, from the handler's commits through rollbacks, prune cycles
and restarts. A document that the generator holds was there before or is named by an entry
of the queue, so that the cycles bring the database down to the newest entries. -/

set_option autoImplicit false

namespace ShinzoGenerator.Pruner

open Chains Defra Indexer KeyedLists

variable {σ : Type} {handler : BlockHandler}

/-! ### Which collections a `Store` call tracks -/

theorem writeGroups_collections (env : Environment) (handler : BlockHandler)
    (stamper : Option (LinkStamper σ)) (groups : List DocumentGroup) (session : Session σ) :
    ∀ entry ∈ (writeGroups env handler stamper groups session).otherDocIDs,
      ∃ group ∈ groups, group.collection = entry.1 := by
  induction groups generalizing session with
  | nil => simp [writeGroups]
  | cons group rest ih =>
      unfold writeGroups
      rcases stampBeforeWrite stamper group session with ⟨stamped, error | error, next⟩
      · dsimp only
        rcases (writeGroup env handler stamped).run next with ⟨failure | ids, after⟩
        · simp
        · dsimp only
          rcases recordDocIDs stamper stamped ids after with ⟨error | error, last⟩
          · intro entry listed
            rcases List.mem_cons.mp listed with rfl | later
            · exact ⟨group, .head _, rfl⟩
            · obtain ⟨other, member, same⟩ := ih last entry later
              exact ⟨other, .tail _ member, same⟩
          · simp
      · simp

theorem store_collections (env : Environment) (handler : BlockHandler)
    (stamper : Option (LinkStamper σ)) (converted : ConversionResult) (session : Session σ)
    {created : BlockCreationResult}
    (reported : (store env handler stamper converted session).created = some created) :
    ∀ entry ∈ created.otherDocIDs, ∃ group ∈ converted.groups.tail, group.collection = entry.1 := by
  unfold store at reported
  cases grouped : converted.groups with
  | nil => simp [grouped] at reported
  | cons blockGroup others =>
      simp only [grouped] at reported
      split at reported
      · cases reported
      · split at reported
        · cases reported
        · split at reported
          · cases reported
          · split at reported
            · cases reported
            · cases reported
              exact writeGroups_collections env handler stamper others _

theorem mem_docIDsByName_keys {created : BlockCreationResult} {name : String}
    (member : name ∈ BlockCreationResult.docIDsByName handler created) :
    ∃ entry ∈ created.otherDocIDs, handler.collectionName entry.1 = name := by
  have folded : ∀ (entries : List (Collection × List String))
      (groups : AList (fun _ : String => List String)),
      name ∈ entries.foldl
          (fun groups entry => append groups (handler.collectionName entry.1) entry.2) groups →
        name ∈ groups ∨ ∃ entry ∈ entries, handler.collectionName entry.1 = name := by
    intro entries
    induction entries with
    | nil => exact fun groups inside => .inl inside
    | cons entry entries ih =>
        intro groups inside
        rcases ih _ inside with old | ⟨other, listed, same⟩
        · rcases mem_append.mp old with rfl | old
          · exact .inr ⟨entry, .head _, rfl⟩
          · exact .inl old
        · exact .inr ⟨other, .tail _ listed, same⟩
  rcases folded created.otherDocIDs ∅ member with empty | found
  · exact absurd empty (AList.notMem_empty _)
  · exact found

/-- Under the name of the block collection the entry keeps its block document only. -/
def BlockApart (handler : BlockHandler) (entry : BlockEntry) : Prop :=
  (collectionNames handler).block ∉ entry.otherDocIDs

theorem packOthers_keys {entries : List (Sigma fun _ : String => List String)}
    {packed result : AList (fun _ : String => List UInt8)}
    (ok : packOthers entries packed = .ok result) {name : String} (member : name ∈ result) :
    name ∈ packed ∨ ∃ entry ∈ entries, entry.1 = name := by
  induction entries generalizing packed with
  | nil =>
      cases ok
      exact .inl member
  | cons entry rest ih =>
      obtain ⟨colName, docIDs⟩ := entry
      have later : ∀ {packed}, packOthers rest packed = .ok result →
          name ∈ packed ∨ ∃ entry ∈ ⟨colName, docIDs⟩ :: rest, entry.1 = name := by
        intro packed ok
        rcases ih ok with old | ⟨other, listed, same⟩
        · exact .inl old
        · exact .inr ⟨other, .tail _ listed, same⟩
      unfold packOthers at ok
      split at ok
      · exact later ok
      · split at ok
        · cases ok
        · rcases later ok with old | found
          · split at old
            · exact .inl old
            · rcases (AList.mem_insert _).mp old with rfl | old
              · exact .inr ⟨_, .head _, rfl⟩
              · exact .inl old
          · exact .inr found

theorem newEntry_keys {blockNumber : Int} {blockDocID batchSigID : String}
    {otherDocIDs : AList (fun _ : String => List String)} {entry : BlockEntry}
    (built : newEntry blockNumber blockDocID otherDocIDs batchSigID = .ok entry) {name : String}
    (member : name ∈ entry.otherDocIDs) : name ∈ otherDocIDs := by
  unfold newEntry at built
  cases blocks : optionalUUID "block" blockDocID with
  | error text => rw [blocks] at built; cases built
  | ok blockUUID =>
      cases others : packOthers otherDocIDs.entries ∅ with
      | error text => rw [blocks, others] at built; cases built
      | ok packed =>
          cases signatures : optionalUUID "batch sig" batchSigID with
          | error text => rw [blocks, others, signatures] at built; cases built
          | ok sigUUID =>
              rw [blocks, others, signatures] at built
              cases built
              rcases packOthers_keys others member with empty | ⟨found, listed, rfl⟩
              · exact absurd empty (AList.notMem_empty _)
              · exact List.mem_map_of_mem listed

theorem trackCreated_apart {created : BlockCreationResult} {queue : IndexerQueue}
    (others : ∀ entry ∈ created.otherDocIDs, entry.1 ≠ .block)
    (apart : ∀ entry ∈ queue.entries, BlockApart handler entry) :
    ∀ entry ∈ (trackCreated handler created queue).entries, BlockApart handler entry := by
  unfold trackCreated IndexerQueue.trackBlockDocIDs
  cases built : newEntry created.blockNumber created.blockID
      (BlockCreationResult.docIDsByName handler created) created.blockSignatureID with
  | error text => exact apart
  | ok made =>
      intro entry member
      rcases List.mem_append.mp member with old | new
      · exact apart entry old
      · rw [List.mem_singleton.mp new]
        intro inside
        obtain ⟨other, listed, named⟩ := mem_docIDsByName_keys (newEntry_keys built inside)
        exact others other listed (collectionName_injective named)

/-! ### The system -/

/-- What changes the documents and the queue: calls of the handler, and all but the bare
stores of the prune system. -/
inductive CustodyMove (σ : Type) where
  | handle (call : HandlerCall σ)
  | prune (move : PruneMove)

def CustodyMove.effect (cfg : PrunerConfig) (handler : BlockHandler) (state : PruneState) :
    CustodyMove σ → PruneState
  | .handle call =>
      let after := call.effect handler { db := state.db, queue := state.queue }
      { state with db := after.db, queue := after.queue }
  | .prune move => move.effect cfg handler state

def custodySystem (σ : Type) (cfg : PrunerConfig) (handler : BlockHandler) :
    GuardedSystem PruneState (CustodyMove σ) where
  enabled _ move := ∀ stored, move ≠ .prune (.store stored)
  effect state move := move.effect cfg handler state

/-- The file of the queue has every entry of the queue. -/
def UpToDate (state : PruneState) : Prop :=
  ∀ entry ∈ state.queue.entries,
    entry ∈ (IndexerQueue.loadFromFile {} state.files state.queue.filePath).entries

/-- No signature comes late, no purge fails on a document that only drained entries name,
and no crash loses entries. -/
def Careful (cfg : PrunerConfig) (handler : BlockHandler) (state : PruneState) :
    CustodyMove σ → Prop
  | .handle (.store _ _ _ converted) => BlockFirst converted ∧ WellPlaced converted
  | .handle call => SignsInline handler { db := state.db, queue := state.queue } call
  | .prune (.runPrune env sorter) => FailuresCovered env sorter cfg handler state
  | .prune (.restart saved) => saved = true ∨ UpToDate state
  | .prune _ => True

/-- Whatever is held was there before or is named by the queue. -/
structure InCustody (handler : BlockHandler) (old : DB) (state : PruneState) : Prop where
  held : ∀ doc, state.db.Holds doc → old.Holds doc ∨ Tracked handler state.queue doc
  apart : ∀ entry ∈ state.queue.entries, BlockApart handler entry
  saved : ∀ path snap, state.files.lookup path = some snap →
    ∀ entry ∈ snap.entries, BlockApart handler entry
  bound : state.queue.filePath ≠ ""

section Steps

variable {cfg : PrunerConfig} {old : DB} {state : PruneState}

theorem inCustody_opened (handler : BlockHandler) (db : DB) {path : String} (bound : path ≠ "") :
    InCustody handler db (.opened db path) :=
  ⟨fun _ held => .inl held, loadFromFile_entries (by simp) path, by simp [PruneState.opened],
    bound⟩

theorem trackCreated_filePath (created : BlockCreationResult) (queue : IndexerQueue) :
    (trackCreated handler created queue).filePath = queue.filePath := by
  unfold trackCreated IndexerQueue.trackBlockDocIDs
  cases newEntry created.blockNumber created.blockID
      (BlockCreationResult.docIDsByName handler created) created.blockSignatureID <;> rfl

theorem InCustody.store (custody : InCustody handler old state)
    (canonical : ∀ doc, CanonicalDocID (handler.docID doc)) (env : Environment)
    (stamper : Option (LinkStamper σ)) (links : σ) {converted : ConversionResult}
    (first : BlockFirst converted) (placed : WellPlaced converted) :
    InCustody handler old
      ((CustodyMove.handle (.store env stamper links converted)).effect cfg handler state) := by
  let before : TrackedStore := { db := state.db, queue := state.queue }
  obtain ⟨keeps, tracks⟩ := store_tracks canonical env stamper links placed before
  have deleted := (store_adds env handler stamper converted { db := state.db, links }).deleted
  have stays : ∀ doc, Tracked handler state.queue doc → Tracked handler
      ((HandlerCall.store env stamper links converted).effect handler before).queue doc := by
    intro doc ⟨entry, member, names⟩
    exact ⟨entry, keeps entry member, names⟩
  refine ⟨?_, ?_, custody.saved, ?_⟩
  · intro doc held
    by_cases known : state.db.Holds doc
    · exact (custody.held doc known).imp_right (stays doc)
    · rcases held with visible | gone
      · exact .inr (tracks doc visible fun seen => known (.inl seen))
      · exact absurd (.inr (deleted ▸ gone)) known
  · have others := @store_collections σ env handler stamper converted { db := state.db, links }
    simp only [CustodyMove.effect, HandlerCall.effect]
    cases reported : (Defra.store env handler stamper converted { db := state.db, links }).created with
    | none => exact custody.apart
    | some created =>
        refine trackCreated_apart (fun entry listed => ?_) custody.apart
        obtain ⟨group, member, same⟩ := others reported entry listed
        exact same ▸ first.others group member
  · simp only [CustodyMove.effect, HandlerCall.effect]
    cases (Defra.store env handler stamper converted { db := state.db, links }).created with
    | none => exact custody.bound
    | some created =>
        simp only [Option.elim_some, trackCreated_filePath]
        exact custody.bound

/-- What only takes documents away keeps the custody. -/
theorem InCustody.shrink (custody : InCustody handler old state) {db : DB}
    (fewer : ∀ doc, db.Holds doc → state.db.Holds doc) :
    InCustody handler old { state with db } :=
  ⟨fun doc held => custody.held doc (fewer doc held), custody.apart, custody.saved, custody.bound⟩

theorem pruneExcess_fewer (context : String) (env : PruneEnvironment) (cfg : PrunerConfig)
    (db : DB) : ∀ doc, (pruneExcess context env cfg handler db).db.Holds doc → db.Holds doc := by
  intro doc held
  rcases @pruneExcess_db handler env context cfg db with same | ⟨_, _, _, _, purged⟩
  · rwa [same] at held
  · rw [purged] at held
    exact (SoftStore.holds_purge.mp held).1

theorem InCustody.runPrune (custody : InCustody handler old state) {env : PruneEnvironment}
    {sorter : EntrySorter} (covered : FailuresCovered env sorter cfg handler state) :
    InCustody handler old ((PruneMove.runPrune env sorter).effect cfg handler state) := by
  simp only [PruneMove.effect]
  by_cases full : cfg.maxBlocks < state.queue.entries.length
  · obtain ⟨outcome, ran⟩ := @runIndexerQueuePrune_drains handler env sorter cfg state full
    rw [ran]
    have kept : ∀ entry ∈ keptEntries sorter cfg state.queue, BlockApart handler entry :=
      fun entry member => custody.apart entry (mem_keptEntries member)
    refine ⟨fun doc held => ?_, kept, save_entries kept custody.saved, custody.bound⟩
    obtain ⟨before, unpurged⟩ := SoftStore.holds_purge.mp held
    refine (custody.held doc before).imp_right ?_
    intro named
    obtain ⟨entry, member, names⟩ := named
    rcases @mem_drained_or_kept sorter cfg _ _ member with drained | remains
    · by_cases answers : env.Purges (handler.collectionName doc.collection)
      · have purged := (purgedBy_buildDrainResult fun entry member =>
          custody.apart entry (mem_drainedEntries member)).mpr ⟨answers, entry, drained, names⟩
        rw [purged] at unpurged
        cases unpurged
      · exact covered.resolve_left (not_le.mpr full) doc before answers
          (mem_queue_docs.mpr ⟨entry, member, names⟩)
    · exact ⟨entry, remains, names⟩
  · rw [runIndexerQueuePrune_filters sorter cfg state (not_lt.mp full)]
    exact ⟨fun doc held => custody.held doc (pruneExcess_fewer _ env cfg state.db doc held),
      custody.apart, save_entries custody.apart custody.saved, custody.bound⟩

theorem InCustody.restart (cfg : PrunerConfig) (custody : InCustody handler old state) {saved : Bool}
    (kept : saved = true ∨ UpToDate state) :
    InCustody handler old ((PruneMove.restart saved).effect cfg handler state) := by
  cases saved with
  | true =>
      have files := save_entries custody.apart custody.saved
      simp only [PruneMove.effect, if_true, loadFromFile_save custody.bound]
      exact ⟨custody.held, custody.apart, files, custody.bound⟩
  | false =>
      have current := kept.resolve_left Bool.false_ne_true
      refine ⟨fun doc held => (custody.held doc held).imp_right ?_,
        loadFromFile_entries custody.saved _, custody.saved, ?_⟩
      · intro named
        obtain ⟨entry, member, names⟩ := named
        exact ⟨entry, current entry member, names⟩
      · exact (loadFromFile_filePath _ _ _).trans_ne custody.bound

theorem InCustody.step (canonical : ∀ doc, CanonicalDocID (handler.docID doc))
    (custody : InCustody handler old state) {move : CustodyMove σ}
    (bare : ∀ stored, move ≠ .prune (.store stored)) (careful : Careful cfg handler state move) :
    InCustody handler old (move.effect cfg handler state) := by
  cases move with
  | handle call =>
      cases call with
      | store env stamper links converted =>
          exact custody.store canonical env stamper links careful.1 careful.2
      | signExisting env source converted blockHash blockNumber =>
          have same := Unsignable.unchanged { db := state.db, links := () } careful blockHash
          refine custody.shrink fun doc held => ?_
          simpa only [HandlerCall.effect, same] using held
  | prune move =>
      cases move with
      | store stored => exact absurd rfl (bare stored)
      | rollbackBlocks low high chainHashes budget =>
          exact custody.shrink fun doc held =>
            (rollbackBlocks_holds low high chainHashes budget state.db doc).mp held
      | startupCleanup env => exact custody.shrink (pruneExcess_fewer _ env cfg state.db)
      | runPrune env sorter => exact custody.runPrune careful
      | restart saved => exact custody.restart cfg careful

end Steps

/-! ### Catching up -/

/-- Prune cycles one after the other, with nothing in between. -/
def runCycles (cfg : PrunerConfig) (handler : BlockHandler) (state : PruneState)
    (cycles : List (PruneEnvironment × EntrySorter)) : PruneState :=
  cycles.foldl (fun state cycle => (PruneMove.runPrune cycle.1 cycle.2).effect cfg handler state)
    state

/-- So many cycles bring so many entries down to the retention target. -/
def CatchesUp (cfg : PrunerConfig) (entries cycles : Nat) : Prop :=
  entries ≤ cfg.maxBlocks ∨ 0 < cycles ∧
    (cfg.maxBlocksPerCycle ≤ 0 ∨ entries ≤ cfg.maxBlocks + cycles * cfg.maxBlocksPerCycle)

instance (cfg : PrunerConfig) (entries cycles : Nat) : Decidable (CatchesUp cfg entries cycles) :=
  inferInstanceAs (Decidable (_ ∨ _))

/-- The queue lost the entries of the lowest numbers. -/
def DropsOldest (before after : List BlockEntry) : Prop :=
  ∃ dropped, (dropped ++ after).Perm before ∧
    ∀ gone ∈ dropped, ∀ kept ∈ after, gone.blockNumber ≤ kept.blockNumber

section Cycles

variable {cfg : PrunerConfig} {state : PruneState}

theorem DropsOldest.refl (entries : List BlockEntry) : DropsOldest entries entries :=
  ⟨[], List.Perm.refl _, by simp⟩

theorem DropsOldest.trans {first second third : List BlockEntry}
    (early : DropsOldest first second) (late : DropsOldest second third) :
    DropsOldest first third := by
  obtain ⟨dropped, earlyPerm, earlyOrder⟩ := early
  obtain ⟨more, latePerm, lateOrder⟩ := late
  refine ⟨dropped ++ more, ?_, fun gone member kept stays => ?_⟩
  · rw [List.append_assoc]
    exact (latePerm.append_left dropped).trans earlyPerm
  · rcases List.mem_append.mp member with before | after
    · exact earlyOrder gone before kept (latePerm.mem_iff.mp (List.mem_append_right _ stays))
    · exact lateOrder gone after kept stays

theorem keptEntries_dropsOldest (sorter : EntrySorter) (cfg : PrunerConfig)
    (queue : IndexerQueue) : DropsOldest queue.entries (keptEntries sorter cfg queue) := by
  refine ⟨drainedEntries sorter cfg queue, ?_, ?_⟩
  · rw [drainedEntries, keptEntries, List.take_append_drop]
    exact sorter.perm queue.entries
  · have ordered := sorter.ordered queue.entries
    rw [← List.take_append_drop
      (queue.entries.length - (keepEntries cfg queue.entries.length).toNat)
      (sorter.sort queue.entries), List.pairwise_append] at ordered
    exact fun gone member kept stays => ordered.2.2 gone member kept stays

theorem length_keptEntries (sorter : EntrySorter) {queue : IndexerQueue}
    (full : cfg.maxBlocks < queue.entries.length) :
    ((keptEntries sorter cfg queue).length : Int) = keepEntries cfg queue.entries.length := by
  obtain ⟨above, below, _⟩ := keepEntries_bounds cfg full
  have positive := cfg.positive
  rw [keptEntries, List.length_drop, (sorter.perm queue.entries).length_eq]
  omega

/-- One cycle drops the oldest entries of a queue above the target. -/
theorem runPrune_entries (env : PruneEnvironment) (sorter : EntrySorter) :
    ((PruneMove.runPrune env sorter).effect cfg handler state).queue.entries =
      if cfg.maxBlocks < state.queue.entries.length then keptEntries sorter cfg state.queue
      else state.queue.entries := by
  simp only [PruneMove.effect]
  by_cases full : cfg.maxBlocks < state.queue.entries.length
  · obtain ⟨outcome, ran⟩ := @runIndexerQueuePrune_drains handler env sorter cfg state full
    rw [ran, if_pos full]
  · rw [runIndexerQueuePrune_filters sorter cfg state (not_lt.mp full), if_neg full]

theorem runCycles_dropsOldest (cycles : List (PruneEnvironment × EntrySorter)) :
    DropsOldest state.queue.entries (runCycles cfg handler state cycles).queue.entries := by
  induction cycles generalizing state with
  | nil => exact .refl _
  | cons cycle cycles ih =>
      refine DropsOldest.trans ?_ (@ih ((PruneMove.runPrune cycle.1 cycle.2).effect cfg handler state))
      rw [runPrune_entries]
      split
      · exact keptEntries_dropsOldest cycle.2 cfg state.queue
      · exact .refl _

theorem CatchesUp.next {entries cycles : Nat} {left : Int}
    (full : cfg.maxBlocks < entries) (kept : left = keepEntries cfg entries)
    (catches : CatchesUp cfg entries (cycles + 1)) :
    left ≤ cfg.maxBlocks ∨ 0 < cycles ∧
      (cfg.maxBlocksPerCycle ≤ 0 ∨ left ≤ cfg.maxBlocks + cycles * cfg.maxBlocksPerCycle) := by
  have enough := (catches.resolve_left (not_le.mpr full)).2
  push_cast at enough
  rw [add_mul, one_mul] at enough
  rw [keepEntries] at kept
  split at kept
  · rename_i capped
    right
    have bounded := enough.resolve_left (not_le.mpr capped.1)
    refine ⟨Nat.pos_of_ne_zero fun none => ?_, .inr (by omega)⟩
    subst none
    simp at bounded
    omega
  · exact .inl kept.le

theorem runCycles_length {cycles : List (PruneEnvironment × EntrySorter)}
    (catches : CatchesUp cfg state.queue.entries.length cycles.length) :
    ((runCycles cfg handler state cycles).queue.entries.length : Int) =
      min (state.queue.entries.length : Int) cfg.maxBlocks := by
  induction cycles generalizing state with
  | nil =>
      have few := catches.resolve_right fun later => absurd later.1 (by simp)
      exact (min_eq_left few).symm
  | cons cycle cycles ih =>
      let next := (PruneMove.runPrune cycle.1 cycle.2).effect cfg handler state
      have left := @runPrune_entries handler cfg state cycle.1 cycle.2
      by_cases full : cfg.maxBlocks < state.queue.entries.length
      · rw [if_pos full] at left
        have kept : (next.queue.entries.length : Int) = keepEntries cfg state.queue.entries.length :=
          (congrArg (fun entries : List BlockEntry => (entries.length : Int)) left).trans
            (length_keptEntries cycle.2 full)
        have above := (keepEntries_bounds cfg full).1
        refine (@ih next (CatchesUp.next full kept catches)).trans ?_
        rw [kept, min_eq_right above, min_eq_right full.le]
      · rw [if_neg full] at left
        have same : next.queue.entries.length = state.queue.entries.length :=
          congrArg List.length left
        refine (@ih next (.inl (same ▸ not_lt.mp full))).trans ?_
        rw [same]

theorem failuresCovered_of_purges {env : PruneEnvironment} (answers : ∀ name, env.Purges name)
    (sorter : EntrySorter) : FailuresCovered env sorter cfg handler state :=
  .inr fun _ _ fails _ => absurd (answers _) fails

theorem InCustody.runCycles {old : DB} (custody : InCustody handler old state)
    {cycles : List (PruneEnvironment × EntrySorter)}
    (answers : ∀ cycle ∈ cycles, ∀ name, cycle.1.Purges name) :
    InCustody handler old (Pruner.runCycles cfg handler state cycles) := by
  induction cycles generalizing state with
  | nil => exact custody
  | cons cycle cycles ih =>
      refine ih ?_ fun later listed => answers later (.tail _ listed)
      exact custody.runPrune (failuresCovered_of_purges (answers cycle (.head _)) cycle.2)

end Cycles

/-- After any careful run, cycles that catch up leave the newest entries of the queue, and
the database holds nothing but their documents and those it held before. -/
theorem committed_documents_bounded {cfg : PrunerConfig} {db : DB} {path : String}
    {state : PruneState} (canonical : ∀ doc, CanonicalDocID (handler.docID doc))
    (bound : path ≠ "")
    (reached : ((custodySystem σ cfg handler).restrict (Careful cfg handler)).Path
      (.opened db path) state)
    {cycles : List (PruneEnvironment × EntrySorter)}
    (answers : ∀ cycle ∈ cycles, ∀ name, cycle.1.Purges name)
    (catches : CatchesUp cfg state.queue.entries.length cycles.length) :
    let after := runCycles cfg handler state cycles
    (after.queue.entries.length : Int) = min (state.queue.entries.length : Int) cfg.maxBlocks ∧
      DropsOldest state.queue.entries after.queue.entries ∧
      ∀ doc, after.db.Holds doc → db.Holds doc ∨ Tracked handler after.queue doc := by
  have custody : InCustody handler db state :=
    reached.invariant (inCustody_opened handler db bound) fun _ _ custody enabled =>
      custody.step canonical enabled.1 enabled.2
  exact ⟨runCycles_length catches, runCycles_dropsOldest cycles, (custody.runCycles answers).held⟩

/-! ### A block that was rolled back -/

/-- The docIDs go by height and by whether the document is a block. -/
def heightHandler : BlockHandler :=
  { labelHandler with
    docID := fun doc =>
      if doc.height? = some 5 then sampleDocID (if doc.collection = .block then '1' else '2')
      else sampleDocID (if doc.collection = .block then '3' else '4') }

theorem heightHandler_canonical (doc : Doc) : CanonicalDocID (heightHandler.docID doc) := by
  simp only [heightHandler]
  split <;> split <;> exact sampleDocID_canonical (by decide)

def numberedBlock (number : Int) (hash : String) : ConversionResult where
  groups :=
    [{ collection := .block
       docs := [[(numberFieldName, .int64 number), (hashFieldName, .string hash)]]
       blockNumField := numberFieldName
       blockHashField := hashFieldName }]

theorem numberedBlock_careful (number : Int) (hash : String) :
    BlockFirst (numberedBlock number hash) ∧ WellPlaced (numberedBlock number hash) :=
  ⟨⟨by simp [numberedBlock], by simp [numberedBlock], by simp [numberedBlock]⟩,
    by simp [numberedBlock], rfl⟩

def keepOne : PrunerConfig := ⟨1, 0, Int.one_pos⟩

/-- Two blocks are stored and signed, and the first one is rolled back. -/
def reorgMoves : List (CustodyMove Unit) :=
  [.handle (.store willing none () (numberedBlock 5 "0xb5")),
    .handle (.store willing none () (numberedBlock 6 "0xa6")),
    .prune (.rollbackBlocks 5 5 (AList.insert (5 : Int) "0xa5" ∅) 10)]

def reorgState : PruneState :=
  reorgMoves.foldl (fun state move => move.effect keepOne heightHandler state)
    (.opened .empty "prune_queue.gob")

theorem reorgState_reached :
    ((custodySystem Unit keepOne heightHandler).restrict (Careful keepOne heightHandler)).Path
      (.opened .empty "prune_queue.gob") reorgState := by
  have bare : ∀ move ∈ reorgMoves, ∀ stored, move ≠ .prune (.store stored) := by
    simp [reorgMoves]
  have leads : ((custodySystem Unit keepOne heightHandler).restrict
      (Careful keepOne heightHandler)).Leads reorgMoves (.opened .empty "prune_queue.gob")
        reorgState :=
    ⟨⟨bare _ (by simp [reorgMoves]), numberedBlock_careful 5 "0xb5"⟩,
      ⟨bare _ (by simp [reorgMoves]), numberedBlock_careful 6 "0xa6"⟩,
      ⟨bare _ (by simp [reorgMoves]), trivial⟩, rfl⟩
  exact leads.path

/-- The hidden block goes with its entry. -/
theorem rolled_back_block_purged :
    let after := runCycles keepOne heightHandler reorgState [(.quiet, .insertion)]
    reorgState.db.deleted.map (·.height?) = [some 5, some 5] ∧
      (after.db.visible.map (·.height?), after.db.deleted) = ([some 6, some 6], []) ∧
      (after.queue.entries.length : Int) = 1 ∧
      ∀ doc, after.db.Holds doc → Tracked heightHandler after.queue doc := by
  have two : reorgState.queue.entries.length = 2 := by decide +kernel
  have catches : CatchesUp keepOne reorgState.queue.entries.length
      [(PruneEnvironment.quiet, EntrySorter.insertion)].length := by
    rw [two]
    decide
  obtain ⟨length, _, held⟩ := committed_documents_bounded heightHandler_canonical (by decide)
    reorgState_reached (by simp [PruneEnvironment.Purges, PruneEnvironment.quiet]) catches
  refine ⟨by decide +kernel, by decide +kernel, ?_, fun doc present => ?_⟩
  · rw [two] at length
    exact length
  · refine (held doc present).resolve_left ?_
    simp [SoftStore.Holds, SoftStore.empty]

end ShinzoGenerator.Pruner
