import ShinzoGenerator.Defra.SignExisting
import ShinzoGenerator.Pruner.PruneRuns
import ShinzoGenerator.Pruner.QueueConservation

/-! The block handler with the prune-queue tracker attached, over sequences of `Store`
and `SignExisting` calls: which of the documents they commit the queue knows. -/

set_option autoImplicit false

namespace ShinzoGenerator.Pruner

open Chains Defra KeyedLists

variable {σ : Type} {handler : BlockHandler}

/-! ### The tracker -/

/-- The map of docIDs by collection name, filled group by group. -/
def BlockCreationResult.docIDsByName (handler : BlockHandler) (created : BlockCreationResult) :
    AList (fun _ : String => List String) :=
  created.otherDocIDs.foldl
    (fun groups entry => append groups (handler.collectionName entry.1) entry.2) ∅

/-- `TrackBlock` of the queue's tracker; a failure is only logged. -/
def trackCreated (handler : BlockHandler) (created : BlockCreationResult) (queue : IndexerQueue) :
    IndexerQueue :=
  match queue.trackBlockDocIDs created.blockNumber created.blockID
      (BlockCreationResult.docIDsByName handler created) created.blockSignatureID with
  | .ok next => next
  | .error _ => queue

/-! ### Calls -/

structure TrackedStore where
  db : DB
  queue : IndexerQueue := {}

/-- A call of the handler, with what it meets. -/
inductive HandlerCall (σ : Type) where
  | store (env : Environment) (stamper : Option (LinkStamper σ)) (links : σ)
      (converted : ConversionResult)
  | signExisting (env : Environment) (source : CIDSource) (converted : ConversionResult)
      (blockHash : String) (blockNumber : Int)

/-- A `Store` call tracks its result, if it has one; `SignExisting` tracks nothing. -/
def HandlerCall.effect (handler : BlockHandler) (state : TrackedStore) :
    HandlerCall σ → TrackedStore
  | .store env stamper links converted =>
      let reply := Defra.store env handler stamper converted { db := state.db, links }
      { db := reply.session.db
        queue := reply.created.elim state.queue (trackCreated handler · state.queue) }
  | .signExisting env source converted blockHash blockNumber =>
      { state with
        db := ((Defra.signExisting env source handler converted blockHash blockNumber).run
          { db := state.db, links := () }).2.db }

/-- Any call may follow any other. -/
def handlerSystem (handler : BlockHandler) : GuardedSystem TrackedStore (HandlerCall σ) where
  enabled _ _ := True
  effect state call := call.effect handler state

/-- Some entry of the queue names the document under its own collection. -/
def Tracked (handler : BlockHandler) (queue : IndexerQueue) (doc : Doc) : Prop :=
  ∃ entry ∈ queue.entries, purgeKey handler doc ∈ entry.docs (collectionNames handler)

/-! ### What a `Store` call tracks -/

theorem pairs_docIDsByName (created : BlockCreationResult) :
    pairs id (BlockCreationResult.docIDsByName handler created) =
      (created.otherDocIDs.map fun entry =>
        pairsAt (handler.collectionName entry.1) entry.2).sum := by
  have folded : ∀ (entries : List (Collection × List String))
      (groups : AList (fun _ : String => List String)),
      pairs id (entries.foldl
          (fun groups entry => append groups (handler.collectionName entry.1) entry.2) groups) =
        pairs id groups +
          (entries.map fun entry => pairsAt (handler.collectionName entry.1) entry.2).sum := by
    intro entries
    induction entries with
    | nil => exact fun groups => (add_zero _).symm
    | cons entry entries ih =>
        intro groups
        rw [List.foldl_cons, ih, pairs_append, List.map_cons, List.sum_cons, add_assoc]
  rw [BlockCreationResult.docIDsByName, folded, pairs_empty, zero_add]

theorem mem_docIDsByName {created : BlockCreationResult} {name docID : String} :
    (name, docID) ∈ pairs id (BlockCreationResult.docIDsByName handler created) ↔
      ∃ entry ∈ created.otherDocIDs, handler.collectionName entry.1 = name ∧ docID ∈ entry.2 := by
  rw [pairs_docIDsByName, mem_sum]
  constructor
  · rintro ⟨_, listed, member⟩
    obtain ⟨entry, present, rfl⟩ := List.mem_map.mp listed
    obtain ⟨same, inside⟩ := mem_pairsAt.mp member
    exact ⟨entry, present, same.symm, inside⟩
  · rintro ⟨entry, present, same, inside⟩
    exact ⟨_, List.mem_map_of_mem present, mem_pairsAt.mpr ⟨same.symm, inside⟩⟩

theorem mem_trackedDocs {names : CollectionNames} {blockDocID batchSigID : String}
    {otherDocIDs : AList (fun _ : String => List String)} {pair : String × String} :
    pair ∈ trackedDocs names blockDocID otherDocIDs batchSigID ↔
      pair = (names.block, blockDocID) ∨ pair ∈ pairs id otherDocIDs ∨
        batchSigID ≠ "" ∧ pair = (names.blockSignature, batchSigID) := by
  rw [trackedDocs, Multiset.mem_add, Multiset.mem_add, Multiset.mem_singleton, or_assoc]
  by_cases signed : batchSigID ≠ "" <;> simp [signed]

/-- Canonical docIDs always make an entry. -/
theorem trackCreated_entries (handler : BlockHandler) {created : BlockCreationResult}
    (queue : IndexerQueue)
    (block : CanonicalDocID created.blockID)
    (others : ∀ entry ∈ created.otherDocIDs, ∀ docID ∈ entry.2, CanonicalDocID docID)
    (signature : created.blockSignatureID = "" ∨ CanonicalDocID created.blockSignatureID) :
    ∃ entry, entry.docs (collectionNames handler) = trackedDocs (collectionNames handler)
        created.blockID (BlockCreationResult.docIDsByName handler created)
        created.blockSignatureID ∧
      trackCreated handler created queue = { queue with entries := queue.entries ++ [entry] } := by
  have canonical : ∀ entry ∈ (BlockCreationResult.docIDsByName handler created).entries,
      ∀ docID ∈ entry.2, CanonicalDocID docID := by
    intro entry member docID listed
    obtain ⟨group, present, _, inside⟩ := mem_docIDsByName.mp
      (mem_pairs.mpr ⟨entry.2, member, listed⟩)
    exact others group present docID inside
  obtain ⟨entry, built, docs, _⟩ := newEntry_tracks (collectionNames handler) created.blockNumber
    block canonical signature
  refine ⟨entry, docs, ?_⟩
  rw [trackCreated, IndexerQueue.trackBlockDocIDs, built]
  rfl

/-- The first group is of the block collection, and the signature of its own. -/
structure WellPlaced (converted : ConversionResult) : Prop where
  block : ∀ group ∈ converted.groups.head?, group.collection = .block
  signature : converted.signatureCollection = .blockSignature

theorem WellPlaced.restamped {stamper : Option (LinkStamper σ)} {converted : ConversionResult}
    {groups : List DocumentGroup} (placed : WellPlaced converted)
    (same : List.Forall₂ (Restamped stamper) converted.groups groups) :
    ∀ group ∈ groups.head?, group.collection = .block := by
  have block := placed.block
  cases grouped : converted.groups with
  | nil =>
      rw [grouped, List.forall₂_nil_left_iff] at same
      simp [same]
  | cons blockGroup others =>
      rw [grouped] at same block
      cases same with
      | cons restamped _ =>
          intro group first
          cases first
          rw [restamped.shape.1]
          exact block blockGroup rfl

/-- Whatever a `Store` call commits, on success and on every failure, it tracks. -/
theorem store_tracks (canonical : ∀ doc, CanonicalDocID (handler.docID doc)) (env : Environment)
    (stamper : Option (LinkStamper σ)) (links : σ) {converted : ConversionResult}
    (placed : WellPlaced converted) (state : TrackedStore) :
    let after := (HandlerCall.store env stamper links converted).effect handler state
    (∀ entry ∈ state.queue.entries, entry ∈ after.queue.entries) ∧
      ∀ doc ∈ after.db.visible, doc ∉ state.db.visible → Tracked handler after.queue doc := by
  have first := placed.restamped (store_restamped env handler stamper converted
    { db := state.db, links })
  obtain ⟨committed, signatures, account⟩ := store_account env handler stamper converted
    { db := state.db, links }
  unfold HandlerCall.effect
  dsimp only
  generalize Defra.store env handler stamper converted { db := state.db, links } = reply
    at account first ⊢
  cases reported : reply.created with
  | none =>
      obtain ⟨nothing, unsigned⟩ := account.unreported reported
      refine ⟨fun _ member => member, fun doc present fresh => absurd ?_ fresh⟩
      simpa [account.visible, nothing, unsigned] using present
  | some created =>
      have named := account.named created reported
      obtain ⟨collection, signing⟩ := account.signed created reported
      have known : ∀ docID ∈ created.blockID :: created.otherDocIDs.flatMap (·.2),
          CanonicalDocID docID := by
        intro docID member
        rw [named] at member
        obtain ⟨doc, _, rfl⟩ := List.mem_map.mp member
        exact canonical doc
      have signature : created.blockSignatureID = "" ∨
          CanonicalDocID created.blockSignatureID := by
        rcases signing with ⟨unsigned, _⟩ | ⟨doc, _, same, _⟩
        · exact .inl unsigned
        · exact .inr (same ▸ canonical doc)
      obtain ⟨entry, docs, tracked⟩ := trackCreated_entries handler state.queue
        (known _ (.head _)) (fun entry member docID inside => known docID
          (.tail _ (List.mem_flatMap.mpr ⟨entry, member, inside⟩))) signature
      simp only [Option.elim_some, tracked]
      refine ⟨fun _ member => List.mem_append_left _ member, fun doc present fresh => ?_⟩
      refine ⟨entry, List.mem_append_right _ (.head _), ?_⟩
      rw [docs, mem_trackedDocs, purgeKey]
      rw [account.visible, List.append_assoc] at present
      rcases List.mem_append.mp present with old | new
      · exact absurd old fresh
      · rcases List.mem_append.mp new with written | signed
        · rcases account.listed created reported doc written with ⟨isBlock, head⟩ | ⟨other, listed⟩
          · obtain ⟨group, atHead, own⟩ := Option.map_eq_some_iff.mp head
            rw [← own, first group atHead, isBlock]
            exact .inl rfl
          · rw [mem_docIDsByName]
            exact .inr (.inl ⟨other, listed.1, congrArg _ listed.2.1, listed.2.2⟩)
        · rcases signing with ⟨_, none⟩ | ⟨made, one, same, _, attests⟩
          · simp [none] at signed
          · rw [one, List.mem_singleton] at signed
            rw [signed, same, attests.placed, placed.signature]
            exact .inr (.inr ⟨(canonical made).nonempty, rfl⟩)

/-! ### Runs -/

/-- The call can make no signature: some count is not met, no attempt gets enough CIDs, or
the signer refuses. -/
def Unsignable (handler : BlockHandler) (db : DB) (env : Environment) (source : CIDSource)
    (converted : ConversionResult) (blockNumber : Int) : Prop :=
  ¬ CountsMet db converted.groups blockNumber ∨
    (∀ attempt < maxCIDRetries, ¬ FirstEnough source handler db
      (foundDocIDs handler db converted.groups blockNumber)
      (converted.groups.map (·.collection)) attempt) ∨
    ∀ call cids, env.sign call cids = none

theorem Unsignable.unchanged {env : Environment} {source : CIDSource}
    {converted : ConversionResult} {blockNumber : Int} (session : Session σ)
    (refused : Unsignable handler session.db env source converted blockNumber)
    (blockHash : String) :
    ((signExisting env source handler converted blockHash blockNumber).run session).2.db =
      session.db := by
  have ensures : (signExisting env source handler converted blockHash blockNumber).Ensures
      session _ _ := signExisting_ensures converted blockHash session
  rcases ran : (signExisting env source handler converted blockHash blockNumber).run session
    with ⟨error | id, after⟩
  · exact ensures.of_error ran
  · obtain ⟨met, attempt, bound, first, _, ⟨call, fields, _, _, signs, _⟩, _⟩ := ensures.of_ok ran
    rcases refused with short | never | refuses
    · exact absurd met short
    · exact absurd first (never attempt bound)
    · rw [refuses] at signs
      cases signs

/-- The conversion results are placed as converters place them, and no signature comes
from `SignExisting`. -/
def SignsInline (handler : BlockHandler) (state : TrackedStore) : HandlerCall σ → Prop
  | .store _ _ _ converted => WellPlaced converted
  | .signExisting env source converted _ blockNumber =>
      Unsignable handler state.db env source converted blockNumber

/-- Everything that was committed since the start is tracked. -/
def CommitsTracked (handler : BlockHandler) (start state : TrackedStore) : Prop :=
  ∀ doc ∈ state.db.visible, doc ∉ start.db.visible → Tracked handler state.queue doc

instance (handler : BlockHandler) (start state : TrackedStore) :
    Decidable (CommitsTracked handler start state) :=
  inferInstanceAs (Decidable (∀ doc ∈ state.db.visible, doc ∉ start.db.visible →
    ∃ entry ∈ state.queue.entries, purgeKey handler doc ∈ entry.docs (collectionNames handler)))

theorem commitsTracked_step (canonical : ∀ doc, CanonicalDocID (handler.docID doc))
    {start state : TrackedStore} {call : HandlerCall σ}
    (tracked : CommitsTracked handler start state) (inline : SignsInline handler state call) :
    CommitsTracked handler start (call.effect handler state) := by
  cases call with
  | store env stamper links converted =>
      obtain ⟨keeps, tracks⟩ := store_tracks canonical env stamper links inline state
      intro doc present fresh
      by_cases before : doc ∈ state.db.visible
      · obtain ⟨entry, member, names⟩ := tracked doc before fresh
        exact ⟨entry, keeps entry member, names⟩
      · exact tracks doc present before
  | signExisting env source converted blockHash blockNumber =>
      have same := Unsignable.unchanged { db := state.db, links := () } inline blockHash
      intro doc present fresh
      refine tracked doc ?_ fresh
      simpa only [HandlerCall.effect, same] using present

/-- In every run without a signature from `SignExisting`, what the calls commit is in the
queue under its own collection. -/
theorem commits_tracked (handler : BlockHandler)
    (canonical : ∀ doc, CanonicalDocID (handler.docID doc)) {start state : TrackedStore}
    (run : ((handlerSystem handler : GuardedSystem TrackedStore (HandlerCall σ)).restrict
      (SignsInline handler)).Path start state) :
    CommitsTracked handler start state :=
  run.invariant (fun _ present fresh => absurd present fresh)
    fun _ _ tracked enabled => commitsTracked_step canonical tracked enabled.2

/-! ### A signature that comes later -/

/-- Canonical docIDs, one for each collection. -/
def digitHandler : BlockHandler :=
  { labelHandler with
    docID := fun doc =>
      match doc.collection with
      | .block => sampleDocID '1'
      | .transaction => sampleDocID '2'
      | _ => sampleDocID '3' }

theorem digitHandler_canonical (doc : Doc) : CanonicalDocID (digitHandler.docID doc) := by
  cases collection : doc.collection <;> simp only [digitHandler, collection] <;>
    exact sampleDocID_canonical (by decide)

/-- There is no signing identity. -/
def unidentified : Environment := { willing with sign := fun _ _ => none }

def storeUnsigned : HandlerCall Unit := .store unidentified none () blockAndTransaction

/-- The block comes again. -/
def signLater (env : Environment) : HandlerCall Unit :=
  .signExisting env
    (oneVersionEach childlessBlock
      ⟨.transaction, [(blockNumberFieldName, .int64 5), (hashFieldName, .string "0xb1")]⟩)
    blockAndTransaction "0xb5" 5

def storedThenSigned : TrackedStore :=
  (handlerSystem digitHandler).effect
    ((handlerSystem digitHandler).effect { db := .empty } storeUnsigned) (signLater willing)

/-- The signature is committed, and no entry of the queue names it. -/
theorem later_signature_untracked :
    (handlerSystem digitHandler : GuardedSystem TrackedStore (HandlerCall Unit)).Path
        { db := .empty } storedThenSigned ∧
      storedThenSigned.db.visible.map (·.collection) = [.block, .transaction, .blockSignature] ∧
      ¬ CommitsTracked digitHandler { db := .empty } storedThenSigned := by
  refine ⟨?_, by decide +kernel, by decide +kernel⟩
  exact .step (.step .refl trivial) trivial

/-- A `Store` call that signs. -/
def storeSigned : HandlerCall Unit := .store willing none () blockAndTransaction

def storedSigned : TrackedStore :=
  let system := (handlerSystem digitHandler).restrict (SignsInline digitHandler)
  system.effect (system.effect { db := .empty } storeSigned) (signLater unidentified)

theorem signed_store_tracked :
    storedSigned.db.visible.map (·.collection) = [.block, .transaction, .blockSignature] ∧
      CommitsTracked digitHandler { db := .empty } storedSigned := by
  have placed : SignsInline digitHandler { db := .empty } storeSigned := ⟨by decide, rfl⟩
  have refused : ∀ state, SignsInline digitHandler state (signLater unidentified) :=
    fun _ => .inr (.inr fun _ _ => rfl)
  exact ⟨by decide +kernel, commits_tracked digitHandler digitHandler_canonical
    (.step (.step .refl ⟨trivial, placed⟩) ⟨trivial, refused _⟩)⟩

end ShinzoGenerator.Pruner
