import Mathlib.Data.List.Nodup
import Mathlib.Tactic.Tauto

/-! A store of content-addressed documents. A document is its own identity:
adding content that is already visible is refused, and a soft delete hides a
document without forgetting it, so deleted content is refused as well. -/

set_option autoImplicit false

universe u

/-- The visible documents are distinct and none of them is deleted. -/
structure SoftStore (α : Type u) where
  visible : List α
  deleted : List α
  nodup : visible.Nodup
  separate : ∀ doc ∈ visible, doc ∉ deleted

namespace SoftStore

inductive AddError where
  | alreadyExists
  | deleted
deriving DecidableEq

variable {α : Type u}

def empty : SoftStore α := ⟨[], [], .nil, by simp⟩

/-- The content was added at some time, deleted or not. -/
def Holds (store : SoftStore α) (doc : α) : Prop :=
  doc ∈ store.visible ∨ doc ∈ store.deleted

section Adding

variable [DecidableEq α]

def add (store : SoftStore α) (doc : α) : Except AddError (SoftStore α) :=
  if seen : doc ∈ store.visible then .error .alreadyExists
  else if gone : doc ∈ store.deleted then .error .deleted
  else .ok
    { visible := store.visible ++ [doc]
      deleted := store.deleted
      nodup := by
        refine List.nodup_append.mpr ⟨store.nodup, by simp, ?_⟩
        intro other member added singleton same
        rw [List.mem_singleton.mp singleton] at same
        exact seen (same ▸ member)
      separate := by
        intro other member
        rcases List.mem_append.mp member with old | new
        · exact store.separate other old
        · rw [List.mem_singleton.mp new]
          exact gone }

/-- One transaction: either every document is added or the store is unchanged. -/
def addAll (store : SoftStore α) : List α → Except AddError (SoftStore α)
  | [] => .ok store
  | doc :: docs =>
      match store.add doc with
      | .error error => .error error
      | .ok next => next.addAll docs

theorem add_ok_visible {store next : SoftStore α} {doc : α} (added : store.add doc = .ok next) :
    next.visible = store.visible ++ [doc] := by
  unfold add at added
  split at added
  · cases added
  · split at added
    · cases added
    · cases added
      rfl

theorem add_ok_deleted {store next : SoftStore α} {doc : α} (added : store.add doc = .ok next) :
    next.deleted = store.deleted := by
  unfold add at added
  split at added
  · cases added
  · split at added
    · cases added
    · cases added
      rfl

theorem add_ok_fresh {store next : SoftStore α} {doc : α} (added : store.add doc = .ok next) :
    doc ∉ store.visible ∧ doc ∉ store.deleted := by
  unfold add at added
  split at added
  · cases added
  · rename_i unseen
    split at added
    · cases added
    · rename_i kept
      exact ⟨unseen, kept⟩

theorem add_alreadyExists_iff {store : SoftStore α} {doc : α} :
    store.add doc = .error .alreadyExists ↔ doc ∈ store.visible := by
  unfold add
  split
  · rename_i seen
    simp [seen]
  · rename_i unseen
    split <;> simp [unseen]

theorem add_deleted_iff {store : SoftStore α} {doc : α} :
    store.add doc = .error .deleted ↔ doc ∈ store.deleted := by
  unfold add
  split
  · rename_i seen
    simpa using store.separate doc seen
  · split
    · rename_i gone
      simp [gone]
    · rename_i kept
      simp [kept]

/-- Only new content can be added. -/
theorem add_ok_of_not_holds {store : SoftStore α} {doc : α} (fresh : ¬ store.Holds doc) :
    ∃ next, store.add doc = .ok next ∧
      ∀ other, next.Holds other ↔ store.Holds other ∨ other = doc := by
  rw [Holds, not_or] at fresh
  cases added : store.add doc with
  | error error =>
      cases error with
      | alreadyExists => exact absurd (add_alreadyExists_iff.mp added) fresh.1
      | deleted => exact absurd (add_deleted_iff.mp added) fresh.2
  | ok next =>
      refine ⟨next, rfl, fun other => ?_⟩
      simp only [Holds, add_ok_visible added, add_ok_deleted added, List.mem_append,
        List.mem_singleton]
      tauto

theorem addAll_ok_visible {store next : SoftStore α} {docs : List α}
    (added : store.addAll docs = .ok next) : next.visible = store.visible ++ docs := by
  induction docs generalizing store with
  | nil =>
      simp only [addAll, Except.ok.injEq] at added
      simp [added]
  | cons doc docs ih =>
      simp only [addAll] at added
      cases first : store.add doc with
      | error error => simp [first] at added
      | ok middle =>
          simp only [first] at added
          rw [ih added, add_ok_visible first, List.append_assoc, List.singleton_append]

/-- Reached by adding documents of one kind. -/
inductive Adds (allowed : α → Prop) (start : SoftStore α) : SoftStore α → Prop
  | refl : Adds allowed start start
  | add {store next : SoftStore α} {doc : α} : Adds allowed start store → allowed doc →
      store.add doc = .ok next → Adds allowed start next

variable {allowed : α → Prop} {start middle finish : SoftStore α}

theorem Adds.trans (first : Adds allowed start middle) (second : Adds allowed middle finish) :
    Adds allowed start finish := by
  induction second with
  | refl => exact first
  | add _ kind added ih => exact .add ih kind added

theorem Adds.mono {wider : α → Prop} (adds : Adds allowed start finish)
    (weaker : ∀ doc, allowed doc → wider doc) : Adds wider start finish := by
  induction adds with
  | refl => exact .refl
  | add _ kind added ih => exact .add ih (weaker _ kind) added

theorem Adds.visible (adds : Adds allowed start finish) : start.visible ⊆ finish.visible := by
  induction adds with
  | refl => exact fun _ member => member
  | add _ _ added ih =>
      rw [add_ok_visible added]
      exact fun _ member => List.mem_append_left _ (ih member)

theorem Adds.deleted (adds : Adds allowed start finish) : finish.deleted = start.deleted := by
  induction adds with
  | refl => rfl
  | add _ _ added ih => rw [add_ok_deleted added, ih]

/-- The additions stand behind what was visible before. -/
theorem Adds.appended (adds : Adds allowed start finish) :
    ∃ docs, finish.visible = start.visible ++ docs ∧ ∀ doc ∈ docs, allowed doc := by
  induction adds with
  | refl => exact ⟨[], (List.append_nil _).symm, by simp⟩
  | @add store next doc _ kind added ih =>
      obtain ⟨docs, visible, kinds⟩ := ih
      refine ⟨docs ++ [doc], ?_, ?_⟩
      · rw [add_ok_visible added, visible, List.append_assoc]
      · intro other member
        rcases List.mem_append.mp member with old | new
        · exact kinds other old
        · rwa [List.mem_singleton.mp new]

/-- The additions are of a kind if all that became visible is. -/
theorem Adds.of_visible {wanted : α → Prop} (adds : Adds allowed start finish)
    (new : ∀ doc ∈ finish.visible, doc ∈ start.visible ∨ wanted doc) : Adds wanted start finish := by
  induction adds with
  | refl => exact .refl
  | @add store next doc before _ added ih =>
      rw [add_ok_visible added] at new
      refine .add (ih fun other member => new other (List.mem_append_left _ member)) ?_ added
      rcases new doc (List.mem_append_right _ (List.mem_singleton_self doc)) with old | kind
      · exact absurd (before.visible old) (add_ok_fresh added).1
      · exact kind

theorem Adds.and {other : α → Prop} (adds : Adds allowed start finish)
    (too : Adds other start finish) : Adds (fun doc => allowed doc ∧ other doc) start finish := by
  obtain ⟨docs, visible, kinds⟩ := adds.appended
  obtain ⟨same, again, others⟩ := too.appended
  rw [visible, List.append_cancel_left_eq] at again
  subst again
  refine adds.of_visible fun doc member => ?_
  rw [visible, List.mem_append] at member
  exact member.imp_right fun new => ⟨kinds doc new, others doc new⟩

/-- What is held after some additions was held before or is of their kind. -/
theorem Adds.holds_cases (adds : Adds allowed start finish) {doc : α} (held : finish.Holds doc) :
    start.Holds doc ∨ allowed doc := by
  induction adds with
  | refl => exact .inl held
  | @add store next added _ kind ok ih =>
      rw [Holds, add_ok_visible ok, add_ok_deleted ok, List.mem_append, List.mem_singleton] at held
      rcases held with (old | rfl) | gone
      · exact ih (.inl old)
      · exact .inr kind
      · exact ih (.inr gone)

theorem adds_addAll {store next : SoftStore α} {docs : List α} (kind : ∀ doc ∈ docs, allowed doc)
    (added : store.addAll docs = .ok next) : Adds allowed store next := by
  induction docs generalizing store with
  | nil =>
      simp only [addAll, Except.ok.injEq] at added
      exact added ▸ .refl
  | cons doc docs ih =>
      simp only [addAll] at added
      cases first : store.add doc with
      | error error => simp [first] at added
      | ok after =>
          simp only [first] at added
          exact (Adds.add .refl (kind doc (.head _)) first).trans
            (ih (fun other member => kind other (.tail _ member)) added)

theorem holds_addAll {store next : SoftStore α} {docs : List α} {doc : α}
    (added : store.addAll docs = .ok next) (held : next.Holds doc) : store.Holds doc ∨ doc ∈ docs :=
  (adds_addAll (fun _ member => member) added).holds_cases held

end Adding

/-- Hides the documents that `selected` picks. -/
def softDelete (store : SoftStore α) (selected : α → Bool) : SoftStore α where
  visible := store.visible.filter (fun doc => !selected doc)
  deleted := store.visible.filter selected ++ store.deleted
  nodup := store.nodup.filter _
  separate := by
    intro doc member
    obtain ⟨old, kept⟩ := List.mem_filter.mp member
    rw [List.mem_append, not_or]
    refine ⟨?_, store.separate doc old⟩
    intro hidden
    simp [(List.mem_filter.mp hidden).2] at kept

/-- Forgets the documents that `selected` picks, deleted ones included. -/
def purge (store : SoftStore α) (selected : α → Bool) : SoftStore α where
  visible := store.visible.filter (fun doc => !selected doc)
  deleted := store.deleted.filter (fun doc => !selected doc)
  nodup := store.nodup.filter _
  separate := by
    intro doc member hidden
    exact store.separate doc (List.mem_of_mem_filter member) (List.mem_of_mem_filter hidden)

@[simp] theorem mem_purge {store : SoftStore α} {selected : α → Bool} {doc : α} :
    doc ∈ (store.purge selected).visible ↔ doc ∈ store.visible ∧ selected doc = false := by
  simp [purge]

theorem purge_purge (store : SoftStore α) (first second : α → Bool) :
    (store.purge first).purge second = store.purge fun doc => first doc || second doc := by
  have filtered : ∀ docs : List α,
      (docs.filter fun doc => !first doc).filter (fun doc => !second doc) =
        docs.filter fun doc => !(first doc || second doc) := by
    intro docs
    rw [List.filter_filter]
    exact List.filter_congr fun doc _ => by rw [Bool.not_or, Bool.and_comm]
  simp only [purge, filtered]

theorem purge_none (store : SoftStore α) : (store.purge fun _ => false) = store := by
  simp [purge]

theorem holds_purge {store : SoftStore α} {selected : α → Bool} {doc : α} :
    (store.purge selected).Holds doc ↔ store.Holds doc ∧ selected doc = false := by
  simp [Holds, purge, or_and_right]

theorem holds_softDelete {store : SoftStore α} {selected : α → Bool} {doc : α} :
    (store.softDelete selected).Holds doc ↔ store.Holds doc := by
  cases hidden : selected doc <;> simp [Holds, softDelete, hidden]

end SoftStore
