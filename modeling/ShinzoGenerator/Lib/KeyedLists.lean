import Mathlib.Algebra.Order.Group.Multiset
import Mathlib.Data.List.AList

/-! Maps from keys to collections of items, read as the multiset of their
(key, item) pairs. The items of a value are given by a view, so that packed values
can be compared with unpacked ones. -/

set_option autoImplicit false

universe u v w

namespace KeyedLists

variable {κ : Type u} {β : Type v} {α : Type w}

/-- The items of one value, under its key. -/
def pairsAt (key : κ) (items : List α) : Multiset (κ × α) := ↑(items.map (key, ·))

def pairs (view : β → List α) (groups : AList (fun _ : κ => β)) : Multiset (κ × α) :=
  ↑(groups.entries.flatMap fun entry => (view entry.2).map (entry.1, ·))

theorem pairs_empty (view : β → List α) : pairs view (∅ : AList (fun _ : κ => β)) = 0 := rfl

@[simp] theorem pairsAt_nil (key : κ) : pairsAt key ([] : List α) = 0 := rfl

theorem pairsAt_singleton (key : κ) (item : α) : pairsAt key [item] = {(key, item)} := rfl

theorem pairsAt_append (key : κ) (first second : List α) :
    pairsAt key (first ++ second) = pairsAt key first + pairsAt key second := by
  simp only [pairsAt, List.map_append, Multiset.coe_add]

theorem mem_pairsAt {key other : κ} {item : α} {items : List α} :
    (other, item) ∈ pairsAt key items ↔ other = key ∧ item ∈ items := by
  simp [pairsAt, eq_comm, and_comm]

theorem mem_pairs {view : β → List α} {groups : AList (fun _ : κ => β)} {key : κ} {item : α} :
    (key, item) ∈ pairs view groups ↔ ∃ value, ⟨key, value⟩ ∈ groups.entries ∧ item ∈ view value := by
  rw [pairs, Multiset.mem_coe, List.mem_flatMap]
  constructor
  · rintro ⟨⟨other, value⟩, member, listed⟩
    obtain ⟨_, viewed, same⟩ := List.mem_map.mp listed
    cases same
    exact ⟨value, member, viewed⟩
  · rintro ⟨value, member, viewed⟩
    exact ⟨⟨key, value⟩, member, List.mem_map.mpr ⟨item, viewed, rfl⟩⟩

theorem mem_sum {bags : List (Multiset α)} {item : α} :
    item ∈ bags.sum ↔ ∃ bag ∈ bags, item ∈ bag := by
  induction bags with
  | nil => simp
  | cons bag bags ih => simp [ih]

section Updating

variable [DecidableEq κ] {view : β → List α} {groups : AList (fun _ : κ => β)} {key : κ}

theorem pairs_insert (groups : AList (fun _ : κ => β)) (key : κ) (value : β) :
    pairs view (groups.insert key value) =
      pairsAt key (view value) + pairs view (groups.erase key) := by
  simp only [pairs, AList.entries_insert, List.flatMap_cons, pairsAt, Multiset.coe_add]
  rfl

theorem erase_of_notMem (absent : key ∉ groups) : groups.erase key = groups :=
  AList.ext (List.kerase_of_notMem_keys absent)

theorem pairs_insert_fresh (absent : key ∉ groups) (value : β) :
    pairs view (groups.insert key value) = pairsAt key (view value) + pairs view groups := by
  rw [pairs_insert, erase_of_notMem absent]

/-- The pairs of a present key, and those of the other keys. -/
theorem pairs_of_lookup {value : β} (found : groups.lookup key = some value) :
    pairs view groups = pairsAt key (view value) + pairs view (groups.erase key) := by
  have present : (⟨key, value⟩ : Sigma fun _ : κ => β) ∈ groups.entries :=
    AList.mem_lookup_iff.mp found
  obtain ⟨other, before, after, _, split, erased⟩ :=
    List.exists_of_kerase (List.mem_keys_of_mem present)
  have same : other = value := by
    have otherMember : (⟨key, other⟩ : Sigma fun _ : κ => β) ∈ groups.entries := by
      rw [split]
      exact List.mem_append_right _ List.mem_cons_self
    have otherFound := AList.mem_lookup_iff.mpr otherMember
    exact Option.some.inj (otherFound.symm.trans found)
  have rest : (groups.erase key).entries = before ++ after := erased
  simp only [pairs, pairsAt, rest, split, same, List.flatMap_append, List.flatMap_cons,
    ← Multiset.coe_add]
  exact add_left_comm _ _ _

theorem mem_pairs_id {groups : AList (fun _ : κ => List α)} {item : α} :
    (key, item) ∈ pairs id groups ↔ item ∈ (groups.lookup key).getD [] := by
  rw [mem_pairs]
  constructor
  · rintro ⟨items, member, viewed⟩
    rw [AList.mem_lookup_iff.mpr member]
    exact viewed
  · intro listed
    cases found : groups.lookup key with
    | none => simp [found] at listed
    | some items =>
        rw [found] at listed
        exact ⟨items, AList.mem_lookup_iff.mp found, listed⟩

/-- Appends items under a key, as a map of lists is filled. -/
def append (groups : AList (fun _ : κ => List α)) (key : κ) (items : List α) :
    AList (fun _ : κ => List α) :=
  groups.insert key ((groups.lookup key).getD [] ++ items)

theorem pairs_append (groups : AList (fun _ : κ => List α)) (key : κ) (items : List α) :
    pairs id (append groups key items) = pairs id groups + pairsAt key items := by
  cases found : groups.lookup key with
  | none =>
      have absent : key ∉ groups := AList.lookup_eq_none.mp found
      rw [append, found, pairs_insert_fresh absent, add_comm]
      rfl
  | some old =>
      rw [append, found, pairs_insert, pairs_of_lookup found, id_eq, Option.getD_some,
        pairsAt_append, id_eq]
      exact add_right_comm _ _ _

theorem mem_append {groups : AList (fun _ : κ => List α)} {items : List α} {other : κ} :
    other ∈ append groups key items ↔ other = key ∨ other ∈ groups := by
  rw [append, AList.mem_insert]

end Updating

end KeyedLists
