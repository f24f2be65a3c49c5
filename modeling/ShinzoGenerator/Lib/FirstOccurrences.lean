import Mathlib.Data.List.Nodup

/-! Going through a list and keeping what has a key that was not seen before. -/

set_option autoImplicit false

universe u v

namespace FirstOccurrences

variable {α : Type u} {κ : Type v} [DecidableEq κ] {key : α → κ} {seen : List κ} {items : List α}

/-- The items whose key neither is in `seen` nor belongs to an earlier item. -/
def firsts (key : α → κ) : List κ → List α → List α
  | _, [] => []
  | seen, item :: items =>
      if key item ∈ seen then firsts key seen items
      else item :: firsts key (key item :: seen) items

theorem firsts_sublist (key : α → κ) (seen : List κ) (items : List α) :
    (firsts key seen items).Sublist items := by
  induction items generalizing seen with
  | nil => exact .slnil
  | cons item items ih =>
      unfold firsts
      split
      · exact (ih seen).cons item
      · exact (ih (key item :: seen)).cons_cons item

theorem unseen_of_mem_firsts {item : α} (member : item ∈ firsts key seen items) :
    key item ∉ seen := by
  induction items generalizing seen with
  | nil => cases member
  | cons first items ih =>
      unfold firsts at member
      split at member
      · exact ih member
      · rename_i fresh
        cases member with
        | head => exact fresh
        | tail _ later => exact fun old => ih later (List.mem_cons_of_mem _ old)

/-- No key is kept twice. -/
theorem nodup_map_firsts (key : α → κ) (seen : List κ) (items : List α) :
    ((firsts key seen items).map key).Nodup := by
  induction items generalizing seen with
  | nil => exact List.nodup_nil
  | cons item items ih =>
      unfold firsts
      split
      · exact ih seen
      · rw [List.map_cons, List.nodup_cons]
        refine ⟨?_, ih _⟩
        intro repeated
        obtain ⟨other, member, same⟩ := List.mem_map.mp repeated
        exact unseen_of_mem_firsts member (same ▸ List.mem_cons_self)

/-- Every key is kept unless it was seen before. -/
theorem exists_mem_firsts {item : α} (member : item ∈ items) (fresh : key item ∉ seen) :
    ∃ kept ∈ firsts key seen items, key kept = key item := by
  induction items generalizing seen with
  | nil => cases member
  | cons first items ih =>
      unfold firsts
      by_cases same : key first = key item
      · rw [same, if_neg fresh]
        exact ⟨first, List.mem_cons_self, same⟩
      · have later : item ∈ items := by
          cases member with
          | head => exact absurd rfl same
          | tail _ rest => exact rest
        split
        · exact ih later fresh
        · have unseen : key item ∉ key first :: seen := by
            rw [List.mem_cons, not_or]
            exact ⟨fun equal => same equal.symm, fresh⟩
          obtain ⟨kept, inside, equal⟩ := ih later unseen
          exact ⟨kept, List.mem_cons_of_mem _ inside, equal⟩

/-- What is kept stands in the order in which it first occurs. -/
theorem pairwise_idxOf_firsts [BEq α] [LawfulBEq α] (key : α → κ) (seen : List κ) (items : List α) :
    (firsts key seen items).Pairwise fun left right => items.idxOf left < items.idxOf right := by
  have shift : ∀ {first item : α} {seen : List κ} {items : List α}, key first ∈ seen →
      item ∈ firsts key seen items → (first :: items).idxOf item = items.idxOf item + 1 := by
    intro first item seen items old member
    refine List.idxOf_cons_ne _ ?_
    rintro rfl
    exact unseen_of_mem_firsts member old
  induction items generalizing seen with
  | nil => exact .nil
  | cons item items ih =>
      unfold firsts
      split
      · rename_i old
        refine (ih seen).imp_of_mem fun leftIn rightIn less => ?_
        rw [shift old leftIn, shift old rightIn]
        exact Nat.succ_lt_succ less
      · rw [List.pairwise_cons]
        constructor
        · intro other later
          rw [List.idxOf_cons_self, shift List.mem_cons_self later]
          exact Nat.succ_pos _
        · refine (ih _).imp_of_mem fun leftIn rightIn less => ?_
          rw [shift List.mem_cons_self leftIn, shift List.mem_cons_self rightIn]
          exact Nat.succ_lt_succ less

/-- With a key that tells the items apart, exactly the items are kept. -/
theorem mem_firsts_iff (apart : ∀ left ∈ items, ∀ right ∈ items, key left = key right →
    left = right) {item : α} : item ∈ firsts key [] items ↔ item ∈ items := by
  constructor
  · exact fun member => (firsts_sublist key [] items).subset member
  · intro member
    obtain ⟨kept, inside, same⟩ := exists_mem_firsts member (List.not_mem_nil (a := key item))
    rw [← apart kept ((firsts_sublist key [] items).subset inside) item member same]
    exact inside

/-- Keys that tell the items apart keep what is not repeated. -/
theorem firsts_map {β : Type u} [DecidableEq β] {item : β → α}
    (apart : Function.Injective (key ∘ item)) (seen items : List β) :
    firsts key (seen.map (key ∘ item)) (items.map item) = (firsts id seen items).map item := by
  induction items generalizing seen with
  | nil => rfl
  | cons first items ih =>
      have known : key (item first) ∈ seen.map (key ∘ item) ↔ first ∈ seen :=
        List.mem_map_of_injective apart
      rw [List.map_cons]
      unfold firsts
      by_cases old : first ∈ seen
      · rw [if_pos (known.mpr old), if_pos (show id first ∈ seen from old)]
        exact ih seen
      · rw [if_neg (fun inside => old (known.mp inside)), if_neg (show id first ∉ seen from old),
          List.map_cons]
        exact congrArg (item first :: ·) (ih (first :: seen))

end FirstOccurrences
