import Mathlib.Data.Finset.Card
import Mathlib.Data.List.AList

/-! A reorder buffer: values arrive in any order and leave in the order of
their keys. Keys that will never arrive are recorded as holes, so that the
cursor can pass them. -/

set_option autoImplicit false

universe u

structure ReorderBuffer (α : Type u) where
  cursor : Int
  parked : AList (fun _ : Int => α)
  holes : Finset Int

namespace ReorderBuffer

variable {α : Type u}

def start (cursor : Int) : ReorderBuffer α := ⟨cursor, ∅, ∅⟩

def park (buffer : ReorderBuffer α) (key : Int) (value : α) : ReorderBuffer α :=
  { buffer with parked := buffer.parked.insert key value }

def skip (buffer : ReorderBuffer α) (key : Int) : ReorderBuffer α :=
  { buffer with holes := insert key buffer.holes }

/-- Passes holes and takes parked values while the cursor finds one or the other. -/
def collect : Nat → ReorderBuffer α → List α × ReorderBuffer α
  | 0, buffer => ([], buffer)
  | fuel + 1, buffer =>
      if buffer.cursor ∈ buffer.holes then
        collect fuel
          { buffer with
            holes := buffer.holes.erase buffer.cursor
            cursor := buffer.cursor + 1 }
      else
        match buffer.parked.lookup buffer.cursor with
        | none => ([], buffer)
        | some value =>
            let (batch, rest) := collect fuel
              { buffer with
                parked := buffer.parked.erase buffer.cursor
                cursor := buffer.cursor + 1 }
            (value :: batch, rest)

@[simp] theorem lookup_singleton (key : Int) (value : α) :
    AList.lookup key (AList.singleton key value : AList fun _ : Int => α) = some value := by
  exact List.dlookup_cons_eq (β := fun _ => α) [] key value

@[simp] theorem erase_singleton (key : Int) (value : α) :
    AList.erase key (AList.singleton key value : AList fun _ : Int => α) = ∅ := by
  apply AList.ext
  exact List.kerase_cons_eq rfl

/-- Each turn of `collect` uses up a hole or a parked value. -/
def fuel (buffer : ReorderBuffer α) : Nat :=
  buffer.holes.card + buffer.parked.keys.length

def ready (buffer : ReorderBuffer α) : List α × ReorderBuffer α :=
  collect (buffer.fuel + 1) buffer

/-- A buffer that waits for the very next value passes it on at once. -/
theorem ready_park_start (cursor : Int) (value : α) :
    ((start cursor).park cursor value).ready = ([value], start (cursor + 1)) := by
  simp [ready, fuel, start, park, collect]

/-- The cursor waits for a value that has not arrived. -/
def Waiting (buffer : ReorderBuffer α) : Prop :=
  buffer.cursor ∉ buffer.holes ∧ buffer.cursor ∉ buffer.parked

theorem collect_waiting (count : Nat) (buffer : ReorderBuffer α) (enough : buffer.fuel < count) :
    (collect count buffer).2.Waiting := by
  induction count generalizing buffer with
  | zero => omega
  | succ count ih =>
      unfold collect
      split
      · rename_i hole
        apply ih
        have fewer := Finset.card_erase_lt_of_mem hole
        simp only [fuel] at enough ⊢
        omega
      · rename_i filled
        split
        · rename_i absent
          refine ⟨filled, fun present => ?_⟩
          rw [← AList.lookup_isSome, absent] at present
          cases present
        · rename_i value found
          apply ih
          have present : buffer.cursor ∈ buffer.parked := by
            rw [← AList.lookup_isSome, found]
            rfl
          have shorter := List.length_erase_of_mem (AList.mem_keys.mp present)
          have some_left := List.length_pos_of_mem (AList.mem_keys.mp present)
          simp only [fuel, AList.keys_erase] at enough ⊢
          omega

/-! ### Ordered delivery -/

/-- The buffer against its history: the values that arrived, the keys that were
skipped, and the values that left, in the order they left. -/
structure Delivers (key : α → Int) (first : Int) (arrived : List α) (skipped : List Int)
    (delivered : List α) (buffer : ReorderBuffer α) : Prop where
  started : first ≤ buffer.cursor
  bounded : ∀ value ∈ arrived, first ≤ key value
  distinct : (arrived.map key).Nodup
  disjoint : ∀ value ∈ arrived, key value ∉ skipped
  parked_iff : ∀ at_key value, buffer.parked.lookup at_key = some value ↔
    value ∈ arrived ∧ key value = at_key ∧ buffer.cursor ≤ at_key
  delivered_iff : ∀ value, value ∈ delivered ↔ value ∈ arrived ∧ key value < buffer.cursor
  increasing : delivered.Pairwise (fun left right => key left < key right)
  holes_iff : ∀ hole, hole ∈ buffer.holes ↔ hole ∈ skipped ∧ buffer.cursor ≤ hole
  covered : ∀ passed, first ≤ passed → passed < buffer.cursor →
    passed ∈ skipped ∨ ∃ value ∈ arrived, key value = passed

variable {key : α → Int} {first : Int} {arrived delivered : List α} {skipped : List Int}
  {buffer : ReorderBuffer α}

theorem delivers_start (key : α → Int) (first : Int) :
    Delivers key first [] [] [] (start first) := by
  constructor <;> simp [start]

theorem Delivers.unique (delivers : Delivers key first arrived skipped delivered buffer)
    {left right : α} (leftArrived : left ∈ arrived) (rightArrived : right ∈ arrived)
    (same : key left = key right) : left = right :=
  List.inj_on_of_nodup_map delivers.distinct leftArrived rightArrived same

/-- The cursor passes a hole. -/
theorem Delivers.pass_hole (delivers : Delivers key first arrived skipped delivered buffer)
    (hole : buffer.cursor ∈ buffer.holes) :
    Delivers key first arrived skipped delivered
      { buffer with
        holes := buffer.holes.erase buffer.cursor
        cursor := buffer.cursor + 1 } := by
  have recorded := ((delivers.holes_iff _).mp hole).1
  have nobody : ∀ value ∈ arrived, key value ≠ buffer.cursor := by
    intro value member same
    exact delivers.disjoint value member (same ▸ recorded)
  constructor
  case started => exact Int.le_trans delivers.started (by simp only; omega)
  case bounded => exact delivers.bounded
  case distinct => exact delivers.distinct
  case disjoint => exact delivers.disjoint
  case increasing => exact delivers.increasing
  case parked_iff =>
    intro at_key value
    rw [delivers.parked_iff]
    constructor
    · rintro ⟨member, rfl, above⟩
      have := nobody value member
      exact ⟨member, rfl, by simp only; omega⟩
    · rintro ⟨member, rfl, above⟩
      exact ⟨member, rfl, by simp only at above; omega⟩
  case delivered_iff =>
    intro value
    rw [delivers.delivered_iff]
    refine and_congr_right fun member => ?_
    have := nobody value member
    simp only
    omega
  case holes_iff =>
    intro other
    rw [Finset.mem_erase, delivers.holes_iff]
    simp only
    constructor
    · rintro ⟨differs, member, above⟩
      exact ⟨member, by omega⟩
    · rintro ⟨member, above⟩
      exact ⟨by omega, member, by omega⟩
  case covered =>
    intro passed above below
    by_cases last : passed = buffer.cursor
    · exact .inl (last ▸ recorded)
    · exact delivers.covered passed above (by simp only at below; omega)

/-- The value at the cursor leaves. -/
theorem Delivers.take (delivers : Delivers key first arrived skipped delivered buffer)
    {value : α} (found : buffer.parked.lookup buffer.cursor = some value)
    (filled : buffer.cursor ∉ buffer.holes) :
    Delivers key first arrived skipped (delivered ++ [value])
      { buffer with
        parked := buffer.parked.erase buffer.cursor
        cursor := buffer.cursor + 1 } := by
  obtain ⟨member, atCursor, _⟩ := (delivers.parked_iff _ _).mp found
  constructor
  case started => exact Int.le_trans delivers.started (by simp only; omega)
  case bounded => exact delivers.bounded
  case distinct => exact delivers.distinct
  case disjoint => exact delivers.disjoint
  case parked_iff =>
    intro at_key other
    simp only
    by_cases same : at_key = buffer.cursor
    · subst same
      rw [AList.lookup_erase]
      constructor
      · intro impossible
        cases impossible
      · rintro ⟨_, _, above⟩
        omega
    · rw [AList.lookup_erase_ne same, delivers.parked_iff]
      constructor
      · rintro ⟨arrives, equal, above⟩
        exact ⟨arrives, equal, by omega⟩
      · rintro ⟨arrives, equal, above⟩
        exact ⟨arrives, equal, by omega⟩
  case delivered_iff =>
    intro other
    rw [List.mem_append, List.mem_singleton, delivers.delivered_iff]
    simp only
    constructor
    · rintro (⟨arrives, below⟩ | rfl)
      · exact ⟨arrives, by omega⟩
      · exact ⟨member, by omega⟩
    · rintro ⟨arrives, below⟩
      by_cases same : key other = buffer.cursor
      · exact .inr (delivers.unique arrives member (same.trans atCursor.symm))
      · exact .inl ⟨arrives, by omega⟩
  case increasing =>
    rw [List.pairwise_append]
    refine ⟨delivers.increasing, List.pairwise_singleton _ _, ?_⟩
    intro earlier left later right
    rw [List.mem_singleton.mp right, atCursor]
    exact ((delivers.delivered_iff earlier).mp left).2
  case holes_iff =>
    intro hole
    rw [delivers.holes_iff]
    simp only
    constructor
    · rintro ⟨recorded, above⟩
      have elsewhere : hole ≠ buffer.cursor := by
        rintro rfl
        exact filled ((delivers.holes_iff _).mpr ⟨recorded, above⟩)
      exact ⟨recorded, by omega⟩
    · rintro ⟨recorded, above⟩
      exact ⟨recorded, by omega⟩
  case covered =>
    intro passed above below
    by_cases last : passed = buffer.cursor
    · exact .inr ⟨value, member, last ▸ atCursor⟩
    · exact delivers.covered passed above (by simp only at below; omega)

theorem Delivers.collect (delivers : Delivers key first arrived skipped delivered buffer)
    (count : Nat) :
    Delivers key first arrived skipped (delivered ++ (collect count buffer).1)
      (collect count buffer).2 := by
  induction count generalizing buffer delivered with
  | zero => simpa [ReorderBuffer.collect] using delivers
  | succ count ih =>
      unfold ReorderBuffer.collect
      split
      · rename_i hole
        exact ih (delivers.pass_hole hole)
      · rename_i filled
        split
        · simpa using delivers
        · rename_i value found
          have next := ih (delivers.take found filled)
          rwa [List.append_assoc, List.singleton_append] at next

/-- An arrival, with everything that it lets go. -/
theorem Delivers.arrive (delivers : Delivers key first arrived skipped delivered buffer)
    {value : α} (bounded : first ≤ key value) (fresh : ∀ other ∈ arrived, key other ≠ key value)
    (expected : key value ∉ skipped) :
    Delivers key first (arrived ++ [value]) skipped
      (delivered ++ (buffer.park (key value) value).ready.1)
      (buffer.park (key value) value).ready.2 := by
  apply Delivers.collect
  -- the cursor has not passed the key: passed keys have arrived or are holes
  have ahead : buffer.cursor ≤ key value := by
    by_contra behind
    rcases delivers.covered (key value) bounded (by omega) with hole | ⟨other, member, same⟩
    · exact expected hole
    · exact fresh other member same
  constructor
  case started => exact delivers.started
  case bounded =>
    intro other member
    rcases List.mem_append.mp member with old | new
    · exact delivers.bounded other old
    · exact List.mem_singleton.mp new ▸ bounded
  case distinct =>
    rw [List.map_append, List.nodup_append]
    refine ⟨delivers.distinct, by simp, ?_⟩
    intro left inOld right inNew same
    obtain ⟨other, member, rfl⟩ := List.mem_map.mp inOld
    simp only [List.map_cons, List.map_nil, List.mem_singleton] at inNew
    exact fresh other member (same.trans inNew)
  case disjoint =>
    intro other member
    rcases List.mem_append.mp member with old | new
    · exact delivers.disjoint other old
    · exact List.mem_singleton.mp new ▸ expected
  case parked_iff =>
    intro at_key other
    simp only [park, List.mem_append, List.mem_singleton]
    by_cases same : at_key = key value
    · subst same
      rw [AList.lookup_insert, Option.some.injEq]
      constructor
      · rintro rfl
        exact ⟨.inr rfl, rfl, ahead⟩
      · rintro ⟨old | rfl, equal, _⟩
        · exact absurd equal (fresh other old)
        · rfl
    · rw [AList.lookup_insert_ne same, delivers.parked_iff]
      constructor
      · rintro ⟨old, equal, above⟩
        exact ⟨.inl old, equal, above⟩
      · rintro ⟨old | rfl, equal, above⟩
        · exact ⟨old, equal, above⟩
        · exact absurd equal.symm same
  case delivered_iff =>
    intro other
    rw [delivers.delivered_iff, List.mem_append, List.mem_singleton]
    constructor
    · rintro ⟨old, below⟩
      exact ⟨.inl old, below⟩
    · rintro ⟨old | rfl, below⟩
      · exact ⟨old, below⟩
      · simp only [park] at below
        omega
  case increasing => exact delivers.increasing
  case holes_iff => exact delivers.holes_iff
  case covered =>
    intro passed above below
    rcases delivers.covered passed above below with hole | ⟨other, member, same⟩
    · exact .inl hole
    · exact .inr ⟨other, List.mem_append_left _ member, same⟩

/-- A new hole, ahead of the cursor and of nobody's key. -/
theorem Delivers.skip (delivers : Delivers key first arrived skipped delivered buffer)
    {hole : Int} (ahead : buffer.cursor ≤ hole) (free : ∀ value ∈ arrived, key value ≠ hole) :
    Delivers key first arrived (skipped ++ [hole]) delivered (buffer.skip hole) := by
  constructor
  case started => exact delivers.started
  case bounded => exact delivers.bounded
  case distinct => exact delivers.distinct
  case disjoint =>
    intro value member inHoles
    rcases List.mem_append.mp inHoles with old | new
    · exact delivers.disjoint value member old
    · exact free value member (List.mem_singleton.mp new)
  case parked_iff => exact delivers.parked_iff
  case delivered_iff => exact delivers.delivered_iff
  case increasing => exact delivers.increasing
  case holes_iff =>
    intro other
    simp only [ReorderBuffer.skip, Finset.mem_insert, List.mem_append, List.mem_singleton,
      delivers.holes_iff]
    constructor
    · rintro (rfl | ⟨old, above⟩)
      · exact ⟨.inr rfl, ahead⟩
      · exact ⟨.inl old, above⟩
    · rintro ⟨old | rfl, above⟩
      · exact .inr ⟨old, above⟩
      · exact .inl rfl
  case covered =>
    intro passed above below
    rcases delivers.covered passed above below with old | arrives
    · exact .inl (List.mem_append_left _ old)
    · exact .inr arrives

/-- Nothing stays parked once every key below an arrived one is accounted for. -/
theorem Delivers.all_delivered (delivers : Delivers key first arrived skipped delivered buffer)
    (waiting : ∀ parked, parked ∈ buffer.parked → buffer.Waiting)
    (complete : ∀ value ∈ arrived, ∀ below, first ≤ below → below ≤ key value →
      below ∈ skipped ∨ ∃ other ∈ arrived, key other = below) :
    (∀ parked, parked ∉ buffer.parked) ∧ ∀ value ∈ arrived, value ∈ delivered := by
  have nothing : ∀ parked, parked ∉ buffer.parked := by
    intro parked present
    obtain ⟨filled, absent⟩ := waiting parked present
    obtain ⟨value, found⟩ := Option.isSome_iff_exists.mp (AList.lookup_isSome.mpr present)
    obtain ⟨member, rfl, above⟩ := (delivers.parked_iff _ _).mp found
    rcases complete value member buffer.cursor delivers.started above with
      hole | ⟨other, arrives, same⟩
    · exact filled ((delivers.holes_iff _).mpr ⟨hole, Int.le_refl _⟩)
    · apply absent
      rw [← AList.lookup_isSome, (delivers.parked_iff _ other).mpr ⟨arrives, same, Int.le_refl _⟩]
      rfl
  refine ⟨nothing, fun value member => (delivers.delivered_iff value).mpr ⟨member, ?_⟩⟩
  by_contra ahead
  apply nothing (key value)
  rw [← AList.lookup_isSome, (delivers.parked_iff _ value).mpr ⟨member, rfl, by omega⟩]
  rfl

end ReorderBuffer
