import Mathlib.Data.Finset.Max
import Mathlib.Data.Int.Interval
import Mathlib.Tactic.Push

/-! The largest elements of a finite set of integers, compared with the window of
integers of the same size that ends at its maximum. -/

set_option autoImplicit false

/-- Fewer than `count` elements are larger. -/
def AmongTop (set : Finset Int) (count value : Int) : Prop :=
  value ∈ set ∧ ((set.filter (value < ·)).card : Int) < count

instance (set : Finset Int) (count value : Int) : Decidable (AmongTop set count value) :=
  inferInstanceAs (Decidable (_ ∧ _))

namespace AmongTop

variable {set : Finset Int} {top count : Int}

/-- A window without holes pushes everything below it out of the top. -/
theorem above_of_full (full : ∀ value, top - count < value → value ≤ top → value ∈ set)
    {value : Int} (among : AmongTop set count value) : top - count < value := by
  by_contra below
  have window : Finset.Ioc (top - count) top ⊆ set.filter (value < ·) := by
    intro other inside
    obtain ⟨low, high⟩ := Finset.mem_Ioc.mp inside
    exact Finset.mem_filter.mpr ⟨full other low high, by omega⟩
  have size := Finset.card_le_card window
  rw [Int.card_Ioc] at size
  have few := among.2
  omega

/-- A hole in the window lets the next element below it into the top. -/
theorem exists_below_of_hole (bounded : ∀ value ∈ set, value ≤ top) {hole low : Int}
    (inside : top - count < hole ∧ hole ≤ top) (missing : hole ∉ set) (member : low ∈ set)
    (below : low ≤ top - count) :
    ∃ value, AmongTop set count value ∧ value ≤ top - count := by
  have nonempty : (set.filter (· ≤ top - count)).Nonempty :=
    ⟨low, Finset.mem_filter.mpr ⟨member, below⟩⟩
  obtain ⟨value, belongs, largest⟩ := Finset.exists_max_image _ id nonempty
  obtain ⟨present, small⟩ := Finset.mem_filter.mp belongs
  refine ⟨value, ⟨present, ?_⟩, small⟩
  have others : set.filter (value < ·) ⊆ (Finset.Ioc (top - count) top).erase hole := by
    intro other larger
    obtain ⟨otherMember, above⟩ := Finset.mem_filter.mp larger
    rw [Finset.mem_erase, Finset.mem_Ioc]
    refine ⟨fun same => missing (same ▸ otherMember), ?_, bounded other otherMember⟩
    by_contra low
    have upper : other ≤ value :=
      largest other (Finset.mem_filter.mpr ⟨otherMember, not_lt.mp low⟩)
    omega
  have size := Finset.card_le_card others
  rw [Finset.card_erase_of_mem (Finset.mem_Ioc.mpr inside), Int.card_Ioc] at size
  omega

/-- The top stays inside the window exactly if the set does or the window is full. -/
theorem above_iff (bounded : ∀ value ∈ set, value ≤ top) {low : Int} (member : low ∈ set)
    (below : low ≤ top - count) :
    (∀ value, AmongTop set count value → top - count < value) ↔
      ∀ value, top - count < value → value ≤ top → value ∈ set := by
  constructor
  · intro above hole low' high
    by_contra missing
    obtain ⟨value, among, small⟩ := exists_below_of_hole bounded ⟨low', high⟩ missing member below
    exact absurd (above value among) (not_lt.mpr small)
  · intro full value among
    exact above_of_full full among

end AmongTop
