import Mathlib.Tactic.Tauto
import ShinzoGenerator.Chains.Documents

/-! The embedded database as the indexer queries it: default queries see only
visible documents. -/

set_option autoImplicit false

namespace ShinzoGenerator.Defra

open Chains

abbrev DB := SoftStore Doc

/-- The visible documents of one collection at one height. -/
def docsAt (db : DB) (height : Int) (collection : Collection) : List Doc :=
  db.visible.filter fun doc => doc.collection = collection ∧ doc.height? = some height

/-- The rows of a block-collection query with `number` equal to the height. -/
def blocksAt (db : DB) (height : Int) : List Doc := docsAt db height .block

/-- More than one visible block document at a height is reported, never guessed at. -/
def getStoredBlockHash (db : DB) (height : Int) : Except String String :=
  match blocksAt db height with
  | [] => .ok ""
  | [doc] => .ok doc.hash
  | rows => .error ("query stored block " ++ toString height ++ ": " ++ toString rows.length ++
      " visible block documents share the height; the store state is inconsistent")

/-- At most one visible block document per height. -/
def SingleBlocks (db : DB) : Prop :=
  ∀ height, (blocksAt db height).length ≤ 1

@[simp] theorem mem_docsAt {db : DB} {height : Int} {collection : Collection} {doc : Doc} :
    doc ∈ docsAt db height collection ↔
      doc ∈ db.visible ∧ doc.collection = collection ∧ doc.height? = some height := by
  simp [docsAt]

@[simp] theorem mem_blocksAt {db : DB} {height : Int} {doc : Doc} :
    doc ∈ blocksAt db height ↔
      doc ∈ db.visible ∧ doc.collection = .block ∧ doc.height? = some height := mem_docsAt

theorem getStoredBlockHash_congr {left right : DB} {height : Int}
    (same : blocksAt left height = blocksAt right height) :
    getStoredBlockHash left height = getStoredBlockHash right height := by
  unfold getStoredBlockHash
  rw [same]

/-- The block rows after documents were appended. -/
theorem mem_blocksAt_append {db next : DB} {docs : List Doc} {height : Int} {doc : Doc}
    (visible : next.visible = db.visible ++ docs) :
    doc ∈ blocksAt next height ↔
      doc ∈ blocksAt db height ∨
        doc ∈ docs ∧ doc.collection = .block ∧ doc.height? = some height := by
  simp only [mem_blocksAt, visible, List.mem_append]
  tauto

/-- The block rows after one more block. -/
theorem mem_blocksAt_add {db next : DB} {block : Doc} {number : Int}
    (visible : next.visible = db.visible ++ [block]) (isBlock : block.collection = .block)
    (located : block.height? = some number) {height : Int} {doc : Doc} :
    doc ∈ blocksAt next height ↔ doc ∈ blocksAt db height ∨ doc = block ∧ height = number := by
  rw [mem_blocksAt_append visible, List.mem_singleton]
  constructor
  · rintro (old | ⟨rfl, _, at_height⟩)
    · exact .inl old
    · rw [located, Option.some.injEq] at at_height
      exact .inr ⟨rfl, at_height.symm⟩
  · rintro (old | ⟨rfl, rfl⟩)
    · exact .inl old
    · exact .inr ⟨rfl, isBlock, located⟩

/-- Documents of the other collections do not touch the block rows. -/
theorem blocksAt_others {db next : DB} {docs : List Doc}
    (children : ∀ doc ∈ docs, doc.collection ≠ .block)
    (visible : next.visible = db.visible ++ docs) (height : Int) :
    blocksAt next height = blocksAt db height := by
  have none : docs.filter (fun doc => doc.collection = .block ∧ doc.height? = some height) = [] := by
    refine List.filter_eq_nil_iff.mpr fun doc member => ?_
    simp [children doc member]
  rw [blocksAt, docsAt, visible, List.filter_append, none, List.append_nil]
  rfl

/-- A non-empty answer comes from the single visible block document. -/
theorem getStoredBlockHash_stored {db : DB} {height : Int} {stored : String}
    (answered : getStoredBlockHash db height = .ok stored) (present : stored ≠ "") :
    ∃ doc, blocksAt db height = [doc] ∧ doc.hash = stored := by
  unfold getStoredBlockHash at answered
  split at answered
  · cases answered
    exact absurd rfl present
  · rename_i doc rows
    cases answered
    exact ⟨doc, rows, rfl⟩
  · cases answered

theorem SingleBlocks.answers {db : DB} (single : SingleBlocks db) (height : Int) :
    (blocksAt db height = [] ∧ getStoredBlockHash db height = .ok "") ∨
      ∃ doc, blocksAt db height = [doc] ∧ getStoredBlockHash db height = .ok doc.hash := by
  have bound := single height
  unfold getStoredBlockHash
  cases rows : blocksAt db height with
  | nil => exact .inl ⟨rfl, rfl⟩
  | cons doc others =>
      cases others with
      | nil => exact .inr ⟨doc, rfl, rfl⟩
      | cons other others => simp [rows] at bound

theorem SingleBlocks.eq_singleton {db : DB} (single : SingleBlocks db) {height : Int} {block : Doc}
    (held : block ∈ blocksAt db height) : blocksAt db height = [block] := by
  rcases single.answers height with ⟨rows, _⟩ | ⟨doc, rows, _⟩
  · simp [rows] at held
  · rw [rows, List.mem_singleton] at held
    rw [rows, held]

/-- Two visible block documents of one height are the same document. -/
theorem SingleBlocks.unique {db : DB} (single : SingleBlocks db) {height : Int}
    {left right : Doc} (leftAt : left ∈ blocksAt db height)
    (rightAt : right ∈ blocksAt db height) : left = right := by
  rw [single.eq_singleton leftAt, List.mem_singleton] at rightAt
  exact rightAt.symm

/-- Pairwise distinct heights among the visible block documents are enough. -/
theorem SingleBlocks.of_unique {db : DB}
    (unique : ∀ height, ∀ left ∈ blocksAt db height, ∀ right ∈ blocksAt db height,
      left = right) : SingleBlocks db := by
  intro height
  have distinct : (blocksAt db height).Nodup := db.nodup.filter _
  cases rows : blocksAt db height with
  | nil => simp
  | cons doc others =>
      cases others with
      | nil => simp
      | cons other others =>
          have same := unique height doc (by simp [rows]) other (by simp [rows])
          rw [rows, same] at distinct
          simp at distinct

/-- The visible block documents sit at the listed heights. -/
def BlocksListed (db : DB) (heights : List Int) : Prop :=
  ∀ doc ∈ db.visible, doc.collection = .block → ∃ height ∈ heights, doc.height? = some height

instance (db : DB) (heights : List Int) : Decidable (BlocksListed db heights) :=
  inferInstanceAs (Decidable (∀ doc ∈ db.visible, _ → ∃ height ∈ heights, _))

theorem BlocksListed.blocksAt_eq_nil {db : DB} {heights : List Int} (listed : BlocksListed db heights)
    {height : Int} (other : height ∉ heights) : blocksAt db height = [] := by
  refine List.eq_nil_iff_forall_not_mem.mpr fun doc present => other ?_
  obtain ⟨visible, isBlock, atHeight⟩ := mem_blocksAt.mp present
  obtain ⟨stored, member, same⟩ := listed doc visible isBlock
  rw [atHeight, Option.some.injEq] at same
  exact same ▸ member

theorem BlocksListed.single {db : DB} {heights : List Int} (listed : BlocksListed db heights)
    (single : ∀ height ∈ heights, (blocksAt db height).length ≤ 1) : SingleBlocks db := by
  intro height
  by_cases member : height ∈ heights
  · exact single height member
  · simp [listed.blocksAt_eq_nil member]

end ShinzoGenerator.Defra
