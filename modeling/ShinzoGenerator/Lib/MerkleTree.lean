import Mathlib.Data.List.Basic

/-! Merkle roots of lists. Neighbours are hashed together level by level, and an odd one
at the end of a level moves up as it is. Leaves and inner nodes are hashed alike, so a
leaf as long as two digests can stand for an inner node. -/

set_option autoImplicit false

universe u

namespace MerkleTree

inductive Tree (α : Type u) where
  | leaf (content : α)
  | node (left right : Tree α)

section Levels

variable {α : Type u} (join : α → α → α)

/-- One level up. -/
def level : List α → List α
  | left :: right :: rest => join left right :: level rest
  | rest => rest

/-- Levels are joined until at most one element is left. -/
def climb : Nat → List α → List α
  | 0, elements => elements
  | fuel + 1, elements =>
      if elements.length ≤ 1 then elements else climb fuel (level join elements)

theorem length_level : ∀ elements : List α,
    (level join elements).length = (elements.length + 1) / 2
  | [] => by simp [level]
  | [_] => by simp [level]
  | left :: right :: rest => by
      simp only [level, List.length_cons, length_level rest]
      omega

theorem length_climb {fuel : Nat} {elements : List α} (enough : elements.length ≤ fuel) :
    (climb join fuel elements).length ≤ 1 := by
  induction fuel generalizing elements with
  | zero => exact Nat.le_succ_of_le enough
  | succ fuel ih =>
      rw [climb]
      split
      · assumption
      · rename_i several
        apply ih
        rw [length_level]
        omega

/-- A map that commutes with joining commutes with climbing. -/
theorem map_climb {β : Type u} {join : α → α → α} {joinMapped : β → β → β} {change : α → β}
    (commutes : ∀ left right, change (join left right) = joinMapped (change left) (change right))
    (fuel : Nat) (elements : List α) :
    (climb join fuel elements).map change = climb joinMapped fuel (elements.map change) := by
  have up : ∀ elements : List α,
      (level join elements).map change = level joinMapped (elements.map change) := by
    intro elements
    fun_induction level join elements with
    | case1 left right rest ih =>
        simp only [List.map_cons, level, commutes, ih]
    | case2 rest short =>
        cases rest with
        | nil => rfl
        | cons first rest =>
            cases rest with
            | nil => rfl
            | cons second rest => exact absurd rfl (short first second rest)
  induction fuel generalizing elements with
  | zero => rfl
  | succ fuel ih =>
      simp only [climb, List.length_map]
      split
      · rfl
      · rw [ih, up]

end Levels

/-! ### The tree over a list -/

section Trees

variable {α β : Type u}

def Tree.leaves : Tree α → List α
  | .leaf content => [content]
  | .node left right => left.leaves ++ right.leaves

def Tree.map (change : α → β) : Tree α → Tree β
  | .leaf content => .leaf (change content)
  | .node left right => .node (left.map change) (right.map change)

def forest (contents : List α) : List (Tree α) :=
  climb .node contents.length (contents.map .leaf)

theorem flatMap_level (trees : List (Tree α)) :
    (level Tree.node trees).flatMap Tree.leaves = trees.flatMap Tree.leaves := by
  fun_induction level Tree.node trees with
  | case1 left right rest ih =>
      simp only [List.flatMap_cons, Tree.leaves, ih, List.append_assoc]
  | case2 => rfl

theorem flatMap_climb (fuel : Nat) (trees : List (Tree α)) :
    (climb Tree.node fuel trees).flatMap Tree.leaves = trees.flatMap Tree.leaves := by
  induction fuel generalizing trees with
  | zero => rfl
  | succ fuel ih =>
      rw [climb]
      split
      · rfl
      · rw [ih, flatMap_level]

theorem forest_leaves (contents : List α) : (forest contents).flatMap Tree.leaves = contents := by
  rw [forest, flatMap_climb, List.flatMap_map]
  exact List.flatMap_singleton' contents

theorem leaves_of_forest {contents : List α} {tree : Tree α} (grown : forest contents = [tree]) :
    tree.leaves = contents := by
  have gathered := forest_leaves contents
  rw [grown, List.flatMap_singleton] at gathered
  exact gathered

/-- A list that is not empty has one tree. -/
theorem exists_forest {contents : List α} (nonempty : contents ≠ []) :
    ∃ tree, forest contents = [tree] := by
  have gathered := forest_leaves contents
  have short : (forest contents).length ≤ 1 := length_climb _ (by simp)
  cases grown : forest contents with
  | nil =>
      rw [grown] at gathered
      exact absurd gathered.symm nonempty
  | cons tree rest =>
      cases rest with
      | nil => exact ⟨tree, rfl⟩
      | cons => simp [grown] at short

theorem forest_map (change : α → β) (contents : List α) :
    (forest contents).map (Tree.map change) = forest (contents.map change) := by
  rw [forest, map_climb (fun _ _ => rfl), forest, List.length_map, List.map_map, List.map_map]
  rfl

end Trees

/-! ### Digests -/

section Digests

variable {β : Type u} (hash : List β → List β)

def combine (left right : List β) : List β := hash (left ++ right)

/-- The root of a list; the empty one has none. -/
def root (contents : List (List β)) : Option (List β) :=
  (climb (combine hash) contents.length (contents.map hash)).head?

def Tree.digest : Tree (List β) → List β
  | .leaf content => hash content
  | .node left right => combine hash left.digest right.digest

/-- Everything that is hashed on the way to the digest. -/
def Tree.inputs : Tree (List β) → List (List β)
  | .leaf content => [content]
  | .node left right => (left.digest hash ++ right.digest hash) :: (left.inputs ++ right.inputs)

/-- Everything that is hashed on the way to the root. -/
def inputs (contents : List (List β)) : List (List β) := (forest contents).flatMap (Tree.inputs hash)

theorem root_eq (contents : List (List β)) :
    root hash contents = (forest contents).head?.map (Tree.digest hash) := by
  have digests : (forest contents).map (Tree.digest hash) =
      climb (combine hash) contents.length (contents.map hash) := by
    rw [forest, map_climb (fun _ _ => rfl), List.map_map]
    rfl
  rw [root, ← digests, List.head?_map]

/-- A leaf can stand for an inner node. -/
theorem root_joined (left right : List β) :
    root hash [hash left ++ hash right] = root hash [left, right] := rfl

/-- The inputs have pairwise different hashes. -/
def NoCollision (data : List (List β)) : Prop :=
  ∀ first ∈ data, ∀ second ∈ data, hash first = hash second → first = second

theorem inputs_pair (left right : List β) :
    inputs hash [left, right] = [hash left ++ hash right, left, right] := rfl

variable {hash} {width : Nat}

/-- No leaf of one tree stands where the other has an inner node and is as long as two
digests. -/
def Compatible (width : Nat) : Tree (List β) → Tree (List β) → Prop
  | .leaf _, .leaf _ => True
  | .node left right, .node otherLeft otherRight =>
      Compatible width left otherLeft ∧ Compatible width right otherRight
  | .leaf content, .node _ _ | .node _ _, .leaf content => content.length ≠ 2 * width

theorem Tree.length_digest (size : ∀ data, (hash data).length = width) (tree : Tree (List β)) :
    (tree.digest hash).length = width := by
  cases tree with
  | leaf => exact size _
  | node => exact size _

/-- Compatible trees with one digest are the same. -/
theorem eq_of_digest_eq (size : ∀ data, (hash data).length = width) {first second : Tree (List β)}
    (compatible : Compatible width first second)
    (free : ∀ left ∈ first.inputs hash, ∀ right ∈ second.inputs hash,
      hash left = hash right → left = right)
    (same : first.digest hash = second.digest hash) : first = second := by
  induction first generalizing second with
  | leaf content =>
      cases second with
      | leaf other => rw [free content (by simp [Tree.inputs]) other (by simp [Tree.inputs]) same]
      | node left right =>
          have equal := free content (by simp [Tree.inputs]) _ (by simp [Tree.inputs])
            same
          refine absurd ?_ compatible
          rw [equal, List.length_append, left.length_digest size, right.length_digest size]
          omega
  | node left right leftIH rightIH =>
      cases second with
      | leaf other =>
          have equal := free _ (by simp [Tree.inputs]) other (by simp [Tree.inputs])
            same
          refine absurd ?_ compatible
          rw [← equal, List.length_append, left.length_digest size, right.length_digest size]
          omega
      | node otherLeft otherRight =>
          have equal := free (left.digest hash ++ right.digest hash) (by simp [Tree.inputs])
            (otherLeft.digest hash ++ otherRight.digest hash) (by simp [Tree.inputs]) same
          have sizes : (left.digest hash).length = (otherLeft.digest hash).length := by
            rw [left.length_digest size, otherLeft.length_digest size]
          obtain ⟨leftSame, rightSame⟩ := List.append_inj equal sizes
          have leftEq := leftIH compatible.1
            (fun a memberA b memberB => free a (by simp [Tree.inputs, memberA]) b
              (by simp [Tree.inputs, memberB])) leftSame
          have rightEq := rightIH compatible.2
            (fun a memberA b memberB => free a (by simp [Tree.inputs, memberA]) b
              (by simp [Tree.inputs, memberB])) rightSame
          rw [leftEq, rightEq]

theorem compatible_of_shape {first second : Tree (List β)}
    (same : first.map (fun _ => PUnit.unit) = second.map (fun _ => PUnit.unit)) :
    Compatible width first second := by
  induction first generalizing second with
  | leaf content =>
      cases second with
      | leaf => trivial
      | node => cases same
  | node left right leftIH rightIH =>
      cases second with
      | leaf => cases same
      | node otherLeft otherRight =>
          injection same with leftSame rightSame
          exact ⟨leftIH leftSame, rightIH rightSame⟩

theorem root_eq_none {contents : List (List β)} : root hash contents = none ↔ contents = [] := by
  constructor
  · intro none
    by_contra nonempty
    obtain ⟨tree, grown⟩ := exists_forest nonempty
    rw [root_eq, grown] at none
    cases none
  · rintro rfl
    rfl

/-- No content of one list that is as long as two digests stands where the tree over the
other list has an inner node. -/
def Aligned (width : Nat) (first second : List (List β)) : Prop :=
  ∀ tree other, forest first = [tree] → forest second = [other] → Compatible width tree other

theorem compatible_refl (tree : Tree (List β)) : Compatible width tree tree := by
  induction tree with
  | leaf => trivial
  | node left right leftIH rightIH => exact ⟨leftIH, rightIH⟩

theorem aligned_refl (contents : List (List β)) : Aligned width contents contents := by
  intro tree other grown again
  cases grown.symm.trans again
  exact compatible_refl tree

/-- Lists of one length are aligned. -/
theorem aligned_of_length {first second : List (List β)} (counts : first.length = second.length) :
    Aligned width first second := by
  intro tree other grown otherGrown
  have shapes : first.map (fun _ => PUnit.unit) = second.map (fun _ => PUnit.unit) := by
    rw [List.map_const', List.map_const', counts]
  have forests : (forest first).map (Tree.map fun _ => PUnit.unit) =
      (forest second).map (Tree.map fun _ => PUnit.unit) := by
    rw [forest_map, forest_map, shapes]
  rw [grown, otherGrown] at forests
  exact compatible_of_shape (List.cons.inj forests).1

/-- Among aligned lists a root fixes the list. -/
theorem eq_of_root_eq (size : ∀ data, (hash data).length = width) {first second : List (List β)}
    (free : NoCollision hash (inputs hash first ++ inputs hash second))
    (same : root hash first = root hash second) (aligned : Aligned width first second) :
    first = second := by
  by_cases empty : first = []
  · have none : root hash second = none := same ▸ root_eq_none.mpr empty
    rw [empty, root_eq_none.mp none]
  · have nonempty : second ≠ [] := by
      intro other
      rw [root_eq_none.mpr other] at same
      exact empty (root_eq_none.mp same)
    obtain ⟨tree, grown⟩ := exists_forest empty
    obtain ⟨other, otherGrown⟩ := exists_forest nonempty
    rw [root_eq, root_eq, grown, otherGrown] at same
    rw [inputs, inputs, grown, otherGrown, List.flatMap_singleton, List.flatMap_singleton] at free
    have equal : tree = other := by
      refine eq_of_digest_eq size (aligned tree other grown otherGrown)
        (fun left leftIn right rightIn => ?_) (Option.some.inj same)
      exact free left (List.mem_append_left _ leftIn) right (List.mem_append_right _ rightIn)
    rw [← leaves_of_forest grown, ← leaves_of_forest otherGrown, equal]

end Digests

end MerkleTree
