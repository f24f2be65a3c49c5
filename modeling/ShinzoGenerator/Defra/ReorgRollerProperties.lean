import ShinzoGenerator.Defra.ReorgRoller

/-! What a rollback deletes, what it leaves when it is interrupted, and why
running it again finishes the work. -/

set_option autoImplicit false

namespace ShinzoGenerator.Defra

open Chains

/-- The height holds a stored hash that disagrees with its verified hash. -/
def Orphan (db : DB) (chainHashes : HeightMap String) (height : Int) : Prop :=
  ∃ chainHash stored, chainHashes.lookup height = some chainHash ∧ chainHash ≠ "" ∧
    getStoredBlockHash db height = .ok stored ∧ stored ≠ "" ∧ stored ≠ chainHash

/-- The document belongs to an orphan height of the list. -/
def Condemned (db : DB) (chainHashes : HeightMap String) (heights : List Int) (doc : Doc) : Prop :=
  doc.collection ∈ blockScoped ∧
    ∃ height ∈ heights, doc.height? = some height ∧ Orphan db chainHashes height

/-! ### Chunks -/

theorem chunked_flatten (fuel : Nat) (docs : List Doc) (enough : docs.length ≤ fuel) :
    (chunked fuel docs).flatten = docs := by
  induction fuel generalizing docs with
  | zero =>
      have empty : docs = [] := List.length_eq_zero_iff.mp (Nat.le_zero.mp enough)
      simp [chunked, empty]
  | succ fuel ih =>
      by_cases empty : docs = []
      · simp [chunked, empty]
      · have shorter : (docs.drop chunkSize).length ≤ fuel := by
          rw [List.length_drop, chunkSize]
          omega
        simp [chunked, empty, ih _ shorter, List.take_append_drop]

theorem deleteChunks_append (first second : List (List Doc)) (state : Nat × DB) :
    deleteChunks (first ++ second) state =
      match deleteChunks first state with
      | .error failure => .error failure
      | .ok next => deleteChunks second next := by
  induction first generalizing state with
  | nil => rfl
  | cons chunk chunks ih =>
      rcases state with ⟨budget, db⟩
      cases budget with
      | zero => rfl
      | succ budget => exact ih _

/-- An interrupted deletion has deleted a prefix of the chunks. -/
theorem deleteChunks_left (chunks : List (List Doc)) (budget : Nat) (db : DB) :
    ∃ count ≤ chunks.length,
      (leftBy (deleteChunks chunks (budget, db))).visible =
        db.visible.filter (fun doc => doc ∉ (chunks.take count).flatten) ∧
      ((∃ state, deleteChunks chunks (budget, db) = .ok state) → count = chunks.length) := by
  induction chunks generalizing budget db with
  | nil => exact ⟨0, Nat.le_refl 0, by simp [deleteChunks, leftBy], fun _ => rfl⟩
  | cons chunk chunks ih =>
      cases budget with
      | zero =>
          refine ⟨0, Nat.zero_le _, by simp [deleteChunks, leftBy], ?_⟩
          rintro ⟨state, succeeded⟩
          simp [deleteChunks] at succeeded
      | succ budget =>
          obtain ⟨count, bound, left, all⟩ := ih budget (db.softDelete fun doc => doc ∈ chunk)
          refine ⟨count + 1, by simpa using bound, ?_, ?_⟩
          · rw [deleteChunks, left]
            simp only [SoftStore.softDelete, List.filter_filter]
            apply List.filter_congr
            intro doc _
            by_cases first : doc ∈ chunk <;> simp [first]
          · intro succeeded
            simp [all succeeded]

/-- With enough budget the deletion ends, in a database that the budget does not change. -/
theorem deleteChunks_enough (chunks : List (List Doc)) (db : DB) :
    ∃ left, ∀ budget ≥ chunks.length,
      deleteChunks chunks (budget, db) = .ok (budget - chunks.length, left) := by
  induction chunks generalizing db with
  | nil => exact ⟨db, fun _ _ => rfl⟩
  | cons chunk chunks ih =>
      obtain ⟨left, done⟩ := ih (db.softDelete fun doc => doc ∈ chunk)
      refine ⟨left, fun budget more => ?_⟩
      cases budget with
      | zero => simp at more
      | succ budget =>
          rw [List.length_cons] at more ⊢
          rw [deleteChunks, done budget (by omega), Nat.add_sub_add_right]

/-- The chunks of one height in deletion order. -/
def plan (db : DB) (height : Int) (cols : List Collection) : List (List Doc) :=
  cols.flatMap fun col => chunked (docsAt db height col).length (docsAt db height col)

theorem deleteCollections_eq_plan (db : DB) (height : Int) (cols : List Collection)
    (state : Nat × DB) :
    deleteCollections db height cols state = deleteChunks (plan db height cols) state := by
  induction cols generalizing state with
  | nil => rfl
  | cons col cols ih =>
      simp only [deleteCollections, softDeleteCollectionDocs, plan, List.flatMap_cons,
        deleteChunks_append]
      cases deleteChunks (chunked (docsAt db height col).length (docsAt db height col)) state with
      | error failure => rfl
      | ok next => exact ih next

theorem mem_plan {db : DB} {height : Int} {cols : List Collection} {doc : Doc} :
    doc ∈ (plan db height cols).flatten ↔
      doc ∈ db.visible ∧ doc.collection ∈ cols ∧ doc.height? = some height := by
  have flat : (plan db height cols).flatten = cols.flatMap (docsAt db height) := by
    induction cols with
    | nil => rfl
    | cons col cols ih =>
        have step : plan db height (col :: cols) =
            chunked (docsAt db height col).length (docsAt db height col) ++
              plan db height cols := rfl
        rw [step, List.flatten_append, chunked_flatten _ _ (Nat.le_refl _), ih, List.flatMap_cons]
  rw [flat]
  simp only [List.mem_flatMap, mem_docsAt]
  constructor
  · rintro ⟨col, listed, visible, rfl, at_height⟩
    exact ⟨visible, listed, at_height⟩
  · rintro ⟨visible, listed, at_height⟩
    exact ⟨_, listed, visible, rfl, at_height⟩

/-! ### Deletion order -/

private theorem mem_foldl_order (cols start : List Collection) (col : Collection) :
    col ∈ cols.foldl (fun ordered col =>
        if col = .block ∨ col ∈ ordered then ordered else ordered ++ [col]) start ↔
      col ∈ start ∨ (col ∈ cols ∧ col ≠ .block) := by
  induction cols generalizing start with
  | nil => simp
  | cons head tail ih =>
      rw [List.foldl_cons, ih]
      by_cases skip : head = .block ∨ head ∈ start
      · rw [if_pos skip]
        constructor
        · rintro (old | ⟨listed, child⟩)
          · exact .inl old
          · exact .inr ⟨.tail _ listed, child⟩
        · rintro (old | ⟨listed, child⟩)
          · exact .inl old
          · rcases List.mem_cons.mp listed with rfl | listed
            · exact .inl (skip.resolve_left child)
            · exact .inr ⟨listed, child⟩
      · rw [if_neg skip]
        rw [not_or] at skip
        rw [List.mem_append, List.mem_singleton]
        constructor
        · rintro ((old | rfl) | ⟨listed, child⟩)
          · exact .inl old
          · exact .inr ⟨.head _, skip.1⟩
          · exact .inr ⟨.tail _ listed, child⟩
        · rintro (old | ⟨listed, child⟩)
          · exact .inl (.inl old)
          · rcases List.mem_cons.mp listed with rfl | listed
            · exact .inl (.inr rfl)
            · exact .inr ⟨listed, child⟩

theorem mem_childOrder {cols : List Collection} {col : Collection} :
    col ∈ childOrder cols ↔ col ∈ cols ∧ col ≠ .block := by
  rw [childOrder, mem_foldl_order]
  simp only [List.mem_filter, decide_eq_true_eq]
  constructor
  · rintro (⟨_, child, listed⟩ | ⟨listed, child⟩) <;> exact ⟨listed, child⟩
  · rintro ⟨listed, child⟩
    exact .inr ⟨listed, child⟩

theorem mem_deleteOrder {cols : List Collection} {col : Collection} :
    col ∈ deleteOrder cols ↔ col ∈ cols := by
  unfold deleteOrder
  split
  · rename_i listed
    rw [List.mem_append, mem_childOrder, List.mem_singleton]
    constructor
    · rintro (⟨member, _⟩ | rfl)
      · exact member
      · exact listed
    · intro member
      by_cases block : col = .block
      · exact .inr block
      · exact .inl ⟨member, block⟩
  · rename_i unlisted
    rw [mem_childOrder]
    exact ⟨And.left, fun member => ⟨member, fun block => unlisted (block ▸ member)⟩⟩

/-! ### One height -/

/-- The chunks a verified orphan height is deleted in. -/
def heightPlan (db : DB) (height : Int) : List (List Doc) :=
  plan db height (deleteOrder (sortByName (getDocIDsByBlockRange db height)))

private theorem mem_sortByName {cols : List Collection} {col : Collection} :
    col ∈ sortByName cols ↔ col ∈ cols := by
  rw [sortByName, (List.perm_insertionSort _ cols).mem_iff]

theorem mem_heightPlan {db : DB} {height : Int} {doc : Doc} :
    doc ∈ (heightPlan db height).flatten ↔
      doc ∈ db.visible ∧ doc.collection ∈ blockScoped ∧ doc.height? = some height := by
  rw [heightPlan, mem_plan, mem_deleteOrder, mem_sortByName, getDocIDsByBlockRange, List.mem_filter]
  constructor
  · rintro ⟨visible, ⟨tracked, _⟩, located⟩
    exact ⟨visible, tracked, located⟩
  · rintro ⟨visible, tracked, located⟩
    have present : doc ∈ docsAt db height doc.collection := mem_docsAt.mpr ⟨visible, rfl, located⟩
    exact ⟨visible, ⟨tracked, by simpa using List.ne_nil_of_mem present⟩, located⟩

/-- The block document is alone in the last chunk. -/
theorem heightPlan_block_last {db : DB} {height : Int} {block : Doc}
    (stored : blocksAt db height = [block]) :
    ∃ children, heightPlan db height = children ++ [[block]] ∧
      ∀ doc ∈ children.flatten, doc.collection ≠ .block := by
  have held : docsAt db height .block = [block] := stored
  have listed : Collection.block ∈ sortByName (getDocIDsByBlockRange db height) := by
    rw [mem_sortByName, getDocIDsByBlockRange, List.mem_filter]
    exact ⟨by decide, by simp [held]⟩
  refine ⟨plan db height (childOrder (sortByName (getDocIDsByBlockRange db height))), ?_, ?_⟩
  · have last : chunked [block].length [block] = [[block]] := by simp [chunked, chunkSize]
    simp only [heightPlan, deleteOrder, if_pos listed, plan, List.flatMap_append,
      List.flatMap_singleton, held, last]
  · intro doc member
    exact (mem_childOrder.mp (mem_plan.mp member).2.1).2

theorem rollbackHeight_orphan {db : DB} {chainHashes : HeightMap String} {height : Int}
    (orphan : Orphan db chainHashes height) (budget : Nat) :
    rollbackHeight chainHashes height (budget, db) =
      deleteChunks (heightPlan db height) (budget, db) := by
  obtain ⟨chainHash, stored, verified, usable, answered, present, differs⟩ := orphan
  simp only [rollbackHeight, verified, usable, answered, present, differs, or_self, if_false,
    deleteCollections_eq_plan]
  rfl

theorem rollbackHeight_kept {db : DB} {chainHashes : HeightMap String} {height : Int}
    (single : SingleBlocks db) (kept : ¬ Orphan db chainHashes height) (budget : Nat) :
    rollbackHeight chainHashes height (budget, db) = .ok (budget, db) := by
  unfold rollbackHeight
  cases verified : chainHashes.lookup height with
  | none => rfl
  | some chainHash =>
      by_cases usable : chainHash = ""
      · simp [usable]
      · have answered : ∃ stored, getStoredBlockHash db height = .ok stored := by
          rcases single.answers height with ⟨_, empty⟩ | ⟨doc, _, found⟩
          · exact ⟨_, empty⟩
          · exact ⟨_, found⟩
        obtain ⟨stored, answered⟩ := answered
        by_cases skipped : stored = "" ∨ stored = chainHash
        · simp [usable, answered, skipped]
        · rw [not_or] at skipped
          exact absurd ⟨chainHash, stored, verified, usable, answered, skipped⟩ kept

/-- What one height leaves behind: only its own documents go, the block
document goes last, and success means that nothing of an orphan is left. -/
structure HeightLeft (db : DB) (chainHashes : HeightMap String) (height : Int)
    (outcome : RollbackM (Nat × DB)) (removed : List Doc) : Prop where
  visible : (leftBy outcome).visible = db.visible.filter (fun doc => doc ∉ removed)
  own : ∀ doc ∈ removed, doc ∈ db.visible ∧ doc.collection ∈ blockScoped ∧
    doc.height? = some height ∧ Orphan db chainHashes height
  blockLast : ∀ block ∈ blocksAt db height, block ∈ removed →
    ∀ doc ∈ db.visible, doc.collection ∈ blockScoped → doc.height? = some height → doc ∈ removed
  complete : (∃ state, outcome = .ok state) → Orphan db chainHashes height →
    ∀ doc ∈ db.visible, doc.collection ∈ blockScoped → doc.height? = some height → doc ∈ removed

theorem rollbackHeight_left {db : DB} (single : SingleBlocks db)
    (chainHashes : HeightMap String) (height : Int) (budget : Nat) :
    ∃ removed, HeightLeft db chainHashes height
      (rollbackHeight chainHashes height (budget, db)) removed := by
  by_cases orphan : Orphan db chainHashes height
  · obtain ⟨_, stored, _, _, answered, present, _⟩ := id orphan
    obtain ⟨block, held, _⟩ := getStoredBlockHash_stored answered present
    obtain ⟨children, split, childless⟩ := heightPlan_block_last held
    obtain ⟨count, bound, left, all⟩ := deleteChunks_left (heightPlan db height) budget db
    have everything : ∀ doc ∈ db.visible, doc.collection ∈ blockScoped →
        doc.height? = some height → count = (heightPlan db height).length →
        doc ∈ ((heightPlan db height).take count).flatten := by
      intro doc visible tracked located whole
      rw [whole, List.take_length]
      exact mem_heightPlan.mpr ⟨visible, tracked, located⟩
    refine ⟨((heightPlan db height).take count).flatten, ?_, ?_, ?_, ?_⟩
    · rw [rollbackHeight_orphan orphan, left]
    · intro doc member
      have planned : doc ∈ (heightPlan db height).flatten := by
        obtain ⟨chunk, taken, inside⟩ := List.mem_flatten.mp member
        exact List.mem_flatten.mpr ⟨chunk, List.mem_of_mem_take taken, inside⟩
      obtain ⟨visible, tracked, located⟩ := mem_heightPlan.mp planned
      exact ⟨visible, tracked, located, orphan⟩
    · -- the block document sits in the last chunk, so it goes only with the whole plan
      intro blockDoc blockAt gone doc visible tracked located
      apply everything doc visible tracked located
      rw [held, List.mem_singleton] at blockAt
      subst blockAt
      by_contra partly
      have short : count ≤ children.length := by
        rw [split, List.length_append, List.length_singleton] at bound partly
        omega
      rw [split, List.take_append_of_le_length short] at gone
      obtain ⟨chunk, taken, inside⟩ := List.mem_flatten.mp gone
      have isBlock := (mem_blocksAt.mp (held ▸ List.mem_singleton.mpr rfl)).2.1
      exact childless blockDoc (List.mem_flatten.mpr ⟨chunk, List.mem_of_mem_take taken, inside⟩)
        isBlock
    · intro succeeded _ doc visible tracked located
      rw [rollbackHeight_orphan orphan] at succeeded
      exact everything doc visible tracked located (all succeeded)
  · refine ⟨[], ?_, by simp, by simp, fun _ found => absurd found orphan⟩
    simp [rollbackHeight_kept single orphan, leftBy]

theorem rollbackHeight_enough {db : DB} (single : SingleBlocks db)
    (chainHashes : HeightMap String) (height : Int) :
    ∃ enough next, ∀ budget ≥ enough,
      rollbackHeight chainHashes height (budget, db) = .ok (budget - enough, next) := by
  by_cases orphan : Orphan db chainHashes height
  · obtain ⟨next, done⟩ := deleteChunks_enough (heightPlan db height) db
    refine ⟨(heightPlan db height).length, next, fun budget more => ?_⟩
    rw [rollbackHeight_orphan orphan, done budget more]
  · exact ⟨0, db, fun budget _ => by rw [rollbackHeight_kept single orphan, Nat.sub_zero]⟩

/-! ### A range of heights -/

/-- Documents of the other heights are not touched. -/
theorem docsAt_of_removed {left right : DB} {removed : List Doc} {height : Int}
    (visible : left.visible = right.visible.filter (fun doc => doc ∉ removed))
    (elsewhere : ∀ doc ∈ removed, doc.height? ≠ some height) (collection : Collection) :
    docsAt left height collection = docsAt right height collection := by
  rw [docsAt, docsAt, visible, List.filter_filter]
  apply List.filter_congr
  intro doc _
  by_cases located : doc.height? = some height
  · have kept : doc ∉ removed := fun gone => elsewhere doc gone located
    simp [kept]
  · simp [located]

theorem mem_blocksAt_removed {left right : DB} {removed : List Doc} {height : Int} {doc : Doc}
    (visible : left.visible = right.visible.filter (fun doc => doc ∉ removed)) :
    doc ∈ blocksAt left height ↔ doc ∈ blocksAt right height ∧ doc ∉ removed := by
  simp only [mem_blocksAt, visible, List.mem_filter, decide_eq_true_eq]
  tauto

theorem SingleBlocks.of_removed {left right : DB} {removed : List Doc}
    (single : SingleBlocks right)
    (visible : left.visible = right.visible.filter (fun doc => doc ∉ removed)) :
    SingleBlocks left := by
  intro height
  refine Nat.le_trans ?_ (single height)
  rw [blocksAt, docsAt, visible, List.filter_filter, blocksAt, docsAt]
  apply List.Sublist.length_le
  apply List.monotone_filter_right
  intro doc both
  simp only [Bool.and_eq_true, decide_eq_true_eq] at both ⊢
  exact both.1

theorem orphan_congr {left right : DB} {chainHashes : HeightMap String} {height : Int}
    (same : blocksAt left height = blocksAt right height) :
    Orphan left chainHashes height ↔ Orphan right chainHashes height := by
  simp only [Orphan, getStoredBlockHash_congr same]

/-- The same account for a list of heights. -/
structure RangeLeft (db : DB) (chainHashes : HeightMap String) (heights : List Int)
    (outcome : RollbackM (Nat × DB)) (removed : List Doc) : Prop where
  visible : (leftBy outcome).visible = db.visible.filter (fun doc => doc ∉ removed)
  condemned : ∀ doc ∈ removed, doc ∈ db.visible ∧ Condemned db chainHashes heights doc
  blockLast : ∀ height ∈ heights, ∀ block ∈ blocksAt db height, block ∈ removed →
    ∀ doc ∈ db.visible, doc.collection ∈ blockScoped → doc.height? = some height → doc ∈ removed
  complete : (∃ state, outcome = .ok state) →
    ∀ doc ∈ db.visible, Condemned db chainHashes heights doc → doc ∈ removed
  sequential : heights.Pairwise fun earlier later =>
    (∃ doc ∈ removed, doc.height? = some later) → ∀ doc ∈ db.visible,
      doc.collection ∈ blockScoped → doc.height? = some earlier →
      Orphan db chainHashes earlier → doc ∈ removed

theorem rollbackHeights_left {db : DB} (single : SingleBlocks db)
    (chainHashes : HeightMap String) (heights : List Int) (distinct : heights.Nodup)
    (budget : Nat) :
    ∃ removed, RangeLeft db chainHashes heights
      (rollbackHeights chainHashes heights (budget, db)) removed := by
  induction heights generalizing db budget with
  | nil =>
      refine ⟨[], by simp [rollbackHeights, leftBy], by simp, by simp, ?_, .nil⟩
      rintro _ doc _ ⟨_, height, member, _⟩
      simp at member
  | cons height heights ih =>
      obtain ⟨fresh, distinct⟩ := List.nodup_cons.mp distinct
      obtain ⟨first, left⟩ := rollbackHeight_left single chainHashes height budget
      have condemnFirst : ∀ doc ∈ first, doc ∈ db.visible ∧
          Condemned db chainHashes (height :: heights) doc := by
        intro doc member
        obtain ⟨visible, tracked, located, orphan⟩ := left.own doc member
        exact ⟨visible, tracked, height, .head _, located, orphan⟩
      cases ran : rollbackHeight chainHashes height (budget, db) with
      | error failure =>
          have only : ∀ doc ∈ first, ∀ other ∈ heights, doc.height? ≠ some other := by
            intro doc member other later same
            rw [(left.own doc member).2.2.1, Option.some.injEq] at same
            exact fresh (same ▸ later)
          refine ⟨first, ?_, condemnFirst, ?_, ?_, ?_⟩
          · simpa only [rollbackHeights, ran] using left.visible
          · intro other member block blockAt gone doc visible tracked located
            rcases List.mem_cons.mp member with rfl | later
            · exact left.blockLast block blockAt gone doc visible tracked located
            · have elsewhere := (left.own block gone).2.2.1
              rw [(mem_blocksAt.mp blockAt).2.2, Option.some.injEq] at elsewhere
              exact absurd (elsewhere ▸ later) fresh
          · rintro ⟨state, succeeded⟩
            simp [rollbackHeights, ran] at succeeded
          · refine List.pairwise_cons.mpr ⟨?_, ?_⟩
            · rintro other later ⟨doc, gone, located⟩
              exact absurd located (only doc gone other later)
            · refine List.Pairwise.imp_of_mem ?_ (List.pairwise_of_forall fun _ _ => trivial)
              rintro other third _ later _ ⟨doc, gone, located⟩
              exact absurd located (only doc gone third later)
      | ok next =>
          rcases next with ⟨rest, middle⟩
          have between : middle.visible = db.visible.filter (fun doc => doc ∉ first) := by
            simpa only [ran, leftBy] using left.visible
          have untouched : ∀ other ∈ heights, ∀ collection,
              docsAt middle other collection = docsAt db other collection := by
            intro other later collection
            apply docsAt_of_removed between
            intro doc member same
            rw [(left.own doc member).2.2.1, Option.some.injEq] at same
            exact fresh (same ▸ later)
          obtain ⟨second, after⟩ := ih (single.of_removed between) distinct rest
          have stillVisible : ∀ doc, doc ∈ middle.visible ↔ doc ∈ db.visible ∧ doc ∉ first := by
            intro doc
            simp [between]
          have sameOrphans : ∀ other ∈ heights,
              (Orphan middle chainHashes other ↔ Orphan db chainHashes other) :=
            fun other later => orphan_congr (untouched other later .block)
          refine ⟨first ++ second, ?_, ?_, ?_, ?_, ?_⟩
          · simp only [rollbackHeights, ran, after.visible, between, List.filter_filter]
            apply List.filter_congr
            intro doc _
            by_cases early : doc ∈ first <;> simp [early]
          · intro doc member
            rcases List.mem_append.mp member with early | late
            · exact condemnFirst doc early
            · obtain ⟨visible, tracked, other, later, located, orphan⟩ := after.condemned doc late
              exact ⟨((stillVisible doc).mp visible).1, tracked, other, .tail _ later, located,
                (sameOrphans other later).mp orphan⟩
          · intro other member block blockAt gone doc visible tracked located
            rcases List.mem_cons.mp member with rfl | later
            · rcases List.mem_append.mp gone with early | late
              · exact List.mem_append_left _
                  (left.blockLast block blockAt early doc visible tracked located)
              · -- later heights do not delete documents of this one
                obtain ⟨_, _, found, listed, elsewhere, _⟩ := after.condemned block late
                rw [(mem_blocksAt.mp blockAt).2.2, Option.some.injEq] at elsewhere
                exact absurd (elsewhere ▸ listed) fresh
            · rcases List.mem_append.mp gone with early | late
              · have elsewhere := (left.own block early).2.2.1
                rw [(mem_blocksAt.mp blockAt).2.2, Option.some.injEq] at elsewhere
                exact absurd (elsewhere ▸ later) fresh
              · have inMiddle : doc ∈ docsAt middle other doc.collection := by
                  rw [untouched other later]
                  exact mem_docsAt.mpr ⟨visible, rfl, located⟩
                have blockMiddle : block ∈ blocksAt middle other := by
                  rw [blocksAt, untouched other later]
                  exact blockAt
                exact List.mem_append_right _ (after.blockLast other later block blockMiddle late
                  doc (mem_docsAt.mp inMiddle).1 tracked located)
          · rintro ⟨state, succeeded⟩ doc visible ⟨tracked, other, member, located, orphan⟩
            rcases List.mem_cons.mp member with rfl | later
            · exact List.mem_append_left _
                (left.complete ⟨_, ran⟩ orphan doc visible tracked located)
            · have inMiddle : doc ∈ docsAt middle other doc.collection := by
                rw [untouched other later]
                exact mem_docsAt.mpr ⟨visible, rfl, located⟩
              have finished : ∃ state,
                  rollbackHeights chainHashes heights (rest, middle) = .ok state :=
                ⟨state, by simpa only [rollbackHeights, ran] using succeeded⟩
              exact List.mem_append_right _ (after.complete finished doc (mem_docsAt.mp inMiddle).1
                ⟨tracked, other, later, located, (sameOrphans other later).mpr orphan⟩)
          · refine List.pairwise_cons.mpr ⟨?_, ?_⟩
            · intro other later _ doc visible tracked located orphan
              exact List.mem_append_left _
                (left.complete ⟨_, ran⟩ orphan doc visible tracked located)
            · refine after.sequential.imp_of_mem ?_
              rintro other third member later ordered ⟨gone, removed, atThird⟩ doc visible tracked
                located orphan
              have inSecond : gone ∈ second := by
                rcases List.mem_append.mp removed with early | late
                · rw [(left.own gone early).2.2.1, Option.some.injEq] at atThird
                  exact absurd (atThird ▸ later) fresh
                · exact late
              have inMiddle : doc ∈ docsAt middle other doc.collection := by
                rw [untouched other member]
                exact mem_docsAt.mpr ⟨visible, rfl, located⟩
              exact List.mem_append_right _ (ordered ⟨gone, inSecond, atThird⟩ doc
                (mem_docsAt.mp inMiddle).1 tracked located ((sameOrphans other member).mpr orphan))

theorem rollbackHeights_enough {db : DB} (single : SingleBlocks db)
    (chainHashes : HeightMap String) (heights : List Int) :
    ∃ enough, ∀ budget ≥ enough, ∃ state,
      rollbackHeights chainHashes heights (budget, db) = .ok state := by
  induction heights generalizing db with
  | nil => exact ⟨0, fun budget _ => ⟨(budget, db), rfl⟩⟩
  | cons height heights ih =>
      obtain ⟨first, middle, done⟩ := rollbackHeight_enough single chainHashes height
      have singleMiddle : SingleBlocks middle := by
        obtain ⟨removed, left⟩ := rollbackHeight_left single chainHashes height first
        apply single.of_removed
        simpa only [done first (Nat.le_refl _), leftBy] using left.visible
      obtain ⟨later, finished⟩ := ih singleMiddle
      refine ⟨first + later, fun budget more => ?_⟩
      obtain ⟨state, ended⟩ := finished (budget - first) (by omega)
      exact ⟨state, by rw [rollbackHeights, done budget (by omega)]; exact ended⟩

/-! ### The whole rollback -/

theorem mem_descending {low high height : Int} :
    height ∈ descending low high ↔ low ≤ height ∧ height ≤ high := by
  simp only [descending, List.mem_map, List.mem_range]
  constructor
  · rintro ⟨offset, bound, rfl⟩
    omega
  · intro bounds
    exact ⟨(high - height).toNat, by omega, by omega⟩

theorem descending_nodup (low high : Int) : (descending low high).Nodup := by
  apply List.Nodup.map _ List.nodup_range
  intro left right same
  have equal : high - (left : Int) = high - (right : Int) := same
  omega

/-- Higher heights of the range come first. -/
theorem descending_pairwise {low high upper lower : Int} {before : Int → Int → Prop}
    (ordered : (descending low high).Pairwise before) (bottom : low ≤ lower) (higher : lower < upper)
    (top : upper ≤ high) : before upper lower := by
  have at_index : ∀ height, low ≤ height → height ≤ high →
      (descending low high)[(high - height).toNat]? = some height := by
    intro height above below
    simp only [descending, List.getElem?_map, List.getElem?_range (show (high - height).toNat <
      (high - low + 1).toNat by omega), Option.map_some, Option.some.injEq]
    omega
  obtain ⟨upperBound, atUpper⟩ := List.getElem?_eq_some_iff.mp (at_index upper (by omega) top)
  obtain ⟨lowerBound, atLower⟩ := List.getElem?_eq_some_iff.mp (at_index lower bottom (by omega))
  have pair := List.pairwise_iff_getElem.mp ordered _ _ upperBound lowerBound (by omega)
  rwa [atUpper, atLower] at pair

/-- The wrapped error does not change what is left. -/
theorem rollbackBlocks_leftBy (low high : Int) (chainHashes : HeightMap String) (budget : Nat)
    (db : DB) :
    leftBy (rollbackBlocks low high chainHashes budget db) =
      leftBy (rollbackHeights chainHashes (descending low high) (budget, db)) := by
  unfold rollbackBlocks
  cases rollbackHeights chainHashes (descending low high) (budget, db) <;> rfl

/-! ### What the store remembers -/

section Keeping

variable {property : DB → Prop}
  (kept : ∀ (db : DB) (selected : Doc → Bool), property db → property (db.softDelete selected))
include kept

theorem deleteChunks_keeps (chunks : List (List Doc)) (budget : Nat) {db : DB}
    (holds : property db) : property (leftBy (deleteChunks chunks (budget, db))) := by
  induction chunks generalizing budget db with
  | nil => exact holds
  | cons chunk chunks ih =>
      cases budget with
      | zero => exact holds
      | succ budget => exact ih budget (kept db _ holds)

theorem rollbackHeight_keeps (chainHashes : HeightMap String) (height : Int) {state : Nat × DB}
    (holds : property state.2) : property (leftBy (rollbackHeight chainHashes height state)) := by
  unfold rollbackHeight
  split
  · exact holds
  · split
    · exact holds
    · split
      · exact holds
      · split
        · exact holds
        · rw [deleteCollections_eq_plan]
          exact deleteChunks_keeps kept _ state.1 holds

theorem rollbackHeights_keeps (chainHashes : HeightMap String) (heights : List Int)
    {state : Nat × DB} (holds : property state.2) :
    property (leftBy (rollbackHeights chainHashes heights state)) := by
  induction heights generalizing state with
  | nil => exact holds
  | cons height heights ih =>
      have first := rollbackHeight_keeps kept chainHashes height holds
      unfold rollbackHeights
      cases ran : rollbackHeight chainHashes height state with
      | error failure => rwa [ran] at first
      | ok next =>
          rw [ran] at first
          exact ih first

/-- What soft deletes keep, every rollback keeps, whether it is interrupted or not. -/
theorem rollbackBlocks_keeps (low high : Int) (chainHashes : HeightMap String) (budget : Nat)
    {db : DB} (holds : property db) :
    property (leftBy (rollbackBlocks low high chainHashes budget db)) := by
  rw [rollbackBlocks_leftBy]
  exact rollbackHeights_keeps kept chainHashes _ holds

end Keeping

theorem rollbackBlocks_holds (low high : Int) (chainHashes : HeightMap String) (budget : Nat)
    (db : DB) (doc : Doc) :
    (leftBy (rollbackBlocks low high chainHashes budget db)).Holds doc ↔ db.Holds doc :=
  @rollbackBlocks_keeps (fun left => left.Holds doc ↔ db.Holds doc)
    (fun _ _ same => SoftStore.holds_softDelete.trans same) low high chainHashes budget db Iff.rfl

theorem rollbackBlocks_ok {low high : Int} {chainHashes : HeightMap String} {budget : Nat}
    {db : DB} {state : Nat × DB} :
    rollbackBlocks low high chainHashes budget db = .ok state ↔
      rollbackHeights chainHashes (descending low high) (budget, db) = .ok state := by
  unfold rollbackBlocks
  cases rollbackHeights chainHashes (descending low high) (budget, db) <;>
    simp [Except.mapError]

theorem rollbackBlocks_left {db : DB} (single : SingleBlocks db) (low high : Int)
    (chainHashes : HeightMap String) (budget : Nat) :
    ∃ removed, RangeLeft db chainHashes (descending low high)
      (rollbackBlocks low high chainHashes budget db) removed := by
  obtain ⟨removed, left⟩ := rollbackHeights_left single chainHashes (descending low high)
    (descending_nodup low high) budget
  refine ⟨removed, ?_, left.condemned, left.blockLast, ?_, left.sequential⟩
  · rw [rollbackBlocks_leftBy, left.visible]
  · rintro ⟨state, succeeded⟩
    exact left.complete ⟨state, rollbackBlocks_ok.mp succeeded⟩

/-- The documents a completed rollback leaves. -/
def Survives (db : DB) (low high : Int) (chainHashes : HeightMap String) (doc : Doc) : Prop :=
  doc ∈ db.visible ∧ ¬ Condemned db chainHashes (descending low high) doc

theorem rollbackBlocks_success {db next : DB} {low high : Int} {chainHashes : HeightMap String}
    {budget rest : Nat} (single : SingleBlocks db)
    (succeeded : rollbackBlocks low high chainHashes budget db = .ok (rest, next)) (doc : Doc) :
    doc ∈ next.visible ↔ Survives db low high chainHashes doc := by
  obtain ⟨removed, left⟩ := rollbackBlocks_left single low high chainHashes budget
  have visible : next.visible = db.visible.filter (fun doc => doc ∉ removed) := by
    simpa only [succeeded, leftBy] using left.visible
  rw [visible, List.mem_filter, decide_eq_true_eq, Survives]
  refine and_congr_right fun present => not_congr ?_
  exact ⟨fun gone => (left.condemned doc gone).2, left.complete ⟨_, succeeded⟩ doc present⟩

/-- A height either still has its block document or has nothing left to delete. -/
theorem RangeLeft.block_present {db : DB} {chainHashes : HeightMap String} {heights : List Int}
    {outcome : RollbackM (Nat × DB)} {removed : List Doc}
    (left : RangeLeft db chainHashes heights outcome removed) {doc : Doc} {height : Int}
    (listed : height ∈ heights) (orphan : Orphan db chainHashes height)
    (remains : doc ∈ (leftBy outcome).visible) (tracked : doc.collection ∈ blockScoped)
    (located : doc.height? = some height) :
    blocksAt (leftBy outcome) height = blocksAt db height ∧ blocksAt db height ≠ [] := by
  obtain ⟨_, stored, _, _, answered, present, _⟩ := id orphan
  obtain ⟨block, held, _⟩ := getStoredBlockHash_stored answered present
  rw [left.visible, List.mem_filter, decide_eq_true_eq] at remains
  have kept : block ∉ removed := by
    intro gone
    exact remains.2 (left.blockLast height listed block (held ▸ List.mem_singleton.mpr rfl) gone
      doc remains.1 tracked located)
  refine ⟨?_, by simp [held]⟩
  rw [blocksAt, docsAt, left.visible, List.filter_filter]
  apply List.filter_congr
  intro other visible
  by_cases atHeight : other.collection = .block ∧ other.height? = some height
  · have same : other ∈ blocksAt db height := mem_blocksAt.mpr ⟨visible, atHeight⟩
    rw [held, List.mem_singleton] at same
    subst same
    simp [kept]
  · simp [atHeight]

/-- A height with a stored hash left over had the same block document before. -/
theorem RangeLeft.block_unchanged {db : DB} {chainHashes : HeightMap String} {heights : List Int}
    {outcome : RollbackM (Nat × DB)} {removed : List Doc} (single : SingleBlocks db)
    (left : RangeLeft db chainHashes heights outcome removed) {height : Int} {block : Doc}
    (held : blocksAt (leftBy outcome) height = [block]) : blocksAt db height = [block] := by
  have member : block ∈ blocksAt (leftBy outcome) height := held ▸ List.mem_singleton.mpr rfl
  obtain ⟨visible, isBlock⟩ := mem_blocksAt.mp member
  rw [left.visible, List.mem_filter] at visible
  exact single.eq_singleton (mem_blocksAt.mpr ⟨visible.1, isBlock⟩)

theorem RangeLeft.condemned_iff {db : DB} {chainHashes : HeightMap String} {heights : List Int}
    {outcome : RollbackM (Nat × DB)} {removed : List Doc} (single : SingleBlocks db)
    (left : RangeLeft db chainHashes heights outcome removed) {doc : Doc}
    (remains : doc ∈ (leftBy outcome).visible) :
    Condemned (leftBy outcome) chainHashes heights doc ↔ Condemned db chainHashes heights doc := by
  constructor
  · rintro ⟨tracked, height, listed, located, orphan⟩
    obtain ⟨_, stored, _, _, answered, present, _⟩ := id orphan
    obtain ⟨block, held, _⟩ := getStoredBlockHash_stored answered present
    have same := (left.block_unchanged single held).trans held.symm
    exact ⟨tracked, height, listed, located, (orphan_congr same.symm).mp orphan⟩
  · rintro ⟨tracked, height, listed, located, orphan⟩
    have same := (left.block_present listed orphan remains tracked located).1
    exact ⟨tracked, height, listed, located, (orphan_congr same).mpr orphan⟩

/-- An interruption does not change what the completed rollback leaves. -/
theorem survives_after_interruption {db : DB} (single : SingleBlocks db) (low high : Int)
    (chainHashes : HeightMap String) (budget : Nat) (doc : Doc) :
    Survives (leftBy (rollbackBlocks low high chainHashes budget db)) low high chainHashes doc ↔
      Survives db low high chainHashes doc := by
  obtain ⟨removed, left⟩ := rollbackBlocks_left single low high chainHashes budget
  constructor
  · rintro ⟨remains, spared⟩
    refine ⟨?_, fun condemned => spared ((left.condemned_iff single remains).mpr condemned)⟩
    rw [left.visible] at remains
    exact List.mem_of_mem_filter remains
  · rintro ⟨visible, spared⟩
    have remains : doc ∈ (leftBy (rollbackBlocks low high chainHashes budget db)).visible := by
      rw [left.visible, List.mem_filter, decide_eq_true_eq]
      exact ⟨visible, fun gone => spared (left.condemned doc gone).2⟩
    exact ⟨remains, fun condemned => spared ((left.condemned_iff single remains).mp condemned)⟩

theorem rollbackBlocks_enough {db : DB} (single : SingleBlocks db) (low high : Int)
    (chainHashes : HeightMap String) :
    ∃ enough, ∀ budget ≥ enough, ∃ state,
      rollbackBlocks low high chainHashes budget db = .ok state := by
  obtain ⟨enough, done⟩ := rollbackHeights_enough single chainHashes (descending low high)
  exact ⟨enough, fun budget more => (done budget more).imp fun _ => rollbackBlocks_ok.mpr⟩

/-- A completed rollback deletes exactly the documents of the verified orphan
heights. A rollback interrupted after any number of chunks can be run again:
it completes, it ends with the same documents, and meanwhile no height with
documents left to delete has lost its block document. -/
theorem rollbackBlocks_exact_and_resumable {db : DB} (single : SingleBlocks db) (low high : Int)
    (chainHashes : HeightMap String) :
    (∀ budget rest next, rollbackBlocks low high chainHashes budget db = .ok (rest, next) →
      ∀ doc, doc ∈ next.visible ↔ doc ∈ db.visible ∧ ¬ (doc.collection ∈ blockScoped ∧
        ∃ height, low ≤ height ∧ height ≤ high ∧ doc.height? = some height ∧
          ∃ chainHash stored, chainHashes.lookup height = some chainHash ∧ chainHash ≠ "" ∧
            getStoredBlockHash db height = .ok stored ∧ stored ≠ "" ∧ stored ≠ chainHash)) ∧
    (∀ interruption, ∃ left, left = leftBy (rollbackBlocks low high chainHashes interruption db) ∧
      (∃ enough, ∀ budget ≥ enough, ∃ state,
        rollbackBlocks low high chainHashes budget left = .ok state) ∧
      (∀ budget rest next again last final,
        rollbackBlocks low high chainHashes budget left = .ok (rest, next) →
        rollbackBlocks low high chainHashes again db = .ok (last, final) →
        ∀ doc, doc ∈ next.visible ↔ doc ∈ final.visible) ∧
      (∀ height, low ≤ height → height ≤ high → Orphan db chainHashes height →
        (∃ doc ∈ left.visible, doc.collection ∈ blockScoped ∧ doc.height? = some height) →
        ∃ block, blocksAt left height = [block])) := by
  refine ⟨?_, fun interruption => ⟨_, rfl, ?_, ?_, ?_⟩⟩
  · intro budget rest next succeeded doc
    rw [rollbackBlocks_success single succeeded doc]
    simp only [Survives, Condemned, Orphan, mem_descending, and_assoc]
  all_goals obtain ⟨removed, left⟩ := rollbackBlocks_left single low high chainHashes interruption
  · exact rollbackBlocks_enough (single.of_removed left.visible) low high chainHashes
  · intro budget rest next again last final succeeded direct doc
    rw [rollbackBlocks_success (single.of_removed left.visible) succeeded,
      rollbackBlocks_success single direct, survives_after_interruption single]
  · rintro height above below orphan ⟨doc, remains, tracked, located⟩
    have listed := mem_descending.mpr ⟨above, below⟩
    obtain ⟨same, stored⟩ := left.block_present listed orphan remains tracked located
    obtain ⟨block, held⟩ := List.exists_mem_of_ne_nil _ stored
    exact ⟨block, same ▸ single.eq_singleton held⟩

/-- A canonical block 6 below an orphan block 7 with one transaction. -/
def orphanedStore : DB :=
  { visible :=
      [⟨.block, [(numberFieldName, .int64 6), (hashFieldName, .string "0xa6")]⟩,
        ⟨.block, [(numberFieldName, .int64 7), (hashFieldName, .string "0xb7")]⟩,
        ⟨.transaction, [(blockNumberFieldName, .int64 7), (hashFieldName, .string "0xt")]⟩]
    deleted := []
    nodup := by decide
    separate := by decide }

theorem orphanedStore_single : SingleBlocks orphanedStore :=
  (by decide : BlocksListed orphanedStore [6, 7]).single (by decide)

theorem orphanedStore_rollback :
    (leftBy (rollbackBlocks 6 7 (AList.insert 7 "0xa7" ∅) 1 orphanedStore)).visible.length = 2 ∧
    ∃ block, blocksAt (leftBy (rollbackBlocks 6 7 (AList.insert 7 "0xa7" ∅) 0 orphanedStore)) 7 =
      [block] := by
  refine ⟨by decide, ?_⟩
  obtain ⟨left, rfl, _, _, kept⟩ := (rollbackBlocks_exact_and_resumable orphanedStore_single 6 7
    (AList.insert 7 "0xa7" ∅)).2 0
  exact kept 7 (by decide) (by decide) ⟨"0xa7", "0xb7", by decide, by decide, by decide, by decide,
    by decide⟩ ⟨_, List.mem_of_getElem? (i := 2) rfl, by decide, by decide⟩

end ShinzoGenerator.Defra
