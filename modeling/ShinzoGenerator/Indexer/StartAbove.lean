import ShinzoGenerator.Evm.Progress

/-! The start height against the stored blocks, for every outcome of the query for the
highest of them. -/

set_option autoImplicit false

namespace ShinzoGenerator.Indexer

open Chains Defra Evm

/-- Every visible block has a number below the height. -/
def AboveStored (db : DB) (height : Int) : Prop :=
  ∀ number, ∀ doc ∈ blocksAt db number, number < height

/-- An error, or a height to start from that no stored block has reached. -/
def StartsAbove (db : DB) : Except String Int → Prop
  | .error _ => True
  | .ok height => 0 ≤ height ∧ AboveStored db height

/-- The rows come in descending order: a number in the window is not below a stored one. -/
def Tops (node : Node) (blockCol : String) (db : DB) : Prop :=
  ∀ block number, some block ∈ (node (numberQuery blockCol "DESC" highestBlockQueryLimit)).rows →
    parseBlockNumberRow block = some number → AboveStored db (number + 1)

theorem AboveStored.mono {db : DB} {lower higher : Int} (above : AboveStored db lower)
    (ordered : lower ≤ higher) : AboveStored db higher :=
  fun number doc present => (above number doc present).trans_le ordered

section Outcomes

variable {converter : Converter} {node : Node} {db : DB}

/-- A window of one row holds no other number than the one the query returns. -/
theorem Tops.of_serves (serves : Serves node (converter.collections.name .block) db) :
    Tops node (converter.collections.name .block) db := by
  intro block number listed parsed height doc present
  obtain ⟨sorted, rows, _, _, shown, answered⟩ := serves.numbers .desc highestBlockQueryLimit
  have few : rows.length ≤ 1 := by
    rw [shown.length_eq]
    exact List.length_take_le 1 sorted
  change some block ∈ (node (numberQuery _ Direction.desc.text highestBlockQueryLimit)).rows at listed
  rw [answered] at listed
  have single : rows = [some block] := by
    cases rows with
    | nil => cases listed
    | cons row others =>
      cases others with
      | nil => rw [List.mem_singleton.mp listed]
      | cons other others => simp at few
  have found : converter.getHighestStoredBlockNumber node = .ok number := by
    change converter.queryBlockNumber node Direction.desc.text highestBlockQueryLimit = _
    simp [Converter.queryBlockNumber, answered, single, numberOfRows, firstUsableRow, parsed]
  rw [serves.getHighestStoredBlockNumber_eq] at found
  have most := (getHighestStoredBlockNumber_ok found).2 height doc present
  omega

/-- A height the query returns is not below a stored block. -/
theorem Tops.highest (tops : Tops node (converter.collections.name .block) db) {number : Int}
    (found : converter.getHighestStoredBlockNumber node = .ok number) :
    AboveStored db (number + 1) := by
  obtain ⟨block, listed, parsed⟩ := Converter.queryBlockNumber_ok found
  exact tops block number listed parsed

/-- Only a positive answer of the query counts. -/
theorem resolveStartHeight_unknown (cfg : StartConfig) {highest : Except HighestBlockError Int}
    (unknown : ¬ ∃ number, highest = .ok number ∧ 0 < number) (chainTip : Int) :
    resolveStartHeight cfg highest (.ok chainTip) =
      .ok (if 0 < cfg.startHeight then cfg.startHeight
        else max (chainTip - cfg.startBuffer) 0) := by
  unfold resolveStartHeight
  cases highest with
  | error error => exact (apply_ite Except.ok _ _ _).symm
  | ok number =>
    have none : ¬ 0 < number := fun positive => unknown ⟨number, rfl, positive⟩
    simp only [none, if_false]
    exact (apply_ite Except.ok _ _ _).symm

/-- After a positive answer the start is above it, also when the tip lags behind the store. -/
theorem resolveStartHeight_above (cfg : StartConfig) {number : Int} (positive : 0 < number)
    (chainTip : Int) :
    ∃ height, resolveStartHeight cfg (.ok number) (.ok chainTip) = .ok height ∧
      number + 1 ≤ height := by
  unfold resolveStartHeight
  simp only [positive, if_true]
  split
  · rename_i skipped
    exact ⟨_, rfl, by omega⟩
  · exact ⟨_, rfl, le_refl _⟩

/-- The stored blocks end before the height a start without a known block takes: the
configured one, or the tip less the buffer. -/
def EndsBefore (db : DB) (cfg : StartConfig) (chainTip : Int) : Prop :=
  ∀ number, ∀ doc ∈ blocksAt db number,
    if 0 < cfg.startHeight then number < cfg.startHeight
    else number < 0 ∨ number + cfg.startBuffer < chainTip

theorem endsBefore_iff (cfg : StartConfig) (chainTip : Int) :
    EndsBefore db cfg chainTip ↔
      StartsAbove db (.ok (if 0 < cfg.startHeight then cfg.startHeight
        else max (chainTip - cfg.startBuffer) 0)) := by
  unfold EndsBefore StartsAbove AboveStored
  split
  · rename_i configured
    exact (and_iff_right configured.le).symm
  · have each : ∀ number : Int, (number < 0 ∨ number + cfg.startBuffer < chainTip) ↔
        number < max (chainTip - cfg.startBuffer) 0 := by
      intro number
      rw [lt_max_iff]
      omega
    simp only [each]
    exact (and_iff_right (le_max_right _ _)).symm

/-- A start is above the stored blocks if the query names a positive height; otherwise
only if the blocks end before the height that is taken instead. -/
theorem resolveStartHeight_startsAbove_iff
    (tops : Tops node (converter.collections.name .block) db) (cfg : StartConfig)
    (latestBlock : Except String Int) :
    StartsAbove db (resolveStartHeight cfg (converter.getHighestStoredBlockNumber node)
        latestBlock) ↔
      ∀ chainTip, latestBlock = .ok chainTip →
        (∃ number, converter.getHighestStoredBlockNumber node = .ok number ∧ 0 < number) ∨
        EndsBefore db cfg chainTip := by
  cases latestBlock with
  | error error => exact iff_of_true trivial (fun _ impossible => by cases impossible)
  | ok tip =>
    simp only [Except.ok.injEq, forall_eq']
    by_cases known :
        ∃ number, converter.getHighestStoredBlockNumber node = .ok number ∧ 0 < number
    · refine iff_of_true ?_ (.inl known)
      obtain ⟨number, found, positive⟩ := known
      obtain ⟨height, resolved, higher⟩ := resolveStartHeight_above cfg positive tip
      rw [found, resolved]
      exact ⟨by omega, (tops.highest found).mono higher⟩
    · rw [resolveStartHeight_unknown cfg known, ← endsBefore_iff, or_iff_right known]

end Outcomes

/-! ### Stores and their queries -/

def storedBlock (number : Int) : Doc :=
  ⟨.block, [(numberFieldName, .int64 number), (hashFieldName, .string "0xaa")]⟩

theorem storedPair_nodup : [storedBlock 100, storedBlock 101].Nodup := by decide

def storedPair : DB where
  visible := [storedBlock 100, storedBlock 101]
  deleted := []
  nodup := storedPair_nodup
  separate _ _ := List.not_mem_nil

/-- The node shows the higher of the two blocks. -/
def answeringNode : Node := fun _ => ⟨[], some (.anys [some (storedBlock 101).fields])⟩

def failingNode : Node := fun _ => ⟨["connection lost"], none⟩

theorem blocksAt_storedPair {number : Int} {doc : Doc} (present : doc ∈ blocksAt storedPair number) :
    number = 100 ∨ number = 101 := by
  obtain ⟨visible, _, located⟩ := mem_blocksAt.mp present
  simp only [storedPair, List.mem_cons, List.not_mem_nil, or_false] at visible
  cases visible with
  | inl first =>
    subst first
    exact .inl (Option.some.inj located).symm
  | inr second =>
    subst second
    exact .inr (Option.some.inj located).symm

theorem answeringNode_tops : Tops answeringNode (unconfigured.collections.name .block) storedPair := by
  intro block number listed parsed height doc present
  have same : block = (storedBlock 101).fields := by simpa [answeringNode, GQL.rows] using listed
  subst same
  have shown : (101 : Int) = number := Option.some.inj parsed
  have stored := blocksAt_storedPair present
  omega

theorem answered_start_above :
    StartsAbove storedPair (resolveStartHeight ⟨100, 10⟩
      (unconfigured.getHighestStoredBlockNumber answeringNode) (.ok 150)) :=
  (resolveStartHeight_startsAbove_iff answeringNode_tops ⟨100, 10⟩ (.ok 150)).mpr
    fun _ _ => .inl ⟨101, rfl, by decide⟩

theorem failingNode_tops : Tops failingNode (unconfigured.collections.name .block) storedPair := by
  intro block number listed
  simp [failingNode, GQL.rows] at listed

/-- A failed query is taken for an empty store. -/
theorem failed_query_starts_on_stored :
    Tops failingNode (unconfigured.collections.name .block) storedPair ∧
      resolveStartHeight ⟨100, 10⟩ (unconfigured.getHighestStoredBlockNumber failingNode)
        (.ok 150) = .ok 100 ∧
      (blocksAt storedPair 100).length = 1 ∧
      ¬ StartsAbove storedPair (resolveStartHeight ⟨100, 10⟩
        (unconfigured.getHighestStoredBlockNumber failingNode) (.ok 150)) := by
  have started : resolveStartHeight ⟨100, 10⟩
      (unconfigured.getHighestStoredBlockNumber failingNode) (.ok 150) = .ok 100 := rfl
  refine ⟨failingNode_tops, started, by decide, fun above => ?_⟩
  rw [started] at above
  exact absurd (above.2 100 (storedBlock 100) (by decide)) (by decide)

end ShinzoGenerator.Indexer
