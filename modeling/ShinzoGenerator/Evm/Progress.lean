import Mathlib.Data.List.Forall2
import Mathlib.Data.List.Perm.Basic
import ShinzoGenerator.Evm.Converter
import ShinzoGenerator.Indexer.StartHeight
import ShinzoGenerator.Pruner.Pruner

/-! The progress queries of the converter: the lowest and the highest stored block number,
out of the rows a node answers with. -/

set_option autoImplicit false

namespace ShinzoGenerator.Evm

open Chains Defra Indexer

/-! ### What a node answers -/

/-- The value under the name of the collection, by its dynamic type. -/
inductive Rows where
  /-- `[]any`; nothing stands for an element that is no map. -/
  | anys (rows : List (Option Fields))
  /-- `[]map[string]any`. -/
  | maps (rows : List Fields)
  | other

/-- The data is missing if it is no map. -/
structure GQL where
  errors : List String
  data : Option Rows

abbrev Node := String → GQL

/-! ### Queries -/

def highestBlockQueryLimit : Nat := 1

def numberQuery (blockCol order : String) (queryLimit : Nat) : String :=
  "query \x7b" ++ blockCol ++ " (filter: \x7b" ++ numberFieldName ++
    ": \x7b_geq: 0\x7d\x7d, order: \x7b" ++ numberFieldName ++ ": " ++ order ++ "\x7d, limit: " ++
    toString queryLimit ++ ") \x7b " ++ numberFieldName ++ " _docID \x7d\x7d"

def anyQuery (blockCol : String) : String :=
  "query \x7b" ++ blockCol ++ " (limit: 1) \x7b _docID \x7d\x7d"

def parseBlockNumberRow (block : Fields) : Option Int :=
  match block.lookup numberFieldName with
  | some (.float64 value) => some (value.num.tdiv value.den)
  | some (.int64 value) => some value
  | some (.int value) => some value
  | _ => none

/-- Rows that are not usable are skipped, and only logged if another one is. -/
def firstUsableRow : List (Option Fields) → Except HighestBlockError Int
  | [] => .error .blockNumberCorrupt
  | none :: rows => firstUsableRow rows
  | some block :: rows =>
      match parseBlockNumberRow block with
      | some number => .ok number
      | none => firstUsableRow rows

def hasAnyBlockDocs (node : Node) (blockCol : String) : Except HighestBlockError Bool :=
  let result := node (anyQuery blockCol)
  if result.errors ≠ [] then .error .queryFailed
  else
    match result.data with
    | none => .ok false
    | some (.anys rows) => .ok (0 < rows.length)
    | some (.maps rows) => .ok (0 < rows.length)
    | some .other => .ok false

/-- The part of `queryBlockNumber` behind the reading of the rows. -/
def numberOfRows (node : Node) (blockCol : String) (rows : List (Option Fields)) :
    Except HighestBlockError Int :=
  if rows = [] then do
    let present ← hasAnyBlockDocs node blockCol
    if present then .error .blockNumberCorrupt else .error .documentNotFound
  else firstUsableRow rows

def Converter.queryBlockNumber (converter : Converter) (node : Node) (order : String)
    (queryLimit : Nat) : Except HighestBlockError Int :=
  let blockCol := converter.collections.name .block
  let result := node (numberQuery blockCol order queryLimit)
  if result.errors ≠ [] then .error .queryFailed
  else
    match result.data with
    | none => .error .documentNotFound
    | some (.anys rows) => numberOfRows node blockCol rows
    | some (.maps rows) => numberOfRows node blockCol (rows.map some)
    | some .other => .error .documentNotFound

def Converter.getHighestStoredBlockNumber (converter : Converter) (node : Node) :
    Except HighestBlockError Int :=
  converter.queryBlockNumber node "DESC" highestBlockQueryLimit

/-- The limit is the configured one. -/
def Converter.getLowestStoredBlockNumber (converter : Converter) (node : Node)
    (lowestBlockQueryLimit : Nat) : Except HighestBlockError Int :=
  converter.queryBlockNumber node "ASC" lowestBlockQueryLimit

/-! ### Rows that are answered -/

/-- The rows of a reply, whatever type they come in. -/
def GQL.rows (result : GQL) : List (Option Fields) :=
  match result.data with
  | some (.anys rows) => rows
  | some (.maps rows) => rows.map some
  | _ => []

theorem firstUsableRow_ok {rows : List (Option Fields)} {number : Int}
    (found : firstUsableRow rows = .ok number) :
    ∃ block, some block ∈ rows ∧ parseBlockNumberRow block = some number := by
  induction rows with
  | nil => cases found
  | cons row rows hypothesis =>
    cases row with
    | none =>
      obtain ⟨block, listed, parsed⟩ := hypothesis found
      exact ⟨block, .tail _ listed, parsed⟩
    | some block =>
      rw [firstUsableRow] at found
      cases parsed : parseBlockNumberRow block with
      | none =>
        rw [parsed] at found
        obtain ⟨later, listed, parsedLater⟩ := hypothesis found
        exact ⟨later, .tail _ listed, parsedLater⟩
      | some first =>
        rw [parsed] at found
        cases found
        exact ⟨block, .head _, parsed⟩

theorem numberOfRows_ok {node : Node} {blockCol : String} {rows : List (Option Fields)}
    {number : Int} (found : numberOfRows node blockCol rows = .ok number) :
    firstUsableRow rows = .ok number := by
  unfold numberOfRows at found
  split at found
  · cases present : hasAnyBlockDocs node blockCol with
    | error error => simp [present, bind, Except.bind] at found
    | ok held => cases held <;> simp [present, bind, Except.bind] at found
  · exact found

/-- A number that is returned stands in one of the rows. -/
theorem Converter.queryBlockNumber_ok {converter : Converter} {node : Node} {order : String}
    {queryLimit : Nat} {number : Int}
    (found : converter.queryBlockNumber node order queryLimit = .ok number) :
    ∃ block, some block ∈
        (node (numberQuery (converter.collections.name .block) order queryLimit)).rows ∧
      parseBlockNumberRow block = some number := by
  apply firstUsableRow_ok
  unfold Converter.queryBlockNumber at found
  unfold GQL.rows
  dsimp only at found
  split at found
  · cases found
  · split at found
    · cases found
    · rename_i rows shape
      rw [shape]
      exact numberOfRows_ok found
    · rename_i rows shape
      rw [shape]
      exact numberOfRows_ok found
    · cases found

/-! ### Nodes that answer from the store -/

inductive Direction where
  | asc
  | desc

def Direction.text : Direction → String
  | .asc => "ASC"
  | .desc => "DESC"

def Direction.Before : Direction → Int → Int → Prop
  | .asc, left, right => left ≤ right
  | .desc, left, right => right ≤ left

/-- The visible blocks that pass the filter on the number. -/
def numberedBlocks (db : DB) : List Doc :=
  db.visible.filter fun doc => doc.collection = .block ∧ ∃ number ∈ doc.height?, 0 ≤ number

def Shows (row : Option Fields) (doc : Doc) : Prop :=
  ∃ block, row = some block ∧ block.lookup numberFieldName = doc.fields.lookup numberFieldName

/-- The queries are answered by filter, order and limit. -/
structure Serves (node : Node) (blockCol : String) (db : DB) : Prop where
  numbers : ∀ (direction : Direction) (limit : Nat),
    ∃ (sorted : List Doc) (rows : List (Option Fields)), sorted.Perm (numberedBlocks db) ∧
    sorted.Pairwise (fun left right => ∀ first ∈ left.height?, ∀ second ∈ right.height?,
      direction.Before first second) ∧
    List.Forall₂ Shows rows (sorted.take limit) ∧
    node (numberQuery blockCol direction.text limit) = ⟨[], some (.anys rows)⟩
  any : ∃ rows, node (anyQuery blockCol) = ⟨[], some (.anys rows)⟩ ∧
    (rows = [] ↔ ¬ ∃ doc ∈ db.visible, doc.collection = .block)

theorem mem_numberedBlocks {db : DB} {doc : Doc} :
    doc ∈ numberedBlocks db ↔
      doc ∈ db.visible ∧ doc.collection = .block ∧ ∃ number, doc.height? = some number ∧
        0 ≤ number := by
  simp [numberedBlocks]

theorem mem_blockNumbers_iff {db : DB} {number : Int} :
    number ∈ blockNumbers db ↔ ∃ doc ∈ numberedBlocks db, doc.height? = some number := by
  simp only [mem_blockNumbers, mem_numberedBlocks, mem_blocksAt]
  constructor
  · rintro ⟨nonneg, doc, visible, isBlock, located⟩
    exact ⟨doc, ⟨visible, isBlock, number, located, nonneg⟩, located⟩
  · rintro ⟨doc, ⟨visible, isBlock, other, shown, nonneg⟩, located⟩
    rw [shown, Option.some.injEq] at located
    subst located
    exact ⟨nonneg, doc, visible, isBlock, shown⟩

theorem Shows.parse {row : Option Fields} {doc : Doc} (shows_ : Shows row doc)
    (isBlock : doc.collection = .block) :
    ∃ block, row = some block ∧ parseBlockNumberRow block = doc.height? := by
  obtain ⟨block, same, number⟩ := shows_
  refine ⟨block, same, ?_⟩
  rw [parseBlockNumberRow, number, Doc.height?, isBlock, Collection.heightField]
  cases doc.fields.lookup numberFieldName with
  | none => rfl
  | some value => cases value <;> rfl

section Served

variable {converter : Converter} {node : Node} {db : DB}

/-- What the query returns is the first number in its direction. -/
theorem Serves.queryBlockNumber_first
    (serves : Serves node (converter.collections.name .block) db) (direction : Direction)
    {limit : Nat} (window : 0 < limit) {doc : Doc} (held : doc ∈ numberedBlocks db) :
    ∃ number, converter.queryBlockNumber node direction.text limit = .ok number ∧
      number ∈ blockNumbers db ∧ ∀ other ∈ blockNumbers db, direction.Before number other := by
  obtain ⟨sorted, rows, same, ordered, shown, answered⟩ := serves.numbers direction limit
  cases sorted with
  | nil => exact absurd (same.mem_iff.mpr held) (List.not_mem_nil)
  | cons first later =>
    obtain ⟨limit, rfl⟩ := Nat.exists_eq_succ_of_ne_zero window.ne'
    have listed : first ∈ numberedBlocks db := same.mem_iff.mp (.head _)
    obtain ⟨visible, isBlock, number, located, nonneg⟩ := mem_numberedBlocks.mp listed
    cases shown with
    | cons firstShown _ =>
      obtain ⟨block, rfl, parsed⟩ := firstShown.parse isBlock
      refine ⟨number, ?_, mem_blockNumbers_iff.mpr ⟨first, listed, located⟩, ?_⟩
      · simp [Converter.queryBlockNumber, answered, numberOfRows, firstUsableRow, parsed, located]
      · intro other member
        obtain ⟨row, rowListed, rowNumber⟩ := mem_blockNumbers_iff.mp member
        cases same.mem_iff.mpr rowListed with
        | head =>
          rw [located, Option.some.injEq] at rowNumber
          subst rowNumber
          cases direction <;> exact le_refl number
        | tail _ behind =>
          exact (List.pairwise_cons.mp ordered).1 row behind number located other rowNumber

/-- Without a numbered block the second query tells corruption from an empty collection. -/
theorem Serves.queryBlockNumber_none
    (serves : Serves node (converter.collections.name .block) db) (direction : Direction)
    (limit : Nat) (empty : numberedBlocks db = []) :
    converter.queryBlockNumber node direction.text limit =
      if db.visible.any (·.collection = .block) then .error .blockNumberCorrupt
      else .error .documentNotFound := by
  obtain ⟨sorted, rows, same, _, shown, answered⟩ := serves.numbers direction limit
  rw [empty] at same
  cases same.eq_nil
  rw [List.take_nil] at shown
  cases shown
  obtain ⟨present, any, held⟩ := serves.any
  have some_ : (0 < present.length) ↔ db.visible.any (·.collection = .block) = true := by
    rw [List.length_pos_iff, ne_eq, held, not_not, List.any_eq_true]
    simp
  by_cases stored : db.visible.any (·.collection = .block) = true
  · simp [Converter.queryBlockNumber, answered, numberOfRows, hasAnyBlockDocs, any,
      some_.mpr stored, stored, bind, Except.bind]
  · simp [Converter.queryBlockNumber, answered, numberOfRows, hasAnyBlockDocs, any,
      mt some_.mp stored, stored, bind, Except.bind]

theorem numberedBlocks_eq_nil_iff : numberedBlocks db = [] ↔ blockNumbers db = [] := by
  simp only [List.eq_nil_iff_forall_not_mem, mem_blockNumbers_iff]
  constructor
  · rintro none number ⟨doc, listed, _⟩
    exact none doc listed
  · intro none doc listed
    obtain ⟨_, _, number, located, _⟩ := mem_numberedBlocks.mp listed
    exact none number ⟨doc, listed, located⟩

/-- On a node that answers from the store, the query is the highest visible number. -/
theorem Serves.getHighestStoredBlockNumber_eq
    (serves : Serves node (converter.collections.name .block) db) :
    converter.getHighestStoredBlockNumber node =
      Indexer.getHighestStoredBlockNumber false db := by
  have query : converter.getHighestStoredBlockNumber node =
      converter.queryBlockNumber node Direction.desc.text 1 := rfl
  rw [query, Indexer.getHighestStoredBlockNumber, if_neg (by decide)]
  cases held : numberedBlocks db with
  | nil =>
    rw [serves.queryBlockNumber_none .desc 1 held, numberedBlocks_eq_nil_iff.mp held]
    rfl
  | cons doc docs =>
    obtain ⟨number, found, stored, most⟩ :=
      serves.queryBlockNumber_first .desc Nat.one_pos (held ▸ List.mem_cons_self : doc ∈ _)
    rw [found, List.max?_eq_some_iff.mpr ⟨stored, most⟩]

theorem Serves.getLowestStoredBlockNumber_eq
    (serves : Serves node (converter.collections.name .block) db) {limit : Nat}
    (window : 0 < limit) :
    converter.getLowestStoredBlockNumber node limit =
      Pruner.getLowestStoredBlockNumber false db := by
  have query : converter.getLowestStoredBlockNumber node limit =
      converter.queryBlockNumber node Direction.asc.text limit := rfl
  rw [query, Pruner.getLowestStoredBlockNumber, if_neg (by decide)]
  cases held : numberedBlocks db with
  | nil =>
    rw [serves.queryBlockNumber_none .asc limit held, numberedBlocks_eq_nil_iff.mp held]
    rfl
  | cons doc docs =>
    obtain ⟨number, found, stored, least⟩ :=
      serves.queryBlockNumber_first .asc window (held ▸ List.mem_cons_self : doc ∈ _)
    rw [found, List.min?_eq_some_iff.mpr ⟨stored, least⟩]

end Served

end ShinzoGenerator.Evm
