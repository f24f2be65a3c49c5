import Mathlib.Data.Set.Finite.Basic
import ShinzoGenerator.Defra.StoreAccount

/-! `SignExisting`: a signature for a block that is already stored. Completeness is
inferred from counts: as many documents of the height as each group has, and as many
CIDs as documents. -/

set_option autoImplicit false

namespace ShinzoGenerator.Defra

open Chains Errors

variable {σ : Type}

/-! ### The queries -/

/-- The rows of one collection whose field holds the block number. -/
def rowsAt (db : DB) (collection : Collection) (field : String) (blockNumber : Int) : List Doc :=
  db.visible.filter fun doc =>
    doc.collection = collection ∧ toInt64? (doc.fields.lookup field) = some blockNumber

def queryCollectionDocIDs (handler : BlockHandler) (db : DB) (collection : Collection)
    (field : String) (blockNumber : Int) : List String :=
  (rowsAt db collection field blockNumber).map handler.docID

/-- The CIDs of the versions of each stored document, by the attempt that asks for them:
they arrive late, and the query of a collection may fail. A CID belongs to one document. -/
structure CIDSource where
  versions : Nat → Doc → List String
  failing : Nat → Collection → Bool
  own : ∀ attempt other left right cid, cid ∈ versions attempt left →
    cid ∈ versions other right → left = right

/-- A failed query counts as one without rows. -/
def extractCIDsFromCollection (source : CIDSource) (handler : BlockHandler) (db : DB)
    (attempt : Nat) (docIDs : List String) (collection : Collection) : List String :=
  if source.failing attempt collection then []
  else
    (db.visible.filter fun doc => doc.collection = collection ∧ handler.docID doc ∈ docIDs).flatMap
      (source.versions attempt)

def collectDocCIDs (source : CIDSource) (handler : BlockHandler) (db : DB) (attempt : Nat)
    (docIDs : List String) (collections : List Collection) : List String :=
  if docIDs = [] then []
  else collections.flatMap (extractCIDsFromCollection source handler db attempt docIDs)

/-! ### The calls -/

def maxCIDRetries : Nat := 15

/-- The error after the last attempt, with the count it ended on. -/
def incompleteCIDs (blockNumber : Int) (docCount last : Nat) : String :=
  let got := "got " ++ toString last ++ " CIDs for " ++ toString docCount ++ " docs"
  if last = 0 then
    "no CIDs found for block " ++ toString blockNumber ++ " after " ++ toString maxCIDRetries ++
      " retries (" ++ toString docCount ++ " docs): " ++ got
  else
    "incomplete CID coverage for block " ++ toString blockNumber ++ " after " ++
      toString maxCIDRetries ++ " retries (" ++ toString last ++ "/" ++ toString docCount ++
      " docs as of attempt " ++ toString maxCIDRetries ++ "/" ++ toString maxCIDRetries ++ "): " ++
      got

/-- Asks for the CIDs until there are as many as documents; the context is tested
before each attempt and in the wait behind it. -/
def waitForCIDs (env : Environment) (source : CIDSource) (handler : BlockHandler)
    (blockNumber : Int) (docIDs : List String) (collections : List Collection) :
    Nat → Nat → Nat → Write σ (List String)
  | _, last, 0 => Attempt.fail { text := incompleteCIDs blockNumber docIDs.length last }
  | attempt, _, remaining + 1 => do
      if ← cancelled env then Attempt.fail { text := contextCanceled }
      else
        let session ← Attempt.read
        let cids := collectDocCIDs source handler session.db attempt docIDs collections
        if docIDs.length ≤ cids.length then pure cids
        else if remaining = 0 then
          waitForCIDs env source handler blockNumber docIDs collections (attempt + 1) cids.length 0
        else if ← cancelled env then Attempt.fail { text := contextCanceled }
        else
          waitForCIDs env source handler blockNumber docIDs collections (attempt + 1) cids.length
            remaining

/-- The ids of the documents stored at the height, group by group, unless one of the
collections has fewer than its group. -/
def queryGroups (env : Environment) (handler : BlockHandler) (blockNumber : Int) :
    List DocumentGroup → Write σ (List String)
  | [] => pure []
  | group :: rest => do
      let name := handler.collectionName group.collection
      if group.blockNumField = "" then
        Attempt.fail { text := "group " ++ name ++ " has empty BlockNumField" }
      else
        call env ("query docIDs for " ++ name ++ ": ")
        let session ← Attempt.read
        let docIDs := queryCollectionDocIDs handler session.db group.collection
          group.blockNumField blockNumber
        if docIDs.length < group.docs.length then
          Attempt.fail
            { text := "failed to sign incomplete block " ++ toString blockNumber ++
                ": collection " ++ name ++ " has " ++ toString docIDs.length ++
                " stored docs, expected " ++ toString group.docs.length }
        else
          let more ← queryGroups env handler blockNumber rest
          pure (docIDs ++ more)

def signExisting (env : Environment) (source : CIDSource) (handler : BlockHandler)
    (converted : ConversionResult) (blockHash : String) (blockNumber : Int) : Write σ String := do
  let allDocIDs ← queryGroups env handler blockNumber converted.groups
  let cids ← waitForCIDs env source handler blockNumber allDocIDs
    (converted.groups.map (·.collection)) 0 0 maxCIDRetries
  signBlockOverCIDs env handler blockNumber blockHash cids converted.signatureCollection

/-! ### What passes the counts -/

/-- Every group has a field to ask by, and its collection holds as many rows as it has
documents. -/
def CountsMet (db : DB) (groups : List DocumentGroup) (blockNumber : Int) : Prop :=
  ∀ group ∈ groups, group.blockNumField ≠ "" ∧ group.docs.length ≤
    (rowsAt db group.collection group.blockNumField blockNumber).length

/-- The ids of all rows of the groups' collections at the height. -/
def foundDocIDs (handler : BlockHandler) (db : DB) (groups : List DocumentGroup)
    (blockNumber : Int) : List String :=
  groups.flatMap fun group =>
    queryCollectionDocIDs handler db group.collection group.blockNumField blockNumber

/-- The attempt is the first that gets as many CIDs as there are documents. -/
structure FirstEnough (source : CIDSource) (handler : BlockHandler) (db : DB)
    (docIDs : List String) (collections : List Collection) (attempt : Nat) : Prop where
  enough : docIDs.length ≤
    (collectDocCIDs source handler db attempt docIDs collections).length
  early : ∀ before < attempt,
    (collectDocCIDs source handler db before docIDs collections).length < docIDs.length

/-- Nothing fails and the context is not cancelled. -/
structure Calm (env : Environment) : Prop where
  quiet : ∀ call, env.failure call = none
  running : ∀ call, env.cancelled call = false

section Spec

variable {env : Environment} {source : CIDSource} {handler : BlockHandler} {blockNumber : Int}

theorem Calm.refutes {call : Nat} {text : String} {claim : Prop}
    (failed : env.failure call = some text) : Calm env → claim := by
  intro calm
  rw [calm.quiet] at failed
  cases failed

/-- In a calm environment only the counts stop the queries. -/
theorem queryGroups_ensures (groups : List DocumentGroup) (session : Session σ) :
    (queryGroups env handler blockNumber groups).Ensures session
      (fun docIDs after => after.db = session.db ∧ CountsMet session.db groups blockNumber ∧
        docIDs = foundDocIDs handler session.db groups blockNumber)
      (fun _ after => after.db = session.db ∧
        (Calm env → ¬ CountsMet session.db groups blockNumber)) := by
  induction groups generalizing session with
  | nil => exact ⟨rfl, by simp [CountsMet], rfl⟩
  | cons group rest ih =>
      unfold queryGroups
      dsimp only
      split
      · rename_i unnamed
        exact ⟨rfl, fun _ met => (met group (.head _)).1 unnamed⟩
      · rename_i named
        simp only [Attempt.ensures_bind]
        refine call_cases (fun _ => ?_) fun _ failed => ⟨rfl, Calm.refutes failed⟩
        rw [Attempt.ensures_read]
        simp only [queryCollectionDocIDs, List.length_map]
        split
        · rename_i short
          exact ⟨rfl, fun _ met => Nat.not_le_of_lt short (met group (.head _)).2⟩
        · rename_i counted
          rw [Attempt.ensures_bind]
          refine (ih _).mono ?_ ?_
          · rintro more after ⟨same, met, rfl⟩
            refine ⟨same, ?_, rfl⟩
            intro other member
            cases member with
            | head => exact ⟨named, Nat.le_of_not_lt counted⟩
            | tail _ later => exact met other later
          · rintro error after ⟨same, unmet⟩
            exact ⟨same, fun calm met => unmet calm fun other later => met other (.tail _ later)⟩

/-- In a calm environment the wait ends with the first attempt that gets enough. -/
theorem waitForCIDs_ensures {docIDs : List String} {collections : List Collection}
    (attempt last remaining : Nat) (session : Session σ)
    (early : ∀ before < attempt, (collectDocCIDs source handler session.db before docIDs
      collections).length < docIDs.length) :
    (waitForCIDs env source handler blockNumber docIDs collections attempt last
      remaining).Ensures session
      (fun cids after => after.db = session.db ∧ ∃ final < attempt + remaining,
        FirstEnough source handler session.db docIDs collections final ∧
        cids = collectDocCIDs source handler session.db final docIDs collections)
      (fun _ after => after.db = session.db ∧ (Calm env → ∀ final < attempt + remaining,
        ¬ FirstEnough source handler session.db docIDs collections final)) := by
  induction remaining generalizing attempt last session with
  | zero =>
      unfold waitForCIDs
      rw [Attempt.ensures_fail]
      exact ⟨rfl, fun _ final bound first => Nat.not_le_of_lt (early final bound) first.enough⟩
  | succ remaining ih =>
      have stopped : ∀ {call : Nat} {claim : Prop}, env.cancelled call = true →
          Calm env → claim := by
        intro call claim met calm
        rw [calm.running] at met
        cases met
      unfold waitForCIDs
      rw [Attempt.ensures_bind]
      change (if env.cancelled session.calls = true then _ else _ : Write σ _).Ensures _ _ _
      split
      · rename_i met
        exact ⟨rfl, stopped met⟩
      · simp only [Attempt.ensures_bind, Attempt.ensures_read]
        split
        · rename_i enough
          exact ⟨rfl, attempt, by omega, ⟨enough, early⟩, rfl⟩
        · rename_i short
          have later : ∀ before < attempt + 1, (collectDocCIDs source handler session.db before
              docIDs collections).length < docIDs.length := by
            intro before bound
            rcases Nat.lt_succ_iff_lt_or_eq.mp bound with less | rfl
            · exact early before less
            · exact Nat.lt_of_not_le short
          have shift : attempt + (remaining + 1) = attempt + 1 + remaining := by omega
          rw [shift]
          split
          · rename_i done
            subst done
            exact ih (attempt + 1) _ { session with calls := session.calls + 1 } later
          · rw [Attempt.ensures_bind]
            change (if env.cancelled (session.calls + 1) = true then _ else _ :
              Write σ _).Ensures _ _ _
            split
            · rename_i met
              exact ⟨rfl, stopped met⟩
            · exact ih (attempt + 1) _ { session with calls := session.calls + 1 + 1 } later

theorem FirstEnough.unique {db : DB} {docIDs : List String} {collections : List Collection}
    {left right : Nat} (first : FirstEnough source handler db docIDs collections left)
    (other : FirstEnough source handler db docIDs collections right) : left = right := by
  rcases Nat.lt_trichotomy left right with less | same | more
  · exact absurd (other.early left less) (Nat.not_lt_of_le first.enough)
  · exact same
  · exact absurd (first.early right more) (Nat.not_lt_of_le other.enough)

/-- A signature is added only where the counts are met, over the CIDs of the first
attempt that gets enough. -/
theorem signExisting_ensures (converted : ConversionResult) (blockHash : String)
    (session : Session σ) :
    (signExisting env source handler converted blockHash blockNumber).Ensures session
      (fun id after => CountsMet session.db converted.groups blockNumber ∧
        ∃ attempt < maxCIDRetries,
          FirstEnough source handler session.db
            (foundDocIDs handler session.db converted.groups blockNumber)
            (converted.groups.map (·.collection)) attempt ∧
          ∃ doc, SignatureOver env converted.signatureCollection
            (collectDocCIDs source handler session.db attempt
              (foundDocIDs handler session.db converted.groups blockNumber)
              (converted.groups.map (·.collection))) doc ∧ id = handler.docID doc ∧
            after.db.visible = session.db.visible ++ [doc])
      (fun _ after => after.db = session.db) := by
  unfold signExisting
  simp only [Attempt.ensures_bind]
  refine (queryGroups_ensures converted.groups session).mono ?_ fun _ _ stopped => stopped.1
  rintro _ queried ⟨sameQueried, met, rfl⟩
  refine (waitForCIDs_ensures 0 0 maxCIDRetries queried (by simp)).mono ?_ ?_
  · rintro _ waited ⟨sameWaited, attempt, bound, first, rfl⟩
    rw [sameQueried] at first sameWaited ⊢
    refine (signBlockOverCIDs_ensures _ _ _ _ waited).mono ?_ fun _ _ same => same.trans sameWaited
    rintro id after ⟨fields, doc, built, signed, named, added⟩
    rw [sameWaited] at added
    exact ⟨met, attempt, by omega, first, doc, ⟨_, fields, _, _, signed, built⟩, named,
      SoftStore.add_ok_visible added⟩
  · rintro error waited ⟨same, _⟩
    exact same.trans sameQueried

end Spec

/-! ### When the counts can be trusted -/

/-- The document's id is among those asked for, and the attempt gets a CID of it. -/
def Served (source : CIDSource) (handler : BlockHandler) (docIDs : List String) (attempt : Nat)
    (doc : Doc) : Prop :=
  handler.docID doc ∈ docIDs ∧ source.failing attempt doc.collection = false ∧
    source.versions attempt doc ≠ []

def childlessBlock : Doc :=
  ⟨.block, [(numberFieldName, .int64 5), (hashFieldName, .string "0xb5")]⟩

def blockAndTransaction : ConversionResult where
  groups :=
    [{ collection := .block
       docs := [childlessBlock.fields]
       blockNumField := numberFieldName
       blockHashField := hashFieldName },
      { collection := .transaction
        docs := [[(blockNumberFieldName, .int64 5), (hashFieldName, .string "0xb1")]]
        blockNumField := blockNumberFieldName }]

/-- Two documents with one version each. -/
def oneVersionEach (first second : Doc) : CIDSource where
  versions _ doc :=
    if doc = first then ["bafyfirst"] else if doc = second then ["bafysecond"] else []
  failing _ _ := false
  own := by
    intro _ _ left right cid
    by_cases leftFirst : left = first <;> by_cases rightFirst : right = first <;>
      by_cases leftSecond : left = second <;> by_cases rightSecond : right = second <;>
      simp_all

end ShinzoGenerator.Defra
