import ShinzoGenerator.Errors
import ShinzoGenerator.Indexer.StoreWithRetry

/-! The retry loop around a block fetch. A block that the node does not know yet is
waited for without end; any other failure counts, and the third one ends the fetch. -/

set_option autoImplicit false

namespace ShinzoGenerator.Indexer

open Errors

/-- One turn of the loop: the context's error at its top and in its wait, if it is done
by then, and what the fetch in between answers. -/
structure FetchTurn (α : Type) where
  ctxErr : Option String := none
  answer : Except String α
  waitErr : Option String := none

/-- The loop with the failures counted so far; without a result it still runs. -/
def retryFetch {α : Type} (context : String) :
    List (FetchTurn α) → Nat → Option (Except String α)
  | [], _ => none
  | turn :: turns, otherErrors =>
      match turn.ctxErr with
      | some cancelled => some (.error cancelled)
      | none =>
          match turn.answer with
          | .ok fetched => some (.ok fetched)
          | .error text =>
              if isErrNotFound text then
                match turn.waitErr with
                | some cancelled => some (.error cancelled)
                | none => retryFetch context turns otherErrors
              else if maxRPCRetries ≤ otherErrors + 1 then some (.error (context ++ text))
              else
                match turn.waitErr with
                | some cancelled => some (.error cancelled)
                | none => retryFetch context turns (otherErrors + 1)

def fetchBlockWithRetry {α : Type} (blockNum : Int) (turns : List (FetchTurn α)) :
    Option (Except String α) :=
  retryFetch ("failed to fetch block " ++ toString blockNum ++ ": ") turns 0

/-! ### How the loop ends -/

variable {α : Type} {context : String} {turn : FetchTurn α} {turns : List (FetchTurn α)}
  {otherErrors : Nat} {outcome : Except String α}

/-- The attempt failed other than by not finding anything. -/
def FetchTurn.counts (turn : FetchTurn α) : Bool :=
  match turn.answer with
  | .ok _ => false
  | .error text => !isErrNotFound text

/-- A failed attempt under a live context. -/
structure FetchTurn.Failed (turn : FetchTurn α) : Prop where
  live : turn.ctxErr = none ∧ turn.waitErr = none
  failed : ∃ text, turn.answer = .error text

/-- The turn ends the loop. -/
inductive Ends (context : String) (otherErrors : Nat) (turn : FetchTurn α) :
    Except String α → Prop where
  | fetched {value : α} : turn.ctxErr = none → turn.answer = .ok value →
      Ends context otherErrors turn (.ok value)
  | givesUp {text : String} : turn.ctxErr = none → turn.answer = .error text →
      turn.counts = true → maxRPCRetries ≤ otherErrors + 1 →
      Ends context otherErrors turn (.error (context ++ text))
  | cancelled {text : String} : turn.ctxErr = some text →
      Ends context otherErrors turn (.error text)
  | cancelledWaiting {text failure : String} : turn.ctxErr = none →
      turn.answer = .error failure → (turn.counts = true → otherErrors + 1 < maxRPCRetries) →
      turn.waitErr = some text → Ends context otherErrors turn (.error text)

theorem counts_of_error {text : String} (failed : turn.answer = .error text) :
    turn.counts = !isErrNotFound text := by
  rw [FetchTurn.counts, failed]

theorem Ends.run (ends : Ends context otherErrors turn outcome) (turns : List (FetchTurn α)) :
    retryFetch context (turn :: turns) otherErrors = some outcome := by
  unfold retryFetch
  cases ends with
  | fetched live answered => simp only [live, answered]
  | givesUp live failed counted last =>
      rw [counts_of_error failed, Bool.not_eq_true'] at counted
      simp only [live, failed, counted, Bool.false_eq_true, if_false, last, if_true]
  | cancelled done => simp only [done]
  | @cancelledWaiting _ failure live failed room done =>
      rw [counts_of_error failed, Bool.not_eq_true'] at room
      cases found : isErrNotFound failure with
      | true => simp only [live, failed, found, if_true, done]
      | false =>
          have under := Nat.not_le.mpr (room found)
          simp only [live, failed, found, Bool.false_eq_true, if_false, under, done]

/-- A failure that is not the last one is followed by the next turn. -/
theorem FetchTurn.Failed.next (failed : turn.Failed)
    (room : otherErrors + turn.counts.toNat < maxRPCRetries) (turns : List (FetchTurn α)) :
    retryFetch context (turn :: turns) otherErrors =
      retryFetch context turns (otherErrors + turn.counts.toNat) := by
  obtain ⟨⟨live, waited⟩, text, answered⟩ := failed
  rw [counts_of_error answered] at room ⊢
  rw [retryFetch]
  cases found : isErrNotFound text with
  | true => simp only [live, answered, found, if_true, waited, Bool.not_true, Bool.toNat_false,
      Nat.add_zero]
  | false =>
      rw [found, Bool.not_false, Bool.toNat_true] at room
      simp only [live, answered, found, Bool.false_eq_true, if_false, Nat.not_le.mpr room, waited,
        Bool.not_false, Bool.toNat_true]

theorem FetchTurn.ends_or_failed (context : String) (turn : FetchTurn α) (otherErrors : Nat) :
    (∃ outcome, Ends context otherErrors turn outcome) ∨
      turn.Failed ∧ (turn.counts = true → otherErrors + 1 < maxRPCRetries) := by
  cases done : turn.ctxErr with
  | some text => exact .inl ⟨_, .cancelled done⟩
  | none =>
      cases answered : turn.answer with
      | ok value => exact .inl ⟨_, .fetched done answered⟩
      | error text =>
          by_cases last : turn.counts = true ∧ maxRPCRetries ≤ otherErrors + 1
          · exact .inl ⟨_, .givesUp done answered last.1 last.2⟩
          · have room : turn.counts = true → otherErrors + 1 < maxRPCRetries := by
              intro counted
              exact Nat.lt_of_not_le fun full => last ⟨counted, full⟩
            cases waited : turn.waitErr with
            | some cut => exact .inl ⟨_, .cancelledWaiting done answered room waited⟩
            | none => exact .inr ⟨⟨⟨done, waited⟩, text, answered⟩, room⟩

/-- The failures that count, of all turns. -/
def otherFailures (turns : List (FetchTurn α)) : Nat := turns.countP FetchTurn.counts

theorem otherFailures_cons (turn : FetchTurn α) (turns : List (FetchTurn α)) :
    otherFailures (turn :: turns) = turn.counts.toNat + otherFailures turns := by
  rw [otherFailures, List.countP_cons, Nat.add_comm]
  cases turn.counts <;> rfl

theorem retryFetch_append (context : String) {before : List (FetchTurn α)}
    (all : ∀ failed ∈ before, failed.Failed)
    (room : otherErrors + otherFailures before < maxRPCRetries) (turns : List (FetchTurn α)) :
    retryFetch context (before ++ turns) otherErrors =
      retryFetch context turns (otherErrors + otherFailures before) := by
  induction before generalizing otherErrors with
  | nil => rfl
  | cons turn before ih =>
      rw [otherFailures_cons, ← Nat.add_assoc] at room ⊢
      rw [List.cons_append, (all turn List.mem_cons_self).next (by omega),
        ih (fun failed listed => all failed (List.mem_cons_of_mem _ listed)) room]

/-- Behind failures that are less than the limit the loop runs on, or a turn ends it. -/
theorem retryFetch_cases (context : String) (turns : List (FetchTurn α))
    (room : otherErrors < maxRPCRetries) :
    (∀ failed ∈ turns, failed.Failed) ∧ otherErrors + otherFailures turns < maxRPCRetries ∨
      ∃ before turn after outcome, turns = before ++ turn :: after ∧
        (∀ failed ∈ before, failed.Failed) ∧ otherErrors + otherFailures before < maxRPCRetries ∧
        Ends context (otherErrors + otherFailures before) turn outcome := by
  induction turns generalizing otherErrors with
  | nil => exact .inl ⟨by simp, room⟩
  | cons turn turns ih =>
      rcases turn.ends_or_failed context otherErrors with ⟨outcome, ends⟩ | ⟨failed, under⟩
      · exact .inr ⟨[], turn, turns, outcome, rfl, by simp, room, ends⟩
      · have counted : otherErrors + turn.counts.toNat < maxRPCRetries := by
          cases counts : turn.counts with
          | false => exact room
          | true => exact under counts
        rcases ih counted with ⟨all, fewer⟩ | ⟨before, last, after, outcome, rfl, all, fewer, ends⟩
        · rw [Nat.add_assoc, ← otherFailures_cons] at fewer
          exact .inl ⟨List.forall_mem_cons.mpr ⟨failed, all⟩, fewer⟩
        · rw [Nat.add_assoc, ← otherFailures_cons] at fewer ends
          exact .inr ⟨turn :: before, last, after, outcome, rfl,
            List.forall_mem_cons.mpr ⟨failed, all⟩, fewer, ends⟩

/-- The loop ends at a turn that ends it, behind failures that are less than the limit. -/
theorem retryFetch_eq_some_iff (room : otherErrors < maxRPCRetries) :
    retryFetch context turns otherErrors = some outcome ↔
      ∃ before turn after, turns = before ++ turn :: after ∧ (∀ failed ∈ before, failed.Failed) ∧
        otherErrors + otherFailures before < maxRPCRetries ∧
        Ends context (otherErrors + otherFailures before) turn outcome := by
  constructor
  · intro ended
    rcases retryFetch_cases context turns room with
      ⟨all, fewer⟩ | ⟨before, turn, after, found, rfl, all, fewer, ends⟩
    · have runs := retryFetch_append context all fewer []
      rw [List.append_nil, ended] at runs
      cases runs
    · rw [retryFetch_append context all fewer, ends.run, Option.some.injEq] at ended
      exact ⟨before, turn, after, rfl, all, fewer, ended ▸ ends⟩
  · intro ⟨before, turn, after, split, all, fewer, ends⟩
    rw [split, retryFetch_append context all fewer, ends.run]

theorem retryFetch_eq_none_iff (room : otherErrors < maxRPCRetries) :
    retryFetch context turns otherErrors = none ↔
      (∀ failed ∈ turns, failed.Failed) ∧ otherErrors + otherFailures turns < maxRPCRetries := by
  constructor
  · intro running
    rcases retryFetch_cases context turns room with
      all | ⟨before, turn, after, outcome, rfl, all, fewer, ends⟩
    · exact all
    · rw [retryFetch_append context all fewer, ends.run] at running
      cases running
  · intro ⟨all, fewer⟩
    have runs := retryFetch_append context all fewer []
    rwa [List.append_nil] at runs

end ShinzoGenerator.Indexer
