import Mathlib.Data.List.Infix

/-! Logs of events, the newest first, and bounds on how often something happens between
two events that start a new count. -/

set_option autoImplicit false

universe u

namespace EventLog

variable {ε : Type u}

/-- Without a reset in between, at most so many counted events follow each other. -/
def AtMost (limit : Nat) (counts resets : ε → Bool) (log : List ε) : Prop :=
  ∀ segment, segment <:+: log → (∀ event ∈ segment, resets event = false) →
    segment.countP counts ≤ limit

/-- The counted events since the last reset. -/
def since (counts resets : ε → Bool) : List ε → Nat
  | [] => 0
  | event :: log => if resets event then 0 else (counts event).toNat + since counts resets log

variable {limit : Nat} {counts resets : ε → Bool} {log : List ε}

theorem countP_le_since {segment : List ε} (recent : segment <+: log)
    (unreset : ∀ event ∈ segment, resets event = false) :
    segment.countP counts ≤ since counts resets log := by
  induction segment generalizing log with
  | nil => exact Nat.zero_le _
  | cons event segment ih =>
      obtain ⟨older, rfl⟩ := recent
      have rest := ih (List.prefix_append segment older)
        fun other member => unreset other (.tail _ member)
      rw [List.cons_append, since, if_neg (by simp [unreset event (.head _)]), List.countP_cons]
      cases counts event with
      | true => simpa [Nat.add_comm] using rest
      | false => simpa using rest

theorem atMost_nil : AtMost limit counts resets [] := by
  intro segment within _
  rw [List.infix_nil.mp within]
  exact Nat.zero_le _

theorem AtMost.cons {event : ε} (bounded : AtMost limit counts resets log)
    (recent : since counts resets (event :: log) ≤ limit) :
    AtMost limit counts resets (event :: log) := by
  intro segment within unreset
  rcases List.infix_cons_iff.mp within with newest | older
  · exact (countP_le_since newest unreset).trans recent
  · exact bounded segment older unreset

/-- Events that are not counted raise no count. -/
theorem since_append_le {events : List ε} (quiet : ∀ event ∈ events, counts event = false) :
    since counts resets (events ++ log) ≤ since counts resets log := by
  induction events with
  | nil => exact Nat.le_refl _
  | cons event events ih =>
      have rest := ih fun other member => quiet other (.tail _ member)
      rw [List.cons_append, since, quiet event (.head _)]
      split
      · exact Nat.zero_le _
      · simpa using rest

/-- The count since the last reset is one of the bounded ones. -/
theorem AtMost.since_le (bounded : AtMost limit counts resets log) :
    since counts resets log ≤ limit := by
  have recent : ∃ segment, segment <+: log ∧ (∀ event ∈ segment, resets event = false) ∧
      segment.countP counts = since counts resets log := by
    clear bounded
    induction log with
    | nil => exact ⟨[], List.nil_prefix, by simp, rfl⟩
    | cons event log ih =>
        cases reset : resets event with
        | true => exact ⟨[], List.nil_prefix, by simp, by simp [since, reset]⟩
        | false =>
            obtain ⟨segment, newest, unreset, counted⟩ := ih
            refine ⟨event :: segment, ?_, ?_, ?_⟩
            · exact List.cons_prefix_cons.mpr ⟨rfl, newest⟩
            · intro other member
              cases member with
              | head => exact reset
              | tail _ member => exact unreset other member
            · rw [since, reset, ← counted, List.countP_cons]
              cases counts event <;> simp [Nat.add_comm]
  obtain ⟨segment, newest, unreset, counted⟩ := recent
  rw [← counted]
  exact bounded segment newest.isInfix unreset

theorem AtMost.append {events : List ε} (bounded : AtMost limit counts resets log)
    (quiet : ∀ event ∈ events, counts event = false) :
    AtMost limit counts resets (events ++ log) := by
  induction events with
  | nil => exact bounded
  | cons event events ih =>
      have rest := ih fun other member => quiet other (.tail _ member)
      have lower : since counts resets (event :: events ++ log) ≤ since counts resets log :=
        since_append_le quiet
      exact rest.cons (lower.trans bounded.since_le)

theorem since_cons_quiet {event : ε} (quiet : counts event = false) :
    since counts resets (event :: log) ≤ since counts resets log :=
  since_append_le (List.forall_mem_singleton.mpr quiet)

theorem AtMost.cons_quiet {event : ε} (bounded : AtMost limit counts resets log)
    (quiet : counts event = false) : AtMost limit counts resets (event :: log) :=
  bounded.append (List.forall_mem_singleton.mpr quiet)

theorem since_cons_reset {event : ε} (reset : resets event = true) :
    since counts resets (event :: log) = 0 := by
  rw [since, if_pos reset]

theorem since_cons_le {event : ε} {count : Nat} (before : since counts resets log ≤ count) :
    since counts resets (event :: log) ≤ count + 1 := by
  rw [since]
  split
  · exact Nat.zero_le _
  · have := (counts event).toNat_le
    omega

end EventLog
