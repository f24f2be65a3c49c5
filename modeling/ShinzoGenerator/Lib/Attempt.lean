import Mathlib.Logic.Basic

/-! Computations over a state that may fail and keep what they did until then,
with their rules of postconditions. -/

set_option autoImplicit false

/-- Returns a value or an error, and the state that is left in both cases. -/
def Attempt (σ ε α : Type) := σ → Except ε α × σ

namespace Attempt

variable {σ ε α β : Type}

def run (program : Attempt σ ε α) (state : σ) : Except ε α × σ := program state

instance : Monad (Attempt σ ε) where
  pure value := fun state => (.ok value, state)
  bind first next := fun state =>
    match first.run state with
    | (.ok value, after) => (next value).run after
    | (.error error, after) => (.error error, after)

def fail (error : ε) : Attempt σ ε α := fun state => (.error error, state)

def read : Attempt σ ε σ := fun state => (.ok state, state)

def change (update : σ → σ) : Attempt σ ε Unit := fun state => (.ok (), update state)

/-- Runs the program; a failure is handled in the state it leaves, with the state
before the program at hand. -/
def recover (program : Attempt σ ε α) (handle : σ → ε → Attempt σ ε α) : Attempt σ ε α :=
  fun state =>
    match program.run state with
    | (.ok value, after) => (.ok value, after)
    | (.error error, after) => (handle state error).run after

def mapError (rename : ε → ε) (program : Attempt σ ε α) : Attempt σ ε α :=
  program.recover fun _ error => fail (rename error)

/-- Run from the state, the program returns or fails as described. -/
def Ensures (program : Attempt σ ε α) (state : σ) (returns : α → σ → Prop)
    (fails : ε → σ → Prop) : Prop :=
  match program.run state with
  | (.ok value, after) => returns value after
  | (.error error, after) => fails error after

variable {program : Attempt σ ε α} {next : α → Attempt σ ε β} {state : σ}
  {returns : α → σ → Prop} {fails : ε → σ → Prop}

@[simp] theorem ensures_pure {value : α} :
    (pure value : Attempt σ ε α).Ensures state returns fails ↔ returns value state := Iff.rfl

@[simp] theorem ensures_fail {error : ε} :
    (fail error : Attempt σ ε α).Ensures state returns fails ↔ fails error state := Iff.rfl

@[simp] theorem ensures_read {returns : σ → σ → Prop} :
    (read : Attempt σ ε σ).Ensures state returns fails ↔ returns state state := Iff.rfl

@[simp] theorem ensures_change {update : σ → σ} {returns : Unit → σ → Prop} :
    (change update : Attempt σ ε Unit).Ensures state returns fails ↔
      returns () (update state) := Iff.rfl

theorem run_bind : (program >>= next).run state =
    match program.run state with
    | (.ok value, after) => (next value).run after
    | (.error error, after) => (.error error, after) := rfl

theorem run_recover {handle : σ → ε → Attempt σ ε α} : (program.recover handle).run state =
    match program.run state with
    | (.ok value, after) => (.ok value, after)
    | (.error error, after) => (handle state error).run after := rfl

@[simp] theorem ensures_bind {returns : β → σ → Prop} :
    (program >>= next).Ensures state returns fails ↔
      program.Ensures state (fun value after => (next value).Ensures after returns fails) fails := by
  unfold Ensures
  rw [run_bind]
  rcases program.run state with ⟨_ | _, _⟩ <;> rfl

@[simp] theorem ensures_recover {handle : σ → ε → Attempt σ ε α} :
    (program.recover handle).Ensures state returns fails ↔
      program.Ensures state returns
        (fun error after => (handle state error).Ensures after returns fails) := by
  unfold Ensures
  rw [run_recover]
  rcases program.run state with ⟨_ | _, _⟩ <;> rfl

@[simp] theorem ensures_mapError {rename : ε → ε} :
    (program.mapError rename).Ensures state returns fails ↔
      program.Ensures state returns (fun error after => fails (rename error) after) :=
  ensures_recover

theorem Ensures.mono {weaker : α → σ → Prop} {weakerFails : ε → σ → Prop}
    (ensures : program.Ensures state returns fails)
    (returned : ∀ value after, returns value after → weaker value after)
    (failed : ∀ error after, fails error after → weakerFails error after) :
    program.Ensures state weaker weakerFails := by
  unfold Ensures at ensures ⊢
  revert ensures
  rcases program.run state with ⟨error | value, after⟩
  · exact failed error after
  · exact returned value after

/-- What a program that ensures something returns. -/
theorem Ensures.of_ok {value : α} {after : σ} (ensures : program.Ensures state returns fails)
    (ran : program.run state = (.ok value, after)) : returns value after := by
  unfold Ensures at ensures
  rwa [ran] at ensures

theorem Ensures.of_error {error : ε} {after : σ} (ensures : program.Ensures state returns fails)
    (ran : program.run state = (.error error, after)) : fails error after := by
  unfold Ensures at ensures
  rwa [ran] at ensures

end Attempt
