import Mathlib.Logic.Basic

/-! Transition systems with named, guarded moves. A run is a path of enabled
moves; restricting the moves of a system restricts its paths. -/

set_option autoImplicit false

universe u v

/-- `enabled` is the guard of a move and `effect` the state after it. -/
structure GuardedSystem (σ : Type u) (α : Type v) where
  enabled : σ → α → Prop
  effect : σ → α → σ

namespace GuardedSystem

variable {σ : Type u} {α : Type v}

/-- The states reached from `start` by enabled moves. -/
inductive Path (system : GuardedSystem σ α) (start : σ) : σ → Prop where
  | refl : Path system start start
  | step {state : σ} {move : α} :
      Path system start state → system.enabled state move →
      Path system start (system.effect state move)

/-- The same system with only the moves that `allowed` admits. -/
def restrict (system : GuardedSystem σ α) (allowed : σ → α → Prop) : GuardedSystem σ α where
  enabled state move := system.enabled state move ∧ allowed state move
  effect := system.effect

instance (system : GuardedSystem σ α) (allowed : σ → α → Prop)
    [∀ state move, Decidable (system.enabled state move)]
    [∀ state move, Decidable (allowed state move)] (state : σ) (move : α) :
    Decidable ((system.restrict allowed).enabled state move) :=
  inferInstanceAs (Decidable (system.enabled state move ∧ allowed state move))

variable {system : GuardedSystem σ α} {start finish : σ}

theorem Path.trans {middle : σ} (first : system.Path start middle)
    (second : system.Path middle finish) : system.Path start finish := by
  induction second with
  | refl => exact first
  | step _ enabled ih => exact .step ih enabled

/-- The moves are enabled one after the other and lead from one state to the other. -/
def Leads (system : GuardedSystem σ α) : List α → σ → σ → Prop
  | [], state, finish => state = finish
  | move :: moves, state, finish =>
      system.enabled state move ∧ system.Leads moves (system.effect state move) finish

theorem Leads.path {moves : List α} (leads : system.Leads moves start finish) :
    system.Path start finish := by
  induction moves generalizing start with
  | nil =>
      have same : start = finish := leads
      exact same ▸ .refl
  | cons move moves ih => exact (Path.refl.step leads.1).trans (ih leads.2)

/-- What holds at the start and is kept by every enabled move holds on every path. -/
theorem Path.invariant {property : σ → Prop} (path : system.Path start finish)
    (initial : property start)
    (preserved : ∀ state move, property state → system.enabled state move →
      property (system.effect state move)) : property finish := by
  induction path with
  | refl => exact initial
  | step _ enabled ih => exact preserved _ _ ih enabled

/-- An invariant may be kept only with the help of one established before. -/
theorem Path.invariant_under {established property : σ → Prop}
    (path : system.Path start finish)
    (known : ∀ state, system.Path start state → established state)
    (initial : property start)
    (preserved : ∀ state move, established state → property state →
      system.enabled state move → property (system.effect state move)) :
    property finish := by
  induction path with
  | refl => exact initial
  | step path enabled ih => exact preserved _ _ (known _ path) ih enabled

theorem Path.of_restrict {allowed : σ → α → Prop}
    (path : (system.restrict allowed).Path start finish) : system.Path start finish := by
  induction path with
  | refl => exact .refl
  | step _ enabled ih => exact .step ih enabled.1

theorem Path.to_restrict {allowed : σ → α → Prop} (admits : ∀ state move, allowed state move)
    (path : system.Path start finish) : (system.restrict allowed).Path start finish := by
  induction path with
  | refl => exact .refl
  | step _ enabled ih => exact .step ih ⟨enabled, admits _ _⟩

theorem Path.restrict_mono {narrow wide : σ → α → Prop}
    (weaker : ∀ state move, narrow state move → wide state move)
    (path : (system.restrict narrow).Path start finish) :
    (system.restrict wide).Path start finish := by
  induction path with
  | refl => exact .refl
  | step _ enabled ih => exact .step ih ⟨enabled.1, weaker _ _ enabled.2⟩

/-- Executes a list of moves, stopping at the first one that is not enabled. -/
def run? (system : GuardedSystem σ α) [∀ state move, Decidable (system.enabled state move)] :
    List α → σ → Option σ
  | [], state => some state
  | move :: moves, state =>
      if system.enabled state move then system.run? moves (system.effect state move) else none

theorem path_of_run?_restrict [∀ state move, Decidable (system.enabled state move)]
    {allowed : σ → α → Prop} {moves : List α}
    (admitted : ∀ move ∈ moves, ∀ state, allowed state move)
    (executed : system.run? moves start = some finish) :
    (system.restrict allowed).Path start finish := by
  induction moves generalizing start with
  | nil =>
      have same : start = finish := Option.some.inj executed
      rw [same]
      exact .refl
  | cons move moves ih =>
      simp only [run?] at executed
      split at executed
      · rename_i enabled
        have first : (system.restrict allowed).enabled start move :=
          ⟨enabled, admitted move (.head _) start⟩
        have rest := ih (fun other member => admitted other (.tail _ member)) executed
        exact (Path.refl.step first).trans rest
      · cases executed

theorem path_of_run? [∀ state move, Decidable (system.enabled state move)]
    {moves : List α} (executed : system.run? moves start = some finish) :
    system.Path start finish :=
  (path_of_run?_restrict (fun _ _ _ => trivial) executed).of_restrict

/-- A state that an executed list of moves leads to, with what a test says about it. -/
theorem exists_path_of_run? [∀ state move, Decidable (system.enabled state move)]
    {moves : List α} {test : σ → Bool} (executed : (system.run? moves start).any test = true) :
    ∃ state, system.Path start state ∧ test state = true := by
  cases found : system.run? moves start with
  | none => simp [found] at executed
  | some state =>
      rw [found] at executed
      exact ⟨state, path_of_run? found, executed⟩

end GuardedSystem
