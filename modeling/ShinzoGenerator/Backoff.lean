import ShinzoGenerator.Lib.Doubling

/-! The exponential backoffs, in the wrapping nanoseconds of `time.Duration`, against
the same schedules in exact arithmetic. -/

set_option autoImplicit false

namespace ShinzoGenerator

open Doubling

def millisecond : Int64 := 1000000

def second : Int64 := 1000000000

namespace Defra

def retryBackoff (attempt : Nat) : Int64 :=
  let d := doubled attempt (500 * millisecond)
  if d > 8 * second then 8 * second else d

end Defra

namespace Errors

inductive RetryBehavior where
  | nonRetryable
  | retryable
  | retryableWithBackoff
deriving DecidableEq

def defaultRetryDelay : Int64 := 30 * second

/-- An error counts by the `IndexerError` in it, if there is one. -/
def isRetryable : Option RetryBehavior → Bool
  | some behavior => behavior ≠ .nonRetryable
  | none => false

def isRetryableWithBackoff : Option RetryBehavior → Bool
  | some behavior => behavior = .retryableWithBackoff
  | none => false

def getRetryDelay (err : Option RetryBehavior) (attemptCount : Nat) : Int64 :=
  if !isRetryable err then 0
  else
    let baseDelay := second
    if isRetryableWithBackoff err then
      min (doubledBelow (30 * second) attemptCount baseDelay) defaultRetryDelay
    else baseDelay

end Errors

namespace Defradb

def maxPeerConnectBackoff : Int64 := 30 * second

/-- The delay of `connectWithRetryLocked` after a failed attempt. -/
def connectDelay (retryBaseDelayMs : Int64) (attempt : Nat) : Int64 :=
  let baseDelay := retryBaseDelayMs * millisecond
  min (baseDelay * shiftLeft 1 attempt) maxPeerConnectBackoff

end Defradb

namespace FetchBlocks

def retryBaseDelay : Int64 := 500 * millisecond

def retryMaxDelay : Int64 := 8 * second

/-- The loop of `retryBackoff`, with the clamp behind it. -/
def retryBackoffFrom : Nat → Int64 → Int64
  | 0, d => if d > retryMaxDelay then retryMaxDelay else d
  | attempt + 1, d => if d ≥ retryMaxDelay then retryMaxDelay else retryBackoffFrom attempt (d * 2)

def retryBackoff (attempt : Nat) : Int64 := retryBackoffFrom attempt retryBaseDelay

end FetchBlocks

/-! ### The schedules in exact arithmetic -/

/-- A backoff with the base and the cap it is meant to have. -/
structure Backoff where
  base : Int
  cap : Int
  delay : Nat → Int64

def Backoff.Exact (backoff : Backoff) (attempt : Nat) : Prop :=
  (backoff.delay attempt).toInt = min (backoff.base * 2 ^ attempt) backoff.cap

instance (backoff : Backoff) (attempt : Nat) : Decidable (backoff.Exact attempt) :=
  inferInstanceAs (Decidable (_ = _))

def blockHandlerBackoff : Backoff := ⟨500000000, 8000000000, Defra.retryBackoff⟩

def retryDelayBackoff : Backoff :=
  ⟨1000000000, 30000000000, Errors.getRetryDelay (some .retryableWithBackoff)⟩

def connectBackoff (retryBaseDelayMs : Int64) : Backoff :=
  ⟨retryBaseDelayMs.toInt * 1000000, 30000000000, Defradb.connectDelay retryBaseDelayMs⟩

def fetchBlocksBackoff : Backoff := ⟨500000000, 8000000000, FetchBlocks.retryBackoff⟩

def backoffs (retryBaseDelayMs : Int64) : List Backoff :=
  [blockHandlerBackoff, retryDelayBackoff, connectBackoff retryBaseDelayMs, fetchBlocksBackoff]

/-- The attempts whose product wraps around to something above the cap. -/
def luckyAttempts : List Nat := [38, 42, 43, 46, 48, 51, 52, 54]

theorem backoffs_positive {retryBaseDelayMs : Int64} (positive : 0 < retryBaseDelayMs) :
    ∀ backoff ∈ backoffs retryBaseDelayMs, 0 < backoff.base ∧ 0 < backoff.cap := by
  have base : 0 < retryBaseDelayMs.toInt := Int64.lt_iff_toInt_lt.mp positive
  simp [backoffs, blockHandlerBackoff, retryDelayBackoff, connectBackoff, fetchBlocksBackoff, base]

/-! ### Backoffs that double first -/

theorem clamp_eq_min (d cap : Int64) : (if d > cap then cap else d).toInt = min d.toInt cap.toInt := by
  split
  · rename_i above
    rw [min_eq_right (Int64.lt_iff_toInt_lt.mp above).le]
  · rename_i below
    rw [gt_iff_lt, Int64.lt_iff_toInt_lt, not_lt] at below
    rw [min_eq_left below]

theorem survives_iff_lucky (attempt : Nat) :
    Survives (500000000 * 2 ^ attempt) 8000000000 ↔ attempt < 35 ∨ attempt ∈ luckyAttempts := by
  by_cases few : attempt < 56
  · revert attempt
    decide +kernel
  · obtain ⟨more, rfl⟩ := Nat.exists_eq_add_of_le (Nat.le_of_not_lt few)
    have divided : (500000000 * 2 ^ (56 + more) : Int) = 2 ^ 64 * (1953125 * 2 ^ more) := by ring
    have large : (1 : Int) ≤ 2 ^ more := one_le_pow₀ (by decide)
    have gone : (500000000 * 2 ^ (56 + more) : Int) % 2 ^ 64 = 0 := by
      rw [divided, Int.mul_emod_right]
    have lost : ¬ Survives (500000000 * 2 ^ (56 + more)) 8000000000 := by
      intro survives
      cases survives with
      | inl fits =>
        rw [divided] at fits
        linarith
      | inr above =>
        rw [gone] at above
        exact absurd above.1 (by decide)
    refine iff_of_false lost ?_
    simp only [luckyAttempts, List.mem_cons, List.not_mem_nil, or_false]
    omega

theorem blockHandlerBackoff_exact_iff (attempt : Nat) :
    blockHandlerBackoff.Exact attempt ↔ attempt < 35 ∨ attempt ∈ luckyAttempts := by
  have delay : (Defra.retryBackoff attempt).toInt =
      min (Int64.ofInt (500000000 * 2 ^ attempt)).toInt 8000000000 := by
    rw [Defra.retryBackoff, clamp_eq_min, ← doubled_ofInt]
    rfl
  rw [← survives_iff_lucky, Backoff.Exact]
  dsimp only [blockHandlerBackoff]
  rw [delay]
  exact min_ofInt_eq_iff (by positivity) (by decide) (by decide)

theorem connectBackoff_exact_iff {retryBaseDelayMs : Int64} (positive : 0 < retryBaseDelayMs)
    (attempt : Nat) :
    (connectBackoff retryBaseDelayMs).Exact attempt ↔
      Survives (retryBaseDelayMs.toInt * 1000000 * 2 ^ attempt) 30000000000 := by
  have base : 0 < retryBaseDelayMs.toInt := Int64.lt_iff_toInt_lt.mp positive
  have delay : (Defradb.connectDelay retryBaseDelayMs attempt).toInt =
      min (Int64.ofInt (retryBaseDelayMs.toInt * 1000000 * 2 ^ attempt)).toInt 30000000000 := by
    rw [Defradb.connectDelay, toInt_min, one_shiftLeft, Int64.ofInt_mul, Int64.ofInt_mul,
      Int64.ofInt_toInt]
    rfl
  rw [Backoff.Exact]
  dsimp only [connectBackoff]
  rw [delay]
  exact min_ofInt_eq_iff (by positivity) (by decide) (by decide)

/-! ### Backoffs that stop at the cap -/

theorem retryDelayBackoff_exact (attempt : Nat) : retryDelayBackoff.Exact attempt := by
  have delay : Errors.getRetryDelay (some .retryableWithBackoff) attempt =
      min (doubledBelow (30 * second) attempt second) (30 * second) := rfl
  rw [Backoff.Exact]
  dsimp only [retryDelayBackoff]
  rw [delay, toInt_min]
  exact min_doubledBelow _ _ attempt (by decide) (by decide)

theorem retryBackoffFrom_eq (attempt : Nat) (d : Int64) :
    (FetchBlocks.retryBackoffFrom attempt d).toInt =
      min (doubledBelow FetchBlocks.retryMaxDelay attempt d).toInt
        FetchBlocks.retryMaxDelay.toInt := by
  induction attempt generalizing d with
  | zero => exact clamp_eq_min d _
  | succ attempt hypothesis =>
    rw [FetchBlocks.retryBackoffFrom, doubledBelow]
    by_cases below : d < FetchBlocks.retryMaxDelay
    · rw [if_neg (Int64.not_le.mpr below), if_pos below, hypothesis]
    · have reached : FetchBlocks.retryMaxDelay ≤ d := Int64.not_lt.mp below
      rw [if_pos reached, if_neg below, min_eq_right (Int64.le_iff_toInt_le.mp reached)]

theorem fetchBlocksBackoff_exact (attempt : Nat) : fetchBlocksBackoff.Exact attempt := by
  rw [Backoff.Exact]
  dsimp only [fetchBlocksBackoff]
  rw [FetchBlocks.retryBackoff, retryBackoffFrom_eq]
  exact min_doubledBelow _ _ attempt (by decide) (by decide)

/-! ### All of them -/

theorem Backoff.Exact.bounds {backoff : Backoff} {attempt : Nat} (exact_ : backoff.Exact attempt)
    (positive : 0 < backoff.base ∧ 0 < backoff.cap) :
    0 < (backoff.delay attempt).toInt ∧ (backoff.delay attempt).toInt ≤ backoff.cap := by
  have grown : 0 < backoff.base * 2 ^ attempt := mul_pos positive.1 (by positivity)
  rw [exact_]
  exact ⟨lt_min grown positive.2, min_le_right _ _⟩

theorem Backoff.Exact.mono {backoff : Backoff} {attempt later : Nat}
    (exact_ : backoff.Exact attempt) (exactLater : backoff.Exact later)
    (positive : 0 < backoff.base) (ordered : attempt ≤ later) :
    (backoff.delay attempt).toInt ≤ (backoff.delay later).toInt := by
  have powers : (2 : Int) ^ attempt ≤ 2 ^ later := pow_le_pow_right₀ (by decide) ordered
  rw [exact_, exactLater]
  exact min_le_min_right _ (mul_le_mul_of_nonneg_left powers positive.le)

/-- The two backoffs that put the cap behind the doubling leave the exact schedule once
the product does not fit, unless it wraps around to something above the cap. -/
theorem backoffs_exact_iff {retryBaseDelayMs : Int64} (positive : 0 < retryBaseDelayMs)
    (attempt : Nat) :
    ((∀ backoff ∈ backoffs retryBaseDelayMs, backoff.Exact attempt) ↔
      (attempt < 35 ∨ attempt ∈ luckyAttempts) ∧
        Survives (retryBaseDelayMs.toInt * 1000000 * 2 ^ attempt) 30000000000) ∧
    ∀ backoff ∈ backoffs retryBaseDelayMs, backoff.Exact attempt →
      0 < (backoff.delay attempt).toInt ∧ (backoff.delay attempt).toInt ≤ backoff.cap ∧
      ∀ later, attempt ≤ later → backoff.Exact later →
        (backoff.delay attempt).toInt ≤ (backoff.delay later).toInt := by
  constructor
  · rw [← blockHandlerBackoff_exact_iff, ← connectBackoff_exact_iff positive]
    simp only [backoffs, List.forall_mem_cons, retryDelayBackoff_exact, fetchBlocksBackoff_exact,
      List.not_mem_nil, true_and, false_implies, implies_true, and_true]
  · intro backoff listed exact_
    have meant := backoffs_positive positive backoff listed
    obtain ⟨above, below⟩ := exact_.bounds meant
    exact ⟨above, below, fun later ordered exactLater => exact_.mono exactLater meant.1 ordered⟩

theorem default_backoffs_exact :
    blockHandlerBackoff.Exact 10 ∧ retryDelayBackoff.Exact 10 ∧ (connectBackoff 1000).Exact 10 ∧
      fetchBlocksBackoff.Exact 10 := by
  have all := (backoffs_exact_iff (by decide : (0 : Int64) < 1000) 10).1.mpr (by decide)
  simpa [backoffs] using all

/-- With the default base, the delay after the 35th attempt to connect is negative. -/
theorem connect_delay_negative :
    (Defradb.connectDelay 1000 34).toInt = -1266874889709551616 ∧
      (Defra.retryBackoff 35).toInt < 0 ∧ (Defra.retryBackoff 56).toInt = 0 ∧
      ¬ ∀ backoff ∈ backoffs 1000, backoff.Exact 34 := by
  refine ⟨by decide, by decide, by decide, fun all => ?_⟩
  have exact_ := all (connectBackoff 1000) (by simp [backoffs])
  revert exact_
  decide

end ShinzoGenerator
