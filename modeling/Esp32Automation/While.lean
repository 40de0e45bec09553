import Mathlib.Logic.Function.Iterate
import Mathlib.Tactic.Common

/-!
# While loops on fuel

A `while` loop of a program need not end. Here it runs on fuel, one unit for each test of
its condition, and returns nothing when the fuel is spent. A result is independent of
the fuel: it is the first iterate of the body at which the condition fails.
-/
namespace While
variable {σ : Type*}

/-- `while (cond) body`. -/
def whileLoop (cond : σ → Bool) (body : σ → σ) : ℕ → σ → Option σ
  | 0, _ => none
  | fuel + 1, s => if cond s then whileLoop cond body fuel (body s) else some s

/-- The loop leaves after `n` rounds: the first test that fails is the one behind them. -/
structure ExitsAfter (cond : σ → Bool) (body : σ → σ) (s : σ) (n : ℕ) : Prop where
  enters : ∀ i < n, cond (body^[i] s) = true
  leaves : cond (body^[n] s) = false

variable {cond : σ → Bool} {body : σ → σ}

/-- The first round, and the rounds behind it. -/
theorem exitsAfter_succ {s : σ} {n : ℕ} : ExitsAfter cond body s (n + 1) ↔
    cond s = true ∧ ExitsAfter cond body (body s) n := by
  constructor
  · intro h
    refine ⟨h.enters 0 (by omega), fun i hi => ?_, h.leaves⟩
    exact h.enters (i + 1) (by omega)
  · rintro ⟨hc, h⟩
    refine ⟨fun i hi => ?_, h.leaves⟩
    cases i with
    | zero => exact hc
    | succ i => exact h.enters i (by omega)

/-- A run with some fuel returns exactly when the loop exits within that fuel. -/
theorem whileLoop_eq_some_iff {fuel : ℕ} {s t : σ} : whileLoop cond body fuel s = some t ↔
    ∃ n < fuel, ExitsAfter cond body s n ∧ body^[n] s = t := by
  induction fuel generalizing s with
  | zero => simp [whileLoop]
  | succ fuel ih =>
    by_cases hc : cond s = true
    · rw [whileLoop, if_pos hc, ih]
      constructor
      · rintro ⟨n, hn, hexit, ht⟩
        exact ⟨n + 1, by omega, exitsAfter_succ.mpr ⟨hc, hexit⟩, ht⟩
      · rintro ⟨n, hn, hexit, ht⟩
        cases n with
        | zero =>
          have hleave := hexit.leaves
          simp [hc] at hleave
        | succ n => exact ⟨n, by omega, (exitsAfter_succ.mp hexit).2, ht⟩
    · rw [whileLoop, if_neg hc, Option.some_inj]
      constructor
      · rintro rfl
        exact ⟨0, by omega, ⟨by omega, by simpa using hc⟩, rfl⟩
      · rintro ⟨n, hn, hexit, ht⟩
        cases n with
        | zero => exact ht
        | succ n => exact absurd (hexit.enters 0 (by omega)) hc

/-- With enough fuel the loop returns exactly when some round is the last. -/
theorem exists_whileLoop_iff {s t : σ} : (∃ fuel, whileLoop cond body fuel s = some t) ↔
    ∃ n, ExitsAfter cond body s n ∧ body^[n] s = t := by
  simp only [whileLoop_eq_some_iff]
  constructor
  · rintro ⟨fuel, n, -, h⟩
    exact ⟨n, h⟩
  · rintro ⟨n, h⟩
    exact ⟨n + 1, n, by omega, h⟩

end While
