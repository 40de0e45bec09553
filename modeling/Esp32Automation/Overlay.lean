import Mathlib.Logic.Function.Basic
import Mathlib.Tactic.Common

/-!
# Partial updates of families

A family of values indexed by `ι` is changed in two ways. `overlay` replaces the
components an update names. `mix` is what lies between two families when some of the
components have been replaced already and others not yet.
-/
namespace Overlay
variable {ι : Type*} {α : ι → Type*}

/-- The family `f` with the components that `u` names replaced. -/
def overlay (u : ∀ i, Option (α i)) (f : ∀ i, α i) : ∀ i, α i := fun i => (u i).getD (f i)

theorem overlay_of_none {u : ∀ i, Option (α i)} {i : ι} (h : u i = none) (f : ∀ i, α i) :
    overlay u f i = f i := by simp [overlay, h]

theorem overlay_of_some {u : ∀ i, Option (α i)} {i : ι} {a : α i} (h : u i = some a)
    (f : ∀ i, α i) : overlay u f i = a := by simp [overlay, h]

/-- An update that names nothing changes nothing. -/
@[simp] theorem overlay_none (f : ∀ i, α i) : overlay (fun _ => none) f = f := rfl

/-- Two updates are one, in which the later has priority. -/
theorem overlay_overlay (u v : ∀ i, Option (α i)) (f : ∀ i, α i) :
    overlay v (overlay u f) = overlay (fun i => (v i).or (u i)) f := by
  funext i
  cases h : v i with
  | none => simp [overlay, h]
  | some a => simp [overlay, h]

/-- Applying an update twice is applying it once. -/
@[simp] theorem overlay_overlay_self (u : ∀ i, Option (α i)) (f : ∀ i, α i) :
    overlay u (overlay u f) = overlay u f := by
  funext i
  cases h : u i with
  | none => rw [overlay_of_none h]
  | some a => rw [overlay_of_some h, overlay_of_some h]

/-- An update has no effect exactly when every value it names is there already. -/
theorem overlay_eq_self_iff {u : ∀ i, Option (α i)} {f : ∀ i, α i} :
    overlay u f = f ↔ ∀ i, ∀ a ∈ u i, a = f i := by
  constructor
  · intro h i a ha
    rw [← overlay_of_some ha f, h]
  · intro h
    funext i
    cases hu : u i with
    | none => rw [overlay_of_none hu]
    | some a => rw [overlay_of_some hu, h i a hu]

section Mix
variable (chosen : ι → Prop) [DecidablePred chosen]

/-- The components of `new` at the chosen indices and of `old` at the others. -/
def mix (old new : ∀ i, α i) : ∀ i, α i := fun i => if chosen i then new i else old i

variable {chosen} {old new : ∀ i, α i}

theorem mix_eq_old_iff : mix chosen old new = old ↔ ∀ i, chosen i → new i = old i := by
  constructor
  · intro h i hi
    have hm := congrFun h i
    simpa [mix, hi] using hm
  · intro h
    funext i
    by_cases hi : chosen i
    · simp [mix, hi, h i hi]
    · simp [mix, hi]

theorem mix_eq_new_iff : mix chosen old new = new ↔ ∀ i, new i ≠ old i → chosen i := by
  constructor
  · intro h i hne
    by_contra hi
    have hm := congrFun h i
    simp only [mix, hi, if_false] at hm
    exact hne hm.symm
  · intro h
    funext i
    by_cases hi : chosen i
    · simp [mix, hi]
    · have heq : new i = old i := by
        by_contra hne
        exact hi (h i hne)
      simp [mix, hi, heq]

theorem mix_congr {chosen' : ι → Prop} [DecidablePred chosen'] (h : ∀ i, chosen i ↔ chosen' i) :
    mix chosen old new = mix chosen' old new := by
  funext i
  simp only [mix, h i]

/-- A mixture with an update is the update restricted to the chosen indices. -/
theorem mix_overlay (u : ∀ i, Option (α i)) (f : ∀ i, α i) :
    mix chosen f (overlay u f) = overlay (fun i => if chosen i then u i else none) f := by
  funext i
  by_cases hi : chosen i
  · simp [mix, overlay, hi]
  · simp [mix, overlay, hi]

/-- Replacing one more component. -/
theorem update_mix [DecidableEq ι] (i : ι) :
    Function.update (mix chosen old new) i (new i) =
      mix (fun j => chosen j ∨ j = i) old new := by
  funext j
  by_cases hj : j = i
  · subst hj; simp [mix]
  · simp [mix, hj]

end Mix
end Overlay
