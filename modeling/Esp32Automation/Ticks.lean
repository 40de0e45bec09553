import Mathlib.Algebra.Group.Nat.Defs
import Mathlib.Data.List.Basic
import Mathlib.Data.List.Chain
import Mathlib.Tactic.Common

/-!
# Clocks that wrap around

A millisecond counter of 32 bits shows the time modulo 2^32. The difference of two readings is
the time between them as long as that is less than a round of the counter, also when the counter
wraps in between. Events with times are paced when they are in order and a beat, such as the call
of a poll function, is never longer ago than a given time. A loop is throttled when it acts only
if its last action is more than a period ago.
-/
namespace Ticks
variable {ε : Type*}

/-- The reading of the counter at a time. -/
def stamp (t : ℕ) : UInt32 := UInt32.ofNat t

theorem toNat_stamp_sub {t₀ t : ℕ} (h : t₀ ≤ t) (hlt : t < t₀ + 2 ^ 32) :
    (stamp t - stamp t₀).toNat = t - t₀ := by
  rw [stamp, stamp, UInt32.toNat_sub, UInt32.toNat_ofNat', UInt32.toNat_ofNat']
  omega

theorem lt_stamp_sub_iff {period : UInt32} {t₀ t : ℕ} (h : t₀ ≤ t) (hlt : t < t₀ + 2 ^ 32) :
    period < stamp t - stamp t₀ ↔ period.toNat < t - t₀ := by
  rw [UInt32.lt_iff_toNat_lt, toNat_stamp_sub h hlt]

/-- The time of the last of the events, or the time before them. -/
def finish (prev : ℕ) (ts : List (ℕ × ε)) : ℕ := ts.foldl (fun _ e => e.1) prev

@[simp] theorem finish_nil (prev : ℕ) : finish prev ([] : List (ℕ × ε)) = prev := rfl

@[simp] theorem finish_cons (prev : ℕ) (e : ℕ × ε) (ts : List (ℕ × ε)) :
    finish prev (e :: ts) = finish e.1 ts := rfl

theorem finish_append (prev : ℕ) (ts us : List (ℕ × ε)) :
    finish prev (ts ++ us) = finish (finish prev ts) us := List.foldl_append

section Paced
variable (beat : ε → Bool) (g : ℕ)

/-- The time of the last beat. -/
def lastBeat (last : ℕ) (ts : List (ℕ × ε)) : ℕ :=
  ts.foldl (fun last e => if beat e.2 then e.1 else last) last

@[simp] theorem lastBeat_nil (last : ℕ) : lastBeat beat last [] = last := rfl

@[simp] theorem lastBeat_cons (last : ℕ) (e : ℕ × ε) (ts : List (ℕ × ε)) :
    lastBeat beat last (e :: ts) = lastBeat beat (if beat e.2 then e.1 else last) ts := rfl

/-- The times are in order, and the last beat is never more than `g` ago. -/
def Paced : ℕ → ℕ → List (ℕ × ε) → Prop
  | _, _, [] => True
  | last, prev, e :: ts =>
    prev ≤ e.1 ∧ e.1 ≤ last + g ∧ Paced (if beat e.2 then e.1 else last) e.1 ts

end Paced

section Throttle
variable {period : UInt32}

/-- The rounds of a loop in which it acts. A round reads the counter when it looks whether a period
has gone by, and once more when it notes the time. -/
def throttle (period : UInt32) : UInt32 → List (ℕ × ℕ) → List (ℕ × ℕ)
  | _, [] => []
  | last, r :: rs =>
    if period < stamp r.1 - last then r :: throttle period (stamp r.2) rs
    else throttle period last rs

/-- Rounds in order, of which the next begins before the counter could hide that a period has
gone by. -/
structure Rounds (period : UInt32) (rs : List (ℕ × ℕ)) : Prop where
  reads : ∀ r ∈ rs, r.1 ≤ r.2
  next : rs.IsChain fun r r' => r.2 ≤ r'.1 ∧ r'.1 + period.toNat < r.1 + 2 ^ 32

namespace Rounds
variable {r : ℕ × ℕ} {rs us : List (ℕ × ℕ)}

theorem tail (h : Rounds period (r :: rs)) : Rounds period rs :=
  ⟨fun r' hr' => h.reads r' (List.mem_cons_of_mem r hr'), h.next.tail⟩

theorem right (h : Rounds period (rs ++ us)) : Rounds period us :=
  ⟨fun r hr => h.reads r (List.mem_append_right rs hr), h.next.right_of_append⟩

theorem later (h : Rounds period (r :: rs)) : ∀ r' ∈ rs, r.2 ≤ r'.1 := by
  induction rs generalizing r with
  | nil => exact nofun
  | cons r₁ rs ih =>
    have hr : r.2 ≤ r₁.1 := (List.isChain_cons_cons.mp h.next).1.1
    have hr₁ : r₁.1 ≤ r₁.2 := h.tail.reads r₁ List.mem_cons_self
    intro r' hr'
    rcases List.mem_cons.mp hr' with rfl | hr'
    · exact hr
    · exact hr.trans (hr₁.trans (ih h.tail r' hr'))

end Rounds

theorem throttle_sublist (last : UInt32) (rs : List (ℕ × ℕ)) :
    (throttle period last rs).Sublist rs := by
  induction rs generalizing last with
  | nil => exact .slnil
  | cons r rs ih =>
    rw [throttle]
    split_ifs
    · exact (ih _).cons_cons r
    · exact (ih last).cons r

/-- A wrapped difference is never more than the time between two readings. -/
theorem lt_of_lt_stamp_sub {t₀ t : ℕ} (h : t₀ ≤ t) (hlt : period < stamp t - stamp t₀) :
    t₀ + period.toNat < t := by
  rw [UInt32.lt_iff_toNat_lt, stamp, stamp, UInt32.toNat_sub, UInt32.toNat_ofNat',
    UInt32.toNat_ofNat'] at hlt
  omega

theorem throttle_apart_from {r₀ : ℕ × ℕ} {rs : List (ℕ × ℕ)} (h : Rounds period rs)
    (hlater : ∀ r ∈ rs, r₀.2 ≤ r.1) :
    (r₀ :: throttle period (stamp r₀.2) rs).IsChain fun r r' => r.2 + period.toNat < r'.1 := by
  induction rs generalizing r₀ with
  | nil => exact .singleton r₀
  | cons r rs ih =>
    rw [throttle]
    split_ifs with hfire
    · refine List.isChain_cons_cons.mpr ⟨?_, ih h.tail h.later⟩
      exact lt_of_lt_stamp_sub (hlater r List.mem_cons_self) hfire
    · exact ih h.tail fun r' hr' => hlater r' (List.mem_cons_of_mem r hr')

/-- Two actions are more than a period apart. -/
theorem throttle_apart {rs : List (ℕ × ℕ)} (h : Rounds period rs) (last : UInt32) :
    (throttle period last rs).IsChain fun r r' => r.2 + period.toNat < r'.1 := by
  induction rs with
  | nil => exact .nil
  | cons r rs ih =>
    rw [throttle]
    split_ifs
    · exact throttle_apart_from h.tail h.later
    · exact ih h.tail

/-- Unless the time since the last action wraps, it grows with the time. -/
theorem toNat_stamp_sub_later {u : UInt32} {t₀ t : ℕ} (h : t₀ ≤ t)
    (hlt : (stamp t₀ - u).toNat + (t - t₀) < 2 ^ 32) :
    (stamp t - u).toNat = (stamp t₀ - u).toNat + (t - t₀) := by
  have hu := u.toNat_lt
  rw [stamp, stamp, UInt32.toNat_sub, UInt32.toNat_sub, UInt32.toNat_ofNat',
    UInt32.toNat_ofNat'] at *
  omega

/-- In each round the last action, or the last one before the rounds, is no more than a period
ago. -/
theorem throttle_recent_or {r₀ : ℕ × ℕ} {rs : List (ℕ × ℕ)} (h : Rounds period (r₀ :: rs))
    (u : UInt32) : ∀ r ∈ r₀ :: rs, r.1 + (stamp r₀.1 - u).toNat ≤ r₀.1 + period.toNat ∨
      ∃ f ∈ throttle period u (r₀ :: rs), f.1 ≤ r.1 ∧ r.1 ≤ f.2 + period.toNat := by
  have hreads : r₀.1 ≤ r₀.2 := h.reads r₀ List.mem_cons_self
  induction rs generalizing r₀ u with
  | nil =>
    intro r hr
    obtain rfl := List.mem_singleton.mp hr
    rw [throttle]
    split_ifs with hfire
    · exact .inr ⟨r, List.mem_cons_self, Nat.le_refl _, by omega⟩
    · rw [UInt32.lt_iff_toNat_lt] at hfire
      exact .inl (by omega)
  | cons r₁ rs ih =>
    obtain ⟨hafter, hsoon⟩ := (List.isChain_cons_cons.mp h.next).1
    have ih := ih h.tail
    intro r hr
    rw [throttle]
    split_ifs with hfire
    · rcases List.mem_cons.mp hr with rfl | hr
      · exact .inr ⟨r, List.mem_cons_self, Nat.le_refl _, by omega⟩
      have hage : (stamp r₁.1 - stamp r₀.2).toNat = r₁.1 - r₀.2 :=
        toNat_stamp_sub hafter (by omega)
      have hlater := h.later r hr
      obtain hle | ⟨f, hf, hr⟩ := ih (stamp r₀.2) (h.tail.reads r₁ List.mem_cons_self) r hr
      · exact .inr ⟨r₀, List.mem_cons_self, by omega, by omega⟩
      · exact .inr ⟨f, List.mem_cons_of_mem r₀ hf, hr⟩
    · rw [UInt32.lt_iff_toNat_lt] at hfire
      rcases List.mem_cons.mp hr with rfl | hr
      · exact .inl (by omega)
      have hage := toNat_stamp_sub_later (u := u) (hreads.trans hafter) (by omega)
      exact (ih u (h.tail.reads r₁ List.mem_cons_self) r hr).imp_left fun hle => by omega

/-- From a period behind the first round on, an action is never longer ago than a period. -/
theorem throttle_recent {r₀ : ℕ × ℕ} {rs : List (ℕ × ℕ)} (h : Rounds period (r₀ :: rs))
    (last : UInt32) {r : ℕ × ℕ} (hr : r ∈ r₀ :: rs) (hlate : r₀.1 + period.toNat < r.1) :
    ∃ f ∈ throttle period last (r₀ :: rs), f.1 ≤ r.1 ∧ r.1 ≤ f.2 + period.toNat := by
  refine (throttle_recent_or h last r hr).resolve_left fun hle => ?_
  omega

end Throttle

end Ticks
