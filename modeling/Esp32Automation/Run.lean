import Mathlib.Tactic.Common

/-!
# Runs of a deterministic machine

A machine is a step function on states and events. `run` is its state after a
sequence of events, and `Along` says that a condition on state and event holds at
every step taken. The rules below are the inductions over runs: an invariant, conditions
that agree wherever an invariant holds, and a simulation by a second machine. A latch is
the machine that keeps the last value it was given.
-/
namespace Run
variable {σ ε τ δ : Type*}

/-- The state after the events, oldest first. -/
def run (step : σ → ε → σ) (s : σ) (es : List ε) : σ := es.foldl step s

@[simp] theorem run_nil (step : σ → ε → σ) (s : σ) : run step s [] = s := rfl

@[simp] theorem run_cons (step : σ → ε → σ) (s : σ) (e : ε) (es : List ε) :
    run step s (e :: es) = run step (step s e) es := rfl

theorem run_append (step : σ → ε → σ) (s : σ) (es fs : List ε) :
    run step s (es ++ fs) = run step (run step s es) fs := List.foldl_append

/-- A run over events of one kind. -/
theorem run_map (step : σ → ε → σ) (f : δ → ε) (s : σ) (ds : List δ) :
    run step s (ds.map f) = run (fun s d => step s (f d)) s ds := List.foldl_map

/-- The condition holds at every step of the run. -/
def Along (step : σ → ε → σ) (Φ : σ → ε → Prop) (s : σ) : List ε → Prop
  | [] => True
  | e :: es => Φ s e ∧ Along step Φ (step s e) es

/-- `Along` speaks about every event together with the state it meets. -/
theorem along_iff {step : σ → ε → σ} {Φ : σ → ε → Prop} {s : σ} {es : List ε} :
    Along step Φ s es ↔ ∀ fs e gs, es = fs ++ e :: gs → Φ (run step s fs) e := by
  induction es generalizing s with
  | nil => simp [Along]
  | cons e es ih =>
    constructor
    · rintro ⟨hΦ, ha⟩ fs e' gs heq
      cases fs with
      | nil =>
        obtain ⟨rfl, rfl⟩ := List.cons.inj heq
        exact hΦ
      | cons f fs =>
        obtain ⟨rfl, rfl⟩ := List.cons.inj heq
        exact ih.mp ha fs e' gs rfl
    · intro h
      refine ⟨h [] e es rfl, ih.mpr fun fs e' gs heq => ?_⟩
      exact h (e :: fs) e' gs (by rw [heq]; rfl)

theorem along_append {step : σ → ε → σ} {Φ : σ → ε → Prop} {s : σ} {es fs : List ε} :
    Along step Φ s (es ++ fs) ↔ Along step Φ s es ∧ Along step Φ (run step s es) fs := by
  induction es generalizing s with
  | nil => exact (and_iff_right trivial).symm
  | cons e es ih => rw [List.cons_append, Along, Along, ih, and_assoc, run_cons]

/-- A condition on the events alone. -/
theorem along_event_iff {step : σ → ε → σ} {p : ε → Prop} (s : σ) (es : List ε) :
    Along step (fun _ e => p e) s es ↔ ∀ e ∈ es, p e := by
  induction es generalizing s with
  | nil => simp [Along]
  | cons e es ih => rw [Along, ih, List.forall_mem_cons]

/-- The condition holds in every state of the run. -/
def Always (step : σ → ε → σ) (Φ : σ → Prop) (s : σ) (es : List ε) : Prop :=
  ∀ fs gs, es = fs ++ gs → Φ (run step s fs)

/-- In the first state, and behind every step. -/
theorem always_iff {step : σ → ε → σ} {Φ : σ → Prop} {s : σ} {es : List ε} :
    Always step Φ s es ↔ Φ s ∧ Along step (fun s e => Φ (step s e)) s es := by
  constructor
  · intro h
    refine ⟨h [] es rfl, along_iff.mpr fun fs e gs hsplit => ?_⟩
    have hΦ := h (fs ++ [e]) gs (by rw [hsplit, List.append_assoc]; rfl)
    rwa [run_append] at hΦ
  · rintro ⟨hs, ha⟩ fs gs hsplit
    rcases List.eq_nil_or_concat fs with rfl | ⟨fs, e, rfl⟩
    · exact hs
    · rw [List.concat_eq_append, run_append]
      exact along_iff.mp ha fs e gs (by rw [hsplit, List.concat_eq_append, List.append_assoc]; rfl)

theorem always_concat {step : σ → ε → σ} {Φ : σ → Prop} {s : σ} {es : List ε} {e : ε} :
    Always step Φ s (es ++ [e]) ↔ Always step Φ s es ∧ Φ (step (run step s es) e) := by
  rw [always_iff, always_iff, along_append, and_assoc]
  exact and_congr_right fun _ => and_congr_right fun _ => and_iff_left trivial

section Invariant
variable {step : σ → ε → σ} {Inv : σ → Prop} {Φ Ψ : σ → ε → Prop}

/-- What every permitted step preserves holds after a run of permitted steps. -/
theorem run_invariant (hstep : ∀ s e, Inv s → Φ s e → Inv (step s e)) {s : σ} {es : List ε}
    (hs : Inv s) (ha : Along step Φ s es) : Inv (run step s es) := by
  induction es generalizing s with
  | nil => exact hs
  | cons e es ih => exact ih (hstep s e hs ha.1) ha.2

theorem along_true (s : σ) (es : List ε) : Along step (fun _ _ => True) s es := by
  induction es generalizing s with
  | nil => trivial
  | cons e es ih => exact ⟨trivial, ih _⟩

/-- What every step preserves holds after every run. -/
theorem run_preserves (hstep : ∀ s e, Inv s → Inv (step s e)) {s : σ} (hs : Inv s)
    (es : List ε) : Inv (run step s es) :=
  run_invariant (fun s e hi _ => hstep s e hi) hs (along_true s es)

/-- Two conditions agree along every run if they agree wherever the invariant holds, and one
of them keeps it. -/
theorem along_iff_along (hstep : ∀ s e, Inv s → Ψ s e → Inv (step s e))
    (hiff : ∀ s e, Inv s → (Φ s e ↔ Ψ s e)) {s : σ} (hs : Inv s) (es : List ε) :
    Along step Φ s es ↔ Along step Ψ s es := by
  induction es generalizing s with
  | nil => exact Iff.rfl
  | cons e es ih =>
    rw [Along, Along, hiff s e hs]
    constructor
    · rintro ⟨hΨ, ha⟩
      exact ⟨hΨ, (ih (hstep s e hs hΨ)).mp ha⟩
    · rintro ⟨hΨ, ha⟩
      exact ⟨hΨ, (ih (hstep s e hs hΨ)).mpr ha⟩

/-- The same for an invariant that every step keeps. -/
theorem along_congr (hstep : ∀ s e, Inv s → Inv (step s e))
    (hiff : ∀ s e, Inv s → (Φ s e ↔ Ψ s e)) {s : σ} (hs : Inv s) (es : List ε) :
    Along step Φ s es ↔ Along step Ψ s es :=
  along_iff_along (fun s e hi _ => hstep s e hi) hiff hs es

/-- A condition that under the invariant depends on the event alone. -/
theorem along_iff_forall_mem {p : ε → Prop} (hstep : ∀ s e, Inv s → p e → Inv (step s e))
    (hiff : ∀ s e, Inv s → (Φ s e ↔ p e)) {s : σ} (hs : Inv s) (es : List ε) :
    Along step Φ s es ↔ ∀ e ∈ es, p e := by
  rw [along_iff_along hstep hiff hs es]
  exact along_event_iff s es

end Invariant

/-- Forward simulation: an abstract machine that follows every step follows every run. -/
theorem run_simulation {step : σ → ε → σ} {step' : τ → δ → τ} {Φ : σ → ε → Prop}
    {R : σ → τ → Prop} {abs : ε → δ}
    (hstep : ∀ s t e, R s t → Φ s e → R (step s e) (step' t (abs e)))
    {s : σ} {t : τ} {es : List ε} (hs : R s t) (ha : Along step Φ s es) :
    R (run step s es) (run step' t (es.map abs)) := by
  induction es generalizing s t with
  | nil => exact hs
  | cons e es ih => exact ih (hstep s t e hs ha.1) ha.2

/-- A latch holds the last value it was given. -/
theorem run_latch (f : ε → Option σ) (s : σ) (es : List ε) :
    run (fun s e => (f e).getD s) s es = ((es.filterMap f).getLast?).getD s := by
  induction es generalizing s with
  | nil => rfl
  | cons e es ih =>
    rw [run_cons, ih]
    cases he : f e with
    | none => rw [List.filterMap_cons_none he, Option.getD_none]
    | some t => rw [List.filterMap_cons_some he, List.getLast?_cons, Option.getD_some,
        Option.getD_some]

end Run
