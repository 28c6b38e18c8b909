import SerialRpc.Lib.Transition

/-!
# Simulation between transition systems

A library for a system that is built to behave like a simpler one. Each action of the
system amounts to some actions of the simpler one, which may be none, and which the state
it is taken in may decide.

- `image`: what a run of the system amounts to.
- `Simulates`: related states stay related, step by step.
- `Simulates.run`: the run rule. Where the system runs, the simpler one runs through the
  image, and the states at the end are related.
- `image_append`: as a run goes on, so does its image; what has happened stays.
-/

namespace Transition

universe u v

variable {σ τ : Type u} {α β : Type v}

section Append

variable {step : σ → α → Option σ} {R : σ → α → Prop}

theorem run_append (s : σ) (as bs : List α) :
    run step s (as ++ bs) = (run step s as).bind fun s' => run step s' bs := by
  induction as generalizing s with
  | nil => rfl
  | cons a as ih =>
    cases hstep : step s a with
    | none => simp [run, hstep]
    | some t => simp [run, hstep, ih]

theorem Along.left :
    ∀ {s : σ} {as bs : List α}, Along step R s (as ++ bs) → Along step R s as
  | _, [], _, _ => trivial
  | _, _ :: _, _, h => ⟨h.1, fun s' hs' => (h.2 s' hs').left⟩

theorem Along.right {s s' : σ} {as bs : List α} (h : Along step R s (as ++ bs))
    (hrun : run step s as = some s') : Along step R s' bs := by
  induction as generalizing s with
  | nil =>
    cases hrun
    exact h
  | cons a as ih =>
    obtain ⟨t, ht, hrun⟩ := Option.bind_eq_some_iff.mp hrun
    exact ih (h.2 t ht) hrun

end Append

section Simulation

variable (step : σ → α → Option σ) (step' : τ → β → Option τ) (amounts : σ → α → List β)

/-- What a run amounts to. -/
def image : σ → List α → List β
  | _, [] => []
  | s, a :: as =>
    amounts s a ++
      match step s a with
      | none => []
      | some s' => image s' as

/-- Where both systems keep to their conditions, a step leads from related states to related
states. -/
def Simulates (ok : σ → α → Prop) (ok' : τ → β → Prop) (rel : σ → τ → Prop) : Prop :=
  ∀ s a s' t, rel s t → ok s a → Along step' ok' t (amounts s a) → step s a = some s' →
    ∃ t', run step' t (amounts s a) = some t' ∧ rel s' t'

variable {step step' amounts} {ok : σ → α → Prop} {ok' : τ → β → Prop} {rel : σ → τ → Prop}

/-- The image of a run that goes on goes on. -/
theorem image_append {s s' : σ} {as : List α} (hrun : run step s as = some s')
    (bs : List α) :
    image step amounts s (as ++ bs) = image step amounts s as ++ image step amounts s' bs := by
  induction as generalizing s with
  | nil =>
    cases hrun
    rfl
  | cons a as ih =>
    obtain ⟨t, ht, hrun⟩ := Option.bind_eq_some_iff.mp hrun
    simp only [List.cons_append, image, ht, ih hrun, List.append_assoc]

/-- The run rule. -/
theorem Simulates.run (h : Simulates step step' amounts ok ok' rel) {s s' : σ} {t : τ}
    {as : List α} (hrel : rel s t) (hok : Along step ok s as)
    (hok' : Along step' ok' t (image step amounts s as)) (hrun : run step s as = some s') :
    ∃ t', Transition.run step' t (image step amounts s as) = some t' ∧ rel s' t' := by
  induction as generalizing s t with
  | nil =>
    cases hrun
    exact ⟨t, rfl, hrel⟩
  | cons a as ih =>
    obtain ⟨u, hu, hrun⟩ := Option.bind_eq_some_iff.mp hrun
    simp only [image, hu] at hok' ⊢
    obtain ⟨v, hv, hrel'⟩ := h s a u t hrel hok.1 hok'.left hu
    obtain ⟨t', ht', hlast⟩ := ih hrel' (hok.2 u hu) (hok'.right hv) hrun
    refine ⟨t', ?_, hlast⟩
    rw [run_append, hv]
    exact ht'

end Simulation

end Transition
