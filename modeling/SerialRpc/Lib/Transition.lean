import Mathlib.Data.Option.Basic

/-!
# Runs of a transition system

A library for programs given by a step function: a state and an action give the next
state, or nothing when the action cannot be taken.

- `run`: the state after a list of actions.
- `Along`: every step of a run has a property of the state it is taken in and of its
  action; `Always`: every state of a run has a property.
- `Preserves.always` and `Preserves.along`: what every step preserves, given that the
  run's steps meet some condition, holds throughout the run, and with it whatever it
  says about single steps.
- `Preserves.always_iff`: the exact condition on the steps for a property of the states.
- `foldl_establishes`: a pass over a list, whose turn for an element establishes something
  that no later turn takes back.
-/

namespace Transition

universe u v

variable {σ : Type u} {α : Type v}

section Runs

variable (step : σ → α → Option σ)

/-- The state after some actions, if each could be taken. -/
def run : σ → List α → Option σ
  | s, [] => some s
  | s, a :: as => (step s a).bind fun s' => run s' as

/-- Every step of a run has a property. -/
def Along (P : σ → α → Prop) : σ → List α → Prop
  | _, [] => True
  | s, a :: as => P s a ∧ ∀ s', step s a = some s' → Along P s' as

/-- Every state of a run has a property. -/
def Always (P : σ → Prop) : σ → List α → Prop
  | s, [] => P s
  | s, a :: as => P s ∧ ∀ s', step s a = some s' → Always P s' as

/-- A step that meets `ok` keeps `I`. -/
def Preserves (ok : σ → α → Prop) (I : σ → Prop) : Prop :=
  ∀ s a s', I s → ok s a → step s a = some s' → I s'

end Runs

variable {step : σ → α → Option σ} {P Q : σ → Prop} {R T : σ → α → Prop}

/-- Whether the steps of a given run have a property can be computed. -/
instance Along.decidable (step : σ → α → Option σ) (R : σ → α → Prop)
    [∀ s a, Decidable (R s a)] : ∀ s as, Decidable (Along step R s as)
  | _, [] => isTrue trivial
  | s, a :: as =>
    have : Decidable (∀ s', step s a = some s' → Along step R s' as) :=
      match step s a with
      | none => isTrue fun _ hs' => nomatch hs'
      | some s' =>
        have := Along.decidable step R s' as
        decidable_of_iff (Along step R s' as)
          ⟨fun hrun _ hs' => Option.some.inj hs' ▸ hrun, fun hrun => hrun s' rfl⟩
    inferInstanceAs (Decidable (R s a ∧ _))

/-- A property of every step. -/
theorem Along.of_forall (h : ∀ s a, R s a) : ∀ (s : σ) (as : List α), Along step R s as
  | _, [] => trivial
  | s, a :: as => ⟨h s a, fun s' _ => Along.of_forall h s' as⟩

theorem Always.head {s : σ} {as : List α} (h : Always step P s as) : P s := by
  cases as with
  | nil => exact h
  | cons a as => exact h.1

theorem Always.imp (hPQ : ∀ s, P s → Q s) :
    ∀ {s : σ} {as : List α}, Always step P s as → Always step Q s as
  | s, [], h => hPQ s h
  | s, _ :: _, h => ⟨hPQ s h.1, fun s' hs' => (h.2 s' hs').imp hPQ⟩

/-- What holds throughout a run holds at its end. -/
theorem Always.last :
    ∀ {s s' : σ} {as : List α}, Always step P s as → run step s as = some s' → P s'
  | s, s', [], h, hrun => by
    cases hrun
    exact h
  | s, s', a :: as, h, hrun => by
    obtain ⟨t, ht, hrun⟩ := Option.bind_eq_some_iff.mp hrun
    exact (h.2 t ht).last hrun

/-- The run rule: an invariant that holds at first holds throughout. -/
theorem Preserves.always (h : Preserves step R P) :
    ∀ {s : σ} {as : List α}, P s → Along step R s as → Always step P s as
  | _, [], hs, _ => hs
  | s, a :: _, hs, hrun =>
    ⟨hs, fun s' hs' => h.always (h s a s' hs hrun.1 hs') (hrun.2 s' hs')⟩

/-- An invariant tells what each step does. -/
theorem Preserves.along (h : Preserves step R P) (hT : ∀ s a, P s → R s a → T s a) :
    ∀ {s : σ} {as : List α}, P s → Along step R s as → Along step T s as
  | _, [], _, _ => trivial
  | s, a :: _, hs, hrun =>
    ⟨hT s a hs hrun.1,
      fun s' hs' => h.along hT (h s a s' hs hrun.1 hs') (hrun.2 s' hs')⟩

/-- Where each step keeps `Q` exactly if it has `T`, so does a run: `Q` holds throughout
exactly if all steps have `T`. -/
theorem Preserves.always_iff (h : Preserves step R P)
    (hT : ∀ s a, P s → R s a → Q s → (T s a ↔ ∀ s', step s a = some s' → Q s')) :
    ∀ {s : σ} {as : List α}, P s → Q s → Along step R s as →
      (Always step Q s as ↔ Along step T s as)
  | _, [], _, hQ, _ => ⟨fun _ => trivial, fun _ => hQ⟩
  | s, a :: _, hs, hQ, hrun => by
    have hstep := hT s a hs hrun.1 hQ
    constructor
    · intro hall
      refine ⟨hstep.mpr fun s' hs' => (hall.2 s' hs').head, fun s' hs' => ?_⟩
      exact (h.always_iff hT (h s a s' hs hrun.1 hs') (hall.2 s' hs').head (hrun.2 s' hs')).mp
        (hall.2 s' hs')
    · intro halong
      refine ⟨hQ, fun s' hs' => ?_⟩
      exact (h.always_iff hT (h s a s' hs hrun.1 hs') (hstep.mp halong.1 s' hs')
        (hrun.2 s' hs')).mpr (halong.2 s' hs')

/-! ## Passes over a list -/

/-- A pass moves the state up in a preorder, and has done for every element of the list
what the element's turn does. -/
theorem foldl_establishes (f : σ → α → σ) (le : σ → σ → Prop) (done : α → σ → Prop)
    (hrefl : ∀ s, le s s) (htrans : ∀ s t u, le s t → le t u → le s u)
    (hstable : ∀ a s t, done a s → le s t → done a t) {first : σ}
    (hturn : ∀ s a, le first s → le s (f s a) ∧ done a (f s a)) (as : List α) :
    ∀ s, le first s → le s (as.foldl f s) ∧ ∀ a ∈ as, done a (as.foldl f s) := by
  induction as with
  | nil => exact fun s _ => ⟨hrefl s, nofun⟩
  | cons a as ih =>
    intro s hs
    obtain ⟨hle, hdone⟩ := hturn s a hs
    obtain ⟨hle', hdone'⟩ := ih (f s a) (htrans _ _ _ hs hle)
    refine ⟨htrans _ _ _ hle hle', fun b hb => ?_⟩
    cases hb with
    | head => exact hstable a _ _ hdone hle'
    | tail _ hb => exact hdone' b hb

end Transition
