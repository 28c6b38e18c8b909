import Mathlib.Data.Bool.Basic

/-!
# Mutexes of a system of threads

A mutex is the thread that holds it, if any. In a program whose points say whether a
thread is between taking and releasing the mutex, the two agree (`Held`), and that is
kept by every step of one thread that takes the mutex when it is free, releases it when
it is its own, or does neither (`Turn`).

What only the holder of the mutex can have, its `share`, changes with the holder's own
points (`Held.share_turn`).
-/

namespace Mutex

universe u

variable {Θ : Type u} {holds holds' : Θ → Bool} {m m' : Option Θ}

/-- The mutex is held by the thread whose point says so, and by no other. -/
def Held (holds : Θ → Bool) (m : Option Θ) : Prop := ∀ th, holds th = true ↔ m = some th

/-- What one thread does to the mutex in a step. -/
inductive Turn (who : Θ) (m m' : Option Θ) (before after : Bool) : Prop where
  | acquire (free : m = none) (taken : m' = some who) (inside : after = true)
  | release (owned : before = true) (freed : m' = none) (outside : after = false)
  | keep (same : m' = m) (stay : after = before)

theorem Held.unique (h : Held holds m) {a b : Θ} (ha : holds a = true) (hb : holds b = true) :
    a = b :=
  Option.some.inj (((h a).mp ha).symm.trans ((h b).mp hb))

/-- A mutex that is free is held by nobody. -/
theorem Held.of_free (h : Held holds none) (th : Θ) : holds th = false :=
  Bool.eq_false_iff.mpr fun hth => nomatch (h th).mp hth

/-- A turn of one thread keeps the mutex in agreement with the points. -/
theorem Held.turn {who : Θ} (h : Held holds m) (hothers : ∀ th, th ≠ who → holds' th = holds th)
    (hturn : Turn who m m' (holds who) (holds' who)) : Held holds' m' := by
  intro th
  cases hturn with
  | acquire hfree htaken hinside =>
    subst hfree htaken
    by_cases heq : th = who
    · subst heq
      simp [hinside]
    · rw [hothers th heq, h.of_free th]
      simp [Ne.symm heq]
  | release howned hfreed houtside =>
    subst hfreed
    by_cases heq : th = who
    · subst heq
      simp [houtside]
    · have hne : holds th = false :=
        Bool.eq_false_iff.mpr fun hth => heq (h.unique hth howned)
      simp [hothers th heq, hne]
  | keep hsame hstay =>
    subst hsame
    by_cases heq : th = who
    · subst heq
      rw [hstay, h th]
    · rw [hothers th heq, h th]

/-! ## What the holder has -/

universe v

variable {ε : Type v} {d : ε} {f f' : Θ → ε}

/-- What the holder of the mutex has, and `d` when it is free. -/
def share (m : Option Θ) (d : ε) (f : Θ → ε) : ε := m.elim d f

theorem Held.share_eq (h : Held holds m) {th : Θ} (hth : holds th = true) :
    share m d f = f th := by
  rw [(h th).mp hth, share, Option.elim_some]

theorem Held.share_of_free (h : Held holds m) (hfree : ∀ th, holds th = false) :
    share m d f = d := by
  cases m with
  | none => rfl
  | some th => exact absurd ((h th).mpr rfl) (by simp [hfree th])

theorem Held.share_congr (h : Held holds m) (h' : Held holds' m')
    (hsame : ∀ th, holds' th = holds th) (hf : ∀ th, holds th = true → f' th = f th) :
    share m' d f' = share m d f := by
  cases m with
  | none => exact h'.share_of_free fun th => (hsame th).trans (h.of_free th)
  | some th =>
    have hth : holds th = true := (h th).mpr rfl
    rw [h'.share_eq ((hsame th).trans hth), hf th hth]
    rfl

/-- Where the holder is without the mutex, nobody has it. -/
theorem Held.others_free {who : Θ} (h : Held holds m) (hwho : holds who = true)
    (hout : holds' who = false) (hothers : ∀ th, th ≠ who → holds' th = holds th) (th : Θ) :
    holds' th = false := by
  by_contra hth
  have hne : th ≠ who := fun heq => hth (heq ▸ hout)
  have hth' : holds th = true := (hothers th hne).symm.trans (Bool.eq_true_of_not_eq_false hth)
  exact hne (h.unique hth' hwho)

/-- In a turn of one thread, either the share is its own before and behind it, or it has
nothing and the share stays. -/
theorem Held.share_turn (who : Θ) (f f' : Θ → ε) (h : Held holds m) (h' : Held holds' m')
    (hothers : ∀ th, th ≠ who → holds' th = holds th ∧ f' th = f th)
    (hf : holds who = false → f who = d) (hf' : holds' who = false → f' who = d) :
    (share m d f = f who ∧ share m' d f' = f' who) ∨
    (f who = d ∧ f' who = d ∧ share m' d f' = share m d f) := by
  cases hbefore : holds who <;> cases hafter : holds' who
  · refine .inr ⟨hf hbefore, hf' hafter, h.share_congr h' (fun th => ?_) fun th hth => ?_⟩
    · by_cases heq : th = who
      · rw [heq, hbefore, hafter]
      · exact (hothers th heq).1
    · refine (hothers th fun heq => ?_).2
      simp [heq, hbefore] at hth
  · have hfree := h'.others_free hafter hbefore fun th hth => (hothers th hth).1.symm
    exact .inl ⟨(h.share_of_free hfree).trans (hf hbefore).symm, h'.share_eq hafter⟩
  · have hfree := h.others_free hbefore hafter fun th hth => (hothers th hth).1
    exact .inl ⟨h.share_eq hbefore, (h'.share_of_free hfree).trans (hf' hafter).symm⟩
  · exact .inl ⟨h.share_eq hbefore, h'.share_eq hafter⟩

end Mutex
