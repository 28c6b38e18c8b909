import Mathlib.Data.List.Basic

/-!
# Declarations that are checked one after the other

A reader goes through declarations, in whatever shape it finds them, and checks each
against those before it: a name that is used must have been declared, a number must be new.
It gives up at the first declaration that fails its check.

- `firstFailure`: the failure of the first declaration that fails. It splits over appended
  lists (`firstFailure_append`), and says of every declaration that it passes
  (`firstFailure_eq_none_iff`) or which one is the first that does not
  (`firstFailure_eq_some_iff`).
- `Ends`: a computation ends as a check says, with the check's failure or else with an
  outcome of which something holds. Computations in sequence end as their checks in sequence
  (`Ends.bind`), and so do those of a list (`Ends.mapM`).
-/

namespace Checks

universe u v w

variable {D : Type u} {E : Type v}

/-! ## The first failure -/

section FirstFailure

-- `check before d` is what is wrong with a declaration behind others.
variable (check : List D → D → Option E)

/-- The failure of the first of the declarations that fails, behind those of `before`. -/
def firstFailure : List D → List D → Option E
  | _, [] => none
  | before, d :: ds => (check before d).or (firstFailure (before ++ [d]) ds)

@[simp] theorem firstFailure_nil (before : List D) : firstFailure check before [] = none := rfl

theorem firstFailure_singleton (before : List D) (d : D) :
    firstFailure check before [d] = check before d :=
  Option.or_none

theorem firstFailure_append : ∀ before ds ds' : List D,
    firstFailure check before (ds ++ ds') =
      (firstFailure check before ds).or (firstFailure check (before ++ ds) ds')
  | before, [], ds' => by simp
  | before, d :: ds, ds' => by
    have ih := firstFailure_append (before ++ [d]) ds ds'
    rw [List.append_assoc, List.singleton_append] at ih
    simp only [List.cons_append, firstFailure, ih, Option.or_assoc]

variable {check}

/-- No declaration fails exactly if each passes behind those before it. -/
theorem firstFailure_eq_none_iff {before ds : List D} :
    firstFailure check before ds = none ↔
      ∀ earlier d later, ds = earlier ++ d :: later → check (before ++ earlier) d = none := by
  constructor
  · rintro h earlier d later rfl
    rw [firstFailure_append, Option.or_eq_none_iff, firstFailure, Option.or_eq_none_iff] at h
    exact h.2.1
  · intro h
    induction ds generalizing before with
    | nil => rfl
    | cons d ds ih =>
      refine Option.or_eq_none_iff.mpr
        ⟨by simpa using h [] d ds rfl, ih fun earlier d' later hds => ?_⟩
      have hcheck := h (d :: earlier) d' later (by rw [hds, List.cons_append])
      rwa [List.append_cons] at hcheck

/-- A failure is that of the first declaration that does not pass. -/
theorem firstFailure_eq_some_iff {before ds : List D} {e : E} :
    firstFailure check before ds = some e ↔
      ∃ earlier d later, ds = earlier ++ d :: later ∧
        firstFailure check before earlier = none ∧ check (before ++ earlier) d = some e := by
  constructor
  · intro h
    induction ds generalizing before with
    | nil => cases h
    | cons d ds ih =>
      rcases Option.or_eq_some_iff.mp h with hd | ⟨hd, hds⟩
      · exact ⟨[], d, ds, rfl, rfl, by rwa [List.append_nil]⟩
      · obtain ⟨earlier, d', later, rfl, hnone, hfails⟩ := ih hds
        refine ⟨d :: earlier, d', later, rfl, Option.or_eq_none_iff.mpr ⟨hd, hnone⟩, ?_⟩
        rwa [List.append_cons]
  · rintro ⟨earlier, d, later, rfl, hnone, hfails⟩
    rw [firstFailure_append, hnone, Option.none_or, firstFailure, hfails, Option.some_or]

end FirstFailure

/-! ## Computations that end as a check says -/

section Ends

variable {α β : Type w}

/-- A computation fails as `failure` says, or else has an outcome of which `P` holds. -/
def Ends (x : Except E α) (P : α → Prop) : Option E → Prop
  | none => ∃ a, x = .ok a ∧ P a
  | some e => x = .error e

variable {P : α → Prop} {Q : β → Prop} {x : Except E α} {f : α → Except E β}

theorem Ends.ok {a : α} (h : P a) : Ends (.ok a : Except E α) P none := ⟨a, rfl, h⟩

theorem Ends.imp {Q : α → Prop} (himp : ∀ a, P a → Q a) :
    ∀ {failure : Option E}, Ends x P failure → Ends x Q failure
  | none, ⟨a, hx, ha⟩ => ⟨a, hx, himp a ha⟩
  | some _, h => h

/-- What comes second is checked if the first passes. -/
theorem Ends.bind {failure failure' : Option E} (h : Ends x P failure)
    (h' : ∀ a, P a → Ends (f a) Q failure') : Ends (x >>= f) Q (failure.or failure') := by
  cases failure with
  | none =>
    obtain ⟨a, rfl, ha⟩ := h
    exact h' a ha
  | some e =>
    obtain rfl : x = .error e := h
    rfl

/-- What comes second does not fail. -/
theorem Ends.andThen {failure : Option E} (h : Ends x P failure)
    (h' : ∀ a, P a → ∃ b, f a = .ok b ∧ Q b) : Ends (x >>= f) Q failure := by
  have hbind : Ends (x >>= f) Q (failure.or none) := h.bind h'
  rwa [Option.or_none] at hbind

/-- A failure is reported as another. -/
theorem Ends.mapError {E' : Type v} {g : E → E'} {failure : Option E} (h : Ends x P failure) :
    Ends (x.mapError g) P (failure.map g) := by
  cases failure with
  | none =>
    obtain ⟨a, rfl, ha⟩ := h
    exact ⟨a, rfl, ha⟩
  | some e =>
    obtain rfl : x = .error e := h
    rfl

/-- An outcome is the one that there is. -/
theorem Ends.self {failure : Option E} (h : Ends x P failure) :
    Ends x (fun a => x = .ok a) failure := by
  cases failure with
  | none =>
    obtain ⟨a, hx, -⟩ := h
    exact ⟨a, hx, hx⟩
  | some e => exact h

/-- The elements of a list are checked one after the other. -/
theorem Ends.mapM {A : Type u} {g : A → Except E β} {R : A → β → Prop} {failure : A → Option E} :
    ∀ {as : List A}, (∀ a ∈ as, Ends (g a) (R a) (failure a)) →
      Ends (as.mapM g) (List.Forall₂ R as) (as.findSome? failure)
  | [], _ => ⟨[], rfl, .nil⟩
  | a :: as, h => by
    have hhead := h a List.mem_cons_self
    have htail := Ends.mapM fun a ha => h a (List.mem_cons_of_mem _ ha)
    have hfirst : (a :: as).findSome? failure = (failure a).or (as.findSome? failure) := by
      rw [List.findSome?_cons]
      cases failure a <;> rfl
    rw [List.mapM_cons, hfirst]
    exact hhead.bind fun b hb => htail.andThen fun bs hbs => ⟨b :: bs, rfl, .cons hb hbs⟩

/-- An outcome exactly if there is no failure. -/
theorem Ends.ok_iff {failure : Option E} (h : Ends x P failure) :
    (∃ a, x = .ok a) ↔ failure = none := by
  cases failure with
  | none =>
    obtain ⟨a, hx, -⟩ := h
    exact iff_of_true ⟨a, hx⟩ rfl
  | some e =>
    obtain rfl : x = .error e := h
    simp

/-- An error exactly if it is the failure. -/
theorem Ends.error_iff {failure : Option E} (h : Ends x P failure) {e : E} :
    x = .error e ↔ failure = some e := by
  cases failure with
  | none =>
    obtain ⟨a, rfl, -⟩ := h
    simp
  | some e' =>
    obtain rfl : x = .error e' := h
    simp

/-- Of an outcome holds what is promised. -/
theorem Ends.of_ok {failure : Option E} (h : Ends x P failure) {a : α} (hx : x = .ok a) : P a := by
  cases failure with
  | none =>
    obtain ⟨a', hx', ha'⟩ := h
    cases hx.symm.trans hx'
    exact ha'
  | some e =>
    cases hx.symm.trans h

end Ends

end Checks
