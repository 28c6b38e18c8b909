import SerialRpc.Lib.ReaderLoop

/-!
# Readers that stop at the first error

A program that tests the error after every read makes no read once one has been reported.
Started without an error it makes no late one (`Prompt`), and so it can be followed by
whatever tests the error first.

- `Prompt.read`, `Prompt.report`, `Prompt.bind`: one read, a check, and one after the other.
- `Prompt.loop`: a loop that goes on only without an error.
- `read_lateReads`: a read is late if there was an error before.
-/

namespace ByteStream

universe u v

variable {α β : Type u} {ε : Type v}

namespace Reader

/-- Started without an error, a reader makes no late read. -/
def Prompt (f : Reader ε → α × Reader ε) : Prop :=
  ∀ r, r.err = none → (f r).2.lateReads = r.lateReads

theorem read_lateReads (p : Read α) (e : ε) {r : Reader ε} (h : r.err ≠ none) :
    (r.read p e).2.lateReads = r.lateReads + 1 := by
  simp [Reader.read, Option.isSome_iff_ne_none.mpr h]

section Rules

variable {f : Reader ε → α × Reader ε} {g : α → Reader ε → β × Reader ε}

theorem Prompt.pure (a : α) : Prompt (fun r : Reader ε => (a, r)) := fun _ _ => rfl

theorem Prompt.report (a : α) (e : ε) : Prompt (fun r : Reader ε => (a, r.report e)) :=
  fun _ _ => rfl

theorem Prompt.read (p : Read α) (e : ε) : Prompt (fun r : Reader ε => r.read p e) := by
  intro r h
  simp [Reader.read, h]

/-- The second one tests the error first. -/
theorem Prompt.bind (hf : Prompt f) (stop : α → β) (hg : ∀ a, Prompt (g a)) :
    Prompt fun r =>
      if (f r).2.err.isSome then (stop (f r).1, (f r).2) else g (f r).1 (f r).2 := by
  intro r h
  cases herr : (f r).2.err with
  | some e =>
    simp only [herr, Option.isSome_some, if_true]
    exact hf r h
  | none =>
    simp only [herr, Option.isSome_none, Bool.false_eq_true, if_false]
    exact (hg _ _ herr).trans (hf r h)

end Rules

section Loops

variable {σ : Type u} {body : Body σ ε}

/-- A loop of prompt rounds that goes on only if there has been no error. -/
theorem Prompt.loop (hproductive : Productive body)
    (hround : ∀ s r, r.err = none → (body s r).reader.lateReads = r.lateReads)
    (hagain : ∀ s r, (body s r).again = true → (body s r).reader.err = none) (s : σ) :
    Prompt (Reader.loop body s) := by
  intro r
  induction hlen : r.unread.length using Nat.strongRecOn generalizing s r with
  | ind len ih =>
    subst hlen
    intro h
    rw [loop_eq hproductive]
    cases hgo : (body s r).again with
    | false =>
      simp only [hgo, Bool.false_eq_true, if_false]
      exact hround s r h
    | true =>
      simp only [hgo, if_true]
      rw [ih _ (hproductive s r hgo) _ _ rfl (hagain s r hgo), hround s r h]

end Loops

end Reader

end ByteStream
