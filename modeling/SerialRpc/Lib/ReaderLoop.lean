import SerialRpc.Lib.ByteStream

/-!
# Loops over a byte stream

`for (;;)` loops that read a stream: a round takes the loop's variables and the
reader, and says whether the loop goes on. A loop whose every round that goes on
has read at least a byte (`Productive`) stops on every stream, and runs on fuel that
the stream itself provides.

- `Reader.loop`: the loop. `Reader.loop_eq` is its equation, with no fuel in it, and
  `Reader.loop_last` says that a round ends it.
- `Reader.loop_suffix`: the loop puts no bytes back when its rounds do not.
- `Reader.loop_induct`: what every round preserves, the loop preserves.
- `Reader.loopLog`: a log of the rounds, kept beside the loop's variables.
-/

namespace ByteStream

universe u v

/-- What a round leaves: the loop's variables, the reader, and whether the loop goes
on. -/
structure Round (σ : Type u) (ε : Type v) where
  again : Bool
  state : σ
  reader : Reader ε

/-- The body of a loop. -/
abbrev Body (σ : Type u) (ε : Type v) := σ → Reader ε → Round σ ε

variable {σ : Type u} {ε : Type v}

/-- A round that goes on has read something. -/
def Productive (body : Body σ ε) : Prop :=
  ∀ s r, (body s r).again = true → (body s r).reader.unread.length < r.unread.length

/-- No round puts bytes back. -/
def Consuming (body : Body σ ε) : Prop :=
  ∀ s r, (body s r).reader.unread <:+ r.unread

namespace Reader

/-- The loop, for at most so many rounds. -/
def loopFor (body : Body σ ε) : Nat → σ → Reader ε → σ × Reader ε
  | 0, s, r => (s, r)
  | fuel + 1, s, r =>
    let next := body s r
    if next.again then loopFor body fuel next.state next.reader else (next.state, next.reader)

/-- The loop: a productive one makes at most one round more than there are bytes. -/
def loop (body : Body σ ε) (s : σ) (r : Reader ε) : σ × Reader ε :=
  loopFor body (r.unread.length + 1) s r

/-- More rounds than there are bytes to read change nothing. -/
theorem loopFor_eq {body : Body σ ε} (h : Productive body) :
    ∀ {fuel fuel' : Nat} (s : σ) (r : Reader ε),
      r.unread.length < fuel → r.unread.length < fuel' →
      loopFor body fuel s r = loopFor body fuel' s r
  | 0, _, _, _, hlt, _ => absurd hlt (Nat.not_lt_zero _)
  | _, 0, _, _, _, hlt => absurd hlt (Nat.not_lt_zero _)
  | fuel + 1, fuel' + 1, s, r, hlt, hlt' => by
    simp only [loopFor]
    cases hagain : (body s r).again with
    | false => rfl
    | true =>
      have hread := h s r hagain
      exact loopFor_eq h _ _ (by omega) (by omega)

/-- The loop as it is written: a round, and the loop again if it says so. -/
theorem loop_eq {body : Body σ ε} (h : Productive body) (s : σ) (r : Reader ε) :
    loop body s r =
      let next := body s r
      if next.again then loop body next.state next.reader else (next.state, next.reader) := by
  rw [loop, loopFor]
  cases hagain : (body s r).again with
  | false => simp only [hagain, Bool.false_eq_true, if_false]
  | true =>
    have hread := h s r hagain
    simp only [hagain, if_true]
    exact loopFor_eq h _ _ hread (Nat.lt_succ_self _)

/-- The loop is left by a round that says so. -/
theorem loop_last {body : Body σ ε} (h : Productive body) (s : σ) (r : Reader ε) :
    ∃ s' r', (body s' r').again = false ∧
      loop body s r = ((body s' r').state, (body s' r').reader) := by
  induction hlen : r.unread.length using Nat.strongRecOn generalizing s r with
  | ind len ih =>
    subst hlen
    rw [loop_eq h]
    cases hagain : (body s r).again with
    | false => exact ⟨s, r, hagain, by simp only [hagain, Bool.false_eq_true, if_false]⟩
    | true =>
      obtain ⟨s', r', hlast, heq⟩ := ih _ (h s r hagain) (body s r).state (body s r).reader rfl
      exact ⟨s', r', hlast, by simp only [hagain, if_true, heq]⟩

/-- A property of the variables and the reader that every round preserves holds when
the loop is left. -/
theorem loop_induct {body : Body σ ε} {motive : σ → Reader ε → Prop}
    (hround : ∀ s r, motive s r → motive (body s r).state (body s r).reader)
    (s : σ) (r : Reader ε) (h : motive s r) : motive (loop body s r).1 (loop body s r).2 := by
  have hfor : ∀ fuel s r, motive s r →
      motive (loopFor body fuel s r).1 (loopFor body fuel s r).2 := by
    intro fuel
    induction fuel with
    | zero => exact fun _ _ h => h
    | succ fuel ih =>
      intro s r h
      simp only [loopFor]
      split
      · exact ih _ _ (hround s r h)
      · exact hround s r h
  exact hfor _ s r h

theorem loop_suffix {body : Body σ ε} (h : Consuming body) (s : σ) (r : Reader ε) :
    (loop body s r).2.unread <:+ r.unread :=
  loop_induct (motive := fun _ r' => r'.unread <:+ r.unread)
    (fun s' r' hr' => (h s' r').trans hr') s r (List.suffix_refl _)

/-! ## Logs -/

section Logs

variable {α : Type u} {body : Body σ ε}

/-- A round that adds what it does to a log. -/
def logged (body : Body σ ε) (log : σ → Reader ε → List α) : Body (σ × List α) ε := fun s r =>
  let next := body s.1 r
  ⟨next.again, (next.state, s.2 ++ log s.1 r), next.reader⟩

/-- The log of all rounds of a loop. -/
def loopLog (body : Body σ ε) (log : σ → Reader ε → List α) (s : σ) (r : Reader ε) : List α :=
  (loop (logged body log) (s, []) r).1.2

/-- The log stands beside the loop and does not change it. -/
theorem loop_logged (log : σ → Reader ε → List α) (s : σ) (l : List α) (r : Reader ε) :
    loop (logged body log) (s, l) r =
      (((loop body s r).1, l ++ loopLog body log s r), (loop body s r).2) := by
  have hfor : ∀ fuel s l l' r, ∃ added,
      loopFor (logged body log) fuel (s, l) r =
        (((loopFor body fuel s r).1, l ++ added), (loopFor body fuel s r).2) ∧
      (loopFor (logged body log) fuel (s, l') r).1.2 = l' ++ added := by
    intro fuel
    induction fuel with
    | zero => exact fun s l l' r => ⟨[], by simp [loopFor], by simp [loopFor]⟩
    | succ fuel ih =>
      intro s l l' r
      simp only [loopFor, logged]
      by_cases hagain : (body s r).again = true
      · obtain ⟨added, hl, hl'⟩ := ih (body s r).state (l ++ log s r) (l' ++ log s r)
          (body s r).reader
        simp only [hagain, if_true]
        exact ⟨log s r ++ added, by rw [hl, List.append_assoc], by rw [hl', List.append_assoc]⟩
      · exact ⟨log s r, by simp [hagain], by simp [hagain]⟩
  obtain ⟨added, hl, hnil⟩ := hfor (r.unread.length + 1) s l [] r
  have hlog : loopLog body log s r = added := hnil
  rw [hlog]
  exact hl

/-- What the first round does, and the rest of the log. -/
theorem loopLog_eq (h : Productive body) (log : σ → Reader ε → List α) (s : σ) (r : Reader ε) :
    loopLog body log s r = log s r ++
      if (body s r).again then loopLog body log (body s r).state (body s r).reader else [] := by
  have hlogged : Productive (logged body log) := fun s r => h s.1 r
  rw [loopLog, loop_eq hlogged]
  cases hagain : (body s r).again with
  | false => simp [logged, hagain]
  | true => simp [logged, hagain, loop_logged]

end Logs

end Reader

end ByteStream
