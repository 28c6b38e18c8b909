import SerialRpc.Lib.ReaderLoop

/-!
# Readers that look at nothing behind what they take

A reader that succeeds has taken some bytes off the front of the stream. It is local
when what it returns depends on these alone: on any other stream that begins with them it
takes the same bytes and returns the same value. Local readers compose, and so formats can
be described by what is taken.

- `Takes`: off every stream that begins with some bytes, a reader takes them and returns a
  value. `Takes.bind`, `Takes.loop`: one reader behind another, and a loop.
- `Local`: every successful run takes what it has read.
- `Sticky`: an error that was reported before stays. Programs that go on without a look at
  the error compose as well (`Local.bind`).
- `Noisy`: a stream with noise between what the rounds of a loop take. Where every round
  passes over the noise, the loop does what it does without (`Noisy.loop`).
-/

namespace ByteStream

universe u v

variable {α β : Type u} {ε : Type v}

/-- A read that succeeds reads the bytes it has used. -/
def Read.Local (p : Read α) : Prop :=
  ∀ bs, (p.run bs).failed = false →
    ∃ taken, bs = taken ++ (p.run bs).rest ∧ p.Reads taken (p.run bs).value

namespace Read

theorem byte_local : byte.Local
  | [], h => nomatch h
  | b :: _, _ => ⟨[b], rfl, byte_reads b⟩

theorem full_local (n : Nat) : (full n).Local := by
  intro bs h
  by_cases hle : n ≤ bs.length
  · have hreads := full_reads (bs.take n)
    rw [List.length_take, Nat.min_eq_left hle] at hreads
    exact ⟨bs.take n, by simp [full, hle], by simpa [full, hle] using hreads⟩
  · simp [full, hle] at h

theorem discard_local (n : Nat) : (discard n).Local := by
  intro bs h
  obtain ⟨taken, hbs, hreads⟩ := full_local n bs h
  exact ⟨taken, hbs, fun rest => by simp [discard, hreads rest]⟩

end Read

namespace Reader

/-- The reader takes some bytes and returns a value, whatever follows. -/
def Takes (f : Reader ε → α × Reader ε) (taken : List UInt8) (a : α) : Prop :=
  ∀ rest, f (ofBytes (taken ++ rest)) = (a, ofBytes rest)

/-- A reader that succeeds takes what it has read. -/
def Local (f : Reader ε → α × Reader ε) : Prop :=
  ∀ bs, (f (ofBytes bs)).2.err = none →
    ∃ taken a rest, bs = taken ++ rest ∧ Takes f taken a

/-- An error stays. -/
def Sticky (f : Reader ε → α × Reader ε) : Prop :=
  ∀ r, r.err ≠ none → (f r).2.err ≠ none

section Rules

variable {f : Reader ε → α × Reader ε} {g : α → Reader ε → β × Reader ε}

theorem Takes.pure (a : α) : Takes (fun r : Reader ε => (a, r)) [] a := fun _ => rfl

/-- What reads some bytes takes them. -/
theorem Takes.read {p : Read α} {taken : List UInt8} {a : α} (h : p.Reads taken a) (e : ε) :
    Takes (fun r => r.read p e) taken a :=
  fun rest => read_ofBytes h e rest

/-- What takes some bytes reads them. -/
theorem Takes.reads {p : Read α} {taken : List UInt8} {a : α} {e : ε}
    (h : Takes (fun r => r.read p e) taken a) : p.Reads taken a := by
  intro rest
  have hread := h rest
  have hvalue : (p.run (taken ++ rest)).value = a := congrArg Prod.fst hread
  have hrest : (p.run (taken ++ rest)).rest = rest := congrArg (fun x => x.2.unread) hread
  have hfailed : (p.run (taken ++ rest)).failed = false := by
    by_contra hfailed
    rw [Bool.not_eq_false] at hfailed
    have herr := congrArg (fun x => x.2.err) hread
    simp [Reader.read, ofBytes, hfailed] at herr
  rcases hrun : p.run (taken ++ rest) with ⟨value, rest', failed⟩
  simp only [hrun] at hvalue hrest hfailed
  rw [hvalue, hrest, hfailed]

/-- One reader behind another takes what both take. -/
theorem Takes.bind {taken taken' : List UInt8} {a : α} {b : β} (hf : Takes f taken a)
    (hg : Takes (g a) taken' b) :
    Takes (fun r => g (f r).1 (f r).2) (taken ++ taken') b := by
  intro rest
  simp only [List.append_assoc, hf (taken' ++ rest), hg rest]

/-- A reader takes one thing only off a stream. -/
theorem Takes.unique {taken taken' rest rest' : List UInt8} {a a' : α} (h : Takes f taken a)
    (h' : Takes f taken' a') (hbs : taken ++ rest = taken' ++ rest') :
    taken = taken' ∧ a = a' := by
  have heq := h rest
  rw [hbs, h' rest'] at heq
  have hrest : rest' = rest := congrArg (fun x => x.2.unread) heq
  subst hrest
  exact ⟨List.append_cancel_right hbs, (congrArg Prod.fst heq).symm⟩

/-- The second one may look at the error first. -/
theorem Takes.checked {taken : List UInt8} {a : α} (c : α) (h : Takes f taken a) :
    Takes (fun r => if r.err.isSome then (c, r) else f r) taken a := by
  intro rest
  simp only [err_ofBytes, Option.isSome_none, Bool.false_eq_true, if_false, h rest]

/-- A round of a loop that goes on if there has been no error. -/
theorem Takes.goOn {taken : List UInt8} {a : α} (h : Takes f taken a) :
    Takes (fun r => (((f r).2.err.isNone, (f r).1), (f r).2)) taken (true, a) := by
  intro rest
  simp only [h rest, err_ofBytes, Option.isNone_none]

/-- A local reader that reads all there is takes it, whatever follows. -/
theorem Local.takes_all (hf : Local f) {bs : List UInt8} {a : α}
    (h : f (ofBytes bs) = (a, ofBytes [])) : Takes f bs a := by
  have herr : (f (ofBytes bs)).2.err = none := by rw [h, err_ofBytes]
  obtain ⟨taken, a', rest, rfl, htakes⟩ := hf bs herr
  rw [htakes rest] at h
  have hrest : rest = [] := congrArg (fun x => x.2.unread) h
  have ha : a' = a := congrArg Prod.fst h
  rw [hrest, List.append_nil, ← ha]
  exact htakes

theorem Local.pure (a : α) : Local (fun r : Reader ε => (a, r)) :=
  fun bs _ => ⟨[], a, bs, rfl, .pure a⟩

/-- Reporting an error is local, as nothing is read. -/
theorem Local.report (a : α) (e : ε) : Local (fun r : Reader ε => (a, r.report e)) :=
  fun _ h => absurd h (report_err_ne_none e _)

/-- Reading is local if what is read depends on its own bytes alone. -/
theorem Local.read {p : Read α} (hp : p.Local) (e : ε) :
    Local (fun r : Reader ε => r.read p e) := by
  intro bs h
  have hfailed : (p.run bs).failed = false := by
    by_contra hfailed
    rw [Bool.not_eq_false] at hfailed
    simp [Reader.read, ofBytes, hfailed] at h
  obtain ⟨taken, hbs, hreads⟩ := hp bs hfailed
  exact ⟨taken, _, _, hbs, .read hreads e⟩

/-- One local reader behind another is local, if the second keeps errors. -/
theorem Local.bind (hf : Local f) (hg : ∀ a, Local (g a)) (hsticky : ∀ a, Sticky (g a)) :
    Local (fun r => g (f r).1 (f r).2) := by
  intro bs h
  have herr : (f (ofBytes bs)).2.err = none := by
    by_contra herr
    exact hsticky _ _ herr h
  obtain ⟨taken, a, rest, rfl, htakes⟩ := hf bs herr
  simp only [htakes rest] at h
  obtain ⟨taken', b, rest', rfl, htakes'⟩ := hg a rest h
  exact ⟨taken ++ taken', b, rest', (List.append_assoc ..).symm, htakes.bind htakes'⟩

/-- The value can be put in another form. -/
theorem Local.map (hf : Local f) (m : α → β) : Local (fun r => (m (f r).1, (f r).2)) :=
  hf.bind (g := fun a r => (m a, r)) (fun a => .pure (m a)) (fun _ _ h => h)

/-- A round of a loop that goes on if there has been no error. -/
theorem Local.goOn (hf : Local f) : Local (fun r => (((f r).2.err.isNone, (f r).1), (f r).2)) :=
  hf.bind (g := fun a r => ((r.err.isNone, a), r))
    (fun a bs _ => ⟨[], (true, a), bs, rfl, fun _ => rfl⟩) (fun _ _ h => h)

theorem Local.checked (c : α) (hf : Local f) :
    Local (fun r => if r.err.isSome then (c, r) else f r) := by
  intro bs h
  simp only [err_ofBytes, Option.isSome_none, Bool.false_eq_true, if_false] at h
  obtain ⟨taken, a, rest, hbs, htakes⟩ := hf bs h
  exact ⟨taken, a, rest, hbs, htakes.checked c⟩

theorem Sticky.read (p : Read α) (e : ε) : Sticky (fun r : Reader ε => r.read p e) := by
  intro r h
  rw [read_err_of_err p e h]
  exact h

/-- An error stays through two readers. -/
theorem Sticky.bind (hf : Sticky f) (hg : ∀ a, Sticky (g a)) :
    Sticky (fun r => g (f r).1 (f r).2) :=
  fun r h => hg _ _ (hf r h)

theorem Sticky.checked (c : α) (f : Reader ε → α × Reader ε) :
    Sticky (fun r => if r.err.isSome then (c, r) else f r) := by
  intro r h
  simp only [Option.isSome_iff_ne_none.mpr h, if_true]
  exact h

end Rules

/-! ## Loops -/

section Loops

variable {σ : Type u} {body : Body σ ε}

/-- A round, as a reader: what it says, and the loop's variables. -/
def round (body : Body σ ε) (s : σ) (r : Reader ε) : (Bool × σ) × Reader ε :=
  (((body s r).again, (body s r).state), (body s r).reader)

theorem loop_sticky (h : ∀ s, Sticky (round body s)) (s : σ) : Sticky (loop body s) :=
  fun r hr => loop_induct (motive := fun _ r => r.err ≠ none) (fun s r => h s r) s r hr

/-- A loop goes on behind a round that goes on. -/
theorem Takes.step (hproductive : Productive body) {s s' : σ} {taken : List UInt8}
    (hround : Takes (round body s) taken (true, s')) (rest : List UInt8) :
    loop body s (ofBytes (taken ++ rest)) = loop body s' (ofBytes rest) := by
  have hbody := hround rest
  simp only [round, Prod.mk.injEq] at hbody
  obtain ⟨⟨hagain, hstate⟩, hreader⟩ := hbody
  rw [loop_eq hproductive]
  simp only [hagain, hstate, hreader, if_true]

/-- A round that goes on, and the loop behind it. -/
theorem Takes.again (hproductive : Productive body) {s s' s'' : σ} {taken taken' : List UInt8}
    (hround : Takes (round body s) taken (true, s')) (hloop : Takes (loop body s') taken' s'') :
    Takes (loop body s) (taken ++ taken') s'' := by
  intro rest
  rw [List.append_assoc, hround.step hproductive]
  exact hloop rest

/-- The round that ends the loop. -/
theorem Takes.last (hproductive : Productive body) {s s' : σ} {taken : List UInt8}
    (hround : Takes (round body s) taken (false, s')) : Takes (loop body s) taken s' := by
  intro rest
  have hbody := hround rest
  simp only [round, Prod.mk.injEq] at hbody
  obtain ⟨⟨hagain, hstate⟩, hreader⟩ := hbody
  rw [loop_eq hproductive]
  simp only [hagain, hstate, hreader, Bool.false_eq_true, if_false]

/-- A successful round of a loop that succeeds, and the loop behind it. -/
theorem loop_split (hproductive : Productive body) (hsticky : ∀ s, Sticky (round body s))
    {s : σ} {bs : List UInt8} (h : (loop body s (ofBytes bs)).2.err = none) :
    (round body s (ofBytes bs)).2.err = none ∧
    ((round body s (ofBytes bs)).1.1 = true →
      (loop body (round body s (ofBytes bs)).1.2 (round body s (ofBytes bs)).2).2.err = none ∧
      (round body s (ofBytes bs)).2.unread.length < bs.length) := by
  rw [loop_eq hproductive] at h
  simp only [round]
  cases hagain : (body s (ofBytes bs)).again with
  | false =>
    simp only [hagain, Bool.false_eq_true, if_false] at h
    exact ⟨h, nofun⟩
  | true =>
    simp only [hagain, if_true] at h
    refine ⟨?_, fun _ => ⟨h, hproductive s _ hagain⟩⟩
    by_contra herr
    exact loop_sticky hsticky _ _ herr h

/-- A loop of local rounds is local. -/
theorem Local.loop (hproductive : Productive body) (hsticky : ∀ s, Sticky (round body s))
    (hlocal : ∀ s, Local (round body s)) (s : σ) : Local (loop body s) := by
  intro bs
  induction hlen : bs.length using Nat.strongRecOn generalizing s bs with
  | ind len ih =>
    subst hlen
    intro h
    obtain ⟨herr, hagain⟩ := loop_split hproductive hsticky h
    obtain ⟨taken, ⟨again, s'⟩, rest, rfl, htakes⟩ := hlocal s bs herr
    rw [htakes rest] at hagain
    cases again with
    | false => exact ⟨taken, s', rest, rfl, htakes.last hproductive⟩
    | true =>
      obtain ⟨hloop, hlt⟩ := hagain rfl
      obtain ⟨taken', s'', rest', rfl, htakes'⟩ := ih _ hlt s' rest rfl hloop
      exact ⟨taken ++ taken', s'', rest', (List.append_assoc ..).symm,
        htakes.again hproductive htakes'⟩

end Loops

/-! ## Noise -/

section Noise

variable {σ : Type u} {message : σ → List UInt8 → σ → Prop} {noise : List UInt8 → Prop}

/-- A stream of messages, each of which may depend on the state and changes it, and the same
stream with noise before, between and behind the messages. -/
inductive Noisy (message : σ → List UInt8 → σ → Prop) (noise : List UInt8 → Prop) :
    σ → List UInt8 → List UInt8 → σ → Prop
  | done (s : σ) : Noisy message noise s [] [] s
  | noise {s s' : σ} {line bs bs' : List UInt8} (hline : noise line)
      (hrest : Noisy message noise s bs bs' s') : Noisy message noise s bs (line ++ bs') s'
  | message {s s' s'' : σ} {msg bs bs' : List UInt8} (hmessage : message s msg s')
      (hrest : Noisy message noise s' bs bs' s'') :
      Noisy message noise s (msg ++ bs) (msg ++ bs') s''

/-- With the noise or without, a loop is behind the messages in the state that they lead to,
where a round takes each message and passes over the noise. -/
theorem Noisy.loop {body : Body σ ε} (hproductive : Productive body)
    (hmessage : ∀ s msg s', message s msg s' → Takes (round body s) msg (true, s'))
    (hnoise : ∀ line, noise line → ∀ s, Takes (round body s) line (true, s))
    {s s' : σ} {bs bs' : List UInt8} (h : Noisy message noise s bs bs' s')
    (rest : List UInt8) :
    Reader.loop body s (ofBytes (bs ++ rest)) = Reader.loop body s' (ofBytes rest) ∧
      Reader.loop body s (ofBytes (bs' ++ rest)) = Reader.loop body s' (ofBytes rest) := by
  induction h with
  | done s => exact ⟨rfl, rfl⟩
  | noise hline _ ih =>
    refine ⟨ih.1, ?_⟩
    rw [List.append_assoc, (hnoise _ hline _).step hproductive]
    exact ih.2
  | message hmsg _ ih =>
    have htakes := hmessage _ _ _ hmsg
    rw [List.append_assoc, List.append_assoc, htakes.step hproductive, htakes.step hproductive]
    exact ih

end Noise

end Reader

end ByteStream
