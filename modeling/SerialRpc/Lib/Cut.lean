import SerialRpc.Lib.Local

/-!
# Streams that are cut

A connection can be lost at any byte, and then a stream of items ends in the middle of one.
A local reader does not take what is left of an item for an item: it fails.

- `Cut`: a stream of items that ends somewhere. Every prefix is cut (`Cut.exists_of_prefix`).
- `Reader.Local.fails`: what a local reader takes, it does not find in a proper prefix.
- `Reader.Takes.items`: a loop whose rounds take items is behind the items that are whole.
-/

namespace ByteStream

universe u v

/-- A stream of items that ends somewhere: the items that are there, those that are not, and
what is there of the first of these. -/
structure Cut {α : Type u} (bytes : α → List UInt8) (whole missing : List α)
    (part stream : List UInt8) : Prop where
  stream_eq : stream = whole.flatMap bytes ++ part
  part_eq : missing = [] ∧ part = [] ∨
    ∃ item rest lost, missing = item :: rest ∧ bytes item = part ++ lost ∧ lost ≠ []

/-- Of two things behind one another the second is cut, or the first. -/
theorem cut_append {first second part lost : List UInt8} (h : first ++ second = part ++ lost) :
    (∃ part', part = first ++ part' ∧ second = part' ++ lost) ∨
      ∃ lost', first = part ++ lost' ∧ lost' ≠ [] := by
  rcases List.append_eq_append_iff.mp h with hsecond | ⟨lost', hfirst, hlost'⟩
  · exact .inl hsecond
  · by_cases hnil : lost' = []
    · subst hnil
      exact .inl ⟨[], by simpa using hfirst.symm, hlost'.symm⟩
    · exact .inr ⟨lost', hfirst, hnil⟩

theorem Cut.exists_of_prefix {α : Type u} {bytes : α → List UInt8} {items : List α}
    {stream : List UInt8} (h : stream <+: items.flatMap bytes) :
    ∃ whole missing part, items = whole ++ missing ∧ Cut bytes whole missing part stream := by
  induction items generalizing stream with
  | nil => exact ⟨[], [], [], rfl, List.prefix_nil.mp h, .inl ⟨rfl, rfl⟩⟩
  | cons item items ih =>
    obtain ⟨lost, hlost⟩ := h
    rw [List.flatMap_cons, List.append_eq_append_iff] at hlost
    rcases hlost with ⟨lost', hitem, -⟩ | ⟨stream', rfl, hrest⟩
    · -- The stream ends in the item, or right behind it.
      by_cases hnil : lost' = []
      · rw [hnil, List.append_nil] at hitem
        obtain ⟨whole, missing, part, rfl, hcut⟩ := ih List.nil_prefix
        refine ⟨item :: whole, missing, part, rfl, ?_, hcut.part_eq⟩
        rw [List.flatMap_cons, List.append_assoc, ← hcut.stream_eq, List.append_nil, hitem]
      · exact ⟨[], item :: items, stream, rfl, rfl, .inr ⟨item, items, lost', rfl, hitem, hnil⟩⟩
    · obtain ⟨whole, missing, part, rfl, hcut⟩ := ih ⟨lost, hrest.symm⟩
      refine ⟨item :: whole, missing, part, rfl, ?_, hcut.part_eq⟩
      rw [List.flatMap_cons, List.append_assoc, ← hcut.stream_eq]

/-- What is there of the next item is less than the item. -/
theorem Cut.not_prefix {α : Type u} {bytes : α → List UInt8} {whole missing : List α}
    {part stream : List UInt8} (h : Cut bytes whole missing part stream) :
    ∀ item ∈ missing.head?, ¬ (whole ++ [item]).flatMap bytes <+: stream := by
  rintro item hitem hprefix
  rcases h.part_eq with ⟨rfl, -⟩ | ⟨item', rest, lost, rfl, hbytes, hlost⟩
  · cases hitem
  · cases hitem
    rw [h.stream_eq, List.flatMap_append, List.flatMap_singleton,
      List.prefix_append_right_inj] at hprefix
    have hlength := hprefix.length_le
    rw [hbytes, List.length_append] at hlength
    exact hlost (List.length_eq_zero_iff.mp (by omega))

/-- Of a stream that is all there nothing is missing. -/
theorem Cut.missing_eq_nil {α : Type u} {bytes : α → List UInt8} {whole missing : List α}
    {part stream : List UInt8} (h : Cut bytes whole missing part stream)
    (hall : stream = (whole ++ missing).flatMap bytes) : missing = [] := by
  rcases h.part_eq with ⟨hnil, -⟩ | ⟨item, rest, lost, rfl, hbytes, hlost⟩
  · exact hnil
  · rw [h.stream_eq, List.flatMap_append, List.append_cancel_left_eq, List.flatMap_cons, hbytes,
      List.append_assoc, eq_comm, List.append_right_eq_self, List.append_eq_nil_iff] at hall
    exact absurd hall.1 hlost

namespace Reader

variable {α σ : Type u} {ε : Type v}

/-- Less than what a local reader takes is refused. -/
theorem Local.fails {f : Reader ε → α × Reader ε} (hf : Local f) {part lost : List UInt8} {a : α}
    (h : Takes f (part ++ lost) a) (hlost : lost ≠ []) : (f (ofBytes part)).2.err ≠ none := by
  intro herr
  obtain ⟨taken, a', rest, rfl, htakes⟩ := hf part herr
  -- The reader would take less, and it takes one thing only.
  have hbytes : taken ++ rest ++ lost ++ [] = taken ++ (rest ++ lost) := by simp
  obtain ⟨htaken, -⟩ := h.unique htakes hbytes
  rw [List.append_assoc, List.append_right_eq_self, List.append_eq_nil_iff] at htaken
  exact hlost htaken.2

/-- A loop whose rounds take items is behind them, and has logged them, where an invariant of
the items to come says so. -/
theorem Takes.items {body : Body σ ε} (hproductive : Productive body) {γ : Type u}
    (bytes : α → List UInt8) (log : σ → Reader ε → List γ) (entries : α → List γ)
    (Inv : List α → σ → Prop)
    (hround : ∀ item items s, Inv (item :: items) s →
      ∃ s', Takes (round body s) (bytes item) (true, s') ∧
        (∀ rest, log s (ofBytes (bytes item ++ rest)) = entries item) ∧ Inv items s')
    (items : List α) {s : σ} (h : Inv items s) :
    ∃ s', Inv [] s' ∧ ∀ rest,
      loop body s (ofBytes (items.flatMap bytes ++ rest)) = loop body s' (ofBytes rest) ∧
      loopLog body log s (ofBytes (items.flatMap bytes ++ rest)) =
        items.flatMap entries ++ loopLog body log s' (ofBytes rest) := by
  induction items generalizing s with
  | nil => exact ⟨s, h, fun _ => ⟨rfl, rfl⟩⟩
  | cons item items ih =>
    obtain ⟨s', htakes, hlog, hinv⟩ := hround item items s h
    obtain ⟨s'', hdone, hloop⟩ := ih hinv
    refine ⟨s'', hdone, fun rest => ?_⟩
    obtain ⟨hbehind, hlogged⟩ := hloop rest
    rw [List.flatMap_cons, List.append_assoc]
    constructor
    · rw [htakes.step hproductive, hbehind]
    · have hbody := htakes (items.flatMap bytes ++ rest)
      simp only [round, Prod.mk.injEq] at hbody
      obtain ⟨⟨hagain, hstate⟩, hreader⟩ := hbody
      rw [loopLog_eq hproductive, hlog, hagain, hstate, hreader, if_pos rfl, hlogged,
        List.flatMap_cons, List.append_assoc]

/-- A round that stops where the stream has failed. -/
theorem loop_stops {body : Body σ ε} (hproductive : Productive body) {s : σ} {r : Reader ε}
    (h : (body s r).again = false) : loop body s r = ((body s r).state, (body s r).reader) := by
  rw [loop_eq hproductive]
  simp only [h, Bool.false_eq_true, if_false]

end Reader

end ByteStream
