import SerialRpc.Encoding.UnknownFields

/-!
# What `skip` accepts (encoding_impl.cc:15-93)

The payloads of the wire types are a grammar: a varint, 8 or 4 bytes, a length and as many
bytes, a group of fields up to an `End` tag with any number, and nothing for `End` itself.
`skip` is its recursive-descent parser, with a budget for how deep groups may nest.

- `Varint.Skips`: what `skip` relies on of `lib.varint`.
- `Grammar.Payload`, `Grammar.Fields`: the grammar, with how deep groups nest.
- `Payload.skip`, `Payload.too_deep`, `Payload.of_skip`: `skip` takes a payload within its
  budget, reports one that nests deeper, and accepts nothing else.
- `skip_grammar`: all of it, for any budget.
-/

namespace SerialRpc

open ByteStream

/-- `varint::skip` passes over one varint, or fails. -/
structure Varint.Skips (V : Varint) (IsVarint : List UInt8 → Prop) : Prop where
  reads : ∀ bytes, IsVarint bytes → V.skip.Reads bytes ()
  isVarint : ∀ bs, (V.skip.run bs).failed = false →
    ∃ taken, IsVarint taken ∧ bs = taken ++ (V.skip.run bs).rest

theorem Varint.leb128_skips : leb128.Skips Leb128.Terminated where
  reads bytes h rest := by
    obtain ⟨n, hn⟩ := h.decodeRun rest
    show ReadResult.mk () _ _ = _
    rw [hn]
  isVarint bs h := Leb128.Terminated.of_decodeRun bs h

namespace Grammar

/-! ## The grammar -/

section Definitions

variable (V : Varint) (IsVarint : List UInt8 → Prop)

mutual

/-- A payload of a wire type, in which groups nest so deep. -/
inductive Payload : WireType → Nat → List UInt8 → Prop where
  | varInt {bytes : List UInt8} (h : IsVarint bytes) : Payload .varInt 0 bytes
  | i64 {bytes : List UInt8} (h : bytes.length = 8) : Payload .i64 0 bytes
  | len {length bytes : List UInt8} {n : UInt32} (h : V.readUint32.Reads length n)
      (hbytes : bytes.length = n.toNat) : Payload .len 0 (length ++ bytes)
  | i32 {bytes : List UInt8} (h : bytes.length = 4) : Payload .i32 0 bytes
  | endTag : Payload .endTag 0 []
  | start {depth : Nat} {bytes : List UInt8} (h : Fields depth bytes) :
      Payload .start (depth + 1) bytes

/-- Fields up to an `End` tag. -/
inductive Fields : Nat → List UInt8 → Prop where
  | stop {tag : Tag} {bytes : List UInt8} (htag : Tagged V tag bytes)
      (htype : tag.type = .endTag) : Fields 0 bytes
  | field {tag : Tag} {depth depth' : Nat} {bytes payload rest : List UInt8}
      (htag : Tagged V tag bytes) (htype : tag.type ≠ .endTag)
      (hpayload : Payload tag.type depth payload) (h : Fields depth' rest) :
      Fields (max depth depth') (bytes ++ payload ++ rest)

end

end Definitions

variable {V : Varint} {IsVarint : List UInt8 → Prop}

mutual

/-- `skip` takes a payload that nests within its budget. -/
theorem Payload.skip (hskip : V.Skips IsVarint) :
    ∀ {type : WireType} {depth : Nat} {bytes : List UInt8}, Payload V IsVarint type depth bytes →
      ∀ {level : Nat}, depth ≤ level →
        Reader.Takes (skipping (skipPayload V (skipGroup V level) type)) bytes ()
  | _, _, bytes, .varInt h, _, _ => .read (hskip.reads bytes h) Err.baselib
  | _, _, bytes, .i64 h, _, _ => .read (h ▸ Read.discard_reads bytes) Err.baselib
  | _, _, bytes, .i32 h, _, _ => .read (h ▸ Read.discard_reads bytes) Err.baselib
  | _, _, _, .endTag, _, _ => .pure ()
  | _, _, _, .len h hbytes, _, _ => skipPayload_len h hbytes
  | _, _, _, .start h, _, hlevel => h.skip hskip hlevel

theorem Fields.skip (hskip : V.Skips IsVarint) :
    ∀ {depth : Nat} {bytes : List UInt8}, Fields V IsVarint depth bytes →
      ∀ {level : Nat}, depth < level → Reader.Takes (skipping (skipGroup V level)) bytes ()
  | _, _, _, 0, hlevel => absurd hlevel (Nat.not_lt_zero _)
  | _, _, .stop htag htype, level + 1, _ =>
    Reader.Takes.last (skipRound_productive level) (htag.endTag htype ())
  | _, _, .field htag htype hpayload h, level + 1, hlevel =>
    have hdepth := Nat.max_lt.mp hlevel
    .again (skipRound_productive level)
      (skipRound_takes htag htype (hpayload.skip hskip (Nat.le_of_lt_succ hdepth.1)))
      (h.skip hskip hdepth.2)

end

/-! ## Deeper payloads -/

/-- The error of a group without a budget. -/
def tooDeep : Err := .text "excessive nesting"

/-- A loop ends with the error of its first payload. -/
theorem skipRound_fails {level : Nat} {tag : Tag} {bytes bs : List UInt8} {e : Err}
    (htag : Tagged V tag bytes) (htype : tag.type ≠ .endTag)
    (herr : (skipPayload V (skipGroup V level) tag.type (.ofBytes bs)).err = some e) :
    (skipGroup V (level + 1) (.ofBytes (bytes ++ bs))).err = some e := by
  rw [skipGroup, Reader.loop_eq (skipRound_productive level)]
  simp [skipRound, tagRound, htag bs, htype, herr]

mutual

/-- `skip` reports a payload that nests deeper than its budget. -/
theorem Payload.too_deep (hskip : V.Skips IsVarint) :
    ∀ {type : WireType} {depth : Nat} {bytes : List UInt8}, Payload V IsVarint type depth bytes →
      ∀ {level : Nat}, level < depth → ∀ rest,
        (skipPayload V (skipGroup V level) type (.ofBytes (bytes ++ rest))).err = some tooDeep
  | _, _, _, .start h, _, hlevel, rest => h.too_deep hskip (Nat.le_of_lt_succ hlevel) rest

theorem Fields.too_deep (hskip : V.Skips IsVarint) :
    ∀ {depth : Nat} {bytes : List UInt8}, Fields V IsVarint depth bytes →
      ∀ {level : Nat}, level ≤ depth → ∀ rest,
        (skipGroup V level (.ofBytes (bytes ++ rest))).err = some tooDeep
  | _, _, _, 0, _, _ => rfl
  | _, _, @Fields.field _ _ tag depth depth' bytes payload after htag htype hpayload h,
      level + 1, hlevel, rest => by
    rw [List.append_assoc, List.append_assoc]
    by_cases hdepth : level < depth
    · exact skipRound_fails htag htype (hpayload.too_deep hskip hdepth (after ++ rest))
    · have hround := skipRound_takes htag htype (hpayload.skip hskip (Nat.le_of_not_lt hdepth))
      have hafter : level + 1 ≤ depth' := by omega
      have hrest := h.too_deep hskip hafter rest
      rw [skipGroup] at hrest ⊢
      rw [← List.append_assoc, hround.step (skipRound_productive level)]
      exact hrest

end

/-! ## All that is accepted -/

/-- The payloads that are no groups. -/
theorem Payload.of_skip_flat (hV : V.Local) (hskip : V.Skips IsVarint) {group : In → In}
    {type : WireType} (htype : type ≠ .start) {bs : List UInt8}
    (h : (skipPayload V group type (.ofBytes bs)).err = none) :
    ∃ taken rest, bs = taken ++ rest ∧ Payload V IsVarint type 0 taken := by
  -- What is discarded is there, as long as was asked for.
  have hdiscard : ∀ n bs, ((Reader.ofBytes bs).read (Read.discard n) Err.baselib).2.err = none →
      ∃ taken rest, bs = taken ++ rest ∧ taken.length = n := by
    intro n bs h
    by_cases hle : n ≤ bs.length
    · exact ⟨bs.take n, bs.drop n, (List.take_append_drop n bs).symm,
        List.length_take_of_le hle⟩
    · simp [Reader.read, Reader.ofBytes, Read.discard, Read.full, hle] at h
  cases type with
  | varInt =>
    have hfailed : (V.skip.run bs).failed = false := by
      by_contra hfailed
      simp [skipPayload, Reader.read, Reader.ofBytes, hfailed] at h
    obtain ⟨taken, hvarint, hbs⟩ := hskip.isVarint bs hfailed
    exact ⟨taken, _, hbs, .varInt hvarint⟩
  | i64 =>
    obtain ⟨taken, rest, hbs, hlen⟩ := hdiscard 8 bs h
    exact ⟨taken, rest, hbs, .i64 hlen⟩
  | i32 =>
    obtain ⟨taken, rest, hbs, hlen⟩ := hdiscard 4 bs h
    exact ⟨taken, rest, hbs, .i32 hlen⟩
  | len =>
    -- The length is read as it stands, and as many bytes are discarded.
    have hfailed : (V.readUint32.run bs).failed = false := by
      by_contra hfailed
      rw [Bool.not_eq_false] at hfailed
      simp [skipPayload, Reader.read, Reader.ofBytes, hfailed] at h
    obtain ⟨length, hbs, hreads⟩ := hV.uint32 bs hfailed
    rw [hbs] at h ⊢
    have hlength : (Reader.ofBytes (length ++ (V.readUint32.run bs).rest)).read V.readUint32
        Err.baselib = ((V.readUint32.run bs).value, .ofBytes (V.readUint32.run bs).rest) :=
      Reader.read_ofBytes hreads Err.baselib _
    simp only [skipPayload, hlength, Reader.err_ofBytes, Option.isSome_none,
      Bool.false_eq_true, if_false] at h
    obtain ⟨data, rest, hdata, hlen⟩ := hdiscard _ _ h
    exact ⟨length ++ data, rest, by rw [hdata, List.append_assoc], .len hreads hlen⟩
  | start => exact absurd rfl htype
  | endTag => exact ⟨[], bs, rfl, .endTag⟩
  | unnamed6 => exact absurd h (Reader.report_err_ne_none _ _)
  | unnamed7 => exact absurd h (Reader.report_err_ne_none _ _)

/-- What a group takes, given what its payloads take. -/
theorem Fields.of_skip {level : Nat} (hV : V.Local) (hskip : V.Skips IsVarint)
    (hpayload : ∀ type bs, (skipPayload V (skipGroup V level) type (.ofBytes bs)).err = none →
      ∃ depth taken rest, bs = taken ++ rest ∧ Payload V IsVarint type depth taken ∧
        depth ≤ level) :
    ∀ bs, (skipGroup V (level + 1) (.ofBytes bs)).err = none →
      ∃ depth taken rest, bs = taken ++ rest ∧ Fields V IsVarint depth taken ∧ depth ≤ level := by
  intro bs
  -- On the length of the stream: every round reads a tag.
  induction hlen : bs.length using Nat.strongRecOn generalizing bs with
  | ind len ih =>
    subst hlen
    intro h
    obtain ⟨herr, hagain⟩ :=
      Reader.loop_split (skipRound_productive level) tagRound_sticky (s := ()) h
    obtain ⟨tag, bytes, rest, rfl, htag, hround⟩ := tagRound_split hV herr
    by_cases htype : tag.type = .endTag
    · exact ⟨0, bytes, rest, rfl, .stop htag htype, Nat.zero_le level⟩
    · have hfield : Reader.round (skipRound V (skipPayload V (skipGroup V level))) ()
          (.ofBytes (bytes ++ rest)) =
          (((skipPayload V (skipGroup V level) tag.type (.ofBytes rest)).err.isNone, ()),
            skipPayload V (skipGroup V level) tag.type (.ofBytes rest)) := hround htype
      rw [hfield] at herr hagain
      obtain ⟨depth, payload, rest', rfl, htakes, hdepth⟩ := hpayload tag.type rest herr
      have hafter := congrArg Prod.snd (htakes.skip hskip hdepth rest')
      simp only [skipping] at hafter
      rw [hafter] at hagain
      obtain ⟨hloop, hlt⟩ := hagain rfl
      obtain ⟨depth', after, rest'', rfl, hfields, hdepth'⟩ := ih _ hlt rest' rfl hloop
      exact ⟨max depth depth', bytes ++ payload ++ after, rest'', by simp [List.append_assoc],
        .field htag htype htakes hfields, Nat.max_le.mpr ⟨hdepth, hdepth'⟩⟩

/-- All that `skip` accepts begins with a payload that nests within its budget. -/
theorem Payload.of_skip (hV : V.Local) (hskip : V.Skips IsVarint) :
    ∀ (level : Nat) (type : WireType) (bs : List UInt8),
      (skipPayload V (skipGroup V level) type (.ofBytes bs)).err = none →
      ∃ depth taken rest, bs = taken ++ rest ∧ Payload V IsVarint type depth taken ∧
        depth ≤ level := by
  intro level
  induction level with
  | zero =>
    intro type bs h
    by_cases htype : type = .start
    · subst htype
      -- Without a budget there is no group.
      exact absurd h (Reader.report_err_ne_none _ _)
    · obtain ⟨taken, rest, hbs, hflat⟩ := Payload.of_skip_flat hV hskip htype h
      exact ⟨0, taken, rest, hbs, hflat, Nat.zero_le 0⟩
  | succ level ih =>
    intro type bs h
    by_cases htype : type = .start
    · subst htype
      obtain ⟨depth, taken, rest, hbs, hfields, hdepth⟩ := Fields.of_skip hV hskip ih bs h
      exact ⟨depth + 1, taken, rest, hbs, .start hfields, Nat.succ_le_succ hdepth⟩
    · obtain ⟨taken, rest, hbs, hflat⟩ := Payload.of_skip_flat hV hskip htype h
      exact ⟨0, taken, rest, hbs, hflat, Nat.zero_le _⟩

/-- All that `skip` takes is a payload that nests within its budget. -/
theorem Payload.of_takes (hV : V.Local) (hskip : V.Skips IsVarint) {level : Nat} {type : WireType}
    {payload : List UInt8}
    (h : Reader.Takes (skipping (skipPayload V (skipGroup V level) type)) payload ()) :
    ∃ depth, Payload V IsVarint type depth payload ∧ depth ≤ level := by
  have hafter := congrArg Prod.snd (h [])
  simp only [skipping, List.append_nil] at hafter
  obtain ⟨depth, taken, rest, hbs, htaken, hdepth⟩ :=
    Payload.of_skip hV hskip level type payload (by rw [hafter, Reader.err_ofBytes])
  have hsame : payload ++ [] = taken ++ rest := by rw [List.append_nil, hbs]
  obtain ⟨rfl, -⟩ := h.unique (htaken.skip hskip hdepth) hsame
  exact ⟨depth, htaken, hdepth⟩

/-! ## One payload -/

/-- No other payload of the type stands in front of a stream, and none that is cut short. -/
theorem Payload.unique (hskip : V.Skips IsVarint) {type : WireType} {depth depth' : Nat}
    {taken taken' rest rest' : List UInt8} (h : Payload V IsVarint type depth taken)
    (h' : Payload V IsVarint type depth' taken') (hbs : taken ++ rest = taken' ++ rest') :
    depth = depth' ∧ taken = taken' := by
  have htakes := h.skip hskip (Nat.le_max_left depth depth')
  have htakes' := h'.skip hskip (Nat.le_max_right depth depth')
  obtain ⟨htaken, -⟩ := htakes.unique htakes' hbs
  subst htaken
  -- With the smaller budget, the deeper one would be an error.
  have hle : ∀ {depth depth' : Nat}, Payload V IsVarint type depth taken →
      Payload V IsVarint type depth' taken → depth' ≤ depth := by
    intro depth depth' h h'
    by_contra hlt
    have herr := h'.too_deep hskip (Nat.lt_of_not_le hlt) []
    have hafter := congrArg (fun x => x.2.err) (h.skip hskip (Nat.le_refl depth) [])
    cases herr.symm.trans hafter
  exact ⟨Nat.le_antisymm (hle h' h) (hle h h'), rfl⟩

end Grammar

open Grammar

/-- `skip` accepts exactly the streams that begin with a payload of the type whose groups
nest at most one deeper than its budget, counting the outer one, and takes just that. -/
structure SkipsGrammar (V : Varint) (IsVarint : List UInt8 → Prop) (type : WireType)
    (nesting : Int) (bs : List UInt8) : Prop where
  accepts_iff : (skip V type nesting (.ofBytes bs)).err = none ↔
    ∃ depth taken rest, bs = taken ++ rest ∧ Payload V IsVarint type depth taken ∧
      (depth : Int) ≤ nesting + 1
  takes : ∀ depth taken rest, bs = taken ++ rest → Payload V IsVarint type depth taken →
    (depth : Int) ≤ nesting + 1 → skip V type nesting (.ofBytes bs) = .ofBytes rest
  unique : ∀ depth depth' taken taken' rest rest', bs = taken ++ rest → bs = taken' ++ rest' →
    Payload V IsVarint type depth taken → Payload V IsVarint type depth' taken' →
    depth = depth' ∧ taken = taken'
  too_deep : ∀ depth taken rest, bs = taken ++ rest → Payload V IsVarint type depth taken →
    nesting + 1 < (depth : Int) →
    (skip V type nesting (.ofBytes bs)).err = some (.text "excessive nesting")
  truncated : ∀ depth missing, missing ≠ [] → Payload V IsVarint type depth (bs ++ missing) →
    (skip V type nesting (.ofBytes bs)).err ≠ none
  invalid : type = .unnamed6 ∨ type = .unnamed7 →
    (skip V type nesting (.ofBytes bs)).err = some (.text "serialrpc: invalid tag")

/-- `skip` accepts exactly its grammar. -/
theorem skip_grammar {V : Varint} {IsVarint : List UInt8 → Prop} (hV : V.Local)
    (hskip : V.Skips IsVarint) (type : WireType) {nesting : Int} (hnesting : -1 ≤ nesting)
    (bs : List UInt8) : SkipsGrammar V IsVarint type nesting bs := by
  have hlevel : ((nesting + 1).toNat : Int) = nesting + 1 := by omega
  have haccepts : (skip V type nesting (.ofBytes bs)).err = none →
      ∃ depth taken rest, bs = taken ++ rest ∧ Payload V IsVarint type depth taken ∧
        (depth : Int) ≤ nesting + 1 := by
    intro h
    obtain ⟨depth, taken, rest, hbs, hpayload, hdepth⟩ := Payload.of_skip hV hskip _ type bs h
    exact ⟨depth, taken, rest, hbs, hpayload, by omega⟩
  have htakes : ∀ depth taken rest, bs = taken ++ rest → Payload V IsVarint type depth taken →
      (depth : Int) ≤ nesting + 1 → skip V type nesting (.ofBytes bs) = .ofBytes rest := by
    intro depth taken rest hbs hpayload hdepth
    subst hbs
    have hle : depth ≤ (nesting + 1).toNat := by omega
    exact congrArg Prod.snd (hpayload.skip hskip hle rest)
  refine ⟨⟨haccepts, ?_⟩, htakes, ?_, ?_, ?_, ?_⟩
  · rintro ⟨depth, taken, rest, hbs, hpayload, hdepth⟩
    rw [htakes depth taken rest hbs hpayload hdepth, Reader.err_ofBytes]
  · intro depth depth' taken taken' rest rest' hbs hbs' h h'
    exact h.unique hskip h' (hbs.symm.trans hbs')
  · intro depth taken rest hbs hpayload hdepth
    subst hbs
    have hlt : (nesting + 1).toNat < depth := by omega
    exact hpayload.too_deep hskip hlt rest
  · intro depth missing hmissing hpayload h
    -- What is accepted of a payload that is cut short would be a shorter payload.
    obtain ⟨depth', taken, rest, rfl, hpayload', -⟩ := haccepts h
    have hsame : taken ++ rest ++ missing ++ [] = taken ++ (rest ++ missing) := by simp
    obtain ⟨-, htaken⟩ := hpayload.unique hskip hpayload' hsame
    have hlen := congrArg List.length htaken
    have hpos := List.length_pos_iff.mpr hmissing
    simp only [List.length_append] at hlen
    omega
  · rintro (rfl | rfl) <;> rfl

/-- A group with a varint and a group in it, up to an `End` with a number, and with the
least budget that it needs. -/
theorem skip_grammar_group :
    SkipsGrammar .leb128 Leb128.Terminated .start 1 [0x08, 0xac, 0x02, 0x13, 0x0c, 0x04, 0xf0] :=
  skip_grammar Varint.leb128_local Varint.leb128_skips .start (by decide) _

end SerialRpc
