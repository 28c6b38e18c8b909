import SerialRpc.Encoding.Grammar
import SerialRpc.Encoding.Rounds

/-!
# How deep decoding goes (encoding.cc:133-140, encoding_impl.cc:31-85)

Two recursions read nested groups, the decoders of message types for the fields they know
and `skip` for the others, and both pass on a budget that is one smaller. A loop goes on
only behind a tag, so that it reads at least a byte a round.

- `SkipRun`, `GroupRun`, `BodyRun`: the runs of `skip` and of a decoder as the source
  writes them, round by round, with the number of the loops that are active at once.
- `GroupRun.of_skipGroup`, `BodyRun.of_messageLoop`: there is a finite run on every stream.
- `GroupRun.loops_le`, `BodyRun.loops_le`: no more loops are active than the budget allows.
- `Grammar.Body`: the bodies that are consistent with a message type, and how deep they
  nest. `Body.takes`, `Body.too_deep`: the decoder takes those within its budget and
  reports the others.
-/

namespace SerialRpc

open ByteStream

/-! ## Runs -/

section Runs

variable (V : Varint)

mutual

/-- A run of `skip`, with the number of its loops that are active at once at most. -/
inductive SkipRun : WireType → Int → In → Nat → In → Prop where
  | flat {type : WireType} {nesting : Int} {inp : In} (htype : type ≠ .start) :
      SkipRun type nesting inp 0 (skip V type nesting inp)
  | refused {nesting : Int} {inp : In} (hnesting : nesting < 0) :
      SkipRun .start nesting inp 0 (inp.report (.text "excessive nesting"))
  | loop {nesting : Int} {inp out : In} {loops : Nat} (hnesting : 0 ≤ nesting)
      (h : GroupRun nesting inp loops out) : SkipRun .start nesting inp loops out

/-- A run of the loop of `case Tag::Start`. -/
inductive GroupRun : Int → In → Nat → In → Prop where
  | stop {nesting : Int} {inp : In}
      (htag : (readTag V inp).2.err ≠ none ∨ (readTag V inp).1.type = .endTag) :
      GroupRun nesting inp 1 (readTag V inp).2
  | failed {nesting : Int} {inp out : In} {loops : Nat} (htag : (readTag V inp).2.err = none)
      (htype : (readTag V inp).1.type ≠ .endTag)
      (hskip : SkipRun (readTag V inp).1.type (nesting - 1) (readTag V inp).2 loops out)
      (herr : out.err ≠ none) : GroupRun nesting inp (loops + 1) out
  | field {nesting : Int} {inp out out' : In} {loops loops' : Nat}
      (htag : (readTag V inp).2.err = none) (htype : (readTag V inp).1.type ≠ .endTag)
      (hskip : SkipRun (readTag V inp).1.type (nesting - 1) (readTag V inp).2 loops out)
      (herr : out.err = none) (h : GroupRun nesting out loops' out') :
      GroupRun nesting inp (max (loops + 1) loops') out'

end

/-- A run of a generated decoder's loop. What it reads depends on the message type and on
the stream, and not on the message that the loop fills in. -/
inductive BodyRun : MessageType → Int → In → Nat → In → Prop where
  | stop {T : MessageType} {nesting : Int} {inp : In}
      (htag : (readTag V inp).2.err ≠ none ∨ (readTag V inp).1.type = .endTag) :
      BodyRun T nesting inp 1 (readTag V inp).2
  -- `default:` skips, and looks at the error.
  | failed {T : MessageType} {nesting : Int} {inp out : In} {loops : Nat}
      (htag : (readTag V inp).2.err = none) (htype : (readTag V inp).1.type ≠ .endTag)
      (hkind : T.kind? (readTag V inp).1.fieldNum = none)
      (hskip : SkipRun V (readTag V inp).1.type (nesting - 1) (readTag V inp).2 loops out)
      (herr : out.err ≠ none) : BodyRun T nesting inp (loops + 1) out
  | unknown {T : MessageType} {nesting : Int} {inp out out' : In} {loops loops' : Nat}
      (htag : (readTag V inp).2.err = none) (htype : (readTag V inp).1.type ≠ .endTag)
      (hkind : T.kind? (readTag V inp).1.fieldNum = none)
      (hskip : SkipRun V (readTag V inp).1.type (nesting - 1) (readTag V inp).2 loops out)
      (herr : out.err = none) (h : BodyRun T nesting out loops' out') :
      BodyRun T nesting inp (max (loops + 1) loops') out'
  -- A known field is read, and the loop goes on with or without an error.
  | scalar {T : MessageType} {nesting : Int} {inp out : In} {loops : Nat} {type : ScalarType}
      (htag : (readTag V inp).2.err = none) (htype : (readTag V inp).1.type ≠ .endTag)
      (hkind : T.kind? (readTag V inp).1.fieldNum = some (.scalar type))
      (h : BodyRun T nesting (type.storage.unmarshal V (readTag V inp).2).2 loops out) :
      BodyRun T nesting inp loops out
  | refused {T S : MessageType} {kind : FieldKind} {nesting : Int} {inp out : In} {loops : Nat}
      (htag : (readTag V inp).2.err = none) (htype : (readTag V inp).1.type ≠ .endTag)
      (hkind : T.kind? (readTag V inp).1.fieldNum = some kind)
      (hmessage : kind = .message S ∨ kind = .repeated S) (hnesting : nesting - 1 < 0)
      (h : BodyRun T nesting ((readTag V inp).2.report (.text "excessive nesting")) loops out) :
      BodyRun T nesting inp loops out
  | message {T S : MessageType} {kind : FieldKind} {nesting : Int} {inp out out' : In}
      {loops loops' : Nat}
      (htag : (readTag V inp).2.err = none) (htype : (readTag V inp).1.type ≠ .endTag)
      (hkind : T.kind? (readTag V inp).1.fieldNum = some kind)
      (hmessage : kind = .message S ∨ kind = .repeated S) (hnesting : 0 ≤ nesting - 1)
      (hinner : BodyRun S (nesting - 1) (readTag V inp).2 loops out)
      (h : BodyRun T nesting out loops' out') :
      BodyRun T nesting inp (max (loops + 1) loops') out'

end Runs

variable {V : Varint}

/-! ## The loops that are active -/

mutual

theorem SkipRun.loops_le : ∀ {type : WireType} {nesting : Int} {inp out : In} {loops : Nat},
    SkipRun V type nesting inp loops out → loops ≤ (nesting + 1).toNat
  | _, _, _, _, _, .flat _ => Nat.zero_le _
  | _, _, _, _, _, .refused _ => Nat.zero_le _
  | _, _, _, _, _, .loop hnesting h => h.loops_le hnesting

theorem GroupRun.loops_le : ∀ {nesting : Int} {inp out : In} {loops : Nat},
    GroupRun V nesting inp loops out → 0 ≤ nesting → loops ≤ (nesting + 1).toNat
  | _, _, _, _, .stop _, hnesting => by omega
  | _, _, _, _, .failed _ _ hskip _, hnesting => by
    have hloops := hskip.loops_le
    omega
  | _, _, _, _, .field _ _ hskip _ h, hnesting => by
    have hloops := hskip.loops_le
    have hloops' := h.loops_le hnesting
    omega

end

/-- No more loops are active at once than the budget of the outermost one, and it. -/
theorem BodyRun.loops_le {T : MessageType} {nesting : Int} {inp out : In} {loops : Nat}
    (h : BodyRun V T nesting inp loops out) : 0 ≤ nesting → loops ≤ (nesting + 1).toNat := by
  induction h with
  | stop _ =>
    intro hnesting
    omega
  | failed _ _ _ hskip _ =>
    intro hnesting
    have hloops := hskip.loops_le
    omega
  | unknown _ _ _ hskip _ _ ih =>
    intro hnesting
    have hloops := hskip.loops_le
    have hloops' := ih hnesting
    omega
  | scalar _ _ _ _ ih => exact ih
  | refused _ _ _ _ _ _ ih => exact ih
  | message _ _ _ _ hinner _ _ ihinner ih =>
    intro hnesting
    have hloops := ihinner hinner
    have hloops' := ih hnesting
    omega

/-! ## There is a run -/

/-- `skip` inside of a group has a budget one smaller. -/
theorem skip_level (level : Nat) (type : WireType) :
    skip V type ((level : Int) - 1) = skipPayload V (skipGroup V level) type := by
  have hlevel : ((level : Int) - 1 + 1).toNat = level := by omega
  funext inp
  rw [skip, hlevel]

/-- A group has a run, given that what is in it has one. -/
theorem GroupRun.of_skipGroup {level : Nat}
    (hskip : ∀ type inp, ∃ loops,
      SkipRun V type ((level : Int) - 1) inp loops (skip V type ((level : Int) - 1) inp)) :
    ∀ inp : In, ∃ loops, GroupRun V level inp loops (skipGroup V (level + 1) inp) := by
  intro inp
  -- On the length of the stream: every round reads a tag.
  induction hlen : inp.unread.length using Nat.strongRecOn generalizing inp with
  | ind len ih =>
    subst hlen
    have hproductive := skipRound_productive (V := V) level
    rw [skipGroup, skipRound, tagLoop_eq hproductive]
    by_cases hstop : (readTag V inp).2.err ≠ none ∨ (readTag V inp).1.type = .endTag
    · rw [if_pos hstop]
      exact ⟨1, .stop hstop⟩
    · rw [if_neg hstop]
      obtain ⟨htag, htype⟩ := not_or.mp hstop
      rw [not_not] at htag
      obtain ⟨loops, hrun⟩ := hskip (readTag V inp).1.type (readTag V inp).2
      rw [skip_level] at hrun
      dsimp only
      have hshorter := Nat.lt_of_le_of_lt
        (skipPayload_suffix (V := V) (skipGroup_suffix (V := V) level) (readTag V inp).1.type
          (readTag V inp).2).length_le (readTag_consumes htag)
      obtain ⟨loops', hrest⟩ := ih _ hshorter _ rfl
      cases herr : (skipPayload V (skipGroup V level) (readTag V inp).1.type
        (readTag V inp).2).err with
      | some e =>
        simp only [Option.isNone_some, Bool.false_eq_true, if_false]
        exact ⟨loops + 1, .failed htag htype hrun (herr ▸ Option.some_ne_none e)⟩
      | none =>
        simp only [Option.isNone_none, if_true]
        exact ⟨max (loops + 1) loops', .field htag htype hrun herr hrest⟩

theorem SkipRun.of_level : ∀ (level : Nat) (type : WireType) (inp : In), ∃ loops,
    SkipRun V type ((level : Int) - 1) inp loops (skip V type ((level : Int) - 1) inp)
  | level, type, inp => by
    by_cases htype : type = .start
    · subst htype
      cases level with
      | zero => exact ⟨0, .refused (by decide)⟩
      | succ level =>
        obtain ⟨loops, h⟩ := GroupRun.of_skipGroup (SkipRun.of_level level) inp
        have hnesting : ((level + 1 : Nat) : Int) - 1 = level := by omega
        rw [hnesting]
        refine ⟨loops, .loop (Int.natCast_nonneg level) ?_⟩
        have hlevel : ((level : Int) + 1).toNat = level + 1 := by omega
        rw [skip, hlevel]
        exact h
    · exact ⟨0, .flat htype⟩

/-- Every run of `skip` ends. -/
theorem SkipRun.of_skip (type : WireType) (nesting : Int) (inp : In) :
    ∃ loops, SkipRun V type nesting inp loops (skip V type nesting inp) := by
  by_cases hnesting : nesting < 0
  · by_cases htype : type = .start
    · subst htype
      rw [skip_start, if_pos hnesting]
      exact ⟨0, .refused hnesting⟩
    · exact ⟨0, .flat htype⟩
  · have hlevel : (((nesting + 1).toNat : Nat) : Int) - 1 = nesting := by omega
    have hrun := SkipRun.of_level (V := V) (nesting + 1).toNat type inp
    rwa [hlevel] at hrun

/-- A round with a known field, and the run behind it. -/
theorem BodyRun.of_known {T : MessageType} {kind : FieldKind} {nesting : Int} {inp out : In}
    {loops : Nat} (htag : (readTag V inp).2.err = none) (htype : (readTag V inp).1.type ≠ .endTag)
    (hkind : T.kind? (readTag V inp).1.fieldNum = some kind) (val : kind.Val)
    (hinner : ∀ S : MessageType, ∃ loops, BodyRun V S (nesting - 1) (readTag V inp).2 loops
      (messageLoop V (S.switch V (nesting - 1)) (nesting - 1) S.default (readTag V inp).2).2)
    (hrest : BodyRun V T nesting (kind.unmarshal V nesting val (readTag V inp).2).2 loops out) :
    ∃ loops, BodyRun V T nesting inp loops out := by
  have hmessage : ∀ S, kind = .message S ∨ kind = .repeated S →
      ∃ loops, BodyRun V T nesting inp loops out := by
    intro S hS
    have hread := FieldKind.unmarshal_message (V := V) hS nesting val (readTag V inp).2
    rw [hread] at hrest
    by_cases hnesting : nesting - 1 < 0
    · rw [if_pos hnesting] at hrest
      exact ⟨loops, .refused htag htype hkind hS hnesting hrest⟩
    · rw [if_neg hnesting] at hrest
      -- The loops of the nested message are active inside this one.
      obtain ⟨loops', hrun⟩ := hinner S
      exact ⟨max (loops' + 1) loops,
        .message htag htype hkind hS (Int.not_lt.mp hnesting) hrun hrest⟩
  cases kind with
  | scalar type => exact ⟨loops, .scalar htag htype hkind hrest⟩
  | message S => exact hmessage S (.inl rfl)
  | repeated S => exact hmessage S (.inr rfl)

/-- Every run of a decoder ends. -/
theorem BodyRun.of_messageLoop : ∀ (T : MessageType) (nesting : Int) (msg : T.Val) (inp : In),
    ∃ loops, BodyRun V T nesting inp loops
      (messageLoop V (T.switch V nesting) nesting msg inp).2 := by
  intro T nesting msg inp
  -- On the length of the stream: a nested message stands behind a tag.
  induction hlen : inp.unread.length using Nat.strongRecOn generalizing T nesting msg inp with
  | ind len ih =>
    subst hlen
    rw [messageLoop, tagLoop_eq (messageField_productive T nesting)]
    by_cases hstop : (readTag V inp).2.err ≠ none ∨ (readTag V inp).1.type = .endTag
    · rw [if_pos hstop]
      exact ⟨1, .stop hstop⟩
    rw [if_neg hstop]
    obtain ⟨htag, htype⟩ := not_or.mp hstop
    rw [not_not] at htag
    have hconsumes := readTag_consumes htag
    cases hkind : T.kind? (readTag V inp).1.fieldNum with
    | none =>
      simp only [messageField, MessageType.switch_of_none _ hkind]
      obtain ⟨loops, hrun⟩ := SkipRun.of_skip (V := V) (readTag V inp).1.type (nesting - 1)
        (readTag V inp).2
      have hshorter := Nat.lt_of_le_of_lt
        (skip_suffix (V := V) (readTag V inp).1.type (nesting - 1) (readTag V inp).2).length_le
        hconsumes
      obtain ⟨loops', hrest⟩ := ih _ hshorter T nesting msg _ rfl
      cases herr : (skip V (readTag V inp).1.type (nesting - 1) (readTag V inp).2).err with
      | some e =>
        simp only [Option.isNone_some, Bool.false_eq_true, if_false]
        exact ⟨loops + 1, .failed htag htype hkind hrun (herr ▸ Option.some_ne_none e)⟩
      | none =>
        simp only [Option.isNone_none, if_true]
        exact ⟨max (loops + 1) loops', .unknown htag htype hkind hrun herr hrest⟩
    | some kind =>
      obtain ⟨get, set, hswitch⟩ := MessageType.switch_of_kind (V := V) hkind
      simp only [messageField, hswitch, if_true]
      have hshorter := Nat.lt_of_le_of_lt
        (kind.unmarshal_suffix (V := V) nesting (get msg) (readTag V inp).2).length_le hconsumes
      obtain ⟨loops, hrest⟩ := ih _ hshorter T nesting
        (set msg (kind.unmarshal V nesting (get msg) (readTag V inp).2).1) _ rfl
      have hinner := fun S : MessageType => ih _ hconsumes S (nesting - 1) S.default _ rfl
      exact BodyRun.of_known htag htype hkind (get msg) hinner hrest

/-! ## Bodies -/

namespace Grammar

section Definitions

variable (V : Varint) (IsVarint : List UInt8 → Prop)

/-- The bodies that are consistent with a message type, and how deep their groups nest: a
known field has the wire type and a value of its type, and an unknown one is well formed. -/
inductive Body : MessageType → Nat → List UInt8 → Prop where
  | stop {T : MessageType} {tag : Tag} {bytes : List UInt8} (htag : Tagged V tag bytes)
      (htype : tag.type = .endTag) : Body T 0 bytes
  | unknown {T : MessageType} {tag : Tag} {depth depth' : Nat} {bytes payload rest : List UInt8}
      (htag : Tagged V tag bytes) (htype : tag.type ≠ .endTag)
      (hkind : T.kind? tag.fieldNum = none)
      (hpayload : Payload V IsVarint tag.type depth payload) (h : Body T depth' rest) :
      Body T (max depth depth') (bytes ++ payload ++ rest)
  | scalar {T : MessageType} {tag : Tag} {depth : Nat} {bytes payload rest : List UInt8}
      {type : ScalarType} {val : type.storage.Val} (htag : Tagged V tag bytes)
      (htype : tag.type = type.storage.wireType)
      (hkind : T.kind? tag.fieldNum = some (.scalar type))
      (hpayload : Reader.Takes (type.storage.unmarshal V) payload val) (h : Body T depth rest) :
      Body T depth (bytes ++ payload ++ rest)
  | message {T S : MessageType} {tag : Tag} {kind : FieldKind} {depth depth' : Nat}
      {bytes inner rest : List UInt8} (htag : Tagged V tag bytes) (htype : tag.type = .start)
      (hkind : T.kind? tag.fieldNum = some kind)
      (hmessage : kind = .message S ∨ kind = .repeated S) (hinner : Body S depth inner)
      (h : Body T depth' rest) : Body T (max (depth + 1) depth') (bytes ++ inner ++ rest)

end Definitions

variable {IsVarint : List UInt8 → Prop}

/-- A body within the budget is a message to the decoder. -/
theorem Body.inserted (hskip : V.Skips IsVarint) {T : MessageType} {depth : Nat}
    {body : List UInt8} (h : Body V IsVarint T depth body) :
    ∀ {nesting : Nat}, depth ≤ nesting → Inserted V T nesting body body := by
  induction h with
  | stop htag htype => exact fun _ => .stop htag htype
  | @unknown T tag depth depth' bytes payload rest htag htype hkind hpayload _ ih =>
    intro nesting hdepth
    have htakes := hpayload.skip hskip ((Nat.le_max_left depth depth').trans hdepth)
    rw [← skip_level] at htakes
    exact .unknown htag htype hkind htakes (ih ((Nat.le_max_right depth depth').trans hdepth))
  | @scalar T tag depth bytes payload rest type val htag htype hkind hpayload _ ih =>
    intro nesting hdepth
    exact .scalar htag (htype ▸ type.storage.wireType_ne_endTag) hkind hpayload (ih hdepth)
  | @message T S tag kind depth depth' bytes inner rest htag htype hkind hmessage _ _ ihinner
      ih =>
    intro nesting hdepth
    have hinner := (Nat.le_max_left (depth + 1) depth').trans hdepth
    have hrest := (Nat.le_max_right (depth + 1) depth').trans hdepth
    obtain ⟨level, rfl⟩ : ∃ level, nesting = level + 1 := ⟨nesting - 1, by omega⟩
    exact .message htag (htype ▸ nofun) hkind hmessage (ihinner (Nat.le_of_succ_le_succ hinner))
      (ih hrest)

/-- The decoder takes a body that nests within its budget. -/
theorem Body.takes (hV : V.Local) (hskip : V.Skips IsVarint) {T : MessageType}
    {depth nesting : Nat} {body : List UInt8} (h : Body V IsVarint T depth body)
    (hdepth : depth ≤ nesting) (msg : T.Val) :
    ∃ msg', Reader.Takes (messageLoop V (T.switch V nesting) nesting msg) body msg' := by
  obtain ⟨msg', htakes, -⟩ := (h.inserted hskip hdepth).takes hV msg
  exact ⟨msg', htakes⟩

/-- The decoder reports a body that nests deeper than its budget. -/
theorem Body.too_deep (hV : V.Local) (hskip : V.Skips IsVarint) {T : MessageType} {depth : Nat}
    {body : List UInt8} (h : Body V IsVarint T depth body) :
    ∀ {nesting : Nat}, nesting < depth → ∀ msg rest,
      (messageLoop V (T.switch V nesting) nesting msg (.ofBytes (body ++ rest))).2.err =
        some tooDeep := by
  induction h with
  | stop _ _ => exact fun hdepth => absurd hdepth (Nat.not_lt_zero _)
  | @unknown T tag depth depth' bytes payload after htag htype hkind hpayload _ ih =>
    intro nesting hdepth msg rest
    by_cases hlt : nesting < depth
    · -- The unknown field is too deep: `skip` reports it, and the loop ends.
      have hafter := hpayload.too_deep hskip hlt (after ++ rest)
      rw [← skip_level] at hafter
      rw [List.append_assoc, List.append_assoc]
      exact messageLoop_unknown_err htag htype hkind hafter msg
    · have htakes := hpayload.skip hskip (Nat.le_of_not_lt hlt)
      rw [← skip_level] at htakes
      have hround := htag.round htype (messageField_unknown hkind htakes msg)
      rw [messageLoop, List.append_assoc, hround.step (messageField_productive T nesting)]
      exact ih (by omega) msg rest
  | @scalar T tag depth bytes payload after type val htag htype hkind hpayload _ ih =>
    intro nesting hdepth msg rest
    obtain ⟨next, hfield, -⟩ := messageField_known nesting hkind
      (fun _ => ⟨val, hpayload, hpayload⟩) msg
    have hround := htag.round (htype ▸ type.storage.wireType_ne_endTag) hfield
    rw [messageLoop, List.append_assoc, hround.step (messageField_productive T nesting)]
    exact ih hdepth next rest
  | @message T S tag kind depth depth' bytes inner after htag htype hkind hmessage hbody _
      ihinner ih =>
    intro nesting hdepth msg rest
    have htype' : tag.type ≠ .endTag := by
      rw [htype]
      rintro ⟨⟩
    by_cases hlt : nesting < depth + 1
    · -- The nested message is: its decoder reports it, or is not entered at all.
      have herr : ∀ val, (kind.unmarshal V nesting val
          (.ofBytes (inner ++ (after ++ rest)))).2.err = some tooDeep := by
        intro val
        rw [FieldKind.unmarshal_message hmessage]
        split
        · rfl
        · have hlevel : (nesting : Int) - 1 = ((nesting - 1 : Nat) : Int) := by omega
          rw [hlevel]
          exact ihinner (by omega) S.default (after ++ rest)
      rw [List.append_assoc, List.append_assoc]
      obtain ⟨val, hval⟩ := messageLoop_known_err htag htype' hkind
        (fun val => herr val ▸ Option.some_ne_none tooDeep) msg
      exact hval.trans (herr val)
    · obtain ⟨level, rfl⟩ : ∃ level, nesting = level + 1 := ⟨nesting - 1, by omega⟩
      have hlevel : depth ≤ level := by omega
      obtain ⟨m, hinner⟩ := hbody.takes hV hskip hlevel S.default
      have hread := FieldKind.unmarshal_takes hmessage hinner hinner
      obtain ⟨next, hfield, -⟩ := messageField_known _ hkind hread msg
      have hround := htag.round htype' hfield
      rw [messageLoop, List.append_assoc, hround.step (messageField_productive T _)]
      exact ih (by omega) next rest

end Grammar

open Grammar

/-- On every stream a decoder comes to an end, with never more than `MaxNesting + 1` loops
active at once, of decoders and of `skip` alike. Off a body that is consistent with its type
it reads a message, if groups nest at most `MaxNesting` deep, and reports the nesting
otherwise. -/
theorem decoding_nests {V : Varint} {IsVarint : List UInt8 → Prop} (hV : V.Local)
    (hskip : V.Skips IsVarint) (T : MessageType) (bs : List UInt8) :
    (∃ loops, BodyRun V T MaxNesting (.ofBytes bs) loops (unmarshal V T (.ofBytes bs)).2) ∧
    (∀ loops out, BodyRun V T MaxNesting (.ofBytes bs) loops out → loops ≤ MaxNesting + 1) ∧
    ∀ depth body rest, bs = body ++ rest → Body V IsVarint T depth body →
      ((unmarshal V T (.ofBytes bs)).2.err = some (.text "excessive nesting") ↔
        MaxNesting < depth) ∧
      (depth ≤ MaxNesting → (unmarshal V T (.ofBytes bs)).2 = .ofBytes rest) := by
  have hunmarshal : unmarshal V T (.ofBytes bs) =
      messageLoop V (T.switch V MaxNesting) MaxNesting T.default (.ofBytes bs) := rfl
  rw [hunmarshal]
  refine ⟨BodyRun.of_messageLoop T MaxNesting T.default _, fun loops out h => ?_, ?_⟩
  · exact h.loops_le (Int.natCast_nonneg MaxNesting)
  · rintro depth body rest rfl hbody
    have haccepts : depth ≤ MaxNesting → (messageLoop V (T.switch V MaxNesting) MaxNesting
        T.default (.ofBytes (body ++ rest))).2 = .ofBytes rest := by
      intro hdepth
      obtain ⟨msg, htakes⟩ := hbody.takes hV hskip hdepth T.default
      rw [htakes rest]
    refine ⟨⟨fun herr => ?_, fun hdepth => hbody.too_deep hV hskip hdepth T.default rest⟩,
      haccepts⟩
    -- A body within the budget is taken, without an error.
    by_contra hdepth
    rw [haccepts (Nat.le_of_not_lt hdepth)] at herr
    cases herr

/-- A message in a message, with an unknown group behind it. -/
theorem decoding_nests_group :
    (∃ loops, BodyRun .leb128 (.field 1 (.message .empty) .empty) MaxNesting
      (.ofBytes [0x0b, 0x04, 0x13, 0x0c, 0x04, 0xf0]) loops
      (unmarshal .leb128 (.field 1 (.message .empty) .empty)
        (.ofBytes [0x0b, 0x04, 0x13, 0x0c, 0x04, 0xf0])).2) ∧
    (unmarshal .leb128 (.field 1 (.message .empty) .empty)
      (.ofBytes [0x0b, 0x04, 0x13, 0x0c, 0x04, 0xf0])).2 = .ofBytes [0xf0] := by
  have hbyte : ∀ b : UInt8, b < 128 → Tagged .leb128 (.ofValue b.toUInt32) [b] :=
    fun b hb => .byte Varint.leb128_lawful hb
  have hgroup : Payload .leb128 Leb128.Terminated .start 1 [0x0c] :=
    .start (.stop (hbyte 0x0c (by decide)) (by decide))
  have hinner : Body .leb128 Leb128.Terminated .empty 0 [0x04] :=
    .stop (hbyte 0x04 (by decide)) (by decide)
  have hbody : Body .leb128 Leb128.Terminated (.field 1 (.message .empty) .empty) 1
      [0x0b, 0x04, 0x13, 0x0c, 0x04] :=
    .message (hbyte 0x0b (by decide)) (by decide) rfl (.inl rfl) hinner
      (.unknown (hbyte 0x13 (by decide)) (by decide) rfl hgroup
        (.stop (hbyte 0x04 (by decide)) (by decide)))
  obtain ⟨hrun, -, hnests⟩ := decoding_nests Varint.leb128_local Varint.leb128_skips
    (.field 1 (.message .empty) .empty) [0x0b, 0x04, 0x13, 0x0c, 0x04, 0xf0]
  exact ⟨hrun, (hnests 1 _ [0xf0] rfl hbody).2 (by decide)⟩

end SerialRpc
