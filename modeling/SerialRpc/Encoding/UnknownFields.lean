import SerialRpc.Encoding.Local

/-!
# Unknown fields (encoding_impl.cc:31-85, protoc_serialrpc_plugin.cc:1468-1525)

A decoder that is older than the encoder meets fields it does not know, and passes over
them by their wire types. Inside of a group there are no known fields: the group ends at
the first `End` tag that is not one of a group within.

- `WirePayload`: the payloads of well-formed fields, with how deep their groups may nest.
  `WirePayload.skip`: `skip` takes them.
- `Inserted`: a message, and the same message with unknown fields inserted between its
  fields, at every level.
- `Inserted.takes`: the decoder reads the same value off both. `Inserted.of_accepts`: all
  that it accepts is a message in this sense.
-/

namespace SerialRpc

open ByteStream

variable (V : Varint)

/-! ## Well-formed payloads -/

mutual

/-- A payload of a wire type, in which groups nest at most so deep. -/
inductive WirePayload : Nat → WireType → List UInt8 → Prop where
  | varInt {level : Nat} {bytes : List UInt8} {v : UInt64} (h : V.readUint64.Reads bytes v) :
      WirePayload level .varInt bytes
  | i64 {level : Nat} {bytes : List UInt8} (h : bytes.length = 8) : WirePayload level .i64 bytes
  | len {level : Nat} {length bytes : List UInt8} {n : UInt32} (h : V.readUint32.Reads length n)
      (hbytes : bytes.length = n.toNat) : WirePayload level .len (length ++ bytes)
  | i32 {level : Nat} {bytes : List UInt8} (h : bytes.length = 4) : WirePayload level .i32 bytes
  | group {level : Nat} {bytes : List UInt8} (h : WireGroup level bytes) :
      WirePayload (level + 1) .start bytes

/-- Fields with any numbers, up to an `End` with any number. -/
inductive WireGroup : Nat → List UInt8 → Prop where
  | stop {level : Nat} {tag : Tag} {bytes : List UInt8} (htag : Tagged V tag bytes)
      (htype : tag.type = .endTag) : WireGroup level bytes
  | field {level : Nat} {tag : Tag} {bytes payload rest : List UInt8} (htag : Tagged V tag bytes)
      (hpayload : WirePayload level tag.type payload) (h : WireGroup level rest) :
      WireGroup level (bytes ++ payload ++ rest)

end

variable {V}

theorem WirePayload.type_ne_endTag {level : Nat} {type : WireType} {bytes : List UInt8}
    (h : WirePayload V level type bytes) : type ≠ .endTag := by
  cases h <;> exact nofun

theorem skipRound_productive (level : Nat) :
    Productive (skipRound V (skipPayload V (skipGroup V level))) :=
  tagRound_productive fun tag _ inp => skipPayload_suffix (skipGroup_suffix level) tag.type inp

/-- A length, and as many bytes. -/
theorem skipPayload_len {group : In → In} {length bytes : List UInt8} {n : UInt32}
    (h : V.readUint32.Reads length n) (hbytes : bytes.length = n.toNat) :
    Reader.Takes (skipping (skipPayload V group .len)) (length ++ bytes) () := by
  intro rest
  have hlength : (Reader.ofBytes (length ++ (bytes ++ rest))).read V.readUint32 Err.baselib =
      (n, .ofBytes (bytes ++ rest)) := Reader.read_ofBytes h Err.baselib (bytes ++ rest)
  have hdata : (Reader.ofBytes (bytes ++ rest)).read (Read.discard n.toNat) Err.baselib =
      ((), .ofBytes rest) :=
    Reader.read_ofBytes (hbytes ▸ Read.discard_reads bytes) Err.baselib rest
  simp [skipping, skipPayload, hlength, hdata]

/-- A round of `skip`'s loop takes a tag and what the payload takes. -/
theorem skipRound_takes {level : Nat} {tag : Tag} {bytes payload : List UInt8}
    (htag : Tagged V tag bytes) (htype : tag.type ≠ .endTag)
    (hskip : Reader.Takes (skipping (skipPayload V (skipGroup V level) tag.type)) payload ()) :
    Reader.Takes (Reader.round (skipRound V (skipPayload V (skipGroup V level))) ())
      (bytes ++ payload) (true, ()) := by
  refine htag.round htype fun rest => ?_
  have hafter := congrArg Prod.snd (hskip rest)
  simp only [skipping] at hafter
  simp [Reader.round, hafter]

mutual

/-- `skip` takes a well-formed payload. -/
theorem WirePayload.skip (hV : V.Local) : ∀ {level : Nat} {type : WireType} {bytes : List UInt8},
    WirePayload V level type bytes →
    Reader.Takes (skipping (skipPayload V (skipGroup V level) type)) bytes ()
  | _, _, bytes, .varInt h => .read (hV.skip_uint64 bytes _ h) Err.baselib
  | _, _, bytes, .i64 h => .read (h ▸ Read.discard_reads bytes) Err.baselib
  | _, _, bytes, .i32 h => .read (h ▸ Read.discard_reads bytes) Err.baselib
  | _, _, _, .len h hbytes => skipPayload_len h hbytes
  | _, _, _, .group h => h.skip hV

theorem WireGroup.skip (hV : V.Local) :
    ∀ {level : Nat} {bytes : List UInt8}, WireGroup V level bytes →
    Reader.Takes (skipping (skipGroup V (level + 1))) bytes ()
  | level, _, .stop htag htype =>
    Reader.Takes.last (skipRound_productive level) (htag.endTag htype ())
  | level, _, .field htag hpayload h =>
    .again (skipRound_productive level)
      (skipRound_takes htag hpayload.type_ne_endTag (hpayload.skip hV)) (h.skip hV)

end

/-! ## Messages with unknown fields -/

/-- The kind of the field with a number, if it is known. -/
def MessageType.kind? : MessageType → BitVec 32 → Option FieldKind
  | .empty, _ => none
  | .field number kind rest, fieldNum =>
    if fieldNum = number then some kind else rest.kind? fieldNum

variable (V)

/-- A message's bytes up to its `End`, and the same with well-formed unknown fields inserted
between fields. -/
inductive Inserted : MessageType → Nat → List UInt8 → List UInt8 → Prop where
  | stop {T : MessageType} {nesting : Nat} {tag : Tag} {bytes : List UInt8}
      (htag : Tagged V tag bytes) (htype : tag.type = .endTag) : Inserted T nesting bytes bytes
  | insert {T : MessageType} {nesting : Nat} {tag : Tag} {bytes payload body body' : List UInt8}
      (htag : Tagged V tag bytes) (hunknown : T.kind? tag.fieldNum = none)
      (hpayload : WirePayload V nesting tag.type payload) (h : Inserted T nesting body body') :
      Inserted T nesting body (bytes ++ payload ++ body')
  -- The message's own fields: unknown ones, scalars and messages.
  | unknown {T : MessageType} {nesting : Nat} {tag : Tag} {bytes payload body body' : List UInt8}
      (htag : Tagged V tag bytes) (htype : tag.type ≠ .endTag)
      (hunknown : T.kind? tag.fieldNum = none)
      (hpayload : Reader.Takes (skipping (skip V tag.type (nesting - 1))) payload ())
      (h : Inserted T nesting body body') :
      Inserted T nesting (bytes ++ payload ++ body) (bytes ++ payload ++ body')
  | scalar {T : MessageType} {nesting : Nat} {tag : Tag} {bytes payload body body' : List UInt8}
      {type : ScalarType} {val : type.storage.Val}
      (htag : Tagged V tag bytes) (htype : tag.type ≠ .endTag)
      (hkind : T.kind? tag.fieldNum = some (.scalar type))
      (hpayload : Reader.Takes (type.storage.unmarshal V) payload val)
      (h : Inserted T nesting body body') :
      Inserted T nesting (bytes ++ payload ++ body) (bytes ++ payload ++ body')
  | message {T S : MessageType} {nesting : Nat} {tag : Tag} {kind : FieldKind}
      {bytes inner inner' body body' : List UInt8}
      (htag : Tagged V tag bytes) (htype : tag.type ≠ .endTag)
      (hkind : T.kind? tag.fieldNum = some kind)
      (hmessage : kind = .message S ∨ kind = .repeated S)
      (hinner : Inserted S nesting inner inner') (h : Inserted T (nesting + 1) body body') :
      Inserted T (nesting + 1) (bytes ++ inner ++ body) (bytes ++ inner' ++ body')

variable {V}

/-! ## The decoder reads the same value -/

/-- The `switch` has no case for an unknown number. -/
theorem MessageType.switch_of_none (nesting : Int) :
    ∀ {T : MessageType} {fieldNum : BitVec 32}, T.kind? fieldNum = none →
      ∀ (msg : T.Val) (inp : In), T.switch V nesting fieldNum msg inp = none
  | .empty, _, _, _, _ => rfl
  | .field number kind rest, fieldNum, h, (val, msg), inp => by
    simp only [MessageType.kind?] at h
    split at h
    · cases h
    · rename_i hne
      simp only [MessageType.switch, hne, if_false, rest.switch_of_none nesting h msg inp,
        Option.map_none]

/-- The case of a known number reads a member and assigns it. -/
theorem MessageType.switch_of_kind :
    ∀ {T : MessageType} {fieldNum : BitVec 32} {kind : FieldKind}, T.kind? fieldNum = some kind →
      ∃ (get : T.Val → kind.Val) (set : T.Val → kind.Val → T.Val), ∀ (nesting : Int) msg inp,
        T.switch V nesting fieldNum msg inp =
          some (set msg (kind.unmarshal V nesting (get msg) inp).1,
            (kind.unmarshal V nesting (get msg) inp).2)
  | .field number kind rest, fieldNum, kind', h => by
    simp only [MessageType.kind?] at h
    split at h
    · rename_i heq
      cases h
      exact ⟨Prod.fst, fun msg val => (val, msg.2), fun nesting msg inp => by
        simp only [MessageType.switch, heq, if_true]⟩
    · rename_i hne
      obtain ⟨get, set, hswitch⟩ := rest.switch_of_kind h
      exact ⟨fun msg => get msg.2, fun msg val => (msg.1, set msg.2 val),
        fun nesting msg inp => by
          simp only [MessageType.switch, hne, if_false, hswitch nesting msg.2 inp,
            Option.map_some]⟩

theorem messageField_productive (T : MessageType) (nesting : Int) :
    Productive (tagRound V (messageField V (T.switch V nesting) nesting)) :=
  tagRound_productive (messageField_consuming (T.switch_consumes nesting) nesting)

/-- A loop that is entered with an error is left with it. -/
theorem messageLoop_err {T : MessageType} {nesting : Int} {msg : T.Val} {inp : In} {e : Err}
    (herr : inp.err = some e) :
    (messageLoop V (T.switch V nesting) nesting msg inp).2.err = some e := by
  have htag : (readTag V inp).2.err = some e := by
    rw [readTag_snd, Reader.read_err_of_err _ _ (by rw [herr]; exact nofun), herr]
  have hstop : (readTag V inp).2.err ≠ none ∨ (readTag V inp).1.type = .endTag :=
    .inl (by rw [htag]; exact nofun)
  rw [messageLoop, tagLoop_eq (messageField_productive T nesting), if_pos hstop]
  exact htag

/-- A round with an unknown field leaves the message as it is. -/
theorem messageField_unknown {T : MessageType} {nesting : Int} {tag : Tag}
    {payload : List UInt8} (hunknown : T.kind? tag.fieldNum = none)
    (hskip : Reader.Takes (skipping (skip V tag.type (nesting - 1))) payload ()) (msg : T.Val) :
    Reader.Takes (Reader.round (messageField V (T.switch V nesting) nesting tag) msg) payload
      (true, msg) := by
  intro rest
  have hafter := congrArg Prod.snd (hskip rest)
  simp only [skipping] at hafter
  simp [Reader.round, messageField, MessageType.switch_of_none nesting hunknown msg, hafter]

/-- A round with a known field, which two payloads give the same value. -/
theorem messageField_known {T : MessageType} (nesting : Int) {tag : Tag} {kind : FieldKind}
    {payload payload' : List UInt8} (hkind : T.kind? tag.fieldNum = some kind)
    (hread : ∀ val, ∃ val', Reader.Takes (kind.unmarshal V nesting val) payload val' ∧
      Reader.Takes (kind.unmarshal V nesting val) payload' val') (msg : T.Val) :
    ∃ msg', Reader.Takes (Reader.round (messageField V (T.switch V nesting) nesting tag) msg)
        payload (true, msg') ∧
      Reader.Takes (Reader.round (messageField V (T.switch V nesting) nesting tag) msg)
        payload' (true, msg') := by
  obtain ⟨get, set, hswitch⟩ := MessageType.switch_of_kind (V := V) hkind
  obtain ⟨val', htakes, htakes'⟩ := hread (get msg)
  refine ⟨set msg val', fun rest => ?_, fun rest => ?_⟩
  · simp only [Reader.round, messageField, hswitch, htakes rest]
  · simp only [Reader.round, messageField, hswitch, htakes' rest]

/-- The loop of a message behind a tag that is not `End`. -/
theorem messageLoop_tagged {T : MessageType} {nesting : Int} {tag : Tag}
    {bytes rest : List UInt8} (htag : Tagged V tag bytes) (htype : tag.type ≠ .endTag)
    (msg : T.Val) :
    messageLoop V (T.switch V nesting) nesting msg (.ofBytes (bytes ++ rest)) =
      let next := messageField V (T.switch V nesting) nesting tag msg (.ofBytes rest)
      if next.again then messageLoop V (T.switch V nesting) nesting next.state next.reader
      else (next.state, next.reader) := by
  have hgo : ¬ ((Reader.ofBytes rest : In).err ≠ none ∨ tag.type = .endTag) := by
    simp [htype]
  rw [messageLoop, tagLoop_eq (messageField_productive T nesting), htag rest, if_neg hgo]
  rfl

/-- The loop ends with the error of an unknown field. -/
theorem messageLoop_unknown_err {T : MessageType} {nesting : Int} {tag : Tag}
    {bytes bs : List UInt8} {e : Err} (htag : Tagged V tag bytes) (htype : tag.type ≠ .endTag)
    (hkind : T.kind? tag.fieldNum = none)
    (herr : (skip V tag.type (nesting - 1) (.ofBytes bs)).err = some e) (msg : T.Val) :
    (messageLoop V (T.switch V nesting) nesting msg (.ofBytes (bytes ++ bs))).2.err = some e := by
  rw [messageLoop_tagged htag htype]
  simp [messageField, MessageType.switch_of_none _ hkind, herr]

/-- The loop ends with the error of a known field, at its next tag. -/
theorem messageLoop_known_err {T : MessageType} {nesting : Int} {tag : Tag} {kind : FieldKind}
    {bytes bs : List UInt8} (htag : Tagged V tag bytes) (htype : tag.type ≠ .endTag)
    (hkind : T.kind? tag.fieldNum = some kind)
    (herr : ∀ val, (kind.unmarshal V nesting val (.ofBytes bs)).2.err ≠ none) (msg : T.Val) :
    ∃ val, (messageLoop V (T.switch V nesting) nesting msg (.ofBytes (bytes ++ bs))).2.err =
      (kind.unmarshal V nesting val (.ofBytes bs)).2.err := by
  obtain ⟨get, set, hswitch⟩ := MessageType.switch_of_kind (V := V) hkind
  obtain ⟨e, he⟩ := Option.ne_none_iff_exists'.mp (herr (get msg))
  refine ⟨get msg, ?_⟩
  rw [he, messageLoop_tagged htag htype]
  simp only [messageField, hswitch, if_true]
  exact messageLoop_err he

/-- What a message field reads. -/
theorem FieldKind.unmarshal_message {S : MessageType} {kind : FieldKind}
    (hmessage : kind = .message S ∨ kind = .repeated S) (nesting : Int) (val : kind.Val)
    (inp : In) : (kind.unmarshal V nesting val inp).2 =
      if nesting - 1 < 0 then inp.report (.text "excessive nesting")
      else (messageLoop V (S.switch V (nesting - 1)) (nesting - 1) S.default inp).2 := by
  rcases hmessage with rfl | rfl
  · simp only [FieldKind.unmarshal, unmarshalNested]
    split <;> rfl
  · simp only [FieldKind.unmarshal, unmarshalNested]
    split <;> rfl

/-- A nested message is read with a budget one smaller. -/
theorem unmarshalNested_takes {S : MessageType} {nesting : Nat} {inner : List UInt8} {m : S.Val}
    (h : Reader.Takes (messageLoop V (S.switch V nesting) nesting S.default) inner m) :
    Reader.Takes (unmarshalNested S.default
      (fun nesting => messageLoop V (S.switch V nesting) nesting S.default)
      (((nesting + 1 : Nat) : Int) - 1)) inner m := by
  intro rest
  have hnesting : ((nesting + 1 : Nat) : Int) - 1 = (nesting : Int) := by omega
  rw [hnesting, unmarshalNested, if_neg (by omega)]
  exact h rest

theorem FieldKind.unmarshal_takes {S : MessageType} {kind : FieldKind} {nesting : Nat}
    (hmessage : kind = .message S ∨ kind = .repeated S) {inner inner' : List UInt8} {m : S.Val}
    (h : Reader.Takes (messageLoop V (S.switch V nesting) nesting S.default) inner m)
    (h' : Reader.Takes (messageLoop V (S.switch V nesting) nesting S.default) inner' m)
    (val : kind.Val) :
    ∃ val', Reader.Takes (kind.unmarshal V ((nesting + 1 : Nat) : Int) val) inner val' ∧
      Reader.Takes (kind.unmarshal V ((nesting + 1 : Nat) : Int) val) inner' val' := by
  have htakes := unmarshalNested_takes h
  have htakes' := unmarshalNested_takes h'
  rcases hmessage with rfl | rfl
  · exact ⟨m, htakes, htakes'⟩
  · refine ⟨val ++ [m], fun rest => ?_, fun rest => ?_⟩
    · simp only [FieldKind.unmarshal, htakes rest]
    · simp only [FieldKind.unmarshal, htakes' rest]

/-- The decoder reads the same message off both, whatever follows. -/
theorem Inserted.takes (hV : V.Local) {T : MessageType} {nesting : Nat}
    {body body' : List UInt8} (h : Inserted V T nesting body body') :
    ∀ msg, ∃ msg', Reader.Takes (messageLoop V (T.switch V nesting) nesting msg) body msg' ∧
      Reader.Takes (messageLoop V (T.switch V nesting) nesting msg) body' msg' := by
  induction h with
  | @stop T nesting tag bytes htag htype =>
    intro msg
    have htakes := Reader.Takes.last (messageField_productive T nesting) (htag.endTag htype msg)
    exact ⟨msg, htakes, htakes⟩
  | @insert T nesting tag bytes payload body body' htag hunknown hpayload _ ih =>
    intro msg
    obtain ⟨msg', hbody, hbody'⟩ := ih msg
    -- Only the second stream has the field: it is skipped there.
    have hskip : Reader.Takes (skipping (skip V tag.type ((nesting : Int) - 1))) payload () := by
      have hlevel : ((nesting : Int) - 1 + 1).toNat = nesting := by omega
      show Reader.Takes
        (skipping (skipPayload V (skipGroup V ((nesting : Int) - 1 + 1).toNat) tag.type)) payload ()
      rw [hlevel]
      exact hpayload.skip hV
    refine ⟨msg', hbody, .again (messageField_productive T nesting) ?_ hbody'⟩
    exact htag.round hpayload.type_ne_endTag (messageField_unknown hunknown hskip msg)
  | @unknown T nesting tag bytes payload body body' htag htype hunknown hpayload _ ih =>
    intro msg
    obtain ⟨msg', hbody, hbody'⟩ := ih msg
    have hround := htag.round htype (messageField_unknown hunknown hpayload msg)
    exact ⟨msg', .again (messageField_productive T nesting) hround hbody,
      .again (messageField_productive T nesting) hround hbody'⟩
  | @scalar T nesting tag bytes payload body body' type val htag htype hkind hpayload _ ih =>
    intro msg
    obtain ⟨next, hround, -⟩ := messageField_known _ hkind
      (fun _ => ⟨val, hpayload, hpayload⟩) msg
    obtain ⟨msg', hbody, hbody'⟩ := ih next
    exact ⟨msg', .again (messageField_productive T nesting) (htag.round htype hround) hbody,
      .again (messageField_productive T nesting) (htag.round htype hround) hbody'⟩
  | @message T S nesting tag kind bytes inner inner' body body' htag htype hkind hmessage _ _
      ihinner ih =>
    intro msg
    -- The nested messages are read alike, so the fields are.
    obtain ⟨m, hinner, hinner'⟩ := ihinner S.default
    obtain ⟨next, hround, hround'⟩ := messageField_known _ hkind
      (FieldKind.unmarshal_takes hmessage hinner hinner') msg
    obtain ⟨msg', hbody, hbody'⟩ := ih next
    exact ⟨msg', .again (messageField_productive T _) (htag.round htype hround) hbody,
      .again (messageField_productive T _) (htag.round htype hround') hbody'⟩

/-! ## What is accepted is a message -/

/-- What a known field has read is a scalar or, with a budget one smaller, a message. -/
theorem FieldKind.unmarshal_accepts (hV : V.Local) {kind : FieldKind} {nesting : Int}
    {val : kind.Val} {bs : List UInt8}
    (h : (kind.unmarshal V nesting val (.ofBytes bs)).2.err = none) :
    (∃ type, kind = .scalar type ∧ ∃ payload val' rest, bs = payload ++ rest ∧
      Reader.Takes (type.storage.unmarshal V) payload val') ∨
    (∃ S level, (kind = .message S ∨ kind = .repeated S) ∧ nesting = (level + 1 : Nat) ∧
      (messageLoop V (S.switch V level) level S.default (.ofBytes bs)).2.err = none) := by
  -- A nested message is only entered with a budget left.
  have hmessage : ∀ S : MessageType, (unmarshalNested S.default
      (fun nesting => messageLoop V (S.switch V nesting) nesting S.default) (nesting - 1)
      (.ofBytes bs)).2.err = none → ∃ level : Nat, nesting = (level + 1 : Nat) ∧
      (messageLoop V (S.switch V level) level S.default (.ofBytes bs)).2.err = none := by
    intro S hS
    rw [unmarshalNested] at hS
    split at hS
    · exact absurd hS (Reader.report_err_ne_none _ _)
    · have hlevel : nesting - 1 = ((nesting - 1).toNat : Int) := by omega
      exact ⟨(nesting - 1).toNat, by omega, by rwa [← hlevel]⟩
  cases kind with
  | scalar type =>
    obtain ⟨payload, val', rest, hbs, htakes⟩ := type.storage.unmarshal_local hV bs h
    exact .inl ⟨type, rfl, payload, val', rest, hbs, htakes⟩
  | message S =>
    obtain ⟨level, hnesting, herr⟩ := hmessage S h
    exact .inr ⟨S, level, .inl rfl, hnesting, herr⟩
  | repeated S =>
    obtain ⟨level, hnesting, herr⟩ := hmessage S h
    exact .inr ⟨S, level, .inr rfl, hnesting, herr⟩

/-- All that the decoder accepts is a message in which nothing is inserted. -/
theorem Inserted.of_accepts (hV : V.Local) {T : MessageType} {nesting : Nat} {msg : T.Val}
    {bs : List UInt8}
    (h : (messageLoop V (T.switch V nesting) nesting msg (.ofBytes bs)).2.err = none) :
    ∃ body rest, bs = body ++ rest ∧ Inserted V T nesting body body := by
  -- On the length of the stream: a nested message stands behind a tag.
  induction hlen : bs.length using Nat.strongRecOn generalizing T nesting msg bs with
  | ind len ih =>
    subst hlen
    obtain ⟨herr, hagain⟩ :=
      Reader.loop_split (messageField_productive T nesting) tagRound_sticky h
    obtain ⟨tag, bytes, rest, rfl, htag, hround⟩ := tagRound_split hV herr
    by_cases htype : tag.type = .endTag
    · exact ⟨bytes, rest, rfl, .stop htag htype⟩
    have hshorter : rest.length < (bytes ++ rest).length := by
      have hread := congrArg Prod.snd (htag rest)
      have hconsumes := readTag_consumes ((congrArg Reader.err hread).trans rfl)
      rwa [hread] at hconsumes
    rw [hround htype] at herr hagain
    cases hkind : T.kind? tag.fieldNum with
    | none =>
      simp only [Reader.round, messageField, MessageType.switch_of_none _ hkind] at herr hagain
      -- An unknown field: what `skip` takes.
      obtain ⟨payload, ⟨⟩, rest', rfl, htakes⟩ :=
        skip_local hV tag.type ((nesting : Int) - 1) rest herr
      have hafter := congrArg Prod.snd (htakes rest')
      simp only [skipping] at hafter
      rw [hafter] at hagain
      obtain ⟨herr', hlt⟩ := hagain rfl
      obtain ⟨body, rest'', rfl, hbody⟩ := ih _ hlt herr' rfl
      exact ⟨bytes ++ payload ++ body, rest'', by simp [List.append_assoc],
        .unknown htag htype hkind htakes hbody⟩
    | some kind =>
      -- A known one, by its declared type.
      obtain ⟨get, set, hswitch⟩ := MessageType.switch_of_kind (V := V) hkind
      simp only [Reader.round, messageField, hswitch] at herr hagain
      obtain ⟨hloop, hlt⟩ := hagain trivial
      obtain ⟨type, rfl, payload, val, rest', rfl, htakes⟩ | ⟨S, level, hS, hlevel, hinner⟩ :=
        FieldKind.unmarshal_accepts hV herr
      · simp only [FieldKind.unmarshal, htakes rest'] at hloop hlt
        obtain ⟨body, rest'', rfl, hbody⟩ := ih _ hlt hloop rfl
        exact ⟨bytes ++ payload ++ body, rest'', by simp [List.append_assoc],
          .scalar htag htype hkind htakes hbody⟩
      · obtain rfl : nesting = level + 1 := by omega
        -- The nested message is shorter by its tag.
        obtain ⟨inner, rest', rfl, hinserted⟩ := ih _ hshorter hinner rfl
        obtain ⟨m, htakes, -⟩ := hinserted.takes hV S.default
        obtain ⟨val, hval, -⟩ := FieldKind.unmarshal_takes hS htakes htakes (get msg)
        rw [hval rest'] at hloop hlt
        obtain ⟨body, rest'', rfl, hbody⟩ := ih _ hlt hloop rfl
        exact ⟨bytes ++ inner ++ body, rest'', by simp [List.append_assoc],
          .message htag htype hkind hS hinserted hbody⟩

/-- A decoder looks at nothing behind the message that it reads. -/
theorem unmarshal_local (hV : V.Local) (T : MessageType) :
    Reader.Local fun inp => unmarshal V T inp := by
  intro bs h
  have haccept : (messageLoop V (T.switch V MaxNesting) MaxNesting T.default
      (.ofBytes bs)).2.err = none := h
  obtain ⟨body, rest, hbs, hinserted⟩ := Inserted.of_accepts hV haccept
  obtain ⟨msg, htakes, -⟩ := hinserted.takes hV T.default
  exact ⟨body, msg, rest, hbs, htakes⟩

/-- The decoder reads the same value off a message that it accepts when unknown fields are
inserted anywhere in it, and stops at the same `End`. -/
theorem unknown_fields_ignored (hV : V.Local) (T : MessageType) {body rest : List UInt8}
    (haccept : (unmarshal V T (.ofBytes (body ++ rest))).2.err = none)
    (hend : (unmarshal V T (.ofBytes (body ++ rest))).2.unread = rest) :
    Inserted V T MaxNesting body body ∧
    ∀ body', Inserted V T MaxNesting body body' →
      unmarshal V T (.ofBytes (body' ++ rest)) = unmarshal V T (.ofBytes (body ++ rest)) := by
  have heq : ∀ bs, unmarshal V T (.ofBytes bs) =
      messageLoop V (T.switch V MaxNesting) MaxNesting T.default (.ofBytes bs) := fun _ => rfl
  rw [heq] at haccept hend
  constructor
  · obtain ⟨body', rest', hbs, hinserted⟩ := Inserted.of_accepts hV haccept
    obtain ⟨msg, htakes, -⟩ := hinserted.takes hV T.default
    rw [hbs, htakes rest'] at hend
    have hrest : rest' = rest := hend
    subst hrest
    rw [List.append_cancel_right hbs]
    exact hinserted
  · intro body' hinserted
    obtain ⟨msg, htakes, htakes'⟩ := hinserted.takes hV T.default
    rw [heq, heq, htakes rest, htakes' rest]

/-- A message with a nested one, and fields inserted into both: a varint, a group whose tags
look like known fields and like ends, and bytes. -/
theorem unknown_fields_ignored_nested :
    unmarshal .leb128 (.field 1 (.message (.field 1 (.scalar .bool) .empty)) .empty)
      (.ofBytes [0x18, 0xac, 0x02, 0x0b, 0x13, 0x08, 0x07, 0x0b, 0x2c, 0x4c, 0x08, 0x01, 0x04, 0x12,
        0x02, 0x04, 0x04, 0x04, 0xf0]) =
    unmarshal .leb128 (.field 1 (.message (.field 1 (.scalar .bool) .empty)) .empty)
      (.ofBytes [0x0b, 0x08, 0x01, 0x04, 0x04, 0xf0]) := by
  have hbyte : ∀ b : UInt8, b < 128 → Tagged .leb128 (.ofValue b.toUInt32) [b] :=
    fun b hb => .byte Varint.leb128_lawful hb
  have hstop : ∀ T nesting, Inserted .leb128 T nesting [0x04] [0x04] :=
    fun T nesting => .stop (hbyte 0x04 (by decide)) (by decide)
  have hvarInt : ∀ level, WirePayload .leb128 level .varInt [0xac, 0x02] :=
    fun level => .varInt (v := 300) fun rest => rfl
  have hgroup : WirePayload .leb128 127 .start [0x08, 0x07, 0x0b, 0x2c, 0x4c] := by
    have hinner : WirePayload .leb128 126 .start [0x2c] :=
      .group (.stop (hbyte 0x2c (by decide)) (by decide))
    have hend : WireGroup .leb128 126 [0x4c] := .stop (hbyte 0x4c (by decide)) (by decide)
    have hnumber : WirePayload .leb128 126 .varInt [0x07] := .varInt (v := 7) fun rest => rfl
    exact .group (.field (hbyte 0x08 (by decide)) hnumber
      (.field (hbyte 0x0b (by decide)) hinner hend))
  have hlen : WirePayload .leb128 128 .len [0x02, 0x04, 0x04] := by
    have hlength : Varint.leb128.readUint32.Reads [0x02] 2 := fun rest => rfl
    have hbytes : ([0x04, 0x04] : List UInt8).length = (2 : UInt32).toNat := rfl
    exact .len hlength hbytes
  have htrue : Reader.Takes (ScalarType.bool.storage.unmarshal .leb128) [0x01] true :=
    fun rest => rfl
  have hinner : Inserted .leb128 (.field 1 (.scalar .bool) .empty) 127 [0x08, 0x01, 0x04]
      [0x13, 0x08, 0x07, 0x0b, 0x2c, 0x4c, 0x08, 0x01, 0x04] :=
    .insert (hbyte 0x13 (by decide)) rfl hgroup
      (.scalar (hbyte 0x08 (by decide)) (by decide) rfl htrue (hstop _ _))
  exact (@unknown_fields_ignored .leb128 Varint.leb128_local _ [0x0b, 0x08, 0x01, 0x04, 0x04] [0xf0]
    (by decide) (by decide)).2 _ (.insert (hbyte 0x18 (by decide)) rfl (hvarInt 128)
      (.message (hbyte 0x0b (by decide)) (by decide) rfl (.inl rfl) hinner
        (.insert (hbyte 0x12 (by decide)) rfl hlen (hstop _ _))))

end SerialRpc
