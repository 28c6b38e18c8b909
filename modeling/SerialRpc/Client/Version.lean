import SerialRpc.Client.Connect

/-!
# The protocol version (client.cc:549-650, README.md:295-297)

The client compares the version of a hello with its own where it comes upon the field. The
fields of a hello come in any order and any number of times, and none of them has to come.

- `Preface`: the raw lines and logs before a hello.
- `HelloBody`: the body of a hello, with the protocol versions in it.
- `Greeted.hasHello`: a client runs only behind such a hello, all of whose versions are its
  own. `HasHello.greeted`: without stubs it does run, even if there is no version.
- `version_checked_iff`: the version is checked exactly of the hellos that have the field.
-/

namespace SerialRpc.Client

open ByteStream

section Definitions

variable (V : Varint)

/-- Raw lines and logs. -/
inductive Preface : List UInt8 → Prop where
  | nil : Preface []
  | line {line rest : List UInt8} (hline : RawLine line) (h : Preface rest) :
      Preface (line ++ rest)
  | log {msg rest : List UInt8} {text : Str} (hlog : Reader.Takes (handleLog V) msg text)
      (h : Preface rest) : Preface (ServerMessageType.log.toUInt8 :: msg ++ rest)

/-- A field of a hello, with the protocol version in it if it is one. -/
def versionField (tag : Tag) (inp : In) : List UInt32 × In :=
  if tag.fieldNum = 2 then ([], (unmarshal V Protocol.serviceDef inp).2)
  else if tag.fieldNum = 1 then
    ([(inp.read V.readUint32 .baselib).1], (inp.read V.readUint32 .baselib).2)
  else ([], skip V tag.type MaxNesting inp)

/-- Fields in any order up to an `End`, with the protocol versions in them. -/
inductive HelloBody : List UInt32 → List UInt8 → Prop where
  | stop {tag : Tag} {bytes : List UInt8} (htag : Tagged V tag bytes)
      (htype : tag.type = .endTag) : HelloBody [] bytes
  | field {tag : Tag} {bytes payload rest : List UInt8} {versions versions' : List UInt32}
      (htag : Tagged V tag bytes) (htype : tag.type ≠ .endTag)
      (hfield : Reader.Takes (versionField V tag) payload versions)
      (h : HelloBody versions' rest) : HelloBody (versions ++ versions') (bytes ++ payload ++ rest)

/-- The stream is a hello with a body that has such versions, behind raw lines and logs. -/
def HasHello (versions : List UInt32) (bs : List UInt8) : Prop :=
  ∃ preface body rest, bs = preface ++ ServerMessageType.serverHello.toUInt8 :: (body ++ rest) ∧
    Preface V preface ∧ HelloBody V versions body

/-- `client_hello` has read the stream without an error: the client's state is `Running`. -/
def Greeted (stubs : List Stub) (bs : List UInt8) : Prop :=
  (Reader.loop (clientHelloRound V) (newInbox stubs) (.ofBytes bs)).2.err = none

end Definitions

variable {V : Varint}

/-! ## Bodies -/

theorem versionField_local (hV : V.Local) (tag : Tag) : Reader.Local (versionField V tag) := by
  unfold versionField
  split
  · exact (unmarshal_local hV Protocol.serviceDef).map fun _ => []
  · split
    · exact (Reader.Local.read hV.uint32 Err.baselib).map fun version => [version]
    · exact (skip_local hV tag.type MaxNesting).map fun _ => []

/-- The versions in a body are told by its bytes. -/
theorem HelloBody.unique {versions versions' : List UInt32} {body body' rest rest' : List UInt8}
    (h : HelloBody V versions body) (h' : HelloBody V versions' body')
    (hbs : body ++ rest = body' ++ rest') : versions = versions' := by
  induction h generalizing versions' body' with
  | stop htag htype =>
    cases h' with
    | stop _ _ => rfl
    | field htag' htype' _ _ =>
      rw [List.append_assoc, List.append_assoc] at hbs
      -- One tag cannot both end the body and open a field.
      obtain ⟨-, rfl⟩ := htag.unique htag' hbs
      exact absurd htype htype'
  | field htag htype hfield _ ih =>
    cases h' with
    | stop htag' htype' =>
      rw [List.append_assoc, List.append_assoc] at hbs
      obtain ⟨-, rfl⟩ := htag.unique htag' hbs
      exact absurd htype' htype
    | field htag' _ hfield' h' =>
      rw [List.append_assoc, List.append_assoc, List.append_assoc, List.append_assoc] at hbs
      obtain ⟨rfl, rfl⟩ := htag.unique htag' hbs
      have hpayload := List.append_cancel_left hbs
      obtain ⟨rfl, rfl⟩ := hfield.unique hfield' hpayload
      rw [ih h' (List.append_cancel_left hpayload)]

theorem readServiceDef_accepts {s : Handshake} {inp : In}
    (h : (readServiceDef V s inp).reader.err = none) :
    (readServiceDef V s inp).again = true ∧
      (readServiceDef V s inp).reader = (unmarshal V Protocol.serviceDef inp).2 := by
  have heq : Protocol.serviceDef.unmarshalBody V MaxNesting inp =
      unmarshal V Protocol.serviceDef inp := rfl
  simp only [readServiceDef, heq] at h ⊢
  split at h
  · rename_i herr
    exact absurd h (Option.isSome_iff_ne_none.mp herr)
  · rename_i herr
    rw [if_neg herr]
    cases hstubs : handleServiceDef (unmarshal V Protocol.serviceDef inp).1 s.offset s.stubs with
    | error e =>
      rw [hstubs] at h
      exact absurd h (Reader.report_err_ne_none _ _)
    | ok stubs => exact ⟨rfl, rfl⟩

theorem readProtocolVersion_accepts {s : Handshake} {inp : In}
    (h : (readProtocolVersion V s inp).reader.err = none) :
    (inp.read V.readUint32 Err.baselib).1 = ProtocolVersion ∧
      readProtocolVersion V s inp = ⟨true, s, (inp.read V.readUint32 Err.baselib).2⟩ := by
  simp only [readProtocolVersion] at h ⊢
  split at h
  · rename_i herr
    exact absurd h (Option.isSome_iff_ne_none.mp herr)
  · rename_i herr
    split at h
    · exact absurd h (Reader.report_err_ne_none _ _)
    · rename_i hversion
      rw [if_neg herr, if_neg hversion]
      exact ⟨not_not.mp hversion, rfl⟩

/-- A field that the client accepts has no version but its own. -/
theorem handshakeField_version {tag : Tag} {s : Handshake} {inp : In}
    (h : (handshakeField V tag s inp).reader.err = none) :
    (handshakeField V tag s inp).again = true ∧
      (handshakeField V tag s inp).reader = (versionField V tag inp).2 ∧
      ∀ version ∈ (versionField V tag inp).1, version = ProtocolVersion := by
  by_cases hservices : tag.fieldNum = 2
  · simp only [handshakeField, versionField, if_pos hservices] at h ⊢
    obtain ⟨hagain, hreader⟩ := readServiceDef_accepts h
    exact ⟨hagain, hreader, fun _ hmem => absurd hmem List.not_mem_nil⟩
  · by_cases hversion : tag.fieldNum = 1
    · simp only [handshakeField, versionField, if_neg hservices, if_pos hversion] at h ⊢
      obtain ⟨hown, hround⟩ := readProtocolVersion_accepts h
      rw [hround]
      exact ⟨rfl, rfl, fun version hmem => List.mem_singleton.mp hmem ▸ hown⟩
    · simp only [handshakeField, versionField, if_neg hservices, if_neg hversion] at h ⊢
      exact ⟨Option.isNone_iff_eq_none.mpr h, trivial,
        fun _ hmem => absurd hmem List.not_mem_nil⟩

/-- Without stubs the client accepts a field with its own version, and any other one. -/
theorem handshakeField_own (tag : Tag) {s : Handshake} (hstubs : s.stubs = []) (inp : In)
    (h : (versionField V tag inp).2.err = none)
    (hown : ∀ version ∈ (versionField V tag inp).1, version = ProtocolVersion) :
    ∃ offset, handshakeField V tag s inp = ⟨true, ⟨offset, []⟩, (versionField V tag inp).2⟩ := by
  obtain ⟨offset, stubs⟩ := s
  obtain rfl : stubs = [] := hstubs
  by_cases hservices : tag.fieldNum = 2
  · simp only [handshakeField, versionField, if_pos hservices] at h ⊢
    have heq : Protocol.serviceDef.unmarshalBody V MaxNesting inp =
        unmarshal V Protocol.serviceDef inp := rfl
    refine ⟨offset + Protocol.defNumEndpoints (unmarshal V Protocol.serviceDef inp).1, ?_⟩
    simp only [readServiceDef, heq, h, Option.isSome_none, Bool.false_eq_true, if_false,
      handleServiceDef]
  · by_cases hversion : tag.fieldNum = 1
    · simp only [handshakeField, versionField, if_neg hservices, if_pos hversion] at h hown ⊢
      have hread := hown _ List.mem_cons_self
      refine ⟨offset, ?_⟩
      simp only [readProtocolVersion, h, hread, Option.isSome_none, Bool.false_eq_true, if_false,
        ne_eq, not_true_eq_false]
    · simp only [handshakeField, versionField, if_neg hservices, if_neg hversion] at h ⊢
      exact ⟨offset, by simp only [h, Option.isNone_none]⟩

/-- What the client accepts as the body of a hello is one, and all its versions are its own. -/
theorem HelloBody.of_accepts (hV : V.Local) {s : Handshake} {bs : List UInt8}
    (h : (Reader.loop (tagRound V (handshakeField V)) s (.ofBytes bs)).2.err = none) :
    ∃ versions body rest, bs = body ++ rest ∧ HelloBody V versions body ∧
      ∀ version ∈ versions, version = ProtocolVersion := by
  -- On the length of the stream: every round reads a tag.
  induction hlen : bs.length using Nat.strongRecOn generalizing s bs with
  | ind len ih =>
    subst hlen
    obtain ⟨herr, hagain⟩ := Reader.loop_split (tagRound_productive handshakeField_consuming)
      tagRound_sticky h
    obtain ⟨tag, bytes, rest, rfl, htag, hround⟩ := tagRound_split hV herr
    by_cases htype : tag.type = .endTag
    · exact ⟨[], bytes, rest, rfl, .stop htag htype, nofun⟩
    · rw [hround htype] at herr hagain
      -- The field is read as its number says, and checked if it is a version.
      obtain ⟨hgoes, hreader, hown⟩ := handshakeField_version herr
      simp only [Reader.round] at hagain
      obtain ⟨hloop, hlt⟩ := hagain hgoes
      have hfield : (versionField V tag (.ofBytes rest)).2.err = none := hreader ▸ herr
      obtain ⟨payload, versions, rest', rfl, htakes⟩ := versionField_local hV tag rest hfield
      rw [hreader, htakes rest'] at hloop hlt
      rw [htakes rest'] at hown
      obtain ⟨versions', body, rest'', rfl, hbody, hown'⟩ := ih _ hlt hloop rfl
      refine ⟨versions ++ versions', bytes ++ payload ++ body, rest'', by
        simp [List.append_assoc], .field htag htype htakes hbody, fun version hmem => ?_⟩
      rcases List.mem_append.mp hmem with hmem | hmem
      · exact hown version hmem
      · exact hown' version hmem

/-- Without stubs the client accepts every body whose versions are its own. -/
theorem HelloBody.accepts {versions : List UInt32} {body : List UInt8}
    (h : HelloBody V versions body) :
    (∀ version ∈ versions, version = ProtocolVersion) → ∀ (s : Handshake), s.stubs = [] →
      ∀ rest, (Reader.loop (tagRound V (handshakeField V)) s (.ofBytes (body ++ rest))).2.err =
        none := by
  have hproductive := tagRound_productive (V := V) (handshakeField_consuming (V := V))
  induction h with
  | @stop tag bytes htag htype =>
    intro _ s _ rest
    rw [Reader.Takes.last hproductive (htag.endTag htype s) rest, Reader.err_ofBytes]
  | @field tag bytes payload after versions versions' htag htype hfield _ ih =>
    intro hown s hstubs rest
    have htakes := hfield (after ++ rest)
    obtain ⟨offset, hround⟩ := handshakeField_own tag hstubs
      (.ofBytes (payload ++ (after ++ rest))) (by rw [htakes, Reader.err_ofBytes])
      (by
        rw [htakes]
        exact fun version hmem => hown version (List.mem_append_left _ hmem))
    rw [htakes] at hround
    -- The round is that of the field: its tag ends nothing.
    have hstop : ¬ ((readTag V (.ofBytes (bytes ++ (payload ++ (after ++ rest))))).2.err ≠ none ∨
        (readTag V (.ofBytes (bytes ++ (payload ++ (after ++ rest))))).1.type = .endTag) := by
      rw [htag, Reader.err_ofBytes]
      exact fun h => h.elim (absurd rfl) htype
    rw [tagLoop_eq hproductive, List.append_assoc, List.append_assoc, if_neg hstop, htag, hround]
    exact ih (fun version hmem => hown version (List.mem_append_right _ hmem)) _ rfl rest

/-! ## What is before a hello -/

/-- A line that `print_line` reads to its end. -/
theorem rawLine_of_printLine :
    ∀ {bs : List UInt8} {b : UInt8}, (printLine b (.ofBytes bs)).err = none →
      ∃ content rest, b :: bs = content ++ 0x0a :: rest ∧ 0x0a ∉ content
  | bs, b, h => by
    by_cases hb : b = 0x0a
    · exact ⟨[], bs, by rw [hb, List.nil_append], nofun⟩
    · rw [printLine, Reader.loop_eq printLineRound_productive, printLineRound, if_neg hb] at h
      cases bs with
      | nil => exact absurd h (by simp [Reader.read, Reader.ofBytes, Read.byte])
      | cons c bs =>
        have hrest : (printLine c (.ofBytes bs)).err = none := h
        obtain ⟨content, rest, hbs, hcontent⟩ := rawLine_of_printLine hrest
        refine ⟨b :: content, rest, congrArg (b :: ·) hbs, fun hmem => ?_⟩
        rcases List.mem_cons.mp hmem with hmem | hmem
        · exact hb hmem.symm
        · exact hcontent hmem

/-- A line opens with a printable byte. -/
theorem rawLine_of_printable {b : UInt8} (hb : isPrintable b = true) {bs content rest : List UInt8}
    (hbs : b :: bs = content ++ 0x0a :: rest) (hcontent : 0x0a ∉ content) :
    RawLine (content ++ [0x0a]) := by
  cases content with
  | nil => exact .newline
  | cons c content =>
    obtain ⟨rfl, -⟩ := List.cons.inj hbs
    rw [List.mem_cons, not_or] at hcontent
    exact .text hb (Ne.symm hcontent.1) hcontent.2

/-- A round that succeeds has read a line, a log, or a hello. -/
theorem clientHelloRound_split (hV : V.Local) {s : Inbox Unit} {bs : List UInt8}
    (h : (Reader.round (clientHelloRound V) s (.ofBytes bs)).2.err = none) :
    (∃ line rest, bs = line ++ rest ∧ RawLine line) ∨
    (∃ msg text rest, bs = ServerMessageType.log.toUInt8 :: msg ++ rest ∧
      Reader.Takes (handleLog V) msg text) ∨
    ∃ hello, bs = ServerMessageType.serverHello.toUInt8 :: hello := by
  cases bs with
  | nil => exact absurd h (by simp [Reader.round, clientHelloRound, Reader.read, Reader.ofBytes,
      Read.byte])
  | cons b bs =>
    have hread : (Reader.ofBytes (b :: bs)).read Read.byte Err.baselib = (b, .ofBytes bs) := rfl
    simp only [Reader.round, clientHelloRound, hread, Reader.err_ofBytes, Option.isSome_none,
      Bool.false_eq_true, if_false] at h
    by_cases hb : isPrintable b = true
    · -- A raw line.
      simp only [hb, if_true, Inbox.goOn] at h
      obtain ⟨content, rest, hbs, hcontent⟩ := rawLine_of_printLine h
      exact .inl ⟨content ++ [0x0a], rest, by simp [hbs], rawLine_of_printable hb hbs hcontent⟩
    · by_cases hlog : b = ServerMessageType.log.toUInt8
      · -- A log, whose text is read to its end.
        simp only [hlog, if_true, Inbox.goOn, processLog] at h
        have herr : (handleLog V (.ofBytes bs)).2.err = none := by
          by_contra herr
          have hsome := Option.isSome_iff_ne_none.mpr herr
          simp [hsome] at h
          exact herr h
        obtain ⟨msg, text, rest, rfl, htakes⟩ := handleLog_local hV bs herr
        exact .inr (.inl ⟨msg, text, rest, by rw [hlog]; rfl, htakes⟩)
      · by_cases hhello : b = ServerMessageType.serverHello.toUInt8
        · exact .inr (.inr ⟨bs, by rw [hhello]⟩)
        · -- Any other type is an error before the hello.
          simp only [hb, hlog, hhello, ne_eq, not_false_eq_true, if_true, if_false,
            Inbox.fail] at h
          exact absurd h (Reader.report_err_ne_none _ _)

/-- A round takes a log. -/
theorem clientHelloRound_log (hV : V.Local) {msg : List UInt8} {text : Str}
    (hlog : Reader.Takes (handleLog V) msg text) (s : Inbox Unit) :
    Reader.Takes (Reader.round (clientHelloRound V) s) (ServerMessageType.log.toUInt8 :: msg)
      (true, { s with processed := s.processed ++ [.log text] }) := by
  refine HandshakeMessage.takes hV (.log ?_)
  have hread := hlog []
  rw [List.append_nil] at hread
  simp only [processLog, hread, Reader.err_ofBytes, Option.isSome_none, Bool.false_eq_true,
    if_false]

theorem clientHelloRound_sticky (s : Inbox Unit) :
    Reader.Sticky (Reader.round (clientHelloRound V) s) := by
  intro r h
  have hread := Reader.Sticky.read Read.byte Err.baselib r h
  simp only [Reader.round, clientHelloRound, Option.isSome_iff_ne_none.mpr hread, if_true]
  exact hread

/-- The hello ends the loop. -/
theorem clientHelloRound_hello (s : Inbox Unit) (hello : List UInt8) :
    Reader.round (clientHelloRound V) s
        (.ofBytes (ServerMessageType.serverHello.toUInt8 :: hello)) =
      ((false, { s with stubs := (readServicesDef V s.stubs (.ofBytes hello)).1 }),
        (readServicesDef V s.stubs (.ofBytes hello)).2) := rfl

/-- A stream that is read without an error is a hello behind lines and logs. -/
theorem Preface.of_accepts (hV : V.Local) {s : Inbox Unit} {bs : List UInt8}
    (h : (Reader.loop (clientHelloRound V) s (.ofBytes bs)).2.err = none) :
    ∃ preface hello, bs = preface ++ ServerMessageType.serverHello.toUInt8 :: hello ∧
      Preface V preface ∧ (readServicesDef V s.stubs (.ofBytes hello)).2.err = none := by
  -- On the length of the stream: a line has its newline, and a log its type.
  induction hlen : bs.length using Nat.strongRecOn generalizing s bs with
  | ind len ih =>
    subst hlen
    obtain ⟨herr, hagain⟩ :=
      Reader.loop_split clientHelloRound_productive clientHelloRound_sticky h
    obtain ⟨line, rest, rfl, hline⟩ | ⟨msg, text, rest, rfl, hlog⟩ | ⟨hello, rfl⟩ :=
      clientHelloRound_split hV herr
    · rw [clientHelloRound_line hline s rest] at hagain
      obtain ⟨hloop, hlt⟩ := hagain rfl
      obtain ⟨preface, hello, rfl, hpreface, hread⟩ := ih _ hlt hloop rfl
      exact ⟨line ++ preface, hello, (List.append_assoc ..).symm, .line hline hpreface, hread⟩
    · rw [clientHelloRound_log hV hlog s rest] at hagain
      obtain ⟨hloop, hlt⟩ := hagain rfl
      obtain ⟨preface, hello, rfl, hpreface, hread⟩ := ih _ hlt hloop rfl
      exact ⟨_, hello, (List.append_assoc ..).symm, .log hlog hpreface, hread⟩
    · rw [clientHelloRound_hello] at herr
      exact ⟨[], hello, rfl, .nil, herr⟩

/-- The loop passes over lines and logs. -/
theorem Preface.loop (hV : V.Local) {preface : List UInt8} (h : Preface V preface) :
    ∀ (s : Inbox Unit) (rest : List UInt8), ∃ s', s'.stubs = s.stubs ∧
      Reader.loop (clientHelloRound V) s (.ofBytes (preface ++ rest)) =
        Reader.loop (clientHelloRound V) s' (.ofBytes rest) := by
  induction h with
  | nil => exact fun s _ => ⟨s, rfl, rfl⟩
  | line hline _ ih =>
    intro s rest
    rw [List.append_assoc, (clientHelloRound_line hline s).step clientHelloRound_productive]
    exact ih s rest
  | @log msg after text hlog _ ih =>
    intro s rest
    rw [List.append_assoc, (clientHelloRound_log hV hlog s).step clientHelloRound_productive]
    obtain ⟨s', hstubs, hloop⟩ := ih { s with processed := s.processed ++ [.log text] } rest
    exact ⟨s', hstubs, hloop⟩

/-- What a round takes before it goes on. -/
def Passed (V : Varint) (piece : List UInt8) : Prop :=
  ∃ s, Reader.Takes (Reader.round (clientHelloRound V) (newInbox [])) piece (true, s)

theorem Preface.split (hV : V.Local) {preface : List UInt8} (h : Preface V preface) :
    preface = [] ∨ ∃ piece rest, preface = piece ++ rest ∧ Passed V piece ∧ Preface V rest := by
  cases h with
  | nil => exact .inl rfl
  | line hline h => exact .inr ⟨_, _, rfl, ⟨_, clientHelloRound_line hline _⟩, h⟩
  | log hlog h => exact .inr ⟨_, _, rfl, ⟨_, clientHelloRound_log hV hlog _⟩, h⟩

/-- The loop does not go on at a hello. -/
theorem Passed.ne_hello {piece rest hello : List UInt8} (h : Passed V piece) :
    piece ++ rest ≠ ServerMessageType.serverHello.toUInt8 :: hello := by
  intro hbs
  obtain ⟨s, htakes⟩ := h
  have hround := htakes rest
  rw [hbs, clientHelloRound_hello] at hround
  cases congrArg (fun x => x.1.1) hround

/-- Where the hello begins is told by the stream. -/
theorem Preface.unique (hV : V.Local) {preface preface' hello hello' : List UInt8}
    (h : Preface V preface) (h' : Preface V preface')
    (hbs : preface ++ ServerMessageType.serverHello.toUInt8 :: hello =
      preface' ++ ServerMessageType.serverHello.toUInt8 :: hello') : hello = hello' := by
  induction hlen : preface.length using Nat.strongRecOn generalizing preface preface' with
  | ind len ih =>
    subst hlen
    rcases h.split hV with rfl | ⟨piece, rest, rfl, hpiece, hrest⟩
    · rcases h'.split hV with rfl | ⟨piece', rest', rfl, hpiece', -⟩
      · -- Both hellos are in front.
        exact (List.cons.inj hbs).2
      · rw [List.nil_append, List.append_assoc] at hbs
        exact absurd hbs.symm hpiece'.ne_hello
    · rcases h'.split hV with rfl | ⟨piece', rest', rfl, hpiece', hrest'⟩
      · rw [List.nil_append, List.append_assoc] at hbs
        exact absurd hbs hpiece.ne_hello
      · rw [List.append_assoc, List.append_assoc] at hbs
        -- Both streams go on with a piece, and it is the same one.
        have hne : piece ≠ [] := by
          rintro rfl
          obtain ⟨s, htakes⟩ := hpiece
          cases congrArg (fun x => x.1.1) (htakes [])
        obtain ⟨s, htakes⟩ := hpiece
        obtain ⟨s', htakes'⟩ := hpiece'
        obtain ⟨rfl, -⟩ := htakes.unique htakes' hbs
        have hlt : rest.length < (piece ++ rest).length := by
          rw [List.length_append]
          exact Nat.lt_add_of_pos_left (List.length_pos_iff.mpr hne)
        exact ih _ hlt hrest hrest' (List.append_cancel_left hbs) rfl

/-! ## The hello -/

/-- A client that runs has read a hello whose versions are its own. -/
theorem Greeted.hasHello (hV : V.Local) {stubs : List Stub} {bs : List UInt8}
    (h : Greeted V stubs bs) :
    ∃ versions, HasHello V versions bs ∧ ∀ version ∈ versions, version = ProtocolVersion := by
  obtain ⟨preface, hello, rfl, hpreface, hread⟩ := Preface.of_accepts hV h
  obtain ⟨versions, body, rest, rfl, hbody, hown⟩ := HelloBody.of_accepts hV hread
  exact ⟨versions, ⟨preface, body, rest, rfl, hpreface, hbody⟩, hown⟩

/-- A client without stubs runs behind every hello whose versions are its own. -/
theorem HasHello.greeted (hV : V.Local) {versions : List UInt32} {bs : List UInt8}
    (h : HasHello V versions bs) (hown : ∀ version ∈ versions, version = ProtocolVersion) :
    Greeted V [] bs := by
  obtain ⟨preface, body, rest, rfl, hpreface, hbody⟩ := h
  obtain ⟨s, hstubs, hloop⟩ := hpreface.loop hV (newInbox [])
    (ServerMessageType.serverHello.toUInt8 :: (body ++ rest))
  rw [Greeted, hloop, clientHello_open, readServicesDef, hstubs]
  exact hbody.accepts hown ⟨1, []⟩ rfl rest

theorem HasHello.unique (hV : V.Local) {versions versions' : List UInt32} {bs : List UInt8}
    (h : HasHello V versions bs) (h' : HasHello V versions' bs) : versions = versions' := by
  obtain ⟨preface, body, rest, rfl, hpreface, hbody⟩ := h
  obtain ⟨preface', body', rest', hbs, hpreface', hbody'⟩ := h'
  exact hbody.unique hbody' (hpreface.unique hV hpreface' hbs)

/-- For every stream: the clients that run behind it have read a hello with a protocol
version, and with none but their own, if and only if it is not a hello without one. -/
theorem version_checked_iff {V : Varint} (hV : V.Local) (bs : List UInt8) :
    (∀ stubs, Greeted V stubs bs → ∃ versions, HasHello V versions bs ∧
      ProtocolVersion ∈ versions ∧ ∀ version ∈ versions, version = ProtocolVersion) ↔
      ¬ HasHello V [] bs := by
  constructor
  · intro h hnone
    obtain ⟨versions, hhello, hmem, -⟩ := h [] (hnone.greeted hV nofun)
    rw [hhello.unique hV hnone] at hmem
    cases hmem
  · intro hsome stubs h
    obtain ⟨versions, hhello, hown⟩ := h.hasHello hV
    refine ⟨versions, hhello, ?_, hown⟩
    cases versions with
    | nil => exact absurd hhello hsome
    | cons version versions =>
      rw [hown version List.mem_cons_self]
      exact List.mem_cons_self

/-- A log, and the hello of a server without services. -/
theorem version_checked_own :
    (∀ stubs, Greeted .leb128 stubs [0xf3, 2, 104, 105, 0xf9, 8, 1, 4] →
      ∃ versions, HasHello .leb128 versions [0xf3, 2, 104, 105, 0xf9, 8, 1, 4] ∧
        ProtocolVersion ∈ versions ∧ ∀ version ∈ versions, version = ProtocolVersion) ↔
      ¬ HasHello .leb128 [] [0xf3, 2, 104, 105, 0xf9, 8, 1, 4] :=
  version_checked_iff Varint.leb128_local _

/-- A hello that says nothing of the version: the client runs. -/
theorem version_missing :
    Greeted .leb128 [] [ServerMessageType.serverHello.toUInt8, endByte] ∧
      ¬ ∃ versions, HasHello .leb128 versions [ServerMessageType.serverHello.toUInt8, endByte] ∧
        ProtocolVersion ∈ versions := by
  refine ⟨rfl, ?_⟩
  rintro ⟨versions, hhello, hmem⟩
  have hbody : HelloBody .leb128 [] [endByte] :=
    .stop (.byte Varint.leb128_lawful (by decide)) (by decide)
  have hnone : HasHello .leb128 [] [ServerMessageType.serverHello.toUInt8, endByte] :=
    ⟨[], [endByte], [], rfl, .nil, hbody⟩
  rw [hhello.unique Varint.leb128_local hnone] at hmem
  cases hmem

end SerialRpc.Client
