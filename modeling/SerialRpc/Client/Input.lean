import SerialRpc.Encoding.UnknownFields
import SerialRpc.Service.Hello

/-!
# What the client reads (client.cc:20-34, 319-481, 528-650)

The server's bytes go to the client's input worker: the hello, and then replies, events and
logs. A device may write lines of text among them. A line is known by its first byte, which
is printable, and the messages by their first byte too, which is not; where a message ends
only its decoder knows.

- `printLine`, `handleLog`, `readChunked`, `handleReply`, `handleEvent`: what the worker
  reads. `Decoder`: what the pending call or the callback reads.
- `clientHelloRound`, `inputRound`, `input`: the two loops of the worker.
- `raw_text_transparent`: with lines before the hello and between messages, the client
  processes the same messages as without, and comes to the same position.
-/

namespace SerialRpc.Client

open ByteStream

/-! ## Text -/

/-- `is_printable` (internal.cc:6-12). -/
def isPrintable (c : UInt8) : Bool :=
  (0x20 ≤ c && c ≤ 0x7e) || c = 0x0a || c = 0x0d || c = 0x09 || c = 0x0b

/-- The loop of `print_line`, from a byte that has been read. -/
def printLineRound : Body UInt8 Err := fun b inp =>
  if b = 0x0a then ⟨false, b, inp⟩
  else
    let next := inp.read Read.byte .baselib
    ⟨next.2.err.isNone, next.1, next.2⟩

/-- `print_line` (client.cc:20-34). What it prints goes nowhere here. -/
def printLine (b : UInt8) (inp : In) : In := (Reader.loop printLineRound b inp).2

/-- A line of text: a printable byte and any bytes up to a newline, or a newline alone. -/
inductive RawLine : List UInt8 → Prop
  | newline : RawLine [0x0a]
  | text {b : UInt8} {content : List UInt8} (hb : isPrintable b = true) (hne : b ≠ 0x0a)
      (hcontent : 0x0a ∉ content) : RawLine (b :: (content ++ [0x0a]))

/-- `MaxStringSize` (encoding.cc:18). -/
def MaxStringSize : Nat := 16 * 1024

section Bytes

variable (V : Varint)

/-- `handle_log` (client.cc:408-439), with the text that it prints. -/
def handleLog (inp : In) : Str × In :=
  let nbytes := inp.read V.readUint32 .baselib
  if nbytes.2.err.isSome then ([], nbytes.2)
  else if nbytes.1.toNat > MaxStringSize then
    ([], nbytes.2.report (.text "log message too big"))
  else nbytes.2.read (Read.full nbytes.1.toNat) .baselib

/-- The `n` bytes that `expand` adds to a text, with what is read into them. A read that ends
early leaves the rest of them unwritten, which is zero here. -/
def readInto (n : Nat) (read : List UInt8) : Str := read ++ List.replicate (n - read.length) 0

/-- The loop of `read_chunked`, with the text so far. The text is expanded before the read. -/
def chunkRound : Body Str Err := fun s inp =>
  let n := inp.read V.readUint32 .baselib
  if n.2.err.isSome then ⟨false, s, n.2⟩
  else if n.1 = 0 then ⟨false, s, n.2⟩
  else if s.length + n.1.toNat > MaxStringSize then
    ⟨false, s, n.2.report (.text "chunked message too big")⟩
  else
    let b := n.2.read (Read.full n.1.toNat) .baselib
    ⟨b.2.err.isNone, s ++ readInto n.1.toNat b.1, b.2⟩

/-- `read_chunked` (encoding_impl.cc:363-389). -/
def readChunked (inp : In) : Str × In := Reader.loop (chunkRound V) [] inp

end Bytes

/-! ## Decoders -/

/-- What a caller of `call_raw` decodes a reply with: it reads the stream, and is done with
it where its own bytes say so. -/
structure RawDecoder (ρ : Type) where
  unmarshal : In → ρ × In
  suffix : ∀ inp, (unmarshal inp).2.unread <:+ inp.unread
  isLocal : Reader.Local unmarshal

/-- How a call decodes its reply, and a callback its event: by the generated code of a message
type, if there is one, or by a decoder of the caller's own. -/
inductive Decoder (ρ : Type) where
  | void
  | message (T : MessageType)
  | raw (decoder : RawDecoder ρ)

section Decoders

variable {ρ : Type}

@[reducible] def Decoder.Val : Decoder ρ → Type
  | .void => Unit
  | .message T => T.Val
  | .raw _ => ρ

/-- `unmarshal`, or `unmarshal_raw`, or `handle_$name$` up to the callback. -/
def Decoder.run (V : Varint) : (decoder : Decoder ρ) → In → decoder.Val × In
  | .void, inp => ((), inp)
  | .message T, inp => unmarshal V T inp
  | .raw decoder, inp => decoder.unmarshal inp

/-- What the worker has made of a message. -/
inductive Processed (ρ : Type) where
  | reply (decoder : Decoder ρ) (val : decoder.Val)
  | errorReply (text : Str)
  | event (eventId : UInt32) (decoder : Decoder ρ) (val : decoder.Val)
  | log (text : Str)

/-- What the worker shares with the callers: the calls that wait, in their order, the
callbacks by event id, and whether the client has been closed. -/
structure Pending (ρ : Type) where
  calls : List (Decoder ρ)
  callbacks : UInt32 → Option (Decoder ρ)
  closed : Bool

/-- What the callers do to what is shared, before the worker looks at it for its next
message, by the number of messages so far. -/
abbrev Callers (ρ : Type) := Nat → Pending ρ → Pending ρ

/-- The worker's state. -/
structure Inbox (ρ : Type) where
  stubs : List Stub
  pending : Pending ρ
  processed : List (Processed ρ)

/-- The callers' turn. -/
def Inbox.turn (callers : Callers ρ) (s : Inbox ρ) : Inbox ρ :=
  { s with pending := callers s.processed.length s.pending }

/-! ## The worker -/

variable (V : Varint)

/-- `handle_reply` (client.cc:467-483). -/
def handleReply (s : Inbox ρ) (inp : In) : Inbox ρ × In :=
  match s.pending.calls with
  | [] => (s, inp.report (.text "unexpected reply"))
  | decoder :: calls =>
    let val := decoder.run V inp
    ({ s with pending.calls := calls, processed := s.processed ++ [.reply decoder val.1] }, val.2)

/-- `" (failed to read error message)"` -/
def failedToRead : Str := " (failed to read error message)".toUTF8.toList

/-- `handle_chunked_error_reply` (client.cc:528-547). -/
def handleChunkedErrorReply (s : Inbox ρ) (inp : In) : Inbox ρ × In :=
  match s.pending.calls with
  | [] => (s, inp.report (.text "unexpected reply"))
  | _ :: calls =>
    let text := readChunked V inp
    let reply := if text.2.err.isSome then text.1 ++ failedToRead else text.1
    ({ s with pending.calls := calls, processed := s.processed ++ [.errorReply reply] }, text.2)

/-- `handle_event` (client.cc:212-227), with the callback. -/
def handleEvent (eventId : UInt32) (s : Inbox ρ) (inp : In) : Inbox ρ × In :=
  match s.pending.callbacks eventId with
  | none => (s, inp.report (.text "got event with unknown event_id"))
  | some decoder =>
    let val := decoder.run V inp
    if val.2.err.isSome then (s, val.2)
    else ({ s with processed := s.processed ++ [.event eventId decoder val.1] }, val.2)

/-- A log message, as the worker processes it. -/
def processLog (s : Inbox ρ) (inp : In) : Inbox ρ × In :=
  let text := handleLog V inp
  if text.2.err.isSome then (s, text.2)
  else ({ s with processed := s.processed ++ [.log text.1] }, text.2)

/-- `if (err) \x7b return; \x7d continue;` -/
def Inbox.goOn (next : Inbox ρ × In) : Round (Inbox ρ) Err :=
  ⟨next.2.err.isNone, next.1, next.2⟩

/-- A return with an error. -/
def Inbox.fail (msg : String) (s : Inbox ρ) (inp : In) : Round (Inbox ρ) Err :=
  ⟨false, s, inp.report (.text msg)⟩

/-- `Client::client_hello` (client.cc:562-587), from the first read on. -/
def clientHelloRound : Body (Inbox ρ) Err := fun s inp =>
  let b := inp.read Read.byte .baselib
  if b.2.err.isSome then ⟨false, s, b.2⟩
  else if isPrintable b.1 then Inbox.goOn (s, printLine b.1 b.2)
  else if b.1 = ServerMessageType.log.toUInt8 then Inbox.goOn (processLog V s b.2)
  else if b.1 ≠ ServerMessageType.serverHello.toUInt8 then
    s.fail "received unexpected start byte" b.2
  else
    let stubs := readServicesDef V s.stubs b.2
    ⟨false, { s with stubs := stubs.1 }, stubs.2⟩

/-- The `switch` of `Client::input`. -/
def handleServerMessage (type : ServerMessageType) (s : Inbox ρ) (inp : In) :
    Round (Inbox ρ) Err :=
  match type with
  | .reply => Inbox.goOn (handleReply V s inp)
  | .errorReply => Inbox.goOn (handleChunkedErrorReply V s inp)
  | .unknown => s.fail "server says method unknown" inp
  | .tooBig => s.fail "server says request too big" inp
  | .badMessage => s.fail "server says bad message" inp
  | .event =>
    let eventId := inp.read V.readUint32 .baselib
    if eventId.2.err.isSome then ⟨false, s, eventId.2⟩
    else Inbox.goOn (handleEvent V eventId.1 s eventId.2)
  | .log => Inbox.goOn (processLog V s inp)
  | .fatalError => s.fail "serialrpc fatal error" inp
  | .serverGoodbye =>
    if s.pending.closed then ⟨false, s, inp⟩ else s.fail "received unsolicited ServerGoodbye" inp
  | .serverHello => s.fail "unexpected ServerHello" inp

/-- A round of the loop of `Client::input` (client.cc:319-405). Behind a line the loop does not
look at the error. -/
def inputRound (callers : Callers ρ) : Body (Inbox ρ) Err := fun s inp =>
  let b := inp.read Read.byte .baselib
  if b.2.err.isSome then ⟨false, s, b.2⟩
  else
    match ServerMessageType.ofUInt8 b.1 with
    | some type => handleServerMessage V type (s.turn callers) b.2
    | none =>
      if isPrintable b.1 then ⟨true, s, printLine b.1 b.2⟩
      else s.fail "unexpected byte" b.2

/-- `Client::input` (client.cc:285-406): the hello, and then the messages. -/
def input (callers : Callers ρ) (s : Inbox ρ) (inp : In) : Inbox ρ × In :=
  let hello := Reader.loop (clientHelloRound V) s inp
  if hello.2.err.isSome then hello else Reader.loop (inputRound V callers) hello.1 hello.2

end Decoders

/-! ## Where the readers stop -/

section Text

theorem printLineRound_productive : Productive printLineRound := by
  intro b inp hagain
  unfold printLineRound at hagain ⊢
  split at hagain
  · cases hagain
  · rename_i hb
    rw [if_neg hb]
    exact Reader.readByte_shortens (Option.isNone_iff_eq_none.mp hagain)

theorem printLineRound_consuming : Consuming printLineRound := by
  intro b inp
  unfold printLineRound
  split
  · exact List.suffix_refl _
  · exact Reader.read_unread_suffix _ _ inp

theorem printLine_suffix (b : UInt8) (inp : In) : (printLine b inp).unread <:+ inp.unread :=
  Reader.loop_suffix printLineRound_consuming b inp

/-- A line is read to its end and no further. -/
theorem printLine_ofBytes {b : UInt8} (hb : b ≠ 0x0a) {content : List UInt8}
    (hcontent : 0x0a ∉ content) (rest : List UInt8) :
    printLine b (.ofBytes (content ++ 0x0a :: rest)) = .ofBytes rest := by
  induction content generalizing b with
  | nil =>
    have hround : printLineRound b (.ofBytes (0x0a :: rest)) = ⟨true, 0x0a, .ofBytes rest⟩ := by
      rw [printLineRound, if_neg hb]
      rfl
    rw [printLine, List.nil_append, Reader.loop_eq printLineRound_productive, hround]
    simp only [if_true]
    rw [Reader.loop_eq printLineRound_productive]
    rfl
  | cons c content ih =>
    rw [List.mem_cons, not_or] at hcontent
    have hround : printLineRound b (.ofBytes (c :: (content ++ 0x0a :: rest))) =
        ⟨true, c, .ofBytes (content ++ 0x0a :: rest)⟩ := by
      rw [printLineRound, if_neg hb]
      rfl
    rw [printLine, List.cons_append, Reader.loop_eq printLineRound_productive, hround]
    exact ih (Ne.symm hcontent.1) hcontent.2

/-- A line is passed over from its first byte on. -/
theorem RawLine.split {line : List UInt8} (h : RawLine line) :
    ∃ b more, line = b :: more ∧ isPrintable b = true ∧
      ∀ rest, printLine b (.ofBytes (more ++ rest)) = .ofBytes rest := by
  cases h with
  | newline =>
    refine ⟨0x0a, [], rfl, rfl, fun rest => ?_⟩
    rw [printLine, Reader.loop_eq printLineRound_productive]
    rfl
  | @text b content hb hne hcontent =>
    refine ⟨b, _, rfl, hb, fun rest => ?_⟩
    rw [List.append_assoc]
    exact printLine_ofBytes hne hcontent rest

/-- No message begins with a printable byte. -/
theorem ofUInt8_of_isPrintable {b : UInt8} (h : isPrintable b = true) :
    ServerMessageType.ofUInt8 b = none := by
  cases htype : ServerMessageType.ofUInt8 b with
  | none => rfl
  | some type =>
    rw [← ServerMessageType.toUInt8_of_ofUInt8 htype] at h
    cases type <;> exact absurd h (by decide)

end Text

section Bytes

variable {V : Varint}

theorem handleLog_suffix (inp : In) : (handleLog V inp).2.unread <:+ inp.unread := by
  have hread := Reader.read_unread_suffix V.readUint32 Err.baselib inp
  unfold handleLog
  dsimp only
  split
  · exact hread
  · split
    · exact hread
    · exact (Reader.read_unread_suffix _ _ _).trans hread

theorem handleLog_local (hV : V.Local) : Reader.Local (handleLog V) := by
  refine Reader.Local.bind (f := fun inp => inp.read V.readUint32 Err.baselib)
    (g := fun n inp =>
      if inp.err.isSome then ([], inp)
      else if n.toNat > MaxStringSize then ([], inp.report (.text "log message too big"))
      else inp.read (Read.full n.toNat) .baselib)
    (.read hV.uint32 _) (fun n => .checked _ ?_) fun _ => .checked _ _
  by_cases hn : n.toNat > MaxStringSize
  · simp only [hn, if_true]
    exact .report _ _
  · simp only [hn, if_false]
    exact .read (Read.full_local _) _

/-- However much is read, the text grows by all that it was expanded by. -/
theorem readInto_length {n : Nat} {read : List UInt8} (h : read.length ≤ n) :
    (readInto n read).length = n := by
  rw [readInto, List.length_append, List.length_replicate]
  omega

/-- A read of all the bytes leaves none of them as they were. -/
theorem readInto_full (read : List UInt8) : readInto read.length read = read := by
  rw [readInto, Nat.sub_self, List.replicate_zero, List.append_nil]

theorem chunkRound_consuming : Consuming (chunkRound V) := by
  intro s inp
  have hread := Reader.read_unread_suffix V.readUint32 Err.baselib inp
  unfold chunkRound
  dsimp only
  split
  · exact hread
  · split
    · exact hread
    · split
      · exact hread
      · exact (Reader.read_unread_suffix _ _ _).trans hread

theorem chunkRound_productive : Productive (chunkRound V) := by
  intro s inp hagain
  unfold chunkRound at hagain ⊢
  dsimp only at hagain ⊢
  split at hagain
  · cases hagain
  · rename_i herr
    split at hagain
    · cases hagain
    · rename_i hzero
      split at hagain
      · cases hagain
      · rename_i hsize
        have hread := readUint32_shortens (Option.not_isSome_iff_eq_none.mp herr)
        rw [if_neg herr, if_neg hzero, if_neg hsize]
        exact (Reader.read_unread_length_le _ _ _).trans_lt hread

/-- The rest of a round of `read_chunked`, behind the length of the chunk. -/
def chunk (s : Str) (n : UInt32) (inp : In) : (Bool × Str) × In :=
  if n = 0 then ((false, s), inp)
  else if s.length + n.toNat > MaxStringSize then
    ((false, s), inp.report (.text "chunked message too big"))
  else
    let b := inp.read (Read.full n.toNat) .baselib
    ((b.2.err.isNone, s ++ readInto n.toNat b.1), b.2)

/-- A round reads a length, and a piece behind it. -/
theorem chunkRound_eq (s : Str) :
    Reader.round (chunkRound V) s = fun inp =>
      if (inp.read V.readUint32 Err.baselib).2.err.isSome then
        ((false, s), (inp.read V.readUint32 Err.baselib).2)
      else chunk s (inp.read V.readUint32 Err.baselib).1 (inp.read V.readUint32 Err.baselib).2 := by
  funext inp
  simp only [Reader.round, chunkRound, chunk]
  split
  · rfl
  · split
    · rfl
    · split <;> rfl

theorem chunkRound_sticky (s : Str) : Reader.Sticky (Reader.round (chunkRound V) s) := by
  rw [chunkRound_eq]
  exact Reader.Sticky.bind (f := fun inp => inp.read V.readUint32 Err.baselib)
    (g := fun n inp => if inp.err.isSome then ((false, s), inp) else chunk s n inp)
    (.read _ _) fun _ => .checked _ _

theorem chunkRound_local (hV : V.Local) (s : Str) :
    Reader.Local (Reader.round (chunkRound V) s) := by
  rw [chunkRound_eq]
  refine Reader.Local.bind (f := fun inp => inp.read V.readUint32 Err.baselib)
    (g := fun n inp => if inp.err.isSome then ((false, s), inp) else chunk s n inp)
    (.read hV.uint32 _) (fun n => .checked _ ?_) fun _ => .checked _ _
  unfold chunk
  by_cases hzero : n = 0
  · simp only [hzero, if_true]
    exact .pure _
  · by_cases hsize : s.length + n.toNat > MaxStringSize
    · simp only [hzero, hsize, if_true, if_false]
      exact .report _ _
    · simp only [hzero, hsize, if_false]
      exact ((Reader.Local.read (Read.full_local _) Err.baselib).map
        (s ++ readInto n.toNat ·)).goOn

theorem readChunked_suffix (inp : In) : (readChunked V inp).2.unread <:+ inp.unread :=
  Reader.loop_suffix chunkRound_consuming _ inp

theorem readChunked_local (hV : V.Local) : Reader.Local (readChunked V) :=
  Reader.Local.loop chunkRound_productive chunkRound_sticky (chunkRound_local hV) []

end Bytes

section Hello

variable {V : Varint}

/-- What `readServiceDef` does with a message. It reads nothing. -/
def bindServiceDef (s : Handshake) (d : Protocol.serviceDef.Val) (inp : In) :
    (Bool × Handshake) × In :=
  match handleServiceDef d s.offset s.stubs with
  | .error e => ((false, s), inp.report e)
  | .ok stubs => ((true, ⟨s.offset + Protocol.defNumEndpoints d, stubs⟩), inp)

/-- A service definition is read, and bound to a stub behind it. -/
theorem readServiceDef_round (s : Handshake) :
    Reader.round (readServiceDef V) s = fun inp =>
      if (unmarshal V Protocol.serviceDef inp).2.err.isSome then
        ((false, s), (unmarshal V Protocol.serviceDef inp).2)
      else bindServiceDef s (unmarshal V Protocol.serviceDef inp).1
        (unmarshal V Protocol.serviceDef inp).2 := by
  funext inp
  have heq : Protocol.serviceDef.unmarshalBody V MaxNesting inp =
      unmarshal V Protocol.serviceDef inp := rfl
  simp only [Reader.round, readServiceDef, bindServiceDef, heq]
  split
  · rfl
  · cases handleServiceDef (unmarshal V Protocol.serviceDef inp).1 s.offset s.stubs <;> rfl

theorem readServiceDef_local (hV : V.Local) (s : Handshake) :
    Reader.Local (Reader.round (readServiceDef V) s) := by
  rw [readServiceDef_round]
  refine Reader.Local.bind (f := fun inp => unmarshal V Protocol.serviceDef inp)
    (g := fun d inp => if inp.err.isSome then ((false, s), inp) else bindServiceDef s d inp)
    (unmarshal_local hV _) (fun d => .checked _ ?_) fun _ => .checked _ _
  unfold bindServiceDef
  cases handleServiceDef d s.offset s.stubs with
  | error e => exact .report _ _
  | ok stubs => exact .pure _

theorem readProtocolVersion_local (hV : V.Local) (s : Handshake) :
    Reader.Local (Reader.round (readProtocolVersion V) s) := by
  -- The round as a read of the version and a continuation that reads nothing.
  have hround : Reader.round (readProtocolVersion V) s = fun inp =>
      if (inp.read V.readUint32 Err.baselib).2.err.isSome then
        ((false, s), (inp.read V.readUint32 Err.baselib).2)
      else if (inp.read V.readUint32 Err.baselib).1 ≠ ProtocolVersion then
        ((false, s), (inp.read V.readUint32 Err.baselib).2.report
          (.protocolVersionMismatch (inp.read V.readUint32 Err.baselib).1 ProtocolVersion))
      else ((true, s), (inp.read V.readUint32 Err.baselib).2) := by
    funext inp
    simp only [Reader.round, readProtocolVersion]
    split
    · rfl
    · split <;> rfl
  rw [hround]
  refine Reader.Local.bind (f := fun inp => inp.read V.readUint32 Err.baselib)
    (g := fun version inp => if inp.err.isSome then ((false, s), inp)
      else if version ≠ ProtocolVersion then
        ((false, s), inp.report (.protocolVersionMismatch version ProtocolVersion))
      else ((true, s), inp))
    (.read hV.uint32 _) (fun version => .checked _ ?_) fun _ => .checked _ _
  by_cases hversion : version = ProtocolVersion
  · simp only [hversion, ne_eq, not_true, if_false]
    exact .pure _
  · simp only [hversion, ne_eq, not_false_iff, if_true]
    exact .report _ _

theorem handshakeField_local (hV : V.Local) (tag : Tag) (s : Handshake) :
    Reader.Local (Reader.round (handshakeField V tag) s) := by
  unfold handshakeField
  split
  · exact readServiceDef_local hV s
  · split
    · exact readProtocolVersion_local hV s
    · exact ((skip_local hV tag.type MaxNesting).map fun _ => s).goOn

theorem readServicesDef_local (hV : V.Local) (stubs : List Stub) :
    Reader.Local (readServicesDef V stubs) :=
  (Reader.Local.loop (tagRound_productive handshakeField_consuming) tagRound_sticky
    (tagRound_local hV (handshakeField_local hV)) ⟨1, stubs⟩).map Handshake.stubs

end Hello

section Decoders

variable {V : Varint} {ρ : Type}

theorem Decoder.run_suffix (decoder : Decoder ρ) (inp : In) :
    (decoder.run V inp).2.unread <:+ inp.unread := by
  cases decoder with
  | void => exact List.suffix_refl _
  | message T => exact unmarshalNested_suffix (fun n inp => T.unmarshalBody_suffix n inp) _ inp
  | raw decoder => exact decoder.suffix inp

theorem Decoder.run_local (hV : V.Local) (decoder : Decoder ρ) :
    Reader.Local (decoder.run V) := by
  cases decoder with
  | void => exact .pure ()
  | message T => exact unmarshal_local hV T
  | raw decoder => exact decoder.isLocal

/-! ### The worker -/

theorem handleReply_suffix (s : Inbox ρ) (inp : In) :
    (handleReply V s inp).2.unread <:+ inp.unread := by
  unfold handleReply
  split
  · exact List.suffix_refl _
  · exact Decoder.run_suffix _ inp

theorem handleReply_local (hV : V.Local) (s : Inbox ρ) : Reader.Local (handleReply V s) := by
  unfold handleReply
  cases s.pending.calls with
  | nil => exact .report _ _
  | cons decoder calls => exact (decoder.run_local hV).map fun val =>
      { s with pending.calls := calls, processed := s.processed ++ [Processed.reply decoder val] }

theorem handleChunkedErrorReply_suffix (s : Inbox ρ) (inp : In) :
    (handleChunkedErrorReply V s inp).2.unread <:+ inp.unread := by
  unfold handleChunkedErrorReply
  split
  · exact List.suffix_refl _
  · exact readChunked_suffix inp

theorem handleChunkedErrorReply_local (hV : V.Local) (s : Inbox ρ) :
    Reader.Local (handleChunkedErrorReply V s) := by
  unfold handleChunkedErrorReply
  cases s.pending.calls with
  | nil => exact .report _ _
  | cons decoder calls =>
    refine Reader.Local.bind (f := readChunked V) (g := fun text inp =>
      ({ s with
        pending.calls := calls
        processed := s.processed ++
          [Processed.errorReply (if inp.err.isSome then text ++ failedToRead else text)] }, inp))
      (readChunked_local hV) (fun text bs _ => ?_) (fun _ _ h => h)
    exact ⟨[], { s with
      pending.calls := calls
      processed := s.processed ++ [.errorReply text] }, bs, rfl, fun _ => rfl⟩

theorem handleEvent_suffix (eventId : UInt32) (s : Inbox ρ) (inp : In) :
    (handleEvent V eventId s inp).2.unread <:+ inp.unread := by
  unfold handleEvent
  split
  · exact List.suffix_refl _
  · dsimp only
    split
    · exact Decoder.run_suffix _ inp
    · exact Decoder.run_suffix _ inp

theorem handleEvent_local (hV : V.Local) (eventId : UInt32) (s : Inbox ρ) :
    Reader.Local (handleEvent V eventId s) := by
  unfold handleEvent
  cases s.pending.callbacks eventId with
  | none => exact .report _ _
  | some decoder =>
    exact Reader.Local.bind (g := fun val inp => if inp.err.isSome then (s, inp)
      else ({ s with processed := s.processed ++ [.event eventId decoder val] }, inp))
      (decoder.run_local hV) (fun _ => .checked _ (.pure _)) fun _ => .checked _ _

theorem processLog_suffix (s : Inbox ρ) (inp : In) :
    (processLog V s inp).2.unread <:+ inp.unread := by
  unfold processLog
  dsimp only
  split
  · exact handleLog_suffix inp
  · exact handleLog_suffix inp

theorem processLog_local (hV : V.Local) (s : Inbox ρ) : Reader.Local (processLog V s) :=
  Reader.Local.bind (g := fun text inp => if inp.err.isSome then (s, inp)
    else ({ s with processed := s.processed ++ [.log text] }, inp))
    (handleLog_local hV) (fun _ => .checked _ (.pure _)) fun _ => .checked _ _

/-- The `switch` of `Client::input` as a reader. -/
def serverMessage (V : Varint) (type : ServerMessageType) (s : Inbox ρ) (inp : In) :
    (Bool × Inbox ρ) × In :=
  (((handleServerMessage V type s inp).again, (handleServerMessage V type s inp).state),
    (handleServerMessage V type s inp).reader)

theorem handleServerMessage_suffix (type : ServerMessageType) (s : Inbox ρ) (inp : In) :
    (handleServerMessage V type s inp).reader.unread <:+ inp.unread := by
  cases type with
  | reply => exact handleReply_suffix s inp
  | errorReply => exact handleChunkedErrorReply_suffix s inp
  | log => exact processLog_suffix s inp
  | event =>
    have hread := Reader.read_unread_suffix V.readUint32 Err.baselib inp
    simp only [handleServerMessage]
    split
    · exact hread
    · exact (handleEvent_suffix _ s _).trans hread
  | serverGoodbye =>
    simp only [handleServerMessage]
    split
    · exact List.suffix_refl _
    · exact List.suffix_refl _
  | unknown => exact List.suffix_refl _
  | tooBig => exact List.suffix_refl _
  | badMessage => exact List.suffix_refl _
  | fatalError => exact List.suffix_refl _
  | serverHello => exact List.suffix_refl _

/-! ### The two loops -/

theorem inputRound_productive (callers : Callers ρ) : Productive (inputRound V callers) := by
  intro s inp hagain
  unfold inputRound at hagain ⊢
  dsimp only at hagain ⊢
  split at hagain
  · cases hagain
  · rename_i herr
    have hread := Reader.readByte_shortens (Option.not_isSome_iff_eq_none.mp herr)
    rw [if_neg herr]
    cases ServerMessageType.ofUInt8 (inp.read Read.byte Err.baselib).1 with
    | some type => exact (handleServerMessage_suffix _ _ _).length_le.trans_lt hread
    | none =>
      dsimp only
      split
      · exact (printLine_suffix _ _).length_le.trans_lt hread
      · exact hread

theorem clientHelloRound_productive : Productive (clientHelloRound V (ρ := ρ)) := by
  intro s inp hagain
  unfold clientHelloRound at hagain ⊢
  dsimp only at hagain ⊢
  split at hagain
  · cases hagain
  · rename_i herr
    have hread := Reader.readByte_shortens (Option.not_isSome_iff_eq_none.mp herr)
    rw [if_neg herr]
    split
    · exact (printLine_suffix _ _).length_le.trans_lt hread
    · rename_i hprintable
      rw [if_neg hprintable] at hagain
      split
      · exact (processLog_suffix _ _).length_le.trans_lt hread
      · rename_i hlog
        rw [if_neg hlog] at hagain
        split at hagain <;> cases hagain

/-- A round whose first byte opens a message. -/
theorem inputRound_message (callers : Callers ρ) (s : Inbox ρ) (type : ServerMessageType)
    (body : List UInt8) :
    Reader.round (inputRound V callers) s (.ofBytes (type.toUInt8 :: body)) =
      serverMessage V type (s.turn callers) (.ofBytes body) := by
  have hread : (Reader.ofBytes (type.toUInt8 :: body)).read Read.byte Err.baselib =
      (type.toUInt8, .ofBytes body) := rfl
  simp only [Reader.round, inputRound, hread, Reader.err_ofBytes, Option.isSome_none,
    Bool.false_eq_true, if_false, ServerMessageType.ofUInt8_toUInt8]
  rfl

/-- A round with a printable byte passes over its line. -/
theorem inputRound_line (callers : Callers ρ) {line : List UInt8} (h : RawLine line)
    (s : Inbox ρ) : Reader.Takes (Reader.round (inputRound V callers) s) line (true, s) := by
  intro rest
  obtain ⟨b, more, rfl, hb, hline⟩ := h.split
  have hread : (Reader.ofBytes (b :: more ++ rest)).read Read.byte Err.baselib =
      (b, .ofBytes (more ++ rest)) := rfl
  simp only [Reader.round, inputRound, hread, Reader.err_ofBytes, Option.isSome_none,
    Bool.false_eq_true, if_false, ofUInt8_of_isPrintable hb, hb, if_true, hline rest]

/-- A line of raw text is passed over before the hello. -/
theorem clientHelloRound_line {line : List UInt8} (h : RawLine line) (s : Inbox ρ) :
    Reader.Takes (Reader.round (clientHelloRound V) s) line (true, s) := by
  intro rest
  obtain ⟨b, more, rfl, hb, hline⟩ := h.split
  have hread : (Reader.ofBytes (b :: more ++ rest)).read Read.byte Err.baselib =
      (b, .ofBytes (more ++ rest)) := rfl
  simp only [Reader.round, clientHelloRound, hread, Reader.err_ofBytes, Option.isSome_none,
    Bool.false_eq_true, if_false, hb, if_true, hline rest, Inbox.goOn, Option.isNone_none]

/-! ## Streams of messages -/

/-- A complete message before the hello: a log, all of which is read without an error. -/
inductive HandshakeMessage (V : Varint) : Inbox ρ → List UInt8 → Inbox ρ → Prop
  | log {s s' : Inbox ρ} {body : List UInt8}
      (h : processLog V s (.ofBytes body) = (s', .ofBytes [])) :
      HandshakeMessage V s (ServerMessageType.log.toUInt8 :: body) s'

/-- A complete message of a session: what the pending call, the callback or the runtime
decodes it with reads all of it, without an error. -/
inductive SessionMessage (V : Varint) (callers : Callers ρ) :
    Inbox ρ → List UInt8 → Inbox ρ → Prop
  | reply {s s' : Inbox ρ} {body : List UInt8}
      (h : handleReply V (s.turn callers) (.ofBytes body) = (s', .ofBytes [])) :
      SessionMessage V callers s (ServerMessageType.reply.toUInt8 :: body) s'
  | errorReply {s s' : Inbox ρ} {body : List UInt8}
      (h : handleChunkedErrorReply V (s.turn callers) (.ofBytes body) = (s', .ofBytes [])) :
      SessionMessage V callers s (ServerMessageType.errorReply.toUInt8 :: body) s'
  | event {s s' : Inbox ρ} {eventId : UInt32} {id body : List UInt8}
      (hid : V.readUint32.Reads id eventId)
      (h : handleEvent V eventId (s.turn callers) (.ofBytes body) = (s', .ofBytes [])) :
      SessionMessage V callers s (ServerMessageType.event.toUInt8 :: (id ++ body)) s'
  | log {s s' : Inbox ρ} {body : List UInt8}
      (h : processLog V (s.turn callers) (.ofBytes body) = (s', .ofBytes [])) :
      SessionMessage V callers s (ServerMessageType.log.toUInt8 :: body) s'

/-- The handshake takes each message it knows. -/
theorem HandshakeMessage.takes (hV : V.Local) {s s' : Inbox ρ} {msg : List UInt8}
    (h : HandshakeMessage V s msg s') :
    Reader.Takes (Reader.round (clientHelloRound V) s) msg (true, s') := by
  intro rest
  cases h with
  | @log _ body h =>
    have htakes := ((processLog_local hV s).takes_all h).goOn rest
    have hread : (Reader.ofBytes (ServerMessageType.log.toUInt8 :: body ++ rest)).read Read.byte
        Err.baselib = (ServerMessageType.log.toUInt8, .ofBytes (body ++ rest)) := rfl
    have hprintable : isPrintable ServerMessageType.log.toUInt8 = false := by decide
    simp only [Reader.round, clientHelloRound, hread, Reader.err_ofBytes, Option.isSome_none,
      Bool.false_eq_true, if_false, hprintable, if_true]
    exact htakes

/-- The worker takes each message of a session. -/
theorem SessionMessage.takes (hV : V.Local) {callers : Callers ρ} {s s' : Inbox ρ}
    {msg : List UInt8} (h : SessionMessage V callers s msg s') :
    Reader.Takes (Reader.round (inputRound V callers) s) msg (true, s') := by
  intro rest
  cases h with
  | reply h =>
    rw [List.cons_append, inputRound_message]
    exact ((handleReply_local hV _).takes_all h).goOn rest
  | errorReply h =>
    rw [List.cons_append, inputRound_message]
    exact ((handleChunkedErrorReply_local hV _).takes_all h).goOn rest
  | @event _ eventId id body hid h =>
    have hread := Reader.read_ofBytes hid Err.baselib (body ++ rest)
    have htakes := ((handleEvent_local hV eventId _).takes_all h).goOn rest
    rw [List.cons_append, List.append_assoc, inputRound_message]
    simp only [serverMessage, handleServerMessage, hread, Reader.err_ofBytes, Option.isSome_none,
      Bool.false_eq_true, if_false]
    exact htakes
  | log h =>
    rw [List.cons_append, inputRound_message]
    exact ((processLog_local hV _).takes_all h).goOn rest

/-- The hello ends the first loop. -/
theorem clientHello_hello (hV : V.Local) {s : Inbox ρ} {stubs : List Stub} {hello : List UInt8}
    (h : readServicesDef V s.stubs (.ofBytes hello) = (stubs, .ofBytes [])) (rest : List UInt8) :
    Reader.loop (clientHelloRound V) s
        (.ofBytes (ServerMessageType.serverHello.toUInt8 :: (hello ++ rest))) =
      ({ s with stubs }, .ofBytes rest) := by
  have htakes := (readServicesDef_local hV s.stubs).takes_all h rest
  have hread : (Reader.ofBytes (ServerMessageType.serverHello.toUInt8 :: (hello ++ rest))).read
      Read.byte Err.baselib = (ServerMessageType.serverHello.toUInt8, .ofBytes (hello ++ rest)) :=
    rfl
  have hprintable : isPrintable ServerMessageType.serverHello.toUInt8 = false := by decide
  have hlog : ServerMessageType.serverHello.toUInt8 ≠ ServerMessageType.log.toUInt8 := by decide
  have hround : clientHelloRound V s
      (.ofBytes (ServerMessageType.serverHello.toUInt8 :: (hello ++ rest))) =
      ⟨false, { s with stubs }, .ofBytes rest⟩ := by
    simp only [clientHelloRound, hread, Reader.err_ofBytes, Option.isSome_none,
      Bool.false_eq_true, if_false, hprintable, hlog, ne_eq, not_true, htakes]
  rw [Reader.loop_eq clientHelloRound_productive, hround]
  rfl

/-- Raw text is transparent. The stream holds complete messages: logs, the hello, and then
replies, events and logs, each decoded by what the callers wait for with whatever they do in
between. With lines of text before the hello and before, between and behind the messages, the
client has processed the same messages, and goes on in the same way with what follows. -/
theorem raw_text_transparent (hV : V.Local) (callers : Callers ρ) {s s₁ s₂ : Inbox ρ}
    {stubs : List Stub} {before before' hello after after' : List UInt8}
    (hbefore : Reader.Noisy (HandshakeMessage V) RawLine s before before' s₁)
    (hhello : readServicesDef V s₁.stubs (.ofBytes hello) = (stubs, .ofBytes []))
    (hafter : Reader.Noisy (SessionMessage V callers) RawLine { s₁ with stubs } after after' s₂)
    (rest : List UInt8) :
    input V callers s (.ofBytes (before ++
        ServerMessageType.serverHello.toUInt8 :: (hello ++ (after ++ rest)))) =
      Reader.loop (inputRound V callers) s₂ (.ofBytes rest) ∧
    input V callers s (.ofBytes (before' ++
        ServerMessageType.serverHello.toUInt8 :: (hello ++ (after' ++ rest)))) =
      Reader.loop (inputRound V callers) s₂ (.ofBytes rest) := by
  -- Both loops skip lines between two rounds, so each runs as without them.
  have hhandshake := fun more => hbefore.loop clientHelloRound_productive
    (fun _ _ _ h => h.takes hV) (fun _ h => clientHelloRound_line h)
    (ServerMessageType.serverHello.toUInt8 :: (hello ++ more))
  have hsession := hafter.loop (inputRound_productive callers) (fun _ _ _ h => h.takes hV)
    (fun _ h => inputRound_line callers h) rest
  constructor
  · simp only [input, (hhandshake (after ++ rest)).1, clientHello_hello hV hhello,
      Reader.err_ofBytes, Option.isSome_none, Bool.false_eq_true, if_false]
    exact hsession.1
  · simp only [input, (hhandshake (after' ++ rest)).2, clientHello_hello hV hhello,
      Reader.err_ofBytes, Option.isSome_none, Bool.false_eq_true, if_false]
    exact hsession.2

end Decoders

namespace Sample

/-- A client that waits for a message and for a void reply, and subscribes to the events
with id 3. -/
def waiting (processed : List (Processed Unit)) (calls : List (Decoder Unit)) : Inbox Unit where
  stubs := []
  pending := ⟨calls, fun eventId => if eventId = 3 then some .void else none, false⟩
  processed := processed

/-- The log of a hello. -/
def greeted : List (Processed Unit) := [.log [104, 105]]

/-- What it has processed behind a reply, an error, and an event. -/
def answered : List (Processed Unit) :=
  greeted ++ [.reply (.message Protocol.listServicesRequest) (false, ())] ++ [.errorReply [33]] ++
    [.event 3 .void ()]

end Sample

/-- A log, the hello, a reply, an error, an event and a log, with lines among them that hold
the bytes of messages. -/
theorem raw_text_transparent_lines :
    input .leb128 (fun _ pending => pending)
        (Sample.waiting [] [.message Protocol.listServicesRequest, .void])
        (.ofBytes [0xf3, 2, 104, 105, 0xf9, 8, 1, 4, 0xf0, 4, 0xf1, 1, 33, 0, 0xf2, 3, 0xf3, 0]) =
      Reader.loop (inputRound .leb128 fun _ pending => pending)
        (Sample.waiting (Sample.answered ++ [.log []]) []) (.ofBytes []) ∧
    input .leb128 (fun _ pending => pending)
        (Sample.waiting [] [.message Protocol.listServicesRequest, .void])
        (.ofBytes [66, 0xf9, 0xf3, 10, 0xf3, 2, 104, 105, 10, 0xf9, 8, 1, 4, 0xf0, 4,
          32, 0xf0, 4, 10, 0xf1, 1, 33, 0, 0xf2, 3, 9, 0xfa, 10, 10, 0xf3, 0, 35, 10]) =
      Reader.loop (inputRound .leb128 fun _ pending => pending)
        (Sample.waiting (Sample.answered ++ [.log []]) []) (.ofBytes []) := by
  have hline : ∀ (b : UInt8) (content : List UInt8), isPrintable b = true → b ≠ 0x0a →
      0x0a ∉ content → RawLine (b :: (content ++ [0x0a])) := fun _ _ hb hne hcontent =>
    .text hb hne hcontent
  have hbefore : Reader.Noisy (HandshakeMessage .leb128) RawLine
      (Sample.waiting [] [.message Protocol.listServicesRequest, .void])
      ([0xf3, 2, 104, 105] ++ []) ([66, 0xf9, 0xf3, 10] ++ ([0xf3, 2, 104, 105] ++ ([10] ++ [])))
      (Sample.waiting Sample.greeted [.message Protocol.listServicesRequest, .void]) :=
    .noise (hline 66 [0xf9, 0xf3] (by decide) (by decide) (by decide))
      (.message (.log rfl) (.noise .newline (.done _)))
  have hafter : Reader.Noisy (SessionMessage .leb128 fun _ pending => pending) RawLine
      (Sample.waiting Sample.greeted [.message Protocol.listServicesRequest, .void])
      ([0xf0, 4] ++ ([0xf1, 1, 33, 0] ++ ([0xf2, 3] ++ ([0xf3, 0] ++ []))))
      ([0xf0, 4] ++ ([32, 0xf0, 4, 10] ++ ([0xf1, 1, 33, 0] ++ ([0xf2, 3] ++
        ([9, 0xfa, 10] ++ ([10] ++ ([0xf3, 0] ++ ([35, 10] ++ []))))))))
      (Sample.waiting (Sample.answered ++ [.log []]) []) :=
    .message (.reply rfl) (.noise (hline 32 [0xf0, 4] (by decide) (by decide) (by decide))
      (.message (.errorReply rfl)
        (.message (@SessionMessage.event _ _ _ _ _ 3 [3] [] (fun _ => rfl) rfl)
          (.noise (hline 9 [0xfa] (by decide) (by decide) (by decide)) (.noise .newline
            (.message (.log rfl) (.noise (hline 35 [] (by decide) (by decide) (by decide))
              (.done _))))))))
  have hhello : readServicesDef .leb128 [] (.ofBytes [8, 1, 4]) = ([], .ofBytes []) := rfl
  exact raw_text_transparent Varint.leb128_local (fun _ pending => pending) hbefore hhello hafter []

end SerialRpc.Client
