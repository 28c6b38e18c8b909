import SerialRpc.Encoding.DynamicLocal
import SerialRpc.Service.Codecs
import SerialRpc.Session.Remote

/-!
# Calls from the command line (cmd/serialrpc/call.cc:427-545, client.cc:485-519)

`serialrpc call` has no generated code for the method that it calls. It asks the server what
its services are, describes the types of the method to protobuf, and sends and receives
protobuf's messages. The server does not notice: its function gets the message as from a stub,
and the client is told what the function has said.

- `Client.callRaw`, `Remote.callRaw`: `call_raw`, and the call it makes on a session.
- `DynamicPayload`, `cliDecoder`: a request and a response in protobuf's messages.
- `Remote.exchange`: a request that is answered once, and its answer.
- `Pool.Prepared`, `command_line_call`: the whole of `call`.
-/

namespace SerialRpc

open ByteStream Transition

/-! ## Raw calls -/

/-- What a `WriterTo` writes. -/
abbrev WriterTo := Writer Err → Except Panic (Writer Err)

/-- `call_raw` (client.cc:485-513), as far as it writes. -/
def Client.callRaw (V : Varint) (rpcId : UInt32) (request : Option WriterTo) (out : Writer Err) :
    Except Panic (Writer Err) :=
  let out := startRequest V rpcId out
  if out.err.isSome then return out
  else
    match request with
    | none => return out
    | some writeTo => writeTo out

namespace Remote

variable {server : Server} {σ ρ : Type}

/-- A raw call is begun. A caller whose write fails begins none. -/
def callRaw (V : Varint) (rpcId : UInt32) (request : Option WriterTo)
    (decoder : Client.Decoder ρ) (r : Remote server σ ρ) : Option (Remote server σ ρ) := do
  let out ← (Client.callRaw V rpcId request {}).toOption
  if out.err.isSome then none
  else
    return { r with
      inbox.pending.calls := r.inbox.pending.calls ++ [decoder]
      requests := r.requests ++ out.written }

/-- Nothing is on its way, and no call is waiting. -/
structure Quiet (r : Remote server σ ρ) : Prop where
  requests : r.requests = []
  messages : r.messages = []
  calls : r.inbox.pending.calls = []

end Remote

/-! ## Protobuf's messages -/

/-- What protobuf holds of a request or a response. -/
@[reducible] def DynamicPayload : Option MessageType → Type
  | none => Unit
  | some T => T.Dynamic

/-- A response of any type. -/
abbrev AnyMessage := Σ T : MessageType, T.Dynamic

namespace DynamicPayload

def Holds : (type : Option MessageType) → DynamicPayload type → Payload type → Prop
  | none, _, _ => True
  | some T, held, msg => T.Holds held msg

def depth : (type : Option MessageType) → DynamicPayload type → Nat
  | none, _ => 0
  | some T, held => T.dynamicDepth held

/-- `request_is_void ? nil : &request_writer` (call.cc:533-536). -/
def writer (V : Varint) (listFields : ListFields) : (type : Option MessageType) →
    DynamicPayload type → Option WriterTo
  | none, _ => none
  | some T, held => some (cliMarshal V listFields T held)

end DynamicPayload

section Decoder

variable {V : Varint} {readerSkip : Int → Read (List UInt8)}

/-- `unmarshal_response` on a new message (call.cc:257-259, 510). -/
def unmarshalResponse (hV : V.Local) (hskip : ∀ n, (readerSkip n).Local) (T : MessageType) :
    Client.RawDecoder AnyMessage where
  unmarshal inp :=
    let response := cliUnmarshal V readerSkip T T.dynamicDefault inp
    (⟨T, response.1⟩, response.2)
  suffix inp := unmarshalInto_suffix (T.dynamicSwitch_consumes MaxNesting) MaxNesting _ inp
  isLocal := (cliUnmarshal_local hV hskip T T.dynamicDefault).map fun held =>
    (⟨T, held⟩ : AnyMessage)

/-- `response_is_void ? nil : unmarshal_response` (call.cc:538). -/
def cliDecoder (hV : V.Local) (hskip : ∀ n, (readerSkip n).Local) :
    Option MessageType → Client.Decoder AnyMessage
  | none => .void
  | some T => .raw (unmarshalResponse hV hskip T)

/-- A response as the client is told it. -/
def cliResponse (hV : V.Local) (hskip : ∀ n, (readerSkip n).Local) :
    (result : Option MessageType) → DynamicPayload result → Client.Processed AnyMessage
  | none, _ => .reply .void ()
  | some T, held => .reply (.raw (unmarshalResponse hV hskip T)) ⟨T, held⟩

/-- What the client is told of a call: the error that the function has reported, or a response
that holds what it has returned. -/
inductive CliTold (hV : V.Local) (hskip : ∀ n, (readerSkip n).Local) {server : Server}
    {result : Option MessageType} (outcome : Outcome server result) :
    Client.Processed AnyMessage → Prop
  | failed (text : ErrorText) (h : outcome.notices = [.report text]) :
      CliTold hV hskip outcome (.errorReply text.pieces.flatten)
  | returned (held : DynamicPayload result) (h : outcome.notices = [])
      (hholds : DynamicPayload.Holds result held (Payload.received result outcome.value)) :
      CliTold hV hskip outcome (cliResponse hV hskip result held)

end Decoder

/-! ## What both ends read -/

section Bytes

variable {V : Varint} {listFields : ListFields} {readerSkip : Int → Read (List UInt8)}

/-- What the client writes for a request is read by the generated code. -/
theorem DynamicPayload.writer_open (hV : V.Lawful) (hlist : ListsSetFields listFields)
    {parameter : Option MessageType} (hwf : ∀ T ∈ parameter, T.WellFormed)
    {held : DynamicPayload parameter} {msg : Payload parameter}
    (hheld : Holds parameter held msg) (hdepth : depth parameter held ≤ MaxNesting)
    (rpcId : UInt32) :
    ∃ body, Client.callRaw V rpcId (writer V listFields parameter held) {} =
        .ok (Writer.append (V.writeUint32 rpcId ++ body) {}) ∧
      Reader.Takes (readRequest V parameter) body (Payload.received parameter msg) := by
  have hopen : Writer.Open ({} : Writer Err) := ⟨rfl, rfl⟩
  have hstart : startRequest V rpcId {} = Writer.append (V.writeUint32 rpcId) {} :=
    hopen.write _ _
  have hopen' := hopen.append (V.writeUint32 rpcId)
  cases parameter with
  | none =>
    refine ⟨[], ?_, .pure ()⟩
    simp [Client.callRaw, hstart, writer, pure, Except.pure]
  | some T =>
    obtain ⟨bytes, hwire, hemits⟩ := T.marshalMessage_wire hV hlist held msg MaxNesting MaxNesting
      (hwf T rfl) hheld hdepth (le_refl _)
    refine ⟨bytes ++ [endByte], ?_, fun rest =>
      unmarshal_wire hV (hwf T rfl) hwire (le_refl _) rest⟩
    have hwritten := hemits.top (le_refl _) hopen'
    simp only [Client.callRaw, hstart, writer, hopen'.err, Option.isSome_none, Bool.false_eq_true,
      if_false]
    rw [← Writer.append_append]
    exact hwritten

/-- What the generated code writes for a response tells the client of a message that holds
it. -/
theorem cliResponse_tells (hV : V.Lawful) (hlocal : V.Local) (hreturns : SkipReturns readerSkip)
    (hskip : ∀ n, (readerSkip n).Local) {result : Option MessageType}
    (hwf : ∀ T ∈ result, T.WellFormed) {value : Payload result}
    (hdepth : Payload.depth result value ≤ MaxNesting) :
    ∃ held, DynamicPayload.Holds result held (Payload.received result value) ∧
      Tells V ⟨.reply, Payload.bytes V result value⟩ (cliResponse hlocal hskip result held) := by
  cases result with
  | none => exact ⟨(), trivial, .reply (.pure ())⟩
  | some T =>
    have hwire := T.ref_wire (V := V) value MaxNesting hdepth
    have hbudget : ((MaxNesting : Nat) : Int) ≤ MaxNesting := le_refl _
    obtain ⟨held, hread, hheld⟩ := hwire.unmarshalInto_eq hV hreturns (hwf T rfl) hbudget
    refine ⟨held, hheld, .reply fun rest => ?_⟩
    have hrun : ∀ inp, (unmarshalResponse hlocal hskip T).unmarshal inp =
        (⟨T, (cliUnmarshal V readerSkip T T.dynamicDefault inp).1⟩,
          (cliUnmarshal V readerSkip T T.dynamicDefault inp).2) := fun _ => rfl
    rw [Client.Decoder.run, hrun, Payload.bytes, List.append_assoc, List.singleton_append,
      cliUnmarshal, hread rest]

end Bytes

/-! ## An exchange -/

section Exchange

variable {V : Varint} {server : Server} {σ ρ : Type}

/-- The first request that an exchange makes. -/
def Operation.listServices {m : EchoMethod} (h : server.handleRequest 0 = some (0, m)) :
    Operation server where
  rpcId := 1
  endpoint := (0, m)
  request := .call (true, ())
  served := h
  shape := rfl

/-- A function that says no events says one thing: the error it has reported, or its reply. -/
theorem Outcome.told_one {result : Option MessageType} {outcome : Outcome server result}
    (h : ∀ notice ∈ outcome.notices, notice.isReport = true) (reply : Client.Processed ρ) :
    (∃ text, outcome.notices = [.report text] ∧
      outcome.told reply = [.errorReply text.pieces.flatten]) ∨
    (outcome.notices = [] ∧ outcome.told reply = [reply]) := by
  have hle := outcome.reports_le
  rw [List.countP_eq_length.mpr h] at hle
  unfold Outcome.told Outcome.failed
  match hnotices : outcome.notices with
  | [] => exact .inr ⟨rfl, rfl⟩
  | [.report text] => exact .inl ⟨text, rfl, rfl⟩
  | [.emit event] => exact absurd (h (.emit event) (hnotices ▸ .head _)) Bool.false_ne_true
  | _ :: _ :: _ => simp [hnotices] at hle

theorem cliResponse_expects {hlocal : V.Local} {readerSkip : Int → Read (List UInt8)}
    {hskip : ∀ n, (readerSkip n).Local} {result : Option MessageType}
    {pending : Client.Pending AnyMessage}
    (hcalls : pending.calls = [cliDecoder hlocal hskip result]) (held : DynamicPayload result) :
    pending.Expects (cliResponse hlocal hskip result held) ∧
      (cliResponse hlocal hskip result held).isAnswer = true := by
  cases result with
  | none => exact ⟨congrArg List.head? hcalls, rfl⟩
  | some T => exact ⟨congrArg List.head? hcalls, rfl⟩

/-- The server answers what it has been asked with one message, and the client is told what
the message says. -/
theorem Remote.exchange (hV : V.Lawful)
    (overflow : (capacity : Nat) → Str → InlineString capacity) {services : LocalServices server σ}
    {r : Remote server σ ρ} (hmessages : r.messages = []) {told : Client.Processed ρ}
    (hexpects : r.inbox.pending.Expects told) (hlast : r.inbox.pending.calls.tail = [])
    (hanswer : told.isAnswer = true) {msg : ServerMessage} (htells : Tells V msg told) {service : σ}
    (hround : server.acceptRound V overflow (services.implementation V)
      { r.serving with sent := [] } (.ofBytes r.requests) =
        ⟨true, { r.serving with
          sent := [msg], service := service, requests := r.serving.requests + 1 }, .ofBytes []⟩) :
    ∃ r', run (Remote.step V overflow services) r [.serve, .deliver] = some r' ∧ r'.Quiet ∧
      r'.serving.service = service ∧ r'.inbox.processed = r.inbox.processed ++ [told] := by
  obtain ⟨r₁, hserve, hinbox, hrequests, hmessages₁, hservice⟩ : ∃ r₁ : Remote server σ ρ,
      Remote.step V overflow services r .serve = some r₁ ∧ r₁.inbox = r.inbox ∧
        r₁.requests = [] ∧ r₁.messages = msg.bytes ∧ r₁.serving.service = service := by
    refine ⟨{ r with
      requests := []
      serving := { r.serving with
        sent := [msg], service := service, requests := r.serving.requests + 1 }
      messages := msg.bytes
      served := r.served ++ r.waiting.take 1
      waiting := r.waiting.drop 1 }, ?_, rfl, rfl, rfl, rfl⟩
    simp [Remote.step, hround, hmessages]
  have hdeliver := Client.Tells.takes hV htells (s := r₁.inbox) (hinbox ▸ hexpects) []
  rw [List.append_nil, ← hmessages₁] at hdeliver
  simp only [Reader.round, Prod.mk.injEq] at hdeliver
  obtain ⟨⟨hagain, hstate⟩, hreader⟩ := hdeliver
  obtain ⟨r₂, hlastStep, hquiet, hservice₂, hprocessed⟩ : ∃ r₂ : Remote server σ ρ,
      Remote.step V overflow services r₁ .deliver = some r₂ ∧ r₂.Quiet ∧
        r₂.serving.service = service ∧ r₂.inbox.processed = r.inbox.processed ++ [told] := by
    refine ⟨{ r₁ with
      inbox := r₁.inbox.process told
      messages := []
      ongoing := r₁.ongoing.drop
        (r₁.inbox.pending.calls.length - (r₁.inbox.process told).pending.calls.length) }, ?_,
      ⟨hrequests, rfl, ?_⟩, hservice, ?_⟩
    · simp only [Remote.step, hagain, if_true, hstate, hreader]
      rfl
    · show (if told.isAnswer then r₁.inbox.pending.calls.tail else r₁.inbox.pending.calls) = []
      rw [if_pos hanswer, hinbox, hlast]
    · show r₁.inbox.processed ++ [told] = _
      rw [hinbox]
  refine ⟨r₂, ?_, hquiet, hservice₂, hprocessed⟩
  rw [run, hserve]
  exact congrArg (·.bind some) hlastStep

/-- The client asks what the services are. -/
theorem Remote.listServices (hV : V.Lawful) (hlocal : V.Local)
    (overflow : (capacity : Nat) → Str → InlineString capacity) (htyped : server.WellTyped)
    (hserver : server.Described) {services : LocalServices server σ} (hfit : services.Fit)
    {m : EchoMethod} (hdiscovery : server.handleRequest 0 = some (0, m)) {r : Remote server σ ρ}
    (hquiet : r.Quiet) :
    ∃ r' resp, run (Remote.step V overflow services) r
        [.request (.listServices hdiscovery), .serve, .deliver] = some r' ∧ r'.Quiet ∧
      r'.serving.service = r.serving.service ∧
      r'.inbox.processed =
        r.inbox.processed ++ [.reply (.message Protocol.listServicesResponse) resp] ∧
      Protocol.responseServices resp = server.received true := by
  have hdepth : (Operation.listServices hdiscovery).request.depth ≤ MaxNesting := Nat.zero_le _
  obtain ⟨r₁, hrequest, hserving, hmessages, hrequests, hcalls, hprocessed⟩ :
      ∃ r₁ : Remote server σ ρ, Remote.step V overflow services r
          (.request (.listServices hdiscovery)) = some r₁ ∧ r₁.serving = r.serving ∧
        r₁.messages = [] ∧ r₁.requests = (Operation.listServices hdiscovery).bytes V ∧
        r₁.inbox.pending.calls = [.message Protocol.listServicesResponse] ∧
        r₁.inbox.processed = r.inbox.processed := by
    refine ⟨{ r with
      inbox.pending := (Operation.listServices hdiscovery).begin r.inbox.pending
      requests := (Operation.listServices hdiscovery).bytes V
      waiting := r.waiting ++ [.listServices hdiscovery]
      ongoing := r.ongoing ++ [.listServices hdiscovery] }, ?_, rfl, hquiet.messages, rfl, ?_, rfl⟩
    · have hwrite := Request.write_open hV (Operation.listServices hdiscovery).rpcId
        (Operation.listServices hdiscovery).request hdepth
        (show Writer.Open ({} : Writer Err) from ⟨rfl, rfl⟩)
      simp only [Remote.step, hwrite, hquiet.requests]
      rfl
    · show r.inbox.pending.calls ++ [_] = _
      rw [hquiet.calls]
      rfl
  obtain ⟨sent, hround, htold⟩ := (Operation.listServices hdiscovery).acceptRound_told (ρ := ρ)
    hV hlocal overflow htyped hserver hfit hdepth { r₁.serving with sent := [] } []
  obtain ⟨msg, sent, htells, hnil, rfl⟩ := List.forall₂_cons_right_iff.mp htold
  obtain rfl := List.forall₂_nil_right_iff.mp hnil
  rw [List.append_nil, ← hrequests] at hround
  have hexpects : ∀ val, r₁.inbox.pending.Expects
      (.reply (.message Protocol.listServicesResponse) val) := fun _ => congrArg List.head? hcalls
  obtain ⟨r₂, hrun, hquiet₂, hservice₂, hprocessed₂⟩ := Remote.exchange hV overflow hmessages
    (hexpects _) (congrArg List.tail hcalls) rfl htells hround
  refine ⟨r₂, _, by rw [run, hrequest]; exact hrun, hquiet₂, ?_, ?_,
    hserver.responseServices_eq true⟩
  · rw [hservice₂, ← hserving]
    rfl
  · rw [hprocessed₂, hprocessed]
    rfl

/-- The client calls a method: its function gets the message from the client's, and the client
is told what the function has said. -/
theorem Remote.rawCall {V : Varint} (hV : V.Lawful) (hlocal : V.Local)
    (overflow : (capacity : Nat) → Str → InlineString capacity) {listFields : ListFields}
    (hlist : ListsSetFields listFields) {readerSkip : Int → Read (List UInt8)}
    (hreturns : SkipReturns readerSkip) (hskip : ∀ n, (readerSkip n).Local)
    (htyped : server.WellTyped) {services : LocalServices server σ} (hfit : services.Fit)
    {rpcId : UInt32} (hrpcId : rpcId ≠ 0) {i : Nat} {m : EchoMethod}
    (hserved : server.handleRequest (rpcId - 1) = some (i + 1, m))
    (hunary : m.serverStreaming = false) {r : Remote server σ AnyMessage} (hquiet : r.Quiet)
    {held : DynamicPayload m.parameter} {msg : Payload m.parameter}
    (hheld : DynamicPayload.Holds m.parameter held msg)
    (hdepth : DynamicPayload.depth m.parameter held ≤ MaxNesting)
    {outcome : Outcome server m.result × σ}
    (houtcome : (services.method (i + 1) m).call (Payload.received m.parameter msg)
      r.serving.service = outcome)
    (hreports : ∀ notice ∈ outcome.1.notices, notice.isReport = true) :
    ∃ r₁ r₂ answer, r.callRaw V rpcId (DynamicPayload.writer V listFields m.parameter held)
        (cliDecoder hlocal hskip m.result) = some r₁ ∧
      run (Remote.step V overflow services) r₁ [.serve, .deliver] = some r₂ ∧ r₂.Quiet ∧
      r₂.serving.service = outcome.2 ∧ r₂.inbox.processed = r.inbox.processed ++ [answer] ∧
      CliTold hlocal hskip outcome.1 answer := by
  subst houtcome
  obtain ⟨c, hc, hm⟩ := server.handleRequest_mem hserved
  obtain ⟨body, hwritten, hread⟩ := DynamicPayload.writer_open hV hlist (htyped c hc m hm).1
    hheld hdepth rpcId
  have hfits := hfit c hc m hm hunary (i + 1) (Payload.received m.parameter msg) r.serving.service
  obtain ⟨held', hheld', hreply⟩ := cliResponse_tells hV hlocal hreturns hskip
    (htyped c hc m hm).2 hfits
  obtain ⟨sent, hanswer, htold⟩ := LocalServices.answer_call_told hV overflow htyped
    (Payload.received m.parameter msg) ⟨.ofBytes [], [], r.serving.service⟩ hfits hreply
  have hbody : Reader.Takes (Endpoint.readBody V (i + 1, m)) body
      (some (.call (Payload.received m.parameter msg))) := by
    intro rest
    have hmsg := hread rest
    simp [Endpoint.readBody, Request.read, Endpoint.streaming, hunary, Endpoint.requestType, hmsg]
  have hround := Server.acceptRound_takes hV overflow hrpcId hserved hbody
    (s := { r.serving with sent := [] }) hanswer
  -- The one answer: the error that was reported, or the reply.
  obtain ⟨answer, hone, htells, hexpects⟩ : ∃ answer,
      ((services.method (i + 1) m).call (Payload.received m.parameter msg)
          r.serving.service).1.told (cliResponse hlocal hskip m.result held') = [answer] ∧
        CliTold hlocal hskip ((services.method (i + 1) m).call
          (Payload.received m.parameter msg) r.serving.service).1 answer ∧
        ∀ pending : Client.Pending AnyMessage, pending.calls = [cliDecoder hlocal hskip m.result] →
          pending.Expects answer ∧ answer.isAnswer = true := by
    rcases Outcome.told_one hreports (cliResponse hlocal hskip m.result held') with
      ⟨text, hnotices, hone⟩ | ⟨hnotices, hone⟩
    · exact ⟨_, hone, .failed text hnotices, fun pending hcalls =>
        ⟨fun hnil => List.cons_ne_nil _ _ (hcalls.symm.trans hnil), rfl⟩⟩
    · exact ⟨_, hone, .returned held' hnotices hheld', fun pending hcalls =>
        cliResponse_expects hcalls held'⟩
  rw [hone] at htold
  obtain ⟨message, sent, htellsMessage, hnil, rfl⟩ := List.forall₂_cons_right_iff.mp htold
  obtain rfl := List.forall₂_nil_right_iff.mp hnil
  let r₁ : Remote server σ AnyMessage := { r with
    inbox.pending.calls := [cliDecoder hlocal hskip m.result]
    requests := V.writeUint32 rpcId ++ body }
  have hbegun : r.callRaw V rpcId (DynamicPayload.writer V listFields m.parameter held)
      (cliDecoder hlocal hskip m.result) = some r₁ := by
    simp only [Remote.callRaw, hwritten, hquiet.calls, hquiet.requests]
    rfl
  rw [List.append_nil] at hround
  obtain ⟨hexpects, hisAnswer⟩ := hexpects r₁.inbox.pending rfl
  obtain ⟨r₂, hrun, hquiet₂, hservice, hprocessed⟩ := Remote.exchange hV overflow
    (r := r₁) hquiet.messages hexpects rfl hisAnswer htellsMessage hround
  exact ⟨r₁, r₂, answer, hbegun, hrun, hquiet₂, hservice, hprocessed, htells⟩

end Exchange

/-! ## The whole of `call` -/

/-- A name of a method on the command line is its service's full name and its own, around a
slash or a dot. -/
theorem splitMethod_names {service name : Str} (hservice : service ≠ []) (hslash : 47 ∉ service)
    (hname : name ≠ []) (hplain : 46 ∉ name ∧ 47 ∉ name) {separator : UInt8}
    (hseparator : separator = 47 ∨ separator = 46) :
    splitMethod (service ++ separator :: name) = some (service, name) := by
  refine splitMethod_iff.mpr ⟨hservice, hname, ?_⟩
  rcases hseparator with rfl | rfl
  · exact .inl ⟨rfl, hplain.2⟩
  · refine .inr ⟨rfl, hplain.1, fun hmem => ?_⟩
    rcases List.mem_append.mp hmem with hmem | hmem
    · exact hslash hmem
    · exact hplain.2 ((List.mem_cons.mp hmem).resolve_left (by decide))

/-- What the client knows of a method before it calls it, from a list of services: its endpoint,
and a file for protobuf that mirrors the `.proto` files, whose messages for the request and the
response are of the types that the codecs of the method are for. -/
structure Pool.Prepared {k n m : Nat} (pool : Pool k n m) (s : ServiceDescriptor k n)
    (method : MethodDescriptor n) (quote : Str → Str) (methodName : Str)
    (services : List Protocol.serviceInfo.Val) (parameter result : Option MessageType)
    (endpointId : UInt32) (nameOf : Node n m → Str) (dynamicMethod : DynamicMethod) : Prop where
  mirrored : pool.Mirrored s method nameOf dynamicMethod.file
  method_eq : dynamicMethod.file.firstMethod = .ok dynamicMethod
  request : ∀ T ∈ parameter, ∃ message,
    dynamicMethod.file.Denotes (nameOf (.inl method.input)) (.message message) ∧
      T.Follows dynamicMethod.file.schema message.field
  response : ∀ T ∈ result, ∃ message,
    dynamicMethod.file.Denotes (nameOf (.inl method.output)) (.message message) ∧
      T.Follows dynamicMethod.file.schema message.field
  prepareCall_eq : ∀ (P : Type) (buildFile : BuildFile P) (p : P),
    (buildFile dynamicMethod.file p).isSome →
    ∀ (parseFromString : DynamicMethod → Str → Bool) (text : Str),
      TextFits parseFromString dynamicMethod text parameter →
      prepareCall quote buildFile parseFromString methodName text p services =
        .ok ⟨endpointId, dynamicMethod, parameter.isNone, result.isNone⟩

/-- A call from the command line is a call. On any session with nothing on its way, the client
asks a server for its services, one of which is generated from `.proto` files whose references
resolve. It is then ready to call each of the service's unary methods, by either form of its
name: if protobuf takes the file and the text of the request. If it does call it, with a message
that holds some value, the function of the method is called once, with the value as it comes
from a stub; and the client is told the error that the function has reported, or is left with a
message that holds what the function has returned. -/
theorem command_line_call {V : Varint} (hV : V.Lawful) (hlocal : V.Local)
    (overflow : (capacity : Nat) → Str → InlineString capacity) (quote : Str → Str)
    {listFields : ListFields} (hlist : ListsSetFields listFields)
    {readerSkip : Int → Read (List UInt8)} (hreturns : SkipReturns readerSkip)
    (hskip : ∀ n, (readerSkip n).Local) {server : Server} (hserver : server.Described)
    (htyped : server.WellTyped) {discovery : EchoMethod}
    (hdiscovery : server.handleRequest 0 = some (0, discovery)) {σ : Type}
    {services : LocalServices server σ} (hfit : services.Fit) {k n m : Nat} {pool : Pool k n m}
    (hnamed : pool.ValuesNamed) (layout : Layout pool) {s : ServiceDescriptor k n} {i : Nat}
    (hi : i + 1 < server.services.length)
    (hdesc : layout.describe s = some (describeService server.services[i + 1].service))
    (hresolvable : pool.Resolvable s)
    (hgenerates : pool.Generates s server.services[i + 1].service)
    (hslash : 47 ∉ server.services[i + 1].service.info.qualifiedName)
    {r : Remote server σ AnyMessage} (hquiet : r.Quiet) :
    ∃ r₁ resp, run (Remote.step V overflow services) r
        [.request (.listServices hdiscovery), .serve, .deliver] = some r₁ ∧ r₁.Quiet ∧
      r₁.serving.service = r.serving.service ∧
      r₁.inbox.processed =
        r.inbox.processed ++ [.reply (.message Protocol.listServicesResponse) resp] ∧
      ∀ method ∈ s.methods, method.clientStreaming = false → method.serverStreaming = false →
        method.name ≠ [] → 46 ∉ method.name ∧ 47 ∉ method.name →
        ∀ separator : UInt8, separator = 47 ∨ separator = 46 →
        ∃ echo ∈ server.services[i + 1].service.methods, echo.name = method.name ∧
          ∃ endpointId nameOf dynamicMethod,
            pool.Prepared s method quote
              (server.services[i + 1].service.info.qualifiedName ++ separator :: method.name)
              (Protocol.responseServices resp) echo.parameter echo.result endpointId nameOf
              dynamicMethod ∧
            ∀ (held : DynamicPayload echo.parameter) (msg : Payload echo.parameter),
              DynamicPayload.Holds echo.parameter held msg →
              DynamicPayload.depth echo.parameter held ≤ MaxNesting →
              ∀ outcome, (services.method (i + 1) echo).call (Payload.received echo.parameter msg)
                r₁.serving.service = outcome →
              (∀ notice ∈ outcome.1.notices, notice.isReport = true) →
              ∃ r₂ r₃ answer, r₁.callRaw V endpointId
                  (DynamicPayload.writer V listFields echo.parameter held)
                  (cliDecoder hlocal hskip echo.result) = some r₂ ∧
                run (Remote.step V overflow services) r₂ [.serve, .deliver] = some r₃ ∧
                r₃.Quiet ∧ r₃.serving.service = outcome.2 ∧
                r₃.inbox.processed = r₁.inbox.processed ++ [answer] ∧
                CliTold hlocal hskip outcome.1 answer := by
  obtain ⟨r₁, resp, hrun, hquiet₁, hservice, hprocessed, hresp⟩ :=
    Remote.listServices hV hlocal overflow htyped hserver hfit hdiscovery hquiet
  refine ⟨r₁, resp, hrun, hquiet₁, hservice, hprocessed, ?_⟩
  intro method hmethod hclient hunary hname hplain separator hseparator
  have hsplit := splitMethod_names (Server.qualifiedName_ne_nil _) hslash hname hplain hseparator
  obtain ⟨echo, hecho, hechoName, hechoUnary, hparameter, hresult, nameOf, file, dynamicMethod,
    hmirrored, hfirst, hprepare⟩ := Layout.prepareCall_eq hserver hnamed hi hdesc hresolvable
      hgenerates hmethod hclient hunary quote hsplit
  obtain rfl : dynamicMethod.file = file := by
    rw [hmirrored.firstMethod] at hfirst
    rw [← Except.ok.inj hfirst]
  have hserved := server.handleRequest_rank hi hecho
  have hfollows : ∀ {j : Fin n} {codec : Option MessageType}, pool.Reachable s (.inl j) →
      pool.IsCodec j codec → ∀ T ∈ codec, ∃ message,
        dynamicMethod.file.Denotes (nameOf (.inl j)) (.message message) ∧
          T.Follows dynamicMethod.file.schema message.field := by
    rintro j _ hreach hcodec T rfl
    exact hmirrored.follows hreach hcodec.2
  rw [← hresp] at hprepare
  refine ⟨echo, hecho, hechoName, _, nameOf, dynamicMethod,
    ⟨hmirrored, hfirst, hfollows (ServiceDescriptor.reachable_input hmethod) hparameter,
      hfollows (ServiceDescriptor.reachable_output hmethod) hresult, hprepare⟩, ?_⟩
  intro held msg hheld hdepth outcome houtcome hreports
  rw [← UInt32.ofNat_one_add_sub_one] at hserved
  exact Remote.rawCall hV hlocal overflow hlist hreturns hskip htyped hfit
    (Operation.rpcId_ne_zero ⟨_, (i + 1, echo), .call (Payload.received echo.parameter msg),
      hserved, hechoUnary.symm⟩) hserved hechoUnary hquiet₁ hheld hdepth houtcome hreports

namespace Sample

/-- Services that count their calls. -/
def counting : LocalServices enumeratedServer Nat where
  method _ m :=
    { call := fun _ calls =>
        (⟨[], match m.result with | none => () | some T => T.default, by decide⟩, calls + 1)
      unsubscribe := fun calls => (⟨[], (), by decide⟩, calls) }

theorem counting_fit : counting.Fit := by
  intro c hc m hm _ i msg service
  show Payload.depth m.result (match m.result with | none => () | some T => T.default) ≤ _
  have hresult : m.result = none ∨ m.result = some enumeratedMessage := by
    simp only [enumeratedServer, List.mem_cons, List.not_mem_nil, or_false] at hc
    rcases hc with rfl | rfl
    · cases List.mem_singleton.mp hm
      exact .inl rfl
    · cases List.mem_singleton.mp hm
      exact .inr rfl
  rcases hresult with hresult | hresult
  · rw [hresult]
    exact Nat.zero_le _
  · rw [hresult]
    exact Nat.zero_le _

theorem enumeratedServer_wellTyped : enumeratedServer.WellTyped := by
  intro c hc m hm
  simp only [enumeratedServer, List.mem_cons, List.not_mem_nil, or_false] at hc
  rcases hc with rfl | rfl
  · cases List.mem_singleton.mp hm
    exact ⟨by rintro T ⟨⟩, by rintro T ⟨⟩⟩
  · cases List.mem_singleton.mp hm
    have hwf : enumeratedMessage.WellFormed := by
      simp [enumeratedMessage, MessageType.WellFormed, FieldKind.WellFormed, MessageType.numbers,
        StorageType.Bounded]
    exact ⟨by rintro T ⟨⟩; exact hwf, by rintro T ⟨⟩; exact hwf⟩

theorem enumerated_generates : enumerated.Generates enumeratedService enumeratedEcho := by
  intro method hmethod echo hecho hname
  cases List.mem_singleton.mp hmethod
  cases List.mem_singleton.mp hecho
  have hcodec : enumerated.IsCodec 0 (some enumeratedMessage) :=
    ⟨by decide, _, [], rfl, rfl, ⟨rfl, rfl⟩, rfl⟩
  exact ⟨hcodec, hcodec⟩

/-- `io::Reader::skip`, as it is documented. -/
def skipFull (n : Int) : Read (List UInt8) := Read.full n.toNat

theorem skipFull_returns : SkipReturns skipFull := Read.full_reads

theorem skipFull_local (n : Int) : (skipFull n).Local := Read.full_local n.toNat

theorem enumeratedServer_discovery :
    enumeratedServer.handleRequest 0 = some (0, method [108] 1) := rfl

end Sample

/-- `serialrpc call a.G/g` with a message that holds 7. -/
theorem command_line_call_enumerated :
    ∃ (r₁ r₂ r₃ : Remote Sample.enumeratedServer Nat AnyMessage) (endpointId : UInt32)
      (held : DynamicPayload (some Sample.enumeratedMessage)),
      run (Remote.step .leb128 (fun _ _ => .empty) Sample.counting) (.start [] 0)
        [.request (.listServices Sample.enumeratedServer_discovery), .serve, .deliver] = some r₁ ∧
      r₁.callRaw .leb128 endpointId (DynamicPayload.writer .leb128 listFieldsByNumber
          (some Sample.enumeratedMessage) (7, ()))
        (cliDecoder Varint.leb128_local Sample.skipFull_local
          (some Sample.enumeratedMessage)) = some r₂ ∧
      run (Remote.step .leb128 (fun _ _ => .empty) Sample.counting) r₂ [.serve, .deliver] =
        some r₃ ∧
      r₃.serving.service = 1 ∧
      r₃.inbox.processed = r₁.inbox.processed ++ [cliResponse Varint.leb128_local
        Sample.skipFull_local (some Sample.enumeratedMessage) held] := by
  obtain ⟨r₁, resp, hrun, -, hservice, -, hcalls⟩ := command_line_call Varint.leb128_lawful
    Varint.leb128_local (fun _ _ => .empty) id listFieldsByNumber_listsSetFields
    Sample.skipFull_returns Sample.skipFull_local Sample.enumeratedServer_described
    Sample.enumeratedServer_wellTyped Sample.enumeratedServer_discovery Sample.counting_fit
    Sample.enumerated_named (.inOrder Sample.enumerated) (s := Sample.enumeratedService) (i := 0)
    (by decide) Sample.enumerated_describe Sample.enumerated_resolvable
    Sample.enumerated_generates (by decide)
    (r := .start [] 0) ⟨rfl, rfl, rfl⟩
  obtain ⟨echo, hecho, -, endpointId, nameOf, dynamicMethod, -, hcall⟩ :=
    hcalls _ (List.mem_singleton_self _) rfl rfl (by decide) (by decide) 47 (.inl rfl)
  obtain rfl := List.mem_singleton.mp hecho
  obtain ⟨r₂, r₃, answer, hbegun, hserved, -, hcounted, hprocessed, htold⟩ :=
    hcall (7, ()) (7, ()) ⟨rfl, trivial⟩ (by decide) _ rfl (by rintro notice ⟨⟩)
  rw [hservice] at hcounted
  cases htold with
  | failed text h => cases h
  | returned held h hholds =>
    exact ⟨r₁, r₂, r₃, endpointId, held, hrun, hbegun, hserved, hcounted, hprocessed⟩

end SerialRpc
