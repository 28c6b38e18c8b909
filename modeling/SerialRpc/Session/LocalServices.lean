import SerialRpc.Client.Chunked
import SerialRpc.Service.Requests

/-!
# Services by value (server.cc:254-298, protoc_serialrpc_plugin.cc:2530-2661, 3056-3094)

The author of a service writes functions on messages: they take a request, say events
through the callbacks they were handed, and return a response or report an error. The
generated base makes bytes of all that, and the stub makes messages of the bytes again.

- `Emission`, `ErrorText`, `Outcome`: what a function says, by value. `LocalServices`: the
  functions of a server's services, and `LocalServices.implementation`: these behind their
  generated bases.
- `LocalServices.answer`: what a caller in the same process is told of an operation.
- `Tells`: a message of the server tells the client of something.
- `LocalServices.answer_told`: the answers of the server tell exactly what the caller in the
  same process is told, with the elements that encode to nothing removed.
- `Tells.takes`: what the client's worker makes of a message.
-/

namespace SerialRpc

open ByteStream

/-! ## What services say -/

/-- An event, as `send_$method$` has it (protoc_serialrpc_plugin.cc:2609): the id that the
subscription of the method was dispatched under, and the message. -/
structure Emission (server : Server) where
  /-- `this->$method$_id` -/
  methodId : UInt32
  endpoint : Endpoint
  served : server.handleRequest methodId = some endpoint
  streaming : Endpoint.streaming endpoint = true
  msg : Payload endpoint.2.result
  /-- The encoder has room for the message. -/
  fits : Payload.depth endpoint.2.result msg ≤ MaxNesting

/-- The text of an error, in the pieces that the formatter writes it in. -/
structure ErrorText where
  pieces : List Str
  ne_nil : [] ∉ pieces
  length_le : pieces.flatten.length ≤ Client.MaxStringSize

/-- What a function of a service says before it returns. -/
inductive Notice (server : Server) where
  | emit (event : Emission server)
  | report (text : ErrorText)

def Notice.isReport {server : Server} : Notice server → Bool
  | .emit _ => false
  | .report _ => true

/-- What a function of a service says and returns. -/
structure Outcome (server : Server) (result : Option MessageType) where
  notices : List (Notice server)
  value : Payload result
  /-- At most one error is reported. -/
  reports_le : notices.countP Notice.isReport ≤ 1

def Outcome.failed {server : Server} {result : Option MessageType}
    (outcome : Outcome server result) : Bool :=
  outcome.notices.any Notice.isReport

/-- The functions of a method: its `$method$`, or its `subscribe_$method$`, and its
`unsubscribe_$method$`. -/
structure LocalMethod (server : Server) (σ : Type) (m : EchoMethod) where
  call : Payload m.parameter → σ → Outcome server m.result × σ
  unsubscribe : σ → Outcome server none × σ

/-- The functions of a server's services, by service and method. -/
structure LocalServices (server : Server) (σ : Type) where
  method : Nat → (m : EchoMethod) → LocalMethod server σ m

/-- The encoder has room for the responses. -/
def LocalServices.Fit {server : Server} {σ : Type} (services : LocalServices server σ) : Prop :=
  ∀ c ∈ server.services, ∀ m ∈ c.service.methods, m.serverStreaming = false →
    ∀ (i : Nat) (msg : Payload m.parameter) (service : σ),
      Payload.depth m.result ((services.method i m).call msg service).1.value ≤ MaxNesting

/-! ## Behind the generated bases -/

section Bases

variable (V : Varint) {server : Server} {σ : Type}

/-- Both `send_event` (server.cc:274-296, server_impl.cc:286-297), up to the flush. -/
def sendEvent (eventId : UInt32) {result : Option MessageType} (msg : Payload result)
    (out : Writer Err) : Except Panic (Writer Err) :=
  let out := startEvent V eventId out
  if out.err.isSome then return out else writeRequest V result msg out

/-- What is said, as the connection gets it. -/
def Notice.action : Notice server → HandlerAction
  | .emit event =>
    .sendEvent event.methodId (Payload.bytes V event.endpoint.2.result event.msg)
  | .report text => .reportError text.pieces

theorem Notice.action_isError (notice : Notice server) :
    (notice.action V).isError = notice.isReport := by
  cases notice <;> rfl

/-- What a function does to the connection. -/
def Outcome.behaviour {result : Option MessageType} (outcome : Outcome server result) :
    Behaviour (Payload result) where
  actions := outcome.notices.map (Notice.action V)
  value := outcome.value

/-- The services behind their generated bases. -/
def LocalServices.implementation (services : LocalServices server σ) : Implementation σ where
  handler i m :=
    { call := fun msg service =>
        let outcome := (services.method i m).call msg service
        (outcome.1.behaviour V, outcome.2)
      unsubscribe := fun service =>
        let outcome := (services.method i m).unsubscribe service
        (outcome.1.behaviour V, outcome.2) }

end Bases

/-! ## In the same process -/

/-- What the stub decodes a payload with. -/
def Payload.decoder {ρ : Type} : Option MessageType → Client.Decoder ρ
  | none => .void
  | some T => .message T

/-- A payload without the elements that encode to nothing. -/
def Payload.received : (type : Option MessageType) → Payload type → Payload type
  | none, _ => ()
  | some T, msg => T.received msg

/-- A payload, as its decoder returns it. -/
def Payload.val {ρ : Type} : (type : Option MessageType) → Payload type →
    (Payload.decoder type : Client.Decoder ρ).Val
  | none, _ => ()
  | some T, msg => T.received msg

/-- A request without the elements that encode to nothing. -/
def Request.received {parameter : Option MessageType} : Request parameter → Request parameter
  | .call msg => .call (Payload.received parameter msg)
  | .subscribe msg => .subscribe (Payload.received parameter msg)
  | .unsubscribe => .unsubscribe

/-- What the templates of the client decode the reply to a request with. -/
def Endpoint.decoder {ρ : Type} : (endpoint : Endpoint) →
    Request (Endpoint.requestType endpoint) → Client.Decoder ρ
  | (0, _), .call _ => .message Protocol.listServicesResponse
  | (_ + 1, m), .call _ => Payload.decoder m.result
  | _, .subscribe _ | _, .unsubscribe => .void

section Local

variable {server : Server} {σ ρ : Type}

/-- What a caller is told while a function runs. -/
def Notice.told : Notice server → Client.Processed ρ
  | .emit event => .event (event.methodId + 1) (Payload.decoder event.endpoint.2.result)
      (Payload.val event.endpoint.2.result event.msg)
  | .report text => .errorReply text.pieces.flatten

/-- What a caller is told of a call: what the function has said, and its value if it has
not failed. -/
def Outcome.told {result : Option MessageType} (outcome : Outcome server result)
    (reply : Client.Processed ρ) : List (Client.Processed ρ) :=
  outcome.notices.map Notice.told ++ if outcome.failed then [] else [reply]

/-- What a caller in the same process is told of a request that has been made. -/
def LocalServices.answer (services : LocalServices server σ) : (endpoint : Endpoint) →
    Request (Endpoint.requestType endpoint) → σ → List (Client.Processed ρ) × σ
  | (0, _), .call request, service =>
    ([.reply (.message Protocol.listServicesResponse) (Protocol.listServicesResponse.received
      (ListServicesResponse.ofDescriptions server.descriptions request.1))], service)
  | (0, _), .subscribe _, service | (0, _), .unsubscribe, service => ([], service)
  | (i + 1, m), .call msg, service =>
    let outcome := (services.method (i + 1) m).call msg service
    (outcome.1.told (.reply (Payload.decoder m.result) (Payload.val m.result outcome.1.value)),
      outcome.2)
  | (i + 1, m), .subscribe msg, service =>
    let outcome := (services.method (i + 1) m).call msg service
    (outcome.1.told (.reply .void ()), outcome.2)
  | (i + 1, m), .unsubscribe, service =>
    let outcome := (services.method (i + 1) m).unsubscribe service
    (outcome.1.told (.reply .void ()), outcome.2)

end Local

/-! ## What the messages tell -/

/-- The bytes of a message. -/
def ServerMessage.bytes (msg : ServerMessage) : List UInt8 := msg.type.toUInt8 :: msg.body

/-- A message tells the client of something, whatever comes behind it. -/
inductive Tells {ρ : Type} (V : Varint) : ServerMessage → Client.Processed ρ → Prop
  | reply {body : List UInt8} {decoder : Client.Decoder ρ} {val : decoder.Val}
      (h : Reader.Takes (decoder.run V) body val) : Tells V ⟨.reply, body⟩ (.reply decoder val)
  | errorReply (text : ErrorText) :
      Tells V ⟨.errorReply, Conn.writeChunked V text.pieces⟩ (.errorReply text.pieces.flatten)
  | event (eventId : UInt32) {body : List UInt8} {decoder : Client.Decoder ρ}
      {val : decoder.Val} (h : Reader.Takes (decoder.run V) body val) :
      Tells V ⟨.event, V.writeUint32 eventId ++ body⟩ (.event eventId decoder val)

/-- The messages of a method are well formed. -/
def EchoMethod.WellTyped (m : EchoMethod) : Prop :=
  (∀ T ∈ m.parameter, T.WellFormed) ∧ ∀ T ∈ m.result, T.WellFormed

/-- The messages of a server's methods are. -/
def Server.WellTyped (server : Server) : Prop :=
  ∀ c ∈ server.services, ∀ m ∈ c.service.methods, m.WellTyped

section Told

variable {V : Varint} {server : Server} {σ ρ : Type}

/-- A well-formed payload is decoded from its bytes. -/
theorem Payload.takes (hV : V.Lawful) {type : Option MessageType}
    (hwf : ∀ T ∈ type, T.WellFormed) {msg : Payload type}
    (hdepth : Payload.depth type msg ≤ MaxNesting) :
    Reader.Takes ((Payload.decoder type : Client.Decoder ρ).run V) (Payload.bytes V type msg)
      (Payload.val type msg) := by
  cases type with
  | none => exact .pure ()
  | some T => exact fun rest => unmarshal_ref hV (hwf T rfl) hdepth rest

theorem Payload.arrives (hV : V.Lawful) {type : Option MessageType}
    (hwf : ∀ T ∈ type, T.WellFormed) {msg : Payload type}
    (hdepth : Payload.depth type msg ≤ MaxNesting) :
    Payload.Arrives V type msg (Payload.received type msg) := by
  cases type with
  | none => trivial
  | some T => exact Payload.arrives_received hV (hwf T rfl) hdepth

theorem Request.arrives (hV : V.Lawful) {parameter : Option MessageType}
    (hwf : ∀ T ∈ parameter, T.WellFormed) {req : Request parameter}
    (hdepth : req.depth ≤ MaxNesting) : req.Arrives V req.received := by
  cases req with
  | call msg => exact .call (Payload.arrives hV hwf hdepth)
  | subscribe msg => exact .subscribe (Payload.arrives hV hwf hdepth)
  | unsubscribe => exact .unsubscribe

/-- The types of an endpoint's messages. -/
theorem Server.WellTyped.requestType (h : server.WellTyped) {rpcId : UInt32}
    {endpoint : Endpoint} (hserved : server.handleRequest rpcId = some endpoint) :
    ∀ T ∈ Endpoint.requestType endpoint, T.WellFormed := by
  obtain ⟨i, m⟩ := endpoint
  obtain ⟨c, hc, hm⟩ := server.handleRequest_mem hserved
  cases i with
  | zero =>
    rintro T ⟨⟩
    simp [Protocol.listServicesRequest, MessageType.WellFormed, FieldKind.WellFormed,
      MessageType.numbers, StorageType.Bounded]
  | succ i => exact (h c hc m hm).1

theorem Server.WellTyped.result (h : server.WellTyped) {rpcId : UInt32} {endpoint : Endpoint}
    (hserved : server.handleRequest rpcId = some endpoint) :
    ∀ T ∈ endpoint.2.result, T.WellFormed := by
  obtain ⟨i, m⟩ := endpoint
  obtain ⟨c, hc, hm⟩ := server.handleRequest_mem hserved
  exact (h c hc m hm).2

/-- `send_event` puts a message of its own on a connection that takes it: the action's. -/
theorem sendEvent_open (hV : V.Lawful) (event : Emission server) {out : Writer Err}
    (hopen : out.Open) :
    sendEvent V event.methodId event.msg out =
      .ok (out.append (ServerMessage.bytes ⟨.event, V.writeUint32 (event.methodId + 1) ++
        Payload.bytes V event.endpoint.2.result event.msg⟩)) := by
  have hstart : startEvent V event.methodId out =
      out.append (ServerMessageType.event.toUInt8 :: V.writeUint32 (event.methodId + 1)) := by
    simp only [startEvent, hopen.write, Writer.append_err, hopen.err, Option.isSome_none,
      Bool.false_eq_true, if_false, hopen.write_append]
    rfl
  have hopen' := hopen.append
    (ServerMessageType.event.toUInt8 :: V.writeUint32 (event.methodId + 1))
  simp only [sendEvent, hstart, hopen'.err, Option.isSome_none, Bool.false_eq_true, if_false]
  rw [writeRequest_open hV event.fits hopen', Writer.append_append]
  rfl

/-- What a function says goes out as messages that tell it. -/
theorem Conn.foldl_act_told (hV : V.Lawful) (htyped : server.WellTyped)
    (notices : List (Notice server)) (conn : Conn σ) :
    ∃ sent, (notices.map (Notice.action V)).foldl (Conn.act V) conn =
        { conn with sent := conn.sent ++ sent } ∧
      List.Forall₂ (Tells (ρ := ρ) V) sent (notices.map Notice.told) := by
  induction notices generalizing conn with
  | nil => exact ⟨[], by simp, .nil⟩
  | cons notice notices ih =>
    have hact : ∃ msg, conn.act V (notice.action V) = { conn with sent := conn.sent ++ [msg] } ∧
        Tells V msg (notice.told (ρ := ρ)) := by
      cases notice with
      | emit event => exact ⟨_, rfl, .event _ (Payload.takes hV (htyped.result event.served)
          event.fits)⟩
      | report text => exact ⟨_, rfl, .errorReply text⟩
    obtain ⟨msg, hmsg, htells⟩ := hact
    obtain ⟨sent, hsent, hall⟩ := ih { conn with sent := conn.sent ++ [msg] }
    refine ⟨msg :: sent, ?_, .cons htells hall⟩
    rw [List.map_cons, List.foldl_cons, hmsg, hsent]
    simp

theorem Outcome.behaviour_failed {result : Option MessageType} (outcome : Outcome server result) :
    (outcome.behaviour V).failed = outcome.failed := by
  simp only [Behaviour.failed, Outcome.behaviour, Outcome.failed, List.any_map]
  congr 1
  exact funext (Notice.action_isError V)

/-- A function and, if it has not failed, the reply behind it. -/
theorem Outcome.run_told (hV : V.Lawful) (htyped : server.WellTyped)
    {result : Option MessageType} (outcome : Outcome server result) (service : σ) (conn : Conn σ)
    {body : List UInt8} {reply : Client.Processed ρ} (hreply : Tells V ⟨.reply, body⟩ reply) :
    ∃ sent, (if (outcome.behaviour V).failed then conn.run V (outcome.behaviour V, service)
        else (conn.run V (outcome.behaviour V, service)).send .reply body) =
          { conn with sent := conn.sent ++ sent, service := service } ∧
      List.Forall₂ (Tells V) sent (outcome.told reply) := by
  obtain ⟨sent, hsent, hall⟩ := Conn.foldl_act_told (ρ := ρ) hV htyped outcome.notices conn
  have hrun : conn.run V (outcome.behaviour V, service) =
      { conn with sent := conn.sent ++ sent, service := service } := by
    rw [Conn.run, Outcome.behaviour, hsent]
  rw [Outcome.behaviour_failed, hrun, Outcome.told]
  cases outcome.failed with
  | true => exact ⟨sent, rfl, by simpa using hall⟩
  | false =>
    refine ⟨sent ++ [⟨.reply, body⟩], ?_, List.rel_append hall (.cons hreply .nil)⟩
    simp [Conn.send]

/-- What a call of a method answers, whatever the reply behind it is decoded with. -/
theorem LocalServices.answer_call_told (hV : V.Lawful)
    (overflow : (capacity : Nat) → Str → InlineString capacity) (htyped : server.WellTyped)
    {services : LocalServices server σ} {i : Nat} {m : EchoMethod} (msg : Payload m.parameter)
    (conn : Conn σ)
    (hfits : Payload.depth m.result ((services.method (i + 1) m).call msg conn.service).1.value ≤
      MaxNesting) {reply : Client.Processed ρ}
    (hreply : Tells V ⟨.reply, Payload.bytes V m.result
      ((services.method (i + 1) m).call msg conn.service).1.value⟩ reply) :
    ∃ sent, server.answer V overflow (services.implementation V) (i + 1, m) conn (.call msg) =
        .ok { conn with
          sent := conn.sent ++ sent
          service := ((services.method (i + 1) m).call msg conn.service).2 } ∧
      List.Forall₂ (Tells V) sent
        (((services.method (i + 1) m).call msg conn.service).1.told reply) := by
  obtain ⟨sent, hsent, htold⟩ := Outcome.run_told hV htyped
    ((services.method (i + 1) m).call msg conn.service).1
    ((services.method (i + 1) m).call msg conn.service).2 conn hreply
  have hsend := sendReply_open hV hfits (conn.run V
    (((services.method (i + 1) m).call msg conn.service).1.behaviour V,
      ((services.method (i + 1) m).call msg conn.service).2))
  refine ⟨sent, Eq.trans ?_ (congrArg Except.ok hsent), htold⟩
  rw [apply_ite Except.ok, ← hsend]
  rfl

/-- What a server's services answer tells what a caller in the same process is told. -/
theorem LocalServices.answer_told (hV : V.Lawful)
    (overflow : (capacity : Nat) → Str → InlineString capacity) (htyped : server.WellTyped)
    (hdescribed : server.Described) {services : LocalServices server σ} (hfit : services.Fit)
    {rpcId : UInt32}
    {endpoint : Endpoint} (hserved : server.handleRequest rpcId = some endpoint)
    {request : Request (Endpoint.requestType endpoint)}
    (hshape : request.streaming = Endpoint.streaming endpoint) (conn : Conn σ) :
    ∃ sent, server.answer V overflow (services.implementation V) endpoint conn request =
        .ok { conn with
          sent := conn.sent ++ sent
          service := (services.answer (ρ := ρ) endpoint request conn.service).2 } ∧
      List.Forall₂ (Tells V) sent (services.answer (ρ := ρ) endpoint request conn.service).1 := by
  have hresult := htyped.result hserved
  obtain ⟨i, m⟩ := endpoint
  obtain ⟨c, hc, hm⟩ := server.handleRequest_mem hserved
  cases i with
  | zero =>
    cases request with
    | subscribe msg => cases hshape
    | unsubscribe => cases hshape
    | call request =>
      obtain ⟨bytes, hbody, hread⟩ := unmarshal_listServicesBody hV overflow request.1
        hdescribed.fits_descriptions
      refine ⟨[⟨.reply, bytes⟩], ?_, .cons (.reply hread) .nil⟩
      show (do
        let out ← listServicesBody V overflow server.descriptions request.1 {}
        return conn.send .reply out.written) = (.ok _ : Except Panic _)
      rw [hbody]
      rfl
  | succ i =>
    have hvoid : Tells V ⟨.reply, []⟩ (.reply (.void : Client.Decoder ρ) ()) :=
      .reply (.pure ())
    cases request with
    | subscribe msg =>
      obtain ⟨sent, hsent, htold⟩ := Outcome.run_told hV htyped
        ((services.method (i + 1) m).call msg conn.service).1
        ((services.method (i + 1) m).call msg conn.service).2 conn hvoid
      exact ⟨sent, congrArg Except.ok hsent, htold⟩
    | unsubscribe =>
      obtain ⟨sent, hsent, htold⟩ := Outcome.run_told hV htyped
        ((services.method (i + 1) m).unsubscribe conn.service).1
        ((services.method (i + 1) m).unsubscribe conn.service).2 conn hvoid
      exact ⟨sent, congrArg Except.ok hsent, htold⟩
    | call msg =>
      have hfits := hfit c hc m hm hshape.symm (i + 1) msg conn.service
      exact LocalServices.answer_call_told hV overflow htyped msg conn hfits
        (.reply (Payload.takes hV hresult hfits))

end Told

/-! ## What the client makes of a message -/

namespace Client

variable {V : Varint} {ρ : Type}

/-- Whether something ends a call. -/
def Processed.isAnswer : Processed ρ → Bool
  | .reply _ _ | .errorReply _ => true
  | .event _ _ _ | .log _ => false

/-- What is shared is ready for something: the call it answers is the first to wait, and
waits for that, or the event has its callback. -/
def Pending.Expects (pending : Pending ρ) : Processed ρ → Prop
  | .reply decoder _ => pending.calls.head? = some decoder
  | .errorReply _ => pending.calls ≠ []
  | .event eventId decoder _ => pending.callbacks eventId = some decoder
  | .log _ => True

/-- The worker has processed something. -/
def Inbox.process (s : Inbox ρ) (told : Processed ρ) : Inbox ρ :=
  { s with
    pending.calls := if told.isAnswer then s.pending.calls.tail else s.pending.calls
    processed := s.processed ++ [told] }

theorem Tells.takes (hV : V.Lawful) {s : Inbox ρ} {msg : ServerMessage} {told : Processed ρ}
    (htells : Tells V msg told) (hexpects : s.pending.Expects told) :
    Reader.Takes (Reader.round (inputRound V fun _ pending => pending) s) msg.bytes
      (true, s.process told) := by
  intro rest
  have hround : ∀ type body, Reader.round (inputRound V fun _ pending => pending) s
      (.ofBytes (ServerMessage.bytes ⟨type, body⟩ ++ rest)) =
        serverMessage V type s (.ofBytes (body ++ rest)) :=
    fun type body => inputRound_message _ s type (body ++ rest)
  cases htells with
  | @reply body decoder val h =>
    obtain ⟨calls, hcalls⟩ : ∃ calls, s.pending.calls = decoder :: calls := by
      obtain ⟨calls, hcalls⟩ := List.head?_eq_some_iff.mp hexpects
      exact ⟨calls, hcalls⟩
    rw [hround]
    simp only [serverMessage, handleServerMessage, Inbox.goOn, handleReply, hcalls, h rest,
      Inbox.process, Processed.isAnswer, Reader.err_ofBytes, Option.isNone_none, if_true,
      List.tail_cons]
  | errorReply text =>
    obtain ⟨decoder, calls, hcalls⟩ := List.exists_cons_of_ne_nil hexpects
    have hread := error_reply_text hV hcalls text.ne_nil text.length_le rest
    rw [hround]
    simp only [serverMessage, handleServerMessage, Inbox.goOn, hread, Inbox.process,
      Processed.isAnswer, Reader.err_ofBytes, Option.isNone_none, if_true, hcalls, List.tail_cons]
  | @event eventId body decoder val h =>
    have hid := Reader.read_ofBytes (hV.uint32 eventId) Err.baselib (body ++ rest)
    have hcallback : s.pending.callbacks eventId = some decoder := hexpects
    rw [hround, List.append_assoc]
    simp only [serverMessage, handleServerMessage, hid, Reader.err_ofBytes, Option.isSome_none,
      Bool.false_eq_true, if_false, Inbox.goOn, handleEvent, hcallback, h rest, Inbox.process,
      Processed.isAnswer, Option.isNone_none]

end Client

end SerialRpc
