import SerialRpc.Encoding.UnknownFields
import SerialRpc.Service.Dispatch

/-!
# The request stream (client.h:111-348, protoc_serialrpc_plugin.cc:2530-2661, 3000-3141)

A client's operations put their requests behind one another on the connection, with no
length and no separator, and each of the four shapes of a request has a template of its
own on either side. This is what the client's templates write and what the generated
dispatch functions read.

- `Request`: what a request asks of an endpoint. `Request.write`: the client's templates,
  `Endpoint.readBody`: what a dispatch function reads. `Server.dispatch_eq`: a dispatch
  function reads a request and hands it to the handler.
- `Server.trace`: what the rounds of `accept` handle.
- `requests_dispatched`: whatever a client does on a session, the server handles exactly
  its operations, in order, and then its goodbye.
-/

namespace SerialRpc

open ByteStream

/-! ## Requests -/

/-- An endpoint of a server: a service, by its position, and one of its methods. -/
abbrev Endpoint := Nat × EchoMethod

/-- The type of the request. The first service is the discovery service, which answers
`list_services` itself. -/
def Endpoint.requestType : Endpoint → Option MessageType
  | (0, _) => some Protocol.listServicesRequest
  | (_ + 1, m) => m.parameter

/-- Whether the endpoint's events are subscribed to. -/
def Endpoint.streaming : Endpoint → Bool
  | (0, _) => false
  | (_ + 1, m) => m.serverStreaming

/-- What a request asks of an endpoint: a call, or to turn its events on or off. -/
inductive Request (parameter : Option MessageType) where
  | call (msg : Payload parameter)
  | subscribe (msg : Payload parameter)
  | unsubscribe

/-- Whether a request has an enable flag. -/
def Request.streaming {parameter : Option MessageType} : Request parameter → Bool
  | .call _ => false
  | .subscribe _ | .unsubscribe => true

section Codec

variable (V : Varint)

/-! ### The client's templates -/

/-- What `start_request` writes (client.cc:123-135). -/
def startRequest (rpcId : UInt32) (out : Writer Err) : Writer Err :=
  out.write (V.writeUint32 rpcId) .baselib

/-- `marshal(*conn, req, err)`, in the templates that have a request. -/
def writeRequest : (parameter : Option MessageType) → Payload parameter → Writer Err →
    Except Panic (Writer Err)
  | none, _, out => return out
  | some T, req, out => marshal V T req out

/-- `call` and `call_void` (client.h:111-248), as far as they write. -/
def Client.call {parameter : Option MessageType} (rpcId : UInt32) (req : Payload parameter)
    (out : Writer Err) : Except Panic (Writer Err) :=
  let out := startRequest V rpcId out
  if out.err.isSome then return out else writeRequest V parameter req out

/-- Both `subscribe` (client.h:250-315), as far as they write. -/
def Client.subscribe {parameter : Option MessageType} (rpcId : UInt32) (req : Payload parameter)
    (out : Writer Err) : Except Panic (Writer Err) :=
  let out := startRequest V rpcId out
  if out.err.isSome then return out
  else
    let out := out.write [1] .baselib
    if out.err.isSome then return out else writeRequest V parameter req out

/-- `unsubscribe` (client.h:318-348), as far as it writes. -/
def Client.unsubscribe (rpcId : UInt32) (out : Writer Err) : Except Panic (Writer Err) :=
  let out := startRequest V rpcId out
  if out.err.isSome then return out else return out.write [0] .baselib

/-- What `close` writes on a running session (client.cc:112-114). -/
def Client.close (out : Writer Err) : Writer Err := out.write [0] .baselib

/-- The body of the stub's function for a request (protoc_serialrpc_plugin.cc:3006-3141). -/
def Request.write {parameter : Option MessageType} (rpcId : UInt32) :
    Request parameter → Writer Err → Except Panic (Writer Err)
  | .call req => Client.call V rpcId req
  | .subscribe req => Client.subscribe V rpcId req
  | .unsubscribe => Client.unsubscribe V rpcId

/-! ### The dispatch functions -/

/-- What a dispatch function reads before it calls a handler; `none` if there has been an
error. -/
def Request.read (streaming : Bool) (parameter : Option MessageType) (inp : In) :
    Option (Request parameter) × In :=
  if streaming then
    let enabled := inp.read Read.byte .baselib
    if enabled.2.err.isSome then (none, enabled.2)
    else if enabled.1 ≠ 0 then
      let msg := readRequest V parameter enabled.2
      if msg.2.err.isSome then (none, msg.2) else (some (.subscribe msg.1), msg.2)
    else (some .unsubscribe, enabled.2)
  else
    let msg := readRequest V parameter inp
    if msg.2.err.isSome then (none, msg.2) else (some (.call msg.1), msg.2)

/-- What the dispatch function of an endpoint reads. -/
def Endpoint.readBody (endpoint : Endpoint) :
    In → Option (Request (Endpoint.requestType endpoint)) × In :=
  Request.read V (Endpoint.streaming endpoint) (Endpoint.requestType endpoint)

variable {σ : Type}

/-- The return after an error, and what is done with a request that was read. -/
def Conn.serve {α : Type} (conn : Conn σ) (body : Option α × In)
    (answer : Conn σ → α → Except Panic (Conn σ)) : Except Panic (Conn σ) :=
  match body.1 with
  | none => return { conn with inp := body.2 }
  | some request => answer { conn with inp := body.2 } request

/-- What the dispatch function of a method does with the request it has read. -/
def EchoMethod.answer {m : EchoMethod} (handler : Handler σ m) (conn : Conn σ) :
    Request m.parameter → Except Panic (Conn σ)
  | .call msg =>
    let resp := handler.call msg conn.service
    let conn := conn.run V resp
    if resp.1.failed then return conn else sendReply V m.result resp.1.value conn
  | .subscribe msg =>
    let resp := handler.call msg conn.service
    return if resp.1.failed then conn.run V resp else (conn.run V resp).send .reply []
  | .unsubscribe =>
    let resp := handler.unsubscribe conn.service
    return if resp.1.failed then conn.run V resp else (conn.run V resp).send .reply []

/-- What `dispatch_list_services` does with the request it has read, which is a call. -/
def answerListServices (overflow : (capacity : Nat) → Str → InlineString capacity)
    (services : List ServiceDescription) (conn : Conn σ) :
    Request (some Protocol.listServicesRequest) → Except Panic (Conn σ)
  | .call request => do
    let out ← listServicesBody V overflow services request.1 {}
    return conn.send .reply out.written
  | .subscribe _ | .unsubscribe => return conn

/-- What the dispatch function of an endpoint does with the request it has read. -/
def Server.answer (overflow : (capacity : Nat) → Str → InlineString capacity) (server : Server)
    (impl : Implementation σ) :
    (endpoint : Endpoint) → Conn σ → Request (Endpoint.requestType endpoint) →
      Except Panic (Conn σ)
  | (0, _) => answerListServices V overflow server.descriptions
  | (i + 1, m) => EchoMethod.answer V (impl.handler (i + 1) m)

end Codec

section Dispatch

variable {V : Varint} {σ : Type} {overflow : (capacity : Nat) → Str → InlineString capacity}

/-- A unary dispatch reads a request and serves it. -/
theorem dispatchUnary_eq {m : EchoMethod} (handler : Handler σ m) (conn : Conn σ) :
    dispatchUnary V m handler conn =
      conn.serve (Request.read V false m.parameter conn.inp) (EchoMethod.answer V handler) := by
  simp only [dispatchUnary, Request.read, Bool.false_eq_true, if_false]
  generalize readRequest V m.parameter conn.inp = msg
  by_cases herr : msg.2.err.isSome = true
  · simp only [if_pos herr]
    rfl
  · simp only [if_neg herr]
    rfl

theorem dispatchStreaming_eq {m : EchoMethod} (handler : Handler σ m) (conn : Conn σ) :
    (return dispatchStreaming V m handler conn : Except Panic (Conn σ)) =
      conn.serve (Request.read V true m.parameter conn.inp) (EchoMethod.answer V handler) := by
  simp only [dispatchStreaming, Request.read, if_true]
  generalize conn.inp.read Read.byte .baselib = enabled
  by_cases herr : enabled.2.err.isSome = true
  · simp only [if_pos herr]
    rfl
  · by_cases henabled : enabled.1 ≠ 0
    · generalize readRequest V m.parameter enabled.2 = msg
      by_cases hbody : msg.2.err.isSome = true
      · simp only [if_neg herr, if_pos henabled, if_pos hbody]
        rfl
      · simp only [if_neg herr, if_pos henabled, if_neg hbody]
        rfl
    · simp only [if_neg herr, if_neg henabled]
      rfl

theorem dispatchListServices_eq (services : List ServiceDescription) (conn : Conn σ) :
    dispatchListServices V overflow services conn =
      conn.serve (Request.read V false (some Protocol.listServicesRequest) conn.inp)
        (answerListServices V overflow services) := by
  have hread : Request.read V false (some Protocol.listServicesRequest) conn.inp =
      if (unmarshal V Protocol.listServicesRequest conn.inp).2.err.isSome then
        (none, (unmarshal V Protocol.listServicesRequest conn.inp).2)
      else (some (.call (unmarshal V Protocol.listServicesRequest conn.inp).1),
        (unmarshal V Protocol.listServicesRequest conn.inp).2) := rfl
  rw [hread]
  unfold dispatchListServices
  by_cases herr : (unmarshal V Protocol.listServicesRequest conn.inp).2.err.isSome = true
  · rw [if_pos herr, if_pos herr]
    rfl
  · rw [if_neg herr, if_neg herr]
    rfl

/-- `handle_request` looks up an endpoint, reads a request for it, and hands exactly this
request on. -/
theorem Server.dispatch_eq (server : Server) (impl : Implementation σ) (rpcId : UInt32)
    (conn : Conn σ) :
    server.dispatch V overflow impl rpcId conn =
      match server.handleRequest rpcId with
      | none => return conn.send .unknown []
      | some endpoint => conn.serve (Endpoint.readBody V endpoint conn.inp)
          (server.answer V overflow impl endpoint) := by
  unfold Server.dispatch
  cases server.handleRequest rpcId with
  | none => rfl
  | some endpoint =>
    obtain ⟨i, m⟩ := endpoint
    cases i with
    | zero => exact dispatchListServices_eq server.descriptions conn
    | succ i =>
      dsimp only [Endpoint.readBody, Endpoint.streaming]
      cases m.serverStreaming with
      | true => exact dispatchStreaming_eq _ conn
      | false => exact dispatchUnary_eq _ conn

end Dispatch

/-! ## What is written is what is read -/

section Bytes

variable (V : Varint)

/-- What the encoder writes for a request. -/
def Payload.bytes : (parameter : Option MessageType) → Payload parameter → List UInt8
  | none, _ => []
  | some T, req => T.ref V req ++ [endByte]

def Payload.depth : (parameter : Option MessageType) → Payload parameter → Nat
  | none, _ => 0
  | some T, req => T.depth req

/-- The encoder has room for a request, and all that it writes is decoded as a request. -/
def Payload.Arrives : (parameter : Option MessageType) → (req msg : Payload parameter) → Prop
  | none, _, _ => True
  | some T, req, msg => T.depth req ≤ MaxNesting ∧ ∃ out, marshal V T req {} = .ok out ∧
    unmarshal V T (.ofBytes out.written) = (msg, .ofBytes [])

namespace Request

variable {parameter : Option MessageType}

/-- What a client writes behind the id. -/
def bytes : Request parameter → List UInt8
  | .call req => Payload.bytes V parameter req
  | .subscribe req => 1 :: Payload.bytes V parameter req
  | .unsubscribe => [0]

def depth : Request parameter → Nat
  | .call req | .subscribe req => Payload.depth parameter req
  | .unsubscribe => 0

/-- A request is decoded from what is written for it, as some request. -/
inductive Arrives : (req msg : Request parameter) → Prop
  | call {req msg : Payload parameter} (h : Payload.Arrives V parameter req msg) :
      Arrives (.call req) (.call msg)
  | subscribe {req msg : Payload parameter} (h : Payload.Arrives V parameter req msg) :
      Arrives (.subscribe req) (.subscribe msg)
  | unsubscribe : Arrives .unsubscribe .unsubscribe

/-- A request survives the codec's round trip. -/
def Survives (req : Request parameter) : Prop := req.Arrives V req

end Request

end Bytes

section RoundTrip

variable {V : Varint} {parameter : Option MessageType}

/-- On an open writer a request is written whole. -/
theorem writeRequest_open (hV : V.Lawful) {req : Payload parameter} {out : Writer Err}
    (hdepth : Payload.depth parameter req ≤ MaxNesting) (hopen : out.Open) :
    writeRequest V parameter req out = .ok (out.append (Payload.bytes V parameter req)) := by
  cases parameter with
  | none => simp [writeRequest, Payload.bytes, pure, Except.pure]
  | some T => exact marshal_open hV hopen hdepth

/-- A client whose writes succeed writes the id and what belongs to the request. -/
theorem Request.write_open (hV : V.Lawful) (rpcId : UInt32) (req : Request parameter)
    {out : Writer Err} (hdepth : req.depth ≤ MaxNesting) (hopen : out.Open) :
    req.write V rpcId out = .ok (out.append (V.writeUint32 rpcId ++ req.bytes V)) := by
  have hstart : startRequest V rpcId out = out.append (V.writeUint32 rpcId) := hopen.write _ _
  have hopen' := hopen.append (V.writeUint32 rpcId)
  cases req with
  | call msg =>
    simp only [Request.write, Client.call, hstart, hopen'.err, Option.isSome_none,
      Bool.false_eq_true, if_false]
    rw [writeRequest_open hV hdepth hopen', Writer.append_append]
    rfl
  | subscribe msg =>
    have hflag : (out.append (V.writeUint32 rpcId)).write [1] Err.baselib =
        out.append (V.writeUint32 rpcId ++ [1]) := hopen.write_append _ _ _
    have hopen'' := hopen.append (V.writeUint32 rpcId ++ [1])
    simp only [Request.write, Client.subscribe, hstart, hopen'.err, hflag, hopen''.err,
      Option.isSome_none, Bool.false_eq_true, if_false]
    rw [writeRequest_open hV hdepth hopen'', Writer.append_append, List.append_assoc]
    rfl
  | unsubscribe =>
    simp only [Request.write, Client.unsubscribe, hstart, hopen'.err, Option.isSome_none,
      Bool.false_eq_true, if_false, hopen.write_append]
    rfl

/-- What arrives was nested within the limit. -/
theorem Payload.Arrives.depth_le {req msg : Payload parameter}
    (h : Payload.Arrives V parameter req msg) : Payload.depth parameter req ≤ MaxNesting := by
  cases parameter with
  | none => exact Nat.zero_le _
  | some T => exact h.1

theorem Request.Arrives.depth_le {req msg : Request parameter} (h : req.Arrives V msg) :
    req.depth ≤ MaxNesting := by
  cases h with
  | call h => exact h.depth_le
  | subscribe h => exact h.depth_le
  | unsubscribe => exact Nat.zero_le _

/-- A message that arrives is read off any stream that begins with it. -/
theorem readRequest_takes (hV : V.Lawful) (hlocal : V.Local) {req msg : Payload parameter}
    (h : Payload.Arrives V parameter req msg) :
    Reader.Takes (readRequest V parameter) (Payload.bytes V parameter req) msg := by
  cases parameter with
  | none => exact .pure ()
  | some T =>
    obtain ⟨hdepth, out, hout, hread⟩ := h
    have hopen : Writer.Open ({} : Writer Err) := ⟨rfl, rfl⟩
    rw [marshal_open hV hopen hdepth] at hout
    cases hout
    exact (unmarshal_local hlocal T).takes_all hread

/-- A well-formed message arrives without the elements that encode to nothing. So those that
have none survive. -/
theorem Payload.arrives_received (hV : V.Lawful) {T : MessageType} (hwf : T.WellFormed)
    {req : T.Val} (hdepth : T.depth req ≤ MaxNesting) :
    Payload.Arrives V (some T) req (T.received req) := by
  have hopen : Writer.Open ({} : Writer Err) := ⟨rfl, rfl⟩
  obtain ⟨bytes, hmarshal, hunmarshal⟩ := unmarshal_marshal V hV T hwf req hdepth {} hopen []
  rw [List.append_nil] at hunmarshal
  exact ⟨hdepth, _, hmarshal, hunmarshal⟩

/-- What a dispatch function reads off what a client has written for it. -/
theorem Request.read_takes (hV : V.Lawful) (hlocal : V.Local) {req msg : Request parameter}
    (h : req.Arrives V msg) :
    Reader.Takes (Request.read V req.streaming parameter) (req.bytes V) (some msg) := by
  intro rest
  cases h with
  | call h =>
    have hread := readRequest_takes hV hlocal h rest
    simp [Request.read, Request.streaming, Request.bytes, hread]
  | @subscribe req msg h =>
    have hflag : (Reader.ofBytes (1 :: Payload.bytes V parameter req ++ rest)).read Read.byte
        Err.baselib = (1, .ofBytes (Payload.bytes V parameter req ++ rest)) := rfl
    have hread := readRequest_takes hV hlocal h rest
    simp only [Request.read, Request.streaming, Request.bytes, hflag, hread, Reader.err_ofBytes,
      Option.isSome_none, Bool.false_eq_true, if_true, if_false]
    rfl
  | unsubscribe => rfl

end RoundTrip

/-! ## Answering -/

/-- The handlers of a server's calls return responses that are nested no deeper than the
encoder's stack goes. -/
def Implementation.ResponsesFit {σ : Type} (impl : Implementation σ) (server : Server) : Prop :=
  ∀ c ∈ server.services, ∀ m ∈ c.service.methods, m.serverStreaming = false →
    ∀ (i : Nat) (msg : Payload m.parameter) (service : σ),
      Payload.depth m.result ((impl.handler i m).call msg service).1.value ≤ MaxNesting

/-- Some more messages, none of them a goodbye. -/
def Continues (sent sent' : List ServerMessage) : Prop :=
  ∃ more, sent' = sent ++ more ∧ ∀ msg ∈ more, msg.type ≠ .serverGoodbye

section Answer

variable {V : Varint} {σ : Type}

theorem Continues.refl (sent : List ServerMessage) : Continues sent sent :=
  ⟨[], (List.append_nil _).symm, by simp⟩

/-- Messages that continue may be continued. -/
theorem Continues.trans {sent sent' sent'' : List ServerMessage} (h : Continues sent sent')
    (h' : Continues sent' sent'') : Continues sent sent'' := by
  obtain ⟨more, rfl, hmore⟩ := h
  obtain ⟨more', rfl, hmore'⟩ := h'
  refine ⟨more ++ more', List.append_assoc .., fun msg hmsg => ?_⟩
  rcases List.mem_append.mp hmsg with hmsg | hmsg
  · exact hmore msg hmsg
  · exact hmore' msg hmsg

/-- A message that is no goodbye goes on from what was sent. -/
theorem Conn.send_continues (conn : Conn σ) {type : ServerMessageType} (body : List UInt8)
    (h : type ≠ .serverGoodbye) : Continues conn.sent (conn.send type body).sent := by
  refine ⟨[⟨type, body⟩], rfl, fun msg hmsg => ?_⟩
  rw [List.mem_singleton.mp hmsg]
  exact h

theorem Conn.foldl_act_continues (actions : List HandlerAction) (conn : Conn σ) :
    Continues conn.sent (actions.foldl (Conn.act V) conn).sent := by
  induction actions generalizing conn with
  | nil => exact .refl _
  | cons action actions ih =>
    have hact : Continues conn.sent (conn.act V action).sent := by
      cases action with
      | sendEvent eventId body => exact conn.send_continues _ (by decide)
      | reportError text => exact conn.send_continues _ (by decide)
    exact hact.trans (ih _)

theorem Conn.run_continues {α : Type} (conn : Conn σ) (result : Behaviour α × σ) :
    Continues conn.sent (conn.run V result).sent :=
  Conn.foldl_act_continues _ conn

theorem Server.stopAccept_continues (server : Server) (impl : Implementation σ) (conn : Conn σ) :
    Continues conn.sent (server.stopAccept V impl conn).sent := by
  unfold Server.stopAccept
  generalize server.services.zipIdx.tail.flatMap _ = methods
  induction methods generalizing conn with
  | nil => exact .refl _
  | cons entry methods ih =>
    have hrun := Conn.foldl_act_continues (V := V) (((impl.handler entry.1 entry.2).unsubscribe
      conn.service).1.actions.filter fun action => !action.isError) conn
    exact hrun.trans (ih (conn.runIgnoring V _))

/-- A handler's answer to a request: nothing is read, and no goodbye is said. -/
def Conn.Answered (conn conn' : Conn σ) : Prop :=
  conn'.inp = conn.inp ∧ Continues conn.sent conn'.sent

/-- A handler that reports an error, or its reply, answers. -/
theorem Conn.run_reply_answered {α : Type} (conn : Conn σ) (result : Behaviour α × σ) :
    conn.Answered (if result.1.failed then conn.run V result
      else (conn.run V result).send .reply []) := by
  refine ⟨conn.run_reply_inp result, ?_⟩
  split
  · exact conn.run_continues result
  · exact (conn.run_continues result).trans ((conn.run V result).send_continues [] (by decide))

/-- A response within the limit is written whole. -/
theorem sendReply_open (hV : V.Lawful) {result : Option MessageType} {resp : Payload result}
    (hdepth : Payload.depth result resp ≤ MaxNesting) (conn : Conn σ) :
    sendReply V result resp conn = .ok (conn.send .reply (Payload.bytes V result resp)) := by
  cases result with
  | none => rfl
  | some T =>
    have hopen : Writer.Open ({} : Writer Err) := ⟨rfl, rfl⟩
    rw [sendReply, marshal_open hV hopen hdepth]
    rfl

/-- A method whose responses are within the limit answers. -/
theorem EchoMethod.answer_ok (hV : V.Lawful) {m : EchoMethod} (handler : Handler σ m)
    (request : Request m.parameter)
    (hfits : request.streaming = false → ∀ msg service,
      Payload.depth m.result (handler.call msg service).1.value ≤ MaxNesting) (conn : Conn σ) :
    ∃ conn', EchoMethod.answer V handler conn request = .ok conn' ∧ conn.Answered conn' := by
  cases request with
  | subscribe msg => exact ⟨_, rfl, conn.run_reply_answered _⟩
  | unsubscribe => exact ⟨_, rfl, conn.run_reply_answered _⟩
  | call msg =>
    have hdepth := hfits rfl msg conn.service
    simp only [EchoMethod.answer]
    generalize handler.call msg conn.service = resp at hdepth
    have hrun := conn.run_continues (V := V) resp
    by_cases hfailed : resp.1.failed = true
    · rw [if_pos hfailed]
      exact ⟨_, rfl, conn.run_inp resp, hrun⟩
    · rw [if_neg hfailed]
      exact ⟨_, sendReply_open hV hdepth _, conn.run_inp resp,
        hrun.trans (Conn.send_continues _ _ (by decide))⟩

/-- A request arrives in the shape it was sent in. -/
theorem Request.Arrives.streaming_eq {parameter : Option MessageType}
    {req msg : Request parameter} (h : req.Arrives V msg) : msg.streaming = req.streaming := by
  cases h with
  | call h => rfl
  | subscribe h => rfl
  | unsubscribe => rfl

/-- A request of the endpoint's own shape is answered. -/
theorem Server.answer_ok (hV : V.Lawful)
    (overflow : (capacity : Nat) → Str → InlineString capacity) {server : Server}
    {impl : Implementation σ} (hfits : impl.ResponsesFit server) {rpcId : UInt32}
    {endpoint : Endpoint} (hserved : server.handleRequest rpcId = some endpoint)
    {request : Request (Endpoint.requestType endpoint)}
    (hshape : request.streaming = Endpoint.streaming endpoint) (conn : Conn σ) :
    ∃ conn', server.answer V overflow impl endpoint conn request = .ok conn' ∧
      conn.Answered conn' := by
  obtain ⟨i, m⟩ := endpoint
  cases i with
  | zero =>
    cases request with
    | call request =>
      -- `list_services` has no handler, and its reply always fits.
      obtain ⟨bytes, hbytes⟩ := listServicesBody_ok hV overflow request.1 server.descriptions
      refine ⟨conn.send .reply bytes, ?_, rfl, conn.send_continues _ (by decide)⟩
      show (do
        let out ← listServicesBody V overflow server.descriptions request.1 {}
        return conn.send .reply out.written) = (.ok (conn.send .reply bytes) : Except Panic _)
      rw [hbytes]
      rfl
    | subscribe request => cases hshape
    | unsubscribe => cases hshape
  | succ i =>
    obtain ⟨c, hc, hm⟩ := server.handleRequest_mem hserved
    exact EchoMethod.answer_ok hV (impl.handler (i + 1) m) request
      (fun hcall => hfits c hc m hm (hshape.symm.trans hcall) (i + 1)) conn

end Answer

/-! ## What the server handles -/

/-- What a round of the loop of `accept` handles. -/
inductive Handled where
  /-- An id that is not in the table. -/
  | unknown (rpcId : UInt32)
  /-- An endpoint, with the request that its dispatch function has read, if it has. -/
  | request (rpcId : UInt32) (endpoint : Endpoint)
      (request : Option (Request (Endpoint.requestType endpoint)))
  | goodbye

namespace Server

variable (V : Varint) {σ : Type} (overflow : (capacity : Nat) → Str → InlineString capacity)
  (server : Server) (impl : Implementation σ)

/-- Ghost: what a round handles; nothing, if no id can be read. -/
def handled (inp : In) : List Handled :=
  let rpcId := inp.read V.readUint32 .baselib
  if rpcId.2.err.isSome then []
  else if rpcId.1 = 0 then [.goodbye]
  else
    match server.handleRequest (rpcId.1 - 1) with
    | none => [.unknown (rpcId.1 - 1)]
    | some endpoint =>
      [.request (rpcId.1 - 1) endpoint (Endpoint.readBody V endpoint rpcId.2).1]

/-- Ghost: what the rounds of `accept` handle, each of them. -/
def trace (s : Serving σ) (inp : In) : List Handled :=
  Reader.loopLog (server.acceptRound V overflow impl) (fun _ => server.handled V) s inp

end Server

/-- An operation of a client on an endpoint in a server's table: the id its stub sends, and
what it asks, by the endpoint's shape. -/
structure Operation (server : Server) where
  rpcId : UInt32
  endpoint : Endpoint
  request : Request (Endpoint.requestType endpoint)
  served : server.handleRequest (rpcId - 1) = some endpoint
  shape : request.streaming = Endpoint.streaming endpoint

namespace Operation

variable {server : Server}

/-- What the client writes for an operation. -/
def bytes (V : Varint) (op : Operation server) : List UInt8 :=
  V.writeUint32 op.rpcId ++ op.request.bytes V

/-- What the server handles for an operation when it reads some request. -/
def handledAs (op : Operation server) (msg : Request (Endpoint.requestType op.endpoint)) :
    Handled :=
  .request (op.rpcId - 1) op.endpoint (some msg)

/-- An id in the table is not the goodbye's. -/
theorem rpcId_ne_zero (op : Operation server) : op.rpcId ≠ 0 := by
  intro hzero
  have hserved := op.served
  have hlt : server.dispatchTable.length < 2 ^ 31 :=
    server.dispatchTable_length ▸ server.endpoints_lt
  have hout : (0 : UInt32) - 1 ≥ UInt32.ofNat server.dispatchTable.length := by
    rw [ge_iff_le, UInt32.le_iff_toNat_le, UInt32.toNat_ofNat']
    have hmax : ((0 : UInt32) - 1).toNat = 2 ^ 32 - 1 := rfl
    omega
  rw [hzero, Server.handleRequest, if_pos hout] at hserved
  cases hserved

end Operation

section Run

variable {V : Varint} {σ : Type} (overflow : (capacity : Nat) → Str → InlineString capacity)
  {server : Server} {impl : Implementation σ}

/-- Reading the id of an operation. -/
theorem Operation.read_id (hV : V.Lawful) (op : Operation server) (rest : List UInt8) :
    (Reader.ofBytes (op.bytes V ++ rest)).read V.readUint32 Err.baselib =
      (op.rpcId, .ofBytes (op.request.bytes V ++ rest)) := by
  rw [Operation.bytes, List.append_assoc]
  exact Reader.read_ofBytes (hV.uint32 op.rpcId) Err.baselib _

/-- The server reads from the bytes of an operation what arrives of its request. -/
theorem Operation.readBody_bytes (hV : V.Lawful) (hlocal : V.Local) (op : Operation server)
    {msg : Request (Endpoint.requestType op.endpoint)} (harrives : op.request.Arrives V msg)
    (rest : List UInt8) :
    Endpoint.readBody V op.endpoint (.ofBytes (op.request.bytes V ++ rest)) =
      (some msg, .ofBytes rest) := by
  rw [Endpoint.readBody, ← op.shape]
  exact Request.read_takes hV hlocal harrives rest

theorem Operation.handled_bytes (hV : V.Lawful) (hlocal : V.Local) (op : Operation server)
    {msg : Request (Endpoint.requestType op.endpoint)} (harrives : op.request.Arrives V msg)
    (rest : List UInt8) :
    server.handled V (.ofBytes (op.bytes V ++ rest)) = [op.handledAs msg] := by
  simp [Server.handled, op.read_id hV, op.rpcId_ne_zero, op.served,
    op.readBody_bytes hV hlocal harrives, Operation.handledAs]

/-- A round of `accept` with an operation's bytes in front reads these, and goes on. -/
theorem Operation.acceptRound_bytes (hV : V.Lawful) (hlocal : V.Local)
    (hfits : impl.ResponsesFit server) (op : Operation server)
    {msg : Request (Endpoint.requestType op.endpoint)} (harrives : op.request.Arrives V msg)
    (s : Serving σ) (rest : List UInt8) :
    ∃ s', server.acceptRound V overflow impl s (.ofBytes (op.bytes V ++ rest)) =
        ⟨true, s', .ofBytes rest⟩ ∧
      s'.panicked = s.panicked ∧ Continues s.sent s'.sent := by
  have hshape : msg.streaming = Endpoint.streaming op.endpoint :=
    harrives.streaming_eq.trans op.shape
  obtain ⟨conn, hanswer, hinp, hsent⟩ := Server.answer_ok hV overflow hfits op.served hshape
    ⟨.ofBytes rest, s.sent, s.service⟩
  have hdispatch : server.acceptRequest V overflow impl (op.rpcId - 1)
      ⟨.ofBytes (op.request.bytes V ++ rest), s.sent, s.service⟩ = .ok conn := by
    rw [Server.acceptRequest, Server.dispatch_eq, op.served]
    simp only [op.readBody_bytes hV hlocal harrives, Conn.serve]
    rw [hanswer]
    simp only [bind, Except.bind, hinp, Reader.err_ofBytes]
    rfl
  refine ⟨{ s with sent := conn.sent, service := conn.service, requests := s.requests + 1 },
    ?_, rfl, hsent⟩
  simp only [Server.acceptRound, op.read_id hV, Reader.err_ofBytes, Option.isSome_none,
    Bool.false_eq_true, if_false, op.rpcId_ne_zero, hdispatch, hinp]
  rfl

/-- With an operation's bytes in front, `accept` handles the operation, and goes on behind
it. -/
theorem Operation.accept_step (hV : V.Lawful) (hlocal : V.Local) (hfits : impl.ResponsesFit server)
    (op : Operation server) {msg : Request (Endpoint.requestType op.endpoint)}
    (harrives : op.request.Arrives V msg) (s : Serving σ) (rest : List UInt8) :
    ∃ s', server.accept V overflow impl s (.ofBytes (op.bytes V ++ rest)) =
        server.accept V overflow impl s' (.ofBytes rest) ∧
      server.trace V overflow impl s (.ofBytes (op.bytes V ++ rest)) =
        op.handledAs msg :: server.trace V overflow impl s' (.ofBytes rest) ∧
      s'.panicked = s.panicked ∧ Continues s.sent s'.sent := by
  obtain ⟨s', hround, hpanicked, hsent⟩ :=
    op.acceptRound_bytes overflow hV hlocal hfits harrives s rest
  have hproductive : Productive (server.acceptRound V overflow impl) :=
    Server.acceptRound_productive
  refine ⟨s', ?_, ?_, hpanicked, hsent⟩
  · rw [Server.accept, Reader.loop_eq hproductive]
    simp only [hround, if_true]
    rfl
  · rw [Server.trace, Reader.loopLog_eq hproductive]
    simp only [hround, if_true, op.handled_bytes hV hlocal harrives]
    rfl

/-- Over the bytes of some operations, `accept` handles each of them, in order, and goes on
behind them. -/
theorem Operation.accept_bytes (hV : V.Lawful) (hlocal : V.Local)
    (hfits : impl.ResponsesFit server) {ops : List (Operation server)}
    (hops : ∀ op ∈ ops, op.request.Survives V) (s : Serving σ) (rest : List UInt8) :
    ∃ s', server.accept V overflow impl s (.ofBytes (ops.flatMap (Operation.bytes V) ++ rest)) =
        server.accept V overflow impl s' (.ofBytes rest) ∧
      server.trace V overflow impl s (.ofBytes (ops.flatMap (Operation.bytes V) ++ rest)) =
        ops.map (fun op => op.handledAs op.request) ++
          server.trace V overflow impl s' (.ofBytes rest) ∧
      s'.panicked = s.panicked ∧ Continues s.sent s'.sent := by
  induction ops generalizing s with
  | nil => exact ⟨s, rfl, rfl, rfl, .refl _⟩
  | cons op ops ih =>
    obtain ⟨s', haccept, htrace, hpanicked, hsent⟩ := op.accept_step overflow hV
      hlocal hfits (hops op (.head _)) s (ops.flatMap (Operation.bytes V) ++ rest)
    obtain ⟨s'', haccept', htrace', hpanicked', hsent'⟩ :=
      ih (fun op' hop' => hops op' (.tail _ hop')) s'
    refine ⟨s'', ?_, ?_, hpanicked'.trans hpanicked, hsent.trans hsent'⟩
    · rw [List.flatMap_cons, List.append_assoc, haccept, haccept']
    · rw [List.flatMap_cons, List.append_assoc, htrace, htrace']
      rfl

/-- The client's goodbye is answered in kind and ends the loop behind its byte. -/
theorem Server.accept_close (server : Server) (impl : Implementation σ) (hV : V.Lawful)
    (s : Serving σ) (rest : List UInt8) :
    server.trace V overflow impl s (.ofBytes (0 :: rest)) = [.goodbye] ∧
    ∃ s', server.accept V overflow impl s (.ofBytes (0 :: rest)) = (s', .ofBytes rest) ∧
      s'.panicked = s.panicked ∧ Continues (s.sent ++ [⟨.serverGoodbye, []⟩]) s'.sent := by
  have hread : (Reader.ofBytes (0 :: rest)).read V.readUint32 Err.baselib =
      (0, .ofBytes rest) :=
    Reader.read_ofBytes (hV.byte (b := 0) (by decide)) Err.baselib rest
  -- Behind the goodbye, `stop_accept` sends no further one.
  have hstop := server.stopAccept_continues (V := V) impl
    (Conn.send ⟨.ofBytes rest, s.sent, s.service⟩ .serverGoodbye [])
  have hinp := server.stopAccept_inp (V := V) impl
    (Conn.send ⟨.ofBytes rest, s.sent, s.service⟩ .serverGoodbye [])
  generalize hconn : server.stopAccept V impl
    (Conn.send ⟨.ofBytes rest, s.sent, s.service⟩ .serverGoodbye []) = conn at hstop hinp
  have hround : server.acceptRound V overflow impl s (.ofBytes (0 :: rest)) =
      ⟨false, { s with sent := conn.sent, service := conn.service }, .ofBytes rest⟩ := by
    simp only [Server.acceptRound, hread, Reader.err_ofBytes, Option.isSome_none,
      Bool.false_eq_true, if_false, if_true, hconn, hinp]
    rfl
  have hproductive : Productive (server.acceptRound V overflow impl) :=
    Server.acceptRound_productive
  constructor
  · rw [Server.trace, Reader.loopLog_eq hproductive, hround]
    simp [Server.handled, hread]
  · refine ⟨{ s with sent := conn.sent, service := conn.service }, ?_, rfl, hstop⟩
    rw [Server.accept, Reader.loop_eq hproductive, hround]
    rfl

end Run

/-! ## Sessions -/

/-- What a client writes behind its hello: its operations, one behind the other, and the
zero of `close`. -/
def Client.session (V : Varint) {server : Server} (ops : List (Operation server))
    (out : Writer Err) : Except Panic (Writer Err) := do
  let out ← ops.foldlM (fun out op => op.request.write V op.rpcId out) out
  return Client.close out

/-- On an open writer the requests are written one behind the other, and a zero. -/
theorem Client.session_open {V : Varint} (hV : V.Lawful) {server : Server}
    {ops : List (Operation server)} (hops : ∀ op ∈ ops, op.request.depth ≤ MaxNesting)
    {out : Writer Err} (hopen : out.Open) :
    Client.session V ops out = .ok (out.append (ops.flatMap (Operation.bytes V) ++ [0])) := by
  induction ops generalizing out with
  | nil =>
    show (.ok (Client.close out) : Except Panic (Writer Err)) = _
    rw [Client.close, hopen.write]
    rfl
  | cons op ops ih =>
    have hwrite := op.request.write_open hV op.rpcId (hops op (.head _)) hopen
    have hrest := ih (fun op' hop' => hops op' (.tail _ hop')) (hopen.append (op.bytes V))
    rw [Client.session, List.foldlM_cons, hwrite, List.flatMap_cons, List.append_assoc,
      ← Writer.append_append (op.bytes V), ← hrest]
    rfl

/-- The request stream is faithful. Whatever operations a client does on a session whose
writes succeed, with requests that survive the codec's round trip, the rounds of the server's
`accept` handle exactly these: the endpoints, the flags and the requests, in order, and then
the client's goodbye, which is answered in kind. The loop ends behind the goodbye's byte. -/
theorem requests_dispatched {V : Varint} (hV : V.Lawful) (hlocal : V.Local) {σ : Type}
    (overflow : (capacity : Nat) → Str → InlineString capacity) {server : Server}
    {impl : Implementation σ} (hfits : impl.ResponsesFit server) (ops : List (Operation server))
    (hops : ∀ op ∈ ops, op.request.Survives V) (s : Serving σ) (rest : List UInt8) :
    ∃ written : List UInt8, Client.session V ops {} = .ok { written } ∧
      server.trace V overflow impl s (.ofBytes (written ++ rest)) =
        ops.map (fun op => .request (op.rpcId - 1) op.endpoint (some op.request)) ++
          [.goodbye] ∧
      ∃ s', server.accept V overflow impl s (.ofBytes (written ++ rest)) =
          (s', .ofBytes rest) ∧
        s'.panicked = s.panicked ∧
        ∃ answers events, s'.sent = s.sent ++ answers ++ [⟨.serverGoodbye, []⟩] ++ events ∧
          ∀ msg ∈ answers ++ events, msg.type ≠ .serverGoodbye := by
  have hopen : Writer.Open ({} : Writer Err) := ⟨rfl, rfl⟩
  refine ⟨ops.flatMap (Operation.bytes V) ++ [0],
    Client.session_open hV (fun op hop => (hops op hop).depth_le) hopen, ?_⟩
  -- The operations, and then the byte of the goodbye.
  obtain ⟨s', haccept, htrace, hpanicked, answers, hsent, hanswers⟩ :=
    Operation.accept_bytes overflow hV hlocal hfits hops s (0 :: rest)
  obtain ⟨hgoodbye, s'', hclose, hpanicked', events, hsent', hevents⟩ :=
    server.accept_close overflow impl hV s' rest
  have hbytes : ops.flatMap (Operation.bytes V) ++ [0] ++ rest =
      ops.flatMap (Operation.bytes V) ++ 0 :: rest := List.append_assoc ..
  rw [hbytes]
  refine ⟨?_, s'', haccept.trans hclose, hpanicked'.trans hpanicked, answers, events, ?_, ?_⟩
  · rw [htrace, hgoodbye]
    rfl
  · rw [hsent', hsent]
  · intro msg hmsg
    rcases List.mem_append.mp hmsg with hmsg | hmsg
    · exact hanswers msg hmsg
    · exact hevents msg hmsg

namespace Sample

/-- A service with a method that takes an `Item`, and with events without a request. -/
def feed : EchoService where
  name := [70]
  package := []
  uuid := ⟨List.replicate 16 5, rfl⟩
  majorVersion := 1
  minorVersion := 0
  methods := [{ method [112] 1 with parameter := some item },
    { method [119] 2 with serverStreaming := true }]
  types := []
  methodId_lt := by decide
  methodId_ne_zero := by decide
  methodIds_nodup := by decide
  name_ne_nil := by decide
  names_nodup := by decide

/-- Its server. -/
def feedServer : Server where
  services := [only discovery, only feed]
  endpoints_lt := by decide

/-- An `Item` whose key is one byte, which is also an endpoint id. -/
def smallItem : item.Val := (⟨[2], by decide⟩, ())

/-- One operation of each shape. -/
def operations : List (Operation feedServer) :=
  [⟨1, (0, method [108] 1), .call (true, ()), rfl, rfl⟩,
    ⟨2, (1, { method [112] 1 with parameter := some item }), .call smallItem, rfl, rfl⟩,
    ⟨3, (1, { method [119] 2 with serverStreaming := true }), .subscribe (), rfl, rfl⟩,
    ⟨3, (1, { method [119] 2 with serverStreaming := true }), .unsubscribe, rfl, rfl⟩]

theorem item_wellFormed : item.WellFormed := by
  simp [item, MessageType.WellFormed, FieldKind.WellFormed, MessageType.numbers,
    StorageType.Bounded]

theorem listServicesRequest_wellFormed : Protocol.listServicesRequest.WellFormed := by
  simp [Protocol.listServicesRequest, MessageType.WellFormed, FieldKind.WellFormed,
    MessageType.numbers, StorageType.Bounded]

theorem operations_survive : ∀ op ∈ operations, op.request.Survives .leb128 := by
  have hlist : Payload.Arrives .leb128 (some Protocol.listServicesRequest) (true, ()) (true, ()) :=
    Payload.arrives_received Varint.leb128_lawful listServicesRequest_wellFormed (by decide)
  have hitem : Payload.Arrives .leb128 (some item) smallItem smallItem :=
    Payload.arrives_received Varint.leb128_lawful item_wellFormed (by decide)
  intro op hop
  simp only [operations, List.mem_cons, List.not_mem_nil, or_false] at hop
  rcases hop with rfl | rfl | rfl | rfl
  · exact .call hlist
  · exact .call hitem
  · exact .subscribe trivial
  · exact .unsubscribe

/-- Handlers that return defaults fit a server whose methods return nothing. -/
theorem quiet_responsesFit {server : Server}
    (h : ∀ c ∈ server.services, ∀ m ∈ c.service.methods, m.result = none) :
    quiet.ResponsesFit server := by
  intro c hc m hm _ i msg service
  generalize ((quiet.handler i m).call msg service).1.value = value
  have hresult := h c hc m hm
  generalize m.result = result at value hresult
  subst hresult
  exact Nat.zero_le _

end Sample

theorem requests_dispatched_feed :
    ∃ written : List UInt8, Client.session .leb128 Sample.operations {} = .ok { written } ∧
      Sample.feedServer.trace .leb128 (fun _ _ => .empty) Sample.quiet ⟨[], (), false, 0⟩
          (.ofBytes (written ++ [])) =
        Sample.operations.map (fun op => .request (op.rpcId - 1) op.endpoint (some op.request)) ++
          [.goodbye] ∧
      ∃ s', Sample.feedServer.accept .leb128 (fun _ _ => .empty) Sample.quiet ⟨[], (), false, 0⟩
          (.ofBytes (written ++ [])) = (s', .ofBytes []) ∧
        s'.panicked = false ∧
        ∃ answers events, s'.sent = [] ++ answers ++ [⟨.serverGoodbye, []⟩] ++ events ∧
          ∀ msg ∈ answers ++ events, msg.type ≠ .serverGoodbye :=
  requests_dispatched Varint.leb128_lawful Varint.leb128_local (fun _ _ => .empty)
    (Sample.quiet_responsesFit (by decide)) Sample.operations Sample.operations_survive
    ⟨[], (), false, 0⟩ []

end SerialRpc
