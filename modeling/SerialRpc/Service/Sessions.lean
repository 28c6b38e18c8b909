import SerialRpc.Lib.Transition
import SerialRpc.Service.Dispatch

/-!
# Sessions (server_impl.cc:259-398, protoc_serialrpc_plugin.cc:2530-2704)

A server takes one connection after the other. Its services live longer than a session:
what `subscribe_$method$` was handed must be taken back by `unsubscribe_all` before
`accept` returns. Here the writes of a connection may fail, each for itself, and the
services' bases remember the connection that their events go to.

- `Services`: what the services hold between messages, with the calls that reached them.
- `Session`: a connection that is served. `Session.put` is the write of a message, which
  takes the next of the connection's faults.
- `Session.dispatch`, `Session.acceptRound`: `handle_request` and a round of `accept`.
  Without faults a round is that of `Server.acceptRound` (`acceptRound_models`).
- `serveStep`: `serve`, one connection after the other, round by round.
- `sessions_cleaned_iff`: every session ends with all subscriptions taken back exactly if
  no goodbye that follows a subscription fails to be written.
-/

namespace SerialRpc

open ByteStream Transition

/-! ## What the services hold -/

/-- A call of a service by the server: of a handler, by its method's name, or the end of
`unsubscribe_all`. -/
inductive ServiceCall where
  | subscribe (service : Nat) (method : Str)
  | unsubscribe (service : Nat) (method : Str)
  | unsubscribeAll (service : Nat)
deriving DecidableEq

/-- The services of a server, by position. Connections are told apart by their number. -/
structure Services (σ : Type) where
  /-- What the implementations keep. -/
  state : σ
  /-- `event_conn` of the generated bases. -/
  eventConn : Nat → Option Nat := fun _ => none
  /-- `$method$_id` of the generated bases. -/
  methodId : Nat → Str → Int32 := fun _ _ => -1
  /-- Ghost: the callbacks that `subscribe_$method$` was handed and `unsubscribe_$method$`
  was not called for since. -/
  callbacks : List (Nat × Str) := []
  /-- Ghost: the calls so far. -/
  calls : List ServiceCall := []

namespace Services

variable {σ : Type} (services : Services σ)

/-- What the dispatch function does before it calls `subscribe_$method$`: the connection and the
id of the request are kept for the events. -/
def subscribe (conn : Nat) (rpcId : UInt32) (i : Nat) (method : Str) : Services σ :=
  { services with
    eventConn := Function.update services.eventConn i (some conn)
    methodId := Function.update services.methodId i
      (Function.update (services.methodId i) method rpcId.toInt32)
    callbacks := (i, method) :: services.callbacks
    calls := services.calls ++ [.subscribe i method] }

/-- `unsubscribe_$method$` is called. -/
def unsubscribe (i : Nat) (method : Str) : Services σ :=
  { services with
    callbacks := services.callbacks.filter (· ≠ (i, method))
    calls := services.calls ++ [.unsubscribe i method] }

/-- `this->event_conn = nullptr`, at the end of `unsubscribe_all`. -/
def disconnect (i : Nat) : Services σ :=
  { services with
    eventConn := Function.update services.eventConn i none
    calls := services.calls ++ [.unsubscribeAll i] }

end Services

/-! ## A connection whose writes may fail -/

/-- A connection that is served, as `accept` has it. -/
structure Session (σ : Type) where
  conn : Nat
  /-- The reader, with the error that `accept` was given. -/
  inp : In
  /-- Whether the messages to come fail to be written, one by one; behind the list none
  does. -/
  faults : List Bool
  /-- The messages that have been written. -/
  sent : List ServerMessage
  services : Services σ

namespace Session

variable {σ : Type}

/-- The write and the flush of a message under `write_mtx`, and whether one of them
fails. -/
def put (s : Session σ) (type : ServerMessageType) (body : List UInt8) : Bool × Session σ :=
  match s.faults with
  | true :: faults => (true, { s with faults := faults })
  | _ => (false, { s with faults := s.faults.tail, sent := s.sent ++ [⟨type, body⟩] })

/-- `send_code`, and the other functions that write with the error of `accept`. -/
def send (s : Session σ) (type : ServerMessageType) (body : List UInt8) : Session σ :=
  let written := s.put type body
  if written.1 then { written.2 with inp := written.2.inp.report .baselib } else written.2

section Dispatch

variable (V : Varint)

/-- `send_event`, which reports to nobody, and `ServerErrorHandler::handle`. -/
def act (s : Session σ) : HandlerAction → Session σ
  | .sendEvent eventId body => (s.put .event (V.writeUint32 (eventId + 1) ++ body)).2
  | .reportError text => s.send .errorReply (Conn.writeChunked V text)

/-- The call of a handler. -/
def run {α : Type} (s : Session σ) (result : Behaviour α × σ) : Session σ :=
  { result.1.actions.foldl (act V) s with services := { s.services with state := result.2 } }

/-- The call of a handler with `error::ignore`. -/
def runIgnoring {α : Type} (s : Session σ) (result : Behaviour α × σ) : Session σ :=
  { (result.1.actions.filter fun action => !action.isError).foldl (act V) s with
    services := { s.services with state := result.2 } }

/-- `send_reply_msg` and `send_reply_void`. -/
def sendReply : (result : Option MessageType) → Payload result → Session σ →
    Except Panic (Session σ)
  | none, _, s => return s.send .reply []
  | some T, resp, s => do
    let out ← marshal V T resp {}
    return s.send .reply out.written

/-- `dispatch_$method$` of a method that is not streaming
(protoc_serialrpc_plugin.cc:2621-2661). -/
def dispatchUnary (m : EchoMethod) (handler : Handler σ m) (s : Session σ) :
    Except Panic (Session σ) :=
  let msg := readRequest V m.parameter s.inp
  let s := { s with inp := msg.2 }
  if s.inp.err.isSome then return s
  else
    let resp := handler.call msg.1 s.services.state
    let s := s.run V resp
    if resp.1.failed then return s else sendReply V m.result resp.1.value s

/-- `dispatch_$method$` of a streaming method of a service
(protoc_serialrpc_plugin.cc:2530-2594). -/
def dispatchStreaming (rpcId : UInt32) (i : Nat) (m : EchoMethod) (handler : Handler σ m)
    (s : Session σ) : Session σ :=
  let enabled := s.inp.read Read.byte .baselib
  let s := { s with inp := enabled.2 }
  if s.inp.err.isSome then s
  else if enabled.1 ≠ 0 then
    let msg := readRequest V m.parameter s.inp
    let s := { s with inp := msg.2 }
    if s.inp.err.isSome then s
    else
      let s := { s with services := s.services.subscribe s.conn rpcId i m.name }
      let resp := handler.call msg.1 s.services.state
      let s := s.run V resp
      if resp.1.failed then s else s.send .reply []
  else
    let s := { s with services := s.services.unsubscribe i m.name }
    let resp := handler.unsubscribe s.services.state
    let s := s.run V resp
    if resp.1.failed then s else s.send .reply []

/-- `dispatch_list_services` (server_impl.cc:136-237). -/
def dispatchListServices (overflow : (capacity : Nat) → Str → InlineString capacity)
    (services : List ServiceDescription) (s : Session σ) : Except Panic (Session σ) :=
  let request := unmarshal V Protocol.listServicesRequest s.inp
  let s := { s with inp := request.2 }
  if s.inp.err.isSome then return s
  else do
    let out ← listServicesBody V overflow services request.1.1 {}
    return s.send .reply out.written

variable (overflow : (capacity : Nat) → Str → InlineString capacity) (server : Server)
  (impl : Implementation σ)

/-- `handle_request` (server.cc:181-189) with what it calls. -/
def dispatch (rpcId : UInt32) (s : Session σ) : Except Panic (Session σ) :=
  match server.handleRequest rpcId with
  | none => return s.send .unknown []
  | some (0, _) => dispatchListServices V overflow server.descriptions s
  | some (i + 1, m) =>
    if m.serverStreaming then
      return dispatchStreaming V rpcId (i + 1) m (impl.handler (i + 1) m) s
    else dispatchUnary V m (impl.handler (i + 1) m) s

/-- `unsubscribe_$method$(error::ignore)`. -/
def unsubscribeMethod (i : Nat) (s : Session σ) (m : EchoMethod) : Session σ :=
  let s := { s with services := s.services.unsubscribe i m.name }
  s.runIgnoring V ((impl.handler i m).unsubscribe s.services.state)

/-- `unsubscribe_all` of a service (protoc_serialrpc_plugin.cc:2687-2704); the discovery
service, the first one, has nothing to do (server.cc:111). -/
def unsubscribeService (s : Session σ) : ServiceClass × Nat → Session σ
  | (_, 0) => { s with services := s.services.disconnect 0 }
  | (c, i + 1) =>
    let s := (c.dispatchTable.filter EchoMethod.serverStreaming).foldl
      (unsubscribeMethod V impl (i + 1)) s
    { s with services := s.services.disconnect (i + 1) }

/-- `stop_accept` (server_impl.cc:394-398). -/
def stopAccept (s : Session σ) : Session σ :=
  server.services.zipIdx.foldl (unsubscribeService V impl) s

/-- `handle_goodbye` (server_impl.cc:259-273). -/
def handleGoodbye (s : Session σ) : Session σ :=
  let s := s.send .serverGoodbye []
  if s.inp.err.isSome then s else stopAccept V server impl s

/-- A round of the loop of `accept` (server_impl.cc:351-373), and whether it goes on. -/
def acceptRound (s : Session σ) : Except Panic (Bool × Session σ) :=
  let rpcId := s.inp.read V.readUint32 .baselib
  let s := { s with inp := rpcId.2 }
  if s.inp.err.isSome then return (false, stopAccept V server impl s)
  else if rpcId.1 = 0 then return (false, handleGoodbye V server impl s)
  else do
    let s ← dispatch V overflow server impl (rpcId.1 - 1) s
    if s.inp.err.isSome then return (false, stopAccept V server impl s) else return (true, s)

/-- `accept` up to its loop (server_impl.cc:333-349), and whether it gets there. -/
def acceptHello (s : Session σ) : Except Panic (Bool × Session σ) :=
  let b := s.inp.read Read.byte .baselib
  let s := { s with inp := b.2 }
  if s.inp.err.isSome then return (false, s)
  -- Other than the hello's byte, a line of text goes out, which is no message.
  else if b.1 ≠ clientHelloByte then return (false, s)
  else do
    let hello ← serverHello V server.descriptions {}
    let s := s.send .serverHello hello.written.tail
    return (s.inp.err.isNone, s)

end Dispatch

end Session

/-! ## What a request does to the services -/

/-- A service has a streaming method of a name, and its base is a generated one. -/
def Server.Streams (server : Server) (i : Nat) (method : Str) : Prop :=
  i ≠ 0 ∧ ∃ c, server.services[i]? = some c ∧
    ∃ m ∈ c.dispatchTable, m.serverStreaming = true ∧ m.name = method

/-- A service's streaming method of a name is the one that a request with some id is for, and its
base is a generated one. -/
def Server.Subscribes (server : Server) (rpcId : UInt32) (i : Nat) (method : Str) : Prop :=
  i ≠ 0 ∧ ∃ m, server.handleRequest rpcId = some (i, m) ∧ m.serverStreaming = true ∧
    m.name = method

/-- A method that is subscribed to streams. -/
theorem Server.Subscribes.streams {server : Server} {rpcId : UInt32} {i : Nat} {method : Str}
    (h : server.Subscribes rpcId i method) : server.Streams i method := by
  obtain ⟨hne, m, htarget, hstreaming, hname⟩ := h
  obtain ⟨c, hc, hm⟩ := server.handleRequest_dispatchTable htarget
  exact ⟨hne, c, hc, m, hm, hstreaming, hname⟩

/-- What a request may do to the services: at most one call of a streaming method's
handlers, and anything to what the implementations keep. -/
inductive Services.Called {σ : Type} (server : Server) (conn : Nat) (services : Services σ) :
    Services σ → Prop
  | none (state : σ) : Called server conn services { services with state := state }
  | subscribe (rpcId : UInt32) (i : Nat) (method : Str) (state : σ)
      (h : server.Subscribes rpcId i method) :
      Called server conn services { services.subscribe conn rpcId i method with state := state }
  | unsubscribe (i : Nat) (method : Str) (state : σ) :
      Called server conn services { services.unsubscribe i method with state := state }

section Calls

variable {V : Varint} {σ : Type} {server : Server} {impl : Implementation σ}
  {overflow : (capacity : Nat) → Str → InlineString capacity}

namespace Session

/-- Writing a message leaves the services alone. -/
@[simp] theorem put_services (s : Session σ) (type : ServerMessageType) (body : List UInt8) :
    (s.put type body).2.services = s.services := by
  unfold put
  split <;> rfl

@[simp] theorem send_services (s : Session σ) (type : ServerMessageType) (body : List UInt8) :
    (s.send type body).services = s.services := by
  unfold send
  dsimp only
  split
  · exact s.put_services type body
  · exact s.put_services type body

/-- Running a handler changes the state of the services and nothing else about them. -/
@[simp] theorem run_services {α : Type} (s : Session σ) (result : Behaviour α × σ) :
    (s.run V result).services = { s.services with state := result.2 } :=
  rfl

@[simp] theorem runIgnoring_services {α : Type} (s : Session σ) (result : Behaviour α × σ) :
    (s.runIgnoring V result).services = { s.services with state := result.2 } :=
  rfl

theorem sendReply_services {result : Option MessageType} {resp : Payload result}
    {s s' : Session σ} (h : sendReply V result resp s = .ok s') : s'.services = s.services := by
  cases result with
  | none =>
    cases h
    exact s.send_services _ _
  | some T =>
    obtain ⟨out, -, h⟩ := bind_eq_ok h
    cases h
    exact s.send_services _ _

/-- A unary dispatch calls no `subscribe_` function. -/
theorem dispatchUnary_called {m : EchoMethod} {handler : Handler σ m} {s s' : Session σ}
    (h : dispatchUnary V m handler s = .ok s') :
    s.services.Called server s.conn s'.services := by
  simp only [dispatchUnary] at h
  split at h
  · cases h
    exact .none _
  · split at h
    · cases h
      rw [run_services]
      exact .none _
    · rw [sendReply_services h, run_services]
      exact .none _

/-- A streaming dispatch subscribes or unsubscribes its own method, and sets `event_conn` before. -/
theorem dispatchStreaming_called {rpcId : UInt32} {i : Nat} {m : EchoMethod}
    (handler : Handler σ m) (s : Session σ) (hsubscribes : server.Subscribes rpcId i m.name) :
    s.services.Called server s.conn (dispatchStreaming V rpcId i m handler s).services := by
  unfold dispatchStreaming
  dsimp only
  split
  · exact .none _
  · split
    · split
      · exact .none _
      · -- A `Reply` behind the handler does nothing to the services.
        have hcalled : ∀ state, s.services.Called server s.conn
            { s.services.subscribe s.conn rpcId i m.name with state := state } :=
          fun state => .subscribe rpcId i m.name state hsubscribes
        split
        · rw [run_services]
          exact hcalled _
        · rw [send_services, run_services]
          exact hcalled _
    · have hcalled : ∀ state, s.services.Called server s.conn
          { s.services.unsubscribe i m.name with state := state } :=
        fun state => .unsubscribe i m.name state
      split
      · rw [run_services]
        exact hcalled _
      · rw [send_services, run_services]
        exact hcalled _

/-- Discovery calls no service. -/
theorem dispatchListServices_called {services : List ServiceDescription} {s s' : Session σ}
    (h : dispatchListServices V overflow services s = .ok s') :
    s.services.Called server s.conn s'.services := by
  simp only [dispatchListServices] at h
  split at h
  · cases h
    exact .none _
  · obtain ⟨out, -, h⟩ := bind_eq_ok h
    cases h
    rw [send_services]
    exact .none _

/-- What a request does to the services. -/
theorem dispatch_called {rpcId : UInt32} {s s' : Session σ}
    (h : dispatch V overflow server impl rpcId s = .ok s') :
    s.services.Called server s.conn s'.services := by
  unfold dispatch at h
  split at h
  · cases h
    rw [send_services]
    exact .none _
  · exact dispatchListServices_called h
  · rename_i i m htarget
    split at h
    · rename_i hstreaming
      cases h
      exact dispatchStreaming_called _ s ⟨Nat.succ_ne_zero i, m, htarget, hstreaming, rfl⟩
    · exact dispatchUnary_called h

end Session

end Calls

/-! ## Connections without faults -/

/-- A session none of whose writes fails, and the connection it is. -/
structure Session.Models {σ : Type} (s : Session σ) (conn : Conn σ) : Prop where
  faults : s.faults = []
  inp : s.inp = conn.inp
  sent : s.sent = conn.sent
  state : s.services.state = conn.service

/-- Both have panicked, or both have gone on. -/
inductive Session.Agrees {σ : Type} : Except Panic (Session σ) → Except Panic (Conn σ) → Prop
  | panic (e : Panic) : Agrees (.error e) (.error e)
  | ok {s : Session σ} {conn : Conn σ} (h : s.Models conn) : Agrees (.ok s) (.ok conn)

section Models

variable {V : Varint} {σ : Type} {server : Server} {impl : Implementation σ}
  {overflow : (capacity : Nat) → Str → InlineString capacity} {s : Session σ} {conn : Conn σ}

namespace Session.Models

/-- Without failing writes a message is sent. -/
theorem put (h : s.Models conn) (type : ServerMessageType) (body : List UInt8) :
    s.put type body = (false, { s with sent := s.sent ++ [⟨type, body⟩] }) := by
  obtain ⟨id, inp, faults, sent, services⟩ := s
  obtain rfl : faults = [] := h.faults
  rfl

theorem send (h : s.Models conn) (type : ServerMessageType) (body : List UInt8) :
    (s.send type body).Models (conn.send type body) := by
  rw [Session.send, h.put]
  exact ⟨h.faults, h.inp, congrArg (· ++ _) h.sent, h.state⟩

/-- What a handler does is done on both sides. -/
theorem act (h : s.Models conn) (action : HandlerAction) :
    (s.act V action).Models (conn.act V action) := by
  cases action with
  | sendEvent eventId body =>
    rw [Session.act, h.put]
    exact ⟨h.faults, h.inp, congrArg (· ++ _) h.sent, h.state⟩
  | reportError text => exact h.send _ _

theorem foldl_act (h : s.Models conn) (actions : List HandlerAction) :
    (actions.foldl (Session.act V) s).Models (actions.foldl (Conn.act V) conn) := by
  induction actions generalizing s conn with
  | nil => exact h
  | cons action actions ih => exact ih (h.act action)

theorem run {α : Type} (h : s.Models conn) (result : Behaviour α × σ) :
    (s.run V result).Models (conn.run V result) :=
  have hacts := h.foldl_act (V := V) result.1.actions
  ⟨hacts.faults, hacts.inp, hacts.sent, rfl⟩

theorem runIgnoring {α : Type} (h : s.Models conn) (result : Behaviour α × σ) :
    (s.runIgnoring V result).Models (conn.runIgnoring V result) :=
  have hacts := h.foldl_act (V := V) (result.1.actions.filter fun action => !action.isError)
  ⟨hacts.faults, hacts.inp, hacts.sent, rfl⟩

/-- The reader can be put on, on both sides. -/
theorem withInp (h : s.Models conn) (inp : In) :
    Session.Models { s with inp := inp } { conn with inp := inp } :=
  ⟨h.faults, rfl, h.sent, h.state⟩

/-- A call is noted, and nothing else. -/
theorem subscribe (h : s.Models conn) (rpcId : UInt32) (i : Nat) (method : Str) :
    Session.Models { s with services := s.services.subscribe s.conn rpcId i method } conn :=
  ⟨h.faults, h.inp, h.sent, h.state⟩

/-- The list of callbacks is not seen without failing writes. -/
theorem unsubscribe (h : s.Models conn) (i : Nat) (method : Str) :
    Session.Models { s with services := s.services.unsubscribe i method } conn :=
  ⟨h.faults, h.inp, h.sent, h.state⟩

theorem disconnect (h : s.Models conn) (i : Nat) :
    Session.Models { s with services := s.services.disconnect i } conn :=
  ⟨h.faults, h.inp, h.sent, h.state⟩

/-- A reply is the same, a panic of the encoder included. -/
theorem sendReply (h : s.Models conn) (result : Option MessageType) (resp : Payload result) :
    Session.Agrees (Session.sendReply V result resp s)
      (SerialRpc.sendReply V result resp conn) := by
  cases result with
  | none => exact .ok (h.send _ _)
  | some T =>
    rw [Session.sendReply, SerialRpc.sendReply]
    cases marshal V T resp {} with
    | error e => exact .panic e
    | ok out => exact .ok (h.send _ _)

theorem dispatchUnary (h : s.Models conn) (m : EchoMethod) (handler : Handler σ m) :
    Session.Agrees (Session.dispatchUnary V m handler s)
      (SerialRpc.dispatchUnary V m handler conn) := by
  unfold Session.dispatchUnary SerialRpc.dispatchUnary
  dsimp only
  rw [h.inp, h.state]
  have hread := h.withInp (readRequest V m.parameter conn.inp).2
  split
  · exact .ok hread
  · split
    · exact .ok (hread.run _)
    · exact (hread.run _).sendReply _ _

/-- Behind a handler a `Reply` is sent, or is not. -/
theorem reply (h : s.Models conn) (failed : Bool) :
    Session.Models (if failed then s else s.send .reply [])
      (if failed then conn else conn.send .reply []) := by
  cases failed with
  | true => exact h
  | false => exact h.send _ _

theorem dispatchStreaming (h : s.Models conn) (rpcId : UInt32) (i : Nat) (m : EchoMethod)
    (handler : Handler σ m) :
    (Session.dispatchStreaming V rpcId i m handler s).Models
      (SerialRpc.dispatchStreaming V m handler conn) := by
  have hsubscribe : (s.services.subscribe s.conn rpcId i m.name).state = conn.service := h.state
  have hunsubscribe : (s.services.unsubscribe i m.name).state = conn.service := h.state
  unfold Session.dispatchStreaming SerialRpc.dispatchStreaming
  dsimp only
  rw [h.inp, hsubscribe, hunsubscribe]
  generalize conn.inp.read Read.byte .baselib = enabled
  have hflag := h.withInp enabled.2
  split
  · exact hflag
  · split
    · have hread := h.withInp (readRequest V m.parameter enabled.2).2
      split
      · exact hread
      · exact ((hread.subscribe rpcId i m.name).run _).reply _
    · exact ((hflag.unsubscribe i m.name).run _).reply _

theorem dispatchListServices (h : s.Models conn) (services : List ServiceDescription) :
    Session.Agrees (Session.dispatchListServices V overflow services s)
      (SerialRpc.dispatchListServices V overflow services conn) := by
  unfold Session.dispatchListServices SerialRpc.dispatchListServices
  dsimp only
  rw [h.inp]
  have hread := h.withInp (unmarshal V Protocol.listServicesRequest conn.inp).2
  split
  · exact .ok hread
  · cases listServicesBody V overflow services
      (unmarshal V Protocol.listServicesRequest conn.inp).1.1 {} with
    | error e => exact .panic e
    | ok out => exact .ok (hread.send _ _)

/-- Every endpoint is dispatched the same. -/
theorem dispatch (h : s.Models conn) (rpcId : UInt32) :
    Session.Agrees (Session.dispatch V overflow server impl rpcId s)
      (server.dispatch V overflow impl rpcId conn) := by
  unfold Session.dispatch Server.dispatch
  cases server.handleRequest rpcId with
  | none => exact .ok (h.send _ _)
  | some target =>
    obtain ⟨i, m⟩ := target
    cases i with
    | zero => exact h.dispatchListServices _
    | succ i =>
      dsimp only
      split
      · exact .ok (h.dispatchStreaming _ _ _ _)
      · exact h.dispatchUnary _ _

/-- A method is unsubscribed as `unsubscribe_all` does it. -/
theorem unsubscribeMethod (h : s.Models conn) (i : Nat) (m : EchoMethod) :
    (Session.unsubscribeMethod V impl i s m).Models
      (conn.runIgnoring V ((impl.handler i m).unsubscribe conn.service)) := by
  have hstate : (s.services.unsubscribe i m.name).state = conn.service := h.state
  unfold Session.unsubscribeMethod
  dsimp only
  rw [hstate]
  exact (h.unsubscribe i m.name).runIgnoring _

/-- The methods of a service are unsubscribed one after the other, the same on both sides. -/
theorem unsubscribeMethods (h : s.Models conn) (i : Nat) (methods : List EchoMethod) :
    (methods.foldl (Session.unsubscribeMethod V impl i) s).Models
      (methods.foldl (fun conn m =>
        conn.runIgnoring V ((impl.handler i m).unsubscribe conn.service)) conn) := by
  induction methods generalizing s conn with
  | nil => exact h
  | cons m methods ih => exact ih (h.unsubscribeMethod i m)

/-- The services behind the discovery service, one after the other. -/
theorem unsubscribeServices (h : s.Models conn) (classes : List ServiceClass) (k : Nat) :
    ((classes.zipIdx (k + 1)).foldl (unsubscribeService V impl) s).Models
      (((classes.zipIdx (k + 1)).flatMap fun (c, i) =>
        (c.dispatchTable.filter EchoMethod.serverStreaming).map fun m => (i, m)).foldl
          (fun conn (i, m) =>
            conn.runIgnoring V ((impl.handler i m).unsubscribe conn.service)) conn) := by
  induction classes generalizing s conn k with
  | nil => exact h
  | cons c classes ih =>
    rw [List.zipIdx_cons, List.foldl_cons, List.flatMap_cons, List.foldl_append, List.foldl_map]
    exact ih ((h.unsubscribeMethods (k + 1) _).disconnect (k + 1)) (k + 1)

/-- The end of a session is the same on both sides. -/
theorem stopAccept (h : s.Models conn) :
    (Session.stopAccept V server impl s).Models (server.stopAccept V impl conn) := by
  unfold Session.stopAccept Server.stopAccept
  cases server.services with
  | nil => exact h
  | cons c classes =>
    rw [List.zipIdx_cons, List.foldl_cons, List.tail_cons]
    exact (h.disconnect 0).unsubscribeServices classes 0

end Session.Models

/-- Where no write fails, a round of `accept` is that of the loop over one connection. -/
theorem Session.acceptRound_models (h : s.Models conn) (requests : Nat) :
    let round := server.acceptRound V overflow impl ⟨conn.sent, conn.service, false, requests⟩
      conn.inp
    (s.acceptRound V overflow server impl).toOption = none ∧ round.state.panicked = true ∨
      ∃ s', s.acceptRound V overflow server impl = .ok (round.again, s') ∧
        s'.Models ⟨round.reader, round.state.sent, round.state.service⟩ := by
  have hread := h.withInp (conn.inp.read V.readUint32 .baselib).2
  unfold Session.acceptRound Server.acceptRound Server.acceptRequest
  dsimp only
  rw [h.inp]
  split
  · -- The id cannot be read.
    exact .inr ⟨_, rfl, hread.stopAccept⟩
  · rename_i hok
    split
    · -- A goodbye, which is answered.
      have hgoodbye := hread.send .serverGoodbye []
      refine .inr ⟨_, rfl, ?_⟩
      unfold handleGoodbye
      dsimp only
      rw [if_neg (by rw [hgoodbye.inp]; exact hok)]
      exact hgoodbye.stopAccept
    · -- A request. Both sides panic on it or both go on with connections that agree.
      have hdispatch : Session.Agrees (Session.dispatch V overflow server impl _ _)
          (server.dispatch V overflow impl _ _) :=
        hread.dispatch ((conn.inp.read V.readUint32 .baselib).1 - 1)
      generalize Session.dispatch V overflow server impl _ _ = dispatched,
        server.dispatch V overflow impl _ _ = dispatched' at hdispatch ⊢
      cases hdispatch with
      | panic e => exact .inl ⟨rfl, rfl⟩
      | @ok t conn' hmodels =>
        refine .inr ?_
        simp only [bind, Except.bind, hmodels.inp]
        cases herr : conn'.inp.err with
        | none =>
          refine ⟨t, ?_, hmodels⟩
          simp [herr, pure, Except.pure]
        | some e =>
          refine ⟨Session.stopAccept V server impl t, ?_, hmodels.stopAccept⟩
          have hinp := server.stopAccept_inp (V := V) impl conn'
          simp [hinp, herr, pure, Except.pure]

end Models

/-! ## Taking everything back -/

/-- Behind every call of a `subscribe_$method$`, `unsubscribe_all` has come to the end of
every service. -/
def Server.Settled (server : Server) (calls : List ServiceCall) : Prop :=
  ∀ before i method after, calls = before ++ .subscribe i method :: after →
    ∀ j < server.services.length, .unsubscribeAll j ∈ after

/-- No subscription is left, in the calls, in a base, or in an implementation's hands. -/
structure Server.Clean {σ : Type} (server : Server) (services : Services σ) : Prop where
  settled : server.Settled services.calls
  eventConn : ∀ i, services.eventConn i = none
  callbacks : services.callbacks = []

/-- What is set belongs to the server's services. -/
structure Server.Owns {σ : Type} (server : Server) (services : Services σ) : Prop where
  eventConn : ∀ i, services.eventConn i ≠ none → i < server.services.length
  callbacks : ∀ p ∈ services.callbacks, server.Streams p.1 p.2

/-- Throughout a session: when the calls leave no subscription, nothing else does. -/
structure Server.Tracks {σ : Type} (server : Server) (services : Services σ) : Prop
    extends server.Owns services where
  clean : server.Settled services.calls → server.Clean services

/-- Calls have taken subscriptions back and made none; the ids of the requests stay. -/
structure Services.Releases {σ : Type} (services services' : Services σ) : Prop where
  methodId : services'.methodId = services.methodId
  eventConn : ∀ i, services.eventConn i = none → services'.eventConn i = none
  callbacks : services'.callbacks ⊆ services.callbacks
  calls : ∃ more, services'.calls = services.calls ++ more ∧
    ∀ i method, .subscribe i method ∉ more

section Settled

variable {σ : Type} {server : Server} {services services' services'' : Services σ}

/-- What streams is a method of a service of the table. -/
theorem Server.Streams.lt {i : Nat} {method : Str} (h : server.Streams i method) :
    i < server.services.length := by
  obtain ⟨-, c, hc, -⟩ := h
  exact (List.getElem?_eq_some_iff.mp hc).1

/-- With nothing called everything is settled. -/
theorem Server.settled_nil (server : Server) : server.Settled [] := by
  intro before i method after h
  exact absurd h.symm (by simp)

/-- With a subscription at the end the calls are not settled. -/
theorem Server.not_settled_subscribe {calls : List ServiceCall} {i : Nat} {method : Str}
    (h : server.Streams i method) : ¬ server.Settled (calls ++ [.subscribe i method]) := by
  intro hsettled
  exact absurd (hsettled calls i method [] rfl i h.lt) List.not_mem_nil

/-- Another call settles nothing but, as the end of `unsubscribe_all`, its own service. -/
theorem Server.settled_append_unsubscribe {calls : List ServiceCall} {i : Nat} {method : Str} :
    server.Settled (calls ++ [.unsubscribe i method]) ↔ server.Settled calls := by
  constructor
  · intro h before j name after heq k hk
    have hmem := h before j name (after ++ [.unsubscribe i method]) (by simp [heq]) k hk
    simpa using hmem
  · intro h before j name after heq k hk
    rcases after.eq_nil_or_concat with rfl | ⟨last, call, rfl⟩
    · cases (List.append_inj' heq rfl).2
    · have hlast : before ++ .subscribe j name :: (last.concat call) =
          (before ++ .subscribe j name :: last) ++ [call] := by simp
      have hcalls := (List.append_inj' (heq.trans hlast) rfl).1
      rw [List.concat_eq_append]
      exact List.mem_append_left _ (h before j name last hcalls k hk)

/-- When `unsubscribe_all` has been through every service, everything is settled. -/
theorem Server.Settled.of_releases (h : services.Releases services')
    (hall : ∀ i < server.services.length, ∃ more, services'.calls = services.calls ++ more ∧
      ServiceCall.unsubscribeAll i ∈ more) : server.Settled services'.calls := by
  obtain ⟨more, hmore, hnone⟩ := h.calls
  intro before i method after heq j hj
  obtain ⟨more', hmore', hmem⟩ := hall j hj
  cases List.append_cancel_left (hmore.symm.trans hmore')
  rw [hmore] at heq
  -- The subscription is not among the calls that took things back.
  rcases List.append_eq_append_iff.mp heq with ⟨mid, -, hmid⟩ | ⟨mid, -, hmid⟩
  · exact absurd (hmid ▸ List.mem_append_right _ List.mem_cons_self) (hnone i method)
  · cases mid with
    | nil =>
      rw [List.nil_append] at hmid
      exact absurd (hmid ▸ List.mem_cons_self) (hnone i method)
    | cons call mid =>
      cases hmid
      exact List.mem_append_right _ hmem

/-- A clean start is one that the calls account for. -/
theorem Server.Clean.tracks (h : server.Clean services) : server.Tracks services where
  eventConn i hne := absurd (h.eventConn i) hne
  callbacks p hp := by
    rw [h.callbacks] at hp
    cases hp
  clean _ := h

theorem Services.Releases.refl (services : Services σ) : services.Releases services :=
  ⟨rfl, fun _ h => h, List.Subset.refl _, [], (List.append_nil _).symm,
    fun _ _ => List.not_mem_nil⟩

/-- Releasing goes on behind releasing. -/
theorem Services.Releases.trans (h : services.Releases services')
    (h' : services'.Releases services'') : services.Releases services'' := by
  obtain ⟨more, hmore, hnone⟩ := h.calls
  obtain ⟨more', hmore', hnone'⟩ := h'.calls
  refine ⟨h'.methodId.trans h.methodId, fun i hi => h'.eventConn i (h.eventConn i hi),
    fun p hp => h.callbacks (h'.callbacks hp), more ++ more',
    by rw [hmore', hmore, List.append_assoc], fun i method hmem => ?_⟩
  exact (List.mem_append.mp hmem).elim (hnone i method) (hnone' i method)

/-- To unsubscribe a method only releases. -/
theorem Services.unsubscribe_releases (services : Services σ) (i : Nat) (method : Str)
    (state : σ) : services.Releases { services.unsubscribe i method with state := state } :=
  ⟨rfl, fun _ h => h, fun _ hp => (List.mem_filter.mp hp).1, [.unsubscribe i method], rfl,
    by simp⟩

/-- Disconnected, a service has no connection. -/
theorem Services.disconnect_eventConn (services : Services σ) (i : Nat) :
    (services.disconnect i).eventConn i = none :=
  Function.update_self ..

/-- To disconnect a service only releases. -/
theorem Services.disconnect_releases (services : Services σ) (i : Nat) :
    services.Releases (services.disconnect i) := by
  refine ⟨rfl, fun j hj => ?_, List.Subset.refl _, [.unsubscribeAll i], rfl, by simp⟩
  show Function.update services.eventConn i none j = none
  by_cases hij : j = i
  · rw [hij, Function.update_self]
  · rwa [Function.update_of_ne hij]

/-- A request keeps track of what it does. -/
theorem Server.Tracks.called {conn : Nat} (h : server.Tracks services)
    (hcalled : services.Called server conn services') : server.Tracks services' := by
  cases hcalled with
  | none state =>
    exact ⟨⟨h.eventConn, h.callbacks⟩, fun hsettled =>
      ⟨hsettled, (h.clean hsettled).eventConn, (h.clean hsettled).callbacks⟩⟩
  | subscribe rpcId i method state hsubscribes =>
    -- A subscription sets event_conn, and the session is not settled from here on.
    have hstreams := hsubscribes.streams
    refine ⟨⟨fun j hj => ?_, fun p hp => ?_⟩, fun hsettled =>
      absurd hsettled (server.not_settled_subscribe hstreams)⟩
    · by_cases hij : j = i
      · exact hij ▸ hstreams.lt
      · refine h.eventConn j fun hnone => hj ?_
        show Function.update services.eventConn i (some conn) j = none
        rw [Function.update_of_ne hij, hnone]
    · cases hp with
      | head => exact hstreams
      | tail _ hp => exact h.callbacks p hp
  | unsubscribe i method state =>
    -- An unsubscription only takes back.
    have hreleases := services.unsubscribe_releases i method state
    refine ⟨⟨h.eventConn, fun p hp => h.callbacks p (hreleases.callbacks hp)⟩,
      fun hsettled => ?_⟩
    have hclean := h.clean (server.settled_append_unsubscribe.mp hsettled)
    refine ⟨hsettled, hclean.eventConn, List.eq_nil_of_subset_nil ?_⟩
    exact hclean.callbacks ▸ hreleases.callbacks

end Settled

section Stop

variable {V : Varint} {σ : Type} {server : Server} {impl : Implementation σ}

namespace Session

/-- A round of `unsubscribe_all` only releases. -/
theorem unsubscribeMethod_releases (i : Nat) (s : Session σ) (m : EchoMethod) :
    s.services.Releases (unsubscribeMethod V impl i s m).services := by
  rw [unsubscribeMethod, runIgnoring_services]
  exact s.services.unsubscribe_releases i m.name _

/-- A round of `unsubscribe_all` takes the callback of its method back. -/
theorem unsubscribeMethod_callbacks (i : Nat) (s : Session σ) (m : EchoMethod) :
    (i, m.name) ∉ (unsubscribeMethod V impl i s m).services.callbacks := by
  rw [unsubscribeMethod, runIgnoring_services]
  simp [Services.unsubscribe]

/-- What `unsubscribe_all` of a service has done when it is through. -/
structure Unsubscribed (first : Services σ) (p : ServiceClass × Nat) (s : Session σ) : Prop where
  eventConn : s.services.eventConn p.2 = none
  callbacks : p.2 ≠ 0 → ∀ m ∈ p.1.dispatchTable, m.serverStreaming = true →
    (p.2, m.name) ∉ s.services.callbacks
  calls : ∃ more, s.services.calls = first.calls ++ more ∧ .unsubscribeAll p.2 ∈ more

/-- A service that has been unsubscribed stays so. -/
theorem Unsubscribed.releases {first : Services σ} {p : ServiceClass × Nat} {s s' : Session σ}
    (h : Unsubscribed first p s) (hs' : s.services.Releases s'.services) :
    Unsubscribed first p s' := by
  obtain ⟨more, hmore, hmem⟩ := h.calls
  obtain ⟨more', hmore', -⟩ := hs'.calls
  refine ⟨hs'.eventConn _ h.eventConn,
    fun hne m hm hstreaming hcallback => h.callbacks hne m hm hstreaming (hs'.callbacks hcallback),
    more ++ more', by rw [hmore', hmore, List.append_assoc], List.mem_append_left _ hmem⟩

/-- `unsubscribe_all` of a service takes back all that is its own, and only releases. -/
theorem unsubscribeService_unsubscribed {first : Services σ} (s : Session σ)
    (hs : first.Releases s.services) (p : ServiceClass × Nat) :
    s.services.Releases (unsubscribeService V impl s p).services ∧
      Unsubscribed first p (unsubscribeService V impl s p) := by
  obtain ⟨c, i⟩ := p
  obtain ⟨old, hold, -⟩ := hs.calls
  cases i with
  | zero =>
    -- The discovery service has no subscriptions.
    rw [unsubscribeService]
    refine ⟨s.services.disconnect_releases 0, s.services.disconnect_eventConn 0,
      fun h => absurd rfl h, old ++ [.unsubscribeAll 0], ?_, by simp⟩
    show s.services.calls ++ _ = _
    rw [hold, List.append_assoc]
  | succ i =>
    -- Each of the streaming methods is unsubscribed, and stays so to the end.
    obtain ⟨hreleases, hdone⟩ := foldl_establishes (unsubscribeMethod V impl (i + 1))
      (fun s s' : Session σ => s.services.Releases s'.services)
      (fun m s => (i + 1, m.name) ∉ s.services.callbacks)
      (fun s => .refl s.services) (fun _ _ _ h h' => h.trans h')
      (fun m s s' hm hs' hcallback => hm (hs'.callbacks hcallback))
      (fun s m _ => ⟨unsubscribeMethod_releases _ s m, unsubscribeMethod_callbacks _ s m⟩)
      (c.dispatchTable.filter EchoMethod.serverStreaming) s (.refl s.services)
    rw [unsubscribeService]
    generalize (c.dispatchTable.filter EchoMethod.serverStreaming).foldl
      (unsubscribeMethod V impl (i + 1)) s = s' at hreleases hdone ⊢
    obtain ⟨more, hmore, -⟩ := hreleases.calls
    refine ⟨hreleases.trans (s'.services.disconnect_releases (i + 1)),
      s'.services.disconnect_eventConn (i + 1),
      fun _ m hm hstreaming => hdone m (List.mem_filter.mpr ⟨hm, hstreaming⟩),
      old ++ (more ++ [.unsubscribeAll (i + 1)]), ?_, by simp⟩
    show s'.services.calls ++ _ = _
    rw [hmore, hold, List.append_assoc, List.append_assoc]

/-- `stop_accept` comes to the end of `unsubscribe_all` of every service. -/
theorem stopAccept_unsubscribed (s : Session σ) :
    s.services.Releases (stopAccept V server impl s).services ∧
      ∀ p ∈ server.services.zipIdx, Unsubscribed s.services p (stopAccept V server impl s) :=
  foldl_establishes (unsubscribeService V impl)
    (fun s s' : Session σ => s.services.Releases s'.services) (Unsubscribed s.services)
    (fun s => .refl s.services) (fun _ _ _ h h' => h.trans h')
    (fun _ _ _ hp hs' => hp.releases hs')
    (fun s' p hs' => unsubscribeService_unsubscribed s' hs' p) server.services.zipIdx s
    (.refl s.services)

/-- `stop_accept` takes every subscription back. -/
theorem stopAccept_clean (s : Session σ) (h : server.Owns s.services) :
    server.Clean (stopAccept V server impl s).services := by
  obtain ⟨hreleases, hdone⟩ : s.services.Releases (stopAccept V server impl s).services ∧
      ∀ p ∈ server.services.zipIdx, Unsubscribed s.services p (stopAccept V server impl s) :=
    stopAccept_unsubscribed s
  generalize stopAccept V server impl s = s' at hreleases hdone ⊢
  have hservice : ∀ i c, server.services[i]? = some c → Unsubscribed s.services (c, i) s' :=
    fun i c hc => hdone (c, i) (List.mk_mem_zipIdx_iff_getElem?.mpr hc)
  refine ⟨.of_releases hreleases fun i hi => ?_, fun i => ?_, ?_⟩
  · exact (hservice i _ (List.getElem?_eq_getElem hi)).calls
  · by_cases hnone : s.services.eventConn i = none
    · exact hreleases.eventConn i hnone
    · exact (hservice i _ (List.getElem?_eq_getElem (h.eventConn i hnone))).eventConn
  · -- A callback that is left would be one of a streaming method of a service.
    refine List.eq_nil_iff_forall_not_mem.mpr fun p hp => ?_
    obtain ⟨hne, c, hc, m, hm, hstreaming, hname⟩ := h.callbacks p (hreleases.callbacks hp)
    refine (hservice p.1 c hc).callbacks hne m hm hstreaming ?_
    rw [hname]
    exact hp

end Session

end Stop

/-! ## One session after the other -/

/-- `serve` (server_impl.cc:375-392) between two steps: waiting for its next connection,
or serving one. -/
inductive Serve (σ : Type) where
  | waiting (conn : Nat) (services : Services σ)
  | serving (s : Session σ)

/-- A step of `serve`: a connection comes, with what will be read from it and which writes
will fail, or the connection that is served is served for a round. -/
inductive Turn where
  | accept (bytes : List UInt8) (faults : List Bool)
  | round

namespace Serve

variable {σ : Type}

/-- A server whose services have not been called. -/
def fresh (state : σ) : Serve σ := .waiting 0 { state := state }

/-- `accept` goes on with the connection, or has returned. -/
def next : Bool × Session σ → Serve σ
  | (true, s) => .serving s
  | (false, s) => .waiting (s.conn + 1) s.services

/-- No subscription outlives its session. -/
def Clean (server : Server) : Serve σ → Prop
  | .waiting _ services => server.Clean services
  | .serving _ => True

/-- Where a step answers the client's goodbye and the answer fails to be written, nothing
is subscribed. -/
def GoodbyeWritten (V : Varint) (server : Server) : Serve σ → Turn → Prop
  | .serving s, .round =>
    (s.inp.read V.readUint32 .baselib).2.err = none →
      (s.inp.read V.readUint32 .baselib).1 = 0 → s.faults.head? = some true →
        server.Settled s.services.calls
  | _, _ => True

end Serve

section ServeStep

variable (V : Varint) {σ : Type} (overflow : (capacity : Nat) → Str → InlineString capacity)
  (server : Server) (impl : Implementation σ)

/-- `serve`, step by step. A panic is no return from `accept`, and has no next state. -/
def serveStep : Serve σ → Turn → Option (Serve σ)
  | .waiting conn services, .accept bytes faults =>
    (Session.acceptHello V server ⟨conn, .ofBytes bytes, faults, [], services⟩).toOption.map
      Serve.next
  | .serving s, .round => (s.acceptRound V overflow server impl).toOption.map Serve.next
  | _, _ => none

end ServeStep

section Serving

variable {V : Varint} {σ : Type} {overflow : (capacity : Nat) → Str → InlineString capacity}
  {server : Server} {impl : Implementation σ}

/-- What the services hold is kept track of, whether or not a session is served. -/
def Serve.Tracks (server : Server) : Serve σ → Prop
  | .waiting _ services => server.Tracks services
  | .serving s => server.Tracks s.services

/-- What an `Except` comes to when its error is dropped. -/
theorem toOption_map_eq_some {ε α β : Type} {x : Except ε α} {f : α → β} {b : β}
    (h : x.toOption.map f = some b) : ∃ a, x = .ok a ∧ f a = b := by
  cases x with
  | error e => cases h
  | ok a => exact ⟨a, rfl, Option.some.inj h⟩

namespace Session

/-- A message that is written with the error of `accept` leaves one if the write fails. -/
theorem send_err_eq_none_iff {s : Session σ} (h : s.inp.err = none) (type : ServerMessageType)
    (body : List UInt8) : (s.send type body).inp.err = none ↔ s.faults.head? ≠ some true := by
  obtain ⟨conn, inp, faults, sent, services⟩ := s
  cases faults with
  | nil => simpa [send, put] using h
  | cons fault faults =>
    cases fault with
    | false => simpa [send, put] using h
    | true => simp [send, put, Reader.report]

/-- `handle_goodbye` stops serving exactly if its own write does not fail. -/
theorem handleGoodbye_services {s : Session σ} (h : s.inp.err = none) :
    (handleGoodbye V server impl s).services =
      if s.faults.head? = some true then s.services
      else (stopAccept V server impl (s.send .serverGoodbye [])).services := by
  have herr := send_err_eq_none_iff h .serverGoodbye []
  unfold handleGoodbye
  dsimp only
  split
  · rename_i hfailed
    have hfault : s.faults.head? = some true := by
      by_contra hok
      exact Option.isSome_iff_ne_none.mp hfailed (herr.mpr hok)
    rw [if_pos hfault, send_services]
  · rename_i hok
    have hnofault := herr.mp (Option.not_isSome_iff_eq_none.mp hok)
    rw [if_neg hnofault]

/-- A round keeps track of what the services hold. If it is the last one, it leaves them
clean exactly if its goodbye, where it says one, may fail. -/
theorem acceptRound_tracks {s s' : Session σ} {again : Bool} (htracks : server.Tracks s.services)
    (h : s.acceptRound V overflow server impl = .ok (again, s')) :
    server.Tracks s'.services ∧
      (again = false →
        (server.Clean s'.services ↔ (Serve.serving s).GoodbyeWritten V server .round)) := by
  have hstop : ∀ t : Session σ, server.Owns t.services →
      server.Clean (stopAccept V server impl t).services := fun t ht => stopAccept_clean t ht
  unfold acceptRound at h
  dsimp only at h
  unfold Serve.GoodbyeWritten
  split at h
  · rename_i herr
    cases h
    -- The id cannot be read: `stop_accept`.
    have hclean := hstop { s with inp := (s.inp.read V.readUint32 .baselib).2 } htracks.toOwns
    refine ⟨hclean.tracks, fun _ => ⟨fun _ hnone => ?_, fun _ => hclean⟩⟩
    exact absurd hnone (Option.isSome_iff_ne_none.mp herr)
  · rename_i hok
    have hnone := Option.not_isSome_iff_eq_none.mp hok
    split at h
    · rename_i hzero
      cases h
      -- A goodbye: `stop_accept` is passed over if its answer cannot be written.
      rw [handleGoodbye_services hnone]
      dsimp only
      split
      · rename_i hfault
        exact ⟨htracks, fun _ => ⟨fun hclean _ _ _ => hclean.settled,
          fun hsettled => htracks.clean (hsettled hnone hzero hfault)⟩⟩
      · rename_i hnofault
        have hclean := hstop
          (send { s with inp := (s.inp.read V.readUint32 .baselib).2 } .serverGoodbye [])
          (by rw [send_services]; exact htracks.toOwns)
        exact ⟨hclean.tracks, fun _ => ⟨fun _ _ _ hfault => absurd hfault hnofault,
          fun _ => hclean⟩⟩
    · rename_i hne
      -- A request, and `stop_accept` if it has failed.
      obtain ⟨t, hdispatch, h⟩ := bind_eq_ok h
      have hcalled : s.services.Called server s.conn t.services :=
        dispatch_called (s := { s with inp := (s.inp.read V.readUint32 .baselib).2 }) hdispatch
      have htracks' : server.Tracks t.services := htracks.called hcalled
      split at h
      · cases h
        have hclean := hstop t htracks'.toOwns
        exact ⟨hclean.tracks, fun _ => ⟨fun _ _ hzero _ => absurd hzero hne, fun _ => hclean⟩⟩
      · cases h
        exact ⟨htracks', nofun⟩

/-- An id of zero is handled as a goodbye. -/
theorem acceptRound_goodbye {s : Session σ}
    (hread : (s.inp.read V.readUint32 .baselib).2.err = none)
    (hzero : (s.inp.read V.readUint32 .baselib).1 = 0) :
    s.acceptRound V overflow server impl =
      .ok (false, handleGoodbye V server impl
        { s with inp := (s.inp.read V.readUint32 .baselib).2 }) := by
  unfold acceptRound
  dsimp only
  rw [if_neg (Option.not_isSome_iff_eq_none.mpr hread), if_pos hzero]
  rfl

/-- Up to its loop `accept` does not call the services. -/
theorem acceptHello_services {s s' : Session σ} {again : Bool}
    (h : s.acceptHello V server = .ok (again, s')) : s'.services = s.services := by
  simp only [acceptHello] at h
  split at h
  · cases h
    rfl
  · split at h
    · cases h
      rfl
    · obtain ⟨hello, -, h⟩ := bind_eq_ok h
      cases h
      exact send_services _ _ _

end Session

/-- Between sessions and in one, it is the services that are tracked. -/
theorem Serve.next_tracks (p : Bool × Session σ) :
    (Serve.next p).Tracks server ↔ server.Tracks p.2.services := by
  obtain ⟨again, s⟩ := p
  cases again <;> exact Iff.rfl

/-- Every step of `serve` keeps track. -/
theorem serve_preserves :
    Preserves (serveStep V overflow server impl) (fun _ _ => True) (Serve.Tracks server) := by
  rintro (⟨conn, services⟩ | s) (⟨bytes, faults⟩ | _) st' htracks - hstep
  · obtain ⟨⟨again, s'⟩, haccept, rfl⟩ := toOption_map_eq_some hstep
    rw [Serve.next_tracks, Session.acceptHello_services haccept]
    exact htracks
  · cases hstep
  · cases hstep
  · obtain ⟨⟨again, s'⟩, haccept, rfl⟩ := toOption_map_eq_some hstep
    rw [Serve.next_tracks]
    exact (Session.acceptRound_tracks htracks haccept).1

/-- A step leaves no session with a subscription exactly if its goodbye may fail. -/
theorem serve_clean_iff {st : Serve σ} {turn : Turn} (htracks : st.Tracks server)
    (hclean : st.Clean server) :
    st.GoodbyeWritten V server turn ↔
      ∀ st', serveStep V overflow server impl st turn = some st' → st'.Clean server := by
  cases st with
  | waiting conn services =>
    cases turn with
    | accept bytes faults =>
      -- The hello is said before any service is called.
      refine iff_of_true trivial fun st' hstep => ?_
      obtain ⟨⟨again, s'⟩, haccept, rfl⟩ := toOption_map_eq_some hstep
      cases again with
      | false =>
        show server.Clean s'.services
        rw [Session.acceptHello_services haccept]
        exact hclean
      | true => trivial
    | round => exact iff_of_true trivial nofun
  | serving s =>
    cases turn with
    | accept bytes faults => exact iff_of_true trivial nofun
    | round =>
      constructor
      · intro hgoodbye st' hstep
        obtain ⟨⟨again, s'⟩, haccept, rfl⟩ := toOption_map_eq_some hstep
        cases again with
        | false => exact ((Session.acceptRound_tracks htracks haccept).2 rfl).mpr hgoodbye
        | true => trivial
      · -- The goodbye that fails is the last round of its session.
        intro hall hread hzero hfault
        have haccept : s.acceptRound V overflow server impl = .ok (false, _) :=
          Session.acceptRound_goodbye hread hzero
        have hreturned := hall (Serve.next (false, _)) (by rw [serveStep, haccept]; rfl)
        exact ((Session.acceptRound_tracks htracks haccept).2 rfl).mp hreturned hread hzero hfault

end Serving

/-- Between the sessions of a server every subscription has been taken back, whatever the
clients send, the handlers do, and reads and writes fail, if and only if no goodbye fails
to be answered while something is subscribed. -/
theorem sessions_cleaned_iff (V : Varint) {σ : Type}
    (overflow : (capacity : Nat) → Str → InlineString capacity) (server : Server)
    (impl : Implementation σ) (state : σ) (turns : List Turn) :
    Always (serveStep V overflow server impl) (Serve.Clean server) (.fresh state) turns ↔
      Along (serveStep V overflow server impl) (Serve.GoodbyeWritten V server) (.fresh state)
        turns := by
  have hfresh : server.Clean ({ state := state } : Services σ) :=
    ⟨server.settled_nil, fun _ => rfl, rfl⟩
  exact serve_preserves.always_iff (fun _ _ htracks _ hclean => serve_clean_iff htracks hclean)
    hfresh.tracks hfresh (.of_forall (fun _ _ => trivial) _ _)

namespace Sample

theorem tickerUuid_length : (List.replicate 16 (7 : UInt8)).length = 16 := rfl

/-- A service with one streaming method. -/
def ticker : EchoService where
  name := [84]
  package := []
  uuid := ⟨List.replicate 16 7, tickerUuid_length⟩
  majorVersion := 1
  minorVersion := 0
  methods := [{ method [112] 1 with serverStreaming := true }]
  types := []
  methodId_lt := by decide
  methodId_ne_zero := by decide
  methodIds_nodup := by decide
  name_ne_nil := by decide
  names_nodup := by decide

/-- Its server. -/
def tickerServer : Server where
  services := [only discovery, only ticker]
  endpoints_lt := by decide

/-- A client says hello, subscribes and says goodbye; the goodbye that answers it cannot
be written. -/
def goodbyeUnheard : List Turn :=
  [.accept [clientHelloByte, 2, 1, 0] [false, false, true], .round, .round]

end Sample

/-- The next session begins with the subscription of the one before. -/
theorem subscription_outlives :
    ∃ services, run (serveStep Varint.leb128 (fun _ _ => .empty) Sample.tickerServer Sample.quiet)
        (.fresh ()) Sample.goodbyeUnheard = some (.waiting 1 services) ∧
      services.eventConn 1 = some 0 ∧ services.callbacks = [(1, [112])] ∧
      services.calls = [.subscribe 1 [112]] ∧
      ¬ Always (serveStep Varint.leb128 (fun _ _ => .empty) Sample.tickerServer Sample.quiet)
        (Serve.Clean Sample.tickerServer) (.fresh ()) Sample.goodbyeUnheard := by
  have hrun : ∃ services,
      run (serveStep Varint.leb128 (fun _ _ => .empty) Sample.tickerServer Sample.quiet)
        (.fresh ()) Sample.goodbyeUnheard = some (.waiting 1 services) ∧
      services.eventConn 1 = some 0 ∧ services.callbacks = [(1, [112])] ∧
      services.calls = [.subscribe 1 [112]] := ⟨_, rfl, rfl, rfl, rfl⟩
  obtain ⟨services, hservices, hconn, hcallbacks, hcalls⟩ := hrun
  refine ⟨services, hservices, hconn, hcallbacks, hcalls, fun hall => ?_⟩
  have hclean : Sample.tickerServer.Clean services := hall.last hservices
  exact absurd (hcallbacks.symm.trans hclean.callbacks) (List.cons_ne_nil _ _)

end SerialRpc
