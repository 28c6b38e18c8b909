import SerialRpc.Service.Names

/-!
# Answering requests (protoc_serialrpc_plugin.cc:2522-2671, server_impl.cc:44-373)

The server reads an endpoint id and hands the connection to the dispatch function of the
endpoint, which reads the request's body, runs the service's handler and answers. The
connection is one whose writes succeed, so what has been sent is a list of messages.

- `Behaviour`: what a service's handler does with a request. It may send events and report
  errors. `Implementation.ReportsOnce`: it reports at most one.
- `dispatchUnary`, `dispatchStreaming`: the generated shapes; `dispatchListServices`: the
  one of the discovery service.
- `Server.dispatch`, `Server.accept`: `handle_request` and the loop of `accept`.
- `answered_once_iff`: a request is answered once exactly if its body, where one is
  read, is decoded without an error.
- `Server.accept_balanced`: over a whole connection every request is answered once, but
  for one that ends the loop; `Server.accept_leaves`: the loop ends at an error or at the
  client's goodbye.
-/

namespace SerialRpc

open ByteStream

/-! ## Messages and handlers -/

/-- A message of the server: its type, and the bytes behind the type byte. -/
structure ServerMessage where
  type : ServerMessageType
  body : List UInt8
deriving DecidableEq

/-- Whether a message answers a request. -/
def ServerMessageType.isAnswer : ServerMessageType → Bool
  | .reply | .errorReply | .unknown | .tooBig | .badMessage => true
  | .event | .log | .fatalError | .serverHello | .serverGoodbye => false

/-- How many of some messages are answers. -/
def answers (sent : List ServerMessage) : Nat := sent.countP fun msg => msg.type.isAnswer

/-- What a handler does to the connection: `send_event`, or a report to the error it was
given. An error's text goes out in the pieces that baselib writes it in. -/
inductive HandlerAction where
  | sendEvent (eventId : UInt32) (body : List UInt8)
  | reportError (text : List Str)

def HandlerAction.isError : HandlerAction → Bool
  | .sendEvent _ _ => false
  | .reportError _ => true

/-- What a handler does with a request, and what it returns. -/
structure Behaviour (α : Type) where
  actions : List HandlerAction
  value : α

/-- `if (handler_err)`. -/
def Behaviour.failed {α : Type} (b : Behaviour α) : Bool := b.actions.any HandlerAction.isError

/-- At most one error is reported. -/
def Behaviour.ReportsOnce {α : Type} (b : Behaviour α) : Prop :=
  b.actions.countP HandlerAction.isError ≤ 1

/-- The C++ value of a request or a response, which a method may lack. -/
@[reducible] def Payload : Option MessageType → Type
  | none => Unit
  | some T => T.Val

/-- An implementation of a method: what the service's `$method$`, or its
`subscribe_$method$`, does with a request, and what its `unsubscribe_$method$` does. The
service has a state `σ`. -/
structure Handler (σ : Type) (m : EchoMethod) where
  call : Payload m.parameter → σ → Behaviour (Payload m.result) × σ
  unsubscribe : σ → Behaviour Unit × σ

/-- Each call of a handler reports at most one error. -/
def Handler.ReportsOnce {σ : Type} {m : EchoMethod} (handler : Handler σ m) : Prop :=
  (∀ msg service, (handler.call msg service).1.ReportsOnce) ∧
    ∀ service, (handler.unsubscribe service).1.ReportsOnce

/-- A connection: the reader with the error that `accept` was given, what has been sent,
and the services' state. -/
structure Conn (σ : Type) where
  inp : In
  sent : List ServerMessage
  service : σ

namespace Conn

variable {σ : Type}

/-- `send_code`, and the other functions that write a message under `write_mtx`. -/
def send (conn : Conn σ) (type : ServerMessageType) (body : List UInt8) : Conn σ :=
  { conn with sent := conn.sent ++ [⟨type, body⟩] }

/-- `write_chunked` (encoding_impl.cc:339-360). -/
def writeChunked (V : Varint) (text : List Str) : List UInt8 :=
  (text.flatMap fun piece => V.writeUint32 (UInt32.ofNat piece.length) ++ piece) ++ [0]

/-- `send_event`, and `ServerErrorHandler::handle` (server_impl.cc:240-257). -/
def act (V : Varint) (conn : Conn σ) : HandlerAction → Conn σ
  | .sendEvent eventId body => conn.send .event (V.writeUint32 (eventId + 1) ++ body)
  | .reportError text => conn.send .errorReply (writeChunked V text)

/-- The call of a handler. -/
def run (V : Varint) {α : Type} (conn : Conn σ) (result : Behaviour α × σ) : Conn σ :=
  { result.1.actions.foldl (act V) conn with service := result.2 }

end Conn

/-! ## The dispatch functions -/

section Dispatch

variable (V : Varint) {σ : Type}

/-- `$T$ msg = unmarshal<$T$>(conn, err)`, where the method has a parameter. -/
def readRequest : (parameter : Option MessageType) → In → Payload parameter × In
  | none, inp => ((), inp)
  | some T, inp => unmarshal V T inp

/-- `send_reply_msg` (server.cc:254-272) and `send_reply_void` (server_impl.cc:400-412). -/
def sendReply : (result : Option MessageType) → Payload result → Conn σ →
    Except Panic (Conn σ)
  | none, _, conn => return conn.send .reply []
  | some T, resp, conn => do
    let out ← marshal V T resp {}
    return conn.send .reply out.written

/-- `dispatch_$method$` of a method that is not streaming
(protoc_serialrpc_plugin.cc:2621-2661). -/
def dispatchUnary (m : EchoMethod) (handler : Handler σ m) (conn : Conn σ) :
    Except Panic (Conn σ) :=
  let msg := readRequest V m.parameter conn.inp
  let conn := { conn with inp := msg.2 }
  if conn.inp.err.isSome then return conn
  else
    let resp := handler.call msg.1 conn.service
    let conn := conn.run V resp
    if resp.1.failed then return conn else sendReply V m.result resp.1.value conn

/-- `dispatch_$method$` of a streaming method (protoc_serialrpc_plugin.cc:2530-2594). -/
def dispatchStreaming (m : EchoMethod) (handler : Handler σ m) (conn : Conn σ) : Conn σ :=
  let enabled := conn.inp.read Read.byte .baselib
  let conn := { conn with inp := enabled.2 }
  if conn.inp.err.isSome then conn
  else if enabled.1 ≠ 0 then
    let msg := readRequest V m.parameter conn.inp
    let conn := { conn with inp := msg.2 }
    if conn.inp.err.isSome then conn
    else
      let resp := handler.call msg.1 conn.service
      let conn := conn.run V resp
      if resp.1.failed then conn else conn.send .reply []
  else
    let resp := handler.unsubscribe conn.service
    let conn := conn.run V resp
    if resp.1.failed then conn else conn.send .reply []

/-- `dispatch_list_services` (server_impl.cc:136-237). -/
def dispatchListServices (overflow : (capacity : Nat) → Str → InlineString capacity)
    (services : List ServiceDescription) (conn : Conn σ) : Except Panic (Conn σ) :=
  let request := unmarshal V Protocol.listServicesRequest conn.inp
  let conn := { conn with inp := request.2 }
  if conn.inp.err.isSome then return conn
  else do
    let out ← listServicesBody V overflow services request.1.1 {}
    return conn.send .reply out.written

end Dispatch

/-! ## The server's loop -/

/-- What the services of a server do: their methods, by service and method. -/
structure Implementation (σ : Type) where
  handler : Nat → (m : EchoMethod) → Handler σ m

/-- So does each handler of a server's services. -/
def Implementation.ReportsOnce {σ : Type} (impl : Implementation σ) : Prop :=
  ∀ i m, (impl.handler i m).ReportsOnce

/-- The call of a handler with `error::ignore`: what it reports goes nowhere. -/
def Conn.runIgnoring (V : Varint) {σ α : Type} (conn : Conn σ) (result : Behaviour α × σ) :
    Conn σ :=
  { (result.1.actions.filter fun action => !action.isError).foldl (Conn.act V) conn with
    service := result.2 }

namespace Server

variable (V : Varint) {σ : Type} (overflow : (capacity : Nat) → Str → InlineString capacity)
  (server : Server) (impl : Implementation σ)

/-- `handle_request` (server.cc:181-189) with what it calls. The first service is the
discovery service. -/
def dispatch (rpcId : UInt32) (conn : Conn σ) : Except Panic (Conn σ) :=
  match server.handleRequest rpcId with
  | none => return conn.send .unknown []
  | some (0, _) => dispatchListServices V overflow server.descriptions conn
  | some (i + 1, m) =>
    if m.serverStreaming then return dispatchStreaming V m (impl.handler (i + 1) m) conn
    else dispatchUnary V m (impl.handler (i + 1) m) conn

/-- `unsubscribe_all` of the services (protoc_serialrpc_plugin.cc:2687-2704), and
`stop_accept` (server_impl.cc:394-398). -/
def stopAccept (conn : Conn σ) : Conn σ :=
  let methods := server.services.zipIdx.tail.flatMap fun (c, i) =>
    (c.dispatchTable.filter EchoMethod.serverStreaming).map fun m => (i, m)
  methods.foldl
    (fun conn (i, m) => conn.runIgnoring V ((impl.handler i m).unsubscribe conn.service)) conn

/-- A round of the loop of `accept` that dispatches a request, up to the next read of an
id or to the return. -/
def acceptRequest (rpcId : UInt32) (conn : Conn σ) : Except Panic (Conn σ) := do
  let conn ← server.dispatch V overflow impl rpcId conn
  if conn.inp.err.isSome then return server.stopAccept V impl conn
  return conn

end Server

/-! ## One answer -/

/-- From one state of a connection to another, so many answers are sent. -/
def Sends {σ : Type} (n : Nat) (conn conn' : Conn σ) : Prop :=
  ∃ sent, conn'.sent = conn.sent ++ sent ∧ answers sent = n

section Sends

variable {V : Varint} {σ : Type} {n n' : Nat} {conn conn' conn'' : Conn σ}

theorem answers_append (sent sent' : List ServerMessage) :
    answers (sent ++ sent') = answers sent + answers sent' :=
  List.countP_append

theorem Sends.refl (conn : Conn σ) : Sends 0 conn conn := ⟨[], (List.append_nil _).symm, rfl⟩

/-- Answers add up. -/
theorem Sends.trans (h : Sends n conn conn') (h' : Sends n' conn' conn'') :
    Sends (n + n') conn conn'' := by
  obtain ⟨sent, hsent, hn⟩ := h
  obtain ⟨sent', hsent', hn'⟩ := h'
  refine ⟨sent ++ sent', ?_, ?_⟩
  · rw [hsent', hsent, List.append_assoc]
  · rw [answers_append, hn, hn']

/-- The number of answers that were sent is no other. -/
theorem Sends.unique (h : Sends n conn conn') (h' : Sends n' conn conn') : n = n' := by
  obtain ⟨sent, hsent, rfl⟩ := h
  obtain ⟨sent', hsent', rfl⟩ := h'
  rw [List.append_cancel_left (hsent.symm.trans hsent')]

/-- An answer is one answer. -/
theorem Conn.send_sends (conn : Conn σ) {type : ServerMessageType} (body : List UInt8)
    (h : type.isAnswer = true) : Sends 1 conn (conn.send type body) :=
  ⟨[⟨type, body⟩], rfl, by simp [answers, h]⟩

/-- An action of a handler is an answer if it is a report. -/
theorem Conn.act_sends (conn : Conn σ) (action : HandlerAction) :
    Sends (if action.isError then 1 else 0) conn (conn.act V action) := by
  cases action with
  | sendEvent eventId body => exact ⟨_, rfl, rfl⟩
  | reportError text => exact conn.send_sends _ rfl

/-- The actions of a handler send an answer for each error that is reported. -/
theorem Conn.foldl_act_sends (actions : List HandlerAction) (conn : Conn σ) :
    Sends (actions.countP HandlerAction.isError) conn (actions.foldl (Conn.act V) conn) := by
  induction actions generalizing conn with
  | nil => exact Sends.refl conn
  | cons action actions ih =>
    rw [List.countP_cons, Nat.add_comm]
    exact (conn.act_sends action).trans (ih _)

@[simp] theorem Conn.act_inp (conn : Conn σ) (action : HandlerAction) :
    (conn.act V action).inp = conn.inp := by
  cases action <;> rfl

theorem Conn.foldl_act_inp (actions : List HandlerAction) (conn : Conn σ) :
    (actions.foldl (Conn.act V) conn).inp = conn.inp := by
  induction actions generalizing conn with
  | nil => rfl
  | cons action actions ih => rw [List.foldl_cons, ih, Conn.act_inp]

@[simp] theorem Conn.run_inp {α : Type} (conn : Conn σ) (result : Behaviour α × σ) :
    (conn.run V result).inp = conn.inp :=
  Conn.foldl_act_inp _ _

/-- A handler answers the request itself exactly if it fails. -/
theorem Conn.run_sends {α : Type} (conn : Conn σ) {result : Behaviour α × σ}
    (honce : result.1.ReportsOnce) :
    Sends (if result.1.failed then 1 else 0) conn (conn.run V result) := by
  have hcount : (if result.1.failed then 1 else 0) =
      result.1.actions.countP HandlerAction.isError := by
    have hpos := List.countP_pos_iff (p := HandlerAction.isError) (l := result.1.actions)
    rw [← List.any_eq_true, ← Behaviour.failed] at hpos
    split
    · rename_i hfailed
      exact Nat.le_antisymm (hpos.mpr hfailed) honce
    · rename_i hfailed
      exact (Nat.eq_zero_of_not_pos fun h => hfailed (hpos.mp h)).symm
  rw [hcount]
  exact Conn.foldl_act_sends _ conn

/-- A handler whose errors are ignored sends no answer. -/
theorem Conn.runIgnoring_sends {α : Type} (conn : Conn σ) (result : Behaviour α × σ) :
    Sends 0 conn (conn.runIgnoring V result) := by
  have hcount : (result.1.actions.filter fun action => !action.isError).countP
      HandlerAction.isError = 0 := by
    rw [List.countP_eq_zero]
    intro action haction
    simpa using (List.mem_filter.mp haction).2
  have hsends := Conn.foldl_act_sends (V := V)
    (result.1.actions.filter fun action => !action.isError) conn
  rw [hcount] at hsends
  exact hsends

@[simp] theorem Conn.runIgnoring_inp {α : Type} (conn : Conn σ) (result : Behaviour α × σ) :
    (conn.runIgnoring V result).inp = conn.inp :=
  Conn.foldl_act_inp _ _

/-- The end of a session sends no answer. -/
theorem Server.stopAccept_sends (server : Server) (impl : Implementation σ) (conn : Conn σ) :
    Sends 0 conn (server.stopAccept V impl conn) := by
  unfold Server.stopAccept
  generalize server.services.zipIdx.tail.flatMap _ = methods
  induction methods generalizing conn with
  | nil => exact Sends.refl conn
  | cons entry methods ih => exact (conn.runIgnoring_sends _).trans (ih _)

theorem Server.stopAccept_inp (server : Server) (impl : Implementation σ) (conn : Conn σ) :
    (server.stopAccept V impl conn).inp = conn.inp := by
  unfold Server.stopAccept
  generalize server.services.zipIdx.tail.flatMap _ = methods
  induction methods generalizing conn with
  | nil => rfl
  | cons entry methods ih => rw [List.foldl_cons, ih, Conn.runIgnoring_inp]

end Sends

/-! ## When a request is answered -/

section Decodes

variable (V : Varint)

/-- The request of a method is decoded without an error, as far as one is read: a
streaming method's begins with a flag, and has a body only to subscribe. -/
def EchoMethod.Decodes (m : EchoMethod) (inp : In) : Prop :=
  if m.serverStreaming then
    (inp.read Read.byte .baselib).2.err = none ∧
      ((inp.read Read.byte .baselib).1 ≠ 0 →
        (readRequest V m.parameter (inp.read Read.byte .baselib).2).2.err = none)
  else (readRequest V m.parameter inp).2.err = none

/-- The request of an endpoint is decoded without an error. -/
def Server.Decodes (server : Server) (rpcId : UInt32) (inp : In) : Prop :=
  match server.handleRequest rpcId with
  | none => True
  | some (0, _) => (unmarshal V Protocol.listServicesRequest inp).2.err = none
  | some (_ + 1, m) => m.Decodes V inp

end Decodes

/-- A request that decodes is answered once and leaves no error; another one is not
answered and leaves one. -/
def Serves {σ : Type} (decodes : Prop) (conn conn' : Conn σ) : Prop :=
  decodes ∧ Sends 1 conn conn' ∧ conn'.inp.err = none ∨
    ¬ decodes ∧ Sends 0 conn conn' ∧ conn'.inp.err ≠ none

section Serves

variable {V : Varint} {σ : Type}

/-- The response, if there is one, is nested no deeper than the encoder's stack goes. -/
def EchoMethod.ResponseFits (m : EchoMethod) : Prop :=
  ∀ T ∈ m.result, T.height ≤ MaxNesting

/-- The reply to a request answers it. -/
theorem sendReply_sends (hV : V.Lawful) (result : Option MessageType)
    (hfits : ∀ T ∈ result, T.height ≤ MaxNesting) (resp : Payload result) (conn : Conn σ) :
    ∃ conn', sendReply V result resp conn = .ok conn' ∧ Sends 1 conn conn' ∧
      conn'.inp = conn.inp := by
  cases result with
  | none => exact ⟨_, rfl, conn.send_sends [] rfl, rfl⟩
  | some T =>
    have hopen : Writer.Open ({} : Writer Err) := ⟨rfl, rfl⟩
    have hmarshal := marshal_open hV hopen ((T.depth_le_height resp).trans (hfits T rfl))
    refine ⟨conn.send .reply (T.ref V resp ++ [endByte]), ?_, conn.send_sends _ rfl, rfl⟩
    rw [sendReply, hmarshal]
    rfl

/-- A unary dispatch answers once if the request is read, and else leaves an error. -/
theorem dispatchUnary_serves (hV : V.Lawful) {m : EchoMethod} (hfits : m.ResponseFits)
    {handler : Handler σ m} (honce : handler.ReportsOnce) (conn : Conn σ) :
    ∃ conn', dispatchUnary V m handler conn = .ok conn' ∧
      Serves ((readRequest V m.parameter conn.inp).2.err = none) conn conn' := by
  unfold dispatchUnary
  generalize readRequest V m.parameter conn.inp = msg
  cases herr : msg.2.err with
  | some e =>
    -- The request cannot be read: nothing is sent, and the loop sees the error.
    refine ⟨{ conn with inp := msg.2 }, by simp only [herr]; rfl, .inr ⟨nofun, ?_, ?_⟩⟩
    · exact Sends.refl conn
    · simp [herr]
  | none =>
    have hrun := Conn.run_sends (V := V) { conn with inp := msg.2 } (honce.1 msg.1 conn.service)
    have hinp := Conn.run_inp (V := V) { conn with inp := msg.2 } (handler.call msg.1 conn.service)
    cases hfailed : (handler.call msg.1 conn.service).1.failed with
    | true =>
      rw [hfailed] at hrun
      -- The handler has reported an error, which is the answer.
      refine ⟨_, by simp only [herr, hfailed]; rfl, .inl ⟨rfl, hrun, ?_⟩⟩
      rw [hinp, herr]
    | false =>
      rw [hfailed] at hrun
      obtain ⟨conn', hreply, hsends, hinp'⟩ := sendReply_sends hV m.result hfits
        (handler.call msg.1 conn.service).1.value
        (Conn.run V { conn with inp := msg.2 } (handler.call msg.1 conn.service))
      refine ⟨conn', by simp only [herr, hfailed]; exact hreply, .inl ⟨rfl, hrun.trans hsends, ?_⟩⟩
      rw [hinp', hinp, herr]

/-- Behind the flag or the body, a streaming method's handler either reports an error,
which answers, or is followed by a `Reply`. -/
theorem Conn.run_reply_sends {α : Type} (conn : Conn σ) {result : Behaviour α × σ}
    (honce : result.1.ReportsOnce) :
    Sends 1 conn (if result.1.failed then conn.run V result
      else (conn.run V result).send .reply []) := by
  have hrun := conn.run_sends (V := V) honce
  cases hfailed : result.1.failed with
  | true =>
    rw [hfailed] at hrun
    exact hrun
  | false =>
    rw [hfailed] at hrun
    exact hrun.trans (Conn.send_sends _ [] rfl)

theorem Conn.run_reply_inp {α : Type} (conn : Conn σ) (result : Behaviour α × σ) :
    (if result.1.failed then conn.run V result
      else (conn.run V result).send .reply []).inp = conn.inp := by
  split
  · exact conn.run_inp result
  · exact conn.run_inp result

theorem dispatchStreaming_serves {m : EchoMethod} {handler : Handler σ m}
    (honce : handler.ReportsOnce) (conn : Conn σ) :
    Serves ((conn.inp.read Read.byte .baselib).2.err = none ∧
      ((conn.inp.read Read.byte .baselib).1 ≠ 0 →
        (readRequest V m.parameter (conn.inp.read Read.byte .baselib).2).2.err = none))
      conn (dispatchStreaming V m handler conn) := by
  unfold dispatchStreaming
  generalize conn.inp.read Read.byte .baselib = enabled
  cases hflag : enabled.2.err.isSome with
  | true =>
    have hne := Option.isSome_iff_ne_none.mp hflag
    rw [if_pos hflag]
    exact .inr ⟨fun h => hne h.1, Sends.refl conn, hne⟩
  | false =>
    have hnone := Option.not_isSome_iff_eq_none.mp (Bool.eq_false_iff.mp hflag)
    rw [if_neg (Bool.eq_false_iff.mp hflag)]
    split
    · -- The flag is set, and the request is behind it.
      rename_i hsubscribe
      generalize readRequest V m.parameter enabled.2 = msg
      cases hbody : msg.2.err.isSome with
      | true =>
        have hne := Option.isSome_iff_ne_none.mp hbody
        rw [if_pos hbody]
        exact .inr ⟨fun h => hne (h.2 hsubscribe), Sends.refl conn, hne⟩
      | false =>
        have hdecoded := Option.not_isSome_iff_eq_none.mp (Bool.eq_false_iff.mp hbody)
        rw [if_neg (Bool.eq_false_iff.mp hbody)]
        exact .inl ⟨⟨hnone, fun _ => hdecoded⟩, Conn.run_reply_sends _ (honce.1 _ _),
          (Conn.run_reply_inp _ _).symm ▸ hdecoded⟩
    · -- The flag is not set, and nothing is behind it.
      rename_i hunsubscribe
      exact .inl ⟨⟨hnone, fun hsubscribe => absurd hsubscribe hunsubscribe⟩,
        Conn.run_reply_sends _ (honce.2 _), (Conn.run_reply_inp _ _).symm ▸ hnone⟩

theorem dispatchListServices_serves (hV : V.Lawful)
    (overflow : (capacity : Nat) → Str → InlineString capacity)
    (services : List ServiceDescription) (conn : Conn σ) :
    ∃ conn', dispatchListServices V overflow services conn = .ok conn' ∧
      Serves ((unmarshal V Protocol.listServicesRequest conn.inp).2.err = none) conn conn' := by
  unfold dispatchListServices
  generalize unmarshal V Protocol.listServicesRequest conn.inp = request
  cases hbody : request.2.err.isSome with
  | true =>
    have hne := Option.isSome_iff_ne_none.mp hbody
    refine ⟨{ conn with inp := request.2 }, ?_, .inr ⟨hne, Sends.refl conn, hne⟩⟩
    rw [if_pos hbody]
    rfl
  | false =>
    have hnone := Option.not_isSome_iff_eq_none.mp (Bool.eq_false_iff.mp hbody)
    obtain ⟨bytes, hbytes⟩ := listServicesBody_ok hV overflow request.1.1 services
    refine ⟨Conn.send { conn with inp := request.2 } .reply bytes, ?_,
      .inl ⟨hnone, Conn.send_sends _ bytes rfl, hnone⟩⟩
    rw [if_neg (Bool.eq_false_iff.mp hbody), hbytes]
    rfl

/-- The methods' responses are nested no deeper than the encoder's stack goes. -/
def Server.ResponsesFit (server : Server) : Prop :=
  ∀ c ∈ server.services, ∀ m ∈ c.service.methods, m.ResponseFits

/-- Every endpoint is served, and an unknown one is answered `Unknown`. -/
theorem Server.dispatch_serves (hV : V.Lawful)
    (overflow : (capacity : Nat) → Str → InlineString capacity) {server : Server}
    (hfits : server.ResponsesFit) {impl : Implementation σ} (honce : impl.ReportsOnce)
    (rpcId : UInt32) {conn : Conn σ} (hconn : conn.inp.err = none) :
    ∃ conn', server.dispatch V overflow impl rpcId conn = .ok conn' ∧
      Serves (server.Decodes V rpcId conn.inp) conn conn' := by
  unfold Server.dispatch Server.Decodes
  cases htarget : server.handleRequest rpcId with
  | none => exact ⟨_, rfl, .inl ⟨trivial, conn.send_sends [] rfl, hconn⟩⟩
  | some target =>
    obtain ⟨i, m⟩ := target
    cases i with
    | zero => exact dispatchListServices_serves hV overflow server.descriptions conn
    | succ i =>
      dsimp only
      unfold EchoMethod.Decodes
      cases hstreaming : m.serverStreaming with
      | true => exact ⟨_, rfl, dispatchStreaming_serves (honce _ m) conn⟩
      | false =>
        obtain ⟨c, hc, hm⟩ := server.handleRequest_mem htarget
        exact dispatchUnary_serves hV (hfits c hc m hm) (honce _ m) conn

/-- Up to the next read of an id or the return, a request has been answered once if it
decodes, and not at all if it does not. -/
theorem Server.acceptRequest_sends (hV : V.Lawful)
    (overflow : (capacity : Nat) → Str → InlineString capacity) {server : Server}
    (hfits : server.ResponsesFit) {impl : Implementation σ} (honce : impl.ReportsOnce)
    (rpcId : UInt32) {conn : Conn σ} (hconn : conn.inp.err = none) :
    ∃ conn', server.acceptRequest V overflow impl rpcId conn = .ok conn' ∧
      (server.Decodes V rpcId conn.inp ∧ Sends 1 conn conn' ∧ conn'.inp.err = none ∨
        ¬ server.Decodes V rpcId conn.inp ∧ Sends 0 conn conn' ∧ conn'.inp.err ≠ none) := by
  obtain ⟨conn', hdispatch, hserves⟩ :=
    Server.dispatch_serves hV overflow hfits honce rpcId hconn
  unfold Server.acceptRequest
  rw [hdispatch]
  rcases hserves with ⟨hdecodes, hsends, herr⟩ | ⟨hdecodes, hsends, herr⟩
  · refine ⟨conn', ?_, .inl ⟨hdecodes, hsends, herr⟩⟩
    simp only [bind, Except.bind, herr]
    rfl
  · refine ⟨server.stopAccept V impl conn', ?_,
      .inr ⟨hdecodes, hsends.trans (server.stopAccept_sends impl conn'), ?_⟩⟩
    · simp only [bind, Except.bind, Option.isSome_iff_ne_none.mpr herr]
      rfl
    · rwa [server.stopAccept_inp]

end Serves

/-- From the dispatch of a request to the next read of an id or to the return from
`accept`, exactly one answer is sent if and only if the request decodes, by handlers that
report at most one error. -/
theorem answered_once_iff {V : Varint} (hV : V.Lawful) {σ : Type}
    (overflow : (capacity : Nat) → Str → InlineString capacity) {server : Server}
    (hfits : server.ResponsesFit) {impl : Implementation σ} (honce : impl.ReportsOnce)
    (rpcId : UInt32) {conn : Conn σ} (hconn : conn.inp.err = none) :
    ∃ conn', server.acceptRequest V overflow impl rpcId conn = .ok conn' ∧
      (Sends 1 conn conn' ↔ server.Decodes V rpcId conn.inp) := by
  obtain ⟨conn', haccept, hsends⟩ :=
    Server.acceptRequest_sends hV overflow hfits honce rpcId hconn
  refine ⟨conn', haccept, ?_⟩
  rcases hsends with ⟨hdecodes, hone, -⟩ | ⟨hdecodes, hzero, -⟩
  · exact ⟨fun _ => hdecodes, fun _ => hone⟩
  · refine ⟨fun hone => ?_, fun h => absurd h hdecodes⟩
    exact absurd (hone.unique hzero) Nat.one_ne_zero

namespace Sample

/-- `message Item \x7b bytes key = 1 [size = 8]; \x7d` -/
def item : MessageType := .field 1 (.scalar (.bytes 8)) .empty

/-- A service with one method that takes an `Item` and returns nothing. -/
def store : EchoService where
  name := [83]
  package := []
  uuid := ⟨List.replicate 16 9, rfl⟩
  majorVersion := 1
  minorVersion := 0
  methods := [{ method [112] 1 with parameter := some item }]
  types := []
  methodId_lt := by decide
  methodId_ne_zero := by decide
  methodIds_nodup := by decide
  name_ne_nil := by decide
  names_nodup := by decide

/-- Its server. -/
def storeServer : Server where
  services := [only discovery, only store]
  endpoints_lt := by decide

/-- Handlers that do nothing and return defaults. -/
def quiet : Implementation Unit where
  handler _ m :=
    { call := fun _ _ => (⟨[], match m.result with | none => () | some T => T.default⟩, ())
      unsubscribe := fun _ => (⟨[], ()⟩, ()) }

theorem quiet_reportsOnce : quiet.ReportsOnce :=
  fun _ _ => ⟨fun _ _ => Nat.zero_le 1, fun _ => Nat.zero_le 1⟩

/-- An `Item` whose key has so many bytes, with its `End`. -/
def itemBytes (size : Nat) : List UInt8 :=
  Varint.leb128.writeUint32 10 ++ Varint.leb128.writeUint32 (UInt32.ofNat size) ++
    List.replicate size 7 ++ [endByte]

/-- A connection with such an item to read. -/
def itemConn (size : Nat) : Conn Unit := ⟨.ofBytes (itemBytes size), [], ()⟩

theorem storeServer_fits : storeServer.ResponsesFit := by
  intro c hc m hm T hT
  simp only [storeServer, List.mem_cons, List.not_mem_nil, or_false] at hc
  rcases hc with rfl | rfl
  · cases List.mem_singleton.mp hm
    cases hT
  · cases List.mem_singleton.mp hm
    cases hT

end Sample

theorem answered_once_store :
    ∃ conn', Sample.storeServer.acceptRequest Varint.leb128 (fun _ _ => .empty) Sample.quiet 1
        (Sample.itemConn 8) = .ok conn' ∧
      (Sends 1 (Sample.itemConn 8) conn' ↔
        Sample.storeServer.Decodes Varint.leb128 1 (Sample.itemConn 8).inp) :=
  answered_once_iff Varint.leb128_lawful (fun _ _ => .empty) Sample.storeServer_fits
    Sample.quiet_reportsOnce 1 rfl

/-- A key of nine bytes is well framed and is not answered. -/
theorem long_key_unanswered :
    skip Varint.leb128 .start MaxNesting (Sample.itemConn 9).inp = .ofBytes [] ∧
      ∃ conn', Sample.storeServer.acceptRequest Varint.leb128 (fun _ _ => .empty) Sample.quiet 1
          (Sample.itemConn 9) = .ok conn' ∧
        conn'.sent = [] ∧ ¬ Sends 1 (Sample.itemConn 9) conn' := by
  refine ⟨rfl, _, rfl, rfl, ?_⟩
  rintro ⟨sent, hsent, hone⟩
  cases sent with
  | nil => cases hone
  | cons msg sent => cases hsent

/-! ## Whole connections -/

/-- What `accept` has behind the hello, the reader apart. -/
structure Serving (σ : Type) where
  sent : List ServerMessage
  service : σ
  panicked : Bool := false
  /-- Ghost: the requests that have been dispatched. -/
  requests : Nat := 0

namespace Server

section Accept

variable (V : Varint) {σ : Type} (overflow : (capacity : Nat) → Str → InlineString capacity)
  (server : Server) (impl : Implementation σ)

/-- A round of the loop of `accept` (server_impl.cc:351-373). An id of zero is the
client's goodbye, which `handle_goodbye` answers in kind. -/
def acceptRound : Body (Serving σ) Err := fun s inp =>
  let rpcId := inp.read V.readUint32 .baselib
  let conn : Conn σ := ⟨rpcId.2, s.sent, s.service⟩
  if rpcId.2.err.isSome then
    let conn := server.stopAccept V impl conn
    ⟨false, { s with sent := conn.sent, service := conn.service }, conn.inp⟩
  else if rpcId.1 = 0 then
    let conn := server.stopAccept V impl (conn.send .serverGoodbye [])
    ⟨false, { s with sent := conn.sent, service := conn.service }, conn.inp⟩
  else
    match server.acceptRequest V overflow impl (rpcId.1 - 1) conn with
    | .error _ => ⟨false, { s with panicked := true, requests := s.requests + 1 }, rpcId.2⟩
    | .ok conn =>
      ⟨conn.inp.err.isNone,
        { s with sent := conn.sent, service := conn.service, requests := s.requests + 1 },
        conn.inp⟩

/-- The loop of `accept`. -/
def accept (s : Serving σ) (inp : In) : Serving σ × In :=
  Reader.loop (server.acceptRound V overflow impl) s inp

end Accept

section Rounds

variable {V : Varint} {σ : Type} {overflow : (capacity : Nat) → Str → InlineString capacity}
  {server : Server} {impl : Implementation σ}

/-- What the requests of a connection have come to: each has one answer, but for the
last one when it has left an error. -/
def Balanced (before : List ServerMessage) (s : Serving σ) (inp : In) : Prop :=
  s.panicked = false ∧ ∃ sent, s.sent = before ++ sent ∧
    (answers sent = s.requests ∨ answers sent + 1 = s.requests ∧ inp.err ≠ none)

/-- Sending no answer keeps the balance, as far as an error is left. -/
theorem Balanced.silent {before : List ServerMessage} {s s' : Serving σ} {inp inp' : In}
    (h : Balanced before s inp) {sent : List ServerMessage} (hsent : s'.sent = s.sent ++ sent)
    (hnone : answers sent = 0) (hrequests : s'.requests = s.requests)
    (hpanicked : s'.panicked = s.panicked) (herr : inp.err ≠ none → inp'.err ≠ none) :
    Balanced before s' inp' := by
  obtain ⟨hpanic, old, hold, hcount⟩ := h
  refine ⟨hpanicked.trans hpanic, old ++ sent, by rw [hsent, hold, List.append_assoc], ?_⟩
  rw [answers_append, hnone, hrequests]
  rcases hcount with hall | ⟨hmissing, hne⟩
  · exact .inl hall
  · exact .inr ⟨hmissing, herr hne⟩

/-- A round of `accept` keeps the balance. -/
theorem acceptRound_balanced (hV : V.Lawful) (hfits : server.ResponsesFit)
    (honce : impl.ReportsOnce) {before : List ServerMessage} (s : Serving σ) (inp : In)
    (h : Balanced before s inp) :
    Balanced before (server.acceptRound V overflow impl s inp).state
      (server.acceptRound V overflow impl s inp).reader := by
  unfold acceptRound
  generalize hread : inp.read V.readUint32 .baselib = rpcId
  have hkept : inp.err ≠ none → rpcId.2.err ≠ none := by
    intro hne
    rw [← hread, Reader.read_err_of_err _ _ hne]
    exact hne
  dsimp only
  split
  · obtain ⟨sent, hsent, hnone⟩ := server.stopAccept_sends (V := V) impl
      ⟨rpcId.2, s.sent, s.service⟩
    refine h.silent hsent hnone rfl rfl fun hne => ?_
    rw [server.stopAccept_inp]
    exact hkept hne
  · rename_i hok
    have hnone := Option.not_isSome_iff_eq_none.mp hok
    split
    · obtain ⟨sent, hsent, hzero⟩ := server.stopAccept_sends (V := V) impl
        (Conn.send ⟨rpcId.2, s.sent, s.service⟩ .serverGoodbye [])
      have hgoodbye : (server.stopAccept V impl
          (Conn.send ⟨rpcId.2, s.sent, s.service⟩ .serverGoodbye [])).sent =
          s.sent ++ (⟨.serverGoodbye, []⟩ :: sent) := by
        rw [hsent, Conn.send, List.append_assoc]
        rfl
      exact h.silent hgoodbye hzero rfl rfl fun hne => absurd hnone (hkept hne)
    · have hconn : (⟨rpcId.2, s.sent, s.service⟩ : Conn σ).inp.err = none := hnone
      obtain ⟨conn', haccept, hsends⟩ :=
        Server.acceptRequest_sends hV overflow hfits honce (rpcId.1 - 1) hconn
      rw [haccept]
      obtain ⟨hpanic, old, hold, hcount⟩ := h
      -- An error would have stayed, so every request before has been answered.
      have hall : answers old = s.requests := by
        rcases hcount with hall | ⟨-, hne⟩
        · exact hall
        · exact absurd hnone (hkept hne)
      rcases hsends with ⟨-, ⟨sent, hsent, hone⟩, -⟩ | ⟨-, ⟨sent, hsent, hzero⟩, hne⟩
      · refine ⟨hpanic, old ++ sent, ?_, .inl ?_⟩
        · show conn'.sent = before ++ (old ++ sent)
          rw [hsent, hold, List.append_assoc]
        · rw [answers_append, hone, hall]
      · refine ⟨hpanic, old ++ sent, ?_, .inr ⟨?_, hne⟩⟩
        · show conn'.sent = before ++ (old ++ sent)
          rw [hsent, hold, List.append_assoc]
        · rw [answers_append, hzero, hall]

end Rounds

/-- Over a whole connection every request has one answer, in the order they came, but
for one that ends the connection with an error. -/
theorem accept_balanced {V : Varint} (hV : V.Lawful) {σ : Type}
    (overflow : (capacity : Nat) → Str → InlineString capacity) {server : Server}
    (hfits : server.ResponsesFit) {impl : Implementation σ} (honce : impl.ReportsOnce)
    (sent : List ServerMessage) (service : σ) (inp : In) :
    Balanced sent (server.accept V overflow impl ⟨sent, service, false, 0⟩ inp).1
      (server.accept V overflow impl ⟨sent, service, false, 0⟩ inp).2 :=
  Reader.loop_induct (motive := Balanced sent) (acceptRound_balanced hV hfits honce) _ _
    ⟨rfl, [], (List.append_nil _).symm, .inl rfl⟩

/-! ### The loop ends -/

section Ends

variable {V : Varint} {σ : Type} {overflow : (capacity : Nat) → Str → InlineString capacity}
  {server : Server} {impl : Implementation σ}

theorem unmarshal_suffix (T : MessageType) (inp : In) :
    (unmarshal V T inp).2.unread <:+ inp.unread :=
  unmarshalNested_suffix (fun n inp => T.unmarshalBody_suffix n inp) _ inp

theorem readRequest_suffix (parameter : Option MessageType) (inp : In) :
    (readRequest V parameter inp).2.unread <:+ inp.unread := by
  cases parameter with
  | none => exact List.suffix_refl _
  | some T => exact unmarshal_suffix T inp

theorem sendReply_inp {result : Option MessageType} {resp : Payload result} {conn conn' : Conn σ}
    (h : sendReply V result resp conn = .ok conn') : conn'.inp = conn.inp := by
  cases result with
  | none =>
    cases h
    rfl
  | some T =>
    obtain ⟨out, -, h⟩ := bind_eq_ok h
    cases h
    rfl

theorem dispatchUnary_suffix {m : EchoMethod} {handler : Handler σ m} {conn conn' : Conn σ}
    (h : dispatchUnary V m handler conn = .ok conn') :
    conn'.inp.unread <:+ conn.inp.unread := by
  have hread := readRequest_suffix (V := V) m.parameter conn.inp
  simp only [dispatchUnary] at h
  split at h
  · cases h
    exact hread
  · split at h
    · cases h
      rwa [Conn.run_inp]
    · rwa [sendReply_inp h, Conn.run_inp]

theorem dispatchStreaming_suffix (m : EchoMethod) (handler : Handler σ m) (conn : Conn σ) :
    (dispatchStreaming V m handler conn).inp.unread <:+ conn.inp.unread := by
  have hflag := Reader.read_unread_suffix Read.byte Err.baselib conn.inp
  have hbody := readRequest_suffix (V := V) m.parameter (conn.inp.read Read.byte .baselib).2
  unfold dispatchStreaming
  dsimp only
  split
  · exact hflag
  · split
    · split
      · exact hbody.trans hflag
      · rw [Conn.run_reply_inp]
        exact hbody.trans hflag
    · rw [Conn.run_reply_inp]
      exact hflag

theorem dispatchListServices_suffix {services : List ServiceDescription} {conn conn' : Conn σ}
    (h : dispatchListServices V overflow services conn = .ok conn') :
    conn'.inp.unread <:+ conn.inp.unread := by
  have hread := unmarshal_suffix (V := V) Protocol.listServicesRequest conn.inp
  simp only [dispatchListServices] at h
  split at h
  · cases h
    exact hread
  · obtain ⟨out, -, h⟩ := bind_eq_ok h
    cases h
    exact hread

theorem dispatch_suffix {rpcId : UInt32} {conn conn' : Conn σ}
    (h : server.dispatch V overflow impl rpcId conn = .ok conn') :
    conn'.inp.unread <:+ conn.inp.unread := by
  unfold dispatch at h
  split at h
  · cases h
    exact List.suffix_refl _
  · exact dispatchListServices_suffix h
  · split at h
    · cases h
      exact dispatchStreaming_suffix _ _ conn
    · exact dispatchUnary_suffix h

theorem acceptRequest_suffix {rpcId : UInt32} {conn conn' : Conn σ}
    (h : server.acceptRequest V overflow impl rpcId conn = .ok conn') :
    conn'.inp.unread <:+ conn.inp.unread := by
  obtain ⟨conn'', hdispatch, h⟩ := bind_eq_ok h
  have hsuffix := dispatch_suffix hdispatch
  split at h
  · cases h
    rwa [stopAccept_inp]
  · cases h
    exact hsuffix

/-- A round that goes on has read an id. -/
theorem acceptRound_productive : Productive (server.acceptRound V overflow impl) := by
  intro s inp hagain
  unfold acceptRound at hagain ⊢
  dsimp only at hagain ⊢
  split at hagain
  · cases hagain
  · rename_i hok
    split at hagain
    · cases hagain
    · rename_i hne
      have hread := readUint32_shortens (Option.not_isSome_iff_eq_none.mp hok)
      rw [if_neg hok, if_neg hne]
      split at hagain
      · cases hagain
      · rename_i conn' haccept
        exact (acceptRequest_suffix haccept).length_le.trans_lt hread

/-- A round that ends the loop has an error, or has panicked, or has said goodbye. -/
theorem acceptRound_leaves {s : Serving σ} {inp : In}
    (h : (server.acceptRound V overflow impl s inp).again = false) :
    (server.acceptRound V overflow impl s inp).reader.err ≠ none ∨
      (server.acceptRound V overflow impl s inp).state.panicked = true ∨
      ∃ msg ∈ (server.acceptRound V overflow impl s inp).state.sent,
        msg.type = .serverGoodbye := by
  unfold acceptRound at h ⊢
  dsimp only at h ⊢
  split
  · -- The id cannot be read.
    rename_i herr
    refine .inl ?_
    rw [stopAccept_inp]
    exact Option.isSome_iff_ne_none.mp herr
  · rename_i hok
    rw [if_neg hok] at h
    split
    · -- The id is zero, and the goodbye has been sent.
      obtain ⟨sent, hsent, -⟩ := server.stopAccept_sends (V := V) impl
        (Conn.send ⟨(inp.read V.readUint32 .baselib).2, s.sent, s.service⟩ .serverGoodbye [])
      refine .inr (.inr ⟨⟨.serverGoodbye, []⟩, ?_, rfl⟩)
      rw [hsent, Conn.send]
      simp
    · rename_i hne
      rw [if_neg hne] at h
      split
      · exact .inr (.inl rfl)
      · -- A request after which the reader has an error.
        rename_i conn' haccept
        rw [haccept] at h
        exact .inl (Option.isSome_iff_ne_none.mp (Option.isNone_eq_false_iff.mp h))

/-- `accept` returns with an error, or at the client's goodbye. -/
theorem accept_leaves (s : Serving σ) (inp : In) :
    (server.accept V overflow impl s inp).2.err ≠ none ∨
      (server.accept V overflow impl s inp).1.panicked = true ∨
      ∃ msg ∈ (server.accept V overflow impl s inp).1.sent, msg.type = .serverGoodbye := by
  have hproductive : Productive (server.acceptRound V overflow impl) := acceptRound_productive
  obtain ⟨s', inp', hlast, heq⟩ := Reader.loop_last hproductive s inp
  rw [accept, heq]
  exact acceptRound_leaves hlast

end Ends

end Server

end SerialRpc
