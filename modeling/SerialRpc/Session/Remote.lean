import SerialRpc.Lib.Simulation
import SerialRpc.Session.LocalServices

/-!
# Remote calls are local calls (client.cc:36-45, 123-135, 300-405, server_impl.cc:351-373)

A session between its hello and its goodbye. Any number of callers make requests, the
server's loop serves them, threads of the services say events, and the client's worker
reads what comes back, each at its own time; what has been written and not yet been read is
in flight. A caller does not see any of that: what it is told is what the services would
have told it in its own process, had they been called one after the other.

- `Local`, `LocalServices.step`: the services alone, one call or piece of work at a time.
- `Remote`, `Remote.step`: the session. Both ends are the loops' own rounds.
- `LocalServices.Permits`: services say events of live subscriptions only;
  `Remote.Disciplined`: a stub forgets a callback behind its unsubscription.
- `Remote.Relates`: the session is behind the services by what is in flight;
  `remote_simulates`: every step keeps it so.
- `remote_calls_linearizable`: what a session does is what the services do alone.
-/

namespace SerialRpc

open ByteStream Transition

/-! ## The services alone -/

/-- What a thread of the services does: it says events. -/
abbrev Work (server : Server) (σ : Type) := σ → List (Emission server) × σ

/-- The services, what the callers were told of them, and the operations executed. -/
structure Local (server : Server) (σ ρ : Type) where
  service : σ
  told : List (Client.Processed ρ)
  executed : List (Operation server)

inductive LocalAction (server : Server) (σ : Type) where
  | call (op : Operation server)
  | work (work : Work server σ)

section Local

variable {server : Server} {σ ρ : Type}

/-- An action of the services. A caller's request comes without the elements that encode to
nothing. -/
def LocalServices.step (services : LocalServices server σ) (l : Local server σ ρ) :
    LocalAction server σ → Option (Local server σ ρ)
  | .call op =>
    let answer := services.answer op.endpoint op.request.received l.service
    some
      { service := answer.2, told := l.told ++ answer.1, executed := l.executed ++ [op] }
  | .work work =>
    let said := work l.service
    some
      { l with
        service := said.2
        told := l.told ++ said.1.map fun event => (Notice.emit event).told }

/-- Before the first call. -/
def Local.start (service : σ) : Local server σ ρ := ⟨service, [], []⟩

def Request.isSubscribe {parameter : Option MessageType} : Request parameter → Bool
  | .subscribe _ => true
  | .call _ | .unsubscribe => false

def Request.isUnsubscribe {parameter : Option MessageType} : Request parameter → Bool
  | .unsubscribe => true
  | .call _ | .subscribe _ => false

/-- No request subscribes and unsubscribes. -/
theorem Request.isUnsubscribe_eq_false {parameter : Option MessageType}
    {req : Request parameter} (h : req.isSubscribe = true) : req.isUnsubscribe = false := by
  cases req with
  | call msg => cases h
  | subscribe msg => rfl
  | unsubscribe => cases h

/-- The last of some operations with an id. -/
def lastOn (rpcId : UInt32) (ops : List (Operation server)) : Option (Operation server) :=
  (ops.filter fun op => op.rpcId = rpcId).getLast?

/-- The last of some operations with an id has subscribed. -/
def Live (ops : List (Operation server)) (rpcId : UInt32) : Prop :=
  ∃ op, lastOn rpcId ops = some op ∧ op.request.isSubscribe = true

/-- Services keep to their subscriptions: events are said from the beginning of a
subscription on, and until an unsubscription is answered. -/
def LocalServices.Permits (services : LocalServices server σ) (l : Local server σ ρ) :
    LocalAction server σ → Prop
  | .call op => ∀ before eventId (decoder : Client.Decoder ρ) val after,
      (services.answer op.endpoint op.request.received l.service).1 =
        before ++ .event eventId decoder val :: after →
      Live (l.executed ++ [op]) eventId ∨
        Live l.executed eventId ∧ ∀ told ∈ before, Client.Processed.isAnswer told = false
  | .work work => ∀ event ∈ (work l.service).1, Live l.executed (event.methodId + 1)

end Local

/-! ## The session -/

/-- A client and a server, and the bytes between them. -/
structure Remote (server : Server) (σ ρ : Type) where
  inbox : Client.Inbox ρ
  /-- What the client has written and the server has not read. -/
  requests : List UInt8
  serving : Serving σ
  /-- What the server has written and the client has not read. -/
  messages : List UInt8
  /-- Ghost: the operations that were served, and those that were not. -/
  served : List (Operation server)
  waiting : List (Operation server)
  /-- Ghost: the operations that have not returned, for each call that is pending. -/
  ongoing : List (Operation server)

/-- Who does something: a caller, the server's loop, a thread of the services, the client's
worker, or a stub behind an unsubscription. -/
inductive RemoteAction (server : Server) (σ : Type) where
  | request (op : Operation server)
  | serve
  | work (work : Work server σ)
  | deliver
  | unregister (eventId : UInt32)

/-- What the reply to an operation is decoded with. -/
def Operation.decoder {server : Server} {ρ : Type} (op : Operation server) : Client.Decoder ρ :=
  Endpoint.decoder op.endpoint op.request

/-- What is shared, once a request has begun: `register_event_callback`, where the stub
subscribes, and the list of `start_request`. -/
def Operation.begin {server : Server} {ρ : Type} (op : Operation server)
    (pending : Client.Pending ρ) : Client.Pending ρ :=
  { pending with
    calls := pending.calls ++ [op.decoder]
    callbacks :=
      if op.request.isSubscribe then
        Function.update pending.callbacks op.rpcId (some (Payload.decoder op.endpoint.2.result))
      else pending.callbacks }

namespace Remote

section Step

variable (V : Varint) {server : Server} {σ ρ : Type}
  (overflow : (capacity : Nat) → Str → InlineString capacity) (services : LocalServices server σ)

/-- A step of the session. A thread that would have to wait for bytes, or that reports an
error, takes none. -/
def step (r : Remote server σ ρ) : RemoteAction server σ → Option (Remote server σ ρ)
  | .request op => do
    let out ← (op.request.write V op.rpcId {}).toOption
    if out.err.isSome then none
    else
      return { r with
        inbox.pending := op.begin r.inbox.pending
        requests := r.requests ++ out.written
        waiting := r.waiting ++ [op]
        ongoing := r.ongoing ++ [op] }
  | .serve =>
    let round := server.acceptRound V overflow (services.implementation V)
      { r.serving with sent := [] } (.ofBytes r.requests)
    if round.again then
      some { r with
        requests := round.reader.unread
        serving := round.state
        messages := r.messages ++ round.state.sent.flatMap ServerMessage.bytes
        served := r.served ++ r.waiting.take 1
        waiting := r.waiting.drop 1 }
    else none
  | .work work => do
    let said := work r.serving.service
    let out ← (said.1.foldlM (fun out (event : Emission server) =>
      sendEvent V event.methodId event.msg out) {}).toOption
    return { r with
      serving.service := said.2
      messages := r.messages ++ out.written }
  | .deliver =>
    let round := Client.inputRound V (fun _ pending => pending) r.inbox (.ofBytes r.messages)
    if round.again then
      some { r with
        inbox := round.state
        messages := round.reader.unread
        ongoing := r.ongoing.drop
          (r.inbox.pending.calls.length - round.state.pending.calls.length) }
    else none
  | .unregister eventId =>
    some { r with
      inbox.pending.callbacks := Function.update r.inbox.pending.callbacks eventId none }

/-- Behind the hello. -/
def start (stubs : List Stub) (service : σ) : Remote server σ ρ where
  inbox := ⟨stubs, ⟨[], fun _ => none, false⟩, []⟩
  requests := []
  serving := ⟨[], service, false, 0⟩
  messages := []
  served := []
  waiting := []
  ongoing := []

/-- What a step does to the services. -/
def amounts (r : Remote server σ ρ) : RemoteAction server σ → List (LocalAction server σ)
  | .serve => (r.waiting.take 1).map .call
  | .work work => [.work work]
  | .request _ | .deliver | .unregister _ => []

/-- The encoder has room for the requests, and a stub forgets its callback when its
unsubscription has returned and nothing else was asked of the method in the meantime. -/
def Disciplined (r : Remote server σ ρ) : RemoteAction server σ → Prop
  | .request op => op.request.depth ≤ MaxNesting
  | .unregister eventId => (∀ op ∈ r.ongoing, op.rpcId ≠ eventId) ∧
      ∃ op, lastOn eventId (r.served ++ r.waiting) = some op ∧ op.request.isUnsubscribe = true
  | .serve | .work _ | .deliver => True

end Step

end Remote

/-- The operations that were begun in a run, in their order. -/
def begun {server : Server} {σ : Type} (actions : List (RemoteAction server σ)) :
    List (Operation server) :=
  actions.filterMap fun
    | .request op => some op
    | .serve | .work _ | .deliver | .unregister _ => none

/-! ## What is in flight -/

section Flight

variable {server : Server} {ρ : Type}

/-- What the callback of an event id decodes with. -/
def Server.eventDecoder (server : Server) (eventId : UInt32) : Option (Client.Decoder ρ) :=
  (server.handleRequest (eventId - 1)).map fun endpoint => Payload.decoder endpoint.2.result

/-- What the worker is going to be told: the answers to some operations, in their order, and
events between them, each of a subscription that is live or that an answer to come ends. -/
inductive Ahead (live : UInt32 → Prop) :
    List (Operation server) → List (Client.Processed ρ) → Prop
  | nil : Ahead live [] []
  | event {ops : List (Operation server)} {told : List (Client.Processed ρ)}
      {eventId : UInt32} {decoder : Client.Decoder ρ} (val : decoder.Val)
      (hdecoder : server.eventDecoder eventId = some decoder)
      (hlive : live eventId ∨ ∃ op ∈ ops, op.rpcId = eventId ∧ op.request.isUnsubscribe = true)
      (hrest : Ahead live ops told) : Ahead live ops (.event eventId decoder val :: told)
  | reply {op : Operation server} {ops : List (Operation server)}
      {told : List (Client.Processed ρ)} (val : op.decoder.Val) (hrest : Ahead live ops told) :
      Ahead live (op :: ops) (.reply op.decoder val :: told)
  | errorReply {op : Operation server} {ops : List (Operation server)}
      {told : List (Client.Processed ρ)} (text : Str) (hrest : Ahead live ops told) :
      Ahead live (op :: ops) (.errorReply text :: told)

/-- What is ahead goes on behind what is ahead. -/
theorem Ahead.append {live live' : UInt32 → Prop} {ops ops' : List (Operation server)}
    {told told' : List (Client.Processed ρ)} (h : Ahead live ops told)
    (h' : Ahead live' ops' told')
    (hlive : ∀ eventId, live eventId → live' eventId ∨
      ∃ op ∈ ops', op.rpcId = eventId ∧ op.request.isUnsubscribe = true) :
    Ahead live' (ops ++ ops') (told ++ told') := by
  induction h with
  | nil => exact h'
  | @event ops told eventId decoder val hdecoder hsaid hrest ih =>
    refine .event val hdecoder ?_ ih
    rcases hsaid with hsaid | ⟨op, hop, hends⟩
    · rcases hlive eventId hsaid with hsaid | ⟨op, hop, hends⟩
      · exact .inl hsaid
      · exact .inr ⟨op, List.mem_append_right ops hop, hends⟩
    · exact .inr ⟨op, List.mem_append_left ops' hop, hends⟩
  | reply val hrest ih => exact .reply val ih
  | errorReply text hrest ih => exact .errorReply text ih

/-- No event is ahead of a subscription that is not live and that no answer ends. -/
theorem Ahead.ne_of_mem {live : UInt32 → Prop} {ops : List (Operation server)}
    {told : List (Client.Processed ρ)} {eventId eventId' : UInt32} {decoder : Client.Decoder ρ}
    {val : decoder.Val} (h : Ahead live ops told) (hdead : ¬ live eventId)
    (hops : ∀ op ∈ ops, op.rpcId ≠ eventId)
    (hmem : .event eventId' decoder val ∈ told) : eventId' ≠ eventId := by
  induction h with
  | nil => exact absurd hmem List.not_mem_nil
  | event val' hdecoder hlive hrest ih =>
    rcases List.mem_cons.mp hmem with heq | hmem
    · cases heq
      rintro rfl
      rcases hlive with hlive | ⟨op, hop, hid, -⟩
      · exact hdead hlive
      · exact hops op hop hid
    · exact ih hops hmem
  | reply val' hrest ih =>
    rcases List.mem_cons.mp hmem with heq | hmem
    · cases heq
    · exact ih (fun op hop => hops op (.tail _ hop)) hmem
  | errorReply text hrest ih =>
    rcases List.mem_cons.mp hmem with heq | hmem
    · cases heq
    · exact ih (fun op hop => hops op (.tail _ hop)) hmem

/-- A subscription stays live until something else is asked of its method. -/
theorem Live.append {ops : List (Operation server)} {eventId : UInt32} (h : Live ops eventId)
    (op : Operation server) :
    Live (ops ++ [op]) eventId ∨ op.rpcId = eventId ∧ op.request.isSubscribe = false := by
  obtain ⟨last, hlast, hsubscribe⟩ := h
  by_cases hid : op.rpcId = eventId
  · cases hop : op.request.isSubscribe with
    | true => exact .inl ⟨op, by simp [lastOn, hid], hop⟩
    | false => exact .inr ⟨hid, rfl⟩
  · refine .inl ⟨last, ?_, hsubscribe⟩
    rw [lastOn, List.filter_append]
    simpa [lastOn, hid] using hlast

/-- A subscription is live behind a request if it was before, or the request subscribes. -/
theorem Live.of_append {ops : List (Operation server)} {op : Operation server}
    {eventId : UInt32} (h : Live (ops ++ [op]) eventId) :
    Live ops eventId ∨ op.rpcId = eventId ∧ op.request.isSubscribe = true := by
  obtain ⟨last, hlast, hsubscribe⟩ := h
  by_cases hid : op.rpcId = eventId
  · have heq : op = last := by simpa [lastOn, hid] using hlast
    exact .inr ⟨hid, heq ▸ hsubscribe⟩
  · refine .inl ⟨last, ?_, hsubscribe⟩
    rw [lastOn, List.filter_append] at hlast
    simpa [lastOn, hid] using hlast

/-- Operations with one id are on one endpoint. -/
theorem Operation.endpoint_eq {op op' : Operation server} (h : op.rpcId = op'.rpcId) :
    op.endpoint = op'.endpoint := by
  have hserved := op.served
  rw [h, op'.served] at hserved
  exact (Option.some.inj hserved).symm

/-- What is not a subscription with an id that is subscribed to is an unsubscription. -/
theorem Live.isUnsubscribe {ops : List (Operation server)} {op : Operation server}
    (h : Live ops op.rpcId) (hnot : op.request.isSubscribe = false) :
    op.request.isUnsubscribe = true := by
  obtain ⟨last, hlast, hsubscribe⟩ := h
  have hid : last.rpcId = op.rpcId :=
    of_decide_eq_true (List.mem_filter.mp (List.mem_of_getLast? hlast)).2
  have hstreaming : op.request.streaming = last.request.streaming := by
    rw [op.shape, last.shape, Operation.endpoint_eq hid]
  revert hstreaming hsubscribe hnot
  cases last.request <;> cases op.request <;>
    simp [Request.isSubscribe, Request.isUnsubscribe, Request.streaming]

/-- The events of an operation's method are decoded as its result. -/
theorem Operation.eventDecoder (op : Operation server) :
    server.eventDecoder op.rpcId =
      some (Payload.decoder op.endpoint.2.result : Client.Decoder ρ) := by
  rw [Server.eventDecoder, op.served]
  rfl

/-- An event is decoded as the result of its method. -/
theorem Emission.eventDecoder (event : Emission server) :
    server.eventDecoder (event.methodId + 1) =
      some (Payload.decoder event.endpoint.2.result : Client.Decoder ρ) := by
  rw [Server.eventDecoder, UInt32.add_sub_cancel, event.served]
  rfl

/-- Events behind the answers. -/
theorem Ahead.ofEvents {live : UInt32 → Prop} {events : List (Emission server)}
    (h : ∀ event ∈ events, live (event.methodId + 1)) :
    Ahead live ([] : List (Operation server))
      (events.map fun event => ((Notice.emit event).told : Client.Processed ρ)) := by
  induction events with
  | nil => exact .nil
  | cons event events ih =>
    exact .event _ event.eventDecoder (.inl (h event (.head _)))
      (ih fun event' hevent => h event' (.tail _ hevent))

/-- Behind its report, a function says events only. -/
theorem Ahead.behindReport {live : UInt32 → Prop} {notices : List (Notice server)}
    (hnone : notices.countP Notice.isReport = 0)
    (h : ∀ before eventId (decoder : Client.Decoder ρ) val after,
      notices.map Notice.told = before ++ .event eventId decoder val :: after → live eventId) :
    Ahead live ([] : List (Operation server)) (notices.map (Notice.told (ρ := ρ))) := by
  induction notices with
  | nil => exact .nil
  | cons notice notices ih =>
    cases notice with
    | report text => simp [Notice.isReport] at hnone
    | emit event =>
      refine .event _ event.eventDecoder (.inl (h [] _ _ _ _ rfl)) (ih ?_ ?_)
      · simpa [Notice.isReport] using hnone
      · intro before eventId decoder val after heq
        exact h (Notice.told (.emit event) :: before) eventId decoder val after (by simp [heq])

/-- What a function says, with the reply behind it where it has not failed, answers its
operation once. -/
theorem Ahead.ofNotices {live : UInt32 → Prop} {notices : List (Notice server)}
    (hle : notices.countP Notice.isReport ≤ 1) {op : Operation server} (val : op.decoder.Val)
    (h : ∀ before eventId (decoder : Client.Decoder ρ) val' after,
      notices.map Notice.told ++ (if notices.any Notice.isReport then [] else
          [.reply op.decoder val]) = before ++ .event eventId decoder val' :: after →
        live eventId ∨ (op.rpcId = eventId ∧ op.request.isUnsubscribe = true) ∧
          ∀ told ∈ before, Client.Processed.isAnswer told = false) :
    Ahead live [op] (notices.map Notice.told ++ if notices.any Notice.isReport then [] else
      [.reply op.decoder val]) := by
  induction notices with
  | nil => exact .reply val .nil
  | cons notice notices ih =>
    cases notice with
    | emit event =>
      have hany : (Notice.emit event :: notices).any Notice.isReport =
          notices.any Notice.isReport := rfl
      simp only [hany] at h ⊢
      refine .event _ event.eventDecoder ?_ (ih ?_ ?_)
      · rcases h [] _ _ _ _ rfl with hlive | ⟨hends, -⟩
        · exact .inl hlive
        · exact .inr ⟨op, .head _, hends⟩
      · rwa [List.countP_cons_of_neg (by simp [Notice.isReport])] at hle
      · intro before eventId decoder val' after heq
        rcases h (Notice.told (.emit event) :: before) eventId decoder val' after
          (congrArg (Notice.told (.emit event) :: ·) heq) with hlive | ⟨hends, hbefore⟩
        · exact .inl hlive
        · exact .inr ⟨hends, fun told htold => hbefore told (.tail _ htold)⟩
    | report text =>
      have hany : (Notice.report text :: notices).any Notice.isReport = true := rfl
      have hnone : notices.countP Notice.isReport = 0 := by
        rw [List.countP_cons_of_pos (by rfl)] at hle
        omega
      simp only [hany, if_true, List.append_nil] at h ⊢
      refine .errorReply _ (Ahead.behindReport hnone ?_)
      intro before eventId decoder val' after heq
      -- The report is an answer, and stands before the event.
      rcases h (Notice.told (.report text) :: before) eventId decoder val' after
        (congrArg (Notice.told (.report text) :: ·) heq) with hlive | ⟨-, hbefore⟩
      · exact hlive
      · exact absurd (hbefore _ (.head _)) (by simp [Notice.told, Client.Processed.isAnswer])

/-- What a call of the services tells its caller. -/
theorem LocalServices.answer_ahead {σ : Type} {services : LocalServices server σ}
    {l : Local server σ ρ} {op : Operation server} (h : services.Permits l (.call op)) :
    Ahead (Live (l.executed ++ [op])) [op]
      (services.answer (ρ := ρ) op.endpoint op.request.received l.service).1 := by
  have hpermits : ∀ before eventId (decoder : Client.Decoder ρ) val after,
      (services.answer op.endpoint op.request.received l.service).1 =
        before ++ .event eventId decoder val :: after →
      Live (l.executed ++ [op]) eventId ∨
        (op.rpcId = eventId ∧ op.request.isUnsubscribe = true) ∧
          ∀ told ∈ before, Client.Processed.isAnswer told = false := by
    intro before eventId decoder val after heq
    rcases h before eventId decoder val after heq with hlive | ⟨hlive, hbefore⟩
    · exact .inl hlive
    · rcases hlive.append op with hlive' | ⟨rfl, hnot⟩
      · exact .inl hlive'
      · exact .inr ⟨⟨rfl, hlive.isUnsubscribe hnot⟩, hbefore⟩
  clear h
  obtain ⟨rpcId, ⟨i, m⟩, request, hserved, hshape⟩ := op
  cases i with
  | zero =>
    cases request with
    | call msg => exact .reply _ .nil
    | subscribe msg => cases hshape
    | unsubscribe => cases hshape
  | succ i =>
    cases request with
    | call msg => exact Ahead.ofNotices (Outcome.reports_le _) _ hpermits
    | subscribe msg => exact Ahead.ofNotices (Outcome.reports_le _) _ hpermits
    | unsubscribe => exact Ahead.ofNotices (Outcome.reports_le _) _ hpermits

end Flight

/-! ## The rounds of both ends -/

section Rounds

variable {V : Varint} {server : Server} {σ ρ : Type}

/-- A round of `accept` over the id of an endpoint and a body that its dispatch function takes
answers the request that the body holds. -/
theorem Server.acceptRound_takes (hV : V.Lawful)
    (overflow : (capacity : Nat) → Str → InlineString capacity) {impl : Implementation σ}
    {rpcId : UInt32} (hrpcId : rpcId ≠ 0) {endpoint : Endpoint}
    (hserved : server.handleRequest (rpcId - 1) = some endpoint)
    {request : Request (Endpoint.requestType endpoint)} {body : List UInt8}
    (hbody : Reader.Takes (Endpoint.readBody V endpoint) body (some request)) {s : Serving σ}
    {rest : List UInt8} {sent : List ServerMessage} {service : σ}
    (hanswer : server.answer V overflow impl endpoint ⟨.ofBytes rest, s.sent, s.service⟩ request =
      .ok ⟨.ofBytes rest, s.sent ++ sent, service⟩) :
    server.acceptRound V overflow impl s (.ofBytes (V.writeUint32 rpcId ++ body ++ rest)) =
      ⟨true, { s with
        sent := s.sent ++ sent, service := service, requests := s.requests + 1 },
        .ofBytes rest⟩ := by
  have hid := Reader.read_ofBytes (hV.uint32 rpcId) Err.baselib (body ++ rest)
  have hdispatch : server.acceptRequest V overflow impl (rpcId - 1)
      ⟨.ofBytes (body ++ rest), s.sent, s.service⟩ =
        .ok ⟨.ofBytes rest, s.sent ++ sent, service⟩ := by
    rw [Server.acceptRequest, Server.dispatch_eq, hserved]
    simp only [hbody rest, Conn.serve]
    rw [hanswer]
    rfl
  simp only [Server.acceptRound, List.append_assoc, hid, Reader.err_ofBytes, Option.isSome_none,
    Bool.false_eq_true, if_false, hrpcId, hdispatch, Option.isNone_none]

/-- A round of `accept` over an operation's bytes does what the services do alone. -/
theorem Operation.acceptRound_told (hV : V.Lawful) (hlocal : V.Local)
    (overflow : (capacity : Nat) → Str → InlineString capacity) (htyped : server.WellTyped)
    (hdescribed : server.Described) {services : LocalServices server σ} (hfit : services.Fit)
    (op : Operation server)
    (hdepth : op.request.depth ≤ MaxNesting) (s : Serving σ) (rest : List UInt8) :
    ∃ sent, server.acceptRound V overflow (services.implementation V) s
        (.ofBytes (op.bytes V ++ rest)) =
      ⟨true, { s with
        sent := s.sent ++ sent
        service := (services.answer (ρ := ρ) op.endpoint op.request.received s.service).2
        requests := s.requests + 1 }, .ofBytes rest⟩ ∧
      List.Forall₂ (Tells V) sent
        (services.answer (ρ := ρ) op.endpoint op.request.received s.service).1 := by
  have harrives := Request.arrives hV (htyped.requestType op.served) hdepth
  have hshape : op.request.received.streaming = Endpoint.streaming op.endpoint :=
    harrives.streaming_eq.trans op.shape
  obtain ⟨sent, hanswer, htold⟩ := LocalServices.answer_told (ρ := ρ) hV overflow htyped
    hdescribed hfit op.served hshape ⟨.ofBytes rest, s.sent, s.service⟩
  exact ⟨sent, Server.acceptRound_takes hV overflow op.rpcId_ne_zero op.served
    (op.readBody_bytes hV hlocal harrives) hanswer, htold⟩

/-- Some events, each written by `send_event`. -/
theorem sendEvents_open (hV : V.Lawful) (htyped : server.WellTyped)
    (events : List (Emission server)) {out : Writer Err} (hopen : out.Open) :
    ∃ sent, events.foldlM (fun out (event : Emission server) =>
          sendEvent V event.methodId event.msg out) out =
        .ok (out.append (sent.flatMap ServerMessage.bytes)) ∧
      List.Forall₂ (Tells (ρ := ρ) V) sent (events.map fun event => (Notice.emit event).told) := by
  induction events generalizing out with
  | nil => exact ⟨[], by rw [List.flatMap_nil, Writer.append_nil]; rfl, .nil⟩
  | cons event events ih =>
    have hsend := sendEvent_open hV event hopen
    obtain ⟨sent, hsent, htold⟩ := ih (hopen.append (ServerMessage.bytes ⟨.event,
      V.writeUint32 (event.methodId + 1) ++ Payload.bytes V event.endpoint.2.result event.msg⟩))
    refine ⟨_ :: sent, ?_, .cons
      (.event _ (Payload.takes hV (htyped.result event.served) event.fits)) htold⟩
    rw [List.foldlM_cons, hsend, List.flatMap_cons, ← Writer.append_append]
    exact hsent

end Rounds

/-! ## How far the session is behind -/

section Relates

variable (V : Varint) {server : Server} {σ ρ : Type}

/-- The callback of an event id is the stub's. -/
def Remote.Registered (r : Remote server σ ρ) (eventId : UInt32) : Prop :=
  r.inbox.pending.callbacks eventId = server.eventDecoder eventId

/-- The messages on their way to the client tell what it has not been told. -/
structure Remote.Flight (r : Remote server σ ρ) (told : List (Client.Processed ρ))
    (sent : List ServerMessage) (ahead : List (Client.Processed ρ))
    (answering : List (Operation server)) : Prop where
  messages : r.messages = sent.flatMap ServerMessage.bytes
  tells : List.Forall₂ (Tells V) sent ahead
  told : told = r.inbox.processed ++ ahead
  ongoing : r.ongoing = answering ++ r.waiting
  isAhead : Ahead (Live r.served) answering ahead
  registered : ∀ eventId (decoder : Client.Decoder ρ) val,
    Client.Processed.event eventId decoder val ∈ ahead → r.Registered eventId

/-- The session is behind the services by what is in flight. -/
structure Remote.Relates (r : Remote server σ ρ) (l : Local server σ ρ) : Prop where
  service : r.serving.service = l.service
  panicked : r.serving.panicked = false
  served : r.served = l.executed
  requests : r.requests = r.waiting.flatMap (Operation.bytes V)
  fits : ∀ op ∈ r.waiting, op.request.depth ≤ MaxNesting
  calls : r.inbox.pending.calls = r.ongoing.map Operation.decoder
  flight : ∃ sent ahead answering, r.Flight V l.told sent ahead answering
  live : ∀ eventId, Live r.served eventId → r.Registered eventId
  subscribing : ∀ op ∈ r.waiting, op.request.isSubscribe = true → r.Registered op.rpcId

end Relates

section Steps

variable {V : Varint} {server : Server} {σ ρ : Type}
  {overflow : (capacity : Nat) → Str → InlineString capacity} {services : LocalServices server σ}
  {r r' : Remote server σ ρ} {l : Local server σ ρ}

namespace Remote

/-- Behind the hello both are at their beginning. -/
theorem Relates.start (stubs : List Stub) (service : σ) :
    (start stubs service : Remote server σ ρ).Relates V (.start service) where
  service := rfl
  panicked := rfl
  served := rfl
  requests := rfl
  fits _ hop := absurd hop List.not_mem_nil
  calls := rfl
  flight := ⟨[], [], [], rfl, .nil, rfl, rfl, .nil, fun _ _ _ hmem => absurd hmem List.not_mem_nil⟩
  live := by
    rintro eventId ⟨op, hop, -⟩
    have hnone : lastOn eventId ([] : List (Operation server)) = none := rfl
    rw [Remote.start, hnone] at hop
    cases hop
  subscribing _ hop := absurd hop List.not_mem_nil

/-- A request is on its way. -/
theorem Relates.request (h : r.Relates V l) (hV : V.Lawful) {op : Operation server}
    (hfits : op.request.depth ≤ MaxNesting)
    (hstep : r.step V overflow services (.request op) = some r') : r'.Relates V l := by
  have hopen : Writer.Open ({} : Writer Err) := ⟨rfl, rfl⟩
  simp only [step, op.request.write_open hV op.rpcId hfits hopen] at hstep
  cases hstep
  -- The callback of a subscription is registered before its request is written.
  have hregistered : ∀ eventId, r.Registered eventId →
      (op.begin r.inbox.pending).callbacks eventId = server.eventDecoder eventId := by
    intro eventId hold
    simp only [Operation.begin]
    split
    · by_cases hid : eventId = op.rpcId
      · rw [hid, Function.update_self, op.eventDecoder]
      · rw [Function.update_of_ne hid]
        exact hold
    · exact hold
  obtain ⟨sent, ahead, answering, hflight⟩ := h.flight
  exact
    { service := h.service
      panicked := h.panicked
      served := h.served
      requests := by
        rw [h.requests, List.flatMap_append, List.flatMap_singleton]
        rfl
      fits := List.forall_mem_append.mpr ⟨h.fits, List.forall_mem_singleton.mpr hfits⟩
      calls := by
        rw [List.map_append, ← h.calls]
        rfl
      flight :=
        ⟨sent, ahead, answering,
          { messages := hflight.messages
            tells := hflight.tells
            told := hflight.told
            ongoing := by rw [hflight.ongoing, List.append_assoc]
            isAhead := hflight.isAhead
            registered := fun eventId decoder val hmem =>
              hregistered eventId (hflight.registered eventId decoder val hmem) }⟩
      live := fun eventId hlive => hregistered eventId (h.live eventId hlive)
      subscribing := by
        refine List.forall_mem_append.mpr ⟨fun op' hop' hsubscribe =>
          hregistered _ (h.subscribing op' hop' hsubscribe), List.forall_mem_singleton.mpr ?_⟩
        intro hsubscribe
        show (op.begin r.inbox.pending).callbacks op.rpcId = _
        simp only [Operation.begin, hsubscribe, if_true, Function.update_self, op.eventDecoder] }

/-- The server's loop serves the operation that has waited longest. -/
theorem Relates.serve_eq (h : r.Relates V l)
    (overflow : (capacity : Nat) → Str → InlineString capacity) (hV : V.Lawful)
    (hlocal : V.Local) (htyped : server.WellTyped) (hdescribed : server.Described)
    (hfit : services.Fit) {op : Operation server} {ops : List (Operation server)}
    (hwaiting : r.waiting = op :: ops) :
    ∃ sent, r.step V overflow services .serve = some { r with
        requests := ops.flatMap (Operation.bytes V)
        serving := { r.serving with
          sent := sent
          service := (services.answer (ρ := ρ) op.endpoint op.request.received l.service).2
          requests := r.serving.requests + 1 }
        messages := r.messages ++ sent.flatMap ServerMessage.bytes
        served := r.served ++ [op]
        waiting := ops } ∧
      List.Forall₂ (Tells V) sent
        (services.answer (ρ := ρ) op.endpoint op.request.received l.service).1 := by
  obtain ⟨sent, hround, htold⟩ := op.acceptRound_told (ρ := ρ) hV hlocal overflow htyped
    hdescribed hfit (h.fits op (hwaiting ▸ .head _)) { r.serving with sent := [] }
    (ops.flatMap (Operation.bytes V))
  rw [← h.service]
  refine ⟨sent, ?_, htold⟩
  simp only [step, h.requests, hwaiting, List.flatMap_cons, hround]
  rfl

/-- With nothing to read the server does nothing. -/
theorem step_serve_nil (h : r.requests = []) : r.step V overflow services .serve = none := by
  cases hagain : (server.acceptRound V overflow (services.implementation V)
      { r.serving with sent := [] } (.ofBytes r.requests)).again with
  | true =>
    have hread := Server.acceptRound_productive _ _ hagain
    rw [h] at hread
    exact absurd hread (Nat.not_lt_zero _)
  | false => simp only [step, hagain, Bool.false_eq_true, if_false]

theorem step_deliver_nil (h : r.messages = []) : r.step V overflow services .deliver = none := by
  cases hagain : (Client.inputRound V (fun _ pending => pending) r.inbox
      (.ofBytes r.messages)).again with
  | true =>
    have hread := Client.inputRound_productive _ _ _ hagain
    rw [h] at hread
    exact absurd hread (Nat.not_lt_zero _)
  | false => simp only [step, hagain, Bool.false_eq_true, if_false]

/-- Serving an operation is calling the services. -/
theorem Relates.serve (h : r.Relates V l) (hV : V.Lawful) (hlocal : V.Local)
    (htyped : server.WellTyped) (hdescribed : server.Described) (hfit : services.Fit)
    (hpermits : ∀ op ∈ r.waiting.head?, services.Permits l (.call op))
    (hstep : r.step V overflow services .serve = some r') :
    ∃ l', Transition.run services.step l ((r.waiting.take 1).map .call) = some l' ∧
      r'.Relates V l' := by
  cases hwaiting : r.waiting with
  | nil =>
    rw [step_serve_nil (by rw [h.requests, hwaiting]; rfl)] at hstep
    cases hstep
  | cons op ops =>
    obtain ⟨sent', heq, htells⟩ := h.serve_eq overflow hV
      hlocal htyped hdescribed hfit hwaiting
    rw [heq] at hstep
    cases hstep
    have hpermits' := hpermits op (by rw [hwaiting]; rfl)
    obtain ⟨sent, ahead, answering, hflight⟩ := h.flight
    have hanswer := LocalServices.answer_ahead hpermits'
    rw [← h.served] at hanswer
    -- The operation's own subscription has its callback since it was begun.
    have hlive : ∀ eventId, Live (r.served ++ [op]) eventId → r.Registered eventId := by
      intro eventId hlive
      rcases hlive.of_append with hlive | ⟨rfl, hsubscribe⟩
      · exact h.live eventId hlive
      · exact h.subscribing op (hwaiting ▸ .head _) hsubscribe
    refine ⟨_, rfl, ?_⟩
    exact
      { service := rfl
        panicked := h.panicked
        served := congrArg (· ++ [op]) h.served
        requests := rfl
        fits := fun op' hop' => h.fits op' (hwaiting ▸ .tail _ hop')
        calls := h.calls
        flight :=
          ⟨sent ++ sent', ahead ++ (services.answer op.endpoint op.request.received l.service).1,
            answering ++ [op],
            { messages := by rw [hflight.messages, List.flatMap_append]
              tells := List.rel_append hflight.tells htells
              told := by rw [hflight.told, List.append_assoc]
              ongoing := by rw [hflight.ongoing, hwaiting, List.append_assoc]; rfl
              isAhead := by
                refine hflight.isAhead.append hanswer fun eventId hold => ?_
                rcases hold.append op with hlive' | ⟨rfl, hnot⟩
                · exact .inl hlive'
                · exact .inr ⟨op, .head _, rfl, hold.isUnsubscribe hnot⟩
              registered := by
                intro eventId decoder val hmem
                rcases List.mem_append.mp hmem with hmem | hmem
                · exact hflight.registered eventId decoder val hmem
                · obtain ⟨before, after, heq⟩ := List.append_of_mem hmem
                  rcases hpermits' before eventId decoder val after heq with hsaid | ⟨hsaid, -⟩
                  · exact hlive eventId (h.served ▸ hsaid)
                  · exact h.live eventId (h.served ▸ hsaid) }⟩
        live := hlive
        subscribing := fun op' hop' => h.subscribing op' (hwaiting ▸ .tail _ hop') }

/-- A thread of the services says what it says alone. -/
theorem Relates.work (h : r.Relates V l) (hV : V.Lawful) (htyped : server.WellTyped)
    {work : Work server σ} (hpermits : services.Permits l (.work work))
    (hstep : r.step V overflow services (.work work) = some r') :
    ∃ l', Transition.run services.step l [.work work] = some l' ∧ r'.Relates V l' := by
  obtain ⟨sent', heq, htells⟩ := sendEvents_open (ρ := ρ) hV htyped (work r.serving.service).1
    (show ({} : Writer Err).Open from ⟨rfl, rfl⟩)
  simp only [step, heq] at hstep
  cases hstep
  obtain ⟨sent, ahead, answering, hflight⟩ := h.flight
  have hsaid : ∀ event ∈ (work r.serving.service).1, Live r.served (event.methodId + 1) := by
    rw [h.service, h.served]
    exact hpermits
  refine ⟨_, rfl, ?_⟩
  exact
    { service := by rw [h.service]
      panicked := h.panicked
      served := h.served
      requests := h.requests
      fits := h.fits
      calls := h.calls
      flight :=
        ⟨sent ++ sent',
          ahead ++ (work r.serving.service).1.map fun event => (Notice.emit event).told,
          answering,
          { messages := by
              rw [hflight.messages, List.flatMap_append]
              rfl
            tells := List.rel_append hflight.tells htells
            told := by rw [hflight.told, List.append_assoc, h.service]
            ongoing := hflight.ongoing
            isAhead := by
              have hevents := hflight.isAhead.append (Ahead.ofEvents (ρ := ρ) hsaid)
                fun eventId hlive => .inl hlive
              rwa [List.append_nil] at hevents
            registered := by
              intro eventId decoder val hmem
              rcases List.mem_append.mp hmem with hmem | hmem
              · exact hflight.registered eventId decoder val hmem
              · obtain ⟨event, hevent, heq⟩ := List.mem_map.mp hmem
                cases heq
                exact h.live _ (hsaid event hevent) }⟩
      live := h.live
      subscribing := h.subscribing }

/-- The worker can take what is first on its way. -/
theorem Relates.expects (h : r.Relates V l) {sent : List ServerMessage}
    {told : Client.Processed ρ} {ahead : List (Client.Processed ρ)}
    {answering : List (Operation server)}
    (hflight : r.Flight V l.told sent (told :: ahead) answering) :
    r.inbox.pending.Expects told := by
  have hcalls := h.calls
  rw [hflight.ongoing] at hcalls
  cases hflight.isAhead with
  | event val hdecoder hlive hrest =>
    exact (hflight.registered _ _ val (.head _)).trans hdecoder
  | reply val hrest =>
    show r.inbox.pending.calls.head? = _
    rw [hcalls]
    rfl
  | errorReply text hrest =>
    show r.inbox.pending.calls ≠ []
    rw [hcalls]
    exact List.cons_ne_nil _ _

/-- The worker is told what is first on its way. -/
theorem Relates.deliver_eq (h : r.Relates V l) (hV : V.Lawful) {sent : List ServerMessage}
    {msg : ServerMessage} {told : Client.Processed ρ} {ahead : List (Client.Processed ρ)}
    {answering : List (Operation server)}
    (hflight : r.Flight V l.told (msg :: sent) (told :: ahead) answering) :
    r.step V overflow services .deliver = some { r with
      inbox := r.inbox.process told
      messages := sent.flatMap ServerMessage.bytes
      ongoing := if told.isAnswer then r.ongoing.tail else r.ongoing } := by
  have hexpects := h.expects hflight
  have htells : Tells V msg told := (List.forall₂_cons.mp hflight.tells).1
  have htakes := Client.Tells.takes hV htells hexpects (sent.flatMap ServerMessage.bytes)
  rw [← List.flatMap_cons, ← hflight.messages] at htakes
  simp only [Reader.round, Prod.mk.injEq] at htakes
  obtain ⟨⟨hagain, hstate⟩, hreader⟩ := htakes
  have hongoing : r.ongoing.drop (r.inbox.pending.calls.length -
      (r.inbox.process told).pending.calls.length) =
      if told.isAnswer then r.ongoing.tail else r.ongoing := by
    have hcalls := congrArg List.length h.calls
    rw [List.length_map] at hcalls
    have hshrinks : (r.inbox.process told).pending.calls.length =
        if told.isAnswer then r.inbox.pending.calls.length - 1
          else r.inbox.pending.calls.length := by
      rw [← List.length_tail, ← apply_ite List.length]
      rfl
    cases hanswer : told.isAnswer with
    | false => simp [hshrinks, hanswer]
    | true =>
      have hpos : 0 < r.inbox.pending.calls.length := by
        rw [hcalls, hflight.ongoing]
        cases hflight.isAhead with
        | event val hdecoder hlive hrest => cases hanswer
        | reply val hrest => exact Nat.succ_pos _
        | errorReply text hrest => exact Nat.succ_pos _
      have hone : r.inbox.pending.calls.length - (r.inbox.pending.calls.length - 1) = 1 := by
        omega
      simp only [hshrinks, hanswer, if_true, hone, List.drop_one]
  simp only [step, hagain, if_true, hstate, hreader, hongoing, Reader.unread_ofBytes]

/-- Behind what is first on its way the rest is on its way. -/
theorem Relates.behind (h : r.Relates V l) {sent : List ServerMessage} {msg : ServerMessage}
    {told : Client.Processed ρ} {ahead : List (Client.Processed ρ)}
    {answering : List (Operation server)}
    (hflight : r.Flight V l.told (msg :: sent) (told :: ahead) answering)
    (hr' : r' = { r with
      inbox := r.inbox.process told
      messages := sent.flatMap ServerMessage.bytes
      ongoing := if told.isAnswer then r.ongoing.tail else r.ongoing }) :
    r'.Relates V l ∧ ∃ answering', r'.Flight V l.told sent ahead answering' := by
  have htold : l.told = (r.inbox.process told).processed ++ ahead := by
    rw [hflight.told, Client.Inbox.process, List.append_assoc]
    rfl
  -- An answer ends the operation that has been answering longest.
  have hongoing : ∃ answering', (if told.isAnswer then r.ongoing.tail else r.ongoing) =
      answering' ++ r.waiting ∧ Ahead (Live r.served) answering' ahead := by
    cases hflight.isAhead with
    | event val hdecoder hlive hrest => exact ⟨answering, hflight.ongoing, hrest⟩
    | reply val hrest => exact ⟨_, by rw [hflight.ongoing]; rfl, hrest⟩
    | errorReply text hrest => exact ⟨_, by rw [hflight.ongoing]; rfl, hrest⟩
  obtain ⟨answering', hongoing, hahead⟩ := hongoing
  have hflight' : r'.Flight V l.told sent ahead answering' := by
    rw [hr']
    exact
      { messages := rfl
        tells := (List.forall₂_cons.mp hflight.tells).2
        told := htold
        ongoing := hongoing
        isAhead := hahead
        registered := fun eventId decoder val hmem =>
          hflight.registered eventId decoder val (.tail _ hmem) }
  subst hr'
  exact
    ⟨{ service := h.service
       panicked := h.panicked
       served := h.served
       requests := h.requests
       fits := h.fits
       calls := by
         show (if told.isAnswer then r.inbox.pending.calls.tail else r.inbox.pending.calls) = _
         rw [h.calls, ← List.map_tail, ← apply_ite (List.map Operation.decoder)]
       flight := ⟨sent, ahead, answering', hflight'⟩
       live := h.live
       subscribing := h.subscribing }, answering', hflight'⟩

/-- Delivering a message tells the client what the services have told already. -/
theorem Relates.deliver (h : r.Relates V l) (hV : V.Lawful)
    (hstep : r.step V overflow services .deliver = some r') : r'.Relates V l := by
  obtain ⟨sent, ahead, answering, hflight⟩ := h.flight
  cases ahead with
  | nil =>
    cases hflight.tells
    rw [step_deliver_nil (by rw [hflight.messages]; rfl)] at hstep
    cases hstep
  | cons told ahead =>
    obtain ⟨msg, sent, htells, hrest, rfl⟩ := List.forall₂_cons_right_iff.mp hflight.tells
    rw [h.deliver_eq hV hflight] at hstep
    exact (h.behind hflight (Option.some.inj hstep).symm).1

/-- An unsubscription in whose way nothing stands leaves no event behind. -/
theorem Relates.unregister (h : r.Relates V l) {eventId : UInt32}
    (hdisciplined : r.Disciplined (.unregister eventId))
    (hstep : r.step V overflow services (.unregister eventId) = some r') : r'.Relates V l := by
  cases hstep
  obtain ⟨hnone, last, hlast, hunsubscribe⟩ := hdisciplined
  obtain ⟨sent, ahead, answering, hflight⟩ := h.flight
  rw [hflight.ongoing] at hnone
  have hdead : ¬ Live r.served eventId := by
    rintro ⟨op, hop, hsubscribe⟩
    have hwaiting : (r.waiting.filter fun op => op.rpcId = eventId) = [] :=
      List.filter_eq_nil_iff.mpr fun op hop => by
        simpa using hnone op (List.mem_append_right answering hop)
    rw [lastOn, List.filter_append, hwaiting, List.append_nil, ← lastOn, hop] at hlast
    cases hlast
    rw [Request.isUnsubscribe_eq_false hsubscribe] at hunsubscribe
    cases hunsubscribe
  have hkept : ∀ eventId', eventId' ≠ eventId → r.Registered eventId' →
      Function.update r.inbox.pending.callbacks eventId none eventId' =
        server.eventDecoder eventId' := by
    intro eventId' hne hold
    rw [Function.update_of_ne hne]
    exact hold
  exact
    { service := h.service
      panicked := h.panicked
      served := h.served
      requests := h.requests
      fits := h.fits
      calls := h.calls
      flight := ⟨sent, ahead, answering,
        { messages := hflight.messages
          tells := hflight.tells
          told := hflight.told
          ongoing := hflight.ongoing
          isAhead := hflight.isAhead
          registered := fun eventId' decoder val hmem => hkept eventId'
            (hflight.isAhead.ne_of_mem hdead
              (fun op hop => hnone op (List.mem_append_left _ hop)) hmem)
            (hflight.registered eventId' decoder val hmem) }⟩
      live := fun eventId' hlive =>
        hkept eventId' (fun heq => hdead (heq ▸ hlive)) (h.live eventId' hlive)
      subscribing := fun op hop hsubscribe =>
        hkept op.rpcId (hnone op (List.mem_append_right answering hop))
          (h.subscribing op hop hsubscribe) }

end Remote

/-- Every step of the session keeps it behind the services by what is in flight. -/
theorem remote_simulates (hV : V.Lawful) (hlocal : V.Local) (htyped : server.WellTyped)
    (hdescribed : server.Described) (hfit : services.Fit) :
    Simulates (Remote.step V overflow services) services.step Remote.amounts Remote.Disciplined
      services.Permits (Remote.Relates (ρ := ρ) V) := by
  intro r action r' l h hdisciplined hpermits hstep
  cases action with
  | request op => exact ⟨l, rfl, h.request hV hdisciplined hstep⟩
  | serve =>
    refine h.serve hV hlocal htyped hdescribed hfit (fun op hop => ?_) hstep
    have htake : r.waiting.take 1 = [op] := by
      rw [List.take_one, hop]
      rfl
    rw [Remote.amounts, htake] at hpermits
    exact hpermits.1
  | work work => exact h.work hV htyped hpermits.1 hstep
  | deliver => exact ⟨l, rfl, h.deliver hV hstep⟩
  | unregister eventId => exact ⟨l, rfl, h.unregister hdisciplined hstep⟩

/-- Operations are served in the order they were begun in. -/
theorem Remote.served_waiting {actions : List (RemoteAction server σ)}
    (hrun : run (Remote.step V overflow services) r actions = some r') :
    r'.served ++ r'.waiting = r.served ++ r.waiting ++ begun actions := by
  induction actions generalizing r with
  | nil =>
    cases hrun
    exact (List.append_nil _).symm
  | cons action actions ih =>
    obtain ⟨t, hstep, hrun⟩ := Option.bind_eq_some_iff.mp hrun
    rw [ih hrun]
    cases action with
    | request op =>
      simp only [step, Option.bind_eq_bind, Option.bind_eq_some_iff] at hstep
      obtain ⟨out, -, hstep⟩ := hstep
      split at hstep
      · cases hstep
      · cases hstep
        simp [begun]
    | serve =>
      simp only [step] at hstep
      split at hstep
      · cases hstep
        show r.served ++ r.waiting.take 1 ++ r.waiting.drop 1 ++ begun actions = _
        rw [List.append_assoc r.served, List.take_append_drop]
        rfl
      · cases hstep
    | work work =>
      simp only [step, Option.bind_eq_bind, Option.bind_eq_some_iff] at hstep
      obtain ⟨out, -, hstep⟩ := hstep
      cases hstep
      rfl
    | deliver =>
      simp only [step] at hstep
      split at hstep
      · cases hstep
        rfl
      · cases hstep
    | unregister eventId =>
      cases hstep
      rfl

end Steps

/-- Remote calls are local calls. Whatever order the callers, the server's loop, the threads
of the services and the worker take their turns in, a session has done what the services do
alone, called one operation after the other in the order they were begun in, each once, when
the server's loop comes to it. What the client was told is what the services have told, but
for what is in flight, and of that nothing: with no request on its way every operation begun
has been executed, and with no message on its way the client has been told everything. As
long as something is on its way its reader can take it. -/
theorem remote_calls_linearizable {V : Varint} (hV : V.Lawful) (hlocal : V.Local)
    {server : Server} {σ ρ : Type} (overflow : (capacity : Nat) → Str → InlineString capacity)
    (htyped : server.WellTyped) (hdescribed : server.Described)
    {services : LocalServices server σ} (hfit : services.Fit) {stubs : List Stub} {service : σ}
    {actions : List (RemoteAction server σ)} {r : Remote server σ ρ}
    (hrun : run (Remote.step V overflow services) (.start stubs service) actions = some r)
    (hdisciplined : Along (Remote.step V overflow services) (Remote.Disciplined (ρ := ρ))
      (.start stubs service) actions)
    (hpermits : Along services.step (services.Permits (ρ := ρ)) (.start service)
      (image (Remote.step (ρ := ρ) V overflow services) Remote.amounts (.start stubs service)
        actions)) :
    ∃ l : Local server σ ρ,
      run services.step (.start service)
        (image (Remote.step (ρ := ρ) V overflow services) Remote.amounts (.start stubs service)
          actions) = some l ∧
      r.serving.service = l.service ∧ begun actions = l.executed ++ r.waiting ∧
      r.inbox.processed <+: l.told ∧
      (r.requests = [] → begun actions = l.executed) ∧
      (r.messages = [] → r.inbox.processed = l.told) ∧
      (r.requests ≠ [] → ∃ r', r.step V overflow services .serve = some r') ∧
      (r.messages ≠ [] → ∃ r', r.step V overflow services .deliver = some r') := by
  obtain ⟨l, hlocalRun, h⟩ := (remote_simulates hV hlocal htyped hdescribed hfit).run
    (Remote.Relates.start stubs service) hdisciplined hpermits hrun
  have hbegun : begun actions = l.executed ++ r.waiting := by
    rw [← h.served, Remote.served_waiting hrun]
    rfl
  obtain ⟨sent, ahead, answering, hflight⟩ := h.flight
  -- What is on its way is what the ghosts say.
  have hserve : ∀ op ops, r.waiting = op :: ops →
      ∃ r', r.step V overflow services .serve = some r' := by
    intro op ops hwaiting
    obtain ⟨sent', hstep, -⟩ := h.serve_eq overflow hV hlocal htyped hdescribed
      hfit hwaiting
    exact ⟨_, hstep⟩
  have hdeliver : ∀ told ahead', ahead = told :: ahead' →
      ∃ r', r.step V overflow services .deliver = some r' := by
    rintro told ahead' rfl
    obtain ⟨msg, sent, -, -, rfl⟩ := List.forall₂_cons_right_iff.mp hflight.tells
    exact ⟨_, h.deliver_eq hV hflight⟩
  refine ⟨l, hlocalRun, h.service, hbegun, ⟨ahead, hflight.told.symm⟩, ?_, ?_, ?_, ?_⟩
  · intro hrequests
    cases hwaiting : r.waiting with
    | nil => rw [hbegun, hwaiting, List.append_nil]
    | cons op ops =>
      obtain ⟨r', hstep⟩ := hserve op ops hwaiting
      rw [Remote.step_serve_nil hrequests] at hstep
      cases hstep
  · intro hmessages
    cases hahead : ahead with
    | nil => rw [hflight.told, hahead, List.append_nil]
    | cons told ahead' =>
      obtain ⟨r', hstep⟩ := hdeliver told ahead' hahead
      rw [Remote.step_deliver_nil hmessages] at hstep
      cases hstep
  · intro hrequests
    cases hwaiting : r.waiting with
    | nil => exact absurd (h.requests.trans (by rw [hwaiting]; rfl)) hrequests
    | cons op ops => exact hserve op ops hwaiting
  · intro hmessages
    cases hahead : ahead with
    | nil =>
      subst hahead
      cases hflight.tells
      exact absurd hflight.messages hmessages
    | cons told ahead' => exact hdeliver told ahead' hahead

namespace Sample

/-- An event of the feed, which has no message. -/
def tick : Emission feedServer where
  methodId := 2
  endpoint := (1, { method [119] 2 with serverStreaming := true })
  served := rfl
  streaming := rfl
  msg := ()
  fits := Nat.zero_le _

/-- Services that say an event as soon as it is subscribed to. -/
def speaking : LocalServices feedServer Unit where
  method _ m :=
    { call := fun _ _ =>
        (⟨if m.serverStreaming then [.emit tick] else [],
          match m.result with | none => () | some T => T.default,
          by split <;> decide⟩, ())
      unsubscribe := fun _ => (⟨[], (), by decide⟩, ()) }

theorem speaking_fit : speaking.Fit := by
  intro c hc m hm _ i msg service
  generalize ((speaking.method i m).call msg service).1.value = value
  have hresult : ∀ c ∈ feedServer.services, ∀ m ∈ c.service.methods, m.result = none := by decide
  have hnone := hresult c hc m hm
  generalize m.result = result at value hnone
  subst hnone
  exact Nat.zero_le _

theorem feedServer_wellTyped : feedServer.WellTyped := by
  intro c hc m hm
  simp only [feedServer, List.mem_cons, List.not_mem_nil, or_false] at hc
  rcases hc with rfl | rfl
  · cases List.mem_singleton.mp hm
    exact ⟨by rintro T ⟨⟩, by rintro T ⟨⟩⟩
  · rcases List.mem_cons.mp hm with rfl | hm
    · refine ⟨?_, by rintro T ⟨⟩⟩
      rintro T ⟨⟩
      exact item_wellFormed
    · cases List.mem_singleton.mp hm
      exact ⟨by rintro T ⟨⟩, by rintro T ⟨⟩⟩

theorem feedServer_described : feedServer.Described where
  names := by decide
  fits c hc := by
    simp only [feedServer, List.mem_cons, List.not_mem_nil, or_false] at hc
    rcases hc with rfl | rfl
    · exact ⟨by decide, by decide, by rintro type ⟨⟩⟩
    · exact ⟨by decide, by decide, by rintro type ⟨⟩⟩

/-- A caller subscribes, and another one puts an item before it is told so. -/
def conversation : List (RemoteAction feedServer Unit) :=
  [.request operations[2], .request operations[1],
    .serve, .deliver, .serve, .deliver, .work fun _ => ([tick], ()), .deliver]

theorem conversation_disciplined :
    Along (Remote.step .leb128 (fun _ _ => .empty) speaking) (Remote.Disciplined (ρ := Unit))
      (.start [] ()) conversation := by
  have hitem : item.depth smallItem ≤ MaxNesting := by decide
  refine ⟨Nat.zero_le _, fun _ _ => ⟨hitem, fun _ _ => ?_⟩⟩
  exact ⟨trivial, fun _ _ => ⟨trivial, fun _ _ => ⟨trivial, fun _ _ =>
    ⟨trivial, fun _ _ => ⟨trivial, fun _ _ => ⟨trivial, fun _ _ => trivial⟩⟩⟩⟩⟩⟩

theorem conversation_permitted :
    Along speaking.step (speaking.Permits (ρ := Unit)) (.start ())
      (image (Remote.step .leb128 (fun _ _ => .empty) speaking) (Remote.amounts (ρ := Unit))
        (.start [] ()) conversation) := by
  refine ⟨?_, ?_⟩
  · intro before eventId decoder val after heq
    change [Client.Processed.event 3 .void (), .reply .void ()] = _ at heq
    rcases before with _ | ⟨told, _ | ⟨told', before⟩⟩
    · cases heq
      exact .inl ⟨_, rfl, rfl⟩
    · cases heq
    · have hlength := congrArg List.length heq
      simp at hlength
  · rintro l₁ ⟨⟩
    refine ⟨?_, ?_⟩
    · intro before eventId decoder val after heq
      change [Client.Processed.reply .void ()] = _ at heq
      rcases before with _ | ⟨told, before⟩
      · cases heq
      · have hlength := congrArg List.length heq
        simp at hlength
    · rintro l₂ ⟨⟩
      refine ⟨?_, fun l₃ _ => trivial⟩
      intro event hevent
      cases List.mem_singleton.mp hevent
      exact ⟨_, rfl, rfl⟩

end Sample

theorem remote_calls_linearizable_conversation :
    ∃ (r : Remote Sample.feedServer Unit Unit) (l : Local Sample.feedServer Unit Unit),
      run (Remote.step .leb128 (fun _ _ => .empty) Sample.speaking) (.start [] ())
        Sample.conversation = some r ∧
      r.inbox.processed = [.event 3 .void (), .reply .void (), .reply .void ()] ∧
      run Sample.speaking.step (.start ())
        (image (Remote.step .leb128 (fun _ _ => .empty) Sample.speaking) Remote.amounts
          (Remote.start (ρ := Unit) [] ()) Sample.conversation) = some l ∧
      begun Sample.conversation = l.executed ∧ r.inbox.processed <+: l.told := by
  have hrun : ∃ r : Remote Sample.feedServer Unit Unit,
      run (Remote.step .leb128 (fun _ _ => .empty) Sample.speaking) (.start [] ())
        Sample.conversation = some r ∧
      r.inbox.processed = [.event 3 .void (), .reply .void (), .reply .void ()] ∧
      r.requests = [] := ⟨_, rfl, rfl, rfl⟩
  obtain ⟨r, hrun, hprocessed, hrequests⟩ := hrun
  obtain ⟨l, hlocal, -, -, htold, hbegun, -⟩ := remote_calls_linearizable Varint.leb128_lawful
    Varint.leb128_local (fun _ _ => .empty) Sample.feedServer_wellTyped
    Sample.feedServer_described Sample.speaking_fit hrun Sample.conversation_disciplined
    Sample.conversation_permitted
  exact ⟨r, l, hrun, hprocessed, hlocal, hbegun hrequests, htold⟩

end SerialRpc
