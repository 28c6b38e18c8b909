import SerialRpc.Client.Callbacks
import SerialRpc.Service.Sessions

/-!
# Event ids (server_impl.cc:277-303, protoc_serialrpc_plugin.cc:2554-2622, 3018-3020)

An event names its method by the endpoint id. The server takes it from the base of the service,
where the dispatch function has kept the id of the request that subscribed. The client looks for
it among the ids that its stubs have registered their callbacks under.

- `Services.startEvent`: how `send_$method$` starts an event. `Server.EventsUnder`: the events
  of a method start with an id.
- `Stub.RegistersUnder`: a stub registers its callback of a method under an id.
- `serve_remembers`: in every state of a server, what the bases keep of the methods that were
  subscribed to are ids by which these are dispatched.
- `endpoints_agree`: the ids of all parties are the same, those of calls and those of events.
-/

namespace SerialRpc

open ByteStream Transition

/-! ## The id that a base keeps -/

section Definitions

variable {σ : Type}

/-- What `send_$method$` of a service's base begins with: `start_event` with `$method$_id`, which
is an `int` there (protoc_serialrpc_plugin.cc:2609-2622). -/
def Services.startEvent (V : Varint) (services : Services σ) (i : Nat) (method : Str)
    (out : Writer Err) : Writer Err :=
  SerialRpc.startEvent V (services.methodId i method).toUInt32 out

/-- The services that `serve` works for. -/
def Serve.services : Serve σ → Services σ
  | .waiting _ services => services
  | .serving s => s.services

/-- Of every method that was subscribed to, the base keeps an id by which it is dispatched. -/
def Services.Remembers (server : Server) (services : Services σ) : Prop :=
  ∀ i method, .subscribe i method ∈ services.calls →
    ∃ rpcId, server.Subscribes rpcId i method ∧ services.methodId i method = rpcId.toInt32

end Definitions

section Remembers

variable {σ : Type} {server : Server} {services services' : Services σ}

/-- A subscription keeps the id of its request. -/
theorem Services.subscribe_methodId (services : Services σ) (conn : Nat) (rpcId : UInt32) (i : Nat)
    (method : Str) :
    (services.subscribe conn rpcId i method).methodId i method = rpcId.toInt32 := by
  show Function.update services.methodId i _ i method = _
  rw [Function.update_self, Function.update_self]

/-- And no other id. -/
theorem Services.subscribe_methodId_of_ne (services : Services σ) (conn : Nat) (rpcId : UInt32)
    {i j : Nat} {method name : Str} (h : ¬ (j = i ∧ name = method)) :
    (services.subscribe conn rpcId i method).methodId j name = services.methodId j name := by
  show Function.update services.methodId i _ j name = _
  by_cases hj : j = i
  · subst hj
    rw [Function.update_self, Function.update_of_ne fun hname => h ⟨rfl, hname⟩]
  · rw [Function.update_of_ne hj]

/-- Where subscriptions are only taken back, what is kept stays. -/
theorem Services.Remembers.releases (h : services.Remembers server)
    (hreleases : services.Releases services') : services'.Remembers server := by
  obtain ⟨more, hmore, hnone⟩ := hreleases.calls
  intro i method hmem
  rw [hmore, List.mem_append] at hmem
  rw [hreleases.methodId]
  exact h i method (hmem.resolve_right (hnone i method))

/-- A request that subscribes leaves its own id, and none changes another method's. -/
theorem Services.Remembers.called {conn : Nat} (h : services.Remembers server)
    (hcalled : services.Called server conn services') : services'.Remembers server := by
  cases hcalled with
  | none state => exact h
  | unsubscribe i method state => exact h.releases (services.unsubscribe_releases i method state)
  | subscribe rpcId i method state hsubscribes =>
    intro j name hmem
    by_cases hsame : j = i ∧ name = method
    · obtain ⟨rfl, rfl⟩ := hsame
      exact ⟨rpcId, hsubscribes, services.subscribe_methodId conn rpcId j name⟩
    · have hold : .subscribe j name ∈ services.calls := by
        refine (List.mem_append.mp hmem).resolve_right fun hlast => hsame ?_
        cases List.mem_singleton.mp hlast
        exact ⟨rfl, rfl⟩
      obtain ⟨id, hid, hkept⟩ := h j name hold
      exact ⟨id, hid, (services.subscribe_methodId_of_ne conn rpcId hsame).trans hkept⟩

end Remembers

/-! ## Every state of a server -/

section Serving

variable {V : Varint} {σ : Type} {overflow : (capacity : Nat) → Str → InlineString capacity}
  {server : Server} {impl : Implementation σ}

namespace Session

theorem handleGoodbye_releases (s : Session σ) :
    s.services.Releases (handleGoodbye V server impl s).services := by
  unfold handleGoodbye
  dsimp only
  split
  · rw [send_services]
    exact .refl _
  · have hstop : (s.send .serverGoodbye []).services.Releases
        (stopAccept V server impl (s.send .serverGoodbye [])).services :=
      (stopAccept_unsubscribed _).1
    rwa [send_services] at hstop

/-- A round calls the services for one request at most, and takes subscriptions back. -/
theorem acceptRound_called {s s' : Session σ} {again : Bool}
    (h : s.acceptRound V overflow server impl = .ok (again, s')) :
    ∃ services, s.services.Called server s.conn services ∧ services.Releases s'.services := by
  have hnone : s.services.Called server s.conn s.services := .none s.services.state
  unfold acceptRound at h
  dsimp only at h
  split at h
  · cases h
    exact ⟨s.services, hnone,
      (stopAccept_unsubscribed { s with inp := (s.inp.read V.readUint32 .baselib).2 }).1⟩
  · split at h
    · cases h
      exact ⟨s.services, hnone,
        handleGoodbye_releases { s with inp := (s.inp.read V.readUint32 .baselib).2 }⟩
    · obtain ⟨t, hdispatch, h⟩ := bind_eq_ok h
      have hcalled : s.services.Called server s.conn t.services :=
        dispatch_called (s := { s with inp := (s.inp.read V.readUint32 .baselib).2 }) hdispatch
      split at h
      · cases h
        exact ⟨t.services, hcalled, (stopAccept_unsubscribed t).1⟩
      · cases h
        exact ⟨_, hcalled, .refl _⟩

end Session

theorem Serve.next_services (p : Bool × Session σ) : (Serve.next p).services = p.2.services := by
  obtain ⟨again, s⟩ := p
  cases again with
  | false => rfl
  | true => rfl

/-- A step of `serve` keeps what the bases keep in step with the subscriptions. -/
theorem serve_remembers :
    Preserves (serveStep V overflow server impl) (fun _ _ => True)
      fun st => st.services.Remembers server := by
  rintro (⟨conn, services⟩ | s) (⟨bytes, faults⟩ | _) st' hremembers - hstep
  · obtain ⟨⟨again, s'⟩, haccept, rfl⟩ := toOption_map_eq_some hstep
    rw [Serve.next_services, Session.acceptHello_services haccept]
    exact hremembers
  · cases hstep
  · cases hstep
  · obtain ⟨⟨again, s'⟩, haccept, rfl⟩ := toOption_map_eq_some hstep
    obtain ⟨services, hcalled, hreleases⟩ := Session.acceptRound_called haccept
    rw [Serve.next_services]
    exact (hremembers.called hcalled).releases hreleases

/-- A request that is dispatched to a streaming method, and asks for its events, leaves its id
in the base. -/
theorem Session.dispatch_methodId {rpcId : UInt32} {i : Nat} {m : EchoMethod}
    (htarget : server.handleRequest rpcId = some (i, m)) (hne : i ≠ 0)
    (hstreaming : m.serverStreaming = true) {s : Session σ}
    (hflag : (s.inp.read Read.byte .baselib).2.err = none)
    (henabled : (s.inp.read Read.byte .baselib).1 ≠ 0)
    (hmsg : (readRequest V m.parameter (s.inp.read Read.byte .baselib).2).2.err = none) :
    ∃ s', s.dispatch V overflow server impl rpcId = .ok s' ∧
      s'.services.methodId i m.name = rpcId.toInt32 := by
  obtain ⟨i, rfl⟩ : ∃ j, i = j + 1 := ⟨i - 1, by omega⟩
  -- Neither the handler nor the `Reply` touches what was kept before them.
  have hkept := s.services.subscribe_methodId s.conn rpcId (i + 1) m.name
  unfold Session.dispatch
  rw [htarget]
  refine ⟨_, if_pos hstreaming, ?_⟩
  unfold Session.dispatchStreaming
  simp only [hflag, henabled, hmsg, Option.isSome_none, Bool.false_eq_true, if_false, ne_eq,
    not_false_eq_true, if_true]
  split
  · rw [run_services]
    exact hkept
  · rw [send_services, run_services]
    exact hkept

end Serving

/-- The events of a method start with an id: in the base of its service a subscription that is
dispatched leaves what it takes, and so has every subscription in the runs of a server. The
first service is the one of the discovery, which has no generated base. -/
structure Server.EventsUnder (V : Varint)
    (overflow : (capacity : Nat) → Str → InlineString capacity) (server : Server) (i : Nat)
    (m : EchoMethod) (id : UInt32) : Prop where
  dispatched : ∀ {σ : Type} (impl : Implementation σ) (s : Session σ), i ≠ 0 →
    (s.inp.read Read.byte .baselib).2.err = none → (s.inp.read Read.byte .baselib).1 ≠ 0 →
    (readRequest V m.parameter (s.inp.read Read.byte .baselib).2).2.err = none →
    ∃ s', s.dispatch V overflow server impl (id - 1) = .ok s' ∧
      s'.services.startEvent V i m.name {} =
        { written := ServerMessageType.event.toUInt8 :: V.writeUint32 id }
  subscribed : ∀ {σ : Type} (impl : Implementation σ) (state : σ) (turns : List Turn)
    (st : Serve σ), run (serveStep V overflow server impl) (.fresh state) turns = some st →
    .subscribe i m.name ∈ st.services.calls →
    st.services.startEvent V i m.name {} =
      { written := ServerMessageType.event.toUInt8 :: V.writeUint32 id }

/-- The id that a base starts an event with is one up from the one it keeps. -/
theorem Services.startEvent_eq (V : Varint) {σ : Type} {services : Services σ} {i : Nat}
    {method : Str} {id : UInt32} (h : services.methodId i method = (id - 1).toInt32) :
    services.startEvent V i method {} =
      { written := ServerMessageType.event.toUInt8 :: V.writeUint32 id } := by
  rw [Services.startEvent, h, UInt32.toUInt32_toInt32, SerialRpc.startEvent, UInt32.sub_add_cancel]
  rfl

/-- The events of a streaming method start with the id, one up, by which it is dispatched. -/
theorem Server.eventsUnder {V : Varint} (overflow : (capacity : Nat) → Str → InlineString capacity)
    {server : Server} {i : Nat} {m : EchoMethod} {id : UInt32}
    (htarget : server.handleRequest (id - 1) = some (i, m))
    (hstreaming : m.serverStreaming = true) :
    server.EventsUnder V overflow i m id where
  dispatched impl s hne hflag henabled hmsg := by
    obtain ⟨s', hdispatch, hid⟩ : ∃ s', s.dispatch V overflow server impl (id - 1) = .ok s' ∧
        s'.services.methodId i m.name = (id - 1).toInt32 :=
      Session.dispatch_methodId htarget hne hstreaming hflag henabled hmsg
    exact ⟨s', hdispatch, Services.startEvent_eq V hid⟩
  subscribed impl state turns st hrun hmem := by
    have hfresh : (Serve.fresh state).services.Remembers server := fun _ _ h => nomatch h
    have hremembers := (serve_remembers.always hfresh (.of_forall (fun _ _ => trivial) _ _)).last
      hrun
    obtain ⟨rpcId, ⟨-, m', htarget', -, hname⟩, hid⟩ := hremembers i m.name hmem
    -- The method has one name and one id.
    obtain ⟨hi, hm, hrank⟩ := server.handleRequest_eq_rank htarget
    obtain ⟨_, hm', hrank'⟩ := server.handleRequest_eq_rank htarget'
    obtain rfl := server.services[i].service.eq_of_name_eq hm' hm hname
    exact Services.startEvent_eq V (hrank ▸ hrank' ▸ hid)

/-! ## The id that a stub registers -/

/-- The stub registers its callback of a method under an id, whatever becomes of the request
for its events. -/
def Stub.RegistersUnder (stub : Stub) (c : ServiceClass) (name : Str) (id : UInt32) : Prop :=
  ∀ {κ : Type} (client : Callbacks.State κ) (cb : Option κ) (hasRequest : Bool)
    (fate : Callbacks.Fate),
    (client.subscribe stub.rpcOffset.toUInt32 (UInt32.ofNat (c.stubId name)) cb hasRequest
        fate).1.eventCallbacks =
      Function.update client.eventCallbacks id (some (UInt32.ofNat (c.stubId name)))

/-- It is the id that the stub sends. -/
theorem Stub.registersUnder (stub : Stub) (c : ServiceClass) (name : Str) :
    stub.RegistersUnder c name (stub.endpoint c name) := by
  intro κ client cb hasRequest fate
  rw [Callbacks.State.subscribe, Callbacks.State.request_eventCallbacks, Stub.endpoint,
    Int32.toUInt32_add, Int32.toUInt32_ofNat']
  rfl

/-! ## Agreement -/

/-- The endpoint ids agree. A server of services with distinct UUIDs and full names
writes a hello and a discovery reply. From any client that reads the hello without an
error, the first stub for a service, generated from a file that declares the methods of
the service in some order, sends for a method the id that the command-line client
computes from the reply, and the server dispatches the id minus one to that method. If the
method is streaming, the stub registers its callback under the id, and the method's events
start with it. -/
theorem endpoints_agree {V : Varint} (hV : V.Lawful)
    (overflow : (capacity : Nat) → Str → InlineString capacity) {server : Server}
    (hserver : server.Described)
    (huuids : (server.services.map fun c => c.service.uuid).Nodup) (full : Bool) :
    ∃ hello reply : List UInt8,
      serverHello V server.descriptions {} =
        .ok { written := ServerMessageType.serverHello.toUInt8 :: hello } ∧
      listServicesBody V overflow server.descriptions full {} = .ok { written := reply } ∧
      ∀ (stubs : List Stub) (rest rest' : List UInt8),
        (readServicesDef V stubs (.ofBytes (hello ++ rest))).2.err = none →
      ∀ (i : Nat) (hi : i < server.services.length) (c : ServiceClass) (stub : Stub),
        c.service.uuid = server.services[i].service.uuid →
        c.service.methods.Perm server.services[i].service.methods →
        firstStub c.service.uuid.bytes stubs = some stub →
      ∃ bound, firstStub c.service.uuid.bytes
          (readServicesDef V stubs (.ofBytes (hello ++ rest))).1 = some bound ∧
        ∀ m ∈ server.services[i].service.methods,
          cliEndpoint server.services[i].service.info.qualifiedName m.name 1
            (Protocol.responseServices
              (unmarshal V Protocol.listServicesResponse (.ofBytes (reply ++ rest'))).1) =
              some (bound.endpoint c m.name) ∧
          server.handleRequest (bound.endpoint c m.name - 1) = some (i, m) ∧
          (m.serverStreaming = true →
            bound.RegistersUnder c m.name (bound.endpoint c m.name) ∧
            server.EventsUnder V overflow i m (bound.endpoint c m.name)) := by
  have hopen : Writer.Open ({} : Writer Err) := ⟨rfl, rfl⟩
  have hhello := serverHello_open hV server.descriptions hopen
  obtain ⟨reply, hreply, hunmarshal⟩ :=
    unmarshal_listServicesBody hV overflow full hserver.fits_descriptions
  refine ⟨_, reply, hhello, hreply, ?_⟩
  intro stubs rest rest' hread i hi c stub huuid hperm hstub
  rw [huuid] at hstub ⊢
  refine ⟨_, server.hello_firstStub hV hread hi (Server.uuid_last huuids hi) hstub, ?_⟩
  intro m hm
  have hid := stub.endpoint_bind c (hperm.mem_iff.mpr hm) (server.offset i)
  rw [Rank.rank_perm hperm] at hid
  have htarget : server.handleRequest
      ((stub.bind (Int32.ofNat (1 + server.offset i))).endpoint c m.name - 1) = some (i, m) := by
    rw [hid, UInt32.ofNat_one_add_sub_one]
    exact server.handleRequest_rank hi hm
  refine ⟨?_, htarget, fun hstreaming => ⟨Stub.registersUnder _ c m.name,
    server.eventsUnder overflow htarget hstreaming⟩⟩
  rw [hunmarshal rest', hserver.responseServices_eq full, hid]
  exact Server.cliEndpoint_received hserver full hi hm

namespace Sample

/-- `Counter` 1.2, whose method 1 is streaming. -/
def counterStreaming : EchoService :=
  counterOf 2 [method [99] 3, { method [97] 1 with serverStreaming := true }, method [98] 2]
    (by decide) (by decide) (by decide) (by decide)

/-- `Counter` 1.2, declared in another order. -/
def streamingSwapped : EchoService :=
  counterOf 2 [{ method [97] 1 with serverStreaming := true }, method [98] 2, method [99] 3]
    (by decide) (by decide) (by decide) (by decide)

/-- A server of `Counter` 1.2, behind the discovery service. -/
def streamingServer : Server where
  services := [only discovery, only counterStreaming]
  endpoints_lt := by decide

theorem streamingServer_described : streamingServer.Described where
  names := by decide
  fits c hc := by
    simp only [streamingServer, List.mem_cons, List.not_mem_nil, or_false] at hc
    rcases hc with rfl | rfl
    · exact ⟨by decide, by decide, fun type htype => by cases htype⟩
    · exact ⟨by decide, by decide, fun type htype => by cases htype⟩

/-- A client with a stub of `Counter` 1.2, from a file in another order. -/
def streamingStub : Stub := { info := streamingSwapped.info }

theorem accepts_streamingStub : ∀ desc ∈ streamingServer.descriptions, ∀ stub ∈ [streamingStub],
    Accepts (toServiceDef desc.info) stub.info := by
  decide

end Sample

/-- Of a service with three methods, one of them streaming. -/
theorem endpoints_agree_counter :
    ∃ hello reply : List UInt8,
      serverHello Varint.leb128 Sample.streamingServer.descriptions {} =
        .ok { written := ServerMessageType.serverHello.toUInt8 :: hello } ∧
      listServicesBody Varint.leb128 (fun _ _ => .empty) Sample.streamingServer.descriptions true
        {} = .ok { written := reply } ∧
      ∃ bound, firstStub Sample.streamingSwapped.uuid.bytes
          (readServicesDef Varint.leb128 [Sample.streamingStub]
            (.ofBytes (hello ++ []))).1 = some bound ∧
        ∀ m ∈ Sample.counterStreaming.methods,
          cliEndpoint [67] m.name 1 (Protocol.responseServices
            (unmarshal Varint.leb128 Protocol.listServicesResponse (.ofBytes (reply ++ []))).1) =
              some (bound.endpoint (Sample.only Sample.streamingSwapped) m.name) ∧
          Sample.streamingServer.handleRequest
              (bound.endpoint (Sample.only Sample.streamingSwapped) m.name - 1) = some (1, m) ∧
          (m.serverStreaming = true →
            bound.RegistersUnder (Sample.only Sample.streamingSwapped) m.name
              (bound.endpoint (Sample.only Sample.streamingSwapped) m.name) ∧
            Sample.streamingServer.EventsUnder Varint.leb128 (fun _ _ => .empty) 1 m
              (bound.endpoint (Sample.only Sample.streamingSwapped) m.name)) := by
  obtain ⟨hello, reply, hhello, hreply, hall⟩ := endpoints_agree Varint.leb128_lawful
    (fun _ _ => .empty) Sample.streamingServer_described (by decide) true
  have hread := Sample.streamingServer.hello_accepts Varint.leb128_lawful hhello []
    Sample.accepts_streamingStub
  have hperm : Sample.streamingSwapped.methods.Perm Sample.counterStreaming.methods :=
    (List.perm_append_comm : ([_, _] ++ [_]).Perm _)
  exact ⟨hello, reply, hhello, hreply, hall _ [] [] hread 1 (by decide)
    (Sample.only Sample.streamingSwapped) _ rfl hperm rfl⟩

end SerialRpc
