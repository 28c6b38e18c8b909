import SerialRpc.Lib.Cut
import SerialRpc.Session.Remote

/-!
# Connections that are lost (server_impl.cc:351-373, 394-398, client.cc:324-405)

A connection can be lost at any byte, in the middle of a request and in the middle of an
answer. The server's loop returns from the read that fails, and unsubscribes everything; the
client's worker fails. Each end has then dealt with the messages that have arrived as a
whole and with no other one, but for the caller whose answer was cut off.

- `Server.unsubscribed`: what `stop_accept` does, from anywhere.
- `Operation.acceptRound_cut`: the round that finds less than a request.
- `requests_cut`: a stream of requests that is cut is served like the requests that are whole
  and a goodbye, up to the answer to it.
- `connection_lost`: a session that loses its connection, wherever it is.
-/

namespace SerialRpc

open ByteStream Transition

/-! ## The end of `accept` -/

section Unsubscribed

variable {V : Varint} {σ : Type}

/-- What the services say when all is unsubscribed, and what becomes of them. -/
def Server.unsubscribed (V : Varint) (server : Server) (impl : Implementation σ) (service : σ) :
    List ServerMessage × σ :=
  let conn := server.stopAccept V impl ⟨.ofBytes [], [], service⟩
  (conn.sent, conn.service)

/-- What a handler says does not depend on what was sent before. -/
theorem Conn.foldl_act_eq (actions : List HandlerAction) :
    ∃ said, ∀ conn : Conn σ,
      actions.foldl (Conn.act V) conn = { conn with sent := conn.sent ++ said } := by
  induction actions with
  | nil => exact ⟨[], fun conn => by simp⟩
  | cons action actions ih =>
    obtain ⟨said, hsaid⟩ := ih
    have hact : ∃ msg, ∀ conn : Conn σ,
        conn.act V action = { conn with sent := conn.sent ++ [msg] } := by
      cases action with
      | sendEvent eventId body => exact ⟨_, fun conn => rfl⟩
      | reportError text => exact ⟨_, fun conn => rfl⟩
    obtain ⟨msg, hmsg⟩ := hact
    refine ⟨msg :: said, fun conn => ?_⟩
    rw [List.foldl_cons, hmsg, hsaid, List.append_assoc]
    rfl

/-- `stop_accept` looks at the services only. -/
theorem Server.stopAccept_eq (server : Server) (impl : Implementation σ) (conn : Conn σ) :
    server.stopAccept V impl conn =
      { conn with
        sent := conn.sent ++ (server.unsubscribed V impl conn.service).1
        service := (server.unsubscribed V impl conn.service).2 } := by
  have hall : ∀ service : σ, ∃ said service', ∀ inp sent,
      server.stopAccept V impl ⟨inp, sent, service⟩ = ⟨inp, sent ++ said, service'⟩ := by
    unfold Server.stopAccept
    generalize server.services.zipIdx.tail.flatMap _ = methods
    induction methods with
    | nil => exact fun service => ⟨[], service, fun inp sent => by simp⟩
    | cons entry methods ih =>
      intro service
      obtain ⟨said, hsaid⟩ := Conn.foldl_act_eq (V := V) (σ := σ)
        (((impl.handler entry.1 entry.2).unsubscribe service).1.actions.filter
          fun action => !action.isError)
      obtain ⟨said', service', hrest⟩ :=
        ih ((impl.handler entry.1 entry.2).unsubscribe service).2
      refine ⟨said ++ said', service', fun inp sent => ?_⟩
      rw [List.foldl_cons, ← List.append_assoc, ← hrest]
      simp only [Conn.runIgnoring, hsaid]
  obtain ⟨inp, sent, service⟩ := conn
  obtain ⟨said, service', heq⟩ := hall service
  simp [Server.unsubscribed, heq]

theorem Conn.run_eq {α : Type} (result : Behaviour α × σ) :
    ∃ said, ∀ conn : Conn σ, conn.run V result =
      { conn with sent := conn.sent ++ said, service := result.2 } := by
  obtain ⟨said, hsaid⟩ := Conn.foldl_act_eq (V := V) (σ := σ) result.1.actions
  exact ⟨said, fun conn => by rw [Conn.run, hsaid]⟩

/-- Behind the request, what is done with it looks at the services only. -/
theorem EchoMethod.answer_eq {m : EchoMethod} (handler : Handler σ m)
    (request : Request m.parameter) (service : σ) :
    ∃ result : Except Panic (List ServerMessage × σ), ∀ inp sent,
      EchoMethod.answer V handler ⟨inp, sent, service⟩ request =
        result.map fun r => ⟨inp, sent ++ r.1, r.2⟩ := by
  have hreply : ∀ {α : Type} (resp : Behaviour α × σ), ∃ r : List ServerMessage × σ, ∀ inp sent,
      (if resp.1.failed then Conn.run V ⟨inp, sent, service⟩ resp
        else (Conn.run V ⟨inp, sent, service⟩ resp).send .reply []) =
          ⟨inp, sent ++ r.1, r.2⟩ := by
    intro α resp
    obtain ⟨said, hsaid⟩ := Conn.run_eq (V := V) resp
    by_cases hfailed : resp.1.failed
    · exact ⟨(said, resp.2), fun inp sent => by rw [if_pos hfailed, hsaid]⟩
    · refine ⟨(said ++ [⟨.reply, []⟩], resp.2), fun inp sent => ?_⟩
      rw [if_neg hfailed, hsaid, Conn.send, List.append_assoc]
  cases request with
  | subscribe msg =>
    obtain ⟨r, hr⟩ := hreply (handler.call msg service)
    exact ⟨.ok r, fun inp sent => congrArg Except.ok (hr inp sent)⟩
  | unsubscribe =>
    obtain ⟨r, hr⟩ := hreply (handler.unsubscribe service)
    exact ⟨.ok r, fun inp sent => congrArg Except.ok (hr inp sent)⟩
  | call msg =>
    obtain ⟨said, hsaid⟩ := Conn.run_eq (V := V) (handler.call msg service)
    by_cases hfailed : (handler.call msg service).1.failed
    · refine ⟨.ok (said, (handler.call msg service).2), fun inp sent => ?_⟩
      simp only [EchoMethod.answer, if_pos hfailed, hsaid]
      rfl
    · have hsend : ∀ (result : Option MessageType) (value : Payload result),
          ∃ r : Except Panic (List ServerMessage × σ), ∀ inp sent,
            sendReply V result value ⟨inp, sent ++ said, (handler.call msg service).2⟩ =
              r.map fun r => ⟨inp, sent ++ r.1, r.2⟩ := by
        rintro (_ | T) value
        · refine ⟨.ok (said ++ [⟨.reply, []⟩], (handler.call msg service).2), fun inp sent => ?_⟩
          simp [sendReply, Conn.send, Except.map, pure, Except.pure]
        · cases hmarshal : marshal V T value {} with
          | error e =>
            refine ⟨.error e, fun inp sent => ?_⟩
            simp only [sendReply, hmarshal]
            rfl
          | ok out =>
            refine ⟨.ok (said ++ [⟨.reply, out.written⟩], (handler.call msg service).2),
              fun inp sent => ?_⟩
            simp [sendReply, hmarshal, Conn.send, bind, Except.bind, Except.map, pure, Except.pure]
      obtain ⟨r, hr⟩ := hsend m.result (handler.call msg service).1.value
      refine ⟨r, fun inp sent => ?_⟩
      simp only [EchoMethod.answer, if_neg hfailed, hsaid]
      exact hr inp sent

theorem Server.answer_eq (overflow : (capacity : Nat) → Str → InlineString capacity)
    (server : Server) (impl : Implementation σ) (endpoint : Endpoint)
    (request : Request (Endpoint.requestType endpoint)) (service : σ) :
    ∃ result : Except Panic (List ServerMessage × σ), ∀ inp sent,
      server.answer V overflow impl endpoint ⟨inp, sent, service⟩ request =
        result.map fun r => ⟨inp, sent ++ r.1, r.2⟩ := by
  obtain ⟨i, m⟩ := endpoint
  cases i with
  | succ i => exact EchoMethod.answer_eq (impl.handler (i + 1) m) request service
  | zero =>
    cases request with
    | subscribe msg => exact ⟨.ok ([], service), fun inp sent => by
        simp [Server.answer, answerListServices, Except.map, pure, Except.pure]⟩
    | unsubscribe => exact ⟨.ok ([], service), fun inp sent => by
        simp [Server.answer, answerListServices, Except.map, pure, Except.pure]⟩
    | call request =>
      cases hbody : listServicesBody V overflow server.descriptions request.1 {} with
      | error e =>
        refine ⟨.error e, fun inp sent => ?_⟩
        simp only [Server.answer, answerListServices, hbody]
        rfl
      | ok out =>
        refine ⟨.ok ([⟨.reply, out.written⟩], service), fun inp sent => ?_⟩
        simp only [Server.answer, answerListServices, hbody]
        rfl

end Unsubscribed

/-! ## Less than a request -/

section Requests

variable {V : Varint}

/-- What a dispatch function reads, but for the flag. -/
def Request.readBehind (V : Varint) {parameter : Option MessageType}
    (request : Payload parameter → Request parameter) (inp : In) :
    Option (Request parameter) × In :=
  let msg := readRequest V parameter inp
  if msg.2.err.isSome then (none, msg.2) else (some (request msg.1), msg.2)

/-- What a dispatch function makes of the flag. -/
def Request.readEnabled (V : Varint) {parameter : Option MessageType} (enabled : UInt8)
    (inp : In) : Option (Request parameter) × In :=
  if enabled ≠ 0 then Request.readBehind V .subscribe inp else (some .unsubscribe, inp)

section Read

variable {parameter : Option MessageType}

/-- A streaming request has its flag in front. -/
theorem Request.read_streaming (inp : In) :
    Request.read V true parameter inp =
      if (inp.read Read.byte Err.baselib).2.err.isSome then
        (none, (inp.read Read.byte Err.baselib).2)
      else Request.readEnabled V (inp.read Read.byte Err.baselib).1
        (inp.read Read.byte Err.baselib).2 :=
  rfl

theorem Request.readBehind_local (hlocal : V.Local)
    (request : Payload parameter → Request parameter) :
    Reader.Local (Request.readBehind V request) := by
  have hbody : Reader.Local (readRequest V parameter) := by
    cases parameter with
    | none => exact .pure ()
    | some T => exact unmarshal_local hlocal T
  exact Reader.Local.bind
    (g := fun msg inp => if inp.err.isSome then (none, inp) else (some (request msg), inp))
    hbody (fun msg => .checked _ (.pure _)) fun msg => .checked _ _

theorem Request.read_local (hlocal : V.Local) (streaming : Bool) :
    Reader.Local (Request.read V streaming parameter) := by
  cases streaming with
  | false => exact Request.readBehind_local hlocal .call
  | true =>
    refine Reader.Local.bind (f := fun inp => inp.read Read.byte Err.baselib)
      (g := fun enabled inp =>
        if inp.err.isSome then (none, inp) else Request.readEnabled V enabled inp)
      (.read Read.byte_local _) (fun enabled => .checked _ ?_) fun enabled => .checked _ _
    unfold Request.readEnabled
    by_cases henabled : enabled ≠ 0
    · simp only [if_pos henabled]
      exact Request.readBehind_local hlocal .subscribe
    · simp only [if_neg henabled]
      exact .pure _

/-- Where a body cannot be read, there is no request. -/
theorem Request.readBehind_err {request : Payload parameter → Request parameter} {inp : In}
    (h : (Request.readBehind V request inp).2.err ≠ none) :
    (Request.readBehind V request inp).1 = none := by
  unfold Request.readBehind at h ⊢
  dsimp only at h ⊢
  split
  · rfl
  · rename_i hnone
    rw [if_neg hnone] at h
    exact absurd (Option.not_isSome_iff_eq_none.mp hnone) h

/-- A dispatch function that has met an error has no request. -/
theorem Request.read_err {streaming : Bool} {inp : In}
    (h : (Request.read V streaming parameter inp).2.err ≠ none) :
    (Request.read V streaming parameter inp).1 = none := by
  cases streaming with
  | false => exact Request.readBehind_err h
  | true =>
    rw [Request.read_streaming] at h ⊢
    split
    · rfl
    · rename_i hflag
      rw [if_neg hflag] at h
      unfold Request.readEnabled at h ⊢
      split
      · rename_i henabled
        rw [if_pos henabled] at h
        exact Request.readBehind_err h
      · rename_i henabled
        rw [if_neg henabled] at h
        exact absurd (Option.not_isSome_iff_eq_none.mp hflag) h

end Read

/-! ## The last round -/

variable {σ : Type} {overflow : (capacity : Nat) → Str → InlineString capacity} {server : Server}
  {impl : Implementation σ}

/-- A round of `accept` that hands nothing on, fails, and unsubscribes everything. -/
def Server.GivesUp (V : Varint) (overflow : (capacity : Nat) → Str → InlineString capacity)
    (server : Server) (impl : Implementation σ) (s : Serving σ) (inp : In) : Prop :=
  (∃ inp' requests, inp'.err ≠ none ∧ server.acceptRound V overflow impl s inp =
    ⟨false, { s with
      sent := s.sent ++ (server.unsubscribed V impl s.service).1
      service := (server.unsubscribed V impl s.service).2
      requests := requests }, inp'⟩) ∧
  ∀ handled ∈ server.handled V inp, ∃ rpcId endpoint, handled = .request rpcId endpoint none

/-- The server gives up where it cannot read an id. -/
theorem Server.givesUp_of_id {s : Serving σ} {inp : In}
    (h : (inp.read V.readUint32 Err.baselib).2.err ≠ none) :
    server.GivesUp V overflow impl s inp := by
  have hsome := Option.isSome_iff_ne_none.mpr h
  refine ⟨⟨(inp.read V.readUint32 Err.baselib).2, s.requests, h, ?_⟩, ?_⟩
  · simp only [Server.acceptRound, hsome, if_true, Server.stopAccept_eq]
  · simp [Server.handled, hsome]

/-- Less than a request is an id that cannot be read, or a body that cannot. -/
theorem Operation.givesUp (hV : V.Lawful) (hlocal : V.Local) {op : Operation server}
    {msg : Request (Endpoint.requestType op.endpoint)} (harrives : op.request.Arrives V msg)
    {part lost : List UInt8} (hcut : op.bytes V = part ++ lost) (hlost : lost ≠ [])
    (s : Serving σ) : server.GivesUp V overflow impl s (.ofBytes part) := by
  rcases cut_append hcut with ⟨part', rfl, hbytes⟩ | ⟨lost', hid, hlost'⟩
  · have hid : (Reader.ofBytes (V.writeUint32 op.rpcId ++ part')).read V.readUint32 Err.baselib =
        (op.rpcId, .ofBytes part') := Reader.read_ofBytes (hV.uint32 op.rpcId) Err.baselib _
    have htakes := Request.read_takes hV hlocal harrives
    rw [hbytes, op.shape] at htakes
    have herr : (Endpoint.readBody V op.endpoint (.ofBytes part')).2.err ≠ none :=
      (Request.read_local hlocal (Endpoint.streaming op.endpoint)).fails htakes hlost
    have hnone : (Endpoint.readBody V op.endpoint (.ofBytes part')).1 = none :=
      Request.read_err herr
    refine ⟨⟨(Endpoint.readBody V op.endpoint (.ofBytes part')).2, s.requests + 1, herr, ?_⟩, ?_⟩
    · have haccept : server.acceptRequest V overflow impl (op.rpcId - 1)
          ⟨.ofBytes part', s.sent, s.service⟩ = .ok (server.stopAccept V impl
            ⟨(Endpoint.readBody V op.endpoint (.ofBytes part')).2, s.sent, s.service⟩) := by
        rw [Server.acceptRequest, Server.dispatch_eq, op.served]
        simp only [Conn.serve, hnone, bind, Except.bind, pure, Except.pure,
          Option.isSome_iff_ne_none.mpr herr, if_true]
      simp only [Server.acceptRound, hid, Reader.err_ofBytes, Option.isSome_none,
        Bool.false_eq_true, if_false, op.rpcId_ne_zero, haccept, Server.stopAccept_eq]
      rw [Option.isNone_eq_false_iff.mpr (Option.isSome_iff_ne_none.mpr herr)]
    · have hhandled : server.handled V (.ofBytes (V.writeUint32 op.rpcId ++ part')) =
          [.request (op.rpcId - 1) op.endpoint none] := by
        simp [Server.handled, hid, op.rpcId_ne_zero, op.served, hnone]
      rw [hhandled]
      exact List.forall_mem_singleton.mpr ⟨_, _, rfl⟩
  · -- The id itself is cut.
    have htakes := Reader.Takes.read (hV.uint32 op.rpcId) Err.baselib
    rw [hid] at htakes
    exact Server.givesUp_of_id ((Reader.Local.read hlocal.uint32 _).fails htakes hlost')

/-- The rest of a stream of requests that is cut is less than a request. -/
theorem Server.givesUp_of_cut (hV : V.Lawful) (hlocal : V.Local)
    {whole missing : List (Operation server)}
    {part stream : List UInt8} (h : Cut (Operation.bytes V) whole missing part stream)
    (harrive : ∀ op ∈ missing, ∃ msg, op.request.Arrives V msg) (s : Serving σ) :
    server.GivesUp V overflow impl s (.ofBytes part) := by
  rcases h.part_eq with ⟨-, rfl⟩ | ⟨op, rest, lost, rfl, hbytes, hlost⟩
  · refine Server.givesUp_of_id fun hnone => ?_
    exact absurd (readUint32_shortens hnone) (Nat.not_lt_zero _)
  · obtain ⟨msg, hmsg⟩ := harrive op (.head _)
    exact op.givesUp hV hlocal hmsg hbytes hlost s

/-! ## Streams of requests -/

/-- What a round of `accept` does with a request depends on the services only. -/
theorem Operation.acceptRound_takes (hV : V.Lawful) (hlocal : V.Local)
    (overflow : (capacity : Nat) → Str → InlineString capacity) (hfits : impl.ResponsesFit server)
    (op : Operation server) {msg : Request (Endpoint.requestType op.endpoint)}
    (harrives : op.request.Arrives V msg) (service : σ) :
    ∃ said service', ∀ s : Serving σ, s.service = service →
      Reader.Takes (Reader.round (server.acceptRound V overflow impl) s) (op.bytes V)
        (true, { s with
          sent := s.sent ++ said
          service := service'
          requests := s.requests + 1 }) := by
  have hshape : msg.streaming = Endpoint.streaming op.endpoint :=
    harrives.streaming_eq.trans op.shape
  obtain ⟨result, hresult⟩ := server.answer_eq (V := V) overflow impl op.endpoint msg service
  obtain ⟨conn, hanswer, -⟩ := Server.answer_ok hV overflow hfits op.served hshape
    ⟨.ofBytes [], [], service⟩
  rw [hresult] at hanswer
  cases result with
  | error e => cases hanswer
  | ok r =>
    refine ⟨r.1, r.2, ?_⟩
    rintro s rfl rest
    have haccept : server.acceptRequest V overflow impl (op.rpcId - 1)
        ⟨.ofBytes (op.request.bytes V ++ rest), s.sent, s.service⟩ =
          .ok ⟨.ofBytes rest, s.sent ++ r.1, r.2⟩ := by
      rw [Server.acceptRequest, Server.dispatch_eq, op.served]
      simp only [op.readBody_bytes hV hlocal harrives, Conn.serve, hresult]
      rfl
    simp only [Reader.round, Server.acceptRound, op.read_id hV, Reader.err_ofBytes,
      Option.isSome_none, Bool.false_eq_true, if_false, op.rpcId_ne_zero, haccept,
      Option.isNone_none]

/-- The goodbye is answered in kind, and then everything is unsubscribed. -/
theorem Server.accept_goodbye (hV : V.Lawful)
    (overflow : (capacity : Nat) → Str → InlineString capacity) (server : Server)
    (impl : Implementation σ) (s : Serving σ) (rest : List UInt8) :
    server.accept V overflow impl s (.ofBytes (0 :: rest)) =
      ({ s with
        sent := s.sent ++ [⟨.serverGoodbye, []⟩] ++ (server.unsubscribed V impl s.service).1
        service := (server.unsubscribed V impl s.service).2 }, .ofBytes rest) := by
  have hread : (Reader.ofBytes (0 :: rest)).read V.readUint32 Err.baselib =
      (0, .ofBytes rest) :=
    Reader.read_ofBytes (hV.byte (b := 0) (by decide)) Err.baselib rest
  have hround : server.acceptRound V overflow impl s (.ofBytes (0 :: rest)) =
      ⟨false, { s with
        sent := s.sent ++ [⟨.serverGoodbye, []⟩] ++ (server.unsubscribed V impl s.service).1
        service := (server.unsubscribed V impl s.service).2 }, .ofBytes rest⟩ := by
    simp only [Server.acceptRound, hread, Reader.err_ofBytes, Option.isSome_none,
      Bool.false_eq_true, if_false, if_true, Server.stopAccept_eq]
    rfl
  rw [Server.accept, Reader.loop_stops Server.acceptRound_productive (by rw [hround]), hround]

/-- A loop that gives up is left. -/
theorem Server.GivesUp.accept {s : Serving σ} {inp : In}
    (h : server.GivesUp V overflow impl s inp) :
    ∃ inp' requests, inp'.err ≠ none ∧ server.accept V overflow impl s inp =
      ({ s with
        sent := s.sent ++ (server.unsubscribed V impl s.service).1
        service := (server.unsubscribed V impl s.service).2
        requests := requests }, inp') ∧
      ∀ handled ∈ server.trace V overflow impl s inp,
        ∃ rpcId endpoint, handled = .request rpcId endpoint none := by
  obtain ⟨⟨inp', requests, herr, hround⟩, hhandled⟩ := h
  have hproductive : Productive (server.acceptRound V overflow impl) :=
    Server.acceptRound_productive
  refine ⟨inp', requests, herr, ?_, ?_⟩
  · rw [Server.accept, Reader.loop_stops hproductive (by rw [hround]), hround]
  · rw [Server.trace, Reader.loopLog_eq hproductive, hround]
    simpa using hhandled

end Requests

/-- A connection that is lost in the middle of the requests. The server's loop has handled
exactly those that have arrived as a whole, in order, and of the one that was cut nothing has
been handed on, whatever byte it was cut at. The services are left as they would be had the
client said its goodbye behind the last whole request, and what was written to the client is
the same up to the answer to the goodbye. -/
theorem requests_cut {V : Varint} (hV : V.Lawful) (hlocal : V.Local) {σ : Type}
    (overflow : (capacity : Nat) → Str → InlineString capacity) {server : Server}
    (htyped : server.WellTyped) {impl : Implementation σ} (hfits : impl.ResponsesFit server)
    (ops : List (Operation server)) (hops : ∀ op ∈ ops, op.request.depth ≤ MaxNesting)
    (s : Serving σ) {stream : List UInt8}
    (hstream : stream <+: ops.flatMap (Operation.bytes V)) :
    ∃ whole missing, ops = whole ++ missing ∧ whole.flatMap (Operation.bytes V) <+: stream ∧
      (∀ op ∈ missing.head?, ¬ (whole ++ [op]).flatMap (Operation.bytes V) <+: stream) ∧
      (∃ rest, server.trace V overflow impl s (.ofBytes stream) =
          whole.map (fun op => op.handledAs op.request.received) ++ rest ∧
        ∀ handled ∈ rest, ∃ rpcId endpoint, handled = .request rpcId endpoint none) ∧
      ∃ lost closed inp, server.accept V overflow impl s (.ofBytes stream) = (lost, inp) ∧
        inp.err ≠ none ∧
        server.accept V overflow impl s (.ofBytes (whole.flatMap (Operation.bytes V) ++ [0])) =
          (closed, .ofBytes []) ∧
        lost.service = closed.service ∧ lost.panicked = s.panicked ∧
        ∃ answers events, lost.sent = answers ++ events ∧
          closed.sent = answers ++ [⟨.serverGoodbye, []⟩] ++ events := by
  obtain ⟨whole, missing, part, rfl, hcut⟩ := Cut.exists_of_prefix hstream
  have harrives : ∀ op ∈ whole ++ missing, op.request.Arrives V op.request.received :=
    fun op hop => Request.arrives hV (htyped.requestType op.served) (hops op hop)
  have hproductive : Productive (server.acceptRound V overflow impl) :=
    Server.acceptRound_productive
  -- The whole requests are served whatever is behind them.
  obtain ⟨s', ⟨-, hpanicked⟩, hloop⟩ := Reader.Takes.items hproductive
    (Operation.bytes V) (fun _ => server.handled V) (fun op => [op.handledAs op.request.received])
    (fun items s' => (∀ op ∈ items, op ∈ whole ++ missing) ∧ s'.panicked = s.panicked)
    (fun op items s' hinv => by
      obtain ⟨hmem, hpanicked⟩ := hinv
      obtain ⟨said, service', htakes⟩ := op.acceptRound_takes hV hlocal overflow hfits
        (harrives op (hmem op (.head _))) s'.service
      exact ⟨_, htakes s' rfl, op.handled_bytes hV hlocal (harrives op (hmem op (.head _))),
        fun op' hop' => hmem op' (.tail _ hop'), hpanicked⟩)
    whole ⟨fun op hop => List.mem_append_left _ hop, rfl⟩
  have hgivesUp : server.GivesUp V overflow impl s' (.ofBytes part) :=
    Server.givesUp_of_cut hV hlocal hcut
      (fun op hop => ⟨_, harrives op (List.mem_append_right _ hop)⟩) s'
  obtain ⟨inp, requests, herr, haccept, hrest⟩ := hgivesUp.accept
  refine ⟨whole, missing, rfl, ⟨part, hcut.stream_eq.symm⟩, hcut.not_prefix, ?_, ?_⟩
  · refine ⟨server.trace V overflow impl s' (.ofBytes part), ?_, hrest⟩
    rw [hcut.stream_eq, Server.trace, (hloop part).2, List.map_eq_flatMap, Server.trace]
  · have hlost : server.accept V overflow impl s (.ofBytes stream) =
        server.accept V overflow impl s' (.ofBytes part) := by
      rw [hcut.stream_eq]
      exact (hloop part).1
    exact ⟨_, _, inp, hlost.trans haccept, herr,
      (hloop [0]).1.trans (server.accept_goodbye hV overflow impl s' []), rfl, hpanicked,
      s'.sent, _, rfl, rfl⟩

/-- A list request, and an item that is cut in its key. -/
theorem requests_cut_feed :
    ∃ whole missing, Sample.operations = whole ++ missing ∧
      whole.flatMap (Operation.bytes .leb128) <+: [1, 8, 1, 4, 2, 10, 1] ∧
      (∀ op ∈ missing.head?,
        ¬ (whole ++ [op]).flatMap (Operation.bytes .leb128) <+: [1, 8, 1, 4, 2, 10, 1]) ∧
      (∃ rest, Sample.feedServer.trace .leb128 (fun _ _ => .empty) Sample.quiet
            ⟨[], (), false, 0⟩ (.ofBytes [1, 8, 1, 4, 2, 10, 1]) =
          whole.map (fun op => op.handledAs op.request.received) ++ rest ∧
        ∀ handled ∈ rest, ∃ rpcId endpoint, handled = .request rpcId endpoint none) ∧
      ∃ lost closed inp,
        Sample.feedServer.accept .leb128 (fun _ _ => .empty) Sample.quiet ⟨[], (), false, 0⟩
          (.ofBytes [1, 8, 1, 4, 2, 10, 1]) = (lost, inp) ∧
        inp.err ≠ none ∧
        Sample.feedServer.accept .leb128 (fun _ _ => .empty) Sample.quiet ⟨[], (), false, 0⟩
          (.ofBytes (whole.flatMap (Operation.bytes .leb128) ++ [0])) = (closed, .ofBytes []) ∧
        lost.service = closed.service ∧ lost.panicked = false ∧
        ∃ answers events, lost.sent = answers ++ events ∧
          closed.sent = answers ++ [⟨.serverGoodbye, []⟩] ++ events := by
  have hstream : [1, 8, 1, 4, 2, 10, 1] <+: Sample.operations.flatMap (Operation.bytes .leb128) :=
    ⟨[2, 4, 3, 1, 3, 0], rfl⟩
  exact requests_cut Varint.leb128_lawful Varint.leb128_local (fun _ _ => .empty)
    Sample.feedServer_wellTyped (Sample.quiet_responsesFit (by decide)) Sample.operations
    (fun op hop => (Sample.operations_survive op hop).depth_le) ⟨[], (), false, 0⟩ hstream

/-! ## Less than an answer -/

section Answers

variable {V : Varint} {ρ : Type}

namespace Client

/-- A round of the worker with a message of some type in front. -/
theorem inputRound_type (s : Inbox ρ) (type : ServerMessageType) (body : List UInt8) :
    inputRound V (fun _ pending => pending) s (.ofBytes (type.toUInt8 :: body)) =
      handleServerMessage V type s (.ofBytes body) := by
  have hread : (Reader.ofBytes (type.toUInt8 :: body)).read Read.byte Err.baselib =
      (type.toUInt8, .ofBytes body) := rfl
  simp only [inputRound, hread, Reader.err_ofBytes, Option.isSome_none, Bool.false_eq_true,
    if_false, ServerMessageType.ofUInt8_toUInt8]
  rfl

/-- A round of the worker that fails. It has given at most one call less than its answer. -/
def Inbox.GivesUp (V : Varint) (s : Inbox ρ) (inp : In) : Prop :=
  ∃ s' inp', inp'.err ≠ none ∧ inputRound V (fun _ pending => pending) s inp = ⟨false, s', inp'⟩ ∧
    (s' = s ∨ ∃ told : Processed ρ, told.isAnswer = true ∧ s' = s.process told)

/-- The worker gives up where there is nothing to read. -/
theorem Inbox.givesUp_nil (s : Inbox ρ) : s.GivesUp V (.ofBytes []) :=
  ⟨s, _, Reader.report_err_ne_none Err.baselib (.ofBytes []), rfl, .inl rfl⟩

/-- Less than a message is a body that cannot be read. -/
theorem Tells.givesUp (hV : V.Lawful) (hlocal : V.Local) {s : Inbox ρ} {msg : ServerMessage}
    {told : Processed ρ} (htells : Tells V msg told) (hexpects : s.pending.Expects told)
    {part lost : List UInt8} (hcut : msg.bytes = part ++ lost) (hlost : lost ≠ []) :
    s.GivesUp V (.ofBytes part) := by
  rcases part with _ | ⟨b, part⟩
  · exact s.givesUp_nil
  obtain ⟨type, body⟩ := msg
  obtain ⟨rfl, hbody⟩ : type.toUInt8 = b ∧ body = part ++ lost := List.cons_eq_cons.mp hcut
  rw [Inbox.GivesUp, inputRound_type]
  have hstop : ∀ {next : Inbox ρ × In}, next.2.err ≠ none →
      Inbox.goOn next = ⟨false, next.1, next.2⟩ := by
    intro next herr
    rw [Inbox.goOn, Option.isNone_eq_false_iff.mpr (Option.isSome_iff_ne_none.mpr herr)]
  cases htells with
  | @reply body decoder val h =>
    obtain ⟨calls, hcalls⟩ := List.head?_eq_some_iff.mp hexpects
    rw [hbody] at h
    have herr := (decoder.run_local hlocal).fails h hlost
    refine ⟨_, (decoder.run V (.ofBytes part)).2, herr, ?_,
      .inr ⟨.reply decoder (decoder.run V (.ofBytes part)).1, rfl, rfl⟩⟩
    simp only [handleServerMessage, handleReply, hcalls]
    rw [hstop herr]
    simp [Inbox.process, Processed.isAnswer, hcalls]
  | errorReply text =>
    obtain ⟨decoder, calls, hcalls⟩ := List.exists_cons_of_ne_nil hexpects
    have htakes : Reader.Takes (readChunked V) (part ++ lost) text.pieces.flatten := by
      rw [← hbody]
      exact fun rest => readChunked_writeChunked hV text.pieces text.ne_nil text.length_le rest
    have herr := (readChunked_local hlocal).fails htakes hlost
    refine ⟨_, (readChunked V (.ofBytes part)).2, herr, ?_,
      .inr ⟨.errorReply ((readChunked V (.ofBytes part)).1 ++ failedToRead), rfl, rfl⟩⟩
    simp only [handleServerMessage, handleChunkedErrorReply, hcalls,
      Option.isSome_iff_ne_none.mpr herr, if_true]
    rw [hstop herr]
    simp [Inbox.process, Processed.isAnswer, hcalls]
  | @event eventId body decoder val h =>
    have hcallback : s.pending.callbacks eventId = some decoder := hexpects
    rcases cut_append hbody with ⟨part', rfl, hpart⟩ | ⟨lost', hid, hlost'⟩
    · have hread : (Reader.ofBytes (V.writeUint32 eventId ++ part')).read V.readUint32
          Err.baselib = (eventId, .ofBytes part') :=
        Reader.read_ofBytes (hV.uint32 eventId) Err.baselib part'
      rw [hpart] at h
      have herr := (decoder.run_local hlocal).fails h hlost
      refine ⟨s, (decoder.run V (.ofBytes part')).2, herr, ?_, .inl rfl⟩
      simp only [handleServerMessage, hread, Reader.err_ofBytes, Option.isSome_none,
        Bool.false_eq_true, if_false, handleEvent, hcallback, Option.isSome_iff_ne_none.mpr herr,
        if_true]
      rw [hstop herr]
    · have htakes := Reader.Takes.read (hV.uint32 eventId) Err.baselib
      rw [hid] at htakes
      have herr := (Reader.Local.read hlocal.uint32 Err.baselib).fails htakes hlost'
      refine ⟨s, ((Reader.ofBytes part).read V.readUint32 Err.baselib).2, herr, ?_, .inl rfl⟩
      simp only [handleServerMessage, Option.isSome_iff_ne_none.mpr herr, if_true]

end Client

end Answers

/-! ## Sessions that lose their connection -/

section Sessions

variable {V : Varint} {server : Server} {σ ρ : Type} {services : LocalServices server σ}
  {r : Remote server σ ρ} {l : Local server σ ρ}

/-- The responses of services that fit are within the limit. -/
theorem LocalServices.Fit.responsesFit (h : services.Fit) (V : Varint) :
    (services.implementation V).ResponsesFit server :=
  fun c hc m hm hstreaming i msg service => h c hc m hm hstreaming i msg service

/-- Calls of the services have no guard. -/
theorem LocalServices.run_calls (services : LocalServices server σ)
    (ops : List (Operation server)) (l : Local server σ ρ) :
    ∃ l', run services.step l (ops.map .call) = some l' := by
  induction ops generalizing l with
  | nil => exact ⟨l, rfl⟩
  | cons op ops ih => exact ih _

/-- Calls are executed in their order. -/
theorem LocalServices.executed_calls {ops : List (Operation server)} {l l' : Local server σ ρ}
    (h : run services.step l (ops.map .call) = some l') : l'.executed = l.executed ++ ops := by
  induction ops generalizing l with
  | nil =>
    cases h
    exact (List.append_nil _).symm
  | cons op ops ih =>
    rw [ih h, ← List.append_cons]

namespace Remote

/-- The server of a session serves the requests that arrive as a whole, as the services do
alone, and unsubscribes everything. -/
theorem Relates.serve_cut (h : r.Relates V l) (hV : V.Lawful) (hlocal : V.Local)
    (overflow : (capacity : Nat) → Str → InlineString capacity) (htyped : server.WellTyped)
    (hdescribed : server.Described) (hfit : services.Fit) {arrived : List UInt8}
    (harrived : arrived <+: r.requests) :
    ∃ whole missing l' lost inp, r.waiting = whole ++ missing ∧
      whole.flatMap (Operation.bytes V) <+: arrived ∧
      (∀ op ∈ missing.head?, ¬ (whole ++ [op]).flatMap (Operation.bytes V) <+: arrived) ∧
      run services.step l (whole.map .call) = some l' ∧
      server.accept V overflow (services.implementation V) r.serving (.ofBytes arrived) =
        (lost, inp) ∧
      inp.err ≠ none ∧ lost.panicked = false ∧
      lost.service = (server.unsubscribed V (services.implementation V) l'.service).2 := by
  rw [h.requests] at harrived
  obtain ⟨whole, missing, part, hwaiting, hcut⟩ := Cut.exists_of_prefix harrived
  have hfits : ∀ op ∈ whole ++ missing, op.request.depth ≤ MaxNesting := hwaiting ▸ h.fits
  have harrives : ∀ op ∈ whole ++ missing, op.request.Arrives V op.request.received :=
    fun op hop => Request.arrives hV (htyped.requestType op.served) (hfits op hop)
  obtain ⟨l', hrun⟩ := services.run_calls whole l
  have hproductive : Productive (server.acceptRound V overflow (services.implementation V)) :=
    Server.acceptRound_productive
  obtain ⟨s', ⟨l'', hdone, hservice, hpanicked, -⟩, hloop⟩ := Reader.Takes.items hproductive
    (Operation.bytes V) (fun _ => server.handled V) (fun op => [op.handledAs op.request.received])
    (fun items s => ∃ l₀ : Local server σ ρ,
      run services.step l₀ (items.map .call) = some l' ∧ s.service = l₀.service ∧
        s.panicked = false ∧ ∀ op ∈ items, op ∈ whole ++ missing)
    (fun op items s hinv => by
      obtain ⟨l₀, hrest, hservice, hpanicked, hmem⟩ := hinv
      have hop := hmem op (.head _)
      obtain ⟨said, service', htakes⟩ := op.acceptRound_takes hV hlocal overflow
        (hfit.responsesFit V) (harrives op hop) s.service
      -- The round does to the services what they do alone.
      obtain ⟨sent, htold, -⟩ := op.acceptRound_told (ρ := ρ) hV hlocal overflow htyped
        hdescribed hfit (hfits op hop) s []
      have hstate : (server.acceptRound V overflow (services.implementation V) s
          (.ofBytes (op.bytes V ++ []))).state.service = service' :=
        congrArg (fun next => next.1.2.service) (htakes s rfl [])
      rw [htold] at hstate
      exact ⟨_, htakes s rfl, op.handled_bytes hV hlocal (harrives op hop), _, hrest,
        by rw [← hstate, hservice], hpanicked, fun op' hop' => hmem op' (.tail _ hop')⟩)
    whole ⟨l, hrun, h.service, h.panicked, fun op hop => List.mem_append_left _ hop⟩
  cases hdone
  have hgivesUp : server.GivesUp V overflow (services.implementation V) s' (.ofBytes part) :=
    Server.givesUp_of_cut hV hlocal hcut
      (fun op hop => ⟨_, harrives op (List.mem_append_right _ hop)⟩) s'
  obtain ⟨inp, requests, herr, haccept, -⟩ := hgivesUp.accept
  have hlost : server.accept V overflow (services.implementation V) r.serving
      (.ofBytes arrived) =
        server.accept V overflow (services.implementation V) s' (.ofBytes part) := by
    rw [hcut.stream_eq]
    exact (hloop part).1
  exact ⟨whole, missing, l', _, inp, hwaiting, ⟨part, hcut.stream_eq.symm⟩, hcut.not_prefix,
    hrun, hlost.trans haccept, herr, hpanicked, by rw [hservice]⟩

/-- The worker takes the messages that are whole. -/
theorem Relates.deliver_items (h : r.Relates V l) (hV : V.Lawful)
    {whole missing : List ServerMessage}
    {ahead : List (Client.Processed ρ)} {answering : List (Operation server)}
    (hflight : r.Flight V l.told (whole ++ missing) ahead answering) :
    ∃ (r' : Remote server σ ρ) (ahead' : List (Client.Processed ρ))
      (answering' : List (Operation server)), r'.Relates V l ∧
      r'.Flight V l.told missing ahead' answering' ∧ r'.waiting = r.waiting ∧
      r'.inbox.pending.closed = r.inbox.pending.closed ∧
      r.inbox.processed <+: r'.inbox.processed ∧
      ∀ rest, Reader.loop (Client.inputRound V fun _ pending => pending) r.inbox
          (.ofBytes (whole.flatMap ServerMessage.bytes ++ rest)) =
        Reader.loop (Client.inputRound V fun _ pending => pending) r'.inbox (.ofBytes rest) := by
  obtain ⟨-, ⟨r', ahead', answering', rfl, hrelates, hflight', hwaiting, hclosed, hprocessed⟩,
    hloop⟩ := Reader.Takes.items (Client.inputRound_productive fun _ pending => pending)
    ServerMessage.bytes (fun _ _ => ([] : List Unit)) (fun _ => [])
    (fun items s => ∃ (r' : Remote server σ ρ) (ahead' : List (Client.Processed ρ))
      (answering' : List (Operation server)), r'.inbox = s ∧ r'.Relates V l ∧
        r'.Flight V l.told (items ++ missing) ahead' answering' ∧ r'.waiting = r.waiting ∧
        s.pending.closed = r.inbox.pending.closed ∧ r.inbox.processed <+: s.processed)
    (fun msg items s hinv => by
      obtain ⟨r', ahead', answering', rfl, hrelates, hflight', hkept⟩ := hinv
      obtain ⟨told, ahead', htells, -, rfl⟩ := List.forall₂_cons_left_iff.mp hflight'.tells
      obtain ⟨hrelates', answering'', hflight''⟩ := hrelates.behind hflight' rfl
      exact ⟨_, Client.Tells.takes hV htells (hrelates.expects hflight'), fun _ => rfl, _, _, _,
        rfl, hrelates', hflight'', hkept.1, hkept.2.1,
        hkept.2.2.trans (List.prefix_append _ _)⟩)
    whole ⟨r, ahead, answering, rfl, h, hflight, rfl, rfl, List.prefix_refl _⟩
  exact ⟨r', ahead', answering', hrelates, hflight', hwaiting, hclosed, hprocessed,
    fun rest => (hloop rest).1⟩

/-- The client of a session is told what has arrived as a whole, and at most one call is given
less than its answer. -/
theorem Relates.deliver_cut (h : r.Relates V l) (hV : V.Lawful) (hlocal : V.Local)
    {arrived : List UInt8} (harrived : arrived <+: r.messages) :
    ∃ inbox inp told last,
      Reader.loop (Client.inputRound V fun _ pending => pending) r.inbox (.ofBytes arrived) =
        (inbox, inp) ∧
      inp.err ≠ none ∧ inbox.processed = told ++ last ∧ r.inbox.processed <+: told ∧
      told <+: l.told ∧ (arrived = r.messages → told = l.told) ∧
      (last = [] ∨ ∃ entry, last = [entry] ∧ entry.isAnswer = true) := by
  obtain ⟨sent, ahead, answering, hflight⟩ := h.flight
  rw [hflight.messages] at harrived
  obtain ⟨whole, missing, part, rfl, hcut⟩ := Cut.exists_of_prefix harrived
  obtain ⟨r', ahead', answering', hrelates, hflight', -, -, hprocessed, hloop⟩ :=
    h.deliver_items hV hflight
  have hgivesUp : r'.inbox.GivesUp V (.ofBytes part) := by
    rcases hcut.part_eq with ⟨-, rfl⟩ | ⟨msg, rest, lost, rfl, hbytes, hlost⟩
    · exact r'.inbox.givesUp_nil
    · obtain ⟨told, ahead', htells, -, rfl⟩ := List.forall₂_cons_left_iff.mp hflight'.tells
      exact Client.Tells.givesUp hV hlocal htells (hrelates.expects hflight') hbytes hlost
  obtain ⟨inbox, inp, herr, hround, hlast⟩ := hgivesUp
  have heq : Reader.loop (Client.inputRound V fun _ pending => pending) r.inbox
      (.ofBytes arrived) = (inbox, inp) := by
    rw [hcut.stream_eq, hloop part,
      Reader.loop_stops (Client.inputRound_productive _) (by rw [hround]), hround]
  have hall : arrived = r.messages → r'.inbox.processed = l.told := by
    intro harrived
    have hmissing := hcut.missing_eq_nil (harrived.trans hflight.messages)
    subst hmissing
    cases hflight'.tells
    rw [hflight'.told, List.append_nil]
  refine ⟨inbox, inp, r'.inbox.processed, ?_⟩
  rcases hlast with rfl | ⟨told, hanswer, rfl⟩
  · exact ⟨[], heq, herr, (List.append_nil _).symm, hprocessed, ⟨_, hflight'.told.symm⟩, hall,
      .inl rfl⟩
  · exact ⟨[told], heq, herr, rfl, hprocessed, ⟨_, hflight'.told.symm⟩, hall,
      .inr ⟨told, rfl, hanswer⟩⟩

end Remote

end Sessions

/-- A connection that is lost, whatever the session has been doing and at whatever byte either
way. The server has served the operations whose requests have arrived as a whole, which are
those begun first, and unsubscribes what is subscribed to: the services are left as they are
left alone by these operations and by unsubscriptions. The client has been told the beginning
of what the services have told, no byte of it twice or out of order, and all of it if all of
it has arrived; at most one call is given less than its answer. Both loops end in an error. -/
theorem connection_lost {V : Varint} (hV : V.Lawful) (hlocal : V.Local)
    {server : Server} {σ ρ : Type} (overflow : (capacity : Nat) → Str → InlineString capacity)
    (htyped : server.WellTyped) (hdescribed : server.Described)
    {services : LocalServices server σ} (hfit : services.Fit) {stubs : List Stub} {service : σ}
    {actions : List (RemoteAction server σ)} {r : Remote server σ ρ}
    (hrun : run (Remote.step V overflow services) (.start stubs service) actions = some r)
    (hdisciplined : Along (Remote.step V overflow services) (Remote.Disciplined (ρ := ρ))
      (.start stubs service) actions)
    (hpermits : Along services.step (services.Permits (ρ := ρ)) (.start service)
      (image (Remote.step (ρ := ρ) V overflow services) Remote.amounts (.start stubs service)
        actions))
    {requests messages : List UInt8} (hrequests : requests <+: r.requests)
    (hmessages : messages <+: r.messages) :
    ∃ (l l' : Local server σ ρ) (whole missing : List (Operation server)),
      run services.step (.start service)
        (image (Remote.step (ρ := ρ) V overflow services) Remote.amounts (.start stubs service)
          actions) = some l ∧
      run services.step l (whole.map .call) = some l' ∧
      begun actions = l'.executed ++ missing ∧
      whole.flatMap (Operation.bytes V) <+: requests ∧
      (∀ op ∈ missing.head?, ¬ (whole ++ [op]).flatMap (Operation.bytes V) <+: requests) ∧
      (∃ serving inp,
        server.accept V overflow (services.implementation V) r.serving (.ofBytes requests) =
          (serving, inp) ∧
        inp.err ≠ none ∧ serving.panicked = false ∧
        serving.service = (server.unsubscribed V (services.implementation V) l'.service).2) ∧
      ∃ inbox inp told last,
        Reader.loop (Client.inputRound V fun _ pending => pending) r.inbox (.ofBytes messages) =
          (inbox, inp) ∧
        inp.err ≠ none ∧ inbox.processed = told ++ last ∧ r.inbox.processed <+: told ∧
        told <+: l.told ∧ (messages = r.messages → told = l.told) ∧
        (last = [] ∨ ∃ entry, last = [entry] ∧ entry.isAnswer = true) := by
  obtain ⟨l, hlocalRun, h⟩ := (remote_simulates hV hlocal htyped hdescribed hfit).run
    (Remote.Relates.start stubs service) hdisciplined hpermits hrun
  obtain ⟨whole, missing, l', serving, inp, hwaiting, hwhole, hmissing, hrest, haccept⟩ :=
    h.serve_cut hV hlocal overflow htyped hdescribed hfit hrequests
  have hbegun : begun actions = l.executed ++ r.waiting := by
    rw [← h.served, Remote.served_waiting hrun]
    rfl
  have hexecuted : l'.executed = l.executed ++ whole := LocalServices.executed_calls hrest
  refine ⟨l, l', whole, missing, hlocalRun, hrest, ?_, hwhole, hmissing,
    ⟨serving, inp, haccept⟩, h.deliver_cut hV hlocal hmessages⟩
  rw [hbegun, hexecuted, hwaiting, List.append_assoc]

/-- The request that waits is cut behind its flag byte, and the event behind its type. -/
theorem connection_lost_conversation :
    ∃ (r : Remote Sample.feedServer Unit Unit) (l l' : Local Sample.feedServer Unit Unit)
      (whole missing : List (Operation Sample.feedServer)),
      run (Remote.step .leb128 (fun _ _ => .empty) Sample.speaking) (.start [] ())
        (Sample.conversation.take 3) = some r ∧
      r.requests = [2, 10, 1, 2, 4] ∧ r.messages = [242, 3, 240] ∧
      run Sample.speaking.step (.start ())
        (image (Remote.step (ρ := Unit) .leb128 (fun _ _ => .empty) Sample.speaking)
          Remote.amounts (.start [] ()) (Sample.conversation.take 3)) = some l ∧
      run Sample.speaking.step l (whole.map .call) = some l' ∧
      begun (Sample.conversation.take 3) = l'.executed ++ missing ∧
      whole.flatMap (Operation.bytes .leb128) <+: [2, 10, 1] ∧
      (∀ op ∈ missing.head?,
        ¬ (whole ++ [op]).flatMap (Operation.bytes .leb128) <+: [2, 10, 1]) ∧
      (∃ serving inp, Sample.feedServer.accept .leb128 (fun _ _ => .empty)
          (Sample.speaking.implementation .leb128) r.serving (.ofBytes [2, 10, 1]) =
            (serving, inp) ∧
        inp.err ≠ none ∧ serving.panicked = false ∧
        serving.service = (Sample.feedServer.unsubscribed .leb128
          (Sample.speaking.implementation .leb128) l'.service).2) ∧
      ∃ inbox inp told last,
        Reader.loop (Client.inputRound .leb128 fun _ pending => pending) r.inbox
          (.ofBytes [242]) = (inbox, inp) ∧
        inp.err ≠ none ∧ inbox.processed = told ++ last ∧ r.inbox.processed <+: told ∧
        told <+: l.told ∧ ([242] = r.messages → told = l.told) ∧
        (last = [] ∨ ∃ entry, last = [entry] ∧ entry.isAnswer = true) := by
  have hrun : ∃ r : Remote Sample.feedServer Unit Unit,
      run (Remote.step .leb128 (fun _ _ => .empty) Sample.speaking) (.start [] ())
        (Sample.conversation.take 3) = some r ∧
      r.requests = [2, 10, 1, 2, 4] ∧ r.messages = [242, 3, 240] := ⟨_, rfl, rfl, rfl⟩
  obtain ⟨r, hrun, hrequests, hmessages⟩ := hrun
  have hpermitted := Sample.conversation_permitted
  rw [show Sample.conversation = Sample.conversation.take 3 ++ Sample.conversation.drop 3 from rfl,
    image_append hrun] at hpermitted
  have hdisciplined : Along (Remote.step .leb128 (fun _ _ => .empty) Sample.speaking)
      (Remote.Disciplined (ρ := Unit)) (.start [] ())
      (Sample.conversation.take 3 ++ Sample.conversation.drop 3) :=
    Sample.conversation_disciplined
  have hcut : [2, 10, 1] <+: r.requests := by
    rw [hrequests]
    exact ⟨[2, 4], rfl⟩
  have hcut' : [242] <+: r.messages := by
    rw [hmessages]
    exact ⟨[3, 240], rfl⟩
  obtain ⟨l, l', whole, missing, hlost⟩ :=
    connection_lost Varint.leb128_lawful Varint.leb128_local (fun _ _ => .empty)
      Sample.feedServer_wellTyped Sample.feedServer_described Sample.speaking_fit hrun
      hdisciplined.left hpermitted.left hcut hcut'
  exact ⟨r, l, l', whole, missing, hrun, hrequests, hmessages, hlost⟩

end SerialRpc
