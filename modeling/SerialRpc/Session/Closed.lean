import SerialRpc.Session.Lost

/-!
# Connections that are closed (client.cc:91-121, 384-389, server_impl.cc:259-273, 351-373)

`close` writes a zero behind the requests, and waits for the client's worker. The server's
loop comes to the zero behind the requests, and answers it in kind behind their answers.
Nothing is lost on the way: the worker is told everything before it sees the goodbye, and no
call is left.

- `Remote.Relates.serve_all`: the server's loop serves all that waits.
- `Remote.Relates.deliver_all`: the worker takes all that is on its way.
- `connection_closed`: a session that is closed, wherever it is.
-/

namespace SerialRpc

open ByteStream Transition

section Sessions

variable {V : Varint} {server : Server} {σ ρ : Type} {services : LocalServices server σ}
  {r : Remote server σ ρ} {l : Local server σ ρ}

namespace Remote

/-- One behind the other, the loop serves the operations that wait, and puts what they say
behind what has been said. -/
theorem Relates.serve_all (h : r.Relates V l) (hV : V.Lawful) (hlocal : V.Local)
    (overflow : (capacity : Nat) → Str → InlineString capacity) (htyped : server.WellTyped)
    (hdescribed : server.Described) (hfit : services.Fit)
    (hpermits : Along services.step services.Permits l (r.waiting.map .call)) :
    ∃ (r' : Remote server σ ρ) (l' : Local server σ ρ) (sent : List ServerMessage),
      run services.step l (r.waiting.map .call) = some l' ∧ r'.Relates V l' ∧
      l'.executed = l.executed ++ r.waiting ∧ r'.waiting = [] ∧ r'.inbox = r.inbox ∧
      r'.messages = r.messages ++ sent.flatMap ServerMessage.bytes ∧
      ∀ before rest,
        server.accept V overflow (services.implementation V) { r.serving with sent := before }
            (.ofBytes (r.requests ++ rest)) =
          server.accept V overflow (services.implementation V)
            { r'.serving with sent := before ++ sent } (.ofBytes rest) := by
  induction hwaiting : r.waiting generalizing r l with
  | nil =>
    refine ⟨r, l, [], rfl, h, (List.append_nil _).symm, hwaiting, rfl, ?_, fun before rest => ?_⟩
    · exact (List.append_nil _).symm
    · rw [h.requests, hwaiting, List.append_nil]
      rfl
  | cons op ops ih =>
    have hfits := h.fits op (hwaiting ▸ .head _)
    have harrives : op.request.Arrives V op.request.received :=
      Request.arrives hV (htyped.requestType op.served) hfits
    obtain ⟨said, service', htakes⟩ := op.acceptRound_takes hV hlocal overflow
      (hfit.responsesFit V) harrives r.serving.service
    -- The loop's own round is the session's step, but for what was sent before.
    have hround := htakes { r.serving with sent := [] } rfl (ops.flatMap (Operation.bytes V))
    simp only [Reader.round, Prod.mk.injEq] at hround
    obtain ⟨⟨hagain, hstate⟩, hreader⟩ := hround
    have hstep : r.step V overflow services .serve = some { r with
        requests := ops.flatMap (Operation.bytes V)
        serving := { r.serving with
          sent := said
          service := service'
          requests := r.serving.requests + 1 }
        messages := r.messages ++ said.flatMap ServerMessage.bytes
        served := r.served ++ [op]
        waiting := ops } := by
      simp only [step, h.requests, hwaiting, List.flatMap_cons, hagain, hstate, hreader, if_true]
      rfl
    rw [hwaiting] at hpermits
    obtain ⟨l₁, hrun, hrelates⟩ := h.serve hV hlocal htyped hdescribed hfit
      (fun op' hop' => by rw [hwaiting] at hop'; cases hop'; exact hpermits.1) hstep
    rw [hwaiting] at hrun
    cases hrun
    obtain ⟨r', l', sent, hrest, hrelates', hexecuted, hdone, hinbox, hmessages, haccept⟩ :=
      ih hrelates (hpermits.2 _ rfl) rfl
    refine ⟨r', l', said ++ sent, hrest, hrelates', ?_, hdone, hinbox, ?_, fun before rest => ?_⟩
    · rw [hexecuted]
      exact (List.append_cons _ _ _).symm
    · rw [hmessages, List.flatMap_append, List.append_assoc]
    · have hfirst := (htakes { r.serving with sent := before } rfl).step
        Server.acceptRound_productive (ops.flatMap (Operation.bytes V) ++ rest)
      rw [h.requests, hwaiting, List.flatMap_cons, List.append_assoc, ← List.append_assoc before]
      exact hfirst.trans (haccept (before ++ said) rest)

/-- `close` has been called. -/
def close (r : Remote server σ ρ) : Remote server σ ρ := { r with inbox.pending.closed := true }

theorem Relates.close (h : r.Relates V l) : r.close.Relates V l := by
  obtain ⟨sent, ahead, answering, hflight⟩ := h.flight
  exact
    { service := h.service
      panicked := h.panicked
      served := h.served
      requests := h.requests
      fits := h.fits
      calls := h.calls
      flight := ⟨sent, ahead, answering,
        { messages := hflight.messages
          tells := hflight.tells
          told := hflight.told
          ongoing := hflight.ongoing
          isAhead := hflight.isAhead
          registered := hflight.registered }⟩
      live := h.live
      subscribing := h.subscribing }

/-- Before the goodbye, the worker of a client that is closed is told everything, and answers
every call. -/
theorem Relates.deliver_all (h : r.Relates V l) (hV : V.Lawful) (hwaiting : r.waiting = [])
    (hclosed : r.inbox.pending.closed = true) :
    ∃ inbox : Client.Inbox ρ, inbox.processed = l.told ∧ inbox.pending.calls = [] ∧ ∀ rest,
      Reader.loop (Client.inputRound V fun _ pending => pending) r.inbox
          (.ofBytes (r.messages ++ ServerMessageType.serverGoodbye.toUInt8 :: rest)) =
        (inbox, .ofBytes rest) := by
  obtain ⟨sent, ahead, answering, hflight⟩ := h.flight
  rw [← List.append_nil sent] at hflight
  obtain ⟨r', ahead', answering', hrelates, hflight', hwaiting', hclosed', -, hloop⟩ :=
    h.deliver_items hV hflight
  cases hflight'.tells
  have hanswering : answering' = [] := by
    cases hflight'.isAhead
    rfl
  refine ⟨r'.inbox, ?_, ?_, fun rest => ?_⟩
  · rw [hflight'.told, List.append_nil]
  · rw [hrelates.calls, hflight'.ongoing, hanswering, hwaiting', hwaiting]
    rfl
  · rw [hflight.messages, List.append_nil, hloop]
    have hgoodbye : Client.inputRound V (fun _ pending => pending) r'.inbox
        (.ofBytes (ServerMessageType.serverGoodbye.toUInt8 :: rest)) =
          ⟨false, r'.inbox, .ofBytes rest⟩ := by
      rw [Client.inputRound_type]
      simp only [Client.handleServerMessage, hclosed', hclosed, if_true]
    rw [Reader.loop_stops (Client.inputRound_productive _) (by rw [hgoodbye]), hgoodbye]

end Remote

end Sessions

/-- A connection that is closed, whatever the session has been doing. The server's loop comes to
the zero that `close` writes when it has served every operation, once each and in the order they
were begun in; it answers it in kind and leaves the services unsubscribed. The worker comes to
the goodbye when the client has been told everything that the services have told, and every
call has had its answer. Neither end meets an error. -/
theorem connection_closed {V : Varint} (hV : V.Lawful) (hlocal : V.Local)
    {server : Server} {σ ρ : Type} (overflow : (capacity : Nat) → Str → InlineString capacity)
    (htyped : server.WellTyped) (hdescribed : server.Described)
    {services : LocalServices server σ} (hfit : services.Fit) {stubs : List Stub} {service : σ}
    {actions : List (RemoteAction server σ)} {r : Remote server σ ρ}
    (hrun : run (Remote.step V overflow services) (.start stubs service) actions = some r)
    (hdisciplined : Along (Remote.step V overflow services) (Remote.Disciplined (ρ := ρ))
      (.start stubs service) actions)
    (hpermits : Along services.step (services.Permits (ρ := ρ)) (.start service)
      (image (Remote.step (ρ := ρ) V overflow services) Remote.amounts (.start stubs service)
        actions ++ r.waiting.map .call)) :
    ∃ (l : Local server σ ρ) (serving : Serving σ) (sent events : List ServerMessage)
      (inbox : Client.Inbox ρ),
      run services.step (.start service)
        (image (Remote.step (ρ := ρ) V overflow services) Remote.amounts (.start stubs service)
          actions ++ r.waiting.map .call) = some l ∧
      begun actions = l.executed ∧
      server.accept V overflow (services.implementation V) { r.serving with sent := [] }
        (.ofBytes (r.requests ++ (Client.close {}).written)) = (serving, .ofBytes []) ∧
      serving.panicked = false ∧
      serving.service = (server.unsubscribed V (services.implementation V) l.service).2 ∧
      serving.sent = sent ++ [⟨.serverGoodbye, []⟩] ++ events ∧
      Reader.loop (Client.inputRound V fun _ pending => pending) r.close.inbox
        (.ofBytes (r.messages ++ serving.sent.flatMap ServerMessage.bytes)) =
          (inbox, .ofBytes (events.flatMap ServerMessage.bytes)) ∧
      inbox.processed = l.told ∧ inbox.pending.calls = [] := by
  obtain ⟨l, hlocalRun, h⟩ := (remote_simulates hV hlocal htyped hdescribed hfit).run
    (Remote.Relates.start stubs service) hdisciplined hpermits.left hrun
  obtain ⟨r', l', sent, hrest, h', hexecuted, hwaiting, hinbox, hmessages, haccept⟩ :=
    h.serve_all hV hlocal overflow htyped hdescribed hfit (hpermits.right hlocalRun)
  obtain ⟨inbox, hprocessed, hcalls, hloop⟩ := h'.close.deliver_all hV hwaiting rfl
  refine ⟨l', _, sent, _, inbox, ?_, ?_, (haccept [] [0]).trans
    (server.accept_goodbye hV overflow _ _ []), h'.panicked, ?_, rfl, ?_, hprocessed, hcalls⟩
  · rw [run_append, hlocalRun]
    exact hrest
  · rw [hexecuted, ← h.served, Remote.served_waiting hrun]
    rfl
  · rw [h'.service]
  · have hclosed : r'.close.inbox = r.close.inbox := by rw [Remote.close, Remote.close, hinbox]
    have hall := hloop ((server.unsubscribed V (services.implementation V)
      r'.serving.service).1.flatMap ServerMessage.bytes)
    rw [hclosed, show r'.close.messages = r.messages ++ sent.flatMap ServerMessage.bytes from
      hmessages, List.append_assoc] at hall
    simpa [ServerMessage.bytes] using hall

/-- Closed with a request and an answer on their way. -/
theorem connection_closed_conversation :
    ∃ (r : Remote Sample.feedServer Unit Unit) (l : Local Sample.feedServer Unit Unit)
      (serving : Serving Unit) (sent events : List ServerMessage) (inbox : Client.Inbox Unit),
      run (Remote.step .leb128 (fun _ _ => .empty) Sample.speaking) (.start [] ())
        (Sample.conversation.take 3) = some r ∧
      r.requests = [2, 10, 1, 2, 4] ∧ r.messages = [242, 3, 240] ∧
      run Sample.speaking.step (.start ())
        (image (Remote.step (ρ := Unit) .leb128 (fun _ _ => .empty) Sample.speaking)
          Remote.amounts (.start [] ()) (Sample.conversation.take 3) ++ r.waiting.map .call) =
        some l ∧
      begun (Sample.conversation.take 3) = l.executed ∧
      Sample.feedServer.accept .leb128 (fun _ _ => .empty)
          (Sample.speaking.implementation .leb128) { r.serving with sent := [] }
          (.ofBytes (r.requests ++ (Client.close {}).written)) = (serving, .ofBytes []) ∧
      serving.panicked = false ∧
      serving.service = (Sample.feedServer.unsubscribed .leb128
        (Sample.speaking.implementation .leb128) l.service).2 ∧
      serving.sent = sent ++ [⟨.serverGoodbye, []⟩] ++ events ∧
      Reader.loop (Client.inputRound .leb128 fun _ pending => pending) r.close.inbox
          (.ofBytes (r.messages ++ serving.sent.flatMap ServerMessage.bytes)) =
        (inbox, .ofBytes (events.flatMap ServerMessage.bytes)) ∧
      inbox.processed = l.told ∧ inbox.pending.calls = [] := by
  have hrun : ∃ r : Remote Sample.feedServer Unit Unit,
      run (Remote.step .leb128 (fun _ _ => .empty) Sample.speaking) (.start [] ())
        (Sample.conversation.take 3) = some r ∧
      r.requests = [2, 10, 1, 2, 4] ∧ r.messages = [242, 3, 240] ∧
      r.waiting = [Sample.operations[1]] := ⟨_, rfl, rfl, rfl, rfl⟩
  obtain ⟨r, hrun, hrequests, hmessages, hwaiting⟩ := hrun
  have hdisciplined : Along (Remote.step .leb128 (fun _ _ => .empty) Sample.speaking)
      (Remote.Disciplined (ρ := Unit)) (.start [] ())
      (Sample.conversation.take 3 ++ Sample.conversation.drop 3) :=
    Sample.conversation_disciplined
  have hpermitted : Along Sample.speaking.step (Sample.speaking.Permits (ρ := Unit)) (.start ())
      (image (Remote.step (ρ := Unit) .leb128 (fun _ _ => .empty) Sample.speaking)
        Remote.amounts (.start [] ()) (Sample.conversation.take 3) ++
          r.waiting.map .call ++ [.work fun _ => ([Sample.tick], ())]) := by
    rw [hwaiting]
    exact Sample.conversation_permitted
  obtain ⟨l, serving, sent, events, inbox, hclosed⟩ :=
    connection_closed Varint.leb128_lawful Varint.leb128_local (fun _ _ => .empty)
      Sample.feedServer_wellTyped Sample.feedServer_described Sample.speaking_fit hrun
      hdisciplined.left hpermitted.left
  exact ⟨r, l, serving, sent, events, inbox, hrun, hrequests, hmessages, hclosed⟩

end SerialRpc
