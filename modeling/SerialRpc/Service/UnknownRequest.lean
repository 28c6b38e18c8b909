import SerialRpc.Service.Requests

/-!
# Requests outside the table (server.cc:181-189, server_impl.cc:351-373)

An id that is not in the dispatch table is answered with `Unknown`. The client takes that
as the end of the session (client.cc:346-348), but the server does not: it does not know
how long the body of such a request is, and reads on in it, where it expects the next id.

- `Frame`: what a client writes for a request, in the table or not.
- `NamesNone`: read as ids, some bytes name no endpoint.
- `unknown_dispatches_iff`: the endpoints that the server dispatches are those before the
  first unknown request exactly if the bytes behind that request's id name none.
-/

namespace SerialRpc

open ByteStream

/-! ## Frames -/

/-- A request of a client: of an endpoint in the server's table, or for an id outside it. -/
inductive Frame (server : Server) where
  | served (op : Operation server)
  | unknown (rpcId : UInt32) (parameter : Option MessageType) (request : Request parameter)
      (ne_zero : rpcId ≠ 0) (unserved : server.handleRequest (rpcId - 1) = none)

namespace Frame

variable {server : Server}

/-- The id that the client writes. -/
def rpcId : Frame server → UInt32
  | .served op => op.rpcId
  | .unknown rpcId _ _ _ _ => rpcId

def inRange : Frame server → Bool
  | .served _ => true
  | .unknown _ _ _ _ _ => false

def depth : Frame server → Nat
  | .served op => op.request.depth
  | .unknown _ _ request _ _ => request.depth

section Bytes

variable (V : Varint)

def write : Frame server → Writer Err → Except Panic (Writer Err)
  | .served op => op.request.write V op.rpcId
  | .unknown rpcId _ request _ _ => request.write V rpcId

def bytes : Frame server → List UInt8
  | .served op => op.bytes V
  | .unknown rpcId _ request _ _ => V.writeUint32 rpcId ++ request.bytes V

/-- The client's encoder has room for the request, and the server reads one of its own. -/
def Arrives : Frame server → Prop
  | .served op => ∃ msg, op.request.Arrives V msg
  | .unknown _ _ request _ _ => request.depth ≤ MaxNesting

/-- The requests of a client, one behind the other. -/
def writeAll (frames : List (Frame server)) (out : Writer Err) : Except Panic (Writer Err) :=
  frames.foldlM (fun out frame => frame.write V out) out

end Bytes

end Frame

/-- Read as ids, up to a zero or to the first failure, some bytes name no endpoint. -/
inductive NamesNone (V : Varint) (server : Server) : List UInt8 → Prop
  | failed {bs : List UInt8} (h : (V.readUint32.run bs).failed = true) : NamesNone V server bs
  | goodbye {bs : List UInt8} (h : (V.readUint32.run bs).failed = false)
      (hzero : (V.readUint32.run bs).value = 0) : NamesNone V server bs
  | unknown {bs : List UInt8} (h : (V.readUint32.run bs).failed = false)
      (hne : (V.readUint32.run bs).value ≠ 0)
      (hunserved : server.handleRequest ((V.readUint32.run bs).value - 1) = none)
      (hrest : NamesNone V server (V.readUint32.run bs).rest) : NamesNone V server bs

/-- The bytes from behind the first id outside the table name no endpoint, where the client
goes on with some more behind its requests. -/
def Frame.Harmless (V : Varint) {server : Server} (more : List UInt8) :
    List (Frame server) → Prop
  | [] => True
  | .served _ :: frames => Frame.Harmless V more frames
  | .unknown _ _ request _ _ :: frames =>
    NamesNone V server (request.bytes V ++ frames.flatMap (Frame.bytes V) ++ more)

/-- The endpoint that a round dispatches, if it does. -/
def Handled.dispatched : Handled → Option UInt32
  | .request rpcId _ _ => some rpcId
  | .unknown _ | .goodbye => none

/-! ## What the client writes -/

section Write

variable {V : Varint} {server : Server}

theorem Frame.Arrives.depth_le {frame : Frame server} (h : frame.Arrives V) :
    frame.depth ≤ MaxNesting := by
  cases frame with
  | served op =>
    obtain ⟨msg, harrives⟩ := h
    exact harrives.depth_le
  | unknown rpcId parameter request hne hunserved => exact h

theorem Frame.write_open (hV : V.Lawful) (frame : Frame server) {out : Writer Err}
    (hdepth : frame.depth ≤ MaxNesting) (hopen : out.Open) :
    frame.write V out = .ok (out.append (frame.bytes V)) := by
  cases frame with
  | served op => exact op.request.write_open hV op.rpcId hdepth hopen
  | unknown rpcId parameter request hne hunserved =>
    exact request.write_open hV rpcId hdepth hopen

theorem Frame.writeAll_open (hV : V.Lawful) {frames : List (Frame server)} {out : Writer Err}
    (hframes : ∀ frame ∈ frames, frame.depth ≤ MaxNesting) (hopen : out.Open) :
    Frame.writeAll V frames out = .ok (out.append (frames.flatMap (Frame.bytes V))) := by
  induction frames generalizing out with
  | nil =>
    rw [List.flatMap_nil, Writer.append_nil]
    rfl
  | cons frame frames ih =>
    have hwrite := frame.write_open hV (hframes frame (.head _)) hopen
    have hrest := ih (fun frame' h => hframes frame' (.tail _ h)) (hopen.append (frame.bytes V))
    rw [Frame.writeAll, List.foldlM_cons, hwrite, List.flatMap_cons, ← Writer.append_append,
      ← hrest]
    rfl

end Write

/-! ## What the server makes of it -/

section Trace

variable {V : Varint} {σ : Type} (overflow : (capacity : Nat) → Str → InlineString capacity)
  (server : Server) (impl : Implementation σ)

/-- An id outside the table is answered, and the loop goes on right behind it. -/
theorem Server.trace_unknown (s : Serving σ) {bs : List UInt8}
    (h : (V.readUint32.run bs).failed = false) (hne : (V.readUint32.run bs).value ≠ 0)
    (hunserved : server.handleRequest ((V.readUint32.run bs).value - 1) = none) :
    ∃ s', server.trace V overflow impl s (.ofBytes bs) =
      .unknown ((V.readUint32.run bs).value - 1) ::
        server.trace V overflow impl s' (.ofBytes (V.readUint32.run bs).rest) := by
  have hread := Reader.read_run h Err.baselib
  have hround : server.acceptRound V overflow impl s (.ofBytes bs) =
      ⟨true, { s with sent := s.sent ++ [⟨.unknown, []⟩], requests := s.requests + 1 },
        .ofBytes (V.readUint32.run bs).rest⟩ := by
    simp only [Server.acceptRound, hread, Reader.err_ofBytes, Option.isSome_none,
      Bool.false_eq_true, if_false, hne, Server.acceptRequest, Server.dispatch, hunserved]
    rfl
  have hproductive : Productive (server.acceptRound V overflow impl) :=
    Server.acceptRound_productive
  refine ⟨{ s with sent := s.sent ++ [⟨.unknown, []⟩], requests := s.requests + 1 }, ?_⟩
  rw [Server.trace, Reader.loopLog_eq hproductive, hround]
  simp only [Server.handled, hread, Reader.err_ofBytes, Option.isSome_none, Bool.false_eq_true,
    if_false, hne, hunserved, if_true]
  rfl

/-- The first round of `accept` logs what it handles. -/
theorem Server.trace_eq (s : Serving σ) (inp : In) :
    ∃ more, server.trace V overflow impl s inp = server.handled V inp ++ more := by
  have hproductive : Productive (server.acceptRound V overflow impl) :=
    Server.acceptRound_productive
  exact ⟨_, Reader.loopLog_eq hproductive (fun _ => server.handled V) s inp⟩

theorem Server.handled_failed {bs : List UInt8} (h : (V.readUint32.run bs).failed = true) :
    server.handled V (.ofBytes bs) = [] := by
  simp [Server.handled, Reader.read, Reader.ofBytes, h]

/-- What is read behind some id dispatches nothing exactly if it names no endpoint. -/
theorem Server.trace_dispatched_eq_nil_iff (s : Serving σ) (bs : List UInt8) :
    (server.trace V overflow impl s (.ofBytes bs)).filterMap Handled.dispatched = [] ↔
      NamesNone V server bs := by
  induction hlen : bs.length using Nat.strongRecOn generalizing s bs with
  | ind len ih =>
    subst hlen
    have hproductive : Productive (server.acceptRound V overflow impl) :=
      Server.acceptRound_productive
    cases hfailed : (V.readUint32.run bs).failed with
    | true =>
      have hstop : server.trace V overflow impl s (.ofBytes bs) = [] := by
        rw [Server.trace, Reader.loopLog_eq hproductive, server.handled_failed hfailed]
        simp [Server.acceptRound, Reader.read, Reader.ofBytes, hfailed]
      rw [hstop]
      exact ⟨fun _ => .failed hfailed, fun _ => rfl⟩
    | false =>
      have hread := Reader.read_run hfailed Err.baselib
      by_cases hzero : (V.readUint32.run bs).value = 0
      · have hstop : server.trace V overflow impl s (.ofBytes bs) = [.goodbye] := by
          rw [Server.trace, Reader.loopLog_eq hproductive]
          simp [Server.handled, Server.acceptRound, hread, hzero]
        rw [hstop]
        exact ⟨fun _ => .goodbye hfailed hzero, fun _ => rfl⟩
      cases hserved : server.handleRequest ((V.readUint32.run bs).value - 1) with
      | none =>
        obtain ⟨s', htrace⟩ := server.trace_unknown overflow impl s hfailed hzero hserved
        have hrest := ih _ (V.readUint32_consumes bs hfailed) s' (V.readUint32.run bs).rest rfl
        rw [htrace]
        show (server.trace V overflow impl s' _).filterMap Handled.dispatched = [] ↔ _
        rw [hrest]
        constructor
        · exact .unknown hfailed hzero hserved
        · intro hnames
          cases hnames with
          | failed h => rw [hfailed] at h; cases h
          | goodbye h hzero' => exact absurd hzero' hzero
          | unknown h hne hunserved hrest => exact hrest
      | some endpoint =>
        obtain ⟨more, htrace⟩ := server.trace_eq overflow impl s (.ofBytes bs)
        have hhandled : server.handled V (.ofBytes bs) =
            [.request ((V.readUint32.run bs).value - 1) endpoint
              (Endpoint.readBody V endpoint (.ofBytes (V.readUint32.run bs).rest)).1] := by
          simp [Server.handled, hread, hzero, hserved]
        rw [htrace, hhandled]
        refine ⟨fun hnone => ?_, fun hnames => ?_⟩
        · cases hnone
        cases hnames with
        | failed h => rw [hfailed] at h; cases h
        | goodbye h hzero' => exact absurd hzero' hzero
        | unknown h hne hunserved hrest => rw [hserved] at hunserved; cases hunserved

/-- What a client sends last, if anything, names no endpoint. -/
theorem NamesNone.closing {closing : List UInt8} (hV : V.Lawful)
    (h : closing = [] ∨ ∃ rest, closing = 0 :: rest) : NamesNone V server closing := by
  rcases h with rfl | ⟨rest, rfl⟩
  · refine .failed ?_
    cases hfailed : (V.readUint32.run []).failed with
    | true => rfl
    | false => exact absurd (V.readUint32_consumes [] hfailed) (Nat.not_lt_zero _)
  · have hread : V.readUint32.run (0 :: rest) = ⟨0, rest, false⟩ :=
      hV.byte (b := 0) (by decide) rest
    exact .goodbye (by rw [hread]) (by rw [hread])

end Trace

/-- The server dispatches the endpoints of exactly the requests before the first unknown one
if and only if the bytes from behind that one's id name no endpoint. Whatever requests a
client writes, and whether it then closes the session or just ends. -/
theorem unknown_dispatches_iff {V : Varint} (hV : V.Lawful) (hlocal : V.Local) {σ : Type}
    (overflow : (capacity : Nat) → Str → InlineString capacity) {server : Server}
    {impl : Implementation σ} (hfits : impl.ResponsesFit server) (frames : List (Frame server))
    (hframes : ∀ frame ∈ frames, frame.Arrives V) (closing : List UInt8)
    (hclosing : closing = [] ∨ ∃ rest, closing = 0 :: rest) (s : Serving σ) :
    ∃ written : List UInt8, Frame.writeAll V frames {} = .ok { written } ∧
      ((server.trace V overflow impl s (.ofBytes (written ++ closing))).filterMap
          Handled.dispatched =
        (frames.takeWhile Frame.inRange).map (fun frame => frame.rpcId - 1) ↔
      Frame.Harmless V closing frames) := by
  have hopen : Writer.Open ({} : Writer Err) := ⟨rfl, rfl⟩
  refine ⟨frames.flatMap (Frame.bytes V),
    Frame.writeAll_open hV (fun frame h => (hframes frame h).depth_le) hopen, ?_⟩
  induction frames generalizing s with
  | nil =>
    have hnames := NamesNone.closing server hV hclosing
    have hnil := (server.trace_dispatched_eq_nil_iff overflow impl s closing).mpr hnames
    exact ⟨fun _ => trivial, fun _ => hnil⟩
  | cons frame frames ih =>
    rw [List.flatMap_cons, List.append_assoc]
    cases frame with
    | served op =>
      obtain ⟨msg, harrives⟩ := hframes (.served op) (.head _)
      obtain ⟨s', -, htrace, -, -⟩ := op.accept_step overflow hV hlocal hfits harrives s
        (frames.flatMap (Frame.bytes V) ++ closing)
      have hrest := ih (fun frame h => hframes frame (.tail _ h)) s'
      have hbytes : Frame.bytes V (.served op) = op.bytes V := rfl
      rw [hbytes, htrace, Frame.Harmless, ← hrest]
      exact ⟨fun h => (List.cons.inj h).2, fun h => congrArg (_ :: ·) h⟩
    | unknown rpcId parameter request hne hunserved =>
      have hread := hV.uint32 rpcId
        (request.bytes V ++ (frames.flatMap (Frame.bytes V) ++ closing))
      have hbytes : Frame.bytes V (.unknown rpcId parameter request hne hunserved) ++
          (frames.flatMap (Frame.bytes V) ++ closing) = V.writeUint32 rpcId ++
            (request.bytes V ++ (frames.flatMap (Frame.bytes V) ++ closing)) :=
        List.append_assoc ..
      rw [hbytes]
      obtain ⟨s', htrace⟩ := server.trace_unknown (V := V) overflow impl s (by rw [hread])
        (by rw [hread]; exact hne) (by rw [hread]; exact hunserved)
      rw [htrace, hread]
      show (server.trace V overflow impl s' _).filterMap Handled.dispatched = [] ↔ _
      rw [server.trace_dispatched_eq_nil_iff, Frame.Harmless, List.append_assoc]

namespace Sample

/-- A stored item. -/
def put (key : item.Val) : Operation storeServer :=
  ⟨2, (1, { method [112] 1 with parameter := some item }), .call key, rfl, rfl⟩

/-- An item for an endpoint that the server does not have. -/
def strayPut (key : item.Val) : Frame storeServer :=
  .unknown 9 (some item) (.call key) (by decide) rfl

/-- A key whose encoding, behind its tag, reads as the id of `put`, an empty item, and a
goodbye. -/
def strayKey : item.Val := (⟨[4, 0], by decide⟩, ())

theorem put_arrives (key : item.Val) : (Frame.served (put key)).Arrives .leb128 :=
  ⟨_, .call (Payload.arrives_received Varint.leb128_lawful item_wellFormed (Nat.zero_le _))⟩

end Sample

theorem unknown_dispatches_iff_store :
    ∃ written : List UInt8,
      Frame.writeAll .leb128 [.served (Sample.put Sample.smallItem),
        Sample.strayPut Sample.strayKey] {} = .ok { written } ∧
      ((Sample.storeServer.trace .leb128 (fun _ _ => .empty) Sample.quiet ⟨[], (), false, 0⟩
          (.ofBytes (written ++ [0]))).filterMap Handled.dispatched = [1] ↔
        NamesNone .leb128 Sample.storeServer ([10, 2, 4, 0, 4] ++ [0])) :=
  unknown_dispatches_iff Varint.leb128_lawful Varint.leb128_local (fun _ _ => .empty)
    (Sample.quiet_responsesFit (by decide))
    [.served (Sample.put Sample.smallItem), Sample.strayPut Sample.strayKey]
    (by
      intro frame hframe
      simp only [List.mem_cons, List.not_mem_nil, or_false] at hframe
      rcases hframe with rfl | rfl
      · exact Sample.put_arrives _
      · exact Nat.zero_le _)
    [0] (.inr ⟨[], rfl⟩) ⟨[], (), false, 0⟩

/-- An item for an unknown endpoint stores an empty item. -/
theorem unknown_body_dispatched :
    Frame.writeAll .leb128 [Sample.strayPut Sample.strayKey] {} =
        .ok { written := [9, 10, 2, 4, 0, 4] } ∧
      Sample.storeServer.trace .leb128 (fun _ _ => .empty) Sample.quiet ⟨[], (), false, 0⟩
          (.ofBytes ([9, 10, 2, 4, 0, 4] ++ [0])) =
        [.unknown 8, .unknown 9,
          (Sample.put Sample.item.default).handledAs (.call Sample.item.default), .goodbye] ∧
      (Sample.storeServer.trace .leb128 (fun _ _ => .empty) Sample.quiet ⟨[], (), false, 0⟩
          (.ofBytes ([9, 10, 2, 4, 0, 4] ++ [0]))).filterMap Handled.dispatched ≠
        ([Sample.strayPut Sample.strayKey].takeWhile Frame.inRange).map
          (fun frame => frame.rpcId - 1) := by
  have htrace : Sample.storeServer.trace .leb128 (fun _ _ => .empty) Sample.quiet
      ⟨[], (), false, 0⟩ (.ofBytes ([9, 10, 2, 4, 0, 4] ++ [0])) =
        [.unknown 8, .unknown 9,
          (Sample.put Sample.item.default).handledAs (.call Sample.item.default), .goodbye] := rfl
  refine ⟨rfl, htrace, ?_⟩
  rw [htrace]
  decide

end SerialRpc
