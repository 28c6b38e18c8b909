import SerialRpc.Encoding.Footprint
import SerialRpc.Service.Requests

/-!
# What a connection makes a server hold (server_impl.cc:351-373, plugin 2530-2661)

A server decodes a request as a whole before it calls the handler. What all the requests of
a connection hold together has been sent byte by byte, whether the client is a client or
sends anything else.

- `Handled.weight`: what a round of `accept` hands to a handler.
- `Server.acceptRound_paid`: the bytes that a round reads pay for it.
- `accept_paid`: over a whole connection.
-/

namespace SerialRpc

open ByteStream

/-! ## Requests -/

def Payload.weight : (parameter : Option MessageType) → Payload parameter → Nat
  | none, _ => 0
  | some T, msg => T.weight msg

/-- What a request holds. -/
def Request.weight {parameter : Option MessageType} : Request parameter → Nat
  | .call msg | .subscribe msg => Payload.weight parameter msg
  | .unsubscribe => 0

/-- What a round of `accept` hands to a handler. -/
def Handled.weight : Handled → Nat
  | .unknown _ => 0
  | .request _ _ body => body.elim 0 Request.weight
  | .goodbye => 0

/-- What the rounds of `accept` hand to the handlers. -/
def weightOf (trace : List Handled) : Nat := (trace.map Handled.weight).sum

theorem weightOf_append (trace trace' : List Handled) :
    weightOf (trace ++ trace') = weightOf trace + weightOf trace' := by
  rw [weightOf, List.map_append, List.sum_append]
  rfl

theorem weightOf_singleton (handled : Handled) : weightOf [handled] = handled.weight :=
  Nat.add_zero _

theorem readRequest_paid (V : Varint) (parameter : Option MessageType) (inp : In) :
    Payload.weight parameter (readRequest V parameter inp).1 +
      (readRequest V parameter inp).2.unread.length ≤ inp.unread.length := by
  cases parameter with
  | none => exact (Nat.zero_add _).le
  | some T => exact MessageType.nested_paid T.switch_paid MaxNesting inp

/-- What a dispatch function reads, as far as it is handed on. -/
theorem Request.read_paid (V : Varint) (parameter : Option MessageType) (streaming : Bool)
    (inp : In) :
    ((Request.read V streaming parameter inp).1.elim 0 Request.weight) +
      (Request.read V streaming parameter inp).2.unread.length ≤ inp.unread.length := by
  have hflag := (Reader.read_unread_suffix Read.byte Err.baselib inp).length_le
  unfold Request.read
  dsimp only
  cases streaming with
  | true =>
    rw [if_pos rfl]
    split
    · exact (Nat.zero_add _).trans_le hflag
    · split
      · have hread := readRequest_paid V parameter (inp.read Read.byte Err.baselib).2
        split
        · exact (Nat.add_le_add_right (Nat.zero_le _) _).trans (hread.trans hflag)
        · exact hread.trans hflag
      · exact (Nat.zero_add _).trans_le hflag
  | false =>
    rw [if_neg Bool.false_ne_true]
    have hread := readRequest_paid V parameter inp
    split
    · exact (Nat.add_le_add_right (Nat.zero_le _) _).trans hread
    · exact hread

/-! ## Rounds -/

namespace Server

variable {V : Varint} {σ : Type} {overflow : (capacity : Nat) → Str → InlineString capacity}
  {server : Server} {impl : Implementation σ}

/-- What is done with a request reads nothing. -/
theorem methodAnswer_inp {m : EchoMethod} {handler : Handler σ m} {conn conn' : Conn σ}
    {request : Request m.parameter} (h : EchoMethod.answer V handler conn request = .ok conn') :
    conn'.inp = conn.inp := by
  cases request with
  | call msg =>
    simp only [EchoMethod.answer] at h
    split at h
    · cases h
      exact conn.run_inp _
    · rw [sendReply_inp h, Conn.run_inp]
  | subscribe msg =>
    cases h
    exact conn.run_reply_inp _
  | unsubscribe =>
    cases h
    exact conn.run_reply_inp _

theorem answer_inp {endpoint : Endpoint} {conn conn' : Conn σ}
    {request : Request (Endpoint.requestType endpoint)}
    (h : server.answer V overflow impl endpoint conn request = .ok conn') :
    conn'.inp = conn.inp := by
  obtain ⟨i, m⟩ := endpoint
  cases i with
  | zero =>
    cases request with
    | call request =>
      obtain ⟨out, -, h⟩ := bind_eq_ok h
      cases h
      rfl
    | subscribe request =>
      cases h
      rfl
    | unsubscribe =>
      cases h
      rfl
  | succ i => exact methodAnswer_inp h

/-- A dispatch function reads the request, and nothing behind it. -/
theorem dispatch_inp {rpcId : UInt32} {endpoint : Endpoint} {conn conn' : Conn σ}
    (hserved : server.handleRequest rpcId = some endpoint)
    (h : server.dispatch V overflow impl rpcId conn = .ok conn') :
    conn'.inp = (Endpoint.readBody V endpoint conn.inp).2 := by
  rw [Server.dispatch_eq, hserved] at h
  simp only [Conn.serve] at h
  split at h
  · cases h
    rfl
  · exact answer_inp h

theorem acceptRequest_inp {rpcId : UInt32} {endpoint : Endpoint} {conn conn' : Conn σ}
    (hserved : server.handleRequest rpcId = some endpoint)
    (h : server.acceptRequest V overflow impl rpcId conn = .ok conn') :
    conn'.inp = (Endpoint.readBody V endpoint conn.inp).2 := by
  obtain ⟨conn'', hdispatch, h⟩ := bind_eq_ok h
  have hinp := dispatch_inp hserved hdispatch
  split at h
  · cases h
    rw [stopAccept_inp, hinp]
  · cases h
    exact hinp

/-- What a round hands to a handler is paid for by what it reads. -/
theorem acceptRound_paid (V : Varint) (overflow : (capacity : Nat) → Str → InlineString capacity)
    (server : Server) (impl : Implementation σ) (s : Serving σ) (inp : In) :
    weightOf (server.handled V inp) +
        (if (server.acceptRound V overflow impl s inp).again then
          (server.acceptRound V overflow impl s inp).reader.unread.length else 0) ≤
      inp.unread.length := by
  have hid := (Reader.read_unread_suffix V.readUint32 Err.baselib inp).length_le
  have hsilent : ∀ conn : Conn σ, conn.inp.unread <:+ (inp.read V.readUint32 .baselib).2.unread →
      conn.inp.unread.length ≤ inp.unread.length :=
    fun conn h => h.length_le.trans hid
  unfold handled acceptRound
  dsimp only
  split
  · exact Nat.zero_le _
  · split
    · exact Nat.zero_le _
    · cases hserved : server.handleRequest ((inp.read V.readUint32 .baselib).1 - 1) with
      | none =>
        dsimp only
        split
        · exact Nat.zero_le _
        · rename_i conn' haccept
          split
          · exact (Nat.zero_add _).trans_le (hsilent conn' (acceptRequest_suffix haccept))
          · exact Nat.zero_le _
      | some endpoint =>
        have hbody := Request.read_paid V (Endpoint.requestType endpoint)
          (Endpoint.streaming endpoint) (inp.read V.readUint32 .baselib).2
        dsimp only
        rw [weightOf_singleton]
        split
        · exact ((Nat.le_add_right _ _).trans hbody).trans hid
        · rename_i conn' haccept
          split
          · rw [acceptRequest_inp hserved haccept]
            exact hbody.trans hid
          · exact ((Nat.le_add_right _ _).trans hbody).trans hid

end Server

/-- Whatever a client sends on a connection, if it is a client: the requests that the server
decodes and hands to its handlers, those that end in an error included, hold together no more
string bytes and vector elements than it has sent bytes. -/
theorem accept_paid (V : Varint) {σ : Type}
    (overflow : (capacity : Nat) → Str → InlineString capacity) (server : Server)
    (impl : Implementation σ) (s : Serving σ) (inp : In) :
    weightOf (server.trace V overflow impl s inp) ≤ inp.unread.length := by
  have hproductive : Productive (server.acceptRound V overflow impl) :=
    Server.acceptRound_productive
  generalize hlength : inp.unread.length = n
  induction n using Nat.strong_induction_on generalizing s inp with
  | h n ih =>
    have hround := Server.acceptRound_paid V overflow server impl s inp
    rw [Server.trace, Reader.loopLog_eq hproductive, weightOf_append]
    cases hagain : (server.acceptRound V overflow impl s inp).again with
    | false =>
      rw [hagain] at hround
      exact hlength ▸ hround
    | true =>
      rw [hagain] at hround
      -- A round that goes on has read something, and the rest pays for itself.
      have hless := hproductive s inp hagain
      have hrest := ih _ (hlength ▸ hless) (server.acceptRound V overflow impl s inp).state
        (server.acceptRound V overflow impl s inp).reader rfl
      simp only [if_true] at hround ⊢
      unfold Server.trace at hrest
      omega

end SerialRpc
