import Mathlib.Data.List.TakeWhile
import SerialRpc.Client.Completion
import SerialRpc.Client.Lifetime
import SerialRpc.Client.Replies

/-!
# Subscriptions (client.cc:36-46, 212-227, client.h:250-348,
protoc_serialrpc_plugin.cc:3003-3090)

A stub's `subscribe_X` registers its callback and then sends the request; `unsubscribe_X`
sends its request, and unregisters the callback when the reply is there. Both look up the
event's id, which is the same for all threads. The server handles the requests in order,
and emits events from the beginning of `subscribe_X` to the end of `unsubscribe_X`.

- `Session`: a client with the threads in a stub's functions, and the server behind it.
- `Replied`: a call of the client that returns without an error has been given a reply.
- `Registered`: what the callback table says about the requests (`registered_preserved`).
- `events_registered`: where no `unsubscribe_X` unregisters what a later request has
  registered, every event finds its callback.
-/

namespace SerialRpc.Client

/-! ## A stub and its server -/

/-- The functions of a stub for a method that streams. -/
inductive StubOp where
  /-- With a request or without one. -/
  | subscribe (request : Bool)
  | unsubscribe
deriving DecidableEq, Repr

/-- Where a thread is in a function of the stub. -/
inductive StubPc where
  | idle
  -- `subscribe_X`
  | setCallback (request : Bool)
  | register (request : Bool)
  | subscribing
  | subscribed
  -- `unsubscribe_X`
  | unsubscribing
  | unregister
  | clearCallback
  | unsubscribed
deriving DecidableEq, Repr

/-- What the server has written. -/
inductive FromServer where
  /-- A `Reply` or an `ErrorReply`. -/
  | reply (ok : Bool)
  /-- An `Event` for X. -/
  | event
  | other (input : Input)
deriving DecidableEq, Repr

def FromServer.isReply : FromServer → Bool
  | .reply _ => true
  | .event | .other _ => false

/-- A client whose threads use a stub, and the server behind the connection. -/
structure Session where
  client : System := {}
  stub : CallId → StubPc := fun _ => .idle
  /-- `X_cb` is set. -/
  callback : Bool := false
  /-- `event_callbacks` has X. -/
  registered : Bool := false
  /-- The input worker has read the id of an `Event` for X. -/
  event : Bool := false
  /-- How many requests the server has answered. -/
  answered : Nat := 0
  /-- It is in the handler of the next one. -/
  handling : Bool := false
  /-- `subscribe_X` has begun, and no `unsubscribe_X` has returned since. -/
  live : Bool := false
  /-- What the input worker has still to read. -/
  sent : List FromServer := []
  /-- Ghost: the threads that have registered the callback. -/
  registrations : List CallId := []

/-- A turn of a thread in the stub or in the client, of the input worker, or of the server. -/
inductive SessionAction where
  | begin (t : CallId) (op : StubOp)
  | advance (t : CallId)
  | client (a : Action)
  /-- The input worker reads what the server has written next. -/
  | read
  /-- It looks up the callback, and reads the event's body with or without an error. -/
  | handleEvent (ok : Bool)
  /-- The server begins to handle the next request. -/
  | handle
  | answer (ok : Bool)
  | emit
  | send (input : Input)
deriving DecidableEq, Repr

/-- The request of a thread that has registered the callback. -/
def StubPc.subscribes : StubPc → Bool
  | .subscribing | .subscribed => true
  | _ => false

/-- Where `subscribe_X` has not come to the client yet. -/
def StubPc.registers : StubPc → Bool
  | .setCallback _ | .register _ => true
  | _ => false

def StubPc.unsubscribes : StubPc → Bool
  | .unsubscribing | .unregister | .clearCallback | .unsubscribed => true
  | _ => false

namespace Session

/-- The requests, in the order in which the server receives them. -/
abbrev requests (s : Session) : List CallId := s.client.shared.visible

/-- The input worker reads from the connection only what the server has written; threads that
are in the stub make no other calls. -/
def allows (s : Session) : Action → Bool
  | .invoke t _ => s.stub t = .idle
  | .caller _ _ _ => true
  | .worker input _ _ => s.event = false ∧ (s.client.worker = .read false → input = .fails)

def stubAt (s : Session) (t : CallId) (pc : StubPc) : Session :=
  { s with stub := Function.update s.stub t pc }

/-- A turn of the client's. -/
def clientStep (s : Session) (a : Action) : Option Session :=
  (s.client.step a).map fun client => { s with client }

/-- A stub's thread takes its next step. -/
def advance (s : Session) (t : CallId) : Option Session :=
  match s.stub t with
  | .setCallback request => some { s.stubAt t (.register request) with callback := true }
  | .register request =>
    Session.clientStep { s.stubAt t .subscribing with
      registered := true
      registrations := s.registrations ++ [t] }
      (.invoke t (.call (if request then .subscribe else .unsubscribe)))
  | .subscribing =>
    if (s.client.callers t).hasReturned then some (s.stubAt t .subscribed) else none
  | .unsubscribing =>
    match s.client.callers t with
    | .returned ok => some (s.stubAt t (if ok then .unregister else .unsubscribed))
    | _ => none
  | .unregister => some { s.stubAt t .clearCallback with registered := false }
  | .clearCallback => some { s.stubAt t .unsubscribed with callback := false }
  | .idle | .subscribed | .unsubscribed => none

/-- The input worker begins with the next message. -/
def read (s : Session) : Option Session :=
  if s.client.worker = .read false ∧ s.event = false then
    match s.sent with
    | [] => none
    | .reply ok :: sent =>
      Session.clientStep { s with sent } (.worker (if ok then .reply else .errorReply) true 0)
    | .event :: sent =>
      if s.client.shared.worker = .running then some { s with event := true, sent } else none
    | .other input :: sent => Session.clientStep { s with sent } (.worker input true 0)
  else none

/-- One turn. -/
def step (s : Session) : SessionAction → Option Session
  | .begin t op =>
    if s.stub t = .idle ∧ s.client.callers t = .idle then
      match op with
      | .subscribe request => some (s.stubAt t (.setCallback request))
      | .unsubscribe => (s.stubAt t .unsubscribing).clientStep (.invoke t (.call .unsubscribe))
    else none
  | .advance t => s.advance t
  | .client a => if s.allows a then s.clientStep a else none
  | .read => s.read
  -- `handle_event` fails for an id without a callback (client.cc:212-227).
  | .handleEvent ok =>
    if s.event then
      Session.clientStep { s with event := false } (.worker (.message (s.registered && ok)) true 0)
    else none
  | .handle =>
    match s.requests[s.answered]? with
    | some t =>
      if s.handling then none
      else some { s with handling := true, live := s.live || (s.stub t).subscribes }
    | none => none
  -- A handler's return and its reply; nobody else writes a reply.
  | .answer ok =>
    match s.requests[s.answered]? with
    | some t =>
      if s.handling then
        some { s with
          handling := false
          answered := s.answered + 1
          live := s.live && !(s.stub t).unsubscribes
          sent := s.sent ++ [.reply ok] }
      else none
    | none => none
  | .emit => if s.live then some { s with sent := s.sent ++ [.event] } else none
  | .send input =>
    if input.isReply then none else some { s with sent := s.sent ++ [.other input] }

end Session

/-! ## What a call that returns without an error has been given -/

/-- The call whose error the worker has set, and which it is notifying. -/
def WorkerPc.condemns : WorkerPc → List CallId
  | .handlerNotify c _ | .handlerWake c _ | .handlerNotified c _ => [c]
  | _ => []

/-- The functions that send a request. -/
def CallerPc.calls : CallerPc → Bool
  | .idle | .callLock _ | .checkLoad _ | .checkLock _ | .checkReload _ | .checkUnlock _ _
  | .writeId _ | .push _ | .body _ _ | .callUnlock | .await | .failPop | .failSetError _
  | .failNotify _ | .failWake _ | .failNotified _ | .failLoad | .failSwap _ | .failClose
  | .failUnlock | .returned _ => true
  | _ => false

/-- A call has an error or a reply. -/
def CallData.Claimed (data : CallData) : Prop := data.hasError = true ∨ data.reply ≠ none

section Points

variable {who : Thread} {sh sh' : Shared} {io : Bool} {wake : Nat} {access : Access}

/-- Errors and replies stay. -/
theorem Access.apply_claimed (happly : access.apply who sh = some sh') (c : CallId) :
    ((sh.data c).hasError = true → (sh'.data c).hasError = true) ∧
    (access = .setError c → (sh'.data c).hasError = true) ∧
    ((sh.data c).reply ≠ none → (sh'.data c).reply ≠ none) ∧
    (∀ number, access = .pop (.reply number) → sh.pending.head? = some c →
      (sh'.data c).reply ≠ none) := by
  rw [Access.apply_data happly c]
  clear happly
  cases access <;> simp only [Access.onData] <;> (repeat' split) <;> simp_all
  case pop.isTrue use _ => cases use <;> simp [PopUse.record]

/-- The worker notifies a call it has taken off for a reply, or set the error of. -/
theorem WorkerPc.next_condemns {input : Input} {pc pc' : WorkerPc}
    (hnext : pc.next sh input io wake = some (access, pc')) (c : CallId) :
    (∀ waiter, access = .notify c waiter → c ∈ pc.answering ∨ c ∈ pc.condemns) ∧
    (c ∈ pc'.condemns → c ∈ pc.condemns ∨ access = .setError c) ∧
    (c ∈ pc'.answering → c ∈ pc.answering ∨
      ∃ number, access = .pop (.reply number) ∧ sh.pending.head? = some c) := by
  cases WorkerPc.next_cases hnext with
  | _ => simp_all [WorkerPc.answering, Resume.answering, WorkerPc.condemns]

/-- A call returns without an error when it has been notified. -/
theorem CallerPc.next_calls {t : CallId} {pc pc' : CallerPc}
    (hnext : pc.next t sh io wake = some (access, pc')) (hcalls : pc.calls = true) :
    pc'.calls = true ∧ (pc' = .returned true →
      (sh.data t).waiter = .notified ∧ (sh.data t).hasError = false) := by
  cases CallerPc.next_cases hnext with
  | _ => simp_all [CallerPc.calls]

/-- A caller reads no reply, sends nothing for another, and has not returned yet. -/
theorem CallerPc.next_reads {t : CallId} {pc pc' : CallerPc}
    (hnext : pc.next t sh io wake = some (access, pc')) :
    access.reads = 0 ∧ (∀ u, u ∈ access.sends → u = t) ∧ pc.hasReturned = false := by
  cases CallerPc.next_cases hnext with
  | _ => simp [Access.reads, Access.sends, CallerPc.hasReturned]

/-- The worker counts the replies that it reads. -/
theorem WorkerPc.next_reads {input : Input} {pc pc' : WorkerPc}
    (hnext : pc.next sh input io wake = some (access, pc')) :
    access.reads = if pc = .read false ∧ input.isReply then 1 else 0 := by
  cases WorkerPc.next_cases hnext with
  | _ => simp_all [Access.reads, Input.isReply]

end Points

/-- Who notifies a call has set its error, or has taken it off the list for a reply. -/
structure Replied (s : System) : Prop where
  ledger : Ledger s
  worker : ∀ c ∈ s.worker.answering, (s.shared.data c).reply ≠ none
  condemned : ∀ c ∈ s.worker.condemns, (s.shared.data c).hasError = true
  callers : ∀ t, ∀ c ∈ (s.callers t).settles, (s.shared.data c).hasError = true
  claimed : ∀ c, (s.shared.data c).waiter ≠ .waiting → (s.shared.data c).Claimed

theorem replied_init : Replied {} where
  ledger := Ledger.init
  worker := nofun
  condemned := nofun
  callers _ := nofun
  claimed _ h := absurd rfl h

theorem WorkerPc.condemns_carried {pc : WorkerPc} {c : CallId} (h : c ∈ pc.condemns) :
    c ∈ pc.carried := by
  cases pc <;> simp_all [WorkerPc.condemns, WorkerPc.carried, WorkerPc.failing]

namespace Replied

variable {s : System}

/-- A call that waits no more has been claimed. -/
theorem apply_claimed {who : Thread} {shared : Shared} {access : Access} (hs : Replied s)
    (happly : access.apply who s.shared = some shared)
    (hnotify : ∀ c waiter, access = .notify c waiter → (s.shared.data c).Claimed) (c : CallId)
    (h : (shared.data c).waiter ≠ .waiting) : (shared.data c).Claimed := by
  obtain ⟨herror, -, hreply, -⟩ := Access.apply_claimed happly c
  refine Or.imp herror hreply ?_
  by_cases hwaiter : ∃ waiter, access = .notify c waiter
  · obtain ⟨waiter, hwaiter⟩ := hwaiter
    exact hnotify c waiter hwaiter
  · rw [Access.apply_waiter happly fun waiter heq => hwaiter ⟨waiter, heq⟩] at h
    exact hs.claimed c h

/-- A thread that begins a function has not been put on the list. -/
theorem invoke (hs : Replied s) {t : CallId} {op : Op} (hidle : s.callers t = .idle)
    (hledger : Ledger (s.callerAt t (s.shared.withData t fun _ => op.callData) op.entry)) :
    Replied (s.callerAt t (s.shared.withData t fun _ => op.callData) op.entry) := by
  refine ⟨hledger, fun c hc => ?_, fun c hc => ?_, fun u c hc => ?_, fun c hc => ?_⟩
  · have hpushed := hs.ledger.worker_pushed (List.mem_append_right _ hc)
    rw [System.callerAt_shared, hs.ledger.withData_pushed hidle _ hpushed]
    exact hs.worker c hc
  · have hpushed := hs.ledger.worker_pushed (WorkerPc.condemns_carried hc)
    rw [System.callerAt_shared, hs.ledger.withData_pushed hidle _ hpushed]
    exact hs.condemned c hc
  · by_cases heq : u = t
    · rw [heq, System.callerAt_self] at hc
      cases op <;> exact nomatch hc
    · rw [System.callerAt_of_ne s _ _ heq] at hc
      have hpushed := hs.ledger.caller_pushed (CallerPc.settles_carried hc)
      rw [System.callerAt_shared, hs.ledger.withData_pushed hidle _ hpushed]
      exact hs.callers u c hc
  · rw [System.callerAt_shared] at hc ⊢
    by_cases heq : c = t
    · rw [heq, Shared.withData_self] at hc
      cases op <;> exact absurd rfl hc
    · rw [s.shared.withData_of_ne _ heq] at hc ⊢
      exact hs.claimed c hc

end Replied

/-- Every step keeps it that who notifies a call has replied to it. -/
theorem replied_preserved : Transition.Preserves System.step (fun _ _ => True) Replied := by
  intro s a s' hs _ hstep
  have hledger : Ledger s' := hs.ledger.step hstep
  obtain ⟨t, op, -, hidle, rfl⟩ | ⟨t, io, wake, access, pc, shared, -, hnext, happly, rfl⟩ |
    ⟨input, io, wake, access, pc, shared, -, -, hnext, happly, rfl⟩ := System.step_cases hstep
  · exact hs.invoke hidle hledger
  · refine ⟨hledger, fun c hc => (Access.apply_claimed happly c).2.2.1 (hs.worker c hc),
      fun c hc => (Access.apply_claimed happly c).1 (hs.condemned c hc), fun u c hc => ?_,
      hs.apply_claimed happly fun c waiter h =>
        .inl (hs.callers t c ((CallerPc.next_settles hnext c).1 waiter h))⟩
    by_cases heq : u = t
    · rw [heq, System.callerAt_self] at hc
      rcases (CallerPc.next_settles hnext c).2 hc with h | h
      · exact (Access.apply_claimed happly c).1 (hs.callers t c h)
      · exact (Access.apply_claimed happly c).2.1 h
    · rw [System.callerAt_of_ne s shared pc heq] at hc
      exact (Access.apply_claimed happly c).1 (hs.callers u c hc)
  · refine ⟨hledger, fun c hc => ?_, fun c hc => ?_,
      fun u c hc => (Access.apply_claimed happly c).1 (hs.callers u c hc),
      hs.apply_claimed happly fun c waiter h =>
        ((WorkerPc.next_condemns hnext c).1 waiter h).symm.imp (hs.condemned c) (hs.worker c)⟩
    · rcases (WorkerPc.next_condemns hnext c).2.2 hc with h | ⟨number, h, hhead⟩
      · exact (Access.apply_claimed happly c).2.2.1 (hs.worker c h)
      · exact (Access.apply_claimed happly c).2.2.2 number h hhead
    · rcases (WorkerPc.next_condemns hnext c).2.1 hc with h | h
      · exact (Access.apply_claimed happly c).1 (hs.condemned c h)
      · exact (Access.apply_claimed happly c).2.1 h

theorem Replied.step {s s' : System} {a : Action} (hs : Replied s) (h : s.step a = some s') :
    Replied s' :=
  replied_preserved s a s' hs trivial h

namespace System

variable {s s' : System} {a : Action}

/-- The replies an action begins to read. -/
def reads (s : System) : Action → Nat
  | .worker input _ _ => if s.worker = .read false ∧ input.isReply then 1 else 0
  | .invoke _ _ | .caller _ _ _ => 0

/-- Requests are added behind those that there are, by threads that have not returned. -/
theorem step_visible (h : s.step a = some s') :
    (∃ more, s'.shared.visible = s.shared.visible ++ more ∧
      ∀ u ∈ more, (s.callers u).hasReturned = false) ∧
    s'.shared.replies = s.shared.replies + s.reads a := by
  obtain ⟨t, op, rfl, -, rfl⟩ | ⟨t, io, wake, access, pc, shared, rfl, hnext, happly, rfl⟩ |
    ⟨input, io, wake, access, pc, shared, rfl, -, hnext, happly, rfl⟩ := step_cases h
  · exact ⟨⟨[], (List.append_nil _).symm, nofun⟩, rfl⟩
  · obtain ⟨hreads, hsends, hreturned⟩ := CallerPc.next_reads hnext
    obtain ⟨hvisible, hreplies, -⟩ := Access.apply_counts happly
    refine ⟨⟨access.sends, hvisible, fun u hu => ?_⟩, ?_⟩
    · rw [hsends u hu]
      exact hreturned
    · rw [callerAt_shared, hreplies, hreads]
      rfl
  · obtain ⟨hvisible, hreplies, -⟩ := Access.apply_counts happly
    rw [(WorkerPc.next_counts hnext).1] at hvisible
    refine ⟨⟨[], hvisible, nofun⟩, ?_⟩
    show shared.replies = _
    rw [hreplies, WorkerPc.next_reads hnext]
    rfl

/-- Threads that have returned stay where they are. -/
theorem step_returned (h : s.step a = some s') {u : CallId}
    (hu : (s.callers u).hasReturned = true) : s'.callers u = s.callers u := by
  obtain ⟨t, op, -, hidle, rfl⟩ | ⟨t, io, wake, access, pc, shared, -, hnext, -, rfl⟩ |
    ⟨input, io, wake, access, pc, shared, -, -, -, -, rfl⟩ := step_cases h
  · refine callerAt_of_ne s _ _ fun heq => ?_
    rw [heq, hidle] at hu
    exact nomatch hu
  · refine callerAt_of_ne s _ _ fun heq => ?_
    rw [heq, (CallerPc.next_reads hnext).2.2] at hu
    exact nomatch hu
  · rfl

/-- A reply is given for the number that the worker has asked for. -/
theorem step_reply (h : s.step a = some s') {c : CallId} {number : Nat}
    (hreply : (s'.shared.data c).reply = some number) :
    (s.shared.data c).reply = some number ∨ s.worker.asked = some number := by
  obtain ⟨t, op, -, -, rfl⟩ | ⟨t, io, wake, access, pc, shared, -, hnext, happly, rfl⟩ |
    ⟨input, io, wake, access, pc, shared, -, -, hnext, happly, rfl⟩ := step_cases h
  · rw [callerAt_shared, Shared.withData_data] at hreply
    split at hreply
    · cases op <;> exact nomatch hreply
    · exact .inl hreply
  · refine (Access.apply_reply happly hreply).imp id fun h => ?_
    exact absurd h.1 (CallerPc.next_pop hnext number)
  · exact (Access.apply_reply happly hreply).imp id fun h => (WorkerPc.next_asked hnext).2 h.1

end System

/-- What a thread knows that has returned without an error: the server had answered, and its own
request. -/
structure Replying (s : System) : Prop where
  numbered : Numbered s
  uncrossed : s.Uncrossed
  replied : Replied s
  numbers : ∀ c number, (s.shared.data c).reply = some number → number < s.shared.replies

theorem replying_init : Replying {} where
  numbered := numbered_init
  uncrossed := nofun
  replied := replied_init
  numbers := nofun

/-- A step by which the worker pops in turn keeps the replies in step with the requests. -/
theorem Replying.step {s s' : System} {a : Action} (hs : Replying s) (hserved : s.Served a)
    (hturn : s.PopsInTurn a) (h : s.step a = some s') : Replying s' where
  numbered := numbered_preserved s a s' hs.numbered hserved h
  uncrossed := hs.numbered.uncrossed_step hs.uncrossed hturn h
  replied := hs.replied.step h
  numbers c number hreply := by
    rw [(System.step_visible h).2]
    rcases System.step_reply h hreply with hbefore | hasked
    · exact Nat.lt_add_right _ (hs.numbers c number hbefore)
    · have := (hs.numbered.asked number hasked).1
      omega

/-! ## Requests, and what has become of registrations -/

namespace Session

variable {s s' : Session}

/-- Time goes on: requests are added, and a thread keeps to the function it is in. -/
structure Grows (s s' : Session) : Prop where
  requests : ∃ more, s'.requests = s.requests ++ more
  replies : s.client.shared.replies ≤ s'.client.shared.replies
  kind : ∀ u ∈ s.requests, (s'.stub u).subscribes = (s.stub u).subscribes ∧
    (s'.stub u).unsubscribes = (s.stub u).unsubscribes
  returned : ∀ u, u ∉ s.requests → (s.client.callers u).hasReturned = true →
    u ∉ s'.requests ∧ (s'.client.callers u).hasReturned = true

/-- Before the request with a number, and behind the last `unsubscribe_X` before it, there is a
`subscribe_X`, or it is one. -/
def Fresh (s : Session) (number : Nat) : Prop :=
  ∃ k u, k ≤ number ∧ s.requests[k]? = some u ∧ (s.stub u).subscribes = true ∧
    ∀ j w, k < j → j < number → s.requests[j]? = some w → (s.stub w).unsubscribes = false

/-- A thread's subscription has ended before the worker has read the last reply, or it has never
begun. -/
def Undone (s : Session) (u : CallId) : Prop :=
  (u ∉ s.requests ∧ (s.client.callers u).hasReturned = true) ∨
  ∃ k n w, k < n ∧ n < s.client.shared.replies ∧ s.requests[k]? = some u ∧
    s.requests[n]? = some w ∧ (s.stub w).unsubscribes = true

namespace Grows

theorem of_eq (hclient : s'.client = s.client) (hstub : s'.stub = s.stub) : Grows s s' where
  requests := ⟨[], by rw [Session.requests, hclient, List.append_nil]⟩
  replies := by rw [hclient]
  kind u _ := by simp only [hstub, and_self]
  returned u hu hreturned := by
    rw [Session.requests, hclient]
    exact ⟨hu, hreturned⟩

/-- Time goes on behind time that has gone on. -/
theorem trans {r : Session} (h : Grows s r) (h' : Grows r s') : Grows s s' where
  requests := by
    obtain ⟨more, hmore⟩ := h.requests
    obtain ⟨more', hmore'⟩ := h'.requests
    exact ⟨more ++ more', by rw [hmore', hmore, List.append_assoc]⟩
  replies := Nat.le_trans h.replies h'.replies
  kind u hu := by
    obtain ⟨more, hmore⟩ := h.requests
    obtain ⟨hsub, hunsub⟩ := h'.kind u (hmore ▸ List.mem_append_left _ hu)
    exact ⟨hsub.trans (h.kind u hu).1, hunsub.trans (h.kind u hu).2⟩
  returned u hu hreturned := by
    obtain ⟨hmid, hreturned⟩ := h.returned u hu hreturned
    exact h'.returned u hmid hreturned

/-- A stub moves on, and the requests stay. -/
theorem stubAt {t : CallId} {pc : StubPc} (h : t ∈ s.requests →
    pc.subscribes = (s.stub t).subscribes ∧ pc.unsubscribes = (s.stub t).unsubscribes) :
    Grows s (s.stubAt t pc) where
  requests := ⟨[], (List.append_nil _).symm⟩
  replies := Nat.le_refl _
  kind u hu := by
    by_cases heq : u = t
    · subst heq
      simpa [Session.stubAt] using h hu
    · simp [Session.stubAt, Function.update_of_ne heq]
  returned u hu hreturned := ⟨hu, hreturned⟩

/-- A step of the client can only add requests. -/
theorem client {client : System} {a : Action} (h : s.client.step a = some client) :
    Grows s { s with client } where
  requests := (System.step_visible h).1.imp fun _ hmore => hmore.1
  replies := by
    rw [(System.step_visible h).2]
    exact Nat.le_add_right _ _
  kind u _ := ⟨rfl, rfl⟩
  returned u hu hreturned := by
    obtain ⟨more, hmore, hactive⟩ := (System.step_visible h).1
    refine ⟨fun hmem => ?_, ?_⟩
    · rw [show Session.requests { s with client } = s.requests ++ more from hmore,
        List.mem_append] at hmem
      exact nomatch hreturned.symm.trans (hactive u (hmem.resolve_left hu))
    · exact (congrArg CallerPc.hasReturned (System.step_returned h hreturned)).trans hreturned

/-- A request keeps its number. -/
theorem getElem? (h : Grows s s') {k : Nat} {u : CallId} (hu : s.requests[k]? = some u) :
    s'.requests[k]? = some u := by
  obtain ⟨more, hmore⟩ := h.requests
  rw [hmore, List.getElem?_append_left (List.getElem?_eq_some_iff.mp hu).1, hu]

/-- A number that had a subscription before it still has one. -/
theorem fresh (h : Grows s s') {number : Nat} (hle : number ≤ s.requests.length)
    (hfresh : s.Fresh number) : s'.Fresh number := by
  obtain ⟨k, u, hk, hu, hsub, hunsub⟩ := hfresh
  refine ⟨k, u, hk, h.getElem? hu, ?_, fun j w hkj hj hw => ?_⟩
  · rw [(h.kind u (List.mem_of_getElem? hu)).1, hsub]
  · obtain ⟨more, hmore⟩ := h.requests
    rw [hmore, List.getElem?_append_left (Nat.lt_of_lt_of_le hj hle)] at hw
    rw [(h.kind w (List.mem_of_getElem? hw)).2]
    exact hunsub j w hkj hj hw

/-- What is undone stays undone. -/
theorem undone (h : Grows s s') {u : CallId} (hundone : s.Undone u) : s'.Undone u := by
  rcases hundone with ⟨hu, hreturned⟩ | ⟨k, n, w, hkn, hn, hu, hw, hunsub⟩
  · exact .inl (h.returned u hu hreturned)
  · refine .inr ⟨k, n, w, hkn, Nat.lt_of_lt_of_le hn h.replies, h.getElem? hu, h.getElem? hw, ?_⟩
    rw [(h.kind w (List.mem_of_getElem? hw)).2, hunsub]

end Grows

/-- An event was emitted in a subscription: behind as many replies as stand before it, no
`unsubscribe_X` had been handled since. -/
structure Fed (s : Session) : Prop where
  handled : s.answered + s.handling.toNat ≤ s.requests.length
  counted : s.client.shared.replies + s.sent.countP FromServer.isReply = s.answered
  reading : s.event = true → s.client.worker = .read false
  live : s.live = true → s.Fresh s.answered
  event : s.event = true → s.Fresh s.client.shared.replies
  sent : ∀ before after, s.sent = before ++ .event :: after →
    s.Fresh (s.client.shared.replies + before.countP FromServer.isReply)
  others : ∀ input, .other input ∈ s.sent → input.isReply = false

theorem fed_init : Fed {} where
  handled := Nat.le_refl _
  counted := rfl
  reading := nofun
  live := nofun
  event := nofun
  sent before _ h := by cases before <;> exact nomatch h
  others _ := nofun

namespace Fed

/-- No more is answered than was asked. -/
theorem answered_le (hs : Fed s) : s.answered ≤ s.requests.length :=
  Nat.le_trans (Nat.le_add_right _ _) hs.handled

/-- No more replies have been read than requests were sent. -/
theorem replies_le (hs : Fed s) : s.client.shared.replies ≤ s.requests.length :=
  Nat.le_trans (hs.counted ▸ Nat.le_add_right _ _) hs.answered_le

/-- What the server has written comes before what it has not. -/
theorem before_le (hs : Fed s) {before after : List FromServer} (h : s.sent = before ++ after) :
    s.client.shared.replies + before.countP FromServer.isReply ≤ s.requests.length := by
  have hcounted := hs.counted
  rw [h, List.countP_append] at hcounted
  have := hs.answered_le
  omega

/-- Threads and the input worker change nothing about it, apart from what the worker reads. -/
theorem grows (hs : Fed s) (h : Grows s s') (hanswered : s'.answered = s.answered)
    (hhandling : s'.handling = s.handling) (hlive : s'.live = s.live) (hevent : s'.event = s.event)
    (hsent : s'.sent = s.sent) (hreplies : s'.client.shared.replies = s.client.shared.replies)
    (hreading : s'.event = true → s'.client.worker = .read false) : Fed s' where
  handled := by
    obtain ⟨more, hmore⟩ := h.requests
    rw [hanswered, hhandling, hmore, List.length_append]
    exact Nat.le_trans hs.handled (Nat.le_add_right _ _)
  counted := by rw [hreplies, hsent, hanswered, hs.counted]
  reading := hreading
  live hl := by
    rw [hanswered]
    exact h.fresh hs.answered_le (hs.live (hlive ▸ hl))
  event he := by
    rw [hreplies]
    exact h.fresh hs.replies_le (hs.event (hevent ▸ he))
  sent before after heq := by
    rw [hreplies]
    rw [hsent] at heq
    exact h.fresh (hs.before_le heq) (hs.sent before after heq)
  others := by
    rw [hsent]
    exact hs.others

/-- The server takes the next request up. -/
theorem handle (hs : Fed s) {t : CallId} (ht : s.requests[s.answered]? = some t) :
    Fed { s with handling := true, live := s.live || (s.stub t).subscribes } where
  handled := (List.getElem?_eq_some_iff.mp ht).1
  counted := hs.counted
  reading := hs.reading
  live hl := by
    rcases Bool.or_eq_true_iff.mp hl with hl | hsub
    · exact hs.live hl
    · exact ⟨s.answered, t, Nat.le_refl _, ht, hsub,
        fun j w hlt hgt => absurd (Nat.lt_trans hlt hgt) (Nat.lt_irrefl _)⟩
  event := hs.event
  sent := hs.sent
  others := hs.others

/-- An event in what the server has written and writes next. -/
theorem event_of_append {sent before after : List FromServer} {message : FromServer}
    (h : sent ++ [message] = before ++ .event :: after) :
    (∃ after', sent = before ++ .event :: after') ∨ (message = .event ∧ before = sent) := by
  rcases List.eq_nil_or_concat after with rfl | ⟨init, last, rfl⟩
  · obtain ⟨hsent, hmessage⟩ := List.append_inj' h rfl
    -- It is the message that is written now.
    exact .inr ⟨List.head_eq_of_cons_eq hmessage, hsent.symm⟩
  · rw [List.concat_eq_append, ← List.cons_append, ← List.append_assoc] at h
    exact .inl ⟨init, (List.append_inj' h rfl).1⟩

/-- The server answers the request it has taken up. -/
theorem answer (hs : Fed s) {t : CallId} (ht : s.requests[s.answered]? = some t)
    (ok : Bool) :
    Fed { s with
      handling := false
      answered := s.answered + 1
      live := s.live && !(s.stub t).unsubscribes
      sent := s.sent ++ [.reply ok] } where
  handled := (List.getElem?_eq_some_iff.mp ht).1
  counted := by
    have hcounted := hs.counted
    simp only [List.countP_append, List.countP_singleton, FromServer.isReply, if_true]
    omega
  reading := hs.reading
  live hl := by
    obtain ⟨hl, hunsub⟩ := Bool.and_eq_true_iff.mp hl
    obtain ⟨k, u, hk, hu, hsub, hnone⟩ := hs.live hl
    refine ⟨k, u, Nat.le_succ_of_le hk, hu, hsub, fun j w hkj hj hw => ?_⟩
    -- The request that is answered now has not unsubscribed.
    rcases Nat.lt_or_eq_of_le (Nat.le_of_lt_succ hj) with hlt | heq
    · exact hnone j w hkj hlt hw
    · subst heq
      cases hw.symm.trans ht
      simpa using hunsub
  event := hs.event
  sent before after h := by
    rcases event_of_append h with ⟨after', h⟩ | ⟨hmessage, -⟩
    · exact hs.sent before after' h
    · exact nomatch hmessage
  others input h := by
    rw [List.mem_append, List.mem_singleton] at h
    exact hs.others input (h.resolve_right nofun)

/-- An event is said of a live subscription. -/
theorem emit (hs : Fed s) (hlive : s.live = true) : Fed { s with sent := s.sent ++ [.event] } where
  handled := hs.handled
  counted := by
    rw [← hs.counted, List.countP_append]
    rfl
  reading := hs.reading
  live := hs.live
  event := hs.event
  sent before after h := by
    rcases event_of_append h with ⟨after', h⟩ | ⟨-, rfl⟩
    · exact hs.sent before after' h
    · show s.Fresh (s.client.shared.replies + s.sent.countP FromServer.isReply)
      rw [hs.counted]
      exact hs.live hlive
  others input h := by
    rw [List.mem_append, List.mem_singleton] at h
    exact hs.others input (h.resolve_right nofun)

/-- Other messages change nothing here. -/
theorem send (hs : Fed s) {input : Input} (hinput : input.isReply = false) :
    Fed { s with sent := s.sent ++ [.other input] } where
  handled := hs.handled
  counted := by
    rw [← hs.counted, List.countP_append]
    rfl
  reading := hs.reading
  live := hs.live
  event := hs.event
  sent before after h := by
    rcases event_of_append h with ⟨after', h⟩ | ⟨hmessage, -⟩
    · exact hs.sent before after' h
    · exact nomatch hmessage
  others other h := by
    rw [List.mem_append, List.mem_singleton] at h
    rcases h with h | h
    · exact hs.others other h
    · cases h
      exact hinput

/-- The input worker takes what the server has written first. -/
theorem read (hs : Fed s) {client : System} {a : Action} {message : FromServer}
    {sent : List FromServer} (hsent : s.sent = message :: sent) (hevent : s.event = false)
    (hstep : s.client.step a = some client)
    (hreads : s.client.reads a = message.isReply.toNat) : Fed { s with sent, client } := by
  have hgrows : Grows s { s with sent, client } :=
    .trans (.client hstep) (.of_eq rfl rfl)
  have hreplies := (System.step_visible hstep).2
  rw [hreads] at hreplies
  have hcount : message.isReply.toNat + sent.countP FromServer.isReply =
      s.sent.countP FromServer.isReply := by
    rw [hsent, List.countP_cons, Nat.add_comm]
    cases message.isReply <;> rfl
  refine ⟨?_, ?_, fun h => ?_, fun h => hgrows.fresh hs.answered_le (hs.live h), fun h => ?_,
    fun before after h => ?_, fun input h => ?_⟩
  · obtain ⟨more, hmore⟩ := hgrows.requests
    rw [hmore, List.length_append]
    exact Nat.le_trans hs.handled (Nat.le_add_right _ _)
  · have hcounted := hs.counted
    show client.shared.replies + _ = s.answered
    simp only [hreplies]
    omega
  · exact nomatch hevent.symm.trans h
  · exact nomatch hevent.symm.trans h
  · have hbefore : s.sent = (message :: before) ++ .event :: after := by
      rw [hsent, show sent = before ++ .event :: after from h, List.cons_append]
    have hfresh := hgrows.fresh (hs.before_le hbefore) (hs.sent _ after hbefore)
    rw [List.countP_cons] at hfresh
    convert hfresh using 1
    show client.shared.replies + _ = _
    rw [hreplies]
    cases message.isReply <;> (simp; try omega)
  · exact hs.others input (hsent ▸ List.mem_cons_of_mem _ h)

/-- The worker reads an event that was sent. -/
theorem readEvent (hs : Fed s) {sent : List FromServer} (hsent : s.sent = .event :: sent)
    (hread : s.client.worker = .read false) : Fed { s with event := true, sent } where
  handled := hs.handled
  counted := by
    rw [← hs.counted, hsent]
    rfl
  reading _ := hread
  live := hs.live
  event _ := hs.sent [] sent hsent
  sent before after h := by
    have hbefore : s.sent = (.event :: before) ++ .event :: after := by
      rw [hsent, show sent = before ++ .event :: after from h, List.cons_append]
    exact hs.sent (.event :: before) after hbefore
  others input h := hs.others input (hsent ▸ List.mem_cons_of_mem _ h)

end Fed

/-- What the stub's threads have done, and what is registered. -/
structure Stubbed (s : Session) : Prop where
  waits : ∀ t, (s.stub t).registers = true → s.client.callers t = .idle
  subscribes : ∀ t, (s.stub t).subscribes = true → t ∈ s.registrations
  unsubscribes : ∀ t, s.stub t = .unsubscribing → (s.client.callers t).calls = true ∧
    (s.client.callers t = .returned true → (s.client.shared.data t).reply ≠ none)
  unregisters : ∀ t, s.stub t = .unregister →
    ∃ n, n < s.client.shared.replies ∧ s.requests[n]? = some t
  undone : s.registered = false → ∀ u ∈ s.registrations, s.Undone u

theorem stubbed_init : Stubbed {} where
  waits _ := nofun
  subscribes _ := nofun
  unsubscribes _ := nofun
  unregisters _ := nofun
  undone _ := nofun

namespace Stubbed

/-- A stub that unregisters has had the reply to its request. -/
theorem unregisters_grows (hs : Stubbed s) (h : Grows s s') {t : CallId}
    (ht : s.stub t = .unregister) :
    ∃ n, n < s'.client.shared.replies ∧ s'.requests[n]? = some t := by
  obtain ⟨n, hn, hrequest⟩ := hs.unregisters t ht
  exact ⟨n, Nat.lt_of_lt_of_le hn h.replies, h.getElem? hrequest⟩

/-- A thread of the stub comes to a point. -/
theorem stubAt (hs : Stubbed s) {t : CallId} {pc : StubPc}
    (hkind : t ∈ s.requests → pc.subscribes = (s.stub t).subscribes ∧
      pc.unsubscribes = (s.stub t).unsubscribes)
    (hwaits : pc.registers = true → s.client.callers t = .idle)
    (hsubscribes : pc.subscribes = true → t ∈ s.registrations)
    (hunsubscribes : pc = .unsubscribing → s.client.callers t = .idle)
    (hunregisters : pc = .unregister →
      ∃ n, n < s.client.shared.replies ∧ s.requests[n]? = some t) : Stubbed (s.stubAt t pc) := by
  have hself : (s.stubAt t pc).stub t = pc := Function.update_self ..
  have hne : ∀ u, u ≠ t → (s.stubAt t pc).stub u = s.stub u := 
    fun u h => Function.update_of_ne h ..
  refine ⟨fun u hu => ?_, fun u hu => ?_, fun u hu => ?_, fun u hu => ?_, fun h u hu =>
    (Grows.stubAt hkind).undone (hs.undone h u hu)⟩ <;> by_cases heq : u = t
  · exact heq ▸ hwaits (by rwa [heq, hself] at hu)
  · exact hs.waits u (by rwa [hne u heq] at hu)
  · exact heq ▸ hsubscribes (by rwa [heq, hself] at hu)
  · exact hs.subscribes u (by rwa [hne u heq] at hu)
  · have hidle : s.client.callers u = .idle := heq ▸ hunsubscribes (by rwa [heq, hself] at hu)
    refine ⟨(congrArg CallerPc.calls hidle).trans rfl, fun h => ?_⟩
    exact nomatch hidle.symm.trans h
  · exact hs.unsubscribes u (by rwa [hne u heq] at hu)
  · exact heq ▸ hunregisters (by rwa [heq, hself] at hu)
  · exact hs.unregisters u (by rwa [hne u heq] at hu)

/-- A turn of the client's. -/
theorem client (hs : Stubbed s) (hreplied : Replied s.client) {client : System} {a : Action}
    (hstep : s.client.step a = some client)
    (hinvoke : ∀ t op, a = .invoke t op → (s.stub t).registers = false ∧
      (s.stub t = .unsubscribing → op.entry.calls = true)) : Stubbed { s with client } where
  waits u hu := by
    have hidle := hs.waits u hu
    obtain ⟨t, op, rfl, -, rfl⟩ | ⟨t, io, wake, access, pc, shared, -, hnext, -, rfl⟩ |
      ⟨input, io, wake, access, pc, shared, -, -, -, -, rfl⟩ := System.step_cases hstep
    · have hne : u ≠ t := by
        rintro rfl
        exact nomatch hu.symm.trans (hinvoke u op rfl).1
      exact (System.callerAt_of_ne s.client _ _ hne).trans hidle
    · have hne : u ≠ t := by
        rintro rfl
        rw [hidle] at hnext
        exact nomatch hnext
      exact (System.callerAt_of_ne s.client _ _ hne).trans hidle
    · exact hidle
  subscribes := hs.subscribes
  unsubscribes u hu := by
    obtain ⟨hcalls, hreply⟩ := hs.unsubscribes u hu
    obtain ⟨t, op, rfl, -, rfl⟩ | ⟨t, io, wake, access, pc, shared, -, hnext, happly, rfl⟩ |
      ⟨input, io, wake, access, pc, shared, -, -, -, happly, rfl⟩ := System.step_cases hstep
    · by_cases heq : u = t
      · subst heq
        simp only [System.callerAt_self]
        refine ⟨(hinvoke u op rfl).2 hu, fun h => ?_⟩
        cases op <;> exact nomatch h
      · simp only [System.callerAt_of_ne s.client _ _ heq, System.callerAt_shared,
          Shared.withData_data, if_neg (Ne.symm heq)]
        exact ⟨hcalls, hreply⟩
    · obtain ⟨-, -, hstays, -⟩ := Access.apply_claimed happly u
      by_cases heq : u = t
      · subst heq
        obtain ⟨hcalls, hreturns⟩ := CallerPc.next_calls hnext hcalls
        simp only [System.callerAt_self]
        refine ⟨hcalls, fun h => hstays ?_⟩
        obtain ⟨hwaiter, herror⟩ := hreturns h
        refine (hreplied.claimed u (by rw [hwaiter]; exact nofun)).resolve_left fun h => ?_
        exact nomatch herror.symm.trans h
      · simp only [System.callerAt_of_ne s.client shared pc heq]
        exact ⟨hcalls, fun h => hstays (hreply h)⟩
    · exact ⟨hcalls, fun h => (Access.apply_claimed happly u).2.2.1 (hreply h)⟩
  unregisters u hu := hs.unregisters_grows (Grows.client hstep) hu
  undone h u hu := (Grows.client hstep).undone (hs.undone h u hu)

/-- A subscription that began last is registered. -/
theorem registered_of_fresh (hs : Stubbed s) (hnodup : s.requests.Nodup)
    (hfresh : s.Fresh s.client.shared.replies) : s.registered = true := by
  by_contra hnot
  obtain ⟨k, u, hk, hu, hsub, hunsub⟩ := hfresh
  obtain ⟨hmem, -⟩ | ⟨k', n, w, hkn, hn, hu', hw, hended⟩ :=
    hs.undone (Bool.eq_false_iff.mpr hnot) u (hs.subscribes u hsub)
  · exact hmem (List.mem_of_getElem? hu)
  · have heq : k' = k := (List.getElem?_inj (List.getElem?_eq_some_iff.mp hu').1 hnodup).mp
      (hu'.trans hu.symm)
    subst heq
    exact nomatch (hunsub n w hkn hn hw).symm.trans hended

end Stubbed

/-- The callback table agrees with the requests and their replies. -/
structure Registered (s : Session) : Prop where
  replying : Replying s.client
  fed : Fed s
  stubbed : Stubbed s

theorem registered_init : Registered {} where
  replying := replying_init
  fed := fed_init
  stubbed := stubbed_init

/-- The requests that were sent before a thread's. -/
def sentBefore (s : Session) (t : CallId) : List CallId := s.requests.takeWhile (· ≠ t)

/-- `unsubscribe_X` unregisters the callback only of threads that sent their requests before it,
or have returned without sending one; and replies come to their own calls. -/
def InOrder (s : Session) : SessionAction → Prop
  | .advance t => s.stub t = .unregister → ∀ u ∈ s.registrations,
      u ∈ s.sentBefore t ∨ (u ∉ s.requests ∧ (s.client.callers u).hasReturned = true)
  | .client a => s.client.PopsInTurn a
  | _ => True

instance (s : Session) : ∀ a, Decidable (s.InOrder a)
  | .advance _ => inferInstanceAs (Decidable (_ → _))
  | .client a => inferInstanceAs (Decidable (s.client.PopsInTurn a))
  | .begin _ _ | .read | .handleEvent _ | .handle | .answer _ | .emit | .send _ =>
    inferInstanceAs (Decidable True)

namespace Registered

/-- A thread that has not come to the client has sent nothing. -/
theorem not_sent (hs : Registered s) {t : CallId} (hidle : s.client.callers t = .idle) :
    t ∉ s.requests := by
  intro ht
  have hpushed : t ∈ s.client.shared.pushed :=
    hs.replying.numbered.sent ▸ List.mem_append_left _ ht
  exact hs.replying.numbered.ledger.fresh t (by rw [hidle]; rfl) hpushed

/-- No request is sent twice. -/
theorem nodup (hs : Registered s) : s.requests.Nodup := by
  have hpushed := hs.replying.numbered.ledger.nodup
  rw [hs.replying.numbered.sent] at hpushed
  exact hpushed.of_append_left

/-- A callback may run at any time. -/
theorem withCallback (hs : Registered s) (callback : Bool) : Registered { s with callback } where
  replying := hs.replying
  fed := hs.fed.grows (.of_eq rfl rfl) rfl rfl rfl rfl rfl rfl hs.fed.reading
  stubbed := ⟨hs.stubbed.waits, hs.stubbed.subscribes, hs.stubbed.unsubscribes,
    hs.stubbed.unregisters, hs.stubbed.undone⟩

/-- A thread registers the callback. -/
theorem withRegistered (hs : Registered s) (t : CallId) :
    Registered { s with registered := true, registrations := s.registrations ++ [t] } where
  replying := hs.replying
  fed := hs.fed.grows (.of_eq rfl rfl) rfl rfl rfl rfl rfl rfl hs.fed.reading
  stubbed := ⟨hs.stubbed.waits,
    fun u hu => List.mem_append_left _ (hs.stubbed.subscribes u hu), hs.stubbed.unsubscribes,
    hs.stubbed.unregisters, nofun⟩

/-- When every registration is undone, the callback can go. -/
theorem withUnregistered (hs : Registered s) (h : ∀ u ∈ s.registrations, s.Undone u) :
    Registered { s with registered := false } where
  replying := hs.replying
  fed := hs.fed.grows (.of_eq rfl rfl) rfl rfl rfl rfl rfl rfl hs.fed.reading
  stubbed := ⟨hs.stubbed.waits, hs.stubbed.subscribes, hs.stubbed.unsubscribes,
    hs.stubbed.unregisters, fun _ => h⟩

theorem stubAt (hs : Registered s) {t : CallId} (pc : StubPc)
    (hkind : t ∈ s.requests → pc.subscribes = (s.stub t).subscribes ∧
      pc.unsubscribes = (s.stub t).unsubscribes)
    (hwaits : pc.registers = true → s.client.callers t = .idle)
    (hsubscribes : pc.subscribes = true → t ∈ s.registrations)
    (hunsubscribes : pc = .unsubscribing → s.client.callers t = .idle)
    (hunregisters : pc = .unregister →
      ∃ n, n < s.client.shared.replies ∧ s.requests[n]? = some t) :
    Registered (s.stubAt t pc) where
  replying := hs.replying
  fed := hs.fed.grows (.stubAt hkind) rfl rfl rfl rfl rfl rfl hs.fed.reading
  stubbed := hs.stubbed.stubAt hkind hwaits hsubscribes hunsubscribes hunregisters

/-- A turn of the client's in which the worker begins no reply. -/
theorem clientStep (hs : Registered s) {a : Action} (hstep : s.clientStep a = some s')
    (hturn : s.client.PopsInTurn a) (hreads : s.client.reads a = 0)
    (hinvoke : ∀ t op, a = .invoke t op → (s.stub t).registers = false ∧
      (s.stub t = .unsubscribing → op.entry.calls = true))
    (hevent : ∀ input io wake, a = .worker input io wake → s.event = false) : Registered s' := by
  obtain ⟨client, hclient, rfl⟩ := Option.map_eq_some_iff.mp hstep
  refine ⟨hs.replying.step ?_ hturn hclient, ?_, hs.stubbed.client hs.replying.replied hclient
    hinvoke⟩
  · cases a with
    | invoke t op => trivial
    | caller t io wake => trivial
    | worker input io wake =>
      intro hread hreply
      rw [System.reads, if_pos ⟨hread, hreply⟩] at hreads
      exact nomatch hreads
  · refine hs.fed.grows (.client hclient) rfl rfl rfl rfl rfl ?_ fun he => ?_
    · rw [(System.step_visible hclient).2, hreads]
      rfl
    · have hread := hs.fed.reading he
      obtain ⟨t, op, -, -, rfl⟩ | ⟨t, io, wake, access, pc, shared, -, -, -, rfl⟩ |
        ⟨input, io, wake, access, pc, shared, rfl, -, -, -, rfl⟩ := System.step_cases hclient
      · exact hread
      · exact hread
      · exact nomatch (hevent input io wake rfl).symm.trans he

/-- A thread of the stub comes to the client. -/
theorem invoke (hs : Registered s) {t : CallId} (pc : StubPc) {shape : CallShape}
    (hidle : s.client.callers t = .idle) (hpc : pc.registers = false)
    (hsubscribes : pc.subscribes = true → t ∈ s.registrations) (hunregisters : pc ≠ .unregister)
    (hstep : (s.stubAt t pc).clientStep (.invoke t (.call shape)) = some s') : Registered s' := by
  have hstub : (s.stubAt t pc).stub t = pc := Function.update_self ..
  have hat : Registered (s.stubAt t pc) :=
    hs.stubAt pc (fun ht => absurd ht (hs.not_sent hidle)) (fun h => nomatch hpc.symm.trans h)
      hsubscribes (fun _ => hidle) fun h => absurd h hunregisters
  refine hat.clientStep hstep trivial rfl (fun u op' heq => ?_) nofun
  cases heq
  exact ⟨by rw [hstub, hpc], fun _ => rfl⟩

/-- What was sent before a request, by number. -/
theorem lt_of_sentBefore {t u : CallId} {n : Nat} (hu : u ∈ s.sentBefore t)
    (ht : s.requests[n]? = some t) : ∃ k, k < n ∧ s.requests[k]? = some u := by
  obtain ⟨k, hk⟩ := List.mem_iff_getElem?.mp hu
  have hprefix : s.sentBefore t <+: s.requests := List.takeWhile_prefix _
  obtain ⟨rest, hrest⟩ := hprefix
  have hbefore : ∀ i, i < (s.sentBefore t).length → s.requests[i]? = (s.sentBefore t)[i]? := by
    intro i hi
    rw [← hrest, List.getElem?_append_left hi]
  have hlt := (List.getElem?_eq_some_iff.mp hk).1
  refine ⟨k, ?_, (hbefore k hlt).trans hk⟩
  by_contra hle
  -- The thread's own request would stand before itself.
  have hown := (hbefore n (by omega)).symm.trans ht
  have hne := List.mem_takeWhile_imp (List.mem_of_getElem? hown)
  exact absurd rfl (of_decide_eq_true hne)

/-- A thread of the stub takes its next step, in order if it unregisters the callback. -/
theorem advance (hs : Registered s) {t : CallId} (horder : s.InOrder (.advance t))
    (hstep : s.advance t = some s') : Registered s' := by
  unfold Session.advance at hstep
  cases hpc : s.stub t <;> rw [hpc] at hstep <;> simp only [reduceCtorEq] at hstep
  case setCallback request =>
    cases hstep
    have hidle := hs.stubbed.waits t (by rw [hpc]; rfl)
    exact (hs.stubAt (.register request) (fun ht => absurd ht (hs.not_sent hidle))
      (fun _ => hidle) nofun nofun nofun).withCallback true
  case register request =>
    have hidle := hs.stubbed.waits t (by rw [hpc]; rfl)
    exact (hs.withRegistered t).invoke .subscribing hidle rfl
      (fun _ => List.mem_append_right _ (List.mem_singleton.mpr rfl)) nofun hstep
  case subscribing =>
    split at hstep <;> cases hstep
    refine hs.stubAt _ (fun _ => ?_) nofun (fun _ => hs.stubbed.subscribes t ?_) nofun nofun
    · rw [hpc]
      exact ⟨rfl, rfl⟩
    · rw [hpc]
      rfl
  case unsubscribing =>
    split at hstep <;> cases hstep
    rename_i ok hreturned
    cases ok with
    | false =>
      refine hs.stubAt _ (fun _ => ?_) nofun nofun nofun nofun
      rw [hpc]
      exact ⟨rfl, rfl⟩
    | true =>
      -- The reply is the one to its own request.
      refine hs.stubAt _ (fun _ => ?_) nofun nofun nofun fun _ => ?_
      · rw [hpc]
        exact ⟨rfl, rfl⟩
      · obtain ⟨n, hn⟩ :=
          Option.ne_none_iff_exists'.mp ((hs.stubbed.unsubscribes t hpc).2 hreturned)
        exact ⟨n, hs.replying.numbers t n hn, hs.replying.uncrossed t n hn⟩
  case unregister =>
    cases hstep
    have hat : Registered (s.stubAt t .clearCallback) :=
      hs.stubAt _ (fun _ => by rw [hpc]; exact ⟨rfl, rfl⟩) nofun nofun nofun nofun
    -- The others' requests stand before its own, so the server has ended their subscriptions.
    refine hat.withUnregistered fun u hu => ?_
    obtain ⟨n, hn, ht⟩ := hs.stubbed.unregisters t hpc
    refine (horder hpc u hu).symm.imp id fun hbefore => ?_
    obtain ⟨k, hk, hrequest⟩ := lt_of_sentBefore hbefore ht
    exact ⟨k, n, t, hk, hn, hrequest, ht, by simp [Session.stubAt, StubPc.unsubscribes]⟩
  case clearCallback =>
    cases hstep
    exact (hs.stubAt .unsubscribed (fun _ => by rw [hpc]; exact ⟨rfl, rfl⟩) nofun nofun
      nofun nofun).withCallback false

/-- The input worker takes a reply. -/
theorem read (hs : Registered s) (hstep : s.read = some s') : Registered s' := by
  unfold Session.read at hstep
  split at hstep
  case isFalse => cases hstep
  rename_i hread
  obtain ⟨hread, hevent⟩ := hread
  have hturn : ∀ input, s.client.PopsInTurn (.worker input true 0) := by
    intro input _ hasked
    rw [hread] at hasked
    exact absurd rfl hasked
  have hother : ∀ {message sent a}, s.sent = message :: sent → s.client.PopsInTurn a →
      s.client.Served a → s.client.reads a = message.isReply.toNat → (∀ t op, a ≠ .invoke t op) →
      Session.clientStep { s with sent } a = some s' → Registered s' := by
    intro message sent a hsent hturn hserved hreads hinvoke hstep
    obtain ⟨client, hclient, rfl⟩ := Option.map_eq_some_iff.mp hstep
    have hstubbed := hs.stubbed.client hs.replying.replied hclient
      fun t op h => absurd h (hinvoke t op)
    exact ⟨hs.replying.step hserved hturn hclient, hs.fed.read hsent hevent hclient hreads,
      ⟨hstubbed.waits, hstubbed.subscribes, hstubbed.unsubscribes, hstubbed.unregisters,
        hstubbed.undone⟩⟩
  split at hstep
  · cases hstep
  · rename_i ok sent hsent
    have hle := hs.fed.answered_le
    have hcounted := hs.fed.counted
    rw [hsent, List.countP_cons_of_pos rfl] at hcounted
    refine hother hsent (hturn _) (fun _ _ => ?_) ?_ (by rintro _ _ ⟨⟩) hstep
    · show s.client.shared.replies < s.requests.length
      omega
    · cases ok <;> simp [System.reads, hread, Input.isReply, FromServer.isReply]
  · rename_i sent hsent
    split at hstep <;> cases hstep
    exact ⟨hs.replying, hs.fed.readEvent hsent hread,
      ⟨hs.stubbed.waits, hs.stubbed.subscribes, hs.stubbed.unsubscribes, hs.stubbed.unregisters,
        hs.stubbed.undone⟩⟩
  · rename_i input sent hsent
    have hnone := hs.fed.others input (hsent ▸ List.mem_cons_self)
    refine hother hsent (hturn _) (fun _ h => ?_) ?_ (by rintro _ _ ⟨⟩) hstep
    · cases hnone.symm.trans h
    · simp [System.reads, hnone, FromServer.isReply]

/-- The server takes a turn. -/
theorem ofServer (hs : Registered s) (hfed : Fed s') (hclient : s'.client = s.client)
    (hstub : s'.stub = s.stub) (hregistered : s'.registered = s.registered)
    (hregistrations : s'.registrations = s.registrations) : Registered s' where
  replying := hclient ▸ hs.replying
  fed := hfed
  stubbed := by
    -- The stub and its client stay as they are.
    have hgrows : Grows s s' := .of_eq hclient hstub
    refine ⟨?_, ?_, ?_, fun t ht => hs.stubbed.unregisters_grows hgrows (hstub ▸ ht),
      fun h u hu => hgrows.undone (hs.stubbed.undone (hregistered ▸ h) u (hregistrations ▸ hu))⟩
    · rw [hstub, hclient]
      exact hs.stubbed.waits
    · rw [hstub, hregistrations]
      exact hs.stubbed.subscribes
    · rw [hstub, hclient]
      exact hs.stubbed.unsubscribes

/-- A thread begins a function of the stub. -/
theorem begin (hs : Registered s) {t : CallId} {op : StubOp}
    (hstep : s.step (.begin t op) = some s') : Registered s' := by
  simp only [Session.step] at hstep
  split at hstep
  case isFalse => cases hstep
  case isTrue hidle =>
    cases op with
    | subscribe request =>
      cases hstep
      -- A thread that has not been to the client has sent no request.
      exact hs.stubAt _ (fun ht => absurd ht (hs.not_sent hidle.2)) (fun _ => hidle.2) nofun nofun
        nofun
    | unsubscribe => exact hs.invoke .unsubscribing hidle.2 rfl nofun nofun hstep

/-- The client takes a turn of its own: one that reads no message of the server's. -/
theorem ownTurn (hs : Registered s) {a : Action} (hturn : s.client.PopsInTurn a)
    (hstep : s.step (.client a) = some s') : Registered s' := by
  simp only [Session.step] at hstep
  split at hstep
  case isFalse => cases hstep
  case isTrue hallows =>
    cases a with
    | invoke t op =>
      have hidle : s.stub t = .idle := of_decide_eq_true hallows
      refine hs.clientStep hstep hturn rfl (fun u op' heq => ?_) nofun
      cases heq
      rw [hidle]
      exact ⟨rfl, nofun⟩
    | caller t io wake => exact hs.clientStep hstep hturn rfl nofun nofun
    | worker input io wake =>
      obtain ⟨hevent, hfails⟩ := of_decide_eq_true hallows
      refine hs.clientStep hstep hturn (if_neg fun h => ?_) nofun fun _ _ _ _ => hevent
      rw [hfails h.1] at h
      exact nomatch h.2

/-- The input worker has handled an event. -/
theorem handleEvent (hs : Registered s) {ok : Bool}
    (hstep : s.step (.handleEvent ok) = some s') : Registered s' := by
  simp only [Session.step] at hstep
  split at hstep
  case isFalse => cases hstep
  case isTrue hevent =>
    have hread := hs.fed.reading hevent
    have hdone : Registered { s with event := false } :=
      hs.ofServer ⟨hs.fed.handled, hs.fed.counted, nofun, hs.fed.live, nofun, hs.fed.sent,
        hs.fed.others⟩ rfl rfl rfl rfl
    refine hdone.clientStep hstep (fun _ hasked => ?_) (if_neg fun h => nomatch h.2) nofun
      fun _ _ _ _ => rfl
    rw [show s.client.worker = .read false from hread] at hasked
    exact absurd rfl hasked

end Registered

/-- Every turn keeps the table in agreement, if the callbacks are unregistered in order. -/
theorem registered_preserved :
    Transition.Preserves Session.step Session.InOrder Registered := by
  intro s a s' hs horder hstep
  cases a with
  | begin t op => exact hs.begin hstep
  | advance t => exact hs.advance horder hstep
  | client a => exact hs.ownTurn horder hstep
  | read => exact hs.read hstep
  | handleEvent ok => exact hs.handleEvent hstep
  | handle =>
    simp only [Session.step] at hstep
    split at hstep
    case h_2 => cases hstep
    case h_1 t ht =>
      split at hstep <;> cases hstep
      exact hs.ofServer (hs.fed.handle ht) rfl rfl rfl rfl
  | answer ok =>
    simp only [Session.step] at hstep
    split at hstep
    case h_2 => cases hstep
    case h_1 t ht =>
      split at hstep <;> cases hstep
      exact hs.ofServer (hs.fed.answer ht ok) rfl rfl rfl rfl
  | emit =>
    simp only [Session.step] at hstep
    split at hstep <;> cases hstep
    rename_i hlive
    exact hs.ofServer (hs.fed.emit hlive) rfl rfl rfl rfl
  | send input =>
    simp only [Session.step] at hstep
    split at hstep <;> cases hstep
    rename_i hinput
    exact hs.ofServer (hs.fed.send (Bool.eq_false_iff.mpr hinput)) rfl rfl rfl rfl

end Session

/-- Along a run, a callback is registered whenever the worker handles an event. -/
def EventsRegistered (as : List SessionAction) : Prop :=
  Transition.Always Session.step (fun s => s.event = true → s.registered = true) {} as

/-- Every event of a live subscription finds its callback, where `unsubscribe_X` does not
unregister what a later request has registered. -/
theorem events_registered (as : List SessionAction)
    (h : Transition.Along Session.step Session.InOrder {} as) : EventsRegistered as :=
  (Session.registered_preserved.always Session.registered_init h).imp fun _ hs hevent =>
    hs.stubbed.registered_of_fresh hs.nodup (hs.fed.event hevent)

/-- A thread calls `subscribe_X` without a request, up to where it waits for the reply. -/
def SessionAction.subscribe (t : CallId) : List SessionAction :=
  [.begin t (.subscribe false), .advance t, .advance t] ++ (Action.goOn t 7).map .client

def SessionAction.unsubscribe (t : CallId) : List SessionAction :=
  .begin t .unsubscribe :: (Action.goOn t 7).map .client

/-- The server has handled a thread's request; the worker reads the reply, and the thread
returns from the client. -/
def SessionAction.replied (t : CallId) : List SessionAction :=
  [.answer true, .read] ++ (Action.work .fails 5 ++ Action.goOn t 1).map .client ++ [.advance t]

/-- A client that has been started, where one thread has subscribed. -/
def SessionAction.subscribed : List SessionAction :=
  Action.started.map .client ++ SessionAction.subscribe 1 ++ [.handle] ++ SessionAction.replied 1

set_option maxRecDepth 2048 in
/-- One thread unsubscribes, and another one subscribes behind it. -/
theorem events_registered_again :
    EventsRegistered (SessionAction.subscribed ++ [.emit, .read, .handleEvent true] ++
      SessionAction.unsubscribe 2 ++ [.handle, .emit, .read, .handleEvent true] ++
      SessionAction.replied 2 ++ [.advance 2, .advance 2] ++ SessionAction.subscribe 3 ++
      [.handle, .emit] ++ [.read, .handleEvent true]) :=
  events_registered _ (by decide)

/-- A thread has unsubscribed; before it unregisters the callback, another one subscribes, and the
server emits an event. -/
def unregisteredLate : List SessionAction :=
  SessionAction.subscribed ++ SessionAction.unsubscribe 2 ++ [.handle] ++ SessionAction.replied 2 ++
    SessionAction.subscribe 3 ++ [.handle, .emit, .advance 2, .read]

/-- A failing call takes another call off the list, and `unsubscribe_X` is given the reply to that
one. -/
def unregisteredEarly : List SessionAction :=
  SessionAction.subscribed ++ (Action.alone 2 (.call .callNoRequest) 6).map .client ++
    SessionAction.unsubscribe 3 ++
    (Action.alone 4 (.call .callNoRequest) 4 ++ [Action.caller 4 false 0]).map .client ++
    [.client (.caller 4 true 0), .handle] ++ SessionAction.replied 3 ++ [.advance 3, .emit, .read]

/-- The event's id is not registered, and the worker fails. -/
theorem event_unregistered :
    ¬ EventsRegistered unregisteredLate ∧ ¬ EventsRegistered unregisteredEarly ∧
    ∀ as ∈ [unregisteredLate, unregisteredEarly],
      (Transition.run Session.step {} (as ++ [.handleEvent true])).map (fun s =>
        (s.live, s.client.worker)) = some (true, .handlerLock .leave) := by
  have hrun : ∀ as ∈ [unregisteredLate, unregisteredEarly],
      (Transition.run Session.step {} as).map (fun s => (s.event, s.registered)) =
        some (true, false) := by
    decide
  have hnot : ∀ as ∈ [unregisteredLate, unregisteredEarly], ¬ EventsRegistered as := by
    intro as has h
    obtain ⟨s, hs, heq⟩ := Option.map_eq_some_iff.mp (hrun as has)
    simp only [Prod.mk.injEq] at heq
    exact nomatch heq.2.symm.trans (h.last hs heq.1)
  exact ⟨hnot _ (by simp), hnot _ (by simp), by decide⟩

end SerialRpc.Client
