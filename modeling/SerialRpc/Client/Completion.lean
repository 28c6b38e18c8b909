import SerialRpc.Client.Ledger
import SerialRpc.Client.Wakeup

/-!
# What a call that returns can rely on (client.cc:290-322, 466-547)

A call returns without an error when it has been notified and `has_error` is not set.
Everyone who notifies a call has set its error before, but for `handle_reply`: it leaves
the error of a body that cannot be read to the error handler, and the handler sets the
errors of the calls on the list, where this one is no more. It also parks the worker
until the error has been acknowledged, with the call still to be notified; and so it does
when the text of an `ErrorReply` cannot be read.

- `Settled`: a call has an error, or its reply has been read.
- `Completion`: calls are notified when they are settled, and a call that was taken off
  for a reply has been notified when the worker reads the next (`completion_preserved`).
- `WorkerPc.turnsLeft`: how far the worker is from notifying the call (`next_turnsLeft`).
- `undecoded_fails`: where every body can be read, and the text of an `ErrorReply` is cut
  short only on a client that is closed or has failed, no call returns without an error
  whose reply was not read; and a call taken off for a reply is notified, before the
  worker reads the next, parks or returns.
-/

namespace SerialRpc.Client

/-- A call has an error, or its reply has been read. -/
def CallData.Settled (data : CallData) : Prop := data.hasError = true ∨ data.decoded = true

/-- The call a failing call is notifying. -/
def CallerPc.settles : CallerPc → List CallId
  | .failNotify c | .failWake c | .failNotified c => [c]
  | _ => []

/-- The call the worker is notifying. -/
def WorkerPc.settles : WorkerPc → List CallId
  | .notify c _ | .wake c _ | .notified c _ | .handlerNotify c _ | .handlerWake c _
  | .handlerNotified c _ => [c]
  | _ => []

/-- The error handler was not called for the body of a reply. -/
def Resume.readable : Resume → Bool
  | .reply _ => false
  | .leave | .again | .errorReply _ => true

/-- No call is still to be notified behind the error handler. -/
def Resume.parks : Resume → Bool
  | .leave | .again => true
  | .reply _ | .errorReply _ => false

/-- The worker reports no error of a body, and does not come to park with a call that is
still to be notified. -/
def WorkerPc.sound : WorkerPc → Bool
  | .handlerLock k | .handlerSetErr k | .handlerPop k | .handlerSetError _ k | .handlerNotify _ k
  | .handlerWake _ k | .handlerNotified _ k | .handlerLoad k | .handlerClear k
  | .handlerUnlock k => k.readable
  | .handlerSwap _ k | .handlerBroadcast k | .handlerWait k | .handlerParked k => k.parks
  | _ => true

/-- The body of a reply can be read, and when the text of an `ErrorReply` cannot, the client
is closed or has failed, so that the error handler returns at once. -/
def WorkerPc.readable (sh : Shared) (io : Bool) : WorkerPc → Bool
  | .decode c => io || !(sh.data c).unmarshal
  | .handlerLoad (.errorReply _) => sh.state = .closed || sh.state = .failed
  | _ => true

def System.Readable (s : System) : Action → Prop
  | .worker _ io _ => s.worker.readable s.shared io = true
  | .invoke _ _ | .caller _ _ _ => True

instance (s : System) : ∀ a, Decidable (s.Readable a)
  | .worker _ io _ => inferInstanceAs (Decidable (s.worker.readable s.shared io = true))
  | .invoke _ _ | .caller _ _ _ => inferInstanceAs (Decidable True)

/-- The worker is back at the loop of `input`, parks in its error handler, or returns. -/
def WorkerPc.atRest : WorkerPc → Bool
  | .read _ | .handlerParked _ | .ending | .returned => true
  | _ => false

/-- The most turns the worker still takes to notify the call whose reply it reads, with `n`
calls on the list. The error handler takes each of them off in five turns. -/
def WorkerPc.turnsLeft (n : Nat) : WorkerPc → Nat
  | .notified _ _ => 1
  | .wake _ _ => 2
  | .notify _ _ => 3
  | .setError _ _ | .decode _ => 4
  | .handlerUnlock _ => 5
  | .handlerClear _ => 6
  | .handlerLoad _ => 7
  | .handlerPop _ => 5 * n + 8
  | .handlerNotified _ _ => 5 * n + 9
  | .handlerWake _ _ => 5 * n + 10
  | .handlerNotify _ _ => 5 * n + 11
  | .handlerSetError _ _ => 5 * n + 12
  | .handlerSetErr _ => 5 * n + 9
  | .handlerLock _ => 5 * n + 10
  | .readText _ => 5 * n + 11
  | _ => 0

def System.turnsLeft (s : System) : Nat := s.worker.turnsLeft s.shared.pending.length

/-- The turns of the worker. -/
def Action.workerTurns : Action → Nat
  | .worker _ _ _ => 1
  | .invoke _ _ | .caller _ _ _ => 0

/-- The worker can take its turn, or a thread of the program holds `cond_mutex`. -/
def System.WorkerGoesOn (s : System) : Prop :=
  (∃ t, s.shared.condMtx = some (.caller t)) ∨
  ∀ input io wake, (s.step (.worker input io wake)).isSome = true

/-- An error handler that parks has read a body. -/
theorem Resume.readable_of_parks {k : Resume} (h : k.parks = true) : k.readable = true := by
  cases k <;> first | rfl | exact nomatch h

/-- One that has read a body parks, but for the text of an error. -/
theorem Resume.parks_of_readable {k : Resume} (h : k.readable = true)
    (hne : ∀ c, k ≠ .errorReply c) : k.parks = true := by
  cases k with
  | leave => rfl
  | again => rfl
  | reply c => exact nomatch h
  | errorReply c => exact absurd rfl (hne c)

theorem CallerPc.settles_carried {pc : CallerPc} {c : CallId} (h : c ∈ pc.settles) :
    c ∈ pc.carried := by
  cases pc <;> first | exact h | exact nomatch h

theorem WorkerPc.settles_carried {pc : WorkerPc} {c : CallId} (h : c ∈ pc.settles) :
    c ∈ pc.carried := by
  cases pc <;> simp_all [WorkerPc.settles, WorkerPc.carried, WorkerPc.failing, WorkerPc.answering]

section Points

variable {who : Thread} {sh sh' : Shared} {io : Bool} {wake : Nat} {access : Access}

/-- A call stays settled. -/
theorem Access.apply_settled (happly : access.apply who sh = some sh') (c : CallId) :
    ((sh.data c).Settled → (sh'.data c).Settled) ∧
    (access = .setError c ∨ access = .decode c → (sh'.data c).Settled) := by
  rw [Access.apply_data happly c]
  clear happly
  cases access <;> simp only [Access.onData, CallData.Settled] <;> (repeat' split) <;> simp_all
  case pop.isTrue use _ => cases use <;> exact id

/-- A call is waiting until it is notified. -/
theorem Access.apply_waiter (happly : access.apply who sh = some sh') {c : CallId}
    (h : ∀ waiter, access ≠ .notify c waiter) : (sh'.data c).waiter = (sh.data c).waiter := by
  rw [Access.apply_data happly c]
  clear happly
  cases access <;> simp only [Access.onData] <;> (repeat' split) <;> simp_all
  case pop.isTrue use _ => cases use <;> rfl

/-- A call that has been notified is not notified again. -/
theorem Access.apply_notified (happly : access.apply who sh = some sh') {c : CallId}
    (hdone : ∀ waiter, access = .notify c waiter → (sh.data c).done = 0)
    (h : (sh.data c).waiter = .notified) : (sh'.data c).waiter = .notified := by
  rwa [Access.apply_waiter happly fun waiter heq => ?_]
  have hzero := hdone waiter heq
  rw [CallData.done, if_pos h] at hzero
  cases hzero

/-- A failing call sets the error of a call before it notifies it. -/
theorem CallerPc.next_settles {t : CallId} {pc pc' : CallerPc}
    (hnext : pc.next t sh io wake = some (access, pc')) (c : CallId) :
    (∀ waiter, access = .notify c waiter → c ∈ pc.settles) ∧
    (c ∈ pc'.settles → c ∈ pc.settles ∨ access = .setError c) := by
  cases CallerPc.next_cases hnext with
  | _ => simp_all [CallerPc.settles]

/-- So does the worker, or it has read the body of the call's reply. -/
theorem WorkerPc.next_settles {input : Input} {pc pc' : WorkerPc}
    (hnext : pc.next sh input io wake = some (access, pc')) (hsound : pc.sound = true)
    (c : CallId) :
    (∀ waiter, access = .notify c waiter → c ∈ pc.settles) ∧
    (c ∈ pc'.settles → c ∈ pc.settles ∨ access = .setError c ∨ access = .decode c) := by
  cases WorkerPc.next_cases hnext with
  | _ => simp_all [Resume.readable, WorkerPc.settles, WorkerPc.sound]

theorem WorkerPc.next_sound {input : Input} {pc pc' : WorkerPc}
    (hnext : pc.next sh input io wake = some (access, pc')) (hsound : pc.sound = true)
    (hreadable : pc.readable sh io = true) : pc'.sound = true := by
  have hparks : ∀ k, pc = .handlerLoad k → sh.state ≠ .closed → sh.state ≠ .failed →
      k.parks = true := by
    rintro k rfl hclosed hfailed
    refine Resume.parks_of_readable hsound ?_
    rintro c rfl
    simp [WorkerPc.readable, hclosed, hfailed] at hreadable
  cases WorkerPc.next_cases hnext with
  | handlerFailing k hstate =>
    exact hparks k rfl (by rw [hstate]; exact nofun) (by rw [hstate]; exact nofun)
  | handlerLoad k hclosed hfailed => exact hparks k rfl hclosed hfailed
  | handlerParked k => exact Resume.readable_of_parks hsound
  | handlerSwapFails old k => exact Resume.readable_of_parks hsound
  | decodeFails c hio hbody => simp [WorkerPc.readable, hio, hbody] at hreadable
  | _ => first | rfl | exact hsound

/-- The worker gives up the call it reads a reply for when it has notified it. -/
theorem WorkerPc.next_answering {input : Input} {pc pc' : WorkerPc}
    (hnext : pc.next sh input io wake = some (access, pc')) (c : CallId) :
    (c ∈ pc.answering → c ∈ pc'.answering ∨ access = .notify c .notified) ∧
    (∀ number, access = .pop (.reply number) → sh.pending.head? = some c → c ∈ pc'.answering) := by
  cases WorkerPc.next_cases hnext with
  | _ => simp_all [WorkerPc.answering, Resume.answering]

/-- Nothing is left to be notified behind an error handler that parks. -/
theorem Resume.answering_of_parks {k : Resume} (h : k.parks = true) : k.answering = [] := by
  cases k <;> first | rfl | exact nomatch h

/-- A worker that has a call to notify is not at rest, and not done. -/
theorem WorkerPc.answering_atRest {pc : WorkerPc} (hsound : pc.sound = true) {c : CallId}
    (hc : c ∈ pc.answering) : pc.atRest = false ∧ pc.started = true := by
  cases pc with
  | handlerParked k =>
    rw [answering, Resume.answering_of_parks hsound] at hc
    exact absurd hc List.not_mem_nil
  | _ => first | exact ⟨rfl, rfl⟩ | exact absurd hc List.not_mem_nil

/-- A worker that has a call to notify has a turn, once `cond_mutex` is free where it takes it. -/
theorem WorkerPc.next_goesOn {pc : WorkerPc} (hsound : pc.sound = true) {c : CallId}
    (hc : c ∈ pc.answering)
    (hfree : ∀ k, pc = .handlerLock k → sh.condMtx = none ∧ .worker ∉ sh.parked)
    (input : Input) (io : Bool) (wake : Nat) :
    ∃ access pc' sh', pc.next sh input io wake = some (access, pc') ∧
      access.apply .worker sh = some sh' := by
  cases pc with
  | handlerLock k => exact ⟨_, _, _, rfl, if_pos (hfree k rfl)⟩
  | handlerPop k =>
    cases hpending : sh.pending with
    | nil => exact ⟨_, _, _, by rw [next, hpending], rfl⟩
    | cons d pending => exact ⟨_, _, _, by rw [next, hpending], by rw [Access.apply, hpending]⟩
  | handlerLoad k => cases hstate : sh.state <;> exact ⟨_, _, _, by rw [next, hstate], rfl⟩
  | decode d =>
    rw [next]
    split <;> exact ⟨_, _, _, rfl, rfl⟩
  | handlerSwap old k | handlerBroadcast k | handlerWait k | handlerParked k =>
    rw [answering, Resume.answering_of_parks hsound] at hc
    exact absurd hc List.not_mem_nil
  | _ => first | exact ⟨_, _, _, rfl, rfl⟩ | exact absurd hc List.not_mem_nil

/-- Calls that are put on the list put it off. -/
theorem WorkerPc.turnsLeft_le {m n k : Nat} (h : m ≤ n + k) (pc : WorkerPc) :
    pc.turnsLeft m ≤ pc.turnsLeft n + 5 * k := by
  cases pc with
  | _ =>
    simp only [turnsLeft]
    omega

/-- Each turn of the worker brings it nearer to the call it has to notify. -/
theorem WorkerPc.next_turnsLeft {input : Input} {pc pc' : WorkerPc}
    (hnext : pc.next sh input io wake = some (access, pc'))
    (happly : access.apply .worker sh = some sh') (hsound : pc.sound = true)
    (hreadable : pc.readable sh io = true) {c : CallId} (hc : c ∈ pc.answering) :
    access = .notify c .notified ∨
    pc'.turnsLeft sh'.pending.length < pc.turnsLeft sh.pending.length := by
  have hsound' := WorkerPc.next_sound hnext hsound hreadable
  cases WorkerPc.next_cases hnext with
  | notified d | notifiedFailed d =>
    cases List.mem_singleton.mp hc
    exact .inl rfl
  | handlerPop k d pending hpending =>
    cases Access.apply_cases happly with
    | pop use _ _ h =>
      rw [hpending] at h ⊢
      cases h
      simp only [turnsLeft, List.length_cons]
      omega
  | decodeFails d hio hbody => simp [readable, hio, hbody] at hreadable
  | handlerLock k =>
    cases Access.apply_cases happly
    exact .inr (Nat.lt_succ_self _)
  | handlerFailing k | handlerLoad k | handlerSwap old k | handlerBroadcast k | handlerWait k =>
    rw [answering, Resume.answering_of_parks hsound'] at hc
    exact absurd hc List.not_mem_nil
  | handlerSwapFails old k | handlerParked k =>
    rw [answering, Resume.answering_of_parks hsound] at hc
    exact absurd hc List.not_mem_nil
  | _ =>
    first
    | cases happly
      refine .inr ?_
      simp only [turnsLeft, Shared.withData]
      omega
    | exact absurd hc List.not_mem_nil

end Points

/-- Calls are notified when they are settled, and before the next reply is read. -/
structure Completion (s : System) : Prop where
  ledger : Ledger s
  started : s.worker.started = true → s.shared.worker = .running
  waits : .worker ∈ s.shared.parked → s.worker.waits = true
  sound : s.worker.sound = true
  worker : ∀ c ∈ s.worker.settles, (s.shared.data c).Settled
  callers : ∀ t, ∀ c ∈ (s.callers t).settles, (s.shared.data c).Settled
  settled : ∀ c, (s.shared.data c).waiter ≠ .waiting → (s.shared.data c).Settled
  answered : ∀ c, (s.shared.data c).reply ≠ none →
    (s.shared.data c).waiter = .notified ∨ c ∈ s.worker.answering

theorem completion_init : Completion {} where
  ledger := Ledger.init
  started := nofun
  waits := nofun
  sound := rfl
  worker := nofun
  callers _ := nofun
  settled _ h := absurd rfl h
  answered _ h := absurd rfl h

namespace Completion

variable {s : System}

/-- What an access of any thread keeps, if the thread has settled what it notifies. -/
theorem apply_settled {who : Thread} {shared : Shared} {access : Access} (hs : Completion s)
    (happly : access.apply who s.shared = some shared)
    (hnotify : ∀ c waiter, access = .notify c waiter → (s.shared.data c).Settled) (c : CallId)
    (h : (shared.data c).waiter ≠ .waiting) : (shared.data c).Settled := by
  refine (Access.apply_settled happly c).1 ?_
  by_cases hwaiter : ∃ waiter, access = .notify c waiter
  · obtain ⟨waiter, hwaiter⟩ := hwaiter
    exact hnotify c waiter hwaiter
  · rw [Access.apply_waiter happly fun waiter heq => hwaiter ⟨waiter, heq⟩] at h
    exact hs.settled c h

/-- A thread that begins a function has not been put on the list. -/
theorem invoke (hs : Completion s) {t : CallId} {op : Op} (hidle : s.callers t = .idle)
    (hledger : Ledger (s.callerAt t (s.shared.withData t fun _ => op.callData) op.entry)) :
    Completion (s.callerAt t (s.shared.withData t fun _ => op.callData) op.entry) := by
  refine ⟨hledger, hs.started, hs.waits, hs.sound, fun c hc => ?_, fun u c hc => ?_,
    fun c hc => ?_, fun c hc => ?_⟩
  · have hpushed := hs.ledger.worker_pushed (WorkerPc.settles_carried hc)
    rw [System.callerAt_shared, hs.ledger.withData_pushed hidle _ hpushed]
    exact hs.worker c hc
  · by_cases heq : u = t
    · rw [heq, System.callerAt_self] at hc
      cases op <;> exact nomatch hc
    · rw [System.callerAt_of_ne s _ _ heq] at hc
      have hpushed := hs.ledger.caller_pushed (CallerPc.settles_carried hc)
      rw [System.callerAt_shared, hs.ledger.withData_pushed hidle _ hpushed]
      exact hs.callers u c hc
  · rw [System.callerAt_shared] at hc ⊢
    by_cases heq : c = t
    · rw [heq, Shared.withData_self] at hc
      cases op <;> exact absurd rfl hc
    · rw [s.shared.withData_of_ne _ heq] at hc ⊢
      exact hs.settled c hc
  · rw [System.callerAt_shared] at hc ⊢
    by_cases heq : c = t
    · rw [heq, Shared.withData_self] at hc
      cases op <;> exact absurd rfl hc
    · rw [s.shared.withData_of_ne _ heq] at hc ⊢
      exact hs.answered c hc

theorem caller (hs : Completion s) {t : CallId} {io : Bool} {wake : Nat} {access : Access}
    {pc : CallerPc} {shared : Shared}
    (hnext : (s.callers t).next t s.shared io wake = some (access, pc))
    (happly : access.apply (.caller t) s.shared = some shared)
    (hledger : Ledger (s.callerAt t shared pc)) : Completion (s.callerAt t shared pc) := by
  have hstays : ∀ c, (s.shared.data c).Settled → (shared.data c).Settled :=
    fun c => (Access.apply_settled happly c).1
  refine ⟨hledger, fun h => CallerPc.next_running hnext happly (hs.started h), fun h => ?_,
    hs.sound, fun c hc => hstays c (hs.worker c hc), fun u c hc => ?_,
    hs.apply_settled happly fun c waiter h =>
      hs.callers t c ((CallerPc.next_settles hnext c).1 waiter h), fun c hc => ?_⟩
  · exact hs.waits ((Access.parked_cases happly h).resolve_right fun h => nomatch h.2)
  · by_cases heq : u = t
    · rw [heq, System.callerAt_self] at hc
      rcases (CallerPc.next_settles hnext c).2 hc with h | h
      · exact hstays c (hs.callers t c h)
      · exact (Access.apply_settled happly c).2 (.inl h)
    · rw [System.callerAt_of_ne s shared pc heq] at hc
      exact hstays c (hs.callers u c hc)
  · -- A caller takes no reply, so the reply was there before.
    obtain ⟨number, hreply⟩ := Option.ne_none_iff_exists'.mp hc
    rcases Access.apply_reply happly hreply with h | ⟨h, -⟩
    · refine (hs.answered c (Option.ne_none_iff_exists'.mpr ⟨number, h⟩)).imp_left fun hdone => ?_
      exact Access.apply_notified happly
        (fun waiter h => hs.ledger.caller_done ((CallerPc.next_carried hnext).2 c waiter h)) hdone
    · exact absurd h (CallerPc.next_pop hnext number)

theorem worker_turn (hs : Completion s) {input : Input} {io : Bool} {wake : Nat}
    {access : Access} {pc : WorkerPc} {shared : Shared}
    (hreadable : s.Readable (.worker input io wake)) (hrunning : s.shared.worker = .running)
    (hnext : s.worker.next s.shared input io wake = some (access, pc))
    (happly : access.apply .worker s.shared = some shared)
    (hledger : Ledger { s with shared, worker := pc }) :
    Completion { s with shared, worker := pc } := by
  have hstays : ∀ c, (s.shared.data c).Settled → (shared.data c).Settled :=
    fun c => (Access.apply_settled happly c).1
  refine ⟨hledger, fun h => (WorkerPc.next_leaves hnext happly).2.2.2.2 h hrunning,
    fun h => (WorkerPc.next_parked hnext happly hs.waits h).2, ?_, fun c hc => ?_,
    fun u c hc => hstays c (hs.callers u c hc),
    hs.apply_settled happly fun c waiter h =>
      hs.worker c ((WorkerPc.next_settles hnext hs.sound c).1 waiter h), fun c hc => ?_⟩
  · exact WorkerPc.next_sound hnext hs.sound hreadable
  · rcases (WorkerPc.next_settles hnext hs.sound c).2 hc with h | h
    · exact hstays c (hs.worker c h)
    · exact (Access.apply_settled happly c).2 h
  · -- The reply was there before, or the worker takes it for this call now.
    obtain ⟨number, hreply⟩ := Option.ne_none_iff_exists'.mp hc
    rcases Access.apply_reply happly hreply with h | ⟨h, hhead⟩
    · obtain hdone | hanswering :=
        hs.answered c (Option.ne_none_iff_exists'.mpr ⟨number, h⟩)
      · exact .inl (Access.apply_notified happly
          (fun waiter h => hs.ledger.worker_done ((WorkerPc.next_carried hnext).2.2 c waiter h))
          hdone)
      · refine ((WorkerPc.next_answering hnext c).1 hanswering).symm.imp_left fun h => ?_
        subst h
        cases happly
        rw [Shared.withData_self]
    · exact .inr ((WorkerPc.next_answering hnext c).2 number h hhead)

end Completion

theorem completion_preserved : Transition.Preserves System.step System.Readable Completion := by
  intro s a s' hs hreadable hstep
  have hledger : Ledger s' := hs.ledger.step hstep
  obtain ⟨t, op, -, hidle, rfl⟩ | ⟨t, io, wake, access, pc, shared, -, hnext, happly, rfl⟩ |
    ⟨input, io, wake, access, pc, shared, rfl, hrunning, hnext, happly, rfl⟩ :=
    System.step_cases hstep
  · exact hs.invoke hidle hledger
  · exact hs.caller hnext happly hledger
  · exact hs.worker_turn hreadable hrunning hnext happly hledger

/-- What becomes of the calls that are taken off for a reply, along a run. -/
structure UndecodedFails (as : List Action) : Prop where
  /-- A call returns without an error only if its reply was read. -/
  returned : Transition.Along System.step (fun s a => ∀ t io wake s', a = .caller t io wake →
    s.callers t = .await → s.step a = some s' → s'.callers t = .returned true →
    (s.shared.data t).decoded = true) {} as
  /-- It is completed with an error where its reply was not read. -/
  failed : Transition.Always System.step (fun s => ∀ c, (s.shared.data c).reply ≠ none →
    (s.shared.data c).waiter = .notified → (s.shared.data c).decoded = false →
    (s.shared.data c).hasError = true) {} as
  /-- It has been notified when the worker is back at its loop, parks or returns. -/
  notified : Transition.Always System.step (fun s => s.worker.atRest = true →
    ∀ c, (s.shared.data c).reply ≠ none → (s.shared.data c).waiter = .notified) {} as
  /-- Until it has been notified, the worker can go on. -/
  goesOn : Transition.Always System.step (fun s => ∀ c, (s.shared.data c).reply ≠ none →
    (s.shared.data c).waiter ≠ .notified → s.WorkerGoesOn) {} as
  /-- Each turn of the worker brings it nearer, and no other step takes it further away, but
  for a call that is put on the list, by five turns. -/
  nearer : Transition.Along System.step (fun s a => ∀ c s', s.step a = some s' →
    (s.shared.data c).reply ≠ none → (s'.shared.data c).waiter ≠ .notified →
    s'.turnsLeft + a.workerTurns + 5 * s.shared.pushed.length ≤
      s.turnsLeft + 5 * s'.shared.pushed.length) {} as

namespace Completion

variable {s s' : System}

/-- A call that has been notified without an error has read its reply. -/
theorem decoded_of_notified (hs : Completion s) {c : CallId}
    (hwaiter : (s.shared.data c).waiter = .notified) (herror : (s.shared.data c).hasError = false) :
    (s.shared.data c).decoded = true := by
  have hsettled := hs.settled c (by rw [hwaiter]; exact nofun)
  exact hsettled.resolve_left (by rw [herror]; exact nofun)

/-- What a call that has waited returns. -/
theorem await_returned {t : CallId} {io : Bool} {wake : Nat} (hpc : s.callers t = .await)
    (hstep : s.step (.caller t io wake) = some s') (hok : s'.callers t = .returned true) :
    (s.shared.data t).waiter = .notified ∧ (s.shared.data t).hasError = false := by
  obtain ⟨⟨access, pc⟩, hnext, h⟩ := Option.bind_eq_some_iff.mp hstep
  obtain ⟨shared, happly, h⟩ := Option.bind_eq_some_iff.mp h
  cases h
  rw [hpc] at hnext
  rw [System.callerAt_self] at hok
  cases CallerPc.next_cases hnext with
  | await hwaiter => exact ⟨hwaiter, by simpa using hok⟩

/-- The worker rests with every call notified that it has taken off for a reply. -/
theorem rest_notified (hs : Completion s) (hrest : s.worker.atRest = true) {c : CallId}
    (hreply : (s.shared.data c).reply ≠ none) : (s.shared.data c).waiter = .notified :=
  (hs.answered c hreply).resolve_right fun hc =>
    nomatch hrest.symm.trans (WorkerPc.answering_atRest hs.sound hc).1

/-- A worker that has a call to notify runs, and is not parked. -/
theorem goesOn (hs : Completion s) {c : CallId} (hreply : (s.shared.data c).reply ≠ none)
    (hwaiter : (s.shared.data c).waiter ≠ .notified) : s.WorkerGoesOn := by
  have hc := (hs.answered c hreply).resolve_left hwaiter
  have hrunning := hs.started (WorkerPc.answering_atRest hs.sound hc).2
  refine or_iff_not_imp_left.mpr fun hcallers input io wake => ?_
  have hfree : ∀ k, s.worker = .handlerLock k →
      s.shared.condMtx = none ∧ .worker ∉ s.shared.parked := by
    refine fun k hk => ⟨Option.eq_none_iff_forall_ne_some.mpr fun th hth => ?_, fun hmem => ?_⟩
    · cases th with
      | caller t => exact hcallers ⟨t, hth⟩
      | worker =>
        have hholds : s.worker.holdsCond = true := (hs.ledger.locked.cond .worker).mpr hth
        rw [hk] at hholds
        exact nomatch hholds
    · have hwaits := hs.waits hmem
      rw [hk] at hwaits
      exact nomatch hwaits
  obtain ⟨access, pc, shared, hnext, happly⟩ :=
    WorkerPc.next_goesOn hs.sound hc hfree input io wake
  simp [System.step, hrunning, hnext, happly]

/-- A thread of the program puts the worker off by the calls it puts on the list. -/
theorem caller_turnsLeft {t : CallId} {shared : Shared} {access : Access} (pc : CallerPc)
    (happly : access.apply (.caller t) s.shared = some shared) :
    (s.callerAt t shared pc).turnsLeft + 5 * s.shared.pushed.length ≤
      s.turnsLeft + 5 * shared.pushed.length := by
  obtain ⟨hpushed, -, hpending⟩ := Access.apply_pending happly
  have hlength := congrArg List.length hpending
  rw [List.length_append, List.length_append] at hlength
  have hle : s.worker.turnsLeft shared.pending.length ≤
      s.worker.turnsLeft s.shared.pending.length + 5 * access.pushes.length :=
    s.worker.turnsLeft_le (by omega)
  rw [System.turnsLeft, System.turnsLeft, System.callerAt_worker, System.callerAt_shared, hpushed,
    List.length_append]
  omega

theorem nearer (hs : Completion s) {a : Action} (hreadable : s.Readable a)
    (hstep : s.step a = some s') {c : CallId} (hreply : (s.shared.data c).reply ≠ none)
    (hwaiter : (s'.shared.data c).waiter ≠ .notified) :
    s'.turnsLeft + a.workerTurns + 5 * s.shared.pushed.length ≤
      s.turnsLeft + 5 * s'.shared.pushed.length := by
  obtain ⟨t, op, rfl, -, rfl⟩ | ⟨t, io, wake, access, pc, shared, rfl, -, happly, rfl⟩ |
    ⟨input, io, wake, access, pc, shared, rfl, -, hnext, happly, rfl⟩ := System.step_cases hstep
  · exact Nat.le_refl _
  · exact caller_turnsLeft pc happly
  · obtain ⟨hpushes, -, hnotifies⟩ := WorkerPc.next_carried hnext
    obtain ⟨hpushed, -⟩ := Access.apply_pending happly
    have hc : c ∈ s.worker.answering := (hs.answered c hreply).resolve_left fun hdone =>
      hwaiter (Access.apply_notified happly
        (fun waiter h => hs.ledger.worker_done (hnotifies c waiter h)) hdone)
    rcases WorkerPc.next_turnsLeft hnext happly hs.sound hreadable hc with h | h
    · subst h
      cases happly
      exact absurd (by rw [Shared.withData_self]) hwaiter
    · rw [hpushes, List.append_nil] at hpushed
      simp only [System.turnsLeft, Action.workerTurns, hpushed]
      omega

end Completion

/-- No call returns without an error whose reply was not read, where every body can be read
and the text of an `ErrorReply` is cut short only on a client that is closed or has failed;
and every call that is taken off for a reply is notified. -/
theorem undecoded_fails (as : List Action)
    (h : Transition.Along System.step System.Readable {} as) : UndecodedFails as where
  returned := by
    refine completion_preserved.along (fun s a hs _ => ?_) completion_init h
    rintro t io wake s' rfl hpc hstep hok
    obtain ⟨hwaiter, herror⟩ := Completion.await_returned hpc hstep hok
    exact hs.decoded_of_notified hwaiter herror
  failed := by
    refine (completion_preserved.always completion_init h).imp fun s hs c _ hwaiter hdecoded => ?_
    have hsettled := hs.settled c (by rw [hwaiter]; exact nofun)
    exact hsettled.resolve_right (by rw [hdecoded]; exact nofun)
  notified := (completion_preserved.always completion_init h).imp
    fun _ hs hrest _ => hs.rest_notified hrest
  goesOn := (completion_preserved.always completion_init h).imp fun _ hs _ => hs.goesOn
  nearer := completion_preserved.along
    (fun _ _ hs hreadable _ _ hstep => hs.nearer hreadable hstep) completion_init h

/-- A call whose reply is read, and one that the server answers with an error. -/
theorem undecoded_fails_answered :
    UndecodedFails (Action.started ++ Action.alone 1 (.call .call) 7 ++
      Action.alone 2 (.call .callVoid) 7 ++ Action.work .reply 6 ++ Action.work .errorReply 7 ++
      Action.goOn 1 1 ++ Action.goOn 2 1) :=
  undecoded_fails _ (by decide)

/-- Reading the body of a reply fails; the error handler parks the worker until the error is
acknowledged, and then the call is notified. -/
def bodyCutShort : List Action :=
  Action.started ++ Action.alone 1 (.call .callNoRequest) 6 ++ Action.work .reply 2 ++
    [.worker .reply false 0] ++ Action.work .fails 7 ++ Action.alone 2 .wait 7 ++
    Action.work .fails 7 ++ Action.goOn 1 1

/-- The text of an `ErrorReply` is cut short, and the worker parks. -/
def textCutShort : List Action :=
  Action.started ++ Action.alone 1 (.call .callNoRequest) 6 ++ Action.work .errorReply 2 ++
    [.worker .errorReply false 0] ++ Action.work .fails 7

/-- In the one run the call returns without an error, its reply not read; in both the worker
has parked before the call was notified. -/
theorem undecoded_succeeds :
    ¬ UndecodedFails bodyCutShort ∧ ¬ UndecodedFails textCutShort ∧
    (Transition.run System.step {} bodyCutShort).map (fun s =>
      (s.callers 1, (s.shared.data 1).reply, (s.shared.data 1).decoded)) =
    some (.returned true, some 0, false) ∧
    (Transition.run System.step {} textCutShort).map (fun s =>
      (s.worker, (s.shared.data 1).reply, (s.shared.data 1).waiter)) =
    some (.handlerParked (.errorReply 1), some 0, .waiting) := by
  have hbody : (Transition.run System.step {} bodyCutShort).map (fun s =>
      (s.callers 1, (s.shared.data 1).reply, (s.shared.data 1).decoded)) =
    some (.returned true, some 0, false) := by decide
  have htext : (Transition.run System.step {} textCutShort).map (fun s =>
      (s.worker, (s.shared.data 1).reply, (s.shared.data 1).waiter)) =
    some (.handlerParked (.errorReply 1), some 0, .waiting) := by decide
  have hdata : (Transition.run System.step {} bodyCutShort).map (fun s =>
      ((s.shared.data 1).waiter, (s.shared.data 1).hasError)) = some (.notified, false) := by decide
  refine ⟨fun h => ?_, fun h => ?_, hbody, htext⟩
  · obtain ⟨s, hs, heq⟩ := Option.map_eq_some_iff.mp hbody
    simp only [Prod.mk.injEq] at heq
    obtain ⟨-, hreply, hdecoded⟩ := heq
    rw [hs, Option.map_some, Option.some.injEq, Prod.mk.injEq] at hdata
    have herror := h.failed.last hs 1 (by rw [hreply]; exact nofun) hdata.1 hdecoded
    rw [hdata.2] at herror
    exact nomatch herror
  · obtain ⟨s, hs, heq⟩ := Option.map_eq_some_iff.mp htext
    simp only [Prod.mk.injEq] at heq
    obtain ⟨hworker, hreply, hwaiter⟩ := heq
    have hnotified := h.notified.last hs (by rw [hworker]; rfl) 1 (by rw [hreply]; exact nofun)
    rw [hwaiter] at hnotified
    exact nomatch hnotified

end SerialRpc.Client
