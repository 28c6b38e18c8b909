import SerialRpc.Lib.Mutex
import SerialRpc.Lib.Transition
import SerialRpc.Client.Program

/-!
# The client as a transition system

Any number of threads, each in one of the client's functions, and the input worker take
turns; a step of the system is one access of one of them. A thread that calls several
functions one after the other is here as several threads.

- `System.step`, by `Action`: whose turn it is, and what the environment decides.
- `Locked`: the two mutexes are held by the threads that are between taking and
  releasing them, in every reachable state (`locked_preserved`).
- `System.inCall`: what the thread in a `call_mtx` section has.
-/

namespace SerialRpc.Client

/-- A client over a connection, and the threads that use it. -/
structure System where
  shared : Shared := {}
  callers : CallId → CallerPc := fun _ => .idle
  worker : WorkerPc := .hello

/-- A turn: a thread begins a function, or it or the input worker makes its next access.
`io` says whether a read or write of the connection succeeds, `wake` whom a signal
wakes, `input` what the server sends. -/
inductive Action where
  | invoke (t : CallId) (op : Op)
  | caller (t : CallId) (io : Bool) (wake : Nat)
  | worker (input : Input) (io : Bool) (wake : Nat)
deriving DecidableEq, Repr

/-- A thread that makes some function's first accesses without a break. -/
def Action.alone (t : CallId) (op : Op) (accesses : Nat) : List Action :=
  .invoke t op :: List.replicate accesses (.caller t true 0)

/-- A thread that makes its next accesses without a break. -/
def Action.goOn (t : CallId) (accesses : Nat) : List Action :=
  List.replicate accesses (.caller t true 0)

/-- The input worker that makes its next accesses without a break. -/
def Action.work (input : Input) (accesses : Nat) : List Action :=
  List.replicate accesses (.worker input true 0)

/-- A thread starts the client, and the server answers the hello. -/
def Action.started : List Action :=
  Action.alone 0 .start 6 ++ Action.work .fails 6 ++ Action.goOn 0 5

/-- The `CallData` of a function that sends a request. -/
def Op.callData : Op → CallData
  | .call shape => { unmarshal := shape.unmarshal }
  | .close | .wait | .start => {}

namespace System

/-- The state after a thread's access. -/
def callerAt (s : System) (t : CallId) (shared : Shared) (pc : CallerPc) : System :=
  { s with shared, callers := Function.update s.callers t pc }

/-- One turn. -/
def step (s : System) : Action → Option System
  | .invoke t op =>
    if s.callers t = .idle then
      some (s.callerAt t (s.shared.withData t fun _ => op.callData) op.entry)
    else none
  | .caller t io wake => do
    let (access, pc) ← (s.callers t).next t s.shared io wake
    let shared ← access.apply (.caller t) s.shared
    return s.callerAt t shared pc
  | .worker input io wake =>
    if s.shared.worker = .running then do
      let (access, pc) ← s.worker.next s.shared input io wake
      let shared ← access.apply .worker s.shared
      return { s with shared, worker := pc }
    else none

@[simp] theorem callerAt_shared (s : System) (t : CallId) (shared : Shared) (pc : CallerPc) :
    (s.callerAt t shared pc).shared = shared := rfl

@[simp] theorem callerAt_worker (s : System) (t : CallId) (shared : Shared) (pc : CallerPc) :
    (s.callerAt t shared pc).worker = s.worker := rfl

@[simp] theorem callerAt_self (s : System) (t : CallId) (shared : Shared) (pc : CallerPc) :
    (s.callerAt t shared pc).callers t = pc :=
  Function.update_self ..

/-- A step of one caller leaves the others where they are. -/
theorem callerAt_of_ne (s : System) {t u : CallId} (shared : Shared) (pc : CallerPc)
    (h : u ≠ t) : (s.callerAt t shared pc).callers u = s.callers u :=
  Function.update_of_ne h ..

/-- What a turn can be. -/
theorem step_cases {s s' : System} {a : Action} (h : s.step a = some s') :
    (∃ t op, a = .invoke t op ∧ s.callers t = .idle ∧
      s' = s.callerAt t (s.shared.withData t fun _ => op.callData) op.entry) ∨
    (∃ t io wake access pc shared, a = .caller t io wake ∧
      (s.callers t).next t s.shared io wake = some (access, pc) ∧
      access.apply (.caller t) s.shared = some shared ∧ s' = s.callerAt t shared pc) ∨
    (∃ input io wake access pc shared, a = .worker input io wake ∧
      s.shared.worker = .running ∧
      s.worker.next s.shared input io wake = some (access, pc) ∧
      access.apply .worker s.shared = some shared ∧
      s' = { s with shared, worker := pc }) := by
  cases a with
  | invoke t op =>
    simp only [step] at h
    split at h
    · rename_i hidle
      cases h
      exact .inl ⟨t, op, rfl, hidle, rfl⟩
    · cases h
  | caller t io wake =>
    obtain ⟨⟨access, pc⟩, hnext, h⟩ := Option.bind_eq_some_iff.mp h
    obtain ⟨shared, happly, h⟩ := Option.bind_eq_some_iff.mp h
    cases h
    exact .inr (.inl ⟨t, io, wake, access, pc, shared, rfl, hnext, happly, rfl⟩)
  | worker input io wake =>
    simp only [step] at h
    split at h
    · rename_i hrunning
      obtain ⟨⟨access, pc⟩, hnext, h⟩ := Option.bind_eq_some_iff.mp h
      obtain ⟨shared, happly, h⟩ := Option.bind_eq_some_iff.mp h
      cases h
      exact .inr (.inr ⟨input, io, wake, access, pc, shared, rfl, hrunning, hnext, happly, rfl⟩)
    · cases h

end System

/-! ## The mutexes -/

/-- Between taking and releasing `call_mtx`. -/
def CallerPc.holdsCall : CallerPc → Bool
  | .idle | .returned _ | .callLock _ | .await | .closeLock | .startLock | .waitLock | .waitLoad
  | .waitParked | .waitCheck | .waitDeref | .waitStore | .waitSignal | .waitUnlock _ => false
  | .checkLoad _ | .checkLock _ | .checkReload _ | .checkUnlock _ _ | .writeId _ | .push _
  | .body _ _ | .callUnlock | .failPop | .failSetError _ | .failNotify _ | .failWake _
  | .failNotified _ | .failLoad | .failSwap _ | .failClose | .failUnlock | .closeLoad
  | .closeSwitch _ | .closeAckLock | .closeAckStore | .closeAckSignal | .closeAckUnlock
  | .closeSwap _ | .closeGoodbye | .closeJoin _ | .closeConn _ | .closeUnlock | .startLoad
  | .startSwap | .startSpawn | .startCondLock _ | .startCondLoad _ | .startParked _ | .startCheck
  | .startFailLock | .startFailLoad | .startDeref | .startStore | .startSignal
  | .startCondUnlock _ _ | .startUnlock _ => true

/-- Between taking and releasing `cond_mutex`. -/
def CallerPc.holdsCond : CallerPc → Bool
  | .checkReload _ | .checkUnlock _ _ | .closeAckStore | .closeAckSignal | .closeAckUnlock
  | .waitLoad | .waitCheck | .waitDeref | .waitStore | .waitSignal | .waitUnlock _
  | .startCondLoad _ | .startCheck | .startFailLoad | .startDeref | .startStore | .startSignal
  | .startCondUnlock _ _ => true
  | .idle | .returned _ | .callLock _ | .checkLoad _ | .checkLock _ | .writeId _ | .push _
  | .body _ _ | .callUnlock | .await | .failPop | .failSetError _ | .failNotify _ | .failWake _
  | .failNotified _ | .failLoad | .failSwap _ | .failClose | .failUnlock | .closeLock | .closeLoad
  | .closeSwitch _ | .closeAckLock | .closeSwap _ | .closeGoodbye | .closeJoin _ | .closeConn _
  | .closeUnlock | .waitLock | .waitParked | .startLock | .startLoad | .startSwap | .startSpawn
  | .startCondLock _ | .startParked _ | .startFailLock | .startUnlock _ => false

/-- Between taking and releasing `cond_mutex`. -/
def WorkerPc.holdsCond : WorkerPc → Bool
  | .helloLoad | .helloSwap | .helloSignal | .helloUnlock | .handlerSetErr _ | .handlerPop _
  | .handlerSetError _ _ | .handlerNotify _ _ | .handlerWake _ _ | .handlerNotified _ _
  | .handlerLoad _ | .handlerSwap _ _ | .handlerBroadcast _ | .handlerWait _ | .handlerClear _
  | .handlerUnlock _ => true
  | .hello | .helloLock | .read _ | .serverGoodbye | .ending | .returned | .popReply _ | .decode _
  | .popErrorReply _ | .readText _ | .setError _ _ | .notify _ _ | .wake _ _ | .notified _ _
  | .handlerLock _ | .handlerParked _ => false

/-- A thread holds `call_mtx`. The worker never does. -/
def System.holdsCall (s : System) : Thread → Bool
  | .caller t => (s.callers t).holdsCall
  | .worker => false

/-- A thread holds `cond_mutex`. -/
def System.holdsCond (s : System) : Thread → Bool
  | .caller t => (s.callers t).holdsCond
  | .worker => s.worker.holdsCond

/-- The mutexes agree with where the threads are. -/
structure Locked (s : System) : Prop where
  call : Mutex.Held s.holdsCall s.shared.callMtx
  cond : Mutex.Held s.holdsCond s.shared.condMtx

section Turns

variable {who : Thread} {sh sh' : Shared} {io : Bool} {wake : Nat} {access : Access}

/-- An access that takes or releases `call_mtx` does so where the thread's points say so. -/
theorem CallerPc.next_holdsCall {t : CallId} {pc pc' : CallerPc}
    (h : pc.next t sh io wake = some (access, pc')) :
    (access = .lockCall ∧ pc'.holdsCall = true) ∨
    (access = .unlockCall ∧ pc.holdsCall = true ∧ pc'.holdsCall = false) ∨
    (access ≠ .lockCall ∧ access ≠ .unlockCall ∧ pc'.holdsCall = pc.holdsCall) := by
  cases CallerPc.next_cases h with
  | _ => simp [CallerPc.holdsCall]

theorem CallerPc.next_holdsCond {t : CallId} {pc pc' : CallerPc}
    (h : pc.next t sh io wake = some (access, pc')) :
    (access = .lockCond ∧ pc'.holdsCond = true) ∨
    ((access = .unlockCond ∨ access = .wait) ∧ pc.holdsCond = true ∧ pc'.holdsCond = false) ∨
    (access ≠ .lockCond ∧ access ≠ .unlockCond ∧ access ≠ .wait ∧
      pc'.holdsCond = pc.holdsCond) := by
  cases CallerPc.next_cases h with
  | _ => simp [CallerPc.holdsCond]

theorem WorkerPc.next_holdsCond {input : Input} {pc pc' : WorkerPc}
    (h : pc.next sh input io wake = some (access, pc')) :
    (access = .lockCond ∧ pc'.holdsCond = true) ∨
    ((access = .unlockCond ∨ access = .wait) ∧ pc.holdsCond = true ∧ pc'.holdsCond = false) ∨
    (access ≠ .lockCond ∧ access ≠ .unlockCond ∧ access ≠ .wait ∧
      pc'.holdsCond = pc.holdsCond) := by
  cases WorkerPc.next_cases h with
  | _ => simp [WorkerPc.holdsCond]

/-- The worker never takes `call_mtx`. -/
theorem WorkerPc.next_call {input : Input} {pc pc' : WorkerPc}
    (h : pc.next sh input io wake = some (access, pc')) :
    access ≠ .lockCall ∧ access ≠ .unlockCall := by
  cases WorkerPc.next_cases h with
  | _ => exact ⟨nofun, nofun⟩

/-- `call_mtx` is taken when it is free, and given up. -/
theorem Access.apply_callMtx (h : access.apply who sh = some sh') :
    (access = .lockCall → sh.callMtx = none ∧ sh'.callMtx = some who) ∧
    (access = .unlockCall → sh'.callMtx = none) ∧
    (access ≠ .lockCall → access ≠ .unlockCall → sh'.callMtx = sh.callMtx) := by
  cases Access.apply_cases h with
  | _ => simp_all [Shared.withData]

theorem Access.apply_condMtx (h : access.apply who sh = some sh') :
    (access = .lockCond → sh.condMtx = none ∧ sh'.condMtx = some who) ∧
    (access = .unlockCond ∨ access = .wait → sh'.condMtx = none) ∧
    (access ≠ .lockCond → access ≠ .unlockCond → access ≠ .wait → sh'.condMtx = sh.condMtx) := by
  cases Access.apply_cases h with
  | _ => simp_all [Shared.withData]

end Turns

section Locks

variable {who : Thread} {sh sh' : Shared} {access : Access}

/-- The worker does not touch `call_mtx`. -/
theorem WorkerPc.next_callMtx {input : Input} {io : Bool} {wake : Nat} {pc pc' : WorkerPc}
    (hnext : pc.next sh input io wake = some (access, pc'))
    (happly : access.apply .worker sh = some sh') : sh'.callMtx = sh.callMtx :=
  (Access.apply_callMtx happly).2.2 (WorkerPc.next_call hnext).1 (WorkerPc.next_call hnext).2

/-- What an access does to `call_mtx`, for a thread with points as in `next_holdsCall`. -/
theorem Access.turnCall (happly : access.apply who sh = some sh') {before after : Bool}
    (h : (access = .lockCall ∧ after = true) ∨
      (access = .unlockCall ∧ before = true ∧ after = false) ∨
      (access ≠ .lockCall ∧ access ≠ .unlockCall ∧ after = before)) :
    Mutex.Turn who sh.callMtx sh'.callMtx before after := by
  obtain ⟨hlock, hunlock, hkeep⟩ := Access.apply_callMtx happly
  rcases h with ⟨heq, hafter⟩ | ⟨heq, hbefore, hafter⟩ | ⟨hne, hne', hsame⟩
  · exact .acquire (hlock heq).1 (hlock heq).2 hafter
  · exact .release hbefore (hunlock heq) hafter
  · exact .keep (hkeep hne hne') hsame

/-- What an access does to `cond_mutex`, for a thread with points as in `next_holdsCond`. -/
theorem Access.turnCond (happly : access.apply who sh = some sh') {before after : Bool}
    (h : (access = .lockCond ∧ after = true) ∨
      ((access = .unlockCond ∨ access = .wait) ∧ before = true ∧ after = false) ∨
      (access ≠ .lockCond ∧ access ≠ .unlockCond ∧ access ≠ .wait ∧ after = before)) :
    Mutex.Turn who sh.condMtx sh'.condMtx before after := by
  obtain ⟨hlock, hunlock, hkeep⟩ := Access.apply_condMtx happly
  rcases h with ⟨heq, hafter⟩ | ⟨heq, hbefore, hafter⟩ | ⟨hne, hne', hne'', hsame⟩
  · exact .acquire (hlock heq).1 (hlock heq).2 hafter
  · exact .release hbefore (hunlock heq) hafter
  · exact .keep (hkeep hne hne' hne'') hsame

/-- A step of one caller leaves what the others have of `call_mtx`. -/
theorem System.holdsCall_callerAt (s : System) (t : CallId) (shared : Shared) (pc : CallerPc) :
    ∀ th, th ≠ .caller t → (s.callerAt t shared pc).holdsCall th = s.holdsCall th
  | .caller u, h => by
    have hne : u ≠ t := fun heq => h (congrArg Thread.caller heq)
    rw [holdsCall, holdsCall, callerAt_of_ne s shared pc hne]
  | .worker, _ => rfl

theorem System.holdsCond_callerAt (s : System) (t : CallId) (shared : Shared) (pc : CallerPc) :
    ∀ th, th ≠ .caller t → (s.callerAt t shared pc).holdsCond th = s.holdsCond th
  | .caller u, h => by
    have hne : u ≠ t := fun heq => h (congrArg Thread.caller heq)
    rw [holdsCond, holdsCond, callerAt_of_ne s shared pc hne]
  | .worker, _ => rfl

/-- A caller starts with no mutex. -/
theorem Op.entry_holds (op : Op) : op.entry.holdsCall = false ∧ op.entry.holdsCond = false := by
  cases op <;> exact ⟨rfl, rfl⟩

theorem locked_init : Locked {} where
  call th := by cases th <;> exact ⟨nofun, nofun⟩
  cond th := by cases th <;> exact ⟨nofun, nofun⟩

/-- Every turn keeps the mutexes in agreement with the threads. -/
theorem locked_preserved : Transition.Preserves System.step (fun _ _ => True) Locked := by
  intro s a s' hs _ hstep
  obtain ⟨t, op, -, hidle, rfl⟩ | ⟨t, io, wake, access, pc, shared, -, hnext, happly, rfl⟩ |
    ⟨input, io, wake, access, pc, shared, -, -, hnext, happly, rfl⟩ := System.step_cases hstep
  · obtain ⟨hcall, hcond⟩ := op.entry_holds
    refine ⟨hs.call.turn (s.holdsCall_callerAt t _ _) (.keep rfl ?_),
      hs.cond.turn (s.holdsCond_callerAt t _ _) (.keep rfl ?_)⟩
    · simp only [System.holdsCall, System.callerAt_self, hcall, hidle]
      rfl
    · simp only [System.holdsCond, System.callerAt_self, hcond, hidle]
      rfl
  · refine ⟨hs.call.turn (s.holdsCall_callerAt t _ _) (Access.turnCall happly ?_),
      hs.cond.turn (s.holdsCond_callerAt t _ _) (Access.turnCond happly ?_)⟩
    · simp only [System.holdsCall, System.callerAt_self]
      exact CallerPc.next_holdsCall hnext
    · simp only [System.holdsCond, System.callerAt_self]
      exact CallerPc.next_holdsCond hnext
  · obtain ⟨hne, hne'⟩ := WorkerPc.next_call hnext
    -- The worker neither takes nor leaves `call_mtx`, and its turn moves no other thread.
    have hothers : ∀ th, th ≠ .worker → System.holdsCond { s with shared, worker := pc } th =
        s.holdsCond th := by
      intro th hth
      cases th with
      | caller u => rfl
      | worker => exact absurd rfl hth
    refine ⟨hs.call.turn (fun th _ => by cases th <;> rfl)
        (Access.turnCall happly (.inr (.inr ⟨hne, hne', rfl⟩))),
      hs.cond.turn hothers (Access.turnCond happly (WorkerPc.next_holdsCond hnext))⟩

/-- Each mutex stays with the thread that is behind its lock. -/
theorem Locked.step {s s' : System} {a : Action} (hs : Locked s) (h : s.step a = some s') :
    Locked s' :=
  locked_preserved s a s' hs trivial h

end Locks

/-! ## What the thread in a `call_mtx` section has -/

namespace System

universe u

variable {ε : Type u} {d : ε} {f : CallId → CallerPc → ε}

/-- What a thread has at its point. -/
def atPoint (s : System) (d : ε) (f : CallId → CallerPc → ε) : Thread → ε
  | .caller t => f t (s.callers t)
  | .worker => d

/-- What the thread that holds `call_mtx` has, and `d` when it is free. -/
def inCall (s : System) (d : ε) (f : CallId → CallerPc → ε) : ε :=
  Mutex.share s.shared.callMtx d (s.atPoint d f)

theorem atPoint_callerAt (s : System) (t : CallId) (shared : Shared) (pc : CallerPc) :
    ∀ th, th ≠ .caller t → (s.callerAt t shared pc).atPoint d f th = s.atPoint d f th
  | .caller u, h => by
    have hne : u ≠ t := fun heq => h (congrArg Thread.caller heq)
    rw [atPoint, atPoint, callerAt_of_ne s shared pc hne]
  | .worker, _ => rfl

/-- What is seen of the one that has `call_mtx` is seen of its caller. -/
theorem inCall_eq {s : System} (hs : Locked s) {t : CallId}
    (ht : (s.callers t).holdsCall = true) : s.inCall d f = f t (s.callers t) :=
  hs.call.share_eq (show s.holdsCall (.caller t) = true from ht)

/-- Either a thread's step is one of the thread in the section, or it leaves that alone. -/
theorem inCall_callerAt {s : System} {t : CallId} {shared : Shared} {pc : CallerPc}
    (hs : Locked s) (hs' : Locked (s.callerAt t shared pc))
    (hf : ∀ pc, pc.holdsCall = false → f t pc = d) :
    (s.inCall d f = f t (s.callers t) ∧ (s.callerAt t shared pc).inCall d f = f t pc) ∨
    (f t (s.callers t) = d ∧ f t pc = d ∧
      (s.callerAt t shared pc).inCall d f = s.inCall d f) := by
  have hturn := hs.call.share_turn (Thread.caller t) (s.atPoint d f)
    ((s.callerAt t shared pc).atPoint d f) hs'.call
    (fun th hth => ⟨s.holdsCall_callerAt t shared pc th hth, s.atPoint_callerAt t shared pc th hth⟩)
    (hf (s.callers t)) (hf ((s.callerAt t shared pc).callers t))
  simpa only [inCall, atPoint, callerAt_self] using hturn

/-- A count of what the thread in the section has changes with its points. -/
theorem inCall_callerAt_add {s : System} {t : CallId} {shared : Shared} {pc : CallerPc}
    {f : CallId → CallerPc → Nat} (hs : Locked s) (hs' : Locked (s.callerAt t shared pc))
    (hf : ∀ pc, pc.holdsCall = false → f t pc = 0) :
    (s.callerAt t shared pc).inCall 0 f + f t (s.callers t) = s.inCall 0 f + f t pc := by
  rcases inCall_callerAt hs hs' hf with ⟨h, h'⟩ | ⟨h, h', hsame⟩
  · rw [h, h', Nat.add_comm]
  · rw [h, h', hsame]

/-- The worker's steps leave it alone. -/
theorem inCall_worker {s : System} {shared : Shared} {pc : WorkerPc}
    (h : shared.callMtx = s.shared.callMtx) :
    inCall { s with shared, worker := pc } d f = s.inCall d f := by
  simp only [inCall, h]
  rfl

end System

end SerialRpc.Client
