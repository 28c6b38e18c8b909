import SerialRpc.Client.Ledger

/-!
# How long a `CallData` lives (client.cc:194-210, 439-547, 690-709, client.h:115-148)

A `CallData` is a local variable of its call. A call that waits returns when it has been
notified, which is the last thing that is done to its `CallData`. A call that fails
returns without waiting: it takes what is on the list off, its own `CallData` too if it
is still there, but the worker may have taken that off for a reply and not be done with it.

- `CallerPc.touches`, `WorkerPc.touches`: the calls whose `CallData` a thread reads or
  writes at a point, its own apart.
- `Alive`: what has been put on the list and not been notified belongs to a call that has
  not returned (`alive_preserved`).
- `none_stale`: where no call returns through `fail` while the worker carries it, nobody
  touches the `CallData` of a call that has returned.
-/

namespace SerialRpc.Client

/-- The call has returned, and its `CallData` is gone. -/
def CallerPc.hasReturned : CallerPc → Bool
  | .returned _ => true
  | _ => false

/-- The calls whose `CallData` a thread reads or writes next, its own apart. A push links
the `CallData` to the last one of the list, a pop reads the link of the first one. -/
def CallerPc.touches (pending : List CallId) : CallerPc → List CallId
  | .push _ => pending.getLast?.toList
  | .failPop => pending.take 1
  | .failSetError c | .failNotify c | .failWake c | .failNotified c => [c]
  | _ => []

/-- The calls whose `CallData` the worker reads or writes next. -/
def WorkerPc.touches (pending : List CallId) : WorkerPc → List CallId
  | .popReply _ | .popErrorReply _ | .handlerPop _ => pending.take 1
  | .decode c | .setError c _ | .notify c _ | .wake c _ | .notified c _ | .handlerSetError c _
  | .handlerNotify c _ | .handlerWake c _ | .handlerNotified c _ => [c]
  | _ => []

/-- Points of the functions that send no request, and of a call before the push. -/
def CallerPc.apart : CallerPc → Bool
  | .idle | .callLock _ | .checkLoad _ | .checkLock _ | .checkReload _ | .checkUnlock _ _
  | .writeId _ | .push _ | .closeLock | .closeLoad | .closeSwitch _ | .closeAckLock
  | .closeAckStore | .closeAckSignal | .closeAckUnlock | .closeSwap _ | .closeGoodbye
  | .closeJoin _ | .closeConn _ | .closeUnlock | .waitLock | .waitLoad | .waitParked
  | .waitCheck | .waitDeref | .waitStore | .waitSignal | .waitUnlock _ | .startLock | .startLoad
  | .startSwap | .startSpawn | .startCondLock _ | .startCondLoad _ | .startParked _ | .startCheck
  | .startFailLock | .startFailLoad | .startDeref | .startStore | .startSignal
  | .startCondUnlock _ _ | .startUnlock _ => true
  | .returned _ | .body _ _ | .callUnlock | .await | .failPop | .failSetError _ | .failNotify _
  | .failWake _ | .failNotified _ | .failLoad | .failSwap _ | .failClose | .failUnlock => false

/-- Points of a failing call behind `fail_pending_calls`. -/
def CallerPc.emptied : CallerPc → Bool
  | .failLoad | .failSwap _ | .failClose | .failUnlock => true
  | _ => false

section Points

variable {sh : Shared} {io : Bool} {wake : Nat} {access : Access}

/-- A caller at a point that sends no request was at one before, and has put nothing on the list. -/
theorem CallerPc.next_apart {t : CallId} {pc pc' : CallerPc}
    (hnext : pc.next t sh io wake = some (access, pc')) :
    (pc'.apart = true → pc.apart = true ∧ access.pushes = []) ∧
    (pc'.emptied = true → access.pushes = [] ∧ (pc.emptied = true ∨ sh.pending = [])) := by
  cases CallerPc.next_cases hnext with
  | _ => simp_all [CallerPc.apart, CallerPc.emptied, Access.pushes]

theorem CallerPc.next_pushes_holdsCall {t : CallId} {pc pc' : CallerPc}
    (hnext : pc.next t sh io wake = some (access, pc')) (h : access.pushes ≠ []) :
    pc.holdsCall = true := by
  cases CallerPc.next_cases hnext with
  | push => rfl
  | _ => exact absurd rfl h

theorem CallerPc.emptied_holdsCall {pc : CallerPc} (h : pc.emptied = true) :
    pc.holdsCall = true := by
  cases pc <;> first | rfl | exact nomatch h

/-- A thread returns from a function that sends no request, when it has been notified, or
at the end of `fail`. -/
theorem CallerPc.next_returned {t : CallId} {pc pc' : CallerPc}
    (hnext : pc.next t sh io wake = some (access, pc')) (h : pc'.hasReturned = true) :
    access.pushes = [] ∧ access.notifies = [] ∧
    (pc.apart = true ∨ (sh.data t).done = 1 ∨ pc = .failUnlock) := by
  cases CallerPc.next_cases hnext with
  | _ =>
    simp_all [CallerPc.hasReturned, CallerPc.apart, Access.pushes, Access.notifies, CallData.done]

/-- A caller touches calls of the list, and those that it carries. -/
theorem CallerPc.touches_subset {pending : List CallId} {pc : CallerPc} {c : CallId}
    (h : c ∈ pc.touches pending) : c ∈ pending ∨ c ∈ pc.carried := by
  cases pc <;> simp_all [CallerPc.touches, CallerPc.carried]
  case push => exact List.mem_of_getLast? h
  case failPop => exact List.mem_of_mem_take h

theorem WorkerPc.touches_subset {pending : List CallId} {pc : WorkerPc} {c : CallId}
    (h : c ∈ pc.touches pending) : c ∈ pending ∨ c ∈ pc.carried := by
  cases pc <;> simp_all [WorkerPc.touches, WorkerPc.carried, WorkerPc.failing, WorkerPc.answering]
  all_goals first | exact List.mem_of_mem_take h | exact .inl (List.mem_of_mem_take h)

end Points

/-- What has been put on the list and not been notified belongs to a call that has not
returned. -/
structure Alive (s : System) : Prop where
  ledger : Ledger s
  apart : ∀ t, (s.callers t).apart = true → t ∉ s.shared.pushed
  emptied : ∀ t, (s.callers t).emptied = true → s.shared.pending = []
  alive : ∀ c ∈ s.shared.pushed, (s.shared.data c).done = 0 → (s.callers c).hasReturned = false

/-- No call returns through `fail` while the worker carries it. -/
def System.NoneCarried (s : System) : Action → Prop
  | .caller t _ _ => s.callers t = .failUnlock → t ∉ s.worker.carried
  | .invoke _ _ | .worker _ _ _ => True

instance (s : System) : ∀ a, Decidable (s.NoneCarried a)
  | .caller _ _ _ => inferInstanceAs (Decidable (_ → _))
  | .invoke _ _ | .worker _ _ _ => inferInstanceAs (Decidable True)

theorem alive_init : Alive {} where
  ledger := Ledger.init
  apart _ _ := List.not_mem_nil
  emptied _ _ := rfl
  alive _ hc := nomatch hc

namespace Alive

variable {s : System}

/-- A new call is not on the list yet. -/
theorem invoke (hs : Alive s) {t : CallId} {op : Op} (hidle : s.callers t = .idle)
    (hledger : Ledger (s.callerAt t (s.shared.withData t fun _ => op.callData) op.entry)) :
    Alive (s.callerAt t (s.shared.withData t fun _ => op.callData) op.entry) := by
  have hfresh : t ∉ s.shared.pushed := hs.apart t (by rw [hidle]; rfl)
  refine ⟨hledger, fun u hu => ?_, fun u hu => ?_, fun c hc hdone => ?_⟩
  · by_cases heq : u = t
    · exact heq ▸ hfresh
    · exact hs.apart u (by rwa [System.callerAt_of_ne s _ _ heq] at hu)
  · by_cases heq : u = t
    · rw [heq, System.callerAt_self] at hu
      cases op <;> exact nomatch hu
    · exact hs.emptied u (by rwa [System.callerAt_of_ne s _ _ heq] at hu)
  · have hne : c ≠ t := fun heq => hfresh (heq ▸ hc)
    rw [System.callerAt_shared, s.shared.withData_of_ne _ hne] at hdone
    rw [System.callerAt_of_ne s _ _ hne]
    exact hs.alive c hc hdone

/-- A call that comes to the end of `fail` has been notified, unless the worker carries it. -/
theorem done_of_failUnlock (hs : Alive s) {t : CallId} (hpc : s.callers t = .failUnlock)
    (hcarried : t ∉ s.worker.carried) (hpushed : t ∈ s.shared.pushed) :
    (s.shared.data t).done ≠ 0 := by
  intro hdone
  have hplaced := hs.ledger.placed t
  have hcall : (s.callers t).holdsCall = true := by rw [hpc]; rfl
  rw [System.inCall_eq hs.ledger.locked hcall, hpc, hs.emptied t (by rw [hpc]; rfl), hdone,
    List.count_eq_zero.mpr hcarried] at hplaced
  exact absurd (List.count_eq_zero.mp hplaced.symm) (not_not_intro hpushed)

/-- A step of a caller that carries nothing keeps that. -/
theorem caller (hs : Alive s) {t : CallId} {io : Bool} {wake : Nat} {access : Access}
    {pc : CallerPc} {shared : Shared} (hok : s.NoneCarried (.caller t io wake))
    (hnext : (s.callers t).next t s.shared io wake = some (access, pc))
    (happly : access.apply (.caller t) s.shared = some shared)
    (hledger : Ledger (s.callerAt t shared pc)) : Alive (s.callerAt t shared pc) := by
  obtain ⟨hpushed, -, hpending⟩ := Access.apply_pending happly
  have hown : ∀ c, c ≠ t → c ∈ shared.pushed → c ∈ s.shared.pushed := by
    intro c hne hc
    rw [hpushed] at hc
    rcases CallerPc.next_pushes hnext with ⟨hnone, -⟩ | ⟨hpush, -, -⟩
    · rwa [hnone, List.append_nil] at hc
    · rw [hpush, List.mem_append, List.mem_singleton] at hc
      exact hc.resolve_right hne
  have hempty : access.pushes = [] → s.shared.pending = [] → shared.pending = [] := by
    intro hnone hnil
    rw [hnil, hnone, List.append_nil] at hpending
    exact (List.append_eq_nil_iff.mp hpending).2
  refine ⟨hledger, fun u hu => ?_, fun u hu => ?_, fun c hc hdone => ?_⟩
  · by_cases heq : u = t
    · rw [heq, System.callerAt_self] at hu
      -- It goes where it is off the list, and has not put itself on.
      obtain ⟨hapart, hnone⟩ := (CallerPc.next_apart hnext).1 hu
      rw [System.callerAt_shared, hpushed, hnone, List.append_nil, heq]
      exact hs.apart t hapart
    · rw [System.callerAt_of_ne s shared pc heq] at hu
      exact fun hmem => hs.apart u hu (hown u heq hmem)
  · by_cases heq : u = t
    · rw [heq, System.callerAt_self] at hu
      obtain ⟨hnone, hbefore⟩ := (CallerPc.next_apart hnext).2 hu
      exact hempty hnone (hbefore.elim (hs.emptied t) id)
    · rw [System.callerAt_of_ne s shared pc heq] at hu
      refine hempty ?_ (hs.emptied u hu)
      by_contra hpush
      -- Two threads would be in `call_mtx`.
      have hthread := hs.ledger.locked.call.unique (a := .caller u) (b := .caller t)
        (CallerPc.emptied_holdsCall hu) (CallerPc.next_pushes_holdsCall hnext hpush)
      exact heq (Thread.caller.inj hthread)
  · have hstays := Access.apply_done happly c fun waiter h =>
      hs.ledger.caller_done ((CallerPc.next_carried hnext).2 c waiter h)
    rw [System.callerAt_shared] at hdone hc
    have hbefore : (s.shared.data c).done = 0 := by omega
    by_cases heq : c = t
    · subst heq
      rw [System.callerAt_self]
      -- A call that is on the list and not done has not returned.
      by_contra hreturned
      obtain ⟨hnone, -, hwhy⟩ :=
        CallerPc.next_returned hnext (Bool.eq_true_of_not_eq_false hreturned)
      rw [hpushed, hnone, List.append_nil] at hc
      rcases hwhy with hapart | hnotified | hpc
      · exact hs.apart c hapart hc
      · rw [hbefore] at hnotified
        exact nomatch hnotified
      · exact hs.done_of_failUnlock hpc (hok hpc) hc hbefore
    · rw [System.callerAt_of_ne s shared pc heq]
      exact hs.alive c (hown c heq hc) hbefore

theorem worker (hs : Alive s) {input : Input} {io : Bool} {wake : Nat} {access : Access}
    {pc : WorkerPc} {shared : Shared}
    (hnext : s.worker.next s.shared input io wake = some (access, pc))
    (happly : access.apply .worker s.shared = some shared)
    (hledger : Ledger { s with shared, worker := pc }) :
    Alive { s with shared, worker := pc } := by
  obtain ⟨hnone, -, hnotify⟩ := WorkerPc.next_carried hnext
  obtain ⟨hpushed, -, hpending⟩ := Access.apply_pending happly
  rw [hnone, List.append_nil] at hpushed hpending
  refine ⟨hledger, fun u hu => ?_, fun u hu => ?_, fun c hc hdone => ?_⟩
  · show u ∉ shared.pushed
    exact hpushed ▸ hs.apart u hu
  · rw [hs.emptied u hu] at hpending
    exact (List.append_eq_nil_iff.mp hpending).2
  · have hstays := Access.apply_done happly c fun waiter h =>
      hs.ledger.worker_done (hnotify c waiter h)
    have hbefore : (s.shared.data c).done = 0 := by
      show (s.shared.data c).done = 0
      have hzero : (shared.data c).done = 0 := hdone
      omega
    exact hs.alive c (hpushed ▸ hc) hbefore

end Alive

theorem alive_preserved : Transition.Preserves System.step System.NoneCarried Alive := by
  intro s a s' hs hok hstep
  have hledger : Ledger s' := hs.ledger.step hstep
  obtain ⟨t, op, -, hidle, rfl⟩ | ⟨t, io, wake, access, pc, shared, rfl, hnext, happly, rfl⟩ |
    ⟨input, io, wake, access, pc, shared, -, -, hnext, happly, rfl⟩ := System.step_cases hstep
  · exact hs.invoke hidle hledger
  · exact hs.caller hok hnext happly hledger
  · exact hs.worker hnext happly hledger

/-- The calls whose `CallData` a turn reads or writes, the thread's own apart. -/
def System.touches (s : System) : Action → List CallId
  | .invoke _ _ => []
  | .caller t _ _ => (s.callers t).touches s.shared.pending
  | .worker _ _ _ => s.worker.touches s.shared.pending

/-- Along a run, no thread touches the `CallData` of a call that has returned. -/
def NoneStale (as : List Action) : Prop :=
  Transition.Along System.step (fun s a => ∀ c ∈ s.touches a, (s.callers c).hasReturned = false)
    {} as

namespace Alive

variable {s : System}

/-- What a turn touches is on the list or carried. -/
theorem touches_alive (hs : Alive s) {a : Action} {c : CallId} (hc : c ∈ s.touches a) :
    (s.callers c).hasReturned = false := by
  have hplaced := hs.ledger.placed c
  have hle := hs.ledger.count_le c
  have hpending : c ∈ s.shared.pending → (s.callers c).hasReturned = false := by
    intro hmem
    have hcount := List.count_pos_iff.mpr hmem
    exact hs.alive c (List.count_pos_iff.mp (by omega)) (by omega)
  cases a with
  | invoke t op => exact nomatch hc
  | caller t io wake =>
    rcases CallerPc.touches_subset hc with hmem | hmem
    · exact hpending hmem
    · exact hs.alive c (hs.ledger.caller_pushed hmem) (hs.ledger.caller_done hmem)
  | worker input io wake =>
    rcases WorkerPc.touches_subset hc with hmem | hmem
    · exact hpending hmem
    · exact hs.alive c (hs.ledger.worker_pushed hmem) (hs.ledger.worker_done hmem)

end Alive

/-- No `CallData` is touched once its call has returned, where no call returns through `fail`
while the worker has it in hand. -/
theorem none_stale (as : List Action)
    (h : Transition.Along System.step System.NoneCarried {} as) : NoneStale as :=
  alive_preserved.along (fun _ _ hs _ _ hc => hs.touches_alive hc) alive_init h

/-- A call that is answered, and one that fails to write its request. -/
theorem none_stale_failed :
    NoneStale (Action.started ++ Action.alone 1 (.call .callVoid) 7 ++ Action.work .reply 6 ++
      Action.goOn 1 1 ++ Action.alone 2 (.call .callVoid) 4 ++ [.caller 2 false 0] ++
      Action.goOn 2 12 ++ Action.work .fails 6) :=
  none_stale _ (by decide)

/-- The server answers a call whose flush fails then. The call returns when it has found the
list empty, and the worker reads its reply. -/
def answeredBeforeFlush : List Action :=
  Action.started ++ Action.alone 1 (.call .callVoid) 5 ++ Action.work .reply 2 ++
    [.caller 1 false 0] ++ Action.goOn 1 5 ++ Action.work .reply 4

/-- The worker looks at the `CallData` of the call that has returned, and notifies it. -/
theorem call_touched_stale :
    ¬ NoneStale answeredBeforeFlush ∧
    (Transition.run System.step {} answeredBeforeFlush).map (fun s =>
      (s.callers 1, s.worker, (s.shared.data 1).waiter)) =
    some (.returned false, .read false, .notified) := by
  refine ⟨?_, by decide⟩
  unfold NoneStale
  decide

end SerialRpc.Client
