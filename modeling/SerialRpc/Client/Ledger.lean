import Mathlib.Data.List.Nodup
import SerialRpc.Client.System

/-!
# Where every call is (client.cc:123-146, 194-210, 439-547)

A `CallData` is put on the list once, by its own call, and from then on it is in exactly
one place: on the list, with the worker, with a call that fails, or notified.

- `CallerPc.carried`, `WorkerPc.carried`: the calls a thread has taken off the list and not
  notified yet.
- `Ledger`: the places of a call add up (`ledger_preserved`); a thread that carries a call
  is alone with it.
-/

namespace SerialRpc.Client

/-- Points of a call before the push. -/
def CallerPc.unpushed : CallerPc → Bool
  | .idle | .callLock _ | .checkLoad _ | .checkLock _ | .checkReload _ | .checkUnlock _ _
  | .writeId _ | .push _ => true
  | _ => false

/-- The calls a failing call has taken off the list and not notified yet. -/
def CallerPc.carried : CallerPc → List CallId
  | .failSetError c | .failNotify c | .failWake c | .failNotified c => [c]
  | _ => []

/-- The call that is still to be notified behind the error handler. -/
def Resume.answering : Resume → List CallId
  | .reply c | .errorReply c => [c]
  | .leave | .again => []

/-- The call whose reply the worker is reading. -/
def WorkerPc.answering : WorkerPc → List CallId
  | .decode c | .readText c | .setError c _ | .notify c _ | .wake c _ | .notified c _ => [c]
  | .handlerLock k | .handlerSetErr k | .handlerPop k | .handlerSetError _ k | .handlerNotify _ k
  | .handlerWake _ k | .handlerNotified _ k | .handlerLoad k | .handlerSwap _ k
  | .handlerBroadcast k | .handlerWait k | .handlerParked k | .handlerClear k
  | .handlerUnlock k => k.answering
  | _ => []

/-- The call that the error handler has taken off the list and not notified yet. -/
def WorkerPc.failing : WorkerPc → List CallId
  | .handlerSetError c _ | .handlerNotify c _ | .handlerWake c _ | .handlerNotified c _ => [c]
  | _ => []

/-- The calls the worker has taken off the list and not notified yet. -/
def WorkerPc.carried (pc : WorkerPc) : List CallId := pc.failing ++ pc.answering

/-- Whether a call has been notified, as a count. -/
def CallData.done (data : CallData) : Nat := if data.waiter = .notified then 1 else 0

/-! ## What an access moves -/

/-- The calls an access puts on the list. -/
def Access.pushes : Access → List CallId
  | .push t => [t]
  | _ => []

/-- The calls an access takes off the list. -/
def Access.pops (pending : List CallId) : Access → List CallId
  | .pop _ => pending.take 1
  | _ => []

/-- The calls an access completes. -/
def Access.notifies : Access → List CallId
  | .notify t .notified => [t]
  | _ => []

/-- What an access does to a call. -/
def Access.onData (pending : List CallId) (c : CallId) (data : CallData) : Access → CallData
  | .pop use => if pending.head? = some c then use.record data else data
  | .setError t => if t = c then { data with hasError := true } else data
  | .notify t waiter => if t = c then { data with waiter } else data
  | .decode t => if t = c then { data with decoded := true } else data
  | _ => data

section Points

variable {who : Thread} {sh sh' : Shared} {io : Bool} {wake : Nat} {access : Access}

/-- Calls enter the list at its end and leave it at its head. -/
theorem Access.apply_pending (happly : access.apply who sh = some sh') :
    sh'.pushed = sh.pushed ++ access.pushes ∧
    sh'.popped = sh.popped ++ access.pops sh.pending ∧
    access.pops sh.pending ++ sh'.pending = sh.pending ++ access.pushes := by
  cases Access.apply_cases happly with
  | _ => simp_all [Access.pushes, Access.pops, Shared.withData]

/-- One call's data changes. -/
theorem Shared.withData_data (sh : Shared) (t c : CallId) (f : CallData → CallData) :
    (sh.withData t f).data c = if t = c then f (sh.data c) else sh.data c := by
  by_cases heq : t = c
  · subst heq
    simp [withData]
  · simp [withData, heq, Function.update_of_ne (Ne.symm heq)]

theorem Shared.withData_self (sh : Shared) (t : CallId) (f : CallData → CallData) :
    (sh.withData t f).data t = f (sh.data t) := by
  rw [withData_data, if_pos rfl]

theorem Shared.withData_of_ne (sh : Shared) {t c : CallId} (f : CallData → CallData)
    (h : c ≠ t) : (sh.withData t f).data c = sh.data c := by
  rw [withData_data, if_neg (Ne.symm h)]

/-- An access changes the data of a call as `onData` says. -/
theorem Access.apply_data (happly : access.apply who sh = some sh') (c : CallId) :
    sh'.data c = access.onData sh.pending c (sh.data c) := by
  cases Access.apply_cases happly with
  | _ => simp_all [Access.onData, Shared.withData_data]

/-- Only a pop for a reply gives a call a reply. -/
theorem Access.apply_reply (happly : access.apply who sh = some sh') {c : CallId} {number : Nat}
    (hreply : (sh'.data c).reply = some number) :
    (sh.data c).reply = some number ∨
    (access = .pop (.reply number) ∧ sh.pending.head? = some c) := by
  rw [Access.apply_data happly c] at hreply
  clear happly
  cases access with
  | pop use =>
    cases use <;> simp only [Access.onData, PopUse.record] at hreply <;> split at hreply <;>
      simp_all
  | setError t => simp only [Access.onData] at hreply; split at hreply <;> exact .inl hreply
  | notify t waiter => simp only [Access.onData] at hreply; split at hreply <;> exact .inl hreply
  | decode t => simp only [Access.onData] at hreply; split at hreply <;> exact .inl hreply
  | _ => exact .inl hreply

/-- An access that notifies a call does so to one that has not been notified. -/
theorem Access.apply_done (happly : access.apply who sh = some sh') (c : CallId)
    (hdone : ∀ waiter, access = .notify c waiter → (sh.data c).done = 0) :
    (sh'.data c).done = (sh.data c).done + access.notifies.count c := by
  rw [Access.apply_data happly c]
  clear happly
  cases access with
  | notify t waiter =>
    by_cases heq : t = c
    · subst heq
      rw [hdone waiter rfl]
      cases waiter <;> simp [Access.onData, Access.notifies, CallData.done]
    · cases waiter <;> simp [Access.onData, Access.notifies, heq]
  | pop use => cases use <;> simp only [Access.onData] <;> split <;> rfl
  | setError t => simp only [Access.onData]; split <;> rfl
  | decode t => simp only [Access.onData]; split <;> rfl
  | _ => rfl

/-- A call is put on the list by itself, once. -/
theorem CallerPc.next_pushes {t : CallId} {pc pc' : CallerPc}
    (hnext : pc.next t sh io wake = some (access, pc')) :
    (access.pushes = [] ∧ (pc'.unpushed = true → pc.unpushed = true)) ∨
    (access.pushes = [t] ∧ pc.unpushed = true ∧ pc'.unpushed = false) := by
  cases CallerPc.next_cases hnext with
  | _ => simp [CallerPc.unpushed, Access.pushes]

/-- A failing call takes no call off the list for a reply. -/
theorem CallerPc.next_pop {t : CallId} {pc pc' : CallerPc}
    (hnext : pc.next t sh io wake = some (access, pc')) (number : Nat) :
    access ≠ .pop (.reply number) := by
  cases CallerPc.next_cases hnext with
  | _ => exact nofun

/-- What a thread takes off the list it carries until it has notified it. -/
theorem CallerPc.next_carried {t : CallId} {pc pc' : CallerPc}
    (hnext : pc.next t sh io wake = some (access, pc')) :
    access.notifies ++ pc'.carried = access.pops sh.pending ++ pc.carried ∧
    ∀ c waiter, access = .notify c waiter → c ∈ pc.carried := by
  cases CallerPc.next_cases hnext with
  | _ => simp_all [CallerPc.carried, Access.notifies, Access.pops]

theorem WorkerPc.next_carried {input : Input} {pc pc' : WorkerPc}
    (hnext : pc.next sh input io wake = some (access, pc')) :
    access.pushes = [] ∧
    access.notifies ++ pc'.carried = access.pops sh.pending ++ pc.carried ∧
    ∀ c waiter, access = .notify c waiter → c ∈ pc.carried := by
  cases WorkerPc.next_cases hnext with
  | _ =>
    simp_all [WorkerPc.carried, WorkerPc.failing, WorkerPc.answering, Resume.answering,
      Access.pushes, Access.notifies, Access.pops]

end Points

/-- A call begins without having been notified. -/
theorem Op.callData_done (op : Op) : op.callData.done = 0 := by
  cases op <;> rfl

/-! ## The places of a call -/

/-- The list is a queue, which every call enters at most once, and a call that has entered it
is in one place. -/
structure Ledger (s : System) : Prop where
  locked : Locked s
  fresh : ∀ t, (s.callers t).unpushed = true → t ∉ s.shared.pushed
  nodup : s.shared.pushed.Nodup
  order : s.shared.pushed = s.shared.popped ++ s.shared.pending
  placed : ∀ c, s.worker.carried.count c + s.inCall 0 (fun _ pc => pc.carried.count c) +
    s.shared.pending.count c + (s.shared.data c).done = s.shared.pushed.count c

namespace Ledger

variable {s : System}

/-- At the start no call has been made. -/
theorem init : Ledger {} where
  locked := locked_init
  fresh _ _ := List.not_mem_nil
  nodup := List.nodup_nil
  order := rfl
  placed _ := rfl

/-- No call is put on the list twice. -/
theorem count_le (hs : Ledger s) (c : CallId) : s.shared.pushed.count c ≤ 1 :=
  List.nodup_iff_count.mp hs.nodup c

/-- A call that the worker carries is waiting. -/
theorem worker_done (hs : Ledger s) {c : CallId} (hc : c ∈ s.worker.carried) :
    (s.shared.data c).done = 0 := by
  have hcount := List.count_pos_iff.mpr hc
  have hplaced := hs.placed c
  have hle := hs.count_le c
  omega

theorem carried_holdsCall {pc : CallerPc} {c : CallId} (hc : c ∈ pc.carried) :
    pc.holdsCall = true := by
  cases pc <;> first | rfl | exact nomatch hc

/-- A call that another call carries is waiting. -/
theorem caller_done (hs : Ledger s) {t c : CallId} (hc : c ∈ (s.callers t).carried) :
    (s.shared.data c).done = 0 := by
  have hcount := List.count_pos_iff.mpr hc
  have hplaced := hs.placed c
  have hle := hs.count_le c
  rw [System.inCall_eq hs.locked (carried_holdsCall hc)] at hplaced
  omega

/-- A call that a thread carries has been put on the list. -/
theorem worker_pushed (hs : Ledger s) {c : CallId} (hc : c ∈ s.worker.carried) :
    c ∈ s.shared.pushed := by
  have hcount := List.count_pos_iff.mpr hc
  have hplaced := hs.placed c
  exact List.count_pos_iff.mp (by omega)

/-- What a caller carries was put on the list. -/
theorem caller_pushed (hs : Ledger s) {t c : CallId} (hc : c ∈ (s.callers t).carried) :
    c ∈ s.shared.pushed := by
  have hcount := List.count_pos_iff.mpr hc
  have hplaced := hs.placed c
  rw [System.inCall_eq hs.locked (carried_holdsCall hc)] at hplaced
  exact List.count_pos_iff.mp (by omega)

theorem carried_of_not_holdsCall {pc : CallerPc} (h : pc.holdsCall = false) (c : CallId) :
    pc.carried.count c = 0 :=
  List.count_eq_zero.mpr fun hc => nomatch h.symm.trans (carried_holdsCall hc)

/-- What a thread moves stays in one place. -/
theorem apply_placed {who : Thread} {sh sh' : Shared} {access : Access}
    {before after : List CallId} (happly : access.apply who sh = some sh')
    (hcarried : access.notifies ++ after = access.pops sh.pending ++ before)
    (c : CallId) (hdone : ∀ waiter, access = .notify c waiter → (sh.data c).done = 0) :
    after.count c + sh'.pending.count c + (sh'.data c).done + sh.pushed.count c =
      before.count c + sh.pending.count c + (sh.data c).done + sh'.pushed.count c := by
  obtain ⟨hpushed, -, hpending⟩ := Access.apply_pending happly
  have hmoved := congrArg (List.count c) hcarried
  have hlist := congrArg (List.count c) hpending
  rw [Access.apply_done happly c hdone, hpushed]
  simp only [List.count_append] at hmoved hlist ⊢
  omega

/-- A thread that begins a function has not been put on the list. -/
theorem invoke (hs : Ledger s) {t : CallId} {op : Op} (hidle : s.callers t = .idle)
    (hlocked : Locked (s.callerAt t (s.shared.withData t fun _ => op.callData) op.entry)) :
    Ledger (s.callerAt t (s.shared.withData t fun _ => op.callData) op.entry) := by
  have hfresh : t ∉ s.shared.pushed := hs.fresh t (by rw [hidle]; rfl)
  refine ⟨hlocked, fun u hu => ?_, hs.nodup, hs.order, fun c => ?_⟩
  · by_cases heq : u = t
    · exact heq ▸ hfresh
    · exact hs.fresh u (by rwa [System.callerAt_of_ne s _ _ heq] at hu)
  · -- The thread holds no call, before and after.
    have hcall := System.inCall_callerAt_add (f := fun _ pc => pc.carried.count c)
      hs.locked hlocked fun pc hpc => carried_of_not_holdsCall hpc c
    rw [carried_of_not_holdsCall op.entry_holds.1 c, hidle] at hcall
    have hplaced := hs.placed c
    have hdone : ((s.shared.withData t fun _ => op.callData).data c).done =
        (s.shared.data c).done := by
      rw [Shared.withData_data]
      split
      · rename_i heq
        subst heq
        rw [List.count_eq_zero.mpr hfresh] at hplaced
        exact op.callData_done.trans (by omega)
      · rfl
    simp only [System.callerAt_shared, System.callerAt_worker, hdone]
    exact (congrArg (· + _ + _) (congrArg _ hcall)).trans hplaced

/-- A thread that begins has not been on the list, so what has been there keeps its data. -/
theorem withData_pushed (hs : Ledger s) {t : CallId} (hidle : s.callers t = .idle)
    (f : CallData → CallData) {c : CallId} (hc : c ∈ s.shared.pushed) :
    (s.shared.withData t f).data c = s.shared.data c := by
  have hfresh : t ∉ s.shared.pushed := hs.fresh t (by rw [hidle]; rfl)
  have hne : c ≠ t := fun heq => hfresh (heq ▸ hc)
  exact s.shared.withData_of_ne f hne

/-- A thread's access puts nothing on the list twice. -/
theorem caller_fresh (hs : Ledger s) {t : CallId} {shared : Shared} {pc : CallerPc}
    {pushes : List CallId} (hpushed : shared.pushed = s.shared.pushed ++ pushes)
    (hpushes : (pushes = [] ∧ (pc.unpushed = true → (s.callers t).unpushed = true)) ∨
      (pushes = [t] ∧ (s.callers t).unpushed = true ∧ pc.unpushed = false)) :
    shared.pushed.Nodup ∧
    ∀ u, ((s.callerAt t shared pc).callers u).unpushed = true → u ∉ shared.pushed := by
  rw [hpushed]
  rcases hpushes with ⟨rfl, hback⟩ | ⟨rfl, hbefore, hafter⟩
  · rw [List.append_nil]
    refine ⟨hs.nodup, fun u hu => ?_⟩
    by_cases heq : u = t
    · subst heq
      rw [System.callerAt_self] at hu
      exact hs.fresh u (hback hu)
    · rw [System.callerAt_of_ne s shared pc heq] at hu
      exact hs.fresh u hu
  · -- The thread has put itself on the list, for the first time.
    refine ⟨hs.nodup.append (List.nodup_singleton t)
      (List.disjoint_singleton.mpr (hs.fresh t hbefore)), fun u hu => ?_⟩
    have heq : u ≠ t := by
      rintro rfl
      rw [System.callerAt_self, hafter] at hu
      exact nomatch hu
    rw [System.callerAt_of_ne s shared pc heq] at hu
    rw [List.mem_append, List.mem_singleton]
    exact not_or.mpr ⟨hs.fresh u hu, heq⟩

/-- A caller's step keeps the books. -/
theorem caller (hs : Ledger s) {t : CallId} {io : Bool} {wake : Nat} {access : Access}
    {pc : CallerPc} {shared : Shared}
    (hnext : (s.callers t).next t s.shared io wake = some (access, pc))
    (happly : access.apply (.caller t) s.shared = some shared)
    (hlocked : Locked (s.callerAt t shared pc)) : Ledger (s.callerAt t shared pc) := by
  obtain ⟨hcarried, hnotify⟩ := CallerPc.next_carried hnext
  obtain ⟨hpushed, hpopped, hpending⟩ := Access.apply_pending happly
  obtain ⟨hnodup, hfresh⟩ := hs.caller_fresh hpushed (CallerPc.next_pushes hnext)
  refine ⟨hlocked, hfresh, hnodup, ?_, fun c => ?_⟩
  · rw [System.callerAt_shared, hpushed, hpopped, hs.order, List.append_assoc,
      List.append_assoc, hpending]
  · have hcall := System.inCall_callerAt_add (f := fun _ pc => pc.carried.count c)
      hs.locked hlocked fun pc hpc => carried_of_not_holdsCall hpc c
    have hmoved := apply_placed happly hcarried c
      fun waiter h => hs.caller_done (hnotify c waiter h)
    have hplaced := hs.placed c
    simp only [System.callerAt_shared, System.callerAt_worker]
    omega

theorem worker (hs : Ledger s) {input : Input} {io : Bool} {wake : Nat} {access : Access}
    {pc : WorkerPc} {shared : Shared}
    (hnext : s.worker.next s.shared input io wake = some (access, pc))
    (happly : access.apply .worker s.shared = some shared)
    (hlocked : Locked { s with shared, worker := pc }) :
    Ledger { s with shared, worker := pc } := by
  obtain ⟨hpushes, hcarried, hnotify⟩ := WorkerPc.next_carried hnext
  obtain ⟨hpushed, hpopped, hpending⟩ := Access.apply_pending happly
  rw [hpushes, List.append_nil] at hpushed hpending
  refine ⟨hlocked, hpushed ▸ hs.fresh, hpushed ▸ hs.nodup, ?_, fun c => ?_⟩
  · simp only [hpushed, hpopped, List.append_assoc, hpending, hs.order]
  · have hmoved := apply_placed happly hcarried c
      fun waiter h => hs.worker_done (hnotify c waiter h)
    have hplaced := hs.placed c
    rw [System.inCall_worker (WorkerPc.next_callMtx hnext happly)]
    show pc.carried.count c + _ + shared.pending.count c + (shared.data c).done =
      shared.pushed.count c
    omega

end Ledger

/-- Every turn keeps every call in one place. -/
theorem ledger_preserved : Transition.Preserves System.step (fun _ _ => True) Ledger := by
  intro s a s' hs _ hstep
  have hlocked : Locked s' := hs.locked.step hstep
  obtain ⟨t, op, -, hidle, rfl⟩ | ⟨t, io, wake, access, pc, shared, -, hnext, happly, rfl⟩ |
    ⟨input, io, wake, access, pc, shared, -, -, hnext, happly, rfl⟩ := System.step_cases hstep
  · exact hs.invoke hidle hlocked
  · exact hs.caller hnext happly hlocked
  · exact hs.worker hnext happly hlocked

/-- Every step keeps the books. -/
theorem Ledger.step {s s' : System} {a : Action} (hs : Ledger s) (h : s.step a = some s') :
    Ledger s' :=
  ledger_preserved s a s' hs trivial h

end SerialRpc.Client
