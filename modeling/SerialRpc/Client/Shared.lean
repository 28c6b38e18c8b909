import Mathlib.Data.Nat.Basic
import Mathlib.Logic.Function.Basic

/-!
# What the client's threads share (client.h:42-99)

The fields of `Client`, and the accesses its threads make to them. Each access is one
step: an atomic load, store or swap, taking or releasing a mutex, a section under
`data_mtx`, or a read or write of the connection.

- `Shared`: the fields, with ghosts that record what has happened to them.
- `Access`: the accesses. `Access.apply` is their effect, and `none` where the thread
  has to wait for it. `Access.Applies` tells the effects one by one (`Access.apply_cases`).

A call is named by a number, and so is the thread that makes it. Texts of errors are
left out.
-/

namespace SerialRpc.Client

/-- `enum State` (client.h:80-87). -/
inductive State where
  | new
  | starting
  | running
  | closed
  | failing
  | failed
deriving DecidableEq, Repr

/-- `Waiter::state` (client.h:62-67): 0, 1, 2. -/
inductive Waiter where
  | waiting
  | notifying
  | notified
deriving DecidableEq, Repr

/-- A call, and the client thread that makes it. -/
abbrev CallId := Nat

/-- `struct CallData` (client.h:69-78). -/
structure CallData where
  /-- Whether `unmarshal` or `unmarshal_raw` is set. -/
  unmarshal : Bool := false
  /-- `response_received`. -/
  waiter : Waiter := .waiting
  hasError : Bool := false
  /-- Ghost: the reply it was taken off the list for. -/
  reply : Option Nat := none
  /-- Ghost: the body of that reply has been read without an error. -/
  decoded : Bool := false
deriving DecidableEq, Repr

/-- A thread: one that was started by the program, or the input worker. -/
inductive Thread where
  | caller (t : CallId)
  | worker
deriving DecidableEq, Repr

/-- The input worker's thread, to one that joins it. -/
inductive Worker where
  | notStarted
  | running
  | returned
deriving DecidableEq, Repr

/-- Why a `CallData` is taken off the list: for a reply, by a failing call, or by the
input worker's error handler. -/
inductive PopUse where
  | reply (number : Nat)
  | fail
  | handler
deriving DecidableEq, Repr

/-- The fields of `Client`. -/
structure Shared where
  state : State := .new
  callMtx : Option Thread := none
  condMtx : Option Thread := none
  /-- The threads that wait on `call_cond`. -/
  parked : List Thread := []
  /-- `err != nil`. -/
  err : Bool := false
  /-- The list from `head` to `tail`. -/
  pending : List CallId := []
  data : CallId → CallData := fun _ => {}
  worker : Worker := .notStarted
  /-- Ghost: the calls that were put on the list, in order. -/
  pushed : List CallId := []
  /-- Ghost: the calls that were taken off the list, in order. -/
  popped : List CallId := []
  /-- Ghost: the requests of which the server may have received something, in order. -/
  visible : List CallId := []
  /-- Ghost: the replies the worker has begun to read. -/
  replies : Nat := 0
  /-- Ghost: how many calls failing calls have taken off the list. -/
  failPops : Nat := 0
  /-- Ghost: how often `close` has closed the connection and joined the worker. -/
  connCloses : Nat := 0
  joins : Nat := 0

/-- One access to the shared fields. -/
inductive Access where
  /-- A load, or a read or write of the connection that the server learns nothing from. -/
  | other
  | lockCall
  | unlockCall
  | lockCond
  | unlockCond
  /-- `call_cond.wait(cond_mutex)`. -/
  | wait
  /-- `call_cond.signal()`, and the position of the thread it wakes, if any waits. -/
  | signal (i : Nat)
  | broadcast
  /-- A store to `state`, or a swap that succeeds. -/
  | setState (state : State)
  | setErr (err : Bool)
  /-- The section of `start_request` under `data_mtx`. -/
  | push (t : CallId)
  /-- The first write or flush behind a request's id. -/
  | send (t : CallId)
  /-- `pop_call_data` when the list is not empty. -/
  | pop (use : PopUse)
  /-- `has_error = true`. -/
  | setError (t : CallId)
  /-- A store of `Waiter::notify`. -/
  | notify (t : CallId) (waiter : Waiter)
  /-- The type byte of a `Reply` or `ErrorReply`. -/
  | readReply
  /-- The body of a reply, to its end. -/
  | decode (t : CallId)
  /-- `close` closes the connection. -/
  | closeConn
  | join
  | spawn
  /-- The worker returns. -/
  | finish
deriving DecidableEq, Repr

namespace Shared

/-- A `CallData` after a change to it. -/
def withData (sh : Shared) (t : CallId) (f : CallData → CallData) : Shared :=
  { sh with data := Function.update sh.data t (f (sh.data t)) }

end Shared

/-- What a pop adds to the count of the failing calls' pops. -/
def PopUse.failPops : PopUse → Nat
  | .fail => 1
  | .reply _ | .handler => 0

/-- What a pop records with the call. -/
def PopUse.record : PopUse → CallData → CallData
  | .reply number, data => { data with reply := some number }
  | .fail, data | .handler, data => data

/-- What an access of a thread does, if it does not have to wait. -/
def Access.apply (who : Thread) (sh : Shared) : Access → Option Shared
  | .other => some sh
  | .lockCall => if sh.callMtx = none then some { sh with callMtx := some who } else none
  | .unlockCall => some { sh with callMtx := none }
  -- A thread that waits on `call_cond` takes `cond_mutex` again when it has been woken.
  | .lockCond =>
    if sh.condMtx = none ∧ who ∉ sh.parked then some { sh with condMtx := some who } else none
  | .unlockCond => some { sh with condMtx := none }
  | .wait => some { sh with condMtx := none, parked := sh.parked ++ [who] }
  | .signal i =>
    if sh.parked = [] then some sh
    else if i < sh.parked.length then some { sh with parked := sh.parked.eraseIdx i } else none
  | .broadcast => some { sh with parked := [] }
  | .setState state => some { sh with state }
  | .setErr err => some { sh with err }
  | .push t => some { sh with pending := sh.pending ++ [t], pushed := sh.pushed ++ [t] }
  | .send t => some { sh with visible := sh.visible ++ [t] }
  | .pop use =>
    match sh.pending with
    | [] => none
    | t :: pending =>
      some { sh.withData t use.record with
        pending
        popped := sh.popped ++ [t]
        failPops := sh.failPops + use.failPops }
  | .setError t => some (sh.withData t fun data => { data with hasError := true })
  | .notify t waiter => some (sh.withData t fun data => { data with waiter })
  | .readReply => some { sh with replies := sh.replies + 1 }
  | .decode t => some (sh.withData t fun data => { data with decoded := true })
  | .closeConn => some { sh with connCloses := sh.connCloses + 1 }
  | .join => if sh.worker = .running then none else some { sh with joins := sh.joins + 1 }
  | .spawn => some { sh with worker := .running }
  | .finish => some { sh with worker := .returned }

/-- The effects of the accesses, one by one. -/
inductive Access.Applies (who : Thread) (sh : Shared) : Access → Shared → Prop where
  | other : Applies who sh .other sh
  | lockCall (hfree : sh.callMtx = none) : Applies who sh .lockCall { sh with callMtx := some who }
  | unlockCall : Applies who sh .unlockCall { sh with callMtx := none }
  | lockCond (hfree : sh.condMtx = none) (hawake : who ∉ sh.parked) :
      Applies who sh .lockCond { sh with condMtx := some who }
  | unlockCond : Applies who sh .unlockCond { sh with condMtx := none }
  | wait : Applies who sh .wait { sh with condMtx := none, parked := sh.parked ++ [who] }
  | signalNobody (i : Nat) (hnobody : sh.parked = []) : Applies who sh (.signal i) sh
  | signal (i : Nat) (hparked : sh.parked ≠ []) (hlt : i < sh.parked.length) :
      Applies who sh (.signal i) { sh with parked := sh.parked.eraseIdx i }
  | broadcast : Applies who sh .broadcast { sh with parked := [] }
  | setState (state : State) : Applies who sh (.setState state) { sh with state }
  | setErr (err : Bool) : Applies who sh (.setErr err) { sh with err }
  | push (t : CallId) : Applies who sh (.push t)
      { sh with pending := sh.pending ++ [t], pushed := sh.pushed ++ [t] }
  | send (t : CallId) : Applies who sh (.send t) { sh with visible := sh.visible ++ [t] }
  | pop (use : PopUse) (t : CallId) (pending : List CallId) (hpending : sh.pending = t :: pending) :
      Applies who sh (.pop use) { sh.withData t use.record with
        pending
        popped := sh.popped ++ [t]
        failPops := sh.failPops + use.failPops }
  | setError (t : CallId) :
      Applies who sh (.setError t) (sh.withData t fun data => { data with hasError := true })
  | notify (t : CallId) (waiter : Waiter) :
      Applies who sh (.notify t waiter) (sh.withData t fun data => { data with waiter })
  | readReply : Applies who sh .readReply { sh with replies := sh.replies + 1 }
  | decode (t : CallId) :
      Applies who sh (.decode t) (sh.withData t fun data => { data with decoded := true })
  | closeConn : Applies who sh .closeConn { sh with connCloses := sh.connCloses + 1 }
  | join (hworker : sh.worker ≠ .running) : Applies who sh .join { sh with joins := sh.joins + 1 }
  | spawn : Applies who sh .spawn { sh with worker := .running }
  | finish : Applies who sh .finish { sh with worker := .returned }

theorem Access.apply_cases {who : Thread} {sh sh' : Shared} {access : Access}
    (h : access.apply who sh = some sh') : access.Applies who sh sh' := by
  cases access with
  | lockCall =>
    rw [apply, Option.ite_none_right_eq_some] at h
    obtain ⟨hfree, h⟩ := h
    cases h
    exact .lockCall hfree
  | lockCond =>
    rw [apply, Option.ite_none_right_eq_some] at h
    obtain ⟨⟨hfree, hawake⟩, h⟩ := h
    cases h
    exact .lockCond hfree hawake
  | signal i =>
    rw [apply] at h
    split at h
    · rename_i hnobody
      cases h
      exact .signalNobody i hnobody
    · rename_i hparked
      rw [Option.ite_none_right_eq_some] at h
      obtain ⟨hlt, h⟩ := h
      cases h
      exact .signal i hparked hlt
  | pop use =>
    rw [apply] at h
    split at h
    · cases h
    · rename_i t pending hpending
      cases h
      exact .pop use t pending hpending
  | join =>
    rw [apply, Option.ite_none_left_eq_some] at h
    obtain ⟨hworker, h⟩ := h
    cases h
    exact .join hworker
  -- The others do not have to wait.
  | _ =>
    cases h
    constructor

end SerialRpc.Client
