import Mathlib.Data.List.ReduceOption
import SerialRpc.Client.Ledger
import SerialRpc.Lib.Chain

/-!
# The list of pending calls in memory (client.cc:137-146, 439-464)

The calls that wait for a reply are linked through `CallData::next`, from `head` to `tail`.
A `CallData` stands on the stack of its caller: it is fresh when it is put on the list, and
its memory is used for something else once it has been taken off.

- `CallList`: the pointers. `CallList.push`, `popCallData` and `failPendingCalls` are the
  source's sections under `data_mtx`.
- `Fifo`: what the list is for, a queue of calls.
- `CallList.Holds`: the pointers hold the calls of a queue. Every operation does to the
  pointers what it does to the queue (`Holds.step`), and so does a run (`Holds.run`).
- `pending_fifo`: what this says of `head`, `tail` and what is popped.
- `System.list_run`: the list of the client's threads is such a queue.
-/

namespace SerialRpc.Client

variable {ν : Type}

/-! ## The pointers -/

/-- `CallData::next` at every address, and `head` and `tail` (client.h:70, 98-99). -/
structure CallList (ν : Type) where
  next : ν → Option ν
  head : Option ν := none
  tail : Option ν := none

/-- An operation on the list, or on the memory of a call that is not on it. -/
inductive ListOp (ν : Type) where
  /-- `start_request` for a fresh `CallData`. -/
  | startRequest (callData : ν)
  | popCallData
  | failPendingCalls
  /-- The memory of a `CallData` is used for something else. -/
  | reuse (callData : ν) (next : Option ν)

namespace CallList

section Source

variable [DecidableEq ν]

/-- `CallData *next = nil` of a fresh `CallData`. -/
def construct (callData : ν) (c : CallList ν) : CallList ν :=
  { c with next := Function.update c.next callData none }

/-- The section of `start_request` under `data_mtx` (client.cc:137-145). -/
def push (callData : ν) (c : CallList ν) : CallList ν :=
  let c := if c.head = none then { c with head := some callData } else c
  let c := match c.tail with
    | none => c
    | some last => { c with next := Function.update c.next last (some callData) }
  { c with tail := some callData }

/-- `pop_call_data` (client.cc:439-451). -/
def popCallData (c : CallList ν) : Option ν × CallList ν :=
  match c.head with
  | none => (none, c)
  | some callData =>
    let c := if c.head = c.tail then { c with tail := none } else c
    (some callData, { c with head := c.next callData })

/-- The loop of `fail_pending_calls` (client.cc:453-464) for at most so many rounds, and what
`pop_call_data` returns in it. -/
def failPendingCalls : Nat → CallList ν → Option (List (Option ν) × CallList ν)
  | 0, _ => none
  | rounds + 1, c =>
    match c.popCallData with
    | (none, c) => some ([none], c)
    | (some callData, c) =>
      (failPendingCalls rounds c).map fun rest => (some callData :: rest.1, rest.2)

/-- An operation, and what `pop_call_data` returns in it. -/
def step (rounds : Nat) (c : CallList ν) : ListOp ν → Option (List (Option ν) × CallList ν)
  | .startRequest callData => some ([], (c.construct callData).push callData)
  | .popCallData => some ([c.popCallData.1], c.popCallData.2)
  | .failPendingCalls => c.failPendingCalls rounds
  | .reuse callData next => some ([], { c with next := Function.update c.next callData next })

/-- Some operations, and what `pop_call_data` returns in them. -/
def run (rounds : Nat) : CallList ν → List (ListOp ν) → Option (List (Option ν) × CallList ν)
  | c, [] => some ([], c)
  | c, op :: ops => do
    let (returned, c) ← c.step rounds op
    let (returned', c) ← run rounds c ops
    return (returned ++ returned', c)

end Source

end CallList

/-! ## The queue -/

namespace Fifo

/-- What an operation does to a queue, and what its pops return: the oldest, or nothing. -/
def step (pending : List ν) : ListOp ν → List (Option ν) × List ν
  | .startRequest callData => ([], pending ++ [callData])
  | .popCallData => ([pending.head?], pending.tail)
  | .failPendingCalls => (pending.map some ++ [none], [])
  | .reuse _ _ => ([], pending)

/-- What the pops of some operations return, and what is pending behind them. -/
def run : List ν → List (ListOp ν) → List (Option ν) × List ν
  | pending, [] => ([], pending)
  | pending, op :: ops =>
    let next := step pending op
    let rest := run next.2 ops
    (next.1 ++ rest.1, rest.2)

/-- A call that is put on the list, or whose memory is used otherwise, is not on it. -/
def Allowed (pending : List ν) : ListOp ν → Prop
  | .startRequest callData => callData ∉ pending
  | .reuse callData _ => callData ∉ pending
  | .popCallData | .failPendingCalls => True

/-- Every operation of a run is allowed where it is made. -/
def AllAllowed : List ν → List (ListOp ν) → Prop
  | _, [] => True
  | pending, op :: ops => Allowed pending op ∧ AllAllowed (step pending op).2 ops

/-- The calls that some operations put on the list, in order. -/
def pushed (ops : List (ListOp ν)) : List ν :=
  ops.filterMap fun op =>
    match op with
    | .startRequest callData => some callData
    | .popCallData | .failPendingCalls | .reuse _ _ => none

/-- The calls that are popped, in order. -/
def popped (pending : List ν) (ops : List (ListOp ν)) : List ν :=
  (run pending ops).1.reduceOption

instance [DecidableEq ν] (pending : List ν) : (op : ListOp ν) → Decidable (Allowed pending op)
  | .startRequest callData => inferInstanceAs (Decidable (callData ∉ pending))
  | .reuse callData _ => inferInstanceAs (Decidable (callData ∉ pending))
  | .popCallData | .failPendingCalls => inferInstanceAs (Decidable True)

instance decidableAllAllowed [DecidableEq ν] :
    (pending : List ν) → (ops : List (ListOp ν)) → Decidable (AllAllowed pending ops)
  | _, [] => isTrue trivial
  | pending, op :: ops =>
    have := decidableAllAllowed (step pending op).2 ops
    inferInstanceAs (Decidable (Allowed pending op ∧ _))

/-- One operation loses no call and invents none. -/
theorem step_conserves (pending : List ν) (op : ListOp ν) :
    (step pending op).1.reduceOption ++ (step pending op).2 = pending ++ pushed [op] := by
  cases op with
  | startRequest callData => rfl
  | popCallData =>
    cases pending with
    | nil => rfl
    | cons callData pending => exact (List.append_nil _).symm
  | failPendingCalls =>
    have hall : (pending.map some).reduceOption = pending := by
      rw [List.reduceOption, List.filterMap_map]
      exact List.filterMap_some
    show (pending.map some ++ [none]).reduceOption ++ [] = pending ++ []
    rw [List.reduceOption_append, hall, List.append_nil]
    rfl
  | reuse callData next => exact (List.append_nil _).symm

/-- What has been put on the list has been popped, in this order, or is pending. -/
theorem run_conserves (pending : List ν) (ops : List (ListOp ν)) :
    popped pending ops ++ (run pending ops).2 = pending ++ pushed ops := by
  induction ops generalizing pending with
  | nil => exact (List.append_nil pending).symm
  | cons op ops ih =>
    have hstep := step_conserves pending op
    have hpushed : pushed (op :: ops) = pushed [op] ++ pushed ops :=
      List.filterMap_append (l := [op])
    simp only [popped] at ih ⊢
    rw [run, hpushed, List.reduceOption_append, List.append_assoc, ih, ← List.append_assoc, hstep,
      List.append_assoc]

theorem run_append (pending : List ν) (ops ops' : List (ListOp ν)) :
    (run pending (ops ++ ops')).2 = (run (run pending ops).2 ops').2 := by
  induction ops generalizing pending with
  | nil => rfl
  | cons op ops ih => exact ih (step pending op).2

theorem AllAllowed.append {pending : List ν} {ops ops' : List (ListOp ν)}
    (h : AllAllowed pending ops) (h' : AllAllowed (run pending ops).2 ops') :
    AllAllowed pending (ops ++ ops') := by
  induction ops generalizing pending with
  | nil => exact h'
  | cons op ops ih => exact ⟨h.1, ih h.2 h'⟩

end Fifo

/-! ## The pointers hold the queue -/

namespace CallList

/-- The pointers hold some calls, the oldest first. -/
structure Holds (c : CallList ν) (pending : List ν) : Prop where
  chain : Memory.Chain c.next c.head pending
  tail : c.tail = pending.getLast?

namespace Holds

variable {c : CallList ν} {pending : List ν}

theorem init (next : ν → Option ν) : Holds { next } [] := ⟨.nil, rfl⟩

theorem head_eq (h : c.Holds pending) : c.head = pending.head? := h.chain.head?_eq.symm

theorem head_eq_none_iff (h : c.Holds pending) : c.head = none ↔ c.tail = none := by
  rw [h.head_eq, h.tail, List.head?_eq_none_iff, List.getLast?_eq_none_iff]

variable [DecidableEq ν]

theorem push (h : c.Holds pending) {callData : ν} (hfresh : callData ∉ pending) :
    ((c.construct callData).push callData).Holds (pending ++ [callData]) := by
  obtain ⟨next, head, tail⟩ := c
  obtain ⟨hchain, rfl⟩ := h
  have hconstruct := hchain.update hfresh none
  have hnext : Function.update next callData none callData = none := Function.update_self ..
  refine ⟨?_, by simp [CallList.push, CallList.construct]⟩
  cases hlast : pending.getLast? with
  | none =>
    -- The list is empty: `head` is set, and there is no node to link to.
    obtain rfl := List.getLast?_eq_none_iff.mp hlast
    obtain rfl := hchain.eq_none_iff.mpr rfl
    refine .cons ?_
    show Memory.Chain _ (Function.update next callData none callData) []
    rw [hnext]
    exact .nil
  | some last =>
    have hhead : head ≠ none := by
      intro hnone
      rw [hchain.eq_none_iff.mp hnone] at hlast
      cases hlast
    have hlinked := hconstruct.append hlast hfresh hnext
    simpa only [CallList.push, CallList.construct, hhead, if_false, hlast] using hlinked

theorem pop (h : c.Holds pending) :
    c.popCallData.1 = pending.head? ∧ c.popCallData.2.Holds pending.tail := by
  obtain ⟨next, head, tail⟩ := c
  obtain ⟨hchain, rfl⟩ := h
  cases hchain with
  | nil => exact ⟨rfl, .nil, rfl⟩
  | @cons callData rest hrest =>
    refine ⟨rfl, ?_⟩
    cases rest with
    | nil =>
      -- The last one: `tail` is reset.
      have hlast : some callData = [callData].getLast? := rfl
      simp only [popCallData, hlast, if_true]
      exact ⟨hrest, rfl⟩
    | cons second rest =>
      have hne : some callData ≠ (callData :: second :: rest).getLast? := by
        intro heq
        have hmem : callData ∈ second :: rest := List.mem_of_getLast? heq.symm
        exact (List.nodup_cons.mp (Memory.Chain.cons hrest).nodup).1 hmem
      simp only [popCallData, hne, if_false]
      exact ⟨hrest, rfl⟩

/-- The drain pops all that is pending, and then finds the list empty. -/
theorem failPendingCalls {rounds : Nat} (h : c.Holds pending) (hrounds : pending.length < rounds) :
    ∃ c', c.failPendingCalls rounds = some (pending.map some ++ [none], c') ∧ c'.Holds [] := by
  induction rounds generalizing c pending with
  | zero => exact absurd hrounds (Nat.not_lt_zero _)
  | succ rounds ih =>
    obtain ⟨hpop, hrest⟩ := h.pop
    rw [CallList.failPendingCalls]
    rcases hresult : c.popCallData with ⟨result, c'⟩
    rw [hresult] at hpop hrest
    cases pending with
    | nil =>
      obtain rfl : result = none := hpop
      exact ⟨c', rfl, hrest⟩
    | cons callData pending =>
      obtain rfl : result = some callData := hpop
      obtain ⟨c'', hfail, hempty⟩ := ih hrest (Nat.lt_of_succ_lt_succ hrounds)
      refine ⟨c'', ?_, hempty⟩
      show (CallList.failPendingCalls rounds c').map _ = _
      rw [hfail]
      rfl

/-- An operation does to the pointers what it does to the queue. -/
theorem step {rounds : Nat} {op : ListOp ν} (h : c.Holds pending) (hop : Fifo.Allowed pending op)
    (hrounds : pending.length < rounds) :
    ∃ c', c.step rounds op = some ((Fifo.step pending op).1, c') ∧
      c'.Holds (Fifo.step pending op).2 := by
  cases op with
  | startRequest callData => exact ⟨_, rfl, h.push hop⟩
  | popCallData =>
    obtain ⟨hpop, hrest⟩ := h.pop
    refine ⟨c.popCallData.2, ?_, hrest⟩
    show some ([c.popCallData.1], c.popCallData.2) = _
    rw [hpop]
    rfl
  | failPendingCalls => exact h.failPendingCalls hrounds
  | reuse callData next => exact ⟨_, rfl, h.chain.update hop next, h.tail⟩

/-- So do the operations of a run. -/
theorem run {rounds : Nat} {ops : List (ListOp ν)} (h : c.Holds pending)
    (hops : Fifo.AllAllowed pending ops) (hrounds : pending.length + ops.length < rounds) :
    ∃ c', c.run rounds ops = some ((Fifo.run pending ops).1, c') ∧
      c'.Holds (Fifo.run pending ops).2 := by
  induction ops generalizing c pending with
  | nil => exact ⟨c, rfl, h⟩
  | cons op ops ih =>
    obtain ⟨hop, hops⟩ := hops
    rw [List.length_cons] at hrounds
    obtain ⟨c', hstep, hnext⟩ := h.step hop (show pending.length < rounds by omega)
    have hlength : (Fifo.step pending op).2.length ≤ pending.length + 1 := by
      cases op <;> simp [Fifo.step]; omega
    obtain ⟨c'', hrun, hlast⟩ := ih hnext hops (by omega)
    refine ⟨c'', ?_, hlast⟩
    rw [CallList.run, hstep]
    simp only [Option.bind_eq_bind, Option.bind_some, hrun]
    rfl

end Holds

end CallList

/-- The pending list is a FIFO queue. In every run of pushes of fresh calls, pops and full
drains, also on the empty list and with other uses of the memory of popped calls, the pops
return what those of a queue return: the oldest pending call, or nothing. Behind the run
`head` is null exactly if `tail` is, the chain from `head` visits the calls that were put on
the list and not popped once each, in this order, and ends at `tail`, whose pointer is null.
A call that was put on the list once is popped at most once. -/
theorem pending_fifo [DecidableEq ν] (next : ν → Option ν) (ops : List (ListOp ν))
    (hops : Fifo.AllAllowed [] ops) :
    ∀ rounds, ops.length < rounds →
      ∃ (c : CallList ν) (pending : List ν),
        CallList.run rounds { next } ops = some ((Fifo.run [] ops).1, c) ∧
        (c.head = none ↔ c.tail = none) ∧
        Memory.Chain c.next c.head pending ∧ pending.Nodup ∧
        Fifo.popped [] ops ++ pending = Fifo.pushed ops ∧
        c.tail = pending.getLast? ∧ (∀ last ∈ c.tail, c.next last = none) ∧
        c.popCallData.1 = pending.head? ∧
        (∃ c', c.failPendingCalls rounds = some (pending.map some ++ [none], c') ∧
          c'.head = none ∧ c'.tail = none) ∧
        ((Fifo.pushed ops).Nodup → (Fifo.popped [] ops).Nodup) := by
  intro rounds hrounds
  have hinit : (CallList.mk next none none).Holds [] := .init next
  obtain ⟨c, hrun, hholds⟩ := hinit.run hops (by rwa [List.length_nil, Nat.zero_add])
  have hconserves : Fifo.popped [] ops ++ (Fifo.run [] ops).2 = Fifo.pushed ops :=
    Fifo.run_conserves [] ops
  have hpushed : (Fifo.pushed ops).length ≤ ops.length := List.length_filterMap_le ..
  have hpending : (Fifo.run [] ops).2.length ≤ (Fifo.pushed ops).length := by
    rw [← hconserves, List.length_append]
    exact Nat.le_add_left _ _
  have hfuel : (Fifo.run [] ops).2.length < rounds := by omega
  obtain ⟨c', hdrain, hempty⟩ := hholds.failPendingCalls hfuel
  refine ⟨c, _, hrun, hholds.head_eq_none_iff, hholds.chain, hholds.chain.nodup, hconserves,
    hholds.tail, fun last hlast => ?_, hholds.pop.1, ⟨c', hdrain, hempty.head_eq, hempty.tail⟩,
    fun hnodup => ?_⟩
  · exact hholds.chain.next_last (hholds.tail ▸ hlast)
  · rw [← hconserves] at hnodup
    exact hnodup.of_append_left

/-- Pops of the empty list, a drain of two calls, and a push behind it of a call that has
been on the list before. -/
theorem pending_fifo_drained :
    ∃ c : CallList Nat, CallList.run 10 { next := fun _ => some 7 }
      [.popCallData, .startRequest 1, .popCallData, .reuse 1 (some 2), .startRequest 2,
        .startRequest 3, .failPendingCalls, .popCallData, .startRequest 1] =
      some ([none, some 1, some 2, some 3, none, none], c) ∧ c.tail = some 1 := by
  obtain ⟨c, pending, hrun, -, -, -, hconserves, htail, -⟩ :=
    pending_fifo (fun _ => some 7)
      [.popCallData, .startRequest 1, .popCallData, .reuse 1 (some 2), .startRequest 2,
        .startRequest 3, .failPendingCalls, .popCallData, .startRequest 1] (by decide) 10
      (by decide)
  have hall : [1, 2, 3] ++ pending = [1, 2, 3] ++ [1] := hconserves.trans (by decide)
  have hpending : pending = [1] := List.append_cancel_left hall
  exact ⟨c, hrun, by rw [htail, hpending]; rfl⟩

/-! ## The list of the client's threads -/

/-- What an access does to the list. -/
def Access.listOps : Access → List (ListOp CallId)
  | .push t => [.startRequest t]
  | .pop _ => [.popCallData]
  | _ => []

/-- What an access does to `Shared.pending` is what its operations do to a queue. -/
theorem Access.apply_fifo {who : Thread} {sh sh' : Shared} {access : Access}
    (happly : access.apply who sh = some sh') :
    (Fifo.run sh.pending access.listOps).2 = sh'.pending := by
  cases Access.apply_cases happly with
  | _ => simp_all [Access.listOps, Fifo.run, Fifo.step, Shared.withData]

/-- Where no call is put on the list twice, the operations of an access are allowed. -/
theorem Access.allowed {who : Thread} {sh sh' : Shared} {access : Access}
    (happly : access.apply who sh = some sh') (hpending : ∀ c ∈ sh.pending, c ∈ sh.pushed)
    (hnodup : sh'.pushed.Nodup) : Fifo.AllAllowed sh.pending access.listOps := by
  cases access with
  | push t =>
    cases happly
    refine ⟨fun ht => ?_, trivial⟩
    exact (List.nodup_append.mp hnodup).2.2 t (hpending t ht) t List.mem_cons_self rfl
  | pop use => exact ⟨trivial, trivial⟩
  | _ => exact trivial

/-- What a turn of a thread does to the list is allowed. -/
theorem System.list_step {s s' : System} {a : Action} (hs : Ledger s) (hstep : s.step a = some s') :
    ∃ ops, Fifo.AllAllowed s.shared.pending ops ∧
      (Fifo.run s.shared.pending ops).2 = s'.shared.pending := by
  have hnodup : s'.shared.pushed.Nodup := (hs.step hstep).nodup
  have hpending : ∀ c ∈ s.shared.pending, c ∈ s.shared.pushed := by
    intro c hc
    rw [hs.order]
    exact List.mem_append_right _ hc
  rcases System.step_cases hstep with ⟨t, op, -, -, rfl⟩ |
    ⟨t, io, wake, access, pc, shared, -, -, happly, rfl⟩ |
    ⟨input, io, wake, access, pc, shared, -, -, -, happly, rfl⟩
  · exact ⟨[], trivial, rfl⟩
  · exact ⟨access.listOps, Access.allowed happly hpending hnodup, Access.apply_fifo happly⟩
  · exact ⟨access.listOps, Access.allowed happly hpending hnodup, Access.apply_fifo happly⟩

/-- In every run of the client's threads the operations on the list are allowed, and so
pointers hold `Shared.pending`. -/
theorem System.list_run {s s' : System} {as : List Action} (hs : Ledger s)
    (hrun : Transition.run System.step s as = some s') {c : CallList CallId}
    (hc : c.Holds s.shared.pending) :
    ∃ ops rounds returned c', c.run rounds ops = some (returned, c') ∧
      Fifo.AllAllowed s.shared.pending ops ∧ c'.Holds s'.shared.pending := by
  have hops : ∃ ops, Fifo.AllAllowed s.shared.pending ops ∧
      (Fifo.run s.shared.pending ops).2 = s'.shared.pending := by
    clear hc
    induction as generalizing s with
    | nil =>
      cases hrun
      exact ⟨[], trivial, rfl⟩
    | cons a as ih =>
      obtain ⟨t, hstep, hrun⟩ := Option.bind_eq_some_iff.mp hrun
      obtain ⟨ops, hallowed, hpending⟩ := System.list_step hs hstep
      obtain ⟨ops', hallowed', hpending'⟩ := ih (hs.step hstep) hrun
      rw [← hpending] at hallowed' hpending'
      exact ⟨ops ++ ops', hallowed.append hallowed', (Fifo.run_append ..).trans hpending'⟩
  obtain ⟨ops, hallowed, hpending⟩ := hops
  obtain ⟨c', hlist, hholds⟩ := hc.run hallowed (Nat.lt_succ_self _)
  exact ⟨ops, _, _, c', hlist, hallowed, hpending ▸ hholds⟩

end SerialRpc.Client
