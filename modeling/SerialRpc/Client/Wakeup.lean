import SerialRpc.Client.Lifecycle

/-!
# Waiting on `call_cond` (client.cc:56-121, 194-210, 229-317, 549-601)

Three loops wait on one condition variable: `wait` until the state is past `Running`,
`start` until it is past `Starting`, and the worker's error handler until the error has
been acknowledged. The handler wakes all of the others before it waits, so that an
acknowledgement's signal finds nobody but the worker. `fail` and `close` move the state
and wake nobody.

- `Shifted`: the moves of the state, with the one of a call on a closed client.
- `Awake`: who can be parked in which state (`awake_preserved`).
- `no_lost_wakeup`: where neither `fail` nor `close` moves the state while a thread is
  parked in `wait`, nobody is left parked whose condition holds when all is quiet.
-/

namespace SerialRpc.Client

/-- The moves of the state; `fail` also leads out of `Closed`. -/
inductive Shifted (call cond : Bool) (state : State) : State → Prop where
  | moved {state' : State} (h : Moved call cond state state') : Shifted call cond state state'
  | reopen (h : call = true) (hclosed : state = .closed) : Shifted call cond state .failing

/-- What a thread of the program can rely on at a point, also on a client that has been
closed before. -/
def CallerPc.Sees (state : State) : CallerPc → Prop
  | .waitDeref | .waitStore | .startDeref | .startStore => state = .failing
  | .closeAckLock | .closeAckStore => state = .failing ∨ state = .failed
  | .closeAckSignal | .closeAckUnlock => state = .failed
  | .closeSwitch old => old = .failing → state = .failing ∨ state = .failed
  | .closeSwap old => old = .failing → state = .failed
  | .failSwap old => old ≠ .failing ∧ old ≠ .failed
  | _ => True

/-- A state in which `wait` waits. -/
def State.early : State → Bool
  | .new | .starting | .running => true
  | .closed | .failing | .failed => false

/-- Where a thread of the program waits on `call_cond`. -/
def CallerPc.waits : CallerPc → Bool
  | .waitParked | .startParked _ => true
  | _ => false

/-- Where a thread has acknowledged an error and is about to signal. -/
def CallerPc.signals : CallerPc → Bool
  | .waitSignal | .startSignal | .closeAckSignal => true
  | _ => false

/-- Where `fail` and `close` swap the state, from the state they have seen. -/
def CallerPc.swapsFrom : CallerPc → Option State
  | .failSwap old | .closeSwap old => some old
  | _ => none

/-- Where the error handler waits on `call_cond`. -/
def WorkerPc.waits : WorkerPc → Bool
  | .handlerParked _ => true
  | _ => false

/-- Where the error handler is about to wake everyone. -/
def WorkerPc.broadcasts : WorkerPc → Bool
  | .handlerBroadcast _ => true
  | _ => false

/-- Where the error handler is about to wait. -/
def WorkerPc.parks : WorkerPc → Bool
  | .handlerWait _ => true
  | _ => false

/-- The worker's thread runs at these points. -/
def WorkerPc.started : WorkerPc → Bool
  | .hello | .returned => false
  | _ => true

section Points

variable {who : Thread} {sh sh' : Shared} {io : Bool} {wake : Nat} {access : Access}

/-- A caller shifts the state as its mutexes allow, and what it has seen of it stays so. -/
theorem CallerPc.next_sees {t : CallId} {pc pc' : CallerPc}
    (hnext : pc.next t sh io wake = some (access, pc'))
    (happly : access.apply (.caller t) sh = some sh') (hsees : pc.Sees sh.state) :
    Shifted pc.holdsCall pc.holdsCond sh.state sh'.state ∧ pc'.Sees sh'.state := by
  rw [Access.apply_state happly]
  clear happly
  cases CallerPc.next_cases hnext with
  | failSwap old hstate =>
    rw [hstate]
    by_cases hclosed : old = .closed
    · exact ⟨.reopen rfl hclosed, trivial⟩
    · exact ⟨.moved (.fail ⟨hclosed, hsees⟩), trivial⟩
  | closeAckStore =>
    rcases hsees with hstate | hstate
    · rw [hstate]
      exact ⟨.moved (.acknowledge rfl), rfl⟩
    · rw [hstate]
      exact ⟨.moved (.stay _), rfl⟩
  | closeRunning hstate =>
    rw [hstate]
    exact ⟨.moved (.close rfl _ nofun), trivial⟩
  | closeSwap old hstate =>
    subst hstate
    exact ⟨.moved (.close rfl _ (fun h => nomatch h.symm.trans (hsees h))), trivial⟩
  | startSwap hstate => exact ⟨hstate ▸ .moved .start, trivial⟩
  | waitStore => exact ⟨hsees ▸ .moved (.acknowledge rfl), trivial⟩
  | startStore => exact ⟨hsees ▸ .moved (.acknowledge rfl), trivial⟩
  -- The others leave the state as it is.
  | _ =>
    simp_all [CallerPc.Sees, CallerPc.holdsCall, CallerPc.holdsCond, Access.state,
      Shifted.moved (Moved.stay _)]

/-- What a caller has seen of the state stays so while it has the mutexes. -/
theorem CallerPc.Sees.stable {pc : CallerPc} {state state' : State} {call cond : Bool}
    (hsees : pc.Sees state) (hshifted : Shifted call cond state state')
    (hcall : pc.holdsCall = true → call = false) (hcond : pc.holdsCond = true → cond = false) :
    pc.Sees state' := by
  cases hshifted with
  | moved hmoved =>
    cases hmoved <;> cases pc <;>
      simp_all [CallerPc.Sees, CallerPc.holdsCall, CallerPc.holdsCond]
  | reopen h hclosed => cases pc <;> simp_all [CallerPc.Sees, CallerPc.holdsCall]

/-- What an access does to those who wait. -/
theorem Access.apply_parked (happly : access.apply who sh = some sh') :
    (access = .wait → sh'.parked = sh.parked ++ [who]) ∧
    (access ≠ .wait → sh'.parked.Sublist sh.parked) ∧
    (access = .broadcast → sh'.parked = []) ∧
    (access = .lockCond → who ∉ sh.parked) ∧
    (∀ i, access = .signal i → ∀ th, sh.parked = [th] → sh'.parked = []) := by
  cases Access.apply_cases happly with
  | signal i hparked hlt =>
    refine ⟨nofun, fun _ => List.eraseIdx_sublist .., nofun, nofun, fun _ _ th heq => ?_⟩
    rw [heq] at hlt ⊢
    cases Nat.lt_one_iff.mp hlt
    rfl
  | _ => simp_all [Shared.withData]

/-- Who is parked was parked, or has just parked itself. -/
theorem Access.parked_cases (happly : access.apply who sh = some sh') {th : Thread}
    (hth : th ∈ sh'.parked) : th ∈ sh.parked ∨ access = .wait ∧ th = who := by
  obtain ⟨hpark, hsub, -⟩ := Access.apply_parked happly
  by_cases heq : access = .wait
  · rw [hpark heq, List.mem_append, List.mem_singleton] at hth
    exact hth.imp id fun h => ⟨heq, h⟩
  · exact .inl ((hsub heq).subset hth)

/-- A thread waits in an early state and under `cond_mutex`, and no thread but the worker
wakes all. -/
theorem CallerPc.next_waits {t : CallId} {pc pc' : CallerPc}
    (hnext : pc.next t sh io wake = some (access, pc')) :
    (access = .wait → pc.holdsCond = true ∧ pc.signals = false ∧ sh.state.early = true ∧
      pc'.waits = true) ∧
    (pc.waits = true → access = .lockCond) ∧
    (pc.signals = true → ∃ i, access = .signal i) := by
  cases CallerPc.next_cases hnext with
  | waitLoad hclosed hfailing hfailed =>
    cases hstate : sh.state <;>
      simp_all [CallerPc.waits, CallerPc.signals, CallerPc.holdsCond, State.early]
  | _ => simp_all [CallerPc.waits, CallerPc.signals, CallerPc.holdsCond, State.early]

/-- Out of `Failing` a thread leads by an acknowledgement, under `cond_mutex`; out of the early
states by a swap. -/
theorem CallerPc.next_leaves {t : CallId} {pc pc' : CallerPc}
    (hnext : pc.next t sh io wake = some (access, pc'))
    (happly : access.apply (.caller t) sh = some sh') (hsees : pc.Sees sh.state) :
    (sh.state = .failing → sh'.state = .failing ∨ pc'.signals = true ∧ pc.holdsCond = true) ∧
    (sh.state.early = true → sh'.state.early = true ∨ pc.swapsFrom = some sh.state) ∧
    (pc.swapsFrom ≠ none → pc.holdsCall = true) := by
  rw [Access.apply_state happly]
  clear happly
  cases CallerPc.next_cases hnext with
  | closeAckStore =>
    refine ⟨fun _ => .inr ⟨rfl, rfl⟩, fun hearly => ?_, fun _ => rfl⟩
    obtain hstate | hstate := hsees <;> rw [hstate] at hearly <;> cases hearly
  | _ =>
    simp_all [CallerPc.Sees, CallerPc.signals, CallerPc.holdsCond, CallerPc.holdsCall,
      CallerPc.swapsFrom, Access.state, State.early]

/-- A thread leaves the worker as it is, or starts it. -/
theorem CallerPc.next_running {t : CallId} {pc pc' : CallerPc}
    (hnext : pc.next t sh io wake = some (access, pc'))
    (happly : access.apply (.caller t) sh = some sh') (hrunning : sh.worker = .running) :
    sh'.worker = .running := by
  cases CallerPc.next_cases hnext with
  | startSpawn =>
    cases happly
    rfl
  | _ =>
    cases Access.apply_cases happly with
    | _ => exact hrunning

/-- The worker waits behind a broadcast or where it has seen `Failing`, and gets nowhere before
it has been woken. -/
theorem WorkerPc.next_parks {input : Input} {pc pc' : WorkerPc}
    (hnext : pc.next sh input io wake = some (access, pc')) :
    (access = .wait → pc.parks = true ∧ pc'.waits = true) ∧
    (access ≠ .wait → pc'.waits = true → pc.waits = true) ∧
    (pc.waits = true → access = .lockCond) ∧
    (pc'.parks = true → pc.broadcasts = true ∨ access = .other ∧ sh.state = .failing) ∧
    (pc.broadcasts = true → access = .broadcast) := by
  cases WorkerPc.next_cases hnext with
  | _ => simp_all [WorkerPc.waits, WorkerPc.parks, WorkerPc.broadcasts]

/-- The worker moves the state out of the early ones where it goes on to wake everyone. -/
theorem WorkerPc.next_leaves {input : Input} {pc pc' : WorkerPc}
    (hnext : pc.next sh input io wake = some (access, pc'))
    (happly : access.apply .worker sh = some sh') :
    (sh'.state = sh.state ∨ sh'.state.early = true ∨ pc'.broadcasts = true) ∧
    (sh.state = .failing → sh'.state = .failing) ∧
    (pc'.broadcasts = true → sh'.state = .failing) ∧
    (pc.parks = true → access = .wait) ∧
    (pc'.started = true → sh.worker = .running → sh'.worker = .running) := by
  cases WorkerPc.next_cases hnext with
  | _ =>
    cases Access.apply_cases happly with
    | _ =>
      simp_all [WorkerPc.started, WorkerPc.parks, WorkerPc.broadcasts, Shared.withData,
        State.early]

/-- A worker that is parked on `call_cond` is where it waits. -/
theorem WorkerPc.next_parked {input : Input} {pc pc' : WorkerPc}
    (hnext : pc.next sh input io wake = some (access, pc'))
    (happly : access.apply .worker sh = some sh')
    (hparked : .worker ∈ sh.parked → pc.waits = true) (h : .worker ∈ sh'.parked) :
    access = .wait ∧ pc'.waits = true := by
  obtain ⟨-, -, -, hlock, -⟩ := Access.apply_parked happly
  obtain ⟨hwait, -, hwaiting, -⟩ := WorkerPc.next_parks hnext
  -- It is parked only behind an access that parks it.
  have heq : access = .wait := (Access.parked_cases happly h).elim
    (fun hold => absurd hold (hlock (hwaiting (hparked hold)))) And.left
  exact ⟨heq, (hwait heq).2⟩

theorem CallerPc.signals_holdsCond {pc : CallerPc} (h : pc.signals = true) :
    pc.holdsCond = true := by
  cases pc <;> first | rfl | exact nomatch h

theorem WorkerPc.wakes_holdsCond {pc : WorkerPc} (h : pc.broadcasts = true ∨ pc.parks = true) :
    pc.holdsCond = true := by
  cases pc <;> simp_all [WorkerPc.broadcasts, WorkerPc.parks, WorkerPc.holdsCond]

/-- At its entry a caller has seen nothing, and signals nobody. -/
theorem Op.entry_sees (op : Op) (state : State) :
    op.entry.Sees state ∧ op.entry.signals = false := by
  cases op <;> exact ⟨trivial, rfl⟩

end Points

/-! ## Who is parked -/

/-- A thread is in `wait`, on `call_cond`. -/
def System.inWait (s : System) : Thread → Bool
  | .caller t => s.callers t = .waitParked
  | .worker => false

/-- Neither `fail` nor `close` moves the state while a thread is parked in `wait`. -/
def System.NoneParked (s : System) : Action → Prop
  | .caller t _ _ => (s.callers t).swapsFrom = some s.shared.state →
      ∀ th ∈ s.shared.parked, s.inWait th = false
  | .invoke _ _ | .worker _ _ _ => True

instance (s : System) : ∀ a, Decidable (s.NoneParked a)
  | .caller _ _ _ => inferInstanceAs (Decidable (_ → _))
  | .invoke _ _ | .worker _ _ _ => inferInstanceAs (Decidable True)

/-- Who can be parked in which state. -/
structure Awake (s : System) : Prop where
  locked : Locked s
  sees : ∀ t, (s.callers t).Sees s.shared.state
  knows : s.worker.Knows
  started : s.worker.started = true → s.shared.worker = .running
  /-- Threads that are parked are where they wait. -/
  waits : ∀ t, .caller t ∈ s.shared.parked → (s.callers t).waits = true
  workerWaits : .worker ∈ s.shared.parked → s.worker.waits = true
  /-- `wait` and `start` wait in an early state, or are about to be woken. -/
  caller : ∀ t, .caller t ∈ s.shared.parked →
    s.shared.state.early = true ∨ s.worker.broadcasts = true
  /-- The error handler waits until the error is acknowledged, or is about to be woken. -/
  worker : .worker ∈ s.shared.parked →
    s.shared.state = .failing ∨ ∃ t, (s.callers t).signals = true
  /-- It waits alone, so that a signal is for it. -/
  alone : .worker ∈ s.shared.parked → s.shared.parked = [.worker]
  wakes : s.worker.broadcasts = true ∨ s.worker.parks = true → s.shared.state = .failing
  parks : s.worker.parks = true → s.shared.parked = []

theorem awake_init : Awake {} where
  locked := locked_init
  sees _ := trivial
  knows := trivial
  started := nofun
  waits _ := nofun
  workerWaits := nofun
  caller _ := nofun
  worker := nofun
  alone := nofun
  wakes := nofun
  parks := nofun

namespace Awake

variable {s : System} {t : CallId} {sh : Shared} {io : Bool} {wake : Nat} {access : Access}
  {pc : CallerPc}

theorem invoke (hs : Awake s) {op : Op} (hidle : s.callers t = .idle)
    (hlocked : Locked (s.callerAt t (s.shared.withData t fun _ => op.callData) op.entry)) :
    Awake (s.callerAt t (s.shared.withData t fun _ => op.callData) op.entry) where
  locked := hlocked
  sees u := by
    by_cases heq : u = t
    · rw [heq, System.callerAt_self]
      exact (op.entry_sees _).1
    · rw [System.callerAt_of_ne s _ _ heq]
      exact hs.sees u
  knows := hs.knows
  started := hs.started
  waits u hu := by
    have hwaits := hs.waits u hu
    by_cases heq : u = t
    · rw [heq, hidle] at hwaits
      exact nomatch hwaits
    · rw [System.callerAt_of_ne s _ _ heq]
      exact hwaits
  workerWaits := hs.workerWaits
  caller := hs.caller
  worker hw := by
    refine (hs.worker hw).imp id fun ⟨u, hu⟩ => ⟨u, ?_⟩
    by_cases heq : u = t
    · rw [heq, hidle] at hu
      exact nomatch hu
    · rw [System.callerAt_of_ne s _ _ heq]
      exact hu
  alone := hs.alone
  wakes := hs.wakes
  parks := hs.parks

/-- A thread that is parked in `start` holds `call_mtx`, so nobody else is at a swap of it. -/
theorem inWait_of_swaps (hs : Awake s) (hswaps : (s.callers t).swapsFrom ≠ none)
    (hholds : (s.callers t).holdsCall = true) {u : CallId} (hu : .caller u ∈ s.shared.parked) :
    s.inWait (.caller u) = true := by
  have hwaits := hs.waits u hu
  cases hpc : s.callers u <;> rw [hpc] at hwaits
  case waitParked => simp [System.inWait, hpc]
  case startParked again =>
    -- It would be the thread at the swap itself.
    have hcall : (s.callers u).holdsCall = true := by rw [hpc]; rfl
    cases hs.locked.call.unique (a := .caller u) (b := .caller t) hcall hholds
    rw [hpc] at hswaps
    exact absurd rfl hswaps
  all_goals exact nomatch hwaits

/-- A thread does not wait beside the error handler. -/
theorem alone_of_wait (hs : Awake s) (hhandler : .worker ∈ s.shared.parked)
    (hnext : (s.callers t).next t s.shared io wake = some (access, pc)) : access ≠ .wait := by
  intro hwait
  obtain ⟨hholds, hsignals, hearly, -⟩ := (CallerPc.next_waits hnext).1 hwait
  rcases hs.worker hhandler with hfailing | ⟨u, hu⟩
  · rw [hfailing] at hearly
    exact nomatch hearly
  · cases hs.locked.cond.unique (a := .caller u) (b := .caller t)
      (CallerPc.signals_holdsCond hu) hholds
    exact nomatch hsignals.symm.trans hu

/-- What the other threads have seen outlives a thread's access. -/
theorem sees_callerAt (hs : Awake s)
    (hshifted : Shifted (s.callers t).holdsCall (s.callers t).holdsCond s.shared.state sh.state)
    (hsees : pc.Sees sh.state) : ∀ u, ((s.callerAt t sh pc).callers u).Sees sh.state := by
  intro u
  by_cases heq : u = t
  · rw [heq, System.callerAt_self]
    exact hsees
  · rw [System.callerAt_of_ne s sh pc heq]
    have hne : Thread.caller u ≠ .caller t := fun h => heq (Thread.caller.inj h)
    refine (hs.sees u).stable hshifted (fun hu => ?_) fun hu => ?_
    · exact Bool.eq_false_iff.mpr fun ht => hne (hs.locked.call.unique hu ht)
    · exact Bool.eq_false_iff.mpr fun ht => hne (hs.locked.cond.unique hu ht)

/-- A thread's own access keeps everyone awake, if it does not move the state behind the back
of a thread in `wait`. -/
theorem callerStep (hs : Awake s) (hlocked : Locked (s.callerAt t sh pc))
    (hnext : (s.callers t).next t s.shared io wake = some (access, pc))
    (happly : access.apply (.caller t) s.shared = some sh)
    (hnone : (s.callers t).swapsFrom = some s.shared.state →
      ∀ th ∈ s.shared.parked, s.inWait th = false) : Awake (s.callerAt t sh pc) := by
  obtain ⟨hshifted, hsees⟩ := CallerPc.next_sees hnext happly (hs.sees t)
  obtain ⟨-, hsub, -, hlock, hsignal⟩ := Access.apply_parked happly
  obtain ⟨hwait, hwaits, hsignals⟩ := CallerPc.next_waits hnext
  obtain ⟨hfailing, hearly, hcall⟩ := CallerPc.next_leaves hnext happly (hs.sees t)
  have hhandler : .worker ∈ sh.parked → .worker ∈ s.shared.parked := fun h =>
    (Access.parked_cases happly h).resolve_right fun h => nomatch h.2
  refine {
    locked := hlocked
    sees := hs.sees_callerAt hshifted hsees
    knows := hs.knows
    started := fun h => CallerPc.next_running hnext happly (hs.started h)
    workerWaits := fun h => hs.workerWaits (hhandler h)
    waits := fun u hu => ?waits
    caller := fun u hu => ?caller
    worker := fun h => ?worker
    alone := fun h => ?alone
    wakes := fun h => ?wakes
    parks := fun h => ?parks }
  case waits =>
    by_cases heq : u = t
    · subst heq
      rw [System.callerAt_self]
      rcases Access.parked_cases happly hu with hold | ⟨heq, -⟩
      · exact absurd hold (hlock (hwaits (hs.waits u hold)))
      · exact (hwait heq).2.2.2
    · rw [System.callerAt_of_ne s sh pc heq]
      refine hs.waits u ((Access.parked_cases happly hu).resolve_right fun h => ?_)
      exact heq (Thread.caller.inj h.2)
  case caller =>
    rcases Access.parked_cases happly hu with hold | ⟨heq, -⟩
    · -- An early state is left only at a swap, and then nobody is in `wait`.
      refine (hs.caller u hold).imp (fun h => (hearly h).resolve_right fun hswaps => ?_) id
      have hne : (s.callers t).swapsFrom ≠ none := fun h => nomatch hswaps.symm.trans h
      have hin := hs.inWait_of_swaps hne (hcall hne) hold
      exact nomatch (hnone hswaps _ hold).symm.trans hin
    · refine .inl ?_
      show sh.state.early = true
      rw [Access.apply_state happly, heq]
      exact (hwait heq).2.2.1
  case worker =>
    rcases hs.worker (hhandler h) with hstate | ⟨u, hu⟩
    · -- Who acknowledges the error goes on to signal.
      refine (hfailing hstate).imp id fun h => ⟨t, ?_⟩
      rw [System.callerAt_self]
      exact h.1
    · refine .inr ⟨u, ?_⟩
      by_cases heq : u = t
      · -- The signal is for the error handler, which is no longer parked then.
        subst heq
        obtain ⟨i, hi⟩ := hsignals hu
        have hnil : sh.parked = [] := hsignal i hi _ (hs.alone (hhandler h))
        rw [System.callerAt_shared, hnil] at h
        exact nomatch h
      · rw [System.callerAt_of_ne s sh pc heq]
        exact hu
  case alone =>
    have hold := hhandler h
    have hkept := hsub (hs.alone_of_wait hold hnext)
    rw [hs.alone hold] at hkept
    exact hkept.eq_of_length_le (List.singleton_sublist.mpr h).length_le
  case wakes =>
    -- The worker is in the section, so the thread that would leave `Failing` is not.
    refine (hfailing (hs.wakes h)).resolve_right fun ht => ?_
    exact nomatch hs.locked.cond.unique (a := .worker) (b := .caller t)
      (WorkerPc.wakes_holdsCond h) ht.2
  case parks =>
    have hne : access ≠ .wait := fun heq =>
      nomatch hs.locked.cond.unique (a := .worker) (b := .caller t)
        (WorkerPc.wakes_holdsCond (.inr h)) (hwait heq).1
    have hkept := hsub hne
    rw [hs.parks h] at hkept
    exact List.sublist_nil.mp hkept

/-- Nobody is parked when the handler takes the section in `Failing`. -/
theorem parked_of_failing (hs : Awake s) (hstate : s.shared.state = .failing)
    (hbroadcasts : s.worker.broadcasts = false) (hwaits : s.worker.waits = false) :
    s.shared.parked = [] := by
  refine List.eq_nil_iff_forall_not_mem.mpr fun th hth => ?_
  cases th with
  | caller u =>
    rcases hs.caller u hth with hold | hold
    · rw [hstate] at hold
      exact nomatch hold
    · exact nomatch hbroadcasts.symm.trans hold
  | worker => exact nomatch hwaits.symm.trans (hs.workerWaits hth)

/-- The worker's own access keeps everyone awake. -/
theorem workerStep (hs : Awake s) {input : Input} {pc : WorkerPc}
    (hlocked : Locked { s with shared := sh, worker := pc })
    (hrunning : s.shared.worker = .running)
    (hnext : s.worker.next s.shared input io wake = some (access, pc))
    (happly : access.apply .worker s.shared = some sh) :
    Awake { s with shared := sh, worker := pc } := by
  obtain ⟨hmoved, hknows⟩ := WorkerPc.next_knows hnext happly hs.knows
  obtain ⟨hpark, hsub, hbroadcast, -⟩ := Access.apply_parked happly
  obtain ⟨hwait, hwaits, hwaiting, hparks, hwakes⟩ := WorkerPc.next_parks hnext
  obtain ⟨hearly, hfailing, hbroadcasts, hparking, hstarted⟩ := WorkerPc.next_leaves hnext happly
  have hcaller : ∀ u, .caller u ∈ sh.parked → .caller u ∈ s.shared.parked := fun u hu =>
    (Access.parked_cases happly hu).resolve_right fun h => nomatch h.2
  have hhandler : .worker ∈ sh.parked → access = .wait := fun h =>
    (WorkerPc.next_parked hnext happly hs.workerWaits h).1
  refine {
    locked := hlocked
    sees := fun u => ?sees
    knows := hknows
    started := fun h => hstarted h hrunning
    waits := fun u hu => hs.waits u (hcaller u hu)
    workerWaits := fun h => (hwait (hhandler h)).2
    caller := fun u hu => ?caller
    worker := fun h => .inl (hfailing (hs.wakes (.inr (hwait (hhandler h)).1)))
    alone := fun h => ?alone
    wakes := fun h => h.elim hbroadcasts fun h => ?wakes
    parks := fun h => ?parks }
  case sees =>
    refine (hs.sees u).stable (.moved hmoved) (fun _ => rfl) fun hu => ?_
    exact Bool.eq_false_iff.mpr fun hw =>
      nomatch hs.locked.cond.unique (a := .caller u) (b := .worker) hu hw
  case caller =>
    rcases hs.caller u (hcaller u hu) with hold | hold
    · rcases hearly with hsame | hearly | hwakes
      · exact .inl ((congrArg State.early hsame).trans hold)
      · exact .inl hearly
      · exact .inr hwakes
    · have hnil := hbroadcast (hwakes hold)
      rw [show sh.parked = [] from hnil] at hu
      exact nomatch hu
  case alone =>
    have heq := hhandler h
    show sh.parked = [.worker]
    rw [hpark heq, hs.parks (hwait heq).1, List.nil_append]
  case wakes =>
    rcases hparks h with hbroadcasts | ⟨-, hstate⟩
    · exact hfailing (hs.wakes (.inl hbroadcasts))
    · exact hfailing hstate
  case parks =>
    rcases hparks h with hbroadcasts | ⟨heq, hstate⟩
    · exact hbroadcast (hwakes hbroadcasts)
    · have hnil := hs.parked_of_failing hstate
        (Bool.eq_false_iff.mpr fun h => nomatch heq.symm.trans (hwakes h))
        (Bool.eq_false_iff.mpr fun h => nomatch heq.symm.trans (hwaiting h))
      have hkept := hsub fun h => nomatch heq.symm.trans h
      rw [hnil] at hkept
      exact List.sublist_nil.mp hkept

end Awake

/-- Every turn keeps everyone awake, if `fail` and `close` wait for those in `wait`. -/
theorem awake_preserved : Transition.Preserves System.step System.NoneParked Awake := by
  intro s a s' hs hnone hstep
  have hlocked : Locked s' := hs.locked.step hstep
  obtain ⟨t, op, -, hidle, rfl⟩ | ⟨t, io, wake, access, pc, shared, rfl, hnext, happly, rfl⟩ |
    ⟨input, io, wake, access, pc, shared, -, hrunning, hnext, happly, rfl⟩ :=
    System.step_cases hstep
  · exact hs.invoke hidle hlocked
  · exact hs.callerStep hlocked hnext happly hnone
  · exact hs.workerStep hlocked hrunning hnext happly

/-! ## Nobody is left behind -/

/-- A thread has returned, waits, or joins a worker that waits. -/
def System.rests (s : System) : Thread → Bool
  | .caller t =>
    match s.callers t with
    | .idle | .returned _ => true
    | .await => (s.shared.data t).waiter ≠ .notified
    | .closeJoin _ => s.shared.worker = .running ∧ .worker ∈ s.shared.parked
    | _ => .caller t ∈ s.shared.parked
  | .worker => s.shared.worker ≠ .running ∨ .worker ∈ s.shared.parked

/-- A thread is parked on `call_cond`, and what it waits for is there. -/
def System.overslept (s : System) : Thread → Bool
  | .caller t =>
    .caller t ∈ s.shared.parked ∧ s.callers t = .waitParked ∧
      s.shared.state ∈ [.closed, .failing, .failed]
  | .worker =>
    .worker ∈ s.shared.parked ∧ s.worker.waits ∧ s.shared.state ∈ [.closed, .failed]

/-- Along a run, not all threads rest while one of them could go on. -/
def NoLostWakeup (as : List Action) : Prop :=
  Transition.Always System.step
    (fun s => (∀ th, s.rests th = true) → ∀ th, s.overslept th = false) {} as

/-- Who is about to signal does not rest. -/
theorem Awake.not_signals {s : System} (hs : Awake s) {t : CallId}
    (h : s.rests (.caller t) = true) :
    (s.callers t).signals = false := by
  have hwaits := hs.waits t
  cases hpc : s.callers t <;> rw [hpc] at hwaits <;>
    simp only [System.rests, hpc, decide_eq_true_eq] at h
  case waitSignal | startSignal | closeAckSignal => exact nomatch hwaits h
  all_goals rfl

/-- Nor does a handler that is about to wake everyone. -/
theorem Awake.not_broadcasts {s : System} (hs : Awake s) (h : s.rests .worker = true) :
    s.worker.broadcasts = false := by
  have hstarted := hs.started
  have hwaits := hs.workerWaits
  cases hpc : s.worker <;> rw [hpc] at hstarted hwaits
  case handlerBroadcast k =>
    rcases of_decide_eq_true h with hstopped | hmem
    · exact absurd (hstarted rfl) hstopped
    · exact nomatch hwaits hmem
  all_goals rfl

/-- When all are at rest nobody has overslept. -/
theorem Awake.none_overslept {s : System} (hs : Awake s) (h : ∀ th, s.rests th = true)
    (th : Thread) : s.overslept th = false := by
  refine Bool.eq_false_iff.mpr fun hover => ?_
  cases th with
  | caller t =>
    obtain ⟨hmem, -, hover⟩ := of_decide_eq_true hover
    rcases hs.caller t hmem with hearly | hwakes
    · cases hstate : s.shared.state <;> simp_all [State.early]
    · exact nomatch (hs.not_broadcasts (h .worker)).symm.trans hwakes
  | worker =>
    obtain ⟨hmem, -, hover⟩ := of_decide_eq_true hover
    rcases hs.worker hmem with hstate | ⟨t, ht⟩
    · rw [hstate] at hover
      exact absurd hover (by decide)
    · exact nomatch (hs.not_signals (h (.caller t))).symm.trans ht

/-- No wake-up of `wait` or of the error handler is lost, where neither `fail` nor `close` moves
the state while a thread is parked in `wait`. -/
theorem no_lost_wakeup (as : List Action)
    (h : Transition.Along System.step System.NoneParked {} as) : NoLostWakeup as :=
  (awake_preserved.always awake_init h).imp fun _ hs => hs.none_overslept

/-- The error handler wakes a thread in `wait`, which takes the error and wakes the handler. -/
theorem no_lost_wakeup_error :
    NoLostWakeup (Action.started ++ Action.alone 1 .wait 2 ++ Action.work .fails 8 ++
      Action.goOn 1 7 ++ Action.work .fails 5) :=
  no_lost_wakeup _ (by decide)

/-- The thread that a turn begins. -/
def Action.begins : Action → Option CallId
  | .invoke t _ => some t
  | .caller _ _ _ | .worker _ _ _ => none

/-- Threads that a run does not begin are where they were. -/
theorem System.callers_of_run {t : CallId} :
    ∀ {s s' : System} {as : List Action}, Transition.run System.step s as = some s' →
      t ∉ as.filterMap Action.begins → s.callers t = .idle → s'.callers t = .idle
  | s, s', [], hrun, _, hidle => by
    cases hrun
    exact hidle
  | s, s', a :: as, hrun, hnot, hidle => by
    obtain ⟨r, hr, hrun⟩ := Option.bind_eq_some_iff.mp hrun
    have hrest : t ∉ as.filterMap Action.begins := fun h => hnot <| by
      cases hbegins : a.begins with
      | none => rwa [List.filterMap_cons_none hbegins]
      | some u => exact List.filterMap_cons_some hbegins ▸ List.mem_cons_of_mem u h
    refine callers_of_run hrun hrest ?_
    obtain ⟨u, op, rfl, -, rfl⟩ | ⟨u, io, wake, access, pc, shared, -, hnext, -, rfl⟩ |
      ⟨input, io, wake, access, pc, shared, -, -, -, -, rfl⟩ := step_cases hr
    · by_cases heq : t = u
      · exact absurd (heq ▸ List.mem_cons_self) hnot
      · rw [callerAt_of_ne s _ _ heq, hidle]
    · by_cases heq : t = u
      · subst heq
        rw [hidle] at hnext
        exact nomatch hnext
      · rw [callerAt_of_ne s _ _ heq, hidle]
    · exact hidle

/-- A run has lost a wake-up if the threads it begins rest at its end, and the worker does. -/
theorem wakeup_lost_of_run {as : List Action} (th : Thread)
    (h : (Transition.run System.step {} as).map (fun s =>
      (s.overslept th, s.rests .worker,
        (as.filterMap Action.begins).all fun t => s.rests (.caller t))) = some (true, true, true)) :
    ¬ NoLostWakeup as := by
  intro hall
  obtain ⟨s, hs, heq⟩ := Option.map_eq_some_iff.mp h
  simp only [Prod.mk.injEq, List.all_eq_true] at heq
  obtain ⟨hover, hworker, hcallers⟩ := heq
  refine Bool.eq_false_iff.mp (hall.last hs ?_ th) hover
  intro th
  cases th with
  | worker => exact hworker
  | caller t =>
    by_cases hmem : t ∈ as.filterMap Action.begins
    · exact hcallers t hmem
    · simp only [System.rests, System.callers_of_run hs hmem rfl]

/-- A thread waits on a new client; then a call fails, or the client is closed. -/
def waitThenFail : List Action := Action.alone 2 .wait 2 ++ Action.alone 1 (.call .call) 7

def waitThenClose : List Action := Action.alone 2 .wait 2 ++ Action.alone 1 .close 7

/-- A call cannot be sent while a thread is in `wait`, and fails; then the worker cannot read, and
waits too. The signal of `close` is for the wrong one of them. -/
def signalToWait : List Action :=
  Action.started ++ Action.alone 2 .wait 2 ++ Action.alone 1 (.call .call) 2 ++
    [.caller 1 false 0] ++ Action.goOn 1 5 ++ Action.work .fails 6 ++ Action.alone 3 .close 11 ++
    Action.goOn 2 4

/-- The first two leave a thread in `wait` for good, the third the worker, which `close` joins. -/
theorem wakeup_lost :
    ¬ NoLostWakeup waitThenFail ∧ ¬ NoLostWakeup waitThenClose ∧ ¬ NoLostWakeup signalToWait :=
  ⟨wakeup_lost_of_run (.caller 2) (by decide), wakeup_lost_of_run (.caller 2) (by decide),
    wakeup_lost_of_run .worker (by decide)⟩

end SerialRpc.Client
