import SerialRpc.Client.System

/-!
# The client's state over its life (client.cc:47-121, 148-210, 229-322)

Five functions move the state, some by swaps and some by plain stores. What they do to
it together is a small graph, `Moved`: a client starts, runs, fails from there, is
acknowledged, and is closed from every state but `Failing`; nothing leads out of
`Closed`.

- `CallerPc.Knows`, `WorkerPc.Knows`: what a thread can rely on at each of its points.
- `Lifecycle`: every thread can, in every state a run reaches (`lifecycle_preserved`).
  The one exception is a call that begins on a closed client, whose `fail` moves the
  state from `Closed` to `Failing`.
- `closed_final`: without such a call `Closed` is final, and the connection is closed
  and the worker joined at most once.
-/

namespace SerialRpc.Client

/-- The moves of the state. An acknowledgement is made under `cond_mutex`, and `Closed` is
entered under `call_mtx`. -/
inductive Moved (call cond : Bool) : State → State → Prop where
  | stay (state : State) : Moved call cond state state
  | start : Moved call cond .new .starting
  | run : Moved call cond .starting .running
  | failNew : Moved call cond .new .failing
  | failStarting : Moved call cond .starting .failing
  | failRunning : Moved call cond .running .failing
  | acknowledge (h : cond = true) : Moved call cond .failing .failed
  | close (h : call = true) (state : State) (hne : state ≠ .failing) :
      Moved call cond state .closed

/-- What fails has not failed, and is not closed. -/
theorem Moved.fail {call cond : Bool} {state : State}
    (h : state ≠ .closed ∧ state ≠ .failing ∧ state ≠ .failed) :
    Moved call cond state .failing := by
  cases state with
  | new => exact .failNew
  | starting => exact .failStarting
  | running => exact .failRunning
  | closed => exact absurd rfl h.1
  | failing => exact absurd rfl h.2.1
  | failed => exact absurd rfl h.2.2

/-- `Closed` is entered under `call_mtx`, and never left. -/
theorem Moved.closed_iff {cond : Bool} {state state' : State} (h : Moved false cond state state') :
    state' = .closed ↔ state = .closed := by
  cases h <;> simp_all

/-- What a thread of the program can rely on at a point. -/
def CallerPc.Knows (state : State) : CallerPc → Prop
  | .waitDeref | .waitStore | .startDeref | .startStore => state = .failing
  | .closeAckLock | .closeAckStore => state = .failing ∨ state = .failed
  | .closeAckSignal | .closeAckUnlock => state = .failed
  | .closeSwitch old =>
    (old ≠ .closed → state ≠ .closed) ∧ (old = .failing → state = .failing ∨ state = .failed)
  | .closeSwap old => state ≠ .closed ∧ old ≠ .closed ∧ (old = .failing → state = .failed)
  | .closeGoodbye | .closeJoin _ | .closeConn _ => state = .closed
  | .failSwap old => state ≠ .closed ∧ old ≠ .failing ∧ old ≠ .failed
  -- A call that began on a client that was not closed; `close` has to wait for it.
  | .checkLoad _ | .checkLock _ | .checkReload _ | .checkUnlock _ _ | .writeId _ | .push _
  | .body _ _ | .callUnlock | .failPop | .failSetError _ | .failNotify _ | .failWake _
  | .failNotified _ | .failLoad | .failClose | .failUnlock => state ≠ .closed
  | .idle | .returned _ | .callLock _ | .await | .closeLock | .closeLoad | .closeUnlock | .waitLock
  | .waitLoad | .waitParked | .waitCheck | .waitSignal | .waitUnlock _ | .startLock | .startLoad
  | .startSwap | .startSpawn | .startCondLock _ | .startCondLoad _ | .startParked _ | .startCheck
  | .startFailLock | .startFailLoad | .startSignal | .startCondUnlock _ _ | .startUnlock _ => True

/-- What the worker can rely on at a point. -/
def WorkerPc.Knows : WorkerPc → Prop
  | .handlerSwap old _ => old ≠ .closed ∧ old ≠ .failing ∧ old ≠ .failed
  | _ => True

/-- Where a call takes `call_mtx`. -/
def CallerPc.beginsCall : CallerPc → Bool
  | .callLock _ => true
  | _ => false

section Points

variable {sh sh' : Shared} {io : Bool} {wake : Nat} {access : Access}

/-- The state behind an access. -/
def Access.state : Access → State → State
  | .setState state, _ => state
  | _, state => state

theorem Access.apply_state {who : Thread} (happly : access.apply who sh = some sh') :
    sh'.state = access.state sh.state := by
  cases Access.apply_cases happly with
  | _ => rfl

/-- A thread's own access makes a move, and leaves it at a point it can rely on. -/
theorem CallerPc.next_knows {t : CallId} {pc pc' : CallerPc}
    (hnext : pc.next t sh io wake = some (access, pc'))
    (happly : access.apply (.caller t) sh = some sh') (hknows : pc.Knows sh.state)
    (hcall : pc.beginsCall = true → sh.state ≠ .closed) :
    Moved pc.holdsCall pc.holdsCond sh.state sh'.state ∧ pc'.Knows sh'.state := by
  rw [Access.apply_state happly]
  clear happly
  cases CallerPc.next_cases hnext with
  | failSwap old hstate =>
    subst hstate
    exact ⟨.fail hknows, (nofun : State.failing ≠ .closed)⟩
  | closeAckStore =>
    rcases hknows with hfailing | hfailed
    · rw [hfailing]
      exact ⟨.acknowledge rfl, rfl⟩
    · rw [hfailed]
      exact ⟨.stay .failed, rfl⟩
  | closeRunning hstate =>
    rw [hstate]
    exact ⟨.close rfl _ nofun, rfl⟩
  | closeSwap old hstate =>
    subst hstate
    exact ⟨.close rfl _ (fun h => nomatch h.symm.trans (hknows.2.2 h)), rfl⟩
  | waitStore => exact ⟨hknows ▸ .acknowledge rfl, trivial⟩
  | startSwap hstate => exact ⟨hstate ▸ .start, trivial⟩
  | startStore => exact ⟨hknows ▸ .acknowledge rfl, trivial⟩
  -- The others leave the state as it is.
  | _ =>
    simp_all [CallerPc.Knows, CallerPc.holdsCall, CallerPc.holdsCond, CallerPc.beginsCall,
      Access.state, Moved.stay]

theorem WorkerPc.next_knows {input : Input} {pc pc' : WorkerPc}
    (hnext : pc.next sh input io wake = some (access, pc'))
    (happly : access.apply .worker sh = some sh') (hknows : pc.Knows) :
    Moved false pc.holdsCond sh.state sh'.state ∧ pc'.Knows := by
  rw [Access.apply_state happly]
  clear happly
  cases WorkerPc.next_cases hnext with
  | helloSwap hstate => exact ⟨hstate ▸ .run, trivial⟩
  | handlerSwap old k hstate =>
    subst hstate
    exact ⟨.fail hknows, trivial⟩
  | _ => simp_all [WorkerPc.Knows, Access.state, Moved.stay]

/-- What a thread relies on outlives the moves of the others. -/
theorem CallerPc.Knows.stable {pc : CallerPc} {state state' : State} {call cond : Bool}
    (hknows : pc.Knows state) (hmoved : Moved call cond state state')
    (hcall : pc.holdsCall = true → call = false) (hcond : pc.holdsCond = true → cond = false) :
    pc.Knows state' := by
  cases hmoved <;> cases pc <;> simp_all [CallerPc.Knows, CallerPc.holdsCall, CallerPc.holdsCond]

/-- How often `close` still has to close the connection. -/
def CallerPc.connOwed : CallerPc → Nat
  | .closeGoodbye | .closeConn _ => 1
  | .closeJoin connLeft => connLeft.toNat
  | _ => 0

/-- How often `close` still has to join the worker. -/
def CallerPc.joinOwed : CallerPc → Nat
  | .closeGoodbye | .closeJoin _ => 1
  | .closeConn joinLeft => joinLeft.toNat
  | _ => 0

/-- Whether the client has been closed, as a count. -/
def State.closes : State → Nat
  | .closed => 1
  | _ => 0

theorem CallerPc.owed_of_not_holdsCall {pc : CallerPc} (h : pc.holdsCall = false) :
    pc.connOwed = 0 ∧ pc.joinOwed = 0 := by
  cases pc <;> first | exact ⟨rfl, rfl⟩ | exact nomatch h

/-- `close` owes what it does on entering `Closed`, and pays it. -/
theorem CallerPc.next_owes {t : CallId} {pc pc' : CallerPc}
    (hnext : pc.next t sh io wake = some (access, pc'))
    (happly : access.apply (.caller t) sh = some sh') (hknows : pc.Knows sh.state) :
    sh'.connCloses + pc'.connOwed + sh.state.closes =
      sh.connCloses + pc.connOwed + sh'.state.closes ∧
    sh'.joins + pc'.joinOwed + sh.state.closes = sh.joins + pc.joinOwed + sh'.state.closes := by
  cases CallerPc.next_cases hnext with
  | closeAckStore =>
    cases happly
    obtain h | h := hknows <;> rw [h] <;> exact ⟨rfl, rfl⟩
  | _ =>
    cases Access.apply_cases happly with
    | _ =>
      simp_all [CallerPc.Knows, CallerPc.connOwed, CallerPc.joinOwed, State.closes,
        Shared.withData]

/-- The worker neither closes the connection nor joins. -/
theorem WorkerPc.next_owes {input : Input} {pc pc' : WorkerPc}
    (hnext : pc.next sh input io wake = some (access, pc'))
    (happly : access.apply .worker sh = some sh') :
    sh'.connCloses = sh.connCloses ∧ sh'.joins = sh.joins := by
  cases WorkerPc.next_cases hnext with
  | _ =>
    cases Access.apply_cases happly with
    | _ => exact ⟨rfl, rfl⟩

end Points

/-! ## Every thread can rely on it -/

/-- No call enters its `call_mtx` section on a closed client. -/
def System.CallsOpen (s : System) : Action → Prop
  | .caller t _ _ => (s.callers t).beginsCall = true → s.shared.state ≠ .closed
  | .invoke _ _ | .worker _ _ _ => True

instance (s : System) : ∀ a, Decidable (s.CallsOpen a)
  | .caller t _ _ =>
    inferInstanceAs (Decidable ((s.callers t).beginsCall = true → s.shared.state ≠ .closed))
  | .invoke _ _ | .worker _ _ _ => inferInstanceAs (Decidable True)

/-- The state, as the threads see it, and what `close` has done. -/
structure Lifecycle (s : System) : Prop where
  locked : Locked s
  callers : ∀ t, (s.callers t).Knows s.shared.state
  worker : s.worker.Knows
  conn : s.shared.connCloses + s.inCall 0 (fun _ => CallerPc.connOwed) = s.shared.state.closes
  join : s.shared.joins + s.inCall 0 (fun _ => CallerPc.joinOwed) = s.shared.state.closes

theorem lifecycle_init : Lifecycle {} where
  locked := locked_init
  callers _ := trivial
  worker := trivial
  conn := rfl
  join := rfl

theorem Moved.of_closed {call cond : Bool} {state : State} (h : Moved call cond .closed state) :
    state = .closed := by
  cases h <;> rfl

namespace Lifecycle

variable {s s' : System}

/-- What the other threads rely on outlives a thread's move. -/
theorem callers_stable (hs : Lifecycle s) {t : CallId} {shared : Shared} {pc : CallerPc}
    (hmoved : Moved (s.callers t).holdsCall (s.callers t).holdsCond s.shared.state shared.state)
    (hpc : pc.Knows shared.state) :
    ∀ u, ((s.callerAt t shared pc).callers u).Knows shared.state := by
  intro u
  by_cases heq : u = t
  · rw [heq, System.callerAt_self]
    exact hpc
  · have hne : Thread.caller t ≠ .caller u := fun h => heq (Thread.caller.inj h).symm
    rw [System.callerAt_of_ne s shared pc heq]
    refine (hs.callers u).stable hmoved (fun hu => ?_) fun hu => ?_
    · exact Bool.eq_false_iff.mpr fun ht => hne (hs.locked.call.unique ht hu)
    · exact Bool.eq_false_iff.mpr fun ht => hne (hs.locked.cond.unique ht hu)

/-- A turn makes a move. -/
theorem moved (hs : Lifecycle s) {a : Action} (hopen : s.CallsOpen a) (h : s.step a = some s') :
    ∃ call cond, Moved call cond s.shared.state s'.shared.state := by
  obtain ⟨t, op, -, -, rfl⟩ | ⟨t, io, wake, access, pc, shared, rfl, hnext, happly, rfl⟩ |
    ⟨input, io, wake, access, pc, shared, -, -, hnext, happly, rfl⟩ := System.step_cases h
  · exact ⟨false, false, .stay _⟩
  · exact ⟨_, _, (CallerPc.next_knows hnext happly (hs.callers t) hopen).1⟩
  · exact ⟨_, _, (WorkerPc.next_knows hnext happly hs.worker).1⟩

end Lifecycle

/-- Every turn keeps what the threads rely on, if no call begins on a closed client. -/
theorem lifecycle_preserved : Transition.Preserves System.step System.CallsOpen Lifecycle := by
  intro s a s' hs hopen hstep
  have hlocked : Locked s' := hs.locked.step hstep
  obtain ⟨t, op, -, hidle, rfl⟩ | ⟨t, io, wake, access, pc, shared, rfl, hnext, happly, rfl⟩ |
    ⟨input, io, wake, access, pc, shared, -, -, hnext, happly, rfl⟩ := System.step_cases hstep
  · have hconn := System.inCall_callerAt_add (f := fun _ => CallerPc.connOwed) hs.locked hlocked
      fun pc hpc => (CallerPc.owed_of_not_holdsCall hpc).1
    have hjoin := System.inCall_callerAt_add (f := fun _ => CallerPc.joinOwed) hs.locked hlocked
      fun pc hpc => (CallerPc.owed_of_not_holdsCall hpc).2
    -- At its entry a function owes nothing.
    have hentry := CallerPc.owed_of_not_holdsCall op.entry_holds.1
    rw [hidle, hentry.1] at hconn
    rw [hidle, hentry.2] at hjoin
    refine ⟨hlocked, hs.callers_stable (.stay _) (by cases op <;> trivial), hs.worker,
      (congrArg _ hconn).trans hs.conn, (congrArg _ hjoin).trans hs.join⟩
  · obtain ⟨hmoved, hpc⟩ := CallerPc.next_knows hnext happly (hs.callers t) hopen
    obtain ⟨hpaid, hpaid'⟩ := CallerPc.next_owes hnext happly (hs.callers t)
    have hconn := System.inCall_callerAt_add (f := fun _ => CallerPc.connOwed) hs.locked hlocked
      fun pc hpc => (CallerPc.owed_of_not_holdsCall hpc).1
    have hjoin := System.inCall_callerAt_add (f := fun _ => CallerPc.joinOwed) hs.locked hlocked
      fun pc hpc => (CallerPc.owed_of_not_holdsCall hpc).2
    have := hs.conn
    have := hs.join
    refine ⟨hlocked, hs.callers_stable hmoved hpc, hs.worker, ?_, ?_⟩
    · rw [System.callerAt_shared]
      omega
    · rw [System.callerAt_shared]
      omega
  · obtain ⟨hmoved, hpc⟩ := WorkerPc.next_knows hnext happly hs.worker
    obtain ⟨hconn, hjoin⟩ := WorkerPc.next_owes hnext happly
    have hcall := WorkerPc.next_callMtx hnext happly
    -- The worker does not lead into or out of `Closed`.
    have hcloses : shared.state.closes = s.shared.state.closes := by
      have := hmoved.closed_iff
      cases h : s.shared.state <;> cases h' : shared.state <;> simp_all [State.closes]
    refine ⟨hlocked, fun u => (hs.callers u).stable hmoved (fun _ => rfl) fun hu => ?_, hpc, ?_, ?_⟩
    · exact Bool.eq_false_iff.mpr fun hw =>
        nomatch hs.locked.cond.unique (a := .worker) (b := .caller u) hw hu
    · rw [System.inCall_worker hcall, hcloses, hconn, hs.conn]
    · rw [System.inCall_worker hcall, hcloses, hjoin, hs.join]

theorem State.closes_le (state : State) : state.closes ≤ 1 := by
  cases state <;> decide

/-- Along a run, `Closed` is final, and `close` closes the connection and joins the worker
at most once. -/
def ClosedFinal (as : List Action) : Prop :=
  Transition.Along System.step (fun s a => s.shared.state = .closed →
    ∀ s', s.step a = some s' → s'.shared.state = .closed) {} as ∧
  Transition.Always System.step (fun s => s.shared.connCloses ≤ 1 ∧ s.shared.joins ≤ 1) {} as

/-- `Closed` is final in a run in which no call begins on a closed client. -/
theorem closed_final (as : List Action)
    (h : Transition.Along System.step System.CallsOpen {} as) : ClosedFinal as := by
  constructor
  · refine lifecycle_preserved.along (fun s a hs hopen hclosed s' hstep => ?_) lifecycle_init h
    obtain ⟨call, cond, hmoved⟩ := hs.moved hopen hstep
    rw [hclosed] at hmoved
    exact hmoved.of_closed
  · refine (lifecycle_preserved.always lifecycle_init h).imp fun s hs => ?_
    have := hs.conn
    have := hs.join
    have := s.shared.state.closes_le
    omega

/-- A call fails on a new client, which is closed then, twice. -/
theorem closed_final_failed :
    ClosedFinal (Action.alone 1 (.call .call) 7 ++ Action.alone 2 .close 13 ++
      Action.alone 3 .close 4) :=
  closed_final _ (by decide)

/-- A client is closed, a call fails on it, and it is closed again, as by its destructor. -/
def closeCallClose : List Action :=
  Action.alone 1 .close 7 ++ Action.alone 2 (.call .call) 7 ++ Action.alone 3 .close 13

/-- The call moves the state from `Closed` to `Failing`, and the connection is closed and the
worker joined a second time. -/
theorem call_reopens_closed :
    ¬ ClosedFinal closeCallClose ∧
    (Transition.run System.step {} (closeCallClose.take 8)).map (·.shared.state) = some .closed ∧
    (Transition.run System.step {} (closeCallClose.take 14)).map (·.shared.state) =
      some .failing ∧
    (Transition.run System.step {} closeCallClose).map (fun s =>
      (s.shared.connCloses, s.shared.joins)) = some (2, 2) := by
  have htwice : (Transition.run System.step {} closeCallClose).map (fun s =>
      (s.shared.connCloses, s.shared.joins)) = some (2, 2) := by decide
  refine ⟨fun h => ?_, by decide, by decide, htwice⟩
  obtain ⟨s, hs, hcounts⟩ := Option.map_eq_some_iff.mp htwice
  have hle := (h.2.last hs).1
  rw [(Prod.mk.inj hcounts).1] at hle
  exact absurd hle (by decide)

end SerialRpc.Client
