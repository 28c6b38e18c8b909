import SerialRpc.Client.System

/-!
# The error behind `Failing` (client.cc:56-73, 163-210, 229-317)

`wait` and `start` take the error from `this->err` when they find the state `Failing`.
The worker's error handler sets the pointer before it moves the state to `Failing`, and
clears it when the state is `Closed` or `Failed`, all under `cond_mutex`. `fail` moves
the state to `Failing` too, under `call_mtx`, and sets no error.

- `WorkerPc.reporting`: the error handler has set the pointer, and does not go to clear it.
- `Carrying`: `Failing` is a state that the error handler stands behind
  (`carrying_preserved`).
- `failing_carries`: so it is in every run in which `fail` moves the state to `Failing`
  only while the error handler reports an error.
-/

namespace SerialRpc.Client

/-- Where `*this->err` is read next. -/
def CallerPc.derefs : CallerPc → Bool
  | .waitDeref | .startDeref => true
  | _ => false

/-- The error handler has set `this->err`, and does not go to clear it. -/
def WorkerPc.reporting : WorkerPc → Bool
  | .handlerPop _ | .handlerSetError _ _ | .handlerNotify _ _ | .handlerWake _ _
  | .handlerNotified _ _ | .handlerLoad _ | .handlerSwap _ _ | .handlerBroadcast _
  | .handlerWait _ | .handlerParked _ => true
  | _ => false

/-- Where `fail` swaps the state, from the state it has seen. -/
def CallerPc.failsFrom : CallerPc → Option State
  | .failSwap old => some old
  | _ => none

/-- `fail` moves the state to `Failing` only while the error handler reports an error. -/
def System.FailsReported (s : System) : Action → Prop
  | .caller t _ _ => (s.callers t).failsFrom = some s.shared.state → s.worker.reporting = true
  | .invoke _ _ | .worker _ _ _ => True

instance (s : System) : ∀ a, Decidable (s.FailsReported a)
  | .caller _ _ _ => inferInstanceAs (Decidable (_ → _))
  | .invoke _ _ | .worker _ _ _ => inferInstanceAs (Decidable True)

section Points

variable {sh sh' : Shared} {io : Bool} {wake : Nat} {access : Access}

/-- A thread of the program comes to `Failing` by `fail` alone, leaves the pointer as it is,
and looks at it when it has seen `Failing`. -/
theorem CallerPc.next_failing {t : CallId} {pc pc' : CallerPc}
    (hnext : pc.next t sh io wake = some (access, pc'))
    (happly : access.apply (.caller t) sh = some sh') :
    sh'.err = sh.err ∧
    (sh'.state = .failing → sh.state = .failing ∨ pc.failsFrom = some sh.state) ∧
    (pc'.derefs = true → sh.state = .failing) := by
  cases CallerPc.next_cases hnext with
  | _ =>
    cases Access.apply_cases happly with
    | _ => simp_all [CallerPc.failsFrom, CallerPc.derefs, Shared.withData]

/-- The error handler keeps the pointer set as long as the state is `Failing`, and clears it
under `cond_mutex`. -/
theorem WorkerPc.next_failing {input : Input} {pc pc' : WorkerPc}
    (hnext : pc.next sh input io wake = some (access, pc'))
    (happly : access.apply .worker sh = some sh') :
    (sh'.state = .failing → (sh.state = .failing → pc.reporting = true) → pc'.reporting = true) ∧
    (pc'.reporting = true → (pc.reporting = true → sh.err = true) → sh'.err = true) ∧
    (sh.err = true → sh'.err = true ∨ pc.holdsCond = true) := by
  cases WorkerPc.next_cases hnext with
  | handlerOver k hstate =>
    cases happly
    refine ⟨fun h => ?_, fun h hset => hset rfl, .inl⟩
    rcases hstate with hstate | hstate <;> cases hstate.symm.trans h
  | _ =>
    cases Access.apply_cases happly with
    | _ => simp_all [WorkerPc.reporting, WorkerPc.holdsCond, Shared.withData]

theorem CallerPc.derefs_holdsCond {pc : CallerPc} (h : pc.derefs = true) :
    pc.holdsCond = true := by
  cases pc <;> first | rfl | exact nomatch h

end Points

/-- Where the state is `Failing`, the error handler reports an error, and the pointer is set. -/
structure Carrying (s : System) : Prop where
  locked : Locked s
  failing : s.shared.state = .failing → s.worker.reporting = true
  err : s.worker.reporting = true → s.shared.err = true
  derefs : ∀ t, (s.callers t).derefs = true → s.shared.err = true

theorem carrying_init : Carrying {} where
  locked := locked_init
  failing := nofun
  err := nofun
  derefs _ := nofun

/-- Every turn keeps an error behind `Failing`, if `fail` keeps to the error handler. -/
theorem carrying_preserved : Transition.Preserves System.step System.FailsReported Carrying := by
  intro s a s' hs hreported hstep
  have hlocked : Locked s' := hs.locked.step hstep
  obtain ⟨t, op, -, hidle, rfl⟩ | ⟨t, io, wake, access, pc, shared, rfl, hnext, happly, rfl⟩ |
    ⟨input, io, wake, access, pc, shared, -, -, hnext, happly, rfl⟩ := System.step_cases hstep
  · refine ⟨hlocked, hs.failing, hs.err, fun u hu => ?_⟩
    by_cases heq : u = t
    · rw [heq, System.callerAt_self] at hu
      cases op <;> exact nomatch hu
    · rw [System.callerAt_of_ne s _ _ heq] at hu
      exact hs.derefs u hu
  · obtain ⟨herr, hfailing, hderefs⟩ := CallerPc.next_failing hnext happly
    refine ⟨hlocked, fun h => (hfailing h).elim hs.failing hreported, ?_, fun u hu => ?_⟩
    · show s.worker.reporting = true → shared.err = true
      rw [herr]
      exact hs.err
    · show shared.err = true
      rw [herr]
      by_cases heq : u = t
      · rw [heq, System.callerAt_self] at hu
        exact hs.err (hs.failing (hderefs hu))
      · rw [System.callerAt_of_ne s shared pc heq] at hu
        exact hs.derefs u hu
  · obtain ⟨hfailing, herr, hkeeps⟩ := WorkerPc.next_failing hnext happly
    refine ⟨hlocked, fun h => hfailing h hs.failing, fun h => herr h hs.err, fun u hu => ?_⟩
    -- A thread that reads the pointer holds `cond_mutex`, so the handler does not clear it.
    refine (hkeeps (hs.derefs u hu)).resolve_right fun hholds => ?_
    exact nomatch hs.locked.cond.unique (a := .worker) (b := .caller u) hholds
      (CallerPc.derefs_holdsCond hu)

/-- Along a run, `this->err` is set wherever it is read. -/
def FailingCarries (as : List Action) : Prop :=
  Transition.Always System.step
    (fun s => ∀ t, (s.callers t).derefs = true → s.shared.err = true) {} as

/-- `wait` and `start` find an error behind `Failing`, where `fail` moves the state there only
while the error handler reports one. -/
theorem failing_carries (as : List Action)
    (h : Transition.Along System.step System.FailsReported {} as) : FailingCarries as :=
  (carrying_preserved.always carrying_init h).imp fun _ hs => hs.derefs

/-- Reading fails, a call fails on the way, and `wait` takes the error. -/
theorem failing_carries_wait :
    FailingCarries (Action.started ++ Action.alone 1 (.call .callVoid) 2 ++ Action.work .fails 6 ++
      [.caller 1 false 0] ++ Action.goOn 1 3 ++ Action.work .fails 2 ++ Action.goOn 1 3 ++
      Action.alone 2 .wait 7 ++ Action.work .fails 5) :=
  failing_carries _ (by decide)

/-- A call fails on a new client; then `wait` is called, or `start`. -/
def failThenWait : List Action := Action.alone 1 (.call .call) 7 ++ Action.alone 2 .wait 3

def failThenStart : List Action := Action.alone 1 (.call .call) 7 ++ Action.alone 2 .start 4

/-- Both have seen `Failing` and are about to read an error that is not there. -/
theorem failing_without_error :
    ¬ FailingCarries failThenWait ∧ ¬ FailingCarries failThenStart ∧
    ∀ as ∈ [failThenWait, failThenStart],
      (Transition.run System.step {} as).map (fun s =>
        (s.shared.state, s.shared.err, (s.callers 2).derefs)) = some (.failing, false, true) := by
  have hrun : ∀ as ∈ [failThenWait, failThenStart],
      (Transition.run System.step {} as).map (fun s =>
        (s.shared.state, s.shared.err, (s.callers 2).derefs)) = some (.failing, false, true) := by
    decide
  have hnot : ∀ as ∈ [failThenWait, failThenStart], ¬ FailingCarries as := by
    intro as has h
    obtain ⟨s, hs, heq⟩ := Option.map_eq_some_iff.mp (hrun as has)
    simp only [Prod.mk.injEq] at heq
    obtain ⟨-, herr, hderefs⟩ := heq
    have hset := h.last hs 2 hderefs
    rw [herr] at hset
    exact nomatch hset
  exact ⟨hnot _ (by simp), hnot _ (by simp), hrun⟩

end SerialRpc.Client
