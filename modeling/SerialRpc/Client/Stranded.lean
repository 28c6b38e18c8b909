import SerialRpc.Client.System

/-!
# Calls that nobody answers any more (client.cc:75-187, 290-406)

A call waits for its `CallData` to be taken off the list, by the worker or by a call that
fails. The worker's error handler takes all of them off, but before it moves the state:
a call that has seen `Running` by then still puts its `CallData` on the list and sends
its request. And after a goodbye that `close` has asked for the worker returns without
looking at the list.

- `WorkerPc.drained`: the worker will not look at the list again.
- `Listed`: what is on the list then belongs to a call that is still about to flush, or to
  fail (`listed_preserved`).
- `none_stranded`: where no flush comes too late, and the worker does not turn away from
  calls that have been sent, the list is empty once the worker has returned.
-/

namespace SerialRpc.Client

/-- Points of a call behind the push, where it still may fail and take its `CallData` off
the list itself. -/
def CallerPc.listed : CallerPc → Bool
  | .body _ _ | .failPop | .failSetError _ | .failNotify _ | .failWake _ | .failNotified _ => true
  | _ => false

/-- Where a call flushes its request. -/
def CallerPc.flushes : CallerPc → Bool
  | .body 0 _ => true
  | _ => false

/-- Whether the worker looks at the list again behind a call of its error handler. -/
def Resume.drained : Resume → Bool
  | .again => false
  | .leave | .reply _ | .errorReply _ => true

/-- The points from which the worker returns without looking at the list. -/
def WorkerPc.drained : WorkerPc → Bool
  | .ending | .returned => true
  | .setError _ failed | .notify _ failed | .wake _ failed | .notified _ failed => failed
  | .handlerLoad k | .handlerSwap _ k | .handlerBroadcast k | .handlerWait k | .handlerParked k
  | .handlerClear k | .handlerUnlock k => k.drained
  | _ => false

/-- The worker turns away from the list without having emptied it: a goodbye on a closed
client, or a byte behind a line that was cut short. -/
def WorkerPc.leaves (state : State) (input : Input) : WorkerPc → Bool
  | .serverGoodbye => state = .closed
  | .read failed => failed && input ≠ .fails
  | _ => false

/-- No request is flushed that the worker has not taken off the list and will not look for,
and the worker does not turn away from a request that has been flushed. -/
def System.InTime (s : System) : Action → Prop
  | .invoke _ _ => True
  | .caller t io _ => (s.callers t).flushes = true → io = true → s.worker.drained = true →
      t ∉ s.shared.pending
  | .worker input _ _ => s.worker.leaves s.shared.state input = true →
      ∀ c ∈ s.shared.pending, (s.callers c).listed = true

instance (s : System) : ∀ a, Decidable (s.InTime a)
  | .invoke _ _ => inferInstanceAs (Decidable True)
  | .caller _ _ _ => inferInstanceAs (Decidable (_ → _ → _ → _))
  | .worker _ _ _ => inferInstanceAs (Decidable (_ → _))

section Points

variable {sh sh' : Shared} {io : Bool} {wake : Nat} {access : Access}

/-- A call adds at most itself to the list, and stays at a `listed` point until it flushes. -/
theorem CallerPc.next_listed {t : CallId} {pc pc' : CallerPc}
    (hnext : pc.next t sh io wake = some (access, pc'))
    (happly : access.apply (.caller t) sh = some sh') :
    (∀ c ∈ sh'.pending, c = t ∨ c ∈ sh.pending) ∧
    (t ∈ sh'.pending →
      (t ∈ sh.pending → pc.listed = true ∧ ¬ (pc.flushes = true ∧ io = true)) →
      pc'.listed = true) := by
  cases CallerPc.next_cases hnext with
  | push writes =>
    cases happly
    refine ⟨fun c hc => ?_, fun _ _ => rfl⟩
    rwa [List.mem_append, List.mem_singleton, or_comm] at hc
  | _ =>
    cases Access.apply_cases happly with
    | _ => simp_all [CallerPc.listed, CallerPc.flushes, Shared.withData]

/-- The worker comes to its last points with an empty list, or by turning away from it. -/
theorem WorkerPc.next_drained {input : Input} {pc pc' : WorkerPc}
    (hnext : pc.next sh input io wake = some (access, pc'))
    (happly : access.apply .worker sh = some sh') :
    (∀ c ∈ sh'.pending, c ∈ sh.pending) ∧
    (pc'.drained = true → pc.drained = true ∨ pc.leaves sh.state input = true ∨
      sh'.pending = []) := by
  cases WorkerPc.next_cases hnext with
  | _ =>
    cases Access.apply_cases happly with
    | _ => simp_all [WorkerPc.drained, Resume.drained, WorkerPc.leaves, Shared.withData]

/-- Only the worker makes its thread return, as its last access. -/
theorem CallerPc.next_worker {t : CallId} {pc pc' : CallerPc}
    (hnext : pc.next t sh io wake = some (access, pc'))
    (happly : access.apply (.caller t) sh = some sh') (h : sh'.worker = .returned) :
    sh.worker = .returned := by
  cases CallerPc.next_cases hnext with
  | startSpawn =>
    cases happly
    cases h
  | _ =>
    cases Access.apply_cases happly with
    | _ => exact h

theorem WorkerPc.next_worker {input : Input} {pc pc' : WorkerPc}
    (hnext : pc.next sh input io wake = some (access, pc'))
    (happly : access.apply .worker sh = some sh') (hrunning : sh.worker = .running)
    (h : sh'.worker = .returned) : pc' = .returned := by
  cases WorkerPc.next_cases hnext with
  | ending => rfl
  | _ =>
    cases Access.apply_cases happly with
    | _ => cases hrunning.symm.trans h

end Points

/-- What is still on the list when the worker will not look at it again. -/
structure Listed (s : System) : Prop where
  locked : Locked s
  returned : s.shared.worker = .returned → s.worker = .returned
  listed : s.worker.drained = true → ∀ c ∈ s.shared.pending, (s.callers c).listed = true

theorem listed_init : Listed {} where
  locked := locked_init
  returned := nofun
  listed := nofun

theorem listed_preserved : Transition.Preserves System.step System.InTime Listed := by
  intro s a s' hs htime hstep
  have hlocked : Locked s' := hs.locked.step hstep
  obtain ⟨t, op, -, hidle, rfl⟩ | ⟨t, io, wake, access, pc, shared, rfl, hnext, happly, rfl⟩ |
    ⟨input, io, wake, access, pc, shared, rfl, hrunning, hnext, happly, rfl⟩ :=
    System.step_cases hstep
  · refine ⟨hlocked, hs.returned, fun hdrained c hc => ?_⟩
    have hlisted := hs.listed hdrained c hc
    have hne : c ≠ t := by
      rintro rfl
      rw [hidle] at hlisted
      exact nomatch hlisted
    rwa [System.callerAt_of_ne s _ _ hne]
  · obtain ⟨hpending, hown⟩ := CallerPc.next_listed hnext happly
    refine ⟨hlocked, fun h => hs.returned (CallerPc.next_worker hnext happly h),
      fun hdrained c hc => ?_⟩
    by_cases heq : c = t
    · subst heq
      rw [System.callerAt_self]
      -- A flush that fails now, with the call on the list, would come too late.
      exact hown hc fun hbefore =>
        ⟨hs.listed hdrained c hbefore, fun h => htime h.1 h.2 hdrained hbefore⟩
    · rw [System.callerAt_of_ne s shared pc heq]
      exact hs.listed hdrained c ((hpending c hc).resolve_left heq)
  · obtain ⟨hpending, hdrain⟩ := WorkerPc.next_drained hnext happly
    refine ⟨hlocked, WorkerPc.next_worker hnext happly hrunning, fun hdrained c hc => ?_⟩
    -- The list had been drained before, or the worker drains it now.
    rcases hdrain hdrained with h | h | h
    · exact hs.listed h c (hpending c hc)
    · exact htime h c (hpending c hc)
    · rw [h] at hc
      exact nomatch hc

/-- No call is left on the list for ever: once the worker has returned and no call is in its
`call_mtx` section, the list is empty. -/
def NoneStranded (as : List Action) : Prop :=
  Transition.Always System.step (fun s => s.shared.worker = .returned → s.shared.callMtx = none →
    s.shared.pending = []) {} as

theorem CallerPc.listed_holdsCall {pc : CallerPc} (h : pc.listed = true) : pc.holdsCall = true := by
  cases pc <;> first | rfl | exact nomatch h

theorem none_stranded (as : List Action)
    (h : Transition.Along System.step System.InTime {} as) : NoneStranded as := by
  refine (listed_preserved.always listed_init h).imp fun s hs hreturned hfree => ?_
  rw [List.eq_nil_iff_forall_not_mem]
  intro c hc
  have hdrained : s.worker.drained = true := by rw [hs.returned hreturned]; rfl
  have hholds := CallerPc.listed_holdsCall (hs.listed hdrained c hc)
  have hcall := hs.locked.call
  rw [hfree] at hcall
  exact nomatch (hcall.of_free (.caller c)).symm.trans hholds

/-- A call that is answered, and a `close` that the server answers with its goodbye. -/
theorem none_stranded_answered :
    NoneStranded (Action.started ++ Action.alone 1 (.call .callVoidNoRequest) 6 ++
      Action.work .reply 6 ++ Action.alone 2 .close 5 ++ Action.work .serverGoodbye 3 ++
      Action.goOn 2 3) :=
  none_stranded _ (by decide)

/-- A call has seen `Running` when reading fails and the error handler empties the list. It
is flushed nevertheless, and the worker returns when the error has been acknowledged. -/
def callInTheGap : List Action :=
  Action.started ++ Action.alone 1 (.call .callVoidNoRequest) 2 ++ Action.work .fails 8 ++
    Action.goOn 1 4 ++ Action.alone 2 .wait 7 ++ Action.work .fails 5

/-- The server says goodbye to a `close` without having answered a call. -/
def goodbyeFirst : List Action :=
  Action.started ++ Action.alone 1 (.call .callVoidNoRequest) 6 ++ Action.alone 2 .close 5 ++
    Action.work .serverGoodbye 3 ++ Action.goOn 2 3

/-- The call waits on the list, and the worker has returned. -/
theorem call_stranded :
    ¬ NoneStranded callInTheGap ∧ ¬ NoneStranded goodbyeFirst ∧
    (∀ as ∈ [callInTheGap, goodbyeFirst],
      (Transition.run System.step {} as).map (fun s =>
        (s.shared.worker, s.shared.callMtx, s.shared.pending, s.callers 1)) =
      some (.returned, none, [1], .await)) := by
  have hrun : ∀ as ∈ [callInTheGap, goodbyeFirst],
      (Transition.run System.step {} as).map (fun s =>
        (s.shared.worker, s.shared.callMtx, s.shared.pending, s.callers 1)) =
      some (.returned, none, [1], .await) := by decide
  have hnot : ∀ as ∈ [callInTheGap, goodbyeFirst], ¬ NoneStranded as := by
    intro as has h
    obtain ⟨s, hs, heq⟩ := Option.map_eq_some_iff.mp (hrun as has)
    have hlast := h.last hs
    simp only [Prod.mk.injEq] at heq
    obtain ⟨hworker, hfree, hpending, -⟩ := heq
    exact absurd (hlast hworker hfree) (by simp [hpending])
  exact ⟨hnot _ (by simp), hnot _ (by simp), hrun⟩

end SerialRpc.Client
