import SerialRpc.Client.Shared

/-!
# The client's functions as programs (client.cc, client.h:111-334)

Each function is a list of points with the access that is made at each and the point
behind it. What the server sends, whether a read or write of the connection succeeds,
and whom a signal wakes is up to the environment.

- `CallerPc`, `CallerPc.next`: the functions that the program's threads call: `call` and
  its relatives, `close`, `wait`, `start`. `CallerPc.Step` tells the ways on from each
  point, one by one (`CallerPc.next_cases`).
- `WorkerPc`, `WorkerPc.next`: `input`, with its error handler. The handler is called in
  the middle of other functions; `Resume` is what is left to do behind it. The ways on
  from its points are `WorkerPc.Step` (`WorkerPc.next_cases`).
-/

namespace SerialRpc.Client

/-! ## The program's threads -/

/-- The functions that send a request differ in how many writes stand between the id and
the flush, and in whether the reply has a body that is read. -/
structure CallShape where
  writes : Nat
  unmarshal : Bool
deriving DecidableEq, Repr

/-- `call` and `call_raw` with a request. -/
def CallShape.call : CallShape := ⟨1, true⟩

/-- `call` and `call_raw` without one. -/
def CallShape.callNoRequest : CallShape := ⟨0, true⟩

/-- `call_void` with a request. -/
def CallShape.callVoid : CallShape := ⟨1, false⟩

/-- `call_void` without one. -/
def CallShape.callVoidNoRequest : CallShape := ⟨0, false⟩

/-- `subscribe` with a request. -/
def CallShape.subscribe : CallShape := ⟨2, false⟩

/-- `subscribe` without one, and `unsubscribe`. -/
def CallShape.unsubscribe : CallShape := ⟨1, false⟩

/-- The functions of `Client` that threads call. The destructor is a `close`. -/
inductive Op where
  | call (shape : CallShape)
  | close
  | wait
  | start
deriving DecidableEq, Repr

/-- Where a thread is. -/
inductive CallerPc where
  | idle
  /-- The function has returned, with or without an error. -/
  | returned (ok : Bool)
  -- `call` and its relatives (client.h:111-334)
  | callLock (writes : Nat)
  -- `check_running` (client.cc:148-187)
  | checkLoad (writes : Nat)
  | checkLock (writes : Nat)
  | checkReload (writes : Nat)
  | checkUnlock (writes : Nat) (again : Bool)
  -- `start_request` (client.cc:123-146)
  | writeId (writes : Nat)
  | push (writes : Nat)
  -- The writes and the flush; `sent` once one has been tried.
  | body (writes : Nat) (sent : Bool)
  | callUnlock
  | await
  -- `fail` (client.cc:194-210)
  | failPop
  | failSetError (c : CallId)
  | failNotify (c : CallId)
  | failWake (c : CallId)
  | failNotified (c : CallId)
  | failLoad
  | failSwap (old : State)
  | failClose
  | failUnlock
  -- `close` (client.cc:75-121)
  | closeLock
  | closeLoad
  | closeSwitch (old : State)
  | closeAckLock
  | closeAckStore
  | closeAckSignal
  | closeAckUnlock
  | closeSwap (old : State)
  | closeGoodbye
  | closeJoin (connLeft : Bool)
  | closeConn (joinLeft : Bool)
  | closeUnlock
  -- `wait` (client.cc:56-73)
  | waitLock
  | waitLoad
  | waitParked
  | waitCheck
  | waitDeref
  | waitStore
  | waitSignal
  | waitUnlock (ok : Bool)
  -- `start` and `start_unlocked` (client.cc:47-54, 229-288)
  | startLock
  | startLoad
  | startSwap
  | startSpawn
  | startCondLock (again : Bool)
  | startCondLoad (again : Bool)
  | startParked (again : Bool)
  | startCheck
  | startFailLock
  | startFailLoad
  | startDeref
  | startStore
  | startSignal
  | startCondUnlock (again ok : Bool)
  | startUnlock (ok : Bool)
deriving DecidableEq, Repr

/-- The point a function begins at. -/
def Op.entry : Op → CallerPc
  | .call shape => .callLock shape.writes
  | .close => .closeLock
  | .wait => .waitLock
  | .start => .startLock

/-- The access a thread makes next, and where it is then. -/
def CallerPc.next (t : CallId) (sh : Shared) (io : Bool) (wake : Nat) :
    CallerPc → Option (Access × CallerPc)
  | .idle => none
  | .returned _ => none
  | .callLock writes => some (.lockCall, .checkLoad writes)
  | .checkLoad writes =>
    match sh.state with
    | .running => some (.other, .writeId writes)
    | .new | .starting | .closed | .failed => some (.other, .failPop)
    | .failing => some (.other, .checkLock writes)
  | .checkLock writes => some (.lockCond, .checkReload writes)
  | .checkReload writes => some (.other, .checkUnlock writes (sh.state ≠ .failing))
  | .checkUnlock writes again =>
    some (.unlockCond, if again then .checkLoad writes else .failPop)
  | .writeId writes => some (.other, if io then .push writes else .failPop)
  | .push writes => some (.push t, .body writes false)
  | .body writes sent =>
    some (if sent then .other else .send t,
      if ¬ io then .failPop else if writes = 0 then .callUnlock else .body (writes - 1) true)
  | .callUnlock => some (.unlockCall, .await)
  | .await =>
    if (sh.data t).waiter = .notified then some (.other, .returned !(sh.data t).hasError) else none
  | .failPop =>
    match sh.pending with
    | [] => some (.other, .failLoad)
    | c :: _ => some (.pop .fail, .failSetError c)
  | .failSetError c => some (.setError c, .failNotify c)
  | .failNotify c => some (.notify c .notifying, .failWake c)
  | .failWake c => some (.other, .failNotified c)
  | .failNotified c => some (.notify c .notified, .failPop)
  | .failLoad =>
    some (.other,
      if sh.state = .failing ∨ sh.state = .failed then .failUnlock else .failSwap sh.state)
  | .failSwap old =>
    some (if sh.state = old then (.setState .failing, .failClose) else (.other, .failLoad))
  | .failClose => some (.other, .failUnlock)
  | .failUnlock => some (.unlockCall, .returned false)
  | .closeLock => some (.lockCall, .closeLoad)
  | .closeLoad => some (.other, .closeSwitch sh.state)
  | .closeSwitch old =>
    some (.other,
      if old = .closed then .closeUnlock
      else if old = .failing then .closeAckLock
      else .closeSwap old)
  | .closeAckLock => some (.lockCond, .closeAckStore)
  | .closeAckStore => some (.setState .failed, .closeAckSignal)
  | .closeAckSignal => some (.signal wake, .closeAckUnlock)
  | .closeAckUnlock => some (.unlockCond, .closeSwap .failing)
  | .closeSwap old =>
    some (if sh.state = old then
      (.setState .closed, if old = .running then .closeGoodbye else .closeConn true)
    else (.other, .closeSwitch sh.state))
  | .closeGoodbye => some (.other, .closeJoin true)
  | .closeJoin connLeft => some (.join, if connLeft then .closeConn false else .closeUnlock)
  | .closeConn joinLeft => some (.closeConn, if joinLeft then .closeJoin false else .closeUnlock)
  | .closeUnlock => some (.unlockCall, .returned true)
  | .waitLock => some (.lockCond, .waitLoad)
  | .waitLoad =>
    some (if sh.state = .closed ∨ sh.state = .failing ∨ sh.state = .failed then (.other, .waitCheck)
    else (.wait, .waitParked))
  | .waitParked => some (.lockCond, .waitLoad)
  | .waitCheck => some (.other, if sh.state = .failing then .waitDeref else .waitUnlock true)
  -- `err(*this->err)`.
  | .waitDeref => some (.other, .waitStore)
  | .waitStore => some (.setState .failed, .waitSignal)
  | .waitSignal => some (.signal wake, .waitUnlock false)
  | .waitUnlock ok => some (.unlockCond, .returned ok)
  | .startLock => some (.lockCall, .startLoad)
  | .startLoad =>
    match sh.state with
    | .new => some (.other, .startSwap)
    | .starting => some (.other, .startCondLock true)
    | .running => some (.other, .startUnlock true)
    | .failing => some (.other, .startFailLock)
    | .closed | .failed => some (.other, .startUnlock false)
  | .startSwap =>
    some (if sh.state = .new then (.setState .starting, .startSpawn) else (.other, .startLoad))
  | .startSpawn => some (.spawn, .startCondLock false)
  | .startCondLock again => some (.lockCond, .startCondLoad again)
  | .startCondLoad again =>
    some (if sh.state = .starting then (.wait, .startParked again)
    else (.other, if again then .startCondUnlock true true else .startCheck))
  | .startParked again => some (.lockCond, .startCondLoad again)
  | .startCheck =>
    some (.other, if sh.state = .failing then .startDeref else .startCondUnlock false true)
  | .startFailLock => some (.lockCond, .startFailLoad)
  | .startFailLoad =>
    some (.other, if sh.state ≠ .failing then .startCondUnlock true true else .startDeref)
  | .startDeref => some (.other, .startStore)
  | .startStore => some (.setState .failed, .startSignal)
  | .startSignal => some (.signal wake, .startCondUnlock false false)
  | .startCondUnlock again ok =>
    some (.unlockCond, if again then .startLoad else .startUnlock ok)
  | .startUnlock ok => some (.unlockCall, .returned ok)

/-- The ways on from a thread's points, with what each depends on. -/
inductive CallerPc.Step (t : CallId) (sh : Shared) (io : Bool) (wake : Nat) :
    CallerPc → Access → CallerPc → Prop where
  | callLock (writes : Nat) : Step t sh io wake (.callLock writes) .lockCall (.checkLoad writes)
  | checkRunning (writes : Nat) (hstate : sh.state = .running) :
      Step t sh io wake (.checkLoad writes) .other (.writeId writes)
  | checkFailing (writes : Nat) (hstate : sh.state = .failing) :
      Step t sh io wake (.checkLoad writes) .other (.checkLock writes)
  | checkOver (writes : Nat) (hrunning : sh.state ≠ .running) (hfailing : sh.state ≠ .failing) :
      Step t sh io wake (.checkLoad writes) .other .failPop
  | checkLock (writes : Nat) : Step t sh io wake (.checkLock writes) .lockCond (.checkReload writes)
  | checkReload (writes : Nat) :
      Step t sh io wake (.checkReload writes) .other (.checkUnlock writes (sh.state ≠ .failing))
  | checkAgain (writes : Nat) :
      Step t sh io wake (.checkUnlock writes true) .unlockCond (.checkLoad writes)
  | checkFails (writes : Nat) : Step t sh io wake (.checkUnlock writes false) .unlockCond .failPop
  | writeId (writes : Nat) (hio : io = true) :
      Step t sh io wake (.writeId writes) .other (.push writes)
  | writeIdFails (writes : Nat) (hio : io = false) :
      Step t sh io wake (.writeId writes) .other .failPop
  | push (writes : Nat) : Step t sh io wake (.push writes) (.push t) (.body writes false)
  | firstWrite (writes : Nat) (hio : io = true) :
      Step t sh io wake (.body (writes + 1) false) (.send t) (.body writes true)
  | firstFlush (hio : io = true) : Step t sh io wake (.body 0 false) (.send t) .callUnlock
  | firstFails (writes : Nat) (hio : io = false) :
      Step t sh io wake (.body writes false) (.send t) .failPop
  | nextWrite (writes : Nat) (hio : io = true) :
      Step t sh io wake (.body (writes + 1) true) .other (.body writes true)
  | nextFlush (hio : io = true) : Step t sh io wake (.body 0 true) .other .callUnlock
  | nextFails (writes : Nat) (hio : io = false) :
      Step t sh io wake (.body writes true) .other .failPop
  | callUnlock : Step t sh io wake .callUnlock .unlockCall .await
  | await (hwaiter : (sh.data t).waiter = .notified) :
      Step t sh io wake .await .other (.returned !(sh.data t).hasError)
  | failPopNone (hpending : sh.pending = []) : Step t sh io wake .failPop .other .failLoad
  | failPop (c : CallId) (pending : List CallId) (hpending : sh.pending = c :: pending) :
      Step t sh io wake .failPop (.pop .fail) (.failSetError c)
  | failSetError (c : CallId) : Step t sh io wake (.failSetError c) (.setError c) (.failNotify c)
  | failNotify (c : CallId) :
      Step t sh io wake (.failNotify c) (.notify c .notifying) (.failWake c)
  | failWake (c : CallId) : Step t sh io wake (.failWake c) .other (.failNotified c)
  | failNotified (c : CallId) :
      Step t sh io wake (.failNotified c) (.notify c .notified) .failPop
  | failLoadOver (hstate : sh.state = .failing ∨ sh.state = .failed) :
      Step t sh io wake .failLoad .other .failUnlock
  | failLoad (hfailing : sh.state ≠ .failing) (hfailed : sh.state ≠ .failed) :
      Step t sh io wake .failLoad .other (.failSwap sh.state)
  | failSwap (old : State) (hstate : sh.state = old) :
      Step t sh io wake (.failSwap old) (.setState .failing) .failClose
  | failSwapFails (old : State) (hstate : sh.state ≠ old) :
      Step t sh io wake (.failSwap old) .other .failLoad
  | failClose : Step t sh io wake .failClose .other .failUnlock
  | failUnlock : Step t sh io wake .failUnlock .unlockCall (.returned false)
  | closeLock : Step t sh io wake .closeLock .lockCall .closeLoad
  | closeLoad : Step t sh io wake .closeLoad .other (.closeSwitch sh.state)
  | closeClosed : Step t sh io wake (.closeSwitch .closed) .other .closeUnlock
  | closeFailing : Step t sh io wake (.closeSwitch .failing) .other .closeAckLock
  | closeOpen (old : State) (hclosed : old ≠ .closed) (hfailing : old ≠ .failing) :
      Step t sh io wake (.closeSwitch old) .other (.closeSwap old)
  | closeAckLock : Step t sh io wake .closeAckLock .lockCond .closeAckStore
  | closeAckStore : Step t sh io wake .closeAckStore (.setState .failed) .closeAckSignal
  | closeAckSignal : Step t sh io wake .closeAckSignal (.signal wake) .closeAckUnlock
  | closeAckUnlock : Step t sh io wake .closeAckUnlock .unlockCond (.closeSwap .failing)
  | closeRunning (hstate : sh.state = .running) :
      Step t sh io wake (.closeSwap .running) (.setState .closed) .closeGoodbye
  | closeSwap (old : State) (hstate : sh.state = old) (hrunning : old ≠ .running) :
      Step t sh io wake (.closeSwap old) (.setState .closed) (.closeConn true)
  | closeSwapFails (old : State) (hstate : sh.state ≠ old) :
      Step t sh io wake (.closeSwap old) .other (.closeSwitch sh.state)
  | closeGoodbye : Step t sh io wake .closeGoodbye .other (.closeJoin true)
  | closeJoin : Step t sh io wake (.closeJoin true) .join (.closeConn false)
  | closeJoinLast : Step t sh io wake (.closeJoin false) .join .closeUnlock
  | closeConn : Step t sh io wake (.closeConn true) .closeConn (.closeJoin false)
  | closeConnLast : Step t sh io wake (.closeConn false) .closeConn .closeUnlock
  | closeUnlock : Step t sh io wake .closeUnlock .unlockCall (.returned true)
  | waitLock : Step t sh io wake .waitLock .lockCond .waitLoad
  | waitOver (hstate : sh.state = .closed ∨ sh.state = .failing ∨ sh.state = .failed) :
      Step t sh io wake .waitLoad .other .waitCheck
  | waitLoad (hclosed : sh.state ≠ .closed) (hfailing : sh.state ≠ .failing)
      (hfailed : sh.state ≠ .failed) : Step t sh io wake .waitLoad .wait .waitParked
  | waitParked : Step t sh io wake .waitParked .lockCond .waitLoad
  | waitFailing (hstate : sh.state = .failing) : Step t sh io wake .waitCheck .other .waitDeref
  | waitCheck (hstate : sh.state ≠ .failing) :
      Step t sh io wake .waitCheck .other (.waitUnlock true)
  | waitDeref : Step t sh io wake .waitDeref .other .waitStore
  | waitStore : Step t sh io wake .waitStore (.setState .failed) .waitSignal
  | waitSignal : Step t sh io wake .waitSignal (.signal wake) (.waitUnlock false)
  | waitUnlock (ok : Bool) : Step t sh io wake (.waitUnlock ok) .unlockCond (.returned ok)
  | startLock : Step t sh io wake .startLock .lockCall .startLoad
  | startNew (hstate : sh.state = .new) : Step t sh io wake .startLoad .other .startSwap
  | startStarting (hstate : sh.state = .starting) :
      Step t sh io wake .startLoad .other (.startCondLock true)
  | startRunning (hstate : sh.state = .running) :
      Step t sh io wake .startLoad .other (.startUnlock true)
  | startFailing (hstate : sh.state = .failing) : Step t sh io wake .startLoad .other .startFailLock
  | startOver (hstate : sh.state = .closed ∨ sh.state = .failed) :
      Step t sh io wake .startLoad .other (.startUnlock false)
  | startSwap (hstate : sh.state = .new) :
      Step t sh io wake .startSwap (.setState .starting) .startSpawn
  | startSwapFails (hstate : sh.state ≠ .new) : Step t sh io wake .startSwap .other .startLoad
  | startSpawn : Step t sh io wake .startSpawn .spawn (.startCondLock false)
  | startCondLock (again : Bool) :
      Step t sh io wake (.startCondLock again) .lockCond (.startCondLoad again)
  | startCondLoad (again : Bool) (hstate : sh.state = .starting) :
      Step t sh io wake (.startCondLoad again) .wait (.startParked again)
  | startCondAgain (hstate : sh.state ≠ .starting) :
      Step t sh io wake (.startCondLoad true) .other (.startCondUnlock true true)
  | startCondOver (hstate : sh.state ≠ .starting) :
      Step t sh io wake (.startCondLoad false) .other .startCheck
  | startParked (again : Bool) :
      Step t sh io wake (.startParked again) .lockCond (.startCondLoad again)
  | startCheckFailing (hstate : sh.state = .failing) :
      Step t sh io wake .startCheck .other .startDeref
  | startCheck (hstate : sh.state ≠ .failing) :
      Step t sh io wake .startCheck .other (.startCondUnlock false true)
  | startFailLock : Step t sh io wake .startFailLock .lockCond .startFailLoad
  | startFailLoad (hstate : sh.state = .failing) :
      Step t sh io wake .startFailLoad .other .startDeref
  | startFailAgain (hstate : sh.state ≠ .failing) :
      Step t sh io wake .startFailLoad .other (.startCondUnlock true true)
  | startDeref : Step t sh io wake .startDeref .other .startStore
  | startStore : Step t sh io wake .startStore (.setState .failed) .startSignal
  | startSignal : Step t sh io wake .startSignal (.signal wake) (.startCondUnlock false false)
  | startCondUnlockAgain (ok : Bool) :
      Step t sh io wake (.startCondUnlock true ok) .unlockCond .startLoad
  | startCondUnlock (ok : Bool) :
      Step t sh io wake (.startCondUnlock false ok) .unlockCond (.startUnlock ok)
  | startUnlock (ok : Bool) : Step t sh io wake (.startUnlock ok) .unlockCall (.returned ok)

theorem CallerPc.next_cases {t : CallId} {sh : Shared} {io : Bool} {wake : Nat}
    {pc pc' : CallerPc} {access : Access} (h : pc.next t sh io wake = some (access, pc')) :
    pc.Step t sh io wake access pc' := by
  cases pc with
  | checkLoad writes =>
    cases hstate : sh.state with
    | running =>
      rw [next, hstate] at h
      cases h
      exact .checkRunning writes hstate
    | failing =>
      rw [next, hstate] at h
      cases h
      exact .checkFailing writes hstate
    | _ =>
      rw [next, hstate] at h
      cases h
      exact .checkOver writes (by rw [hstate]; exact nofun) (by rw [hstate]; exact nofun)
  | checkUnlock writes again =>
    cases again <;> cases h
    · exact .checkFails writes
    · exact .checkAgain writes
  | writeId writes =>
    cases io <;> cases h
    · exact .writeIdFails writes rfl
    · exact .writeId writes rfl
  | body writes sent =>
    cases io with
    | false =>
      cases sent <;> cases h
      · exact .firstFails writes rfl
      · exact .nextFails writes rfl
    | true =>
      cases sent <;> cases writes <;> cases h
      · exact .firstFlush rfl
      · exact .firstWrite _ rfl
      · exact .nextFlush rfl
      · exact .nextWrite _ rfl
  | await =>
    rw [next, Option.ite_none_right_eq_some] at h
    obtain ⟨hwaiter, h⟩ := h
    cases h
    exact .await hwaiter
  | failPop =>
    cases hpending : sh.pending <;> rw [next, hpending] at h <;> cases h
    · exact .failPopNone hpending
    · exact .failPop _ _ hpending
  | failLoad =>
    cases h
    split
    · exact .failLoadOver ‹_›
    · rename_i hstate
      exact .failLoad (fun h => hstate (.inl h)) fun h => hstate (.inr h)
  | failSwap old =>
    by_cases hstate : sh.state = old
    · rw [next, if_pos hstate] at h
      cases h
      exact .failSwap old hstate
    · rw [next, if_neg hstate] at h
      cases h
      exact .failSwapFails old hstate
  | closeSwitch old =>
    cases old with
    | closed => cases h; exact .closeClosed
    | failing => cases h; exact .closeFailing
    | _ => cases h; exact .closeOpen _ nofun nofun
  | closeSwap old =>
    by_cases hstate : sh.state = old
    · rw [next, if_pos hstate] at h
      by_cases hrunning : old = .running
      · subst hrunning
        cases h
        exact .closeRunning hstate
      · rw [if_neg hrunning] at h
        cases h
        exact .closeSwap old hstate hrunning
    · rw [next, if_neg hstate] at h
      cases h
      exact .closeSwapFails old hstate
  | closeJoin connLeft =>
    cases connLeft <;> cases h
    · exact .closeJoinLast
    · exact .closeJoin
  | closeConn joinLeft =>
    cases joinLeft <;> cases h
    · exact .closeConnLast
    · exact .closeConn
  | waitLoad =>
    by_cases hstate : sh.state = .closed ∨ sh.state = .failing ∨ sh.state = .failed
    · rw [next, if_pos hstate] at h
      cases h
      exact .waitOver hstate
    · rw [next, if_neg hstate] at h
      cases h
      obtain ⟨hclosed, hfailing, hfailed⟩ := by simpa only [not_or] using hstate
      exact .waitLoad hclosed hfailing hfailed
  | waitCheck =>
    cases h
    split
    · exact .waitFailing ‹_›
    · exact .waitCheck ‹_›
  | startLoad =>
    cases hstate : sh.state <;> rw [next, hstate] at h <;> cases h
    · exact .startNew hstate
    · exact .startStarting hstate
    · exact .startRunning hstate
    · exact .startOver (.inl hstate)
    · exact .startFailing hstate
    · exact .startOver (.inr hstate)
  | startSwap =>
    by_cases hstate : sh.state = .new
    · rw [next, if_pos hstate] at h
      cases h
      exact .startSwap hstate
    · rw [next, if_neg hstate] at h
      cases h
      exact .startSwapFails hstate
  | startCondLoad again =>
    by_cases hstate : sh.state = .starting
    · rw [next, if_pos hstate] at h
      cases h
      exact .startCondLoad again hstate
    · rw [next, if_neg hstate] at h
      cases again <;> cases h
      · exact .startCondOver hstate
      · exact .startCondAgain hstate
  | startCheck =>
    cases h
    split
    · exact .startCheckFailing ‹_›
    · exact .startCheck ‹_›
  | startFailLoad =>
    cases h
    split
    · exact .startFailAgain ‹_›
    · exact .startFailLoad (not_not.mp ‹_›)
  | startCondUnlock again ok =>
    cases again <;> cases h
    · exact .startCondUnlock ok
    · exact .startCondUnlockAgain ok
  | idle | returned => cases h
  -- The other points have one way on.
  | _ =>
    cases h
    constructor

/-! ## The input worker -/

/-- What is left to do behind a call of the error handler. -/
inductive Resume where
  /-- Return from `input`. -/
  | leave
  /-- `print_line` returns, and `input` goes on without looking at the error. -/
  | again
  /-- `handle_reply` notifies the call. -/
  | reply (c : CallId)
  /-- `handle_chunked_error_reply` sets the call's error and notifies it. -/
  | errorReply (c : CallId)
deriving DecidableEq, Repr

/-- What the loop of `input` reads next. -/
inductive Input where
  | reply
  | errorReply
  | serverGoodbye
  /-- A `Log` or an `Event`, handled with or without an error, or one of the messages that
  are errors themselves. -/
  | message (ok : Bool)
  /-- A line of raw text, read to its end or not. -/
  | line (ok : Bool)
  /-- `read_byte` fails. -/
  | fails
deriving DecidableEq, Repr

/-- Where the input worker is. -/
inductive WorkerPc where
  -- `client_hello` (client.cc:549-601)
  | hello
  | helloLock
  | helloLoad
  | helloSwap
  | helloSignal
  | helloUnlock
  -- `input` (client.cc:324-406); `failed` when `err` has been reported to
  | read (failed : Bool)
  | serverGoodbye
  | ending
  | returned
  -- `handle_reply` (client.cc:466-483)
  | popReply (number : Nat)
  | decode (c : CallId)
  -- `handle_chunked_error_reply` (client.cc:528-547)
  | popErrorReply (number : Nat)
  | readText (c : CallId)
  | setError (c : CallId) (failed : Bool)
  -- `Waiter::notify`
  | notify (c : CallId) (failed : Bool)
  | wake (c : CallId) (failed : Bool)
  | notified (c : CallId) (failed : Bool)
  -- The error handler (client.cc:292-318)
  | handlerLock (k : Resume)
  | handlerSetErr (k : Resume)
  | handlerPop (k : Resume)
  | handlerSetError (c : CallId) (k : Resume)
  | handlerNotify (c : CallId) (k : Resume)
  | handlerWake (c : CallId) (k : Resume)
  | handlerNotified (c : CallId) (k : Resume)
  | handlerLoad (k : Resume)
  | handlerSwap (old : State) (k : Resume)
  | handlerBroadcast (k : Resume)
  | handlerWait (k : Resume)
  | handlerParked (k : Resume)
  | handlerClear (k : Resume)
  | handlerUnlock (k : Resume)
deriving DecidableEq, Repr

/-- The point behind the error handler. -/
def Resume.resume : Resume → WorkerPc
  | .leave => .ending
  | .again => .read true
  | .reply c => .notify c true
  | .errorReply c => .setError c true

/-- The body of the loop of `input` up to the function it calls. -/
def Input.next (replies : Nat) (failed : Bool) (input : Input) : Access × WorkerPc :=
  match input with
  | .fails => (.other, .handlerLock .leave)
  | .reply => if failed then (.other, .ending) else (.readReply, .popReply replies)
  | .errorReply => if failed then (.other, .ending) else (.readReply, .popErrorReply replies)
  | .serverGoodbye => (.other, if failed then .ending else .serverGoodbye)
  | .message ok =>
    (.other, if failed then .ending else if ok then .read false else .handlerLock .leave)
  | .line ok =>
    (.other, if failed then .ending else if ok then .read false else .handlerLock .again)

/-- The access the worker makes next, and where it is then. -/
def WorkerPc.next (sh : Shared) (input : Input) (io : Bool) (wake : Nat) :
    WorkerPc → Option (Access × WorkerPc)
  | .hello => some (.other, if io then .helloLock else .handlerLock .leave)
  | .helloLock => some (.lockCond, .helloLoad)
  | .helloLoad => some (.other, if sh.state = .starting then .helloSwap else .helloSignal)
  -- A swap that fails has loaded another state, which ends the loop.
  | .helloSwap =>
    some (if sh.state = .starting then (.setState .running, .helloSignal)
    else (.other, .helloSignal))
  | .helloSignal => some (.signal wake, .helloUnlock)
  | .helloUnlock => some (.unlockCond, .read false)
  | .read failed => some (input.next sh.replies failed)
  | .serverGoodbye =>
    some (.other, if sh.state = .closed then .ending else .handlerLock .leave)
  | .ending => some (.finish, .returned)
  | .returned => none
  | .popReply number =>
    match sh.pending with
    | [] => some (.other, .handlerLock .leave)
    | c :: _ => some (.pop (.reply number), .decode c)
  | .decode c =>
    some (if io ∨ ¬ (sh.data c).unmarshal then (.decode c, .notify c false)
    else (.other, .handlerLock (.reply c)))
  | .popErrorReply number =>
    match sh.pending with
    | [] => some (.other, .handlerLock .leave)
    | c :: _ => some (.pop (.reply number), .readText c)
  | .readText c =>
    some (.other, if io then .setError c false else .handlerLock (.errorReply c))
  | .setError c failed => some (.setError c, .notify c failed)
  | .notify c failed => some (.notify c .notifying, .wake c failed)
  | .wake c failed => some (.other, .notified c failed)
  | .notified c failed => some (.notify c .notified, if failed then .ending else .read false)
  | .handlerLock k => some (.lockCond, .handlerSetErr k)
  | .handlerSetErr k => some (.setErr true, .handlerPop k)
  | .handlerPop k =>
    match sh.pending with
    | [] => some (.other, .handlerLoad k)
    | c :: _ => some (.pop .handler, .handlerSetError c k)
  | .handlerSetError c k => some (.setError c, .handlerNotify c k)
  | .handlerNotify c k => some (.notify c .notifying, .handlerWake c k)
  | .handlerWake c k => some (.other, .handlerNotified c k)
  | .handlerNotified c k => some (.notify c .notified, .handlerPop k)
  | .handlerLoad k =>
    match sh.state with
    | .closed | .failed => some (.other, .handlerClear k)
    | .failing => some (.other, .handlerWait k)
    | .new | .starting | .running => some (.other, .handlerSwap sh.state k)
  | .handlerSwap old k =>
    some (if sh.state = old then (.setState .failing, .handlerBroadcast k)
    else (.other, .handlerLoad k))
  | .handlerBroadcast k => some (.broadcast, .handlerWait k)
  | .handlerWait k => some (.wait, .handlerParked k)
  | .handlerParked k => some (.lockCond, .handlerLoad k)
  | .handlerClear k => some (.setErr false, .handlerUnlock k)
  | .handlerUnlock k => some (.unlockCond, k.resume)

/-- The ways on from the worker's points, with what each depends on. -/
inductive WorkerPc.Step (sh : Shared) (input : Input) (io : Bool) (wake : Nat) :
    WorkerPc → Access → WorkerPc → Prop where
  | hello (hio : io = true) : Step sh input io wake .hello .other .helloLock
  | helloFails (hio : io = false) : Step sh input io wake .hello .other (.handlerLock .leave)
  | helloLock : Step sh input io wake .helloLock .lockCond .helloLoad
  | helloLoad (hstate : sh.state = .starting) :
      Step sh input io wake .helloLoad .other .helloSwap
  | helloOver (hstate : sh.state ≠ .starting) :
      Step sh input io wake .helloLoad .other .helloSignal
  | helloSwap (hstate : sh.state = .starting) :
      Step sh input io wake .helloSwap (.setState .running) .helloSignal
  | helloSwapFails (hstate : sh.state ≠ .starting) :
      Step sh input io wake .helloSwap .other .helloSignal
  | helloSignal : Step sh input io wake .helloSignal (.signal wake) .helloUnlock
  | helloUnlock : Step sh input io wake .helloUnlock .unlockCond (.read false)
  | readFails (failed : Bool) (hinput : input = .fails) :
      Step sh input io wake (.read failed) .other (.handlerLock .leave)
  | readOver (hinput : input ≠ .fails) : Step sh input io wake (.read true) .other .ending
  | readReply (hinput : input = .reply) :
      Step sh input io wake (.read false) .readReply (.popReply sh.replies)
  | readErrorReply (hinput : input = .errorReply) :
      Step sh input io wake (.read false) .readReply (.popErrorReply sh.replies)
  | readGoodbye (hinput : input = .serverGoodbye) :
      Step sh input io wake (.read false) .other .serverGoodbye
  | readMessage (hinput : input = .message true) :
      Step sh input io wake (.read false) .other (.read false)
  | readMessageFails (hinput : input = .message false) :
      Step sh input io wake (.read false) .other (.handlerLock .leave)
  | readLine (hinput : input = .line true) :
      Step sh input io wake (.read false) .other (.read false)
  | readLineFails (hinput : input = .line false) :
      Step sh input io wake (.read false) .other (.handlerLock .again)
  | goodbyeClosed (hstate : sh.state = .closed) :
      Step sh input io wake .serverGoodbye .other .ending
  | serverGoodbye (hstate : sh.state ≠ .closed) :
      Step sh input io wake .serverGoodbye .other (.handlerLock .leave)
  | ending : Step sh input io wake .ending .finish .returned
  | popReplyNone (number : Nat) (hpending : sh.pending = []) :
      Step sh input io wake (.popReply number) .other (.handlerLock .leave)
  | popReply (number : Nat) (c : CallId) (pending : List CallId)
      (hpending : sh.pending = c :: pending) :
      Step sh input io wake (.popReply number) (.pop (.reply number)) (.decode c)
  | decode (c : CallId) (hbody : io = true ∨ (sh.data c).unmarshal = false) :
      Step sh input io wake (.decode c) (.decode c) (.notify c false)
  | decodeFails (c : CallId) (hio : io = false) (hbody : (sh.data c).unmarshal = true) :
      Step sh input io wake (.decode c) .other (.handlerLock (.reply c))
  | popErrorReplyNone (number : Nat) (hpending : sh.pending = []) :
      Step sh input io wake (.popErrorReply number) .other (.handlerLock .leave)
  | popErrorReply (number : Nat) (c : CallId) (pending : List CallId)
      (hpending : sh.pending = c :: pending) :
      Step sh input io wake (.popErrorReply number) (.pop (.reply number)) (.readText c)
  | readText (c : CallId) (hio : io = true) :
      Step sh input io wake (.readText c) .other (.setError c false)
  | readTextFails (c : CallId) (hio : io = false) :
      Step sh input io wake (.readText c) .other (.handlerLock (.errorReply c))
  | setError (c : CallId) (failed : Bool) :
      Step sh input io wake (.setError c failed) (.setError c) (.notify c failed)
  | notify (c : CallId) (failed : Bool) :
      Step sh input io wake (.notify c failed) (.notify c .notifying) (.wake c failed)
  | wake (c : CallId) (failed : Bool) :
      Step sh input io wake (.wake c failed) .other (.notified c failed)
  | notified (c : CallId) :
      Step sh input io wake (.notified c false) (.notify c .notified) (.read false)
  | notifiedFailed (c : CallId) :
      Step sh input io wake (.notified c true) (.notify c .notified) .ending
  | handlerLock (k : Resume) :
      Step sh input io wake (.handlerLock k) .lockCond (.handlerSetErr k)
  | handlerSetErr (k : Resume) :
      Step sh input io wake (.handlerSetErr k) (.setErr true) (.handlerPop k)
  | handlerPopNone (k : Resume) (hpending : sh.pending = []) :
      Step sh input io wake (.handlerPop k) .other (.handlerLoad k)
  | handlerPop (k : Resume) (c : CallId) (pending : List CallId)
      (hpending : sh.pending = c :: pending) :
      Step sh input io wake (.handlerPop k) (.pop .handler) (.handlerSetError c k)
  | handlerSetError (c : CallId) (k : Resume) :
      Step sh input io wake (.handlerSetError c k) (.setError c) (.handlerNotify c k)
  | handlerNotify (c : CallId) (k : Resume) :
      Step sh input io wake (.handlerNotify c k) (.notify c .notifying) (.handlerWake c k)
  | handlerWake (c : CallId) (k : Resume) :
      Step sh input io wake (.handlerWake c k) .other (.handlerNotified c k)
  | handlerNotified (c : CallId) (k : Resume) :
      Step sh input io wake (.handlerNotified c k) (.notify c .notified) (.handlerPop k)
  | handlerOver (k : Resume) (hstate : sh.state = .closed ∨ sh.state = .failed) :
      Step sh input io wake (.handlerLoad k) .other (.handlerClear k)
  | handlerFailing (k : Resume) (hstate : sh.state = .failing) :
      Step sh input io wake (.handlerLoad k) .other (.handlerWait k)
  | handlerLoad (k : Resume) (hclosed : sh.state ≠ .closed) (hfailed : sh.state ≠ .failed)
      (hfailing : sh.state ≠ .failing) :
      Step sh input io wake (.handlerLoad k) .other (.handlerSwap sh.state k)
  | handlerSwap (old : State) (k : Resume) (hstate : sh.state = old) :
      Step sh input io wake (.handlerSwap old k) (.setState .failing) (.handlerBroadcast k)
  | handlerSwapFails (old : State) (k : Resume) (hstate : sh.state ≠ old) :
      Step sh input io wake (.handlerSwap old k) .other (.handlerLoad k)
  | handlerBroadcast (k : Resume) :
      Step sh input io wake (.handlerBroadcast k) .broadcast (.handlerWait k)
  | handlerWait (k : Resume) : Step sh input io wake (.handlerWait k) .wait (.handlerParked k)
  | handlerParked (k : Resume) :
      Step sh input io wake (.handlerParked k) .lockCond (.handlerLoad k)
  | handlerClear (k : Resume) :
      Step sh input io wake (.handlerClear k) (.setErr false) (.handlerUnlock k)
  | leave : Step sh input io wake (.handlerUnlock .leave) .unlockCond .ending
  | again : Step sh input io wake (.handlerUnlock .again) .unlockCond (.read true)
  | reply (c : CallId) :
      Step sh input io wake (.handlerUnlock (.reply c)) .unlockCond (.notify c true)
  | errorReply (c : CallId) :
      Step sh input io wake (.handlerUnlock (.errorReply c)) .unlockCond (.setError c true)

theorem WorkerPc.next_cases {sh : Shared} {input : Input} {io : Bool} {wake : Nat}
    {pc pc' : WorkerPc} {access : Access} (h : pc.next sh input io wake = some (access, pc')) :
    pc.Step sh input io wake access pc' := by
  cases pc with
  | hello =>
    cases io <;> cases h
    · exact .helloFails rfl
    · exact .hello rfl
  | helloLoad =>
    cases h
    split
    · exact .helloLoad ‹_›
    · exact .helloOver ‹_›
  | helloSwap =>
    by_cases hstate : sh.state = .starting
    · rw [next, if_pos hstate] at h
      cases h
      exact .helloSwap hstate
    · rw [next, if_neg hstate] at h
      cases h
      exact .helloSwapFails hstate
  | read failed =>
    cases failed with
    | true =>
      cases input with
      | fails => cases h; exact .readFails true rfl
      | _ => cases h; exact .readOver nofun
    | false =>
      cases input with
      | reply => cases h; exact .readReply rfl
      | errorReply => cases h; exact .readErrorReply rfl
      | serverGoodbye => cases h; exact .readGoodbye rfl
      | message ok =>
        cases ok <;> cases h
        · exact .readMessageFails rfl
        · exact .readMessage rfl
      | line ok =>
        cases ok <;> cases h
        · exact .readLineFails rfl
        · exact .readLine rfl
      | fails => cases h; exact .readFails false rfl
  | serverGoodbye =>
    cases h
    split
    · exact .goodbyeClosed ‹_›
    · exact .serverGoodbye ‹_›
  | popReply number =>
    cases hpending : sh.pending <;> rw [next, hpending] at h <;> cases h
    · exact .popReplyNone number hpending
    · exact .popReply number _ _ hpending
  | decode c =>
    by_cases hbody : io = true ∨ (sh.data c).unmarshal = false
    · rw [next, if_pos (by simpa using hbody)] at h
      cases h
      exact .decode c hbody
    · rw [next, if_neg (by simpa using hbody)] at h
      cases h
      obtain ⟨hio, hbody⟩ := by simpa only [not_or] using hbody
      exact .decodeFails c (Bool.eq_false_iff.mpr hio) (by simpa using hbody)
  | popErrorReply number =>
    cases hpending : sh.pending <;> rw [next, hpending] at h <;> cases h
    · exact .popErrorReplyNone number hpending
    · exact .popErrorReply number _ _ hpending
  | readText c =>
    cases io <;> cases h
    · exact .readTextFails c rfl
    · exact .readText c rfl
  | notified c failed =>
    cases failed <;> cases h
    · exact .notified c
    · exact .notifiedFailed c
  | handlerPop k =>
    cases hpending : sh.pending <;> rw [next, hpending] at h <;> cases h
    · exact .handlerPopNone k hpending
    · exact .handlerPop k _ _ hpending
  | handlerLoad k =>
    cases hstate : sh.state with
    | closed =>
      rw [next, hstate] at h
      cases h
      exact .handlerOver k (.inl hstate)
    | failed =>
      rw [next, hstate] at h
      cases h
      exact .handlerOver k (.inr hstate)
    | failing =>
      rw [next, hstate] at h
      cases h
      exact .handlerFailing k hstate
    | _ =>
      rw [next, hstate] at h
      cases h
      rw [← hstate]
      exact .handlerLoad k (by rw [hstate]; exact nofun) (by rw [hstate]; exact nofun)
        (by rw [hstate]; exact nofun)
  | handlerSwap old k =>
    by_cases hstate : sh.state = old
    · rw [next, if_pos hstate] at h
      cases h
      exact .handlerSwap old k hstate
    · rw [next, if_neg hstate] at h
      cases h
      exact .handlerSwapFails old k hstate
  | handlerUnlock k =>
    cases k <;> cases h
    · exact .leave
    · exact .again
    · exact .reply _
    · exact .errorReply _
  | returned => cases h
  -- The other points have one way on.
  | _ =>
    cases h
    constructor

end SerialRpc.Client
