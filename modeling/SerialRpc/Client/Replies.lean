import SerialRpc.Client.Ledger

/-!
# Whose reply it is (client.cc:123-146, 194-210, 439-547)

Requests and replies carry nothing that tells them apart: the server answers in the order
it receives, and the worker takes the calls off the list in the order they were put on.
The two orders agree as long as only replies take calls off the list. A call that fails
takes all of them off, one by one, while the worker goes on reading.

- `Numbered`: the requests that the server sees are those that were put on the list, in
  that order, and while the worker reads, every reply it has begun to read and every pop of
  a failing call has taken one off (`numbered_preserved`).
- `Uncrossed`: every call has been given the reply to its own request.
- `uncrossed_iff`: a run keeps it exactly if the worker takes no call off the list for a
  reply once a failing call has taken one off.
-/

namespace SerialRpc.Client

/-- The calls an access makes visible to the server. -/
def Access.sends : Access → List CallId
  | .send t => [t]
  | _ => []

/-- The replies an access begins to read. -/
def Access.reads : Access → Nat
  | .readReply => 1
  | _ => 0

/-- The pops of failing calls. -/
def Access.fails : Access → Nat
  | .pop use => use.failPops
  | _ => 0

/-- A call that has been put on the list, before its first write behind the id. -/
def CallerPc.unsent (t : CallId) : CallerPc → List CallId
  | .body _ false => [t]
  | _ => []

/-- The worker has not been in its error handler. -/
def WorkerPc.live : WorkerPc → Bool
  | .hello | .helloLock | .helloLoad | .helloSwap | .helloSignal | .helloUnlock | .serverGoodbye
  | .popReply _ | .decode _ | .popErrorReply _ | .readText _ => true
  | .read failed | .setError _ failed | .notify _ failed | .wake _ failed
  | .notified _ failed => !failed
  | _ => false

/-- The reply that the worker is about to take a call off the list for. -/
def WorkerPc.asked : WorkerPc → Option Nat
  | .popReply number | .popErrorReply number => some number
  | _ => none

/-- A reply, of either kind. -/
def Input.isReply : Input → Bool
  | .reply | .errorReply => true
  | _ => false

section Points

variable {who : Thread} {sh sh' : Shared} {io : Bool} {wake : Nat} {access : Access}

/-- What is sent, read and failed is counted. -/
theorem Access.apply_counts (happly : access.apply who sh = some sh') :
    sh'.visible = sh.visible ++ access.sends ∧ sh'.replies = sh.replies + access.reads ∧
    sh'.failPops = sh.failPops + access.fails := by
  cases Access.apply_cases happly with
  | _ => simp [Access.sends, Access.reads, Access.fails, Shared.withData]

/-- A call makes itself visible once it has been put on the list, and takes calls off only
when it fails. -/
theorem CallerPc.next_counts {t : CallId} {pc pc' : CallerPc}
    (hnext : pc.next t sh io wake = some (access, pc')) :
    pc.unsent t ++ access.pushes = access.sends ++ pc'.unsent t ∧
    (pc.unsent t = [] → pc'.unsent t = [] → access.pushes = []) ∧
    access.reads = 0 ∧ access.fails = (access.pops sh.pending).length := by
  cases CallerPc.next_cases hnext with
  | _ =>
    simp_all [CallerPc.unsent, Access.pushes, Access.sends, Access.reads, Access.fails,
      Access.pops, PopUse.failPops]

/-- The worker takes a call off the list for each reply it begins to read. -/
theorem WorkerPc.next_counts {input : Input} {pc pc' : WorkerPc}
    (hnext : pc.next sh input io wake = some (access, pc')) :
    access.sends = [] ∧ access.fails = 0 ∧
    (pc'.live = true → pc.live = true ∧
      (access.pops sh.pending).length + pc'.asked.toList.length =
        pc.asked.toList.length + access.reads) := by
  cases WorkerPc.next_cases hnext with
  | _ =>
    simp_all [WorkerPc.live, WorkerPc.asked, Access.sends, Access.reads, Access.fails,
      Access.pops, PopUse.failPops]

/-- The worker takes a call off for the reply it has just begun to read. -/
theorem WorkerPc.next_asked {input : Input} {pc pc' : WorkerPc}
    (hnext : pc.next sh input io wake = some (access, pc')) {number : Nat} :
    (pc'.asked = some number →
      number = sh.replies ∧ access.reads = 1 ∧ pc = .read false ∧ input.isReply = true) ∧
    (access = .pop (.reply number) → pc.asked = some number) := by
  cases WorkerPc.next_cases hnext with
  | _ => simp_all [WorkerPc.asked, Access.reads, Input.isReply]

/-- The worker takes the head of the list off for a reply. -/
theorem WorkerPc.next_pop {pc : WorkerPc} {number : Nat} (hasked : pc.asked = some number)
    {c : CallId} {rest : List CallId} (hpending : sh.pending = c :: rest) (input : Input)
    (io : Bool) (wake : Nat) :
    ∃ pc', pc.next sh input io wake = some (.pop (.reply number), pc') := by
  cases pc <;> cases hasked
  all_goals
    simp only [WorkerPc.next, hpending]
    exact ⟨_, rfl⟩

/-- A call that is popped for a reply has its number. -/
theorem Access.apply_pop_reply {number : Nat} {c : CallId} {rest : List CallId}
    (hpending : sh.pending = c :: rest) :
    ∃ sh', (Access.pop (.reply number)).apply who sh = some sh' ∧
      (sh'.data c).reply = some number := by
  simp only [Access.apply, hpending]
  refine ⟨_, rfl, ?_⟩
  rw [Shared.withData_self]
  rfl

end Points

/-- Requests and replies, by their numbers. -/
structure Numbered (s : System) : Prop where
  ledger : Ledger s
  sent : s.shared.pushed = s.shared.visible ++ s.inCall [] CallerPc.unsent
  taken : s.worker.live = true →
    s.shared.popped.length + s.worker.asked.toList.length = s.shared.replies + s.shared.failPops
  asked : ∀ number, s.worker.asked = some number →
    number + 1 = s.shared.replies ∧ number < s.shared.visible.length

/-- The server sends no reply without a request to answer. -/
def System.Served (s : System) : Action → Prop
  | .worker input _ _ => s.worker = .read false → input.isReply = true →
      s.shared.replies < s.shared.visible.length
  | .invoke _ _ | .caller _ _ _ => True

instance (s : System) : ∀ a, Decidable (s.Served a)
  | .worker _ _ _ => inferInstanceAs (Decidable (_ → _ → _))
  | .invoke _ _ | .caller _ _ _ => inferInstanceAs (Decidable True)

theorem numbered_init : Numbered {} where
  ledger := Ledger.init
  sent := rfl
  taken _ := rfl
  asked := nofun

theorem CallerPc.unsent_of_not_holdsCall {t : CallId} {pc : CallerPc}
    (h : pc.holdsCall = false) : pc.unsent t = [] := by
  cases pc <;> first | rfl | exact nomatch h

namespace Numbered

variable {s : System} {io : Bool} {wake : Nat} {access : Access} {shared : Shared}

theorem invoke (hs : Numbered s) {t : CallId} {op : Op} (hidle : s.callers t = .idle)
    (hledger : Ledger (s.callerAt t (s.shared.withData t fun _ => op.callData) op.entry)) :
    Numbered (s.callerAt t (s.shared.withData t fun _ => op.callData) op.entry) := by
  have hcall : (s.callerAt t (s.shared.withData t fun _ => op.callData) op.entry).inCall []
      CallerPc.unsent = s.inCall [] CallerPc.unsent := by
    obtain ⟨h, h'⟩ | ⟨-, -, hsame⟩ := System.inCall_callerAt hs.ledger.locked hledger.locked
      fun pc hpc => CallerPc.unsent_of_not_holdsCall hpc
    · rw [h, h', hidle, CallerPc.unsent_of_not_holdsCall op.entry_holds.1]
      rfl
    · exact hsame
  exact ⟨hledger, hs.sent.trans (congrArg _ hcall.symm), hs.taken, hs.asked⟩

/-- A step of a caller keeps requests and list in the same order. -/
theorem caller (hs : Numbered s) {t : CallId} {pc : CallerPc}
    (hnext : (s.callers t).next t s.shared io wake = some (access, pc))
    (happly : access.apply (.caller t) s.shared = some shared)
    (hledger : Ledger (s.callerAt t shared pc)) : Numbered (s.callerAt t shared pc) := by
  obtain ⟨hown, hother, hreads, hfails⟩ := CallerPc.next_counts hnext
  obtain ⟨hvisible, hreplies, hfailPops⟩ := Access.apply_counts happly
  obtain ⟨hpushed, hpopped, -⟩ := Access.apply_pending happly
  refine ⟨hledger, ?_, fun hlive => ?_, fun number hasked => ?_⟩
  · rw [System.callerAt_shared, hpushed, hvisible, hs.sent]
    obtain ⟨h, h'⟩ | ⟨h, h', hsame⟩ := System.inCall_callerAt hs.ledger.locked hledger.locked
      fun pc hpc => CallerPc.unsent_of_not_holdsCall hpc
    · rw [h, h', List.append_assoc, hown, List.append_assoc]
    · -- Outside of `call_mtx` it has nothing to send, and another thread may.
      have hnone := hother h h'
      rw [h, h', hnone, List.append_nil, List.append_nil] at hown
      rw [hsame, hnone, ← hown, List.append_nil, List.append_nil]
  · have htaken := hs.taken hlive
    simp only [System.callerAt_shared, System.callerAt_worker, hpopped, hreplies, hfailPops,
      hreads, hfails, List.length_append]
    omega
  · obtain ⟨hnumber, hlt⟩ := hs.asked number hasked
    simp only [System.callerAt_shared, hreplies, hreads, hvisible, List.length_append]
    omega

theorem worker (hs : Numbered s) {input : Input} {pc : WorkerPc}
    (hserved : s.Served (.worker input io wake))
    (hnext : s.worker.next s.shared input io wake = some (access, pc))
    (happly : access.apply .worker s.shared = some shared)
    (hledger : Ledger { s with shared, worker := pc }) :
    Numbered { s with shared, worker := pc } := by
  obtain ⟨hsends, hfails, hlive⟩ := WorkerPc.next_counts hnext
  obtain ⟨hvisible, hreplies, hfailPops⟩ := Access.apply_counts happly
  obtain ⟨hpushed, hpopped, -⟩ := Access.apply_pending happly
  have hpushes := (WorkerPc.next_carried hnext).1
  rw [hpushes, List.append_nil] at hpushed
  rw [hsends, List.append_nil] at hvisible
  refine ⟨hledger, ?_, fun h => ?_, fun number hasked => ?_⟩
  · rw [System.inCall_worker (WorkerPc.next_callMtx hnext happly)]
    exact hpushed.trans (hs.sent.trans (hvisible ▸ rfl))
  · obtain ⟨hbefore, hcount⟩ := hlive h
    have htaken := hs.taken hbefore
    simp only [hpopped, hreplies, hfailPops, hfails, List.length_append]
    omega
  · -- The worker has just begun to read the reply, for which there is a request.
    obtain ⟨heq, hreads, hread, hreply⟩ := (WorkerPc.next_asked hnext).1 hasked
    have hlt := hserved hread hreply
    refine ⟨?_, ?_⟩
    · rw [hreplies, hreads, heq]
    · rwa [hvisible, heq]

end Numbered

theorem numbered_preserved : Transition.Preserves System.step System.Served Numbered := by
  intro s a s' hs hserved hstep
  have hledger : Ledger s' := hs.ledger.step hstep
  obtain ⟨t, op, -, hidle, rfl⟩ | ⟨t, io, wake, access, pc, shared, -, hnext, happly, rfl⟩ |
    ⟨input, io, wake, access, pc, shared, rfl, -, hnext, happly, rfl⟩ := System.step_cases hstep
  · exact hs.invoke hidle hledger
  · exact hs.caller hnext happly hledger
  · exact hs.worker hserved hnext happly hledger

/-- Every call has been given the reply to its own request, by number. -/
def System.Uncrossed (s : System) : Prop :=
  ∀ c number, (s.shared.data c).reply = some number → s.shared.visible[number]? = some c

/-- The worker takes no call off the list for a reply once a failing call has done so. -/
def System.PopsInTurn (s : System) : Action → Prop
  | .worker _ _ _ => s.shared.worker = .running → s.worker.asked ≠ none →
      s.shared.pending ≠ [] → s.shared.failPops = 0
  | .invoke _ _ | .caller _ _ _ => True

instance (s : System) : ∀ a, Decidable (s.PopsInTurn a)
  | .worker _ _ _ => inferInstanceAs (Decidable (_ → _ → _ → _))
  | .invoke _ _ | .caller _ _ _ => inferInstanceAs (Decidable True)

namespace Numbered

variable {s : System}

/-- The request with a number the server has seen is the call with that number. -/
theorem visible_getElem? (hs : Numbered s) {number : Nat}
    (hlt : number < s.shared.visible.length) :
    s.shared.visible[number]? = s.shared.pushed[number]? := by
  rw [hs.sent, List.getElem?_append_left hlt]

/-- The call at the head of the list, by its number. -/
theorem head_getElem? (hs : Numbered s) {c : CallId} {rest : List CallId}
    (hpending : s.shared.pending = c :: rest) :
    s.shared.pushed[s.shared.popped.length]? = some c := by
  rw [hs.ledger.order, hpending, List.getElem?_append_right (Nat.le_refl _), Nat.sub_self]
  rfl

/-- A worker that has read a reply is live. -/
theorem asked_live {pc : WorkerPc} {number : Nat} (h : pc.asked = some number) :
    pc.live = true := by
  cases pc <;> first | rfl | exact nomatch h

/-- The call that the worker takes off for a reply is the one the server answers, if no
failing call has taken one off. -/
theorem head_iff (hs : Numbered s) {number : Nat} (hasked : s.worker.asked = some number)
    {c : CallId} {rest : List CallId} (hpending : s.shared.pending = c :: rest) :
    s.shared.visible[number]? = some c ↔ s.shared.failPops = 0 := by
  obtain ⟨hnumber, hlt⟩ := hs.asked number hasked
  have htaken := hs.taken (asked_live hasked)
  rw [hasked] at htaken
  have hlength : s.shared.popped.length = number + s.shared.failPops := by
    simp only [Option.toList_some, List.length_singleton] at htaken
    omega
  have hhead := hs.head_getElem? hpending
  rw [hs.visible_getElem? hlt]
  constructor
  · intro h
    have hbound : number < s.shared.pushed.length := (List.getElem?_eq_some_iff.mp h).1
    have heq := (List.getElem?_inj hbound hs.ledger.nodup).mp (h.trans hhead.symm)
    omega
  · intro h
    rwa [hlength, h] at hhead

/-- The worker sends nothing. -/
theorem worker_visible {input : Input} {io : Bool} {wake : Nat} {access : Access} {pc : WorkerPc}
    {shared : Shared} (hnext : s.worker.next s.shared input io wake = some (access, pc))
    (happly : access.apply .worker s.shared = some shared) : shared.visible = s.shared.visible := by
  rw [(Access.apply_counts happly).1, (WorkerPc.next_counts hnext).1, List.append_nil]

/-- A step that takes calls off in turn keeps every call to its own reply. -/
theorem uncrossed_step (hs : Numbered s) (huncrossed : s.Uncrossed) {a : Action}
    (hturn : s.PopsInTurn a) {s' : System} (hstep : s.step a = some s') : s'.Uncrossed := by
  obtain ⟨t, op, -, -, rfl⟩ | ⟨t, io, wake, access, pc, shared, -, hnext, happly, rfl⟩ |
    ⟨input, io, wake, access, pc, shared, rfl, hrunning, hnext, happly, rfl⟩ :=
    System.step_cases hstep
  · intro c number hreply
    rw [System.callerAt_shared, Shared.withData_data] at hreply
    split at hreply
    · cases op <;> exact nomatch hreply
    · exact huncrossed c number hreply
  · intro c number hreply
    rcases Access.apply_reply happly hreply with h | ⟨h, -⟩
    · rw [System.callerAt_shared, (Access.apply_counts happly).1]
      have hbefore := huncrossed c number h
      rw [List.getElem?_append_left (List.getElem?_eq_some_iff.mp hbefore).1]
      exact hbefore
    · exact absurd h (CallerPc.next_pop hnext number)
  · intro c number hreply
    show shared.visible[number]? = some c
    rw [worker_visible hnext happly]
    rcases Access.apply_reply happly hreply with h | ⟨h, hhead⟩
    · exact huncrossed c number h
    · -- A new reply is given to the head of the list.
      have hasked := (WorkerPc.next_asked hnext).2 h
      obtain ⟨rest, hpending⟩ := List.head?_eq_some_iff.mp hhead
      refine (hs.head_iff hasked hpending).mpr (hturn hrunning ?_ ?_)
      · rw [hasked]
        exact nofun
      · rw [hpending]
        exact nofun

/-- A step that keeps every call to its own reply takes calls off in turn. -/
theorem popsInTurn_of_uncrossed (hs : Numbered s) {a : Action}
    (hkeeps : ∀ s', s.step a = some s' → s'.Uncrossed) : s.PopsInTurn a := by
  cases a with
  | invoke t op => trivial
  | caller t io wake => trivial
  | worker input io wake =>
    intro hrunning hasked hpending
    obtain ⟨number, hasked⟩ := Option.ne_none_iff_exists'.mp hasked
    obtain ⟨c, rest, hpending⟩ := List.exists_cons_of_ne_nil hpending
    -- The worker's turn gives the reply to the head of the list.
    obtain ⟨pc, hnext⟩ := WorkerPc.next_pop hasked hpending input io wake
    obtain ⟨shared, happly, hreply⟩ : ∃ shared,
        (Access.pop (.reply number)).apply .worker s.shared = some shared ∧
        (shared.data c).reply = some number := Access.apply_pop_reply hpending
    have hstep : s.step (.worker input io wake) = some { s with shared, worker := pc } := by
      simp only [System.step, hrunning, if_true, hnext, Option.bind_eq_bind, Option.bind_some,
        happly]
      rfl
    have hvisible := worker_visible hnext happly
    exact (hs.head_iff hasked hpending).mp (hvisible ▸ hkeeps _ hstep c number hreply)

/-- A step keeps every call to its own reply exactly if it takes calls off in turn. -/
theorem step_uncrossed (hs : Numbered s) (huncrossed : s.Uncrossed) (a : Action) :
    s.PopsInTurn a ↔ ∀ s', s.step a = some s' → s'.Uncrossed :=
  ⟨fun hturn _ => hs.uncrossed_step huncrossed hturn, hs.popsInTurn_of_uncrossed⟩

end Numbered

/-- Where the server sends a reply for each request and no more, every call is given the
reply to its own request throughout a run exactly if, in each step in which the worker takes
a call off the list for a reply, no failing call has taken one off before. -/
theorem uncrossed_iff (as : List Action)
    (h : Transition.Along System.step System.Served {} as) :
    Transition.Always System.step System.Uncrossed {} as ↔
      Transition.Along System.step System.PopsInTurn {} as :=
  numbered_preserved.always_iff
    (fun _ a hs _ huncrossed => hs.step_uncrossed huncrossed a) numbered_init nofun h

/-- Two calls that are answered in turn. -/
def answeredInTurn : List Action :=
  Action.started ++ Action.alone 1 (.call .callNoRequest) 6 ++
    Action.alone 2 (.call .callNoRequest) 6 ++ Action.work .reply 6 ++ Action.work .errorReply 7 ++
    Action.goOn 1 1 ++ Action.goOn 2 1

theorem uncrossed_answeredInTurn :
    Transition.Always System.step System.Uncrossed {} answeredInTurn :=
  (uncrossed_iff answeredInTurn (by decide)).mpr (by decide)

/-- Two calls wait for their replies when a third one fails to write its request. It takes
the first of them off the list; then the worker reads the reply to that one. -/
def failBetweenReplies : List Action :=
  Action.started ++ Action.alone 1 (.call .callNoRequest) 6 ++
    Action.alone 2 (.call .callNoRequest) 6 ++ Action.alone 3 (.call .callNoRequest) 4 ++
    [.caller 3 false 0, .caller 3 true 0] ++ Action.work .reply 6 ++ Action.goOn 2 1

/-- The second call returns the reply to the first one's request. -/
theorem reply_crossed :
    Transition.Along System.step System.Served {} failBetweenReplies ∧
    ¬ Transition.Always System.step System.Uncrossed {} failBetweenReplies ∧
    (Transition.run System.step {} failBetweenReplies).map (fun s =>
      (s.shared.visible, s.shared.popped, (s.shared.data 2).reply, s.callers 2)) =
    some ([1, 2, 3], [1, 2], some 0, .returned true) := by
  have hrun : (Transition.run System.step {} failBetweenReplies).map (fun s =>
      (s.shared.visible, s.shared.popped, (s.shared.data 2).reply, s.callers 2)) =
    some ([1, 2, 3], [1, 2], some 0, .returned true) := by decide
  refine ⟨by decide, fun h => ?_, hrun⟩
  obtain ⟨s, hs, heq⟩ := Option.map_eq_some_iff.mp hrun
  simp only [Prod.mk.injEq] at heq
  obtain ⟨hvisible, -, hreply, -⟩ := heq
  have hown := h.last hs 2 0 hreply
  rw [hvisible] at hown
  exact nomatch hown

end SerialRpc.Client
