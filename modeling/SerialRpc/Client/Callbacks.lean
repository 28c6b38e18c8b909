import SerialRpc.Lib.Transition
import SerialRpc.Service.Generator
import Mathlib.Logic.Function.Basic

/-!
# Subscribing, call by call (protoc_serialrpc_plugin.cc:3003-3057, client.h:250-348)

`subscribe_X` stores its callback in the stub and registers the event id with the client,
and then sends the request. `unsubscribe_X` sends its request first, and takes the two back
if there was no error. The calls of a thread come one behind the other.

- `State.subscribe`, `State.unsubscribe`: the two calls, as the generator prints them.
- `established`: what the last successful call for a method has established.
- `State.call_kept`: what a call does to the callback and to the registration of a method.
- `established_iff`: a run leaves what the last successful calls have established, exactly
  if a `subscribe_X` that fails finds its own callback stored and registered.
-/

namespace SerialRpc.Callbacks

/-- The writes of a request. -/
inductive Write where
  | rpcId
  | flag
  | request
  | flush
deriving DecidableEq

/-- What becomes of a request: the writes that fail, the text that the call is answered with
if it is not a reply, by the server or by the worker that fails, and whether the connection
is lost before it returns. -/
structure Fate where
  fails : Write → Bool
  errorText : Option Str
  lost : Bool

/-- What a call is asked to do; `hasRequest` where the method has a parameter. The callback is
a `std::function`, which may be empty. -/
inductive Operation (κ : Type) where
  | subscribe (cb : Option κ) (hasRequest : Bool)
  | unsubscribe

/-- A call of a method, by the method's number in the stub. -/
structure Call (κ : Type) where
  method : UInt32
  op : Operation κ
  fate : Fate

/-- A stub and its client: `$name$_cb` for each method, the methods whose handlers are in
`event_callbacks`, whether the client is running, and the calls so far with their success. -/
structure State (κ : Type) where
  cb : UInt32 → Option κ
  eventCallbacks : UInt32 → Option UInt32
  running : Bool
  log : List (Call κ × Bool)

variable {κ : Type}

/-- The writes of a call. -/
def Operation.writes : Operation κ → List Write
  | .subscribe _ true => [.rpcId, .flag, .request, .flush]
  | .subscribe _ false => [.rpcId, .flag, .flush]
  | .unsubscribe => [.rpcId, .flag, .flush]

namespace State

/-- `Client::register_event_callback` (client.cc:36-40). -/
def registerEventCallback (s : State κ) (eventId method : UInt32) : State κ :=
  { s with eventCallbacks := Function.update s.eventCallbacks eventId (some method) }

/-- `Client::unregister_event_callback` (client.cc:42-46). -/
def unregisterEventCallback (s : State κ) (eventId : UInt32) : State κ :=
  { s with eventCallbacks := Function.update s.eventCallbacks eventId none }

/-- `Client::subscribe` and `Client::unsubscribe` (client.h:250-342): whether there was no
error. A write that fails closes the connection. -/
def request (s : State κ) (writes : List Write) (fate : Fate) : State κ × Bool :=
  if s.running = false then (s, false)
  else if writes.any fate.fails then ({ s with running := false }, false)
  else ({ s with running := !fate.lost }, fate.errorText.isNone)

/-- `subscribe_$name$` (protoc_serialrpc_plugin.cc:3003-3027). -/
def subscribe (rpcOffset method : UInt32) (cb : Option κ) (hasRequest : Bool) (fate : Fate)
    (s : State κ) : State κ × Bool :=
  let eventId := method + rpcOffset
  let stored := { s with cb := Function.update s.cb method cb }
  (stored.registerEventCallback eventId method).request
    (Operation.subscribe cb hasRequest).writes fate

/-- `unsubscribe_$name$` (protoc_serialrpc_plugin.cc:3033-3050). -/
def unsubscribe (rpcOffset method : UInt32) (fate : Fate) (s : State κ) : State κ × Bool :=
  let eventId := method + rpcOffset
  let sent := s.request (Operation.unsubscribe (κ := κ)).writes fate
  if sent.2 = false then (sent.1, false)
  else
    let unregistered := sent.1.unregisterEventCallback eventId
    ({ unregistered with cb := Function.update unregistered.cb method none }, true)

/-- A call of the stub. -/
def call (rpcOffset : UInt32) (c : Call κ) (s : State κ) : State κ × Bool :=
  match c.op with
  | .subscribe cb hasRequest => s.subscribe rpcOffset c.method cb hasRequest c.fate
  | .unsubscribe => s.unsubscribe rpcOffset c.method c.fate

/-- A call, and its success. -/
def step (rpcOffset : UInt32) (s : State κ) (c : Call κ) : Option (State κ) :=
  some { (s.call rpcOffset c).1 with log := s.log ++ [(c, (s.call rpcOffset c).2)] }

/-- A new stub of a client that is running. -/
def init : State κ where
  cb _ := none
  eventCallbacks _ := none
  running := true
  log := []

/-- What there is of a method: its callback, and whether its event id is registered. -/
def kept (rpcOffset : UInt32) (s : State κ) (method : UInt32) : Option κ × Bool :=
  (s.cb method, (s.eventCallbacks (method + rpcOffset)).isSome)

end State

/-! ## What calls establish -/

def Operation.subscribes : Operation κ → Bool
  | .subscribe _ _ => true
  | .unsubscribe => false

/-- What a call is for. -/
def Operation.establishes : Operation κ → Option κ × Bool
  | .subscribe cb _ => (cb, true)
  | .unsubscribe => (none, false)

/-- What the last successful call for a method has established, or nothing. -/
def established (log : List (Call κ × Bool)) (method : UInt32) : Option κ × Bool :=
  match (log.filter fun entry => entry.2 && entry.1.method = method).getLast? with
  | some entry => entry.1.op.establishes
  | none => (none, false)

/-- A running client, no failing write, and no error as the answer. -/
def Call.succeeds (running : Bool) (c : Call κ) : Bool :=
  running && !c.op.writes.any c.fate.fails && c.fate.errorText.isNone

/-- For every method there is what its last successful call has established. -/
def State.Established (rpcOffset : UInt32) (s : State κ) : Prop :=
  ∀ method, s.kept rpcOffset method = established s.log method

/-- A `subscribe_X` that fails is for the callback that is stored, and registered. -/
def State.Repeats (rpcOffset : UInt32) (s : State κ) (c : Call κ) : Prop :=
  c.op.subscribes = true → c.succeeds s.running = false →
    s.kept rpcOffset c.method = c.op.establishes

/-- A call that fails leaves of every method what there was. -/
def State.Leaves (rpcOffset : UInt32) (s : State κ) (c : Call κ) : Prop :=
  c.succeeds s.running = false →
    ∀ method, (s.call rpcOffset c).1.kept rpcOffset method = s.kept rpcOffset method

theorem established_append (log : List (Call κ × Bool)) (c : Call κ) (ok : Bool)
    (method : UInt32) : established (log ++ [(c, ok)]) method =
      if ok = true ∧ c.method = method then c.op.establishes else established log method := by
  rw [established, List.filter_append]
  by_cases h : ok = true ∧ c.method = method
  · simp [h]
  · have hfalse : (ok && decide (c.method = method)) = false := by
      simpa using h
    simp [hfalse, h, established]

/-! ## What calls do -/

namespace State

variable (rpcOffset : UInt32) (s : State κ)

@[simp] theorem request_cb (writes : List Write) (fate : Fate) :
    (s.request writes fate).1.cb = s.cb := by
  unfold request
  split
  · rfl
  · split <;> rfl

@[simp] theorem request_eventCallbacks (writes : List Write) (fate : Fate) :
    (s.request writes fate).1.eventCallbacks = s.eventCallbacks := by
  unfold request
  split
  · rfl
  · split <;> rfl

/-- Whether a request succeeds. -/
theorem request_ok (c : Call κ) : (s.request c.op.writes c.fate).2 = c.succeeds s.running := by
  unfold request Call.succeeds
  cases s.running with
  | false => rfl
  | true =>
    cases hfails : c.op.writes.any c.fate.fails with
    | true => simp
    | false => simp

theorem call_ok (c : Call κ) : (s.call rpcOffset c).2 = c.succeeds s.running := by
  obtain ⟨method, op, fate⟩ := c
  cases op with
  | subscribe cb hasRequest => exact request_ok _ ⟨method, .subscribe cb hasRequest, fate⟩
  | unsubscribe =>
    have hok := request_ok s ⟨method, .unsubscribe, fate⟩
    simp only [call, unsubscribe]
    split
    · rename_i hfailed
      exact hfailed.symm.trans hok
    · rename_i hsent
      rw [Bool.not_eq_false] at hsent
      exact hsent.symm.trans hok

/-- What a call leaves of a method: that of a `subscribe_X`, whatever becomes of it, and that
of an `unsubscribe_X` that succeeds. -/
theorem call_kept (c : Call κ) (method : UInt32) :
    (s.call rpcOffset c).1.kept rpcOffset method =
      if c.method = method ∧ (c.op.subscribes = true ∨ c.succeeds s.running = true) then
        c.op.establishes
      else s.kept rpcOffset method := by
  obtain ⟨own, op, fate⟩ := c
  -- Different methods have different event ids.
  have hid : own ≠ method → method + rpcOffset ≠ own + rpcOffset :=
    fun hne heq => hne ((UInt32.add_left_inj rpcOffset).mp heq).symm
  cases op with
  | subscribe cb hasRequest =>
    -- Stored and registered before the request, whatever becomes of it.
    by_cases hown : own = method
    · subst hown
      simp [call, subscribe, kept, registerEventCallback, Operation.subscribes,
        Operation.establishes]
    · simp [call, subscribe, kept, registerEventCallback, hown, Ne.symm hown, hid hown]
  | unsubscribe =>
    have hok := request_ok s ⟨own, .unsubscribe, fate⟩
    rw [← hok]
    simp only [call, unsubscribe, Operation.subscribes, Bool.false_eq_true, false_or]
    -- Taken back only behind a request that has succeeded.
    cases hsent : (s.request (Operation.unsubscribe (κ := κ)).writes fate).2 with
    | false => simp [kept]
    | true =>
      by_cases hown : own = method
      · subst hown
        simp [kept, unregisterEventCallback, Operation.establishes]
      · simp [kept, unregisterEventCallback, hown, Ne.symm hown, hid hown]

/-- A call keeps what there is to what the last successful calls have established, exactly if
it is no `subscribe_X` that fails for another callback than there is. -/
theorem established_step_iff {c : Call κ} (hs : s.Established rpcOffset) :
    s.Repeats rpcOffset c ↔
      ∀ s', step rpcOffset s c = some s' → s'.Established rpcOffset := by
  have hkept : ∀ method, (∀ s', step rpcOffset s c = some s' →
      s'.kept rpcOffset method = (s.call rpcOffset c).1.kept rpcOffset method ∧
      established s'.log method =
        if c.succeeds s.running = true ∧ c.method = method then c.op.establishes
        else s.kept rpcOffset method) := by
    intro method s' hstep
    cases hstep
    exact ⟨rfl, by rw [established_append, call_ok, hs method]⟩
  constructor
  · intro hrepeats s' hstep method
    -- Of the methods, only the one called can differ.
    obtain ⟨hleft, hright⟩ := hkept method s' hstep
    rw [hleft, hright, call_kept]
    by_cases hmethod : c.method = method
    · subst hmethod
      cases hok : c.succeeds s.running with
      | true => simp
      | false =>
        cases hsubscribes : c.op.subscribes with
        | true => simp [hrepeats hsubscribes hok]
        | false => simp
    · simp [hmethod]
  · intro hall hsubscribes hfails
    -- The failed subscription has stored its callback, and nothing has established it.
    obtain ⟨hleft, hright⟩ := hkept c.method _ rfl
    have hnext := hall _ rfl c.method
    rw [hleft, hright, call_kept] at hnext
    simp only [hsubscribes, hfails, true_or, and_self, if_true, Bool.false_eq_true, false_and,
      if_false] at hnext
    exact hnext.symm

theorem Repeats.leaves {c : Call κ} (h : s.Repeats rpcOffset c) : s.Leaves rpcOffset c := by
  intro hfails method
  rw [call_kept]
  by_cases hmethod : c.method = method
  · subst hmethod
    cases hsubscribes : c.op.subscribes with
    | true => simp [h hsubscribes hfails]
    | false => simp [hfails]
  · simp [hmethod]

end State

open Transition

/-- In a run of calls, one behind the other, every call leaves of each method what its last
successful call has established, and one that fails leaves what there was, if and only if
each `subscribe_X` that fails is for the callback that is stored, with the event id
registered. -/
theorem established_iff (rpcOffset : UInt32) (calls : List (Call κ)) :
    (Always (State.step rpcOffset) (State.Established rpcOffset) State.init calls ∧
      Along (State.step rpcOffset) (State.Leaves rpcOffset) State.init calls) ↔
      Along (State.step rpcOffset) (State.Repeats rpcOffset) State.init calls := by
  have hany : Preserves (State.step (κ := κ) rpcOffset) (fun _ _ => True) fun _ => True :=
    fun _ _ _ _ _ _ => trivial
  have halways := hany.always_iff (fun s _ _ _ hs => s.established_step_iff rpcOffset hs) trivial
    (fun method => (rfl : (State.init (κ := κ)).kept rpcOffset method = established [] method))
    (.of_forall (fun _ _ => trivial) State.init calls)
  refine ⟨fun h => halways.mp h.1, fun h => ⟨halways.mpr h, ?_⟩⟩
  have hrepeats : Preserves (State.step (κ := κ) rpcOffset) (State.Repeats rpcOffset)
      fun _ => True := fun _ _ _ _ _ _ => trivial
  exact hrepeats.along (fun s _ _ hs => State.Repeats.leaves rpcOffset s hs) trivial h

/-- The server refuses a subscription: its callback is stored and registered. -/
theorem refused_subscription :
    ¬ Always (State.step (κ := Nat) 1) (State.Established 1) State.init
      [⟨0, .subscribe (some 7) false, ⟨fun _ => false, some [110, 111], false⟩⟩] := by
  intro h
  have hkept := h.2 _ rfl 0
  cases congrArg Prod.snd hkept

end SerialRpc.Callbacks
