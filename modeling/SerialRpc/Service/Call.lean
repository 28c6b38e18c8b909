import SerialRpc.Service.Discovery
import SerialRpc.Service.DynamicSchema

/-!
# The command-line client's `call`, before it calls (cmd/serialrpc/call.cc:261-274, 432-537)

`serialrpc call` is given a method's name and the text of a request. What it does with them
is decided by the reply of the discovery service: which endpoint it calls, and the types it
reads the text and the response with.

- `splitMethod`: the service and the method in a name. `splitMethod_iff`: it is split at the
  last slash, and at the last dot where there is none.
- `cliLookup`: the loop over the services of the reply. Its endpoint is that of `cliEndpoint`.
- `prepareCall`: everything before `call_raw`.
-/

namespace SerialRpc

open Protocol (typeInfoId serviceTypes serviceMethods methodRequestType methodResponseType)

/-! ## The method's name -/

/-- `std::string::rfind` of a character. -/
def rfind (c : UInt8) : Str → Option Nat
  | [] => none
  | b :: s =>
    match rfind c s with
    | some i => some (i + 1)
    | none => if b = c then some 0 else none

/-- `split_method` (call.cc:261-274). -/
def splitMethod (name : Str) : Option (Str × Str) :=
  match (rfind 47 name).or (rfind 46 name) with
  | none => none
  | some separator =>
    if separator = 0 ∨ separator + 1 = name.length then none
    else some (name.take separator, name.drop (separator + 1))

theorem rfind_of_not_mem {c : UInt8} : ∀ {s : Str}, c ∉ s → rfind c s = none
  | [], _ => rfl
  | b :: s, h => by
    have hne : b ≠ c := fun heq => h (heq ▸ List.mem_cons_self)
    rw [rfind, rfind_of_not_mem fun hmem => h (List.mem_cons_of_mem b hmem)]
    exact if_neg hne

theorem rfind_append {c : UInt8} {after : Str} (h : c ∉ after) :
    ∀ before : Str, rfind c (before ++ c :: after) = some before.length
  | [] => by
    rw [List.nil_append, rfind, rfind_of_not_mem h]
    exact if_pos rfl
  | b :: before => by
    rw [List.cons_append, rfind, rfind_append h before]
    rfl

/-- A character that occurs is found where it stands last. -/
theorem exists_rfind {c : UInt8} {s : Str} (h : c ∈ s) :
    ∃ before after, s = before ++ c :: after ∧ c ∉ after ∧ rfind c s = some before.length := by
  obtain ⟨after, before, hsplit, hafter⟩ := List.eq_append_cons_of_mem (List.mem_reverse.mpr h)
  have hs : s = before.reverse ++ c :: after.reverse := by
    rw [← List.reverse_reverse s, hsplit, List.reverse_append, List.reverse_cons,
      List.append_assoc]
    rfl
  have hafter' : c ∉ after.reverse := mt List.mem_reverse.mp hafter
  exact ⟨_, _, hs, hafter', hs ▸ rfind_append hafter' _⟩

/-- A name is split around a separator with something on either side of it. -/
theorem splitMethod_at {name before after : Str} {c : UInt8}
    (hfind : (rfind 47 name).or (rfind 46 name) = some before.length)
    (hname : name = before ++ c :: after) (service short : Str) :
    splitMethod name = some (service, short) ↔
      (before ≠ [] ∧ after ≠ []) ∧ service = before ∧ short = after := by
  have hedge : (before.length = 0 ∨ before.length + 1 = name.length) ↔
      before = [] ∨ after = [] := by
    rw [hname, List.length_append, List.length_cons, ← List.length_eq_zero_iff (l := before),
      ← List.length_eq_zero_iff (l := after)]
    omega
  have htake : name.take before.length = before := by rw [hname, List.take_left]
  have hdrop : name.drop (before.length + 1) = after := by
    rw [hname, List.drop_append, List.drop_of_length_le (Nat.le_succ _), Nat.add_sub_cancel_left]
    rfl
  rw [splitMethod, hfind]
  dsimp only
  rw [htake, hdrop]
  by_cases hempty : before = [] ∨ after = []
  · rw [if_pos (hedge.mpr hempty)]
    constructor
    · nofun
    · rintro ⟨⟨hbefore, hafter⟩, -, -⟩
      rcases hempty with hempty | hempty
      · exact absurd hempty hbefore
      · exact absurd hempty hafter
  · rw [if_neg (mt hedge.mp hempty), Option.some.injEq, Prod.mk.injEq]
    obtain ⟨hbefore, hafter⟩ := not_or.mp hempty
    constructor
    · rintro ⟨rfl, rfl⟩
      exact ⟨⟨hbefore, hafter⟩, rfl, rfl⟩
    · rintro ⟨-, rfl, rfl⟩
      exact ⟨rfl, rfl⟩

/-- A name is split at its last slash, and at its last dot if it has no slash. Neither side
may be empty. -/
theorem splitMethod_iff {name service short : Str} :
    splitMethod name = some (service, short) ↔ service ≠ [] ∧ short ≠ [] ∧
      ((name = service ++ 47 :: short ∧ 47 ∉ short) ∨
        (name = service ++ 46 :: short ∧ 46 ∉ short ∧ 47 ∉ name)) := by
  constructor
  · intro h
    by_cases hslash : 47 ∈ name
    · obtain ⟨before, after, hname, hafter, hfind⟩ := exists_rfind hslash
      obtain ⟨⟨hbefore, hne⟩, rfl, rfl⟩ :=
        (splitMethod_at (by rw [hfind]; rfl) hname service short).mp h
      exact ⟨hbefore, hne, .inl ⟨hname, hafter⟩⟩
    · by_cases hdot : 46 ∈ name
      · obtain ⟨before, after, hname, hafter, hfind⟩ := exists_rfind hdot
        obtain ⟨⟨hbefore, hne⟩, rfl, rfl⟩ :=
          (splitMethod_at (by rw [rfind_of_not_mem hslash, hfind]; rfl) hname service short).mp h
        exact ⟨hbefore, hne, .inr ⟨hname, hafter, hslash⟩⟩
      · rw [splitMethod, rfind_of_not_mem hslash, rfind_of_not_mem hdot] at h
        cases h
  · rintro ⟨hservice, hshort, ⟨rfl, hafter⟩ | ⟨rfl, hafter, hslash⟩⟩
    · exact (splitMethod_at (by rw [rfind_append hafter]; rfl) rfl service short).mpr
        ⟨⟨hservice, hshort⟩, rfl, rfl⟩
    · exact (splitMethod_at (by rw [rfind_of_not_mem hslash, rfind_append hafter]; rfl) rfl
        service short).mpr ⟨⟨hservice, hshort⟩, rfl, rfl⟩

/-! ## The method in the reply -/

/-- `TypeInfo::name`. -/
def Protocol.typeInfoName (t : Protocol.typeInfo.Val) : List UInt8 := t.2.2.1.data

/-- `endpoint_id`, `service_info` and `method_info`. -/
structure CliTarget where
  endpointId : UInt32
  service : Protocol.serviceInfo.Val
  method : Protocol.methodInfo.Val

/-- The loop over the services of the reply (call.cc:450-488). -/
def cliLookup (serviceName shortName : Str) :
    UInt32 → List Protocol.serviceInfo.Val → Option CliTarget
  | _, [] => none
  | endpointId, service :: services =>
    if Protocol.serviceName service ≠ serviceName then
      cliLookup serviceName shortName
        (endpointId + UInt32.ofNat (serviceMethods service).length) services
    else
      ((serviceMethods service).find? fun method =>
          Protocol.methodName method = shortName).map fun target =>
        { endpointId := endpointId + UInt32.ofNat ((serviceMethods service).countP fun method =>
            Protocol.methodId method < Protocol.methodId target)
          service := service
          method := target }

/-- The endpoint is the one that is computed without looking at the rest. -/
theorem cliLookup_endpointId (serviceName shortName : Str) :
    ∀ (endpointId : UInt32) (services : List Protocol.serviceInfo.Val),
      (cliLookup serviceName shortName endpointId services).map CliTarget.endpointId =
        cliEndpoint serviceName shortName endpointId services
  | _, [] => rfl
  | endpointId, service :: services => by
    rw [cliLookup, cliEndpoint]
    split
    · exact cliLookup_endpointId serviceName shortName _ services
    · rw [Option.map_map]
      rfl

/-- What is found is the first service with the name, and its first method with the name. -/
theorem cliLookup_eq_some {serviceName shortName : Str} {target : CliTarget} :
    ∀ {endpointId : UInt32} {services : List Protocol.serviceInfo.Val},
      cliLookup serviceName shortName endpointId services = some target →
      (services.find? fun service => Protocol.serviceName service = serviceName) =
          some target.service ∧
        ((serviceMethods target.service).find? fun method =>
          Protocol.methodName method = shortName) = some target.method
  | _, [], h => by cases h
  | endpointId, service :: services, h => by
    rw [cliLookup] at h
    split at h
    case isTrue hne =>
      obtain ⟨hservice, hmethod⟩ := cliLookup_eq_some h
      refine ⟨?_, hmethod⟩
      rw [List.find?_cons_of_neg (by simpa using hne)]
      exact hservice
    case isFalse heq =>
      obtain ⟨method, hmethod, rfl⟩ := Option.map_eq_some_iff.mp h
      exact ⟨List.find?_cons_of_pos (by simpa using heq), hmethod⟩

/-! ## Before the call -/

/-- `type_name` (call.cc:512-519). -/
def cliTypeName (service : Protocol.serviceInfo.Val) (id : UInt32) : Str :=
  match (serviceTypes service).find? fun type => typeInfoId type = id with
  | some type => Protocol.typeInfoName type
  | none => []

/-- What `call` makes a request of: the endpoint, the method that protobuf has loaded, and
whether there is a request or a response at all. -/
structure PreparedCall where
  endpointId : UInt32
  method : DynamicMethod
  requestIsVoid : Bool
  responseIsVoid : Bool

section Prepare

-- How baselib prints a string for `%q`, and what protobuf makes of a file and of a text.
variable (quote : Str → Str) {Pool : Type} (buildFile : BuildFile Pool)
  (parseFromString : DynamicMethod → Str → Bool)

/-- `call` from the discovery reply on, and up to `call_raw` (call.cc:435-440, 450-537). -/
def prepareCall (methodName requestText : Str) (pool : Pool)
    (services : List Protocol.serviceInfo.Val) : Except SchemaFailure PreparedCall :=
  match splitMethod methodName with
  | none => .error (.reported
      (utf8 "serialrpc: method must be named as <package>.<service>.<method>"))
  | some (serviceName, shortName) =>
    match cliLookup serviceName shortName 1 services with
    | none => .error (.reported
        (utf8 "serialrpc: server does not expose method " ++ quote methodName))
    | some target => do
      let method ←
        (buildMethodDescriptorImpl quote buildFile target.service target.method pool).1
      let requestIsVoid : Bool :=
        cliTypeName target.service (methodRequestType target.method) = utf8 "void"
      let responseIsVoid : Bool :=
        cliTypeName target.service (methodResponseType target.method) = utf8 "void"
      if method.method.clientStreaming || method.method.serverStreaming then
        .error (.reported
          (utf8 "serialrpc: call does not yet support streaming method " ++ quote methodName))
      else if requestIsVoid then
        if requestText.length ≠ 0 then
          .error (.reported (utf8 "serialrpc: method " ++ quote methodName ++
            utf8 " has no request message"))
        else return { endpointId := target.endpointId, method, requestIsVoid, responseIsVoid }
      else if ¬ parseFromString method requestText then
        .error (.reported (utf8 "serialrpc: could not parse request for " ++ quote methodName))
      else return { endpointId := target.endpointId, method, requestIsVoid, responseIsVoid }

end Prepare

end SerialRpc
