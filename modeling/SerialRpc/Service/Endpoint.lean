import SerialRpc.Service.Hello

/-!
# Endpoint ids (server.cc:83-189, protoc_serialrpc_plugin.cc:2953-3125)

A request names its method by an endpoint id, which the parties compute each in its
own way: the server concatenates the dispatch tables of its services, a stub adds its
method's number to the offset it was handed at the handshake, and the command-line
client counts through the reply of `list_services`.

- `Server`, `Server.dispatchTable`, `Server.handleRequest`: the server's side.
- `Stub.endpoint`: the id a stub sends, and registers event callbacks under.
- `Stub.endpoint_bind`, `Server.cliEndpoint_received`, `Server.handleRequest_rank`: each of them
  is the rank of the method's id, behind the offset of its service.
- `stub_reaches_iff`: when the server's service has further methods, the stub's calls
  reach their methods exactly if no further method has an id below one of the stub's.
-/

namespace SerialRpc

open ByteStream

/-! ## The server -/

/-- `Server<Services...>` (server.cc:113-191), with the discovery service first. -/
structure Server where
  services : List ServiceClass
  /-- The endpoint ids fit the `int` they are counted in. -/
  endpoints_lt : (services.map fun c => c.service.methods.length).sum < 2 ^ 31

/-- `dispatch_thunk<ServiceIndex, MethodIndex>`. -/
structure Thunk where
  service : Nat
  method : Nat
deriving DecidableEq, Repr

namespace Server

/-- `describe_service` of every service. -/
def descriptions (s : Server) : List ServiceDescription :=
  s.services.map fun c => describeService c.service

/-- `make_service_dispatch_table<ServiceIndex>`. -/
def serviceDispatchTable (index : Nat) (c : ServiceClass) : List Thunk :=
  (List.range c.dispatchTable.length).map (Thunk.mk index)

/-- The tables of the services, in order. -/
def tables (s : Server) : List (List Thunk) :=
  s.services.zipIdx.map fun p => serviceDispatchTable p.2 p.1

/-- `make_dispatch_table`: the tables of the services, concatenated. -/
def dispatchTable (s : Server) : List Thunk := s.tables.flatten

/-- What a thunk dispatches: a service, by its position, and one of its methods. -/
def dispatchThunk (s : Server) (thunk : Thunk) : Option (Nat × EchoMethod) := do
  let c ← s.services[thunk.service]?
  let method ← c.dispatchTable[thunk.method]?
  return (thunk.service, method)

/-- `handle_request` (server.cc:181-189); `none` is the `Unknown` answer. -/
def handleRequest (s : Server) (rpcId : UInt32) : Option (Nat × EchoMethod) :=
  if rpcId ≥ UInt32.ofNat s.dispatchTable.length then none
  else s.dispatchTable[rpcId.toNat]?.bind s.dispatchThunk

end Server

/-- `start_event` (server_impl.cc:277-284): the type byte and the id, one up from the
`rpc_id` that the subscription was dispatched with. -/
def startEvent (V : Varint) (eventId : UInt32) (out : Writer Err) : Writer Err :=
  let out := out.write [ServerMessageType.event.toUInt8] .baselib
  if out.err.isSome then out else out.write (V.writeUint32 (eventId + 1)) .baselib

/-- The id a stub sends for a method, and under which it registers the callback of a
streaming one: `$id$ + this->rpc_offset` (protoc_serialrpc_plugin.cc:3018, 3109). -/
def Stub.endpoint (stub : Stub) (c : ServiceClass) (name : Str) : UInt32 :=
  (Int32.ofNat (c.stubId name) + stub.rpcOffset).toUInt32

/-! ## The server's table -/

/-- The elements of a list of lists, by the position in the concatenation. -/
theorem getElem?_flatten {α : Type} :
    ∀ (ls : List (List α)) (i k : Nat) (h : i < ls.length), k < ls[i].length →
      ls.flatten[((ls.take i).map List.length).sum + k]? = ls[i][k]?
  | [], i, _, h, _ => absurd h (Nat.not_lt_zero i)
  | l :: ls, 0, k, _, hk => by
    simp only [List.getElem_cons_zero] at hk ⊢
    simp [List.getElem?_append_left hk]
  | l :: ls, i + 1, k, h, hk => by
    have ih := getElem?_flatten ls i k (Nat.lt_of_succ_lt_succ h) hk
    have hle : l.length ≤ l.length + ((ls.take i).map List.length).sum + k := by omega
    have hsub : l.length + ((ls.take i).map List.length).sum + k - l.length =
        ((ls.take i).map List.length).sum + k := by omega
    simp only [List.take_succ_cons, List.map_cons, List.sum_cons, List.flatten_cons,
      List.getElem_cons_succ]
    rw [List.getElem?_append_right hle, hsub, ih]

/-- Every element of a concatenation is one of a list. -/
theorem getElem?_flatten_eq_some {α : Type} {x : α} :
    ∀ {ls : List (List α)} {n : Nat}, ls.flatten[n]? = some x →
      ∃ i, ∃ h : i < ls.length, ∃ k, n = ((ls.take i).map List.length).sum + k ∧
        ls[i][k]? = some x
  | [], _, h => by cases h
  | l :: ls, n, h => by
    rw [List.flatten_cons] at h
    by_cases hn : n < l.length
    · rw [List.getElem?_append_left hn] at h
      exact ⟨0, Nat.zero_lt_succ _, n, (Nat.zero_add n).symm, h⟩
    · rw [List.getElem?_append_right (Nat.le_of_not_lt hn)] at h
      obtain ⟨i, hi, k, hk, hx⟩ := getElem?_flatten_eq_some h
      refine ⟨i + 1, Nat.succ_lt_succ hi, k, ?_, hx⟩
      rw [List.take_succ_cons, List.map_cons, List.sum_cons]
      omega

namespace Server

/-- How many endpoints the services before the `i`-th have. -/
def offset (s : Server) (i : Nat) : Nat :=
  ((s.services.take i).map fun c => c.service.methods.length).sum

theorem tables_map_length (s : Server) :
    s.tables.map List.length = s.services.map fun c => c.service.methods.length := by
  have hlen : List.length ∘ (fun p : ServiceClass × Nat => serviceDispatchTable p.2 p.1) =
      (fun c => c.service.methods.length) ∘ Prod.fst := by
    funext p
    simp [serviceDispatchTable]
  rw [tables, List.map_map, hlen, ← List.map_map, List.zipIdx_map_fst]

theorem tables_take_length (s : Server) (i : Nat) :
    ((s.tables.take i).map List.length).sum = s.offset i := by
  rw [List.map_take, tables_map_length, ← List.map_take]
  rfl

theorem dispatchTable_length (s : Server) :
    s.dispatchTable.length = (s.services.map fun c => c.service.methods.length).sum := by
  rw [dispatchTable, List.length_flatten, tables_map_length]

/-- The endpoints of a service lie within the table. -/
theorem offset_add_lt (s : Server) {i : Nat} (hi : i < s.services.length) {k : Nat}
    (hk : k < s.services[i].service.methods.length) :
    s.offset i + k < s.dispatchTable.length := by
  have hsplit : s.offset i + ((s.services.drop i).map fun c => c.service.methods.length).sum =
      (s.services.map fun c => c.service.methods.length).sum := by
    rw [offset, ← List.sum_append, ← List.map_append, List.take_append_drop]
  rw [List.drop_eq_getElem_cons hi, List.map_cons, List.sum_cons] at hsplit
  rw [dispatchTable_length]
  omega

/-- The entry of a service's table, behind the tables of the services before. -/
theorem handleRequest_offset (s : Server) {i : Nat} (hi : i < s.services.length) {k : Nat}
    (hk : k < s.services[i].service.methods.length) :
    s.handleRequest (UInt32.ofNat (s.offset i + k)) =
      s.services[i].dispatchTable[k]?.map fun method => (i, method) := by
  have hlt := s.offset_add_lt hi hk
  have hbound : s.dispatchTable.length < 2 ^ 31 := s.dispatchTable_length ▸ s.endpoints_lt
  have hid : (UInt32.ofNat (s.offset i + k)).toNat = s.offset i + k := by
    rw [UInt32.toNat_ofNat']
    omega
  have hin : ¬ UInt32.ofNat (s.offset i + k) ≥ UInt32.ofNat s.dispatchTable.length := by
    rw [ge_iff_le, UInt32.le_iff_toNat_le, hid, UInt32.toNat_ofNat']
    omega
  have htables : i < s.tables.length := by simpa [tables] using hi
  have htable : s.tables[i] = serviceDispatchTable i s.services[i] := by
    simp [tables]
  have hlen : k < (serviceDispatchTable i s.services[i]).length := by
    simpa [serviceDispatchTable] using hk
  have hentry : s.dispatchTable[s.offset i + k]? = some ⟨i, k⟩ := by
    rw [dispatchTable, ← s.tables_take_length i,
      getElem?_flatten s.tables i k htables (htable ▸ hlen), htable,
      List.getElem?_eq_getElem hlen]
    simp [serviceDispatchTable]
  rw [handleRequest, if_neg hin, hid, hentry]
  simp only [Option.bind_some, dispatchThunk, List.getElem?_eq_getElem hi, bind, pure]
  cases s.services[i].dispatchTable[k]? <;> rfl

/-- What is dispatched stands in the table of its service. -/
theorem handleRequest_dispatchTable (s : Server) {rpcId : UInt32} {i : Nat} {m : EchoMethod}
    (h : s.handleRequest rpcId = some (i, m)) :
    ∃ c, s.services[i]? = some c ∧ m ∈ c.dispatchTable := by
  unfold handleRequest at h
  split at h
  · cases h
  · obtain ⟨thunk, -, h⟩ := Option.bind_eq_some_iff.mp h
    obtain ⟨c, hc, h⟩ := Option.bind_eq_some_iff.mp h
    obtain ⟨method, hmethod, h⟩ := Option.bind_eq_some_iff.mp h
    cases h
    exact ⟨c, hc, List.mem_of_getElem? hmethod⟩

/-- What is dispatched is a method of the service. -/
theorem handleRequest_mem (s : Server) {rpcId : UInt32} {i : Nat} {m : EchoMethod}
    (h : s.handleRequest rpcId = some (i, m)) : ∃ c ∈ s.services, m ∈ c.service.methods := by
  obtain ⟨c, hc, hmem⟩ := s.handleRequest_dispatchTable h
  rw [c.dispatchTable_eq] at hmem
  exact ⟨c, List.mem_of_getElem? hc, (Rank.sortBy_perm _ _).mem_iff.mp hmem⟩

end Server

/-! ## The client's offset -/

/-- Adding `int`s that were counted is counting together. -/
theorem Int32.sum_map_ofNat (ns : List Nat) : (ns.map Int32.ofNat).sum = Int32.ofNat ns.sum := by
  induction ns with
  | nil => rfl
  | cons n ns ih => rw [List.map_cons, List.sum_cons, List.sum_cons, ih, Int32.ofNat_add]

namespace Server

/-- What the hello says of the services. -/
def serviceDefs (s : Server) : List Protocol.serviceDef.Val :=
  s.descriptions.map fun desc => toServiceDef desc.info

/-- The hello names the services in the order of the server. -/
theorem serviceDefs_eq (s : Server) :
    s.serviceDefs = s.services.map fun c => toServiceDef c.service.info := by
  rw [serviceDefs, descriptions, List.map_map]
  rfl

/-- The hello gives the UUID of a service. -/
theorem defUuid_toServiceDef (info : ServiceInfo) :
    Protocol.defUuid (toServiceDef info) = info.uuid.bytes :=
  InlineString.ofStr_data info.uuid.length_eq.le

/-- The numbers of endpoints in the hello add up to the offsets in the table. -/
theorem serviceDefs_offset (s : Server) (i : Nat) :
    ((s.serviceDefs.take i).map Protocol.defNumEndpoints).sum = Int32.ofNat (s.offset i) := by
  have hcount : (s.serviceDefs.take i).map Protocol.defNumEndpoints =
      ((s.services.take i).map fun c => c.service.methods.length).map Int32.ofNat := by
    rw [serviceDefs_eq, ← List.map_take, List.map_map, List.map_map]
    rfl
  rw [hcount, Int32.sum_map_ofNat, offset]

/-- A client that has read the hello without an error has bound the first stub for a
service to one plus the service's offset in the table, unless a later service has the
same UUID. -/
theorem hello_firstStub {V : Varint} (hV : V.Lawful) (s : Server) {stubs : List Stub}
    {rest : List UInt8}
    (hread : (readServicesDef V stubs (.ofBytes (Protocol.serverHello.ref V
      (ProtocolVersion, s.serviceDefs, ()) ++ [endByte] ++ rest))).2.err = none)
    {i : Nat} (hi : i < s.services.length)
    (hlast : ∀ c ∈ s.services.drop (i + 1), c.service.uuid ≠ s.services[i].service.uuid)
    {stub : Stub} (hstub : firstStub s.services[i].service.uuid.bytes stubs = some stub) :
    firstStub s.services[i].service.uuid.bytes (readServicesDef V stubs (.ofBytes
      (Protocol.serverHello.ref V (ProtocolVersion, s.serviceDefs, ()) ++ [endByte] ++
        rest))).1 = some (stub.bind (Int32.ofNat (1 + s.offset i))) := by
  have hhello := readServicesDef_hello hV s.descriptions stubs rest hread
  change ∃ s', bindAll s.serviceDefs ⟨1, stubs⟩ = .ok s' ∧ readServicesDef V stubs
    (.ofBytes (Protocol.serverHello.ref V (ProtocolVersion, s.serviceDefs, ()) ++ [endByte] ++
      rest)) = (s'.stubs, .ofBytes rest) at hhello
  obtain ⟨s', hbind, hs'⟩ := hhello
  have hlen : i < s.serviceDefs.length := by simpa [serviceDefs_eq] using hi
  have huuid : Protocol.defUuid s.serviceDefs[i] = s.services[i].service.uuid.bytes := by
    simp only [serviceDefs_eq, List.getElem_map]
    exact defUuid_toServiceDef _
  have hlater : ∀ d ∈ s.serviceDefs.drop (i + 1),
      Protocol.defUuid d ≠ Protocol.defUuid s.serviceDefs[i] := by
    intro d hd heq
    rw [serviceDefs_eq, ← List.map_drop] at hd
    obtain ⟨c, hc, rfl⟩ := List.mem_map.mp hd
    rw [huuid, defUuid_toServiceDef] at heq
    exact hlast c hc (Uuid.ext heq)
  have hoffset := bindAll_offset hbind i hlen hlater
  rw [serviceDefs_offset, huuid] at hoffset
  rw [hs', hoffset, hstub, Int32.ofNat_add]
  rfl

end Server

/-- The id a bound stub sends: the method's rank behind the service's offset. -/
theorem Stub.endpoint_bind (stub : Stub) (c : ServiceClass) {m : EchoMethod}
    (hm : m ∈ c.service.methods) (offset : Nat) :
    (stub.bind (Int32.ofNat (1 + offset))).endpoint c m.name =
      UInt32.ofNat (1 + (offset +
        Rank.rank EchoMethod.methodId c.service.methods m.methodId)) := by
  rw [Stub.endpoint, Stub.bind, c.stubId_eq_rank hm, ← Int32.ofNat_add, Int32.toUInt32_ofNat']
  congr 1
  omega

/-! ## The command-line client's count -/

section Cli

/-- Counting the smaller ids of the reply counts the smaller ids of the service. -/
theorem EchoService.countP_value (s : EchoService) (full : Bool) {m : EchoMethod}
    (hm : m ∈ s.methods) :
    ((describeService s).methods.map (MethodInfo.value s.types full)).countP
        (fun method => Protocol.methodId method < UInt32.ofNat m.methodId) =
      Rank.rank EchoMethod.methodId s.methods m.methodId := by
  rw [describeService, List.map_map, List.countP_map, Rank.rank]
  refine List.countP_congr fun m' hm' => ?_
  have hlt := s.methodId_lt m hm
  have hlt' := s.methodId_lt m' hm'
  show decide (UInt32.ofNat m'.methodId < UInt32.ofNat m.methodId) = true ↔ _
  rw [decide_eq_true_iff, decide_eq_true_iff, UInt32.lt_iff_toNat_lt, UInt32.toNat_ofNat',
    UInt32.toNat_ofNat', Nat.mod_eq_of_lt hlt, Nat.mod_eq_of_lt hlt']

/-- Looking for a method of the service by name finds it in the reply. -/
theorem EchoService.find?_value (s : EchoService) (full : Bool)
    (hfits : (describeService s).Fits) {m : EchoMethod} (hm : m ∈ s.methods) :
    ((describeService s).methods.map (MethodInfo.value s.types full)).find?
        (fun method => Protocol.methodName method = m.name) =
      some (m.info.value s.types full) := by
  have hname : ∀ m' ∈ s.methods, Protocol.methodName (m'.info.value s.types full) = m'.name :=
    fun m' hm' => InlineString.ofStr_data (hfits.methods m'.info (List.mem_map_of_mem hm'))
  rw [describeService, List.map_map, List.find?_map]
  generalize hp : ((fun method => decide (Protocol.methodName method = m.name)) ∘
    MethodInfo.value s.types full ∘ EchoMethod.info) = p
  have hpm : ∀ m' ∈ s.methods, p m' = true ↔ m'.name = m.name := by
    intro m' hm'
    rw [← hname m' hm', ← hp]
    exact decide_eq_true_iff
  obtain ⟨m', hfind⟩ := Option.isSome_iff_exists.mp
    (List.find?_isSome.mpr ⟨m, hm, (hpm m hm).mpr rfl⟩)
  have hm' := List.mem_of_find?_eq_some hfind
  have heq := s.eq_of_name_eq hm' hm ((hpm m' hm').mp (List.find?_some hfind))
  rw [hfind, heq]
  rfl

end Cli

namespace Server

/-- What the discovery reply asks of a server: services with distinct full names, and
names that fit. -/
structure Described (s : Server) : Prop where
  names : (s.services.map fun c => c.service.info.qualifiedName).Nodup
  fits : ∀ c ∈ s.services, (describeService c.service).Fits

/-- No service is without a name. -/
theorem qualifiedName_ne_nil (s : EchoService) : s.info.qualifiedName ≠ [] := by
  unfold ServiceInfo.qualifiedName
  split
  · exact s.name_ne_nil
  · simp

/-- All names of a described server fit. -/
theorem Described.fits_descriptions {s : Server} (h : s.Described) :
    ∀ desc ∈ s.descriptions, desc.Fits := by
  intro desc hdesc
  obtain ⟨c, hc, rfl⟩ := List.mem_map.mp hdesc
  exact h.fits c hc

/-- The services the command-line client decodes from the reply. -/
def received (s : Server) (full : Bool) : List Protocol.serviceInfo.Val :=
  s.services.map fun c => Protocol.serviceInfo.received ((describeService c.service).value full)

/-- The client decodes the services that the server has. -/
theorem Described.responseServices_eq {s : Server} (h : s.Described) (full : Bool) :
    Protocol.responseServices (Protocol.listServicesResponse.received
      (ListServicesResponse.ofDescriptions s.descriptions full)) = s.received full := by
  have hname : ∀ desc ∈ s.descriptions, desc.info.qualifiedName ≠ [] ∧
      desc.info.qualifiedName.length ≤ 128 := by
    intro desc hdesc
    refine ⟨?_, (h.fits_descriptions desc hdesc).name⟩
    obtain ⟨c, -, rfl⟩ := List.mem_map.mp hdesc
    exact qualifiedName_ne_nil c.service
  rw [responseServices_received full hname, descriptions, List.map_map]
  rfl

/-- Of services with distinct UUIDs, each is the last with its own. -/
theorem uuid_last {s : Server} (h : (s.services.map fun c => c.service.uuid).Nodup) {i : Nat}
    (hi : i < s.services.length) :
    ∀ c ∈ s.services.drop (i + 1), c.service.uuid ≠ s.services[i].service.uuid := by
  intro c hc
  have hdrop := (List.pairwise_map.mp h).sublist (List.drop_sublist i _)
  rw [List.drop_eq_getElem_cons hi] at hdrop
  exact ((List.pairwise_cons.mp hdrop).1 c hc).symm

theorem received_methods (c : ServiceClass) (full : Bool) :
    Protocol.serviceMethods (Protocol.serviceInfo.received
      ((describeService c.service).value full)) =
      (describeService c.service).methods.map (MethodInfo.value c.service.types full) := by
  refine ServiceDescription.received_methods full fun method hmethod => ?_
  obtain ⟨m, hm, rfl⟩ := List.mem_map.mp hmethod
  have hne := c.service.methodId_ne_zero m hm
  have hlt := c.service.methodId_lt m hm
  intro hzero
  have hnat := congrArg UInt32.toNat hzero
  rw [EchoMethod.info, UInt32.toNat_ofNat', Nat.mod_eq_of_lt hlt] at hnat
  exact hne hnat

/-- The id the command-line client computes: the rank behind the offset. -/
theorem cliEndpoint_received {s : Server} (h : s.Described) (full : Bool) {i : Nat}
    (hi : i < s.services.length) {m : EchoMethod} (hm : m ∈ s.services[i].service.methods) :
    cliEndpoint s.services[i].service.info.qualifiedName m.name 1 (s.received full) =
      some (UInt32.ofNat (1 + (s.offset i +
        Rank.rank EchoMethod.methodId s.services[i].service.methods m.methodId))) := by
  have hname : ∀ c ∈ s.services, Protocol.serviceName (Protocol.serviceInfo.received
      ((describeService c.service).value full)) = c.service.info.qualifiedName :=
    fun c hc => InlineString.ofStr_data (h.fits c hc).name
  have hlen : i < (s.received full).length := by simpa [received] using hi
  have hself : Protocol.serviceName (s.received full)[i] =
      s.services[i].service.info.qualifiedName := by
    simp only [received, List.getElem_map]
    exact hname _ (List.getElem_mem hi)
  -- Names are unique, so the search by name does not stop before this service.
  have hbefore : ∀ j (hj : j < i), Protocol.serviceName (s.received full)[j] ≠
      s.services[i].service.info.qualifiedName := by
    intro j hj heq
    simp only [received, List.getElem_map] at heq
    rw [hname _ (List.getElem_mem _)] at heq
    have hj' : j < s.services.length := hj.trans hi
    have hij := (List.pairwise_iff_getElem.mp (List.pairwise_map.mp h.names)) j i hj' hi hj
    exact hij heq
  -- What the reply says of the services in front is how many methods they have.
  have hcount : ((s.received full).take i).map
      (fun service => (Protocol.serviceMethods service).length) =
      (s.services.take i).map fun c => c.service.methods.length := by
    rw [received, ← List.map_take, List.map_map]
    refine List.map_congr_left fun c _ => ?_
    rw [Function.comp_apply, received_methods, List.length_map, describeService, List.length_map]
  have hmethods : Protocol.serviceMethods (s.received full)[i] =
      (describeService s.services[i].service).methods.map
        (MethodInfo.value s.services[i].service.types full) := by
    simp only [received, List.getElem_map]
    exact received_methods _ full
  have hfits := h.fits _ (List.getElem_mem hi)
  rw [cliEndpoint_eq _ _ _ _ i hlen hself hbefore, hmethods, hcount,
    EchoService.find?_value _ full hfits hm, Option.map_some]
  have hrank := EchoService.countP_value s.services[i].service full hm
  rw [show Protocol.methodId (m.info.value s.services[i].service.types full) =
    UInt32.ofNat m.methodId from rfl, hrank, UInt32.ofNat_add 1]
  rfl

/-- The id a stub of a service sends, where it reaches the table: the method there. -/
theorem handleRequest_rank (s : Server) {i : Nat} (hi : i < s.services.length) {m : EchoMethod}
    (hm : m ∈ s.services[i].service.methods) :
    s.handleRequest (UInt32.ofNat (s.offset i +
      Rank.rank EchoMethod.methodId s.services[i].service.methods m.methodId)) = some (i, m) := by
  rw [s.handleRequest_offset hi (Rank.rank_lt_length hm),
    s.services[i].dispatchTable_getElem? hm]
  rfl

end Server

/-- The table's entry at some position is the method with an id exactly if the position
is the id's rank. -/
theorem ServiceClass.dispatchTable_methodId (c : ServiceClass) {m : EchoMethod}
    (hm : m ∈ c.service.methods) {k : Nat} (hk : k < c.service.methods.length) :
    (∃ m', c.dispatchTable[k]? = some m' ∧ m'.methodId = m.methodId) ↔
      k = Rank.rank EchoMethod.methodId c.service.methods m.methodId := by
  constructor
  · rintro ⟨m', hm', heq⟩
    have hperm := Rank.sortBy_perm EchoMethod.methodId c.service.methods
    rw [c.dispatchTable_eq] at hm'
    obtain ⟨hk', rfl⟩ := List.getElem?_eq_some_iff.mp hm'
    rw [← Rank.rank_perm hperm, ← heq]
    exact (Rank.rank_getElem (Rank.sortBy_increasing c.service.methodIds_nodup) k hk').symm
  · rintro rfl
    exact ⟨m, c.dispatchTable_getElem? hm, rfl⟩

/-- A method is dispatched by no other id. -/
theorem Server.handleRequest_eq_rank (s : Server) {rpcId : UInt32} {i : Nat} {m : EchoMethod}
    (h : s.handleRequest rpcId = some (i, m)) :
    ∃ hi : i < s.services.length, m ∈ s.services[i].service.methods ∧
      rpcId = UInt32.ofNat (s.offset i +
        Rank.rank EchoMethod.methodId s.services[i].service.methods m.methodId) := by
  unfold handleRequest at h
  split at h
  · cases h
  · obtain ⟨thunk, hthunk, h⟩ := Option.bind_eq_some_iff.mp h
    obtain ⟨c, hc, h⟩ := Option.bind_eq_some_iff.mp h
    obtain ⟨method, hmethod, h⟩ := Option.bind_eq_some_iff.mp h
    cases h
    -- The thunk stands where its own service's table has it.
    obtain ⟨j, hj, k, hindex, hentry⟩ := getElem?_flatten_eq_some hthunk
    have hlen : j < s.services.length := by simpa [tables] using hj
    have htable : s.tables[j] = serviceDispatchTable j s.services[j] := by simp [tables]
    rw [htable, serviceDispatchTable, List.getElem?_map] at hentry
    obtain ⟨k', hk', rfl⟩ := Option.map_eq_some_iff.mp hentry
    obtain ⟨hk, rfl⟩ := List.getElem?_eq_some_iff.mp hk'
    rw [List.getElem_range] at hmethod
    rw [List.length_range, ServiceClass.dispatchTable_length] at hk
    obtain ⟨_, rfl⟩ := List.getElem?_eq_some_iff.mp hc
    have hmem : m ∈ s.services[j].service.methods := by
      have hmem := List.mem_of_getElem? hmethod
      rw [ServiceClass.dispatchTable_eq] at hmem
      exact (Rank.sortBy_perm _ _).mem_iff.mp hmem
    refine ⟨hlen, hmem, ?_⟩
    have hrank := (s.services[j].dispatchTable_methodId hmem hk).mp ⟨m, hmethod, rfl⟩
    rw [← hrank, ← s.tables_take_length j, ← hindex, UInt32.ofNat_toNat]

/-- An id that goes up by one and down by one is the same. -/
theorem UInt32.ofNat_one_add_sub_one (n : Nat) : UInt32.ofNat (1 + n) - 1 = UInt32.ofNat n := by
  rw [Nat.add_comm, UInt32.ofNat_add]
  exact UInt32.add_sub_cancel _ _

/-- A client reads the hello without an error when each service accepts each stub for it. -/
theorem Server.hello_accepts {V : Varint} (hV : V.Lawful) (s : Server) {hello : List UInt8}
    (hhello : serverHello V s.descriptions {} =
      .ok { written := ServerMessageType.serverHello.toUInt8 :: hello })
    {stubs : List Stub} (rest : List UInt8)
    (h : ∀ desc ∈ s.descriptions, ∀ stub ∈ stubs, Accepts (toServiceDef desc.info) stub.info) :
    (readServicesDef V stubs (.ofBytes (hello ++ rest))).2.err = none := by
  have hopen : Writer.Open ({} : Writer Err) := ⟨rfl, rfl⟩
  rw [serverHello_open hV s.descriptions hopen] at hhello
  have hbytes := congrArg Writer.written (Except.ok.inj hhello)
  obtain rfl := (List.cons.inj hbytes).2
  exact readServicesDef_accepts hV s.descriptions stubs rest h

namespace Sample

/-- A method without request and response. -/
def method (name : Str) (id : Nat) : EchoMethod where
  name := name
  methodId := id
  parameter := none
  result := none
  clientStreaming := false
  serverStreaming := false
  inputType := ⟨0, .message⟩
  outputType := ⟨0, .message⟩

/-- A service of one file. -/
def only (s : EchoService) : ServiceClass := ⟨[s], 0, Nat.one_pos⟩

/-- A service with one method, first in the server below. -/
def discovery : EchoService where
  name := [68]
  package := [115]
  uuid := ⟨List.replicate 16 1, rfl⟩
  majorVersion := 1
  minorVersion := 0
  methods := [method [108] 1]
  types := []
  methodId_lt := by decide
  methodId_ne_zero := by decide
  methodIds_nodup := by decide
  name_ne_nil := by decide
  names_nodup := by decide

/-- A version of `Counter`. -/
def counterOf (minorVersion : Int32) (methods : List EchoMethod)
    (hlt : ∀ m ∈ methods, m.methodId < 2 ^ 32) (hne : ∀ m ∈ methods, m.methodId ≠ 0)
    (hids : (methods.map EchoMethod.methodId).Nodup)
    (hnames : (methods.map EchoMethod.name).Nodup) : EchoService where
  name := [67]
  package := []
  uuid := ⟨List.replicate 16 7, rfl⟩
  majorVersion := 1
  minorVersion := minorVersion
  methods := methods
  types := []
  methodId_lt := hlt
  methodId_ne_zero := hne
  methodIds_nodup := hids
  name_ne_nil := by decide
  names_nodup := hnames

/-- `Counter` 1.0, with methods 1 and 3. -/
def counter : EchoService :=
  counterOf 0 [method [97] 1, method [99] 3] (by decide) (by decide) (by decide) (by decide)

/-- `Counter` 1.1, with a further method 2. -/
def counterNext : EchoService :=
  counterOf 1 [method [99] 3, method [97] 1, method [98] 2]
    (by decide) (by decide) (by decide) (by decide)

/-- A server of `Counter` 1.1, behind the discovery service. -/
def server : Server where
  services := [only discovery, only counterNext]
  endpoints_lt := by decide

theorem server_described : server.Described where
  names := by decide
  fits c hc := by
    simp only [server, List.mem_cons, List.not_mem_nil, or_false] at hc
    rcases hc with rfl | rfl
    · exact ⟨by decide, by decide, fun type htype => by cases htype⟩
    · exact ⟨by decide, by decide, fun type htype => by cases htype⟩

/-- A client with a stub of `Counter` 1.0. -/
def oldStub : Stub := { info := counter.info }

theorem accepts_oldStub : ∀ desc ∈ server.descriptions, ∀ stub ∈ [oldStub],
    Accepts (toServiceDef desc.info) stub.info := by
  decide

end Sample

/-! ## A server with more methods -/

/-- A service has every method id of another, with the same request and response. -/
def EchoService.Extends (s s' : EchoService) : Prop :=
  ∀ m ∈ s'.methods, ∃ m' ∈ s.methods,
    m'.methodId = m.methodId ∧ m'.parameter = m.parameter ∧ m'.result = m.result

/-- No further method has an id below one of the smaller service's. -/
def EchoService.ExtendsAbove (s s' : EchoService) : Prop :=
  ∀ m' ∈ s.methods, ∀ m ∈ s'.methods, m'.methodId < m.methodId →
    m'.methodId ∈ s'.methods.map EchoMethod.methodId

/-- Every call of the stub is dispatched to the service's method with the same id. -/
def Stub.Reaches (bound : Stub) (c : ServiceClass) (server : Server) (i : Nat) : Prop :=
  ∀ m ∈ c.service.methods, ∃ m',
    server.handleRequest (bound.endpoint c m.name - 1) = some (i, m') ∧
      m'.methodId = m.methodId

theorem EchoService.Extends.methodId_mem {s s' : EchoService} (h : s.Extends s') :
    ∀ m ∈ s'.methods, m.methodId ∈ s.methods.map EchoMethod.methodId := by
  intro m hm
  obtain ⟨m', hm', heq, -⟩ := h m hm
  exact heq ▸ List.mem_map_of_mem hm'

/-- A service that is extended has at least as many methods. -/
theorem EchoService.Extends.length_le {s s' : EchoService} (h : s.Extends s') :
    s'.methods.length ≤ s.methods.length := by
  have hsub : s'.methods.map EchoMethod.methodId ⊆ s.methods.map EchoMethod.methodId := by
    intro id hid
    obtain ⟨m, hm, rfl⟩ := List.mem_map.mp hid
    exact h.methodId_mem m hm
  simpa using (List.subperm_of_subset s'.methodIds_nodup hsub).length_le

/-- A stub that is bound to its service's offset reaches the methods with its ids exactly
if every id has the same rank on both sides. -/
theorem Stub.bind_reaches_iff (stub : Stub) (c : ServiceClass) (server : Server) {i : Nat}
    (hi : i < server.services.length)
    (hext : server.services[i].service.Extends c.service) :
    (stub.bind (Int32.ofNat (1 + server.offset i))).Reaches c server i ↔
      server.services[i].service.ExtendsAbove c.service := by
  have hreach : ∀ m ∈ c.service.methods,
      ((∃ m', server.handleRequest
          ((stub.bind (Int32.ofNat (1 + server.offset i))).endpoint c m.name - 1) = some (i, m') ∧
          m'.methodId = m.methodId) ↔
        Rank.rank EchoMethod.methodId c.service.methods m.methodId =
          Rank.rank EchoMethod.methodId server.services[i].service.methods m.methodId) := by
    intro m hm
    -- The stub has fewer ids below this one than the server has methods.
    have hk : Rank.rank EchoMethod.methodId c.service.methods m.methodId <
        server.services[i].service.methods.length :=
      (Rank.rank_lt_length hm).trans_le hext.length_le
    obtain ⟨m', hm', heq, -⟩ := hext m hm
    have htable := server.services[i].dispatchTable_methodId hm' hk
    rw [heq] at htable
    rw [stub.endpoint_bind c hm, UInt32.ofNat_one_add_sub_one, server.handleRequest_offset hi hk,
      ← htable]
    constructor
    · rintro ⟨m'', hm'', hid⟩
      obtain ⟨_, hentry, hpair⟩ := Option.map_eq_some_iff.mp hm''
      cases hpair
      exact ⟨m'', hentry, hid⟩
    · rintro ⟨m'', hm'', hid⟩
      exact ⟨m'', by rw [hm'']; rfl, hid⟩
  -- So the call is for the same id exactly where the two ranks agree.
  have hrank := Rank.rank_eq_rank_iff c.service.methodIds_nodup
    server.services[i].service.methodIds_nodup hext.methodId_mem
  constructor
  · intro h m' hm' m hm hlt
    exact (hrank m.methodId).mp ((hreach m hm).mp (h m hm)) m' hm' hlt
  · intro h m hm
    refine (hreach m hm).mpr ((hrank m.methodId).mpr ?_)
    exact fun m' hm' hlt => h m' hm' m hm hlt

/-- A stub's calls reach the methods with their ids exactly if the server's service has
no further method with an id below one of the stub's. -/
theorem stub_reaches_iff {V : Varint} (hV : V.Lawful) (server : Server) :
    ∃ hello : List UInt8,
      serverHello V server.descriptions {} =
        .ok { written := ServerMessageType.serverHello.toUInt8 :: hello } ∧
      ∀ (stubs : List Stub) (rest : List UInt8),
        (readServicesDef V stubs (.ofBytes (hello ++ rest))).2.err = none →
      ∀ (i : Nat) (hi : i < server.services.length) (c : ServiceClass) (stub : Stub),
        c.service.uuid = server.services[i].service.uuid →
        (∀ c' ∈ server.services.drop (i + 1), c'.service.uuid ≠ c.service.uuid) →
        server.services[i].service.Extends c.service →
        firstStub c.service.uuid.bytes stubs = some stub →
      ∃ bound, firstStub c.service.uuid.bytes
          (readServicesDef V stubs (.ofBytes (hello ++ rest))).1 = some bound ∧
        (bound.Reaches c server i ↔
          server.services[i].service.ExtendsAbove c.service) := by
  have hopen : Writer.Open ({} : Writer Err) := ⟨rfl, rfl⟩
  have hhello := serverHello_open hV server.descriptions hopen
  refine ⟨_, hhello, ?_⟩
  intro stubs rest hread i hi c stub huuid hlast hext hstub
  rw [huuid] at hstub hlast ⊢
  exact ⟨_, server.hello_firstStub hV hread hi hlast hstub,
    stub.bind_reaches_iff c server hi hext⟩

theorem Sample.counterNext_extends : counterNext.Extends counter := by
  intro m hm
  simp only [counter, counterOf, List.mem_cons, List.not_mem_nil, or_false] at hm
  rcases hm with rfl | rfl
  · exact ⟨method [97] 1, .tail _ (.head _), rfl, rfl, rfl⟩
  · exact ⟨method [99] 3, .head _, rfl, rfl, rfl⟩

theorem stub_reaches_iff_counter :
    ∃ hello : List UInt8,
      serverHello Varint.leb128 Sample.server.descriptions {} =
        .ok { written := ServerMessageType.serverHello.toUInt8 :: hello } ∧
      ∃ bound, firstStub Sample.counter.uuid.bytes
          (readServicesDef Varint.leb128 [Sample.oldStub] (.ofBytes (hello ++ []))).1 =
          some bound ∧
        (bound.Reaches (Sample.only Sample.counter) Sample.server 1 ↔
          Sample.counterNext.ExtendsAbove Sample.counter) := by
  obtain ⟨hello, hhello, hall⟩ := stub_reaches_iff Varint.leb128_lawful Sample.server
  have hread := Sample.server.hello_accepts Varint.leb128_lawful hhello [] Sample.accepts_oldStub
  exact ⟨hello, hhello, hall _ [] hread 1 (by decide) (Sample.only Sample.counter) _ rfl
    (by decide) Sample.counterNext_extends rfl⟩

/-- A method 2 between the methods 1 and 3 of an accepted stub: its call of 3 runs 2. -/
theorem inserted_method_misroutes :
    ∃ hello : List UInt8,
      serverHello Varint.leb128 Sample.server.descriptions {} =
        .ok { written := ServerMessageType.serverHello.toUInt8 :: hello } ∧
      (readServicesDef Varint.leb128 [Sample.oldStub] (.ofBytes (hello ++ []))).2.err = none ∧
      Sample.counterNext.Extends Sample.counter ∧
      ∃ bound, firstStub Sample.counter.uuid.bytes
          (readServicesDef Varint.leb128 [Sample.oldStub] (.ofBytes (hello ++ []))).1 =
          some bound ∧
        Sample.server.handleRequest
          (bound.endpoint (Sample.only Sample.counter) (Sample.method [99] 3).name - 1) =
          some (1, Sample.method [98] 2) ∧
        ¬ bound.Reaches (Sample.only Sample.counter) Sample.server 1 := by
  have hopen : Writer.Open ({} : Writer Err) := ⟨rfl, rfl⟩
  have hhello := serverHello_open Varint.leb128_lawful Sample.server.descriptions hopen
  have hread := Sample.server.hello_accepts Varint.leb128_lawful hhello [] Sample.accepts_oldStub
  have hi : 1 < Sample.server.services.length := by decide
  have hlast : ∀ c ∈ Sample.server.services.drop 2,
      c.service.uuid ≠ Sample.counterNext.uuid := by decide
  refine ⟨_, hhello, hread, Sample.counterNext_extends, _,
    Sample.server.hello_firstStub Varint.leb128_lawful hread hi hlast rfl, rfl, ?_⟩
  rw [Sample.oldStub.bind_reaches_iff (Sample.only Sample.counter) Sample.server hi
    Sample.counterNext_extends]
  intro habove
  have hmem := habove (Sample.method [98] 2) (.tail _ (.tail _ (.head _)))
    (Sample.method [99] 3) (.tail _ (.head _)) (by decide)
  exact absurd hmem (by decide)

end SerialRpc
