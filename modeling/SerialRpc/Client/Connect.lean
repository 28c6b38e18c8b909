import SerialRpc.Client.Input

/-!
# Connecting (client.cc:549-742)

`connect` starts the input worker, which reads the hello and hands its services to the
stubs, and then looks whether every stub has been given the new client. A service goes to
the first stub for it and to no other.

- `connect`: the handshake and the check. The client is new, so no stub has it before.
- `bindAll_getElem`: the only stub for a service is bound behind the services advertised
  before.
- `bindAll_untouched`: a stub with another one for its service before it is left alone.
- `connect_binds_iff`: a client connects exactly if no two of its stubs are for one service.
-/

namespace SerialRpc

open ByteStream

/-! ## The stubs, one by one -/

section Stubs

/-- Binding leaves the stubs what they are. -/
theorem bindAll_info :
    ∀ {defs : List Protocol.serviceDef.Val} {s s' : Handshake}, bindAll defs s = .ok s' →
      s'.stubs.map Stub.info = s.stubs.map Stub.info
  | [], s, s', h => by
    cases h
    rfl
  | d :: defs, s, s', h => by
    obtain ⟨stubs, hstubs, h⟩ := bind_eq_ok h
    rw [bindAll_info h, handleServiceDef_info hstubs]

/-- Where no two stubs are for one service, each is the first for its own. -/
theorem firstStub_getElem {stubs : List Stub}
    (hnodup : (stubs.map fun stub => stub.info.uuid).Nodup) {i : Nat} (hi : i < stubs.length) :
    firstStub stubs[i].info.uuid.bytes stubs = some stubs[i] := by
  have hmem := List.getElem_mem hi
  have hsome : (firstStub stubs[i].info.uuid.bytes stubs).isSome :=
    List.find?_isSome.mpr ⟨stubs[i], hmem, decide_eq_true rfl⟩
  obtain ⟨stub, hstub⟩ := Option.isSome_iff_exists.mp hsome
  have hfound := hstub
  rw [firstStub] at hfound
  have huuid : stub.info.uuid = stubs[i].info.uuid :=
    Uuid.ext (by simpa using List.find?_some hfound)
  rw [hstub, List.inj_on_of_nodup_map hnodup (List.mem_of_find?_eq_some hfound) hmem huuid]

/-- Of stubs for different services, each is bound to the offset of its service. -/
theorem bindAll_getElem {defs : List Protocol.serviceDef.Val} {s s' : Handshake}
    (h : bindAll defs s = .ok s') (hdefs : (defs.map Protocol.defUuid).Nodup)
    (hstubs : (s.stubs.map fun stub => stub.info.uuid).Nodup) {i k : Nat}
    (hi : i < s.stubs.length) (hi' : i < s'.stubs.length) (hk : k < defs.length)
    (huuid : Protocol.defUuid defs[k] = s.stubs[i].info.uuid.bytes) :
    s'.stubs[i] =
      s.stubs[i].bind (s.offset + ((defs.take k).map Protocol.defNumEndpoints).sum) := by
  have hinfo := bindAll_info h
  have hlast : ∀ d ∈ defs.drop (k + 1), Protocol.defUuid d ≠ Protocol.defUuid defs[k] := by
    intro d hd heq
    have hsplit : defs.drop k = defs[k] :: defs.drop (k + 1) := List.drop_eq_getElem_cons hk
    have hrest : ((defs.drop k).map Protocol.defUuid).Nodup :=
      hdefs.sublist ((List.drop_sublist k defs).map _)
    rw [hsplit, List.map_cons, List.nodup_cons, ← heq] at hrest
    exact hrest.1 (List.mem_map_of_mem hd)
  -- No service behind the one advertised has its UUID, so no stub is bound twice.
  have hoffset := bindAll_offset h k hk hlast
  have hstubs' : (s'.stubs.map fun stub => stub.info.uuid).Nodup := by
    have huuids := congrArg (List.map ServiceInfo.uuid) hinfo
    rw [List.map_map, List.map_map] at huuids
    exact huuids.symm ▸ hstubs
  have hsame : s'.stubs[i].info = s.stubs[i].info := by
    have hget := congrArg (fun infos => infos[i]?) hinfo
    simpa [List.getElem?_eq_getElem hi, List.getElem?_eq_getElem hi'] using hget
  -- The UUIDs of the stubs differ, so the first one for the service is the one at hand.
  rw [huuid, firstStub_getElem hstubs hi, ← hsame, firstStub_getElem hstubs' hi'] at hoffset
  exact Option.some.inj hoffset

/-- A stub is left alone by other services, and by its own if another stub for it comes
first. -/
theorem handleServiceDef_untouched {d : Protocol.serviceDef.Val} {offset : Int32} {stub : Stub}
    {after : List Stub} :
    ∀ {before stubs' : List Stub},
      (stub.info.uuid.bytes = Protocol.defUuid d →
        stub.info.uuid ∈ before.map fun stub => stub.info.uuid) →
      handleServiceDef d offset (before ++ stub :: after) = .ok stubs' →
      ∃ before' after', stubs' = before' ++ stub :: after' ∧
        before'.map Stub.info = before.map Stub.info
  | [], stubs', hfirst, h => by
    -- Nothing comes before the stub, so the service is not its own.
    have hne : stub.info.uuid.bytes ≠ Protocol.defUuid d := fun heq => by cases hfirst heq
    simp only [List.nil_append, handleServiceDef, hne, ne_eq, not_false_eq_true, if_true] at h
    cases hrest : handleServiceDef d offset after with
    | error e =>
      rw [hrest] at h
      cases h
    | ok rest =>
      rw [hrest] at h
      cases h
      exact ⟨[], rest, rfl, rfl⟩
  | first :: before, stubs', hfirst, h => by
    simp only [List.cons_append, handleServiceDef] at h
    split at h
    · rename_i hne
      cases hrest : handleServiceDef d offset (before ++ stub :: after) with
      | error e =>
        rw [hrest] at h
        cases h
      | ok rest =>
        rw [hrest] at h
        cases h
        -- Another service than that of the first stub: the loop goes on.
        have hmem : stub.info.uuid.bytes = Protocol.defUuid d →
            stub.info.uuid ∈ before.map fun stub => stub.info.uuid := by
          intro heq
          rcases List.mem_cons.mp (hfirst heq) with hhead | hmem
          · exact absurd ((congrArg Uuid.bytes hhead).symm.trans heq) hne
          · exact hmem
        obtain ⟨before', after', rfl, hinfo⟩ := handleServiceDef_untouched hmem hrest
        exact ⟨first :: before', after', rfl, congrArg (first.info :: ·) hinfo⟩
    · split at h
      · cases h
      · split at h
        · cases h
        · cases h
          -- The first stub is for the service, and the loop returns with it.
          exact ⟨first.bind offset :: before, after, rfl, rfl⟩

/-- Where two stubs are for one service, one of them comes first. -/
theorem exists_repeated :
    ∀ {stubs : List Stub}, ¬ (stubs.map fun stub => stub.info.uuid).Nodup →
      ∃ before stub after, stubs = before ++ stub :: after ∧
        stub.info.uuid ∈ before.map fun stub => stub.info.uuid
  | [], h => absurd List.nodup_nil h
  | first :: stubs, h => by
    by_cases hfirst : first.info.uuid ∈ stubs.map fun stub => stub.info.uuid
    · obtain ⟨stub, hstub, huuid⟩ := List.mem_map.mp hfirst
      obtain ⟨between, after, rfl⟩ := List.append_of_mem hstub
      refine ⟨first :: between, stub, after, rfl, ?_⟩
      rw [huuid]
      exact List.mem_cons_self
    · have hrest : ¬ (stubs.map fun stub => stub.info.uuid).Nodup := fun hrest =>
        h (List.nodup_cons.mpr ⟨hfirst, hrest⟩)
      obtain ⟨before, stub, after, rfl, hmem⟩ := exists_repeated hrest
      exact ⟨first :: before, stub, after, rfl, List.mem_cons_of_mem _ hmem⟩

/-- A stub with another one for its service before it is never bound. -/
theorem bindAll_untouched {stub : Stub} :
    ∀ {defs : List Protocol.serviceDef.Val} {s s' : Handshake}, bindAll defs s = .ok s' →
      ∀ {before after : List Stub}, s.stubs = before ++ stub :: after →
        (stub.info.uuid ∈ before.map fun stub => stub.info.uuid) → stub ∈ s'.stubs
  | [], s, s', h, before, after, hstubs, _ => by
    cases h
    rw [hstubs]
    exact List.mem_append_right _ List.mem_cons_self
  | d :: defs, s, s', h, before, after, hstubs, hmem => by
    obtain ⟨stubs, hhandle, h⟩ := bind_eq_ok h
    rw [hstubs] at hhandle
    obtain ⟨before', after', rfl, hinfo⟩ := handleServiceDef_untouched (fun _ => hmem) hhandle
    have hmem' : stub.info.uuid ∈ before'.map fun stub => stub.info.uuid := by
      have huuids := congrArg (List.map ServiceInfo.uuid) hinfo
      rw [List.map_map, List.map_map] at huuids
      exact huuids.symm ▸ hmem
    exact bindAll_untouched h rfl hmem'

end Stubs

/-! ## Hellos with any services -/

/-- A service that encodes to nothing is one without a UUID and endpoints. -/
theorem serviceDef_eq_default {d : Protocol.serviceDef.Val}
    (h : Protocol.serviceDef.isDefault d = true) : d = Protocol.serviceDef.default :=
  Protocol.serviceDef.received_of_isDefault d h

/-- It is for no stub. -/
theorem handleServiceDef_default (offset : Int32) :
    ∀ stubs : List Stub, handleServiceDef Protocol.serviceDef.default offset stubs = .ok stubs
  | [] => rfl
  | stub :: stubs => by
    have hne : stub.info.uuid.bytes ≠ Protocol.defUuid Protocol.serviceDef.default := by
      intro heq
      have hlen := stub.info.uuid.length_eq
      rw [heq] at hlen
      cases hlen
    simp only [handleServiceDef, hne, ne_eq, not_false_eq_true, if_true,
      handleServiceDef_default offset stubs]
    rfl

/-- A definition that is left out of the hello would not have bound. -/
theorem bindAll_filter :
    ∀ (defs : List Protocol.serviceDef.Val) (s : Handshake),
      bindAll (defs.filter fun d => !Protocol.serviceDef.isDefault d) s = bindAll defs s
  | [], _ => rfl
  | d :: defs, s => by
    cases hd : Protocol.serviceDef.isDefault d with
    | false =>
      simp only [List.filter_cons, hd, Bool.not_false, if_true, bindAll]
      congr 1
      funext stubs
      exact bindAll_filter defs _
    | true =>
      have hdefault := serviceDef_eq_default hd
      have hendpoints : s.offset + Protocol.defNumEndpoints Protocol.serviceDef.default =
          s.offset := Int32.add_zero s.offset
      have hskip : bindAll (d :: defs) s = bindAll defs s := by
        simp only [bindAll, hdefault, handleServiceDef_default, hendpoints, bind, Except.bind]
      rw [List.filter_cons_of_neg (by simp [hd]), hskip]
      exact bindAll_filter defs s

/-- A definition that is a default is left out by the encoder. -/
theorem services_ref_filter {V : Varint} (hV : V.Lawful) (defs : List Protocol.serviceDef.Val) :
    FieldKind.ref V 2 (.repeated Protocol.serviceDef)
        (defs.filter fun d => !Protocol.serviceDef.isDefault d) =
      FieldKind.ref V 2 (.repeated Protocol.serviceDef) defs := by
  induction defs with
  | nil => rfl
  | cons d defs ih =>
    rw [FieldKind.ref, FieldKind.ref] at ih ⊢
    cases hd : Protocol.serviceDef.isDefault d with
    | false => simp only [List.filter_cons, hd, Bool.not_false, if_true, List.flatMap_cons, ih]
    | true =>
      have hnil : wrap V 2 (Protocol.serviceDef.ref V d) = [] :=
        wrap_eq_nil_iff.mpr ((Protocol.serviceDef.ref_eq_nil_iff hV d).mpr hd)
      rw [List.filter_cons_of_neg (by simp [hd]), ih, List.flatMap_cons, hnil, List.nil_append]

/-- A hello whose services accept the stubs is read to its end, and binds them. -/
theorem readServicesDef_bindAll {V : Varint} (hV : V.Lawful)
    {defs : List Protocol.serviceDef.Val} {stubs : List Stub} {s' : Handshake}
    (h : bindAll defs ⟨1, stubs⟩ = .ok s') (rest : List UInt8) :
    readServicesDef V stubs (.ofBytes (Protocol.serverHello.ref V (ProtocolVersion, defs, ()) ++
      [endByte] ++ rest)) = (s'.stubs, .ofBytes rest) := by
  have hloop := readServices_loop hV rest
    (defs.filter fun d => !Protocol.serviceDef.isDefault d)
    (fun d hd => by simpa using (List.mem_filter.mp hd).2) ⟨1, stubs⟩ s'
    ((bindAll_filter defs _).trans h)
  rw [services_ref_filter hV] at hloop
  rw [readServicesDef_ref hV, hloop]

namespace Client

/-! ## `connect` -/

/-- The stubs before the client is made: none has it. -/
def unbound (stubs : List Stub) : List Stub := stubs.map fun stub => { stub with bound := false }

/-- A client that was just made. -/
def newInbox (stubs : List Stub) : Inbox Unit where
  stubs := unbound stubs
  pending := ⟨[], fun _ => none, false⟩
  processed := []

/-- `connect` (client.cc:725-742): the worker's `client_hello`, for whose end or error
`start` waits, and the check of the stubs. The stubs are different objects; one that is
listed twice is found where it comes first. -/
def connect (V : Varint) (stubs : List Stub) (inp : In) : List Stub × In :=
  let hello := Reader.loop (clientHelloRound V) (newInbox stubs) inp
  if hello.1.stubs.all Stub.bound then (hello.1.stubs, hello.2)
  else (hello.1.stubs, hello.2.report (.text "server does not have expected service"))

/-- A service has a stub's UUID, its major version, and at least its minor version. -/
def Provides (d : Protocol.serviceDef.Val) (info : ServiceInfo) : Prop :=
  Protocol.defUuid d = info.uuid.bytes ∧ Protocol.defMajorVersion d = info.majorVersion ∧
    info.minorVersion ≤ Protocol.defMinorVersion d

/-- Each stub has the new client, and one plus the number of the endpoints of the services
before its own as its offset. -/
def AllBound (defs : List Protocol.serviceDef.Val) (stubs stubs' : List Stub) : Prop :=
  List.Forall₂
    (fun stub stub' => ∃ (k : Nat) (h : k < defs.length),
      Protocol.defUuid defs[k] = stub.info.uuid.bytes ∧
        stub' = stub.bind (1 + ((defs.take k).map Protocol.defNumEndpoints).sum))
    stubs stubs'

section Connect

variable {V : Varint}

/-- The loop of `client_hello` ends with the hello. -/
theorem clientHello_open (s : Inbox Unit) (hello : List UInt8) :
    Reader.loop (clientHelloRound V) s
        (.ofBytes (ServerMessageType.serverHello.toUInt8 :: hello)) =
      ({ s with stubs := (readServicesDef V s.stubs (.ofBytes hello)).1 },
        (readServicesDef V s.stubs (.ofBytes hello)).2) := by
  rw [Reader.loop_eq clientHelloRound_productive]
  rfl

/-- Where each stub has its service, no service is refused. -/
theorem accepts_of_provides {defs : List Protocol.serviceDef.Val}
    (hdefs : (defs.map Protocol.defUuid).Nodup) {stubs : List Stub}
    (hprovides : ∀ stub ∈ stubs, ∃ d ∈ defs, Provides d stub.info) :
    ∀ d ∈ defs, ∀ info ∈ stubs.map Stub.info, Accepts d info := by
  intro d hd info hinfo huuid
  obtain ⟨stub, hstub, rfl⟩ := List.mem_map.mp hinfo
  obtain ⟨d', hd', huuid', hmajor, hminor⟩ := hprovides stub hstub
  obtain rfl : d = d' := List.inj_on_of_nodup_map hdefs hd hd' (huuid.symm.trans huuid'.symm)
  exact ⟨hmajor.symm, Int32.not_lt.mpr hminor⟩

@[simp] theorem unbound_info (stubs : List Stub) :
    (unbound stubs).map Stub.info = stubs.map Stub.info := by
  rw [unbound, List.map_map]
  rfl

theorem unbound_uuid (stubs : List Stub) :
    (unbound stubs).map (fun stub => stub.info.uuid) = stubs.map fun stub => stub.info.uuid := by
  rw [unbound, List.map_map]
  rfl

/-- Of two stubs for one service, the second is never bound. -/
theorem unbound_of_not_nodup {defs : List Protocol.serviceDef.Val} {stubs : List Stub}
    (hnodup : ¬ (stubs.map fun stub => stub.info.uuid).Nodup) {s' : Handshake}
    (h : bindAll defs ⟨1, unbound stubs⟩ = .ok s') : ∃ stub ∈ s'.stubs, stub.bound = false := by
  rw [← unbound_uuid] at hnodup
  obtain ⟨before, stub, after, hstubs, hmem⟩ := exists_repeated hnodup
  refine ⟨stub, bindAll_untouched h hstubs hmem, ?_⟩
  have hstub : stub ∈ unbound stubs := hstubs ▸ List.mem_append_right _ List.mem_cons_self
  obtain ⟨made, -, rfl⟩ := List.mem_map.mp hstub
  rfl

/-- Stubs for different services are all bound, each to the offset of its own. -/
theorem allBound_of_nodup {defs : List Protocol.serviceDef.Val}
    (hdefs : (defs.map Protocol.defUuid).Nodup) {stubs : List Stub}
    (hprovides : ∀ stub ∈ stubs, ∃ d ∈ defs, Provides d stub.info)
    (hnodup : (stubs.map fun stub => stub.info.uuid).Nodup) {s' : Handshake}
    (h : bindAll defs ⟨1, unbound stubs⟩ = .ok s') : AllBound defs stubs s'.stubs := by
  have hlen : s'.stubs.length = stubs.length := by
    have hlens := congrArg List.length (bindAll_info h)
    simpa only [unbound, List.length_map] using hlens
  refine List.forall₂_iff_get.mpr ⟨hlen.symm, fun i hi hi' => ?_⟩
  obtain ⟨d, hd, huuid, -, -⟩ := hprovides stubs[i] (List.getElem_mem hi)
  obtain ⟨k, hk, rfl⟩ := List.getElem_of_mem hd
  have hnodup' : ((unbound stubs).map fun stub => stub.info.uuid).Nodup :=
    (unbound_uuid stubs).symm ▸ hnodup
  have hmade : i < (unbound stubs).length := by
    rw [unbound, List.length_map]
    exact hi
  have hsame : (unbound stubs)[i] = { stubs[i] with bound := false } := List.getElem_map _
  have hget := bindAll_getElem h hdefs hnodup' hmade hi' hk (by rw [huuid, hsame])
  refine ⟨k, hk, huuid, ?_⟩
  rw [List.get_eq_getElem, List.get_eq_getElem, hget, hsame]
  rfl

/-- A stub that is bound has the client. -/
theorem AllBound.all_bound {defs : List Protocol.serviceDef.Val} {stubs stubs' : List Stub}
    (h : AllBound defs stubs stubs') : stubs'.all Stub.bound = true := by
  induction h with
  | nil => rfl
  | cons hstub _ ih =>
    obtain ⟨k, hk, -, rfl⟩ := hstub
    rw [List.all_cons, ih]
    rfl

end Connect

/-- On a connection without errors, and with a hello that provides what its stubs are for,
a client connects and binds each stub behind the services advertised before its own, if
and only if no two stubs are for the same service. -/
theorem connect_binds_iff {V : Varint} (hV : V.Lawful) {defs : List Protocol.serviceDef.Val}
    (hdefs : (defs.map Protocol.defUuid).Nodup) {stubs : List Stub}
    (hprovides : ∀ stub ∈ stubs, ∃ d ∈ defs, Provides d stub.info) (rest : List UInt8) :
    ((connect V stubs (.ofBytes (ServerMessageType.serverHello.toUInt8 ::
          (Protocol.serverHello.ref V (ProtocolVersion, defs, ()) ++ [endByte] ++ rest)))).2.err =
        none ∧
      AllBound defs stubs (connect V stubs (.ofBytes (ServerMessageType.serverHello.toUInt8 ::
        (Protocol.serverHello.ref V (ProtocolVersion, defs, ()) ++ [endByte] ++ rest)))).1) ↔
      (stubs.map fun stub => stub.info.uuid).Nodup := by
  have haccepts := accepts_of_provides hdefs hprovides
  rw [← unbound_info] at haccepts
  obtain ⟨s', hs'⟩ := bindAll_accepts (s := ⟨1, unbound stubs⟩) haccepts
  have hread := readServicesDef_bindAll hV hs' rest
  have hconnect : connect V stubs (.ofBytes (ServerMessageType.serverHello.toUInt8 ::
      (Protocol.serverHello.ref V (ProtocolVersion, defs, ()) ++ [endByte] ++ rest))) =
      if s'.stubs.all Stub.bound then (s'.stubs, .ofBytes rest)
      else (s'.stubs, Reader.report (.text "server does not have expected service")
        (.ofBytes rest)) := by
    simp only [connect, clientHello_open, newInbox, hread]
  rw [hconnect]
  constructor
  · rintro ⟨herr, -⟩
    by_contra hnodup
    -- The second stub for a service is never bound, and the check finds it.
    obtain ⟨stub, hstub, hunbound⟩ := unbound_of_not_nodup hnodup hs'
    have hall : s'.stubs.all Stub.bound = false :=
      List.all_eq_false.mpr ⟨stub, hstub, by simp [hunbound]⟩
    rw [hall, if_neg Bool.false_ne_true] at herr
    exact Reader.report_err_ne_none _ _ herr
  · intro hnodup
    have hbound : AllBound defs stubs s'.stubs := allBound_of_nodup hdefs hprovides hnodup hs'
    rw [hbound.all_bound, if_pos rfl]
    exact ⟨rfl, hbound⟩

namespace Sample

/-- A stub for a service whose UUID repeats a byte. -/
def stubFor (byte : UInt8) : Stub where
  info := ⟨[83, byte], [], ⟨List.replicate 16 byte, rfl⟩, 1, 0, 2⟩

/-- The services of a hello: the last one is for no stub below. -/
def advertised : List Protocol.serviceDef.Val :=
  [toServiceDef (stubFor 1).info, toServiceDef (stubFor 2).info, toServiceDef (stubFor 3).info]

theorem advertised_nodup : (advertised.map Protocol.defUuid).Nodup := by
  decide

theorem advertised_provides : ∀ stub ∈ [stubFor 2, stubFor 1], ∃ d ∈ advertised,
    Provides d stub.info := by
  intro stub hstub
  simp only [List.mem_cons, List.not_mem_nil, or_false] at hstub
  rcases hstub with rfl | rfl
  · exact ⟨_, .tail _ (.head _), rfl, rfl, by decide⟩
  · exact ⟨_, .head _, rfl, rfl, by decide⟩

end Sample

/-- The stubs of two services. -/
theorem connect_binds_both :
    (connect .leb128 [Sample.stubFor 2, Sample.stubFor 1]
        (.ofBytes (ServerMessageType.serverHello.toUInt8 :: (Protocol.serverHello.ref .leb128
          (ProtocolVersion, Sample.advertised, ()) ++ [endByte] ++ [])))).2.err = none ∧
      AllBound Sample.advertised [Sample.stubFor 2, Sample.stubFor 1]
        (connect .leb128 [Sample.stubFor 2, Sample.stubFor 1]
          (.ofBytes (ServerMessageType.serverHello.toUInt8 :: (Protocol.serverHello.ref .leb128
            (ProtocolVersion, Sample.advertised, ()) ++ [endByte] ++ [])))).1 :=
  (connect_binds_iff Varint.leb128_lawful Sample.advertised_nodup Sample.advertised_provides
    []).mpr (by decide)

/-- Two stubs for a service that the server has: the second is left unbound, and the client
says that the server does not have the service. -/
theorem connect_second_stub :
    (Sample.advertised.map Protocol.defUuid).Nodup ∧
      (∀ stub ∈ [Sample.stubFor 1, Sample.stubFor 1], ∃ d ∈ Sample.advertised,
        Provides d stub.info) ∧
      ((connect .leb128 [Sample.stubFor 1, Sample.stubFor 1]
        (.ofBytes (ServerMessageType.serverHello.toUInt8 :: (Protocol.serverHello.ref .leb128
          (ProtocolVersion, Sample.advertised, ()) ++ [endByte] ++ [])))).1.map Stub.bound =
        [true, false]) ∧
      (connect .leb128 [Sample.stubFor 1, Sample.stubFor 1]
        (.ofBytes (ServerMessageType.serverHello.toUInt8 :: (Protocol.serverHello.ref .leb128
          (ProtocolVersion, Sample.advertised, ()) ++ [endByte] ++ [])))).2.err =
        some (.text "server does not have expected service") := by
  have hprovides : ∀ stub ∈ [Sample.stubFor 1, Sample.stubFor 1], ∃ d ∈ Sample.advertised,
      Provides d stub.info := by
    intro stub hstub
    simp only [List.mem_cons, List.not_mem_nil, or_false, or_self] at hstub
    obtain rfl := hstub
    exact Sample.advertised_provides _ (.tail _ (.head _))
  have hread := readServicesDef_bindAll Varint.leb128_lawful (show
    bindAll Sample.advertised ⟨1, unbound [Sample.stubFor 1, Sample.stubFor 1]⟩ = .ok _ from rfl) []
  refine ⟨Sample.advertised_nodup, hprovides, ?_, ?_⟩
  · simp only [connect, clientHello_open, newInbox, hread]
    rfl
  · simp only [connect, clientHello_open, newInbox, hread]
    rfl

end Client

end SerialRpc
