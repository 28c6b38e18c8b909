import SerialRpc.Rpc
import SerialRpc.Service.Discovery

/-!
# The handshake's service list (server_impl.cc:298-325, client.cc:603-685)

The server's hello names its services with their numbers of endpoints; the client
walks through them with a running offset and hands each stub the offset of its
service.

- `serverHello`: the bytes the server writes. They are the encoding of a `ServerHello`
  behind its type byte (`serverHello_open`).
- `readServicesDef`: the client's loop, with `handleServiceDef` as its step.
- `bindAll`: the same over a list of decoded services, with no bytes in it. A hello that
  is read without an error has bound the stubs so (`readServicesDef_hello`), and then
  the first stub of a service has one plus the endpoints of the services before as its
  offset (`bindAll_offset`).
-/

namespace SerialRpc

open ByteStream

/-! ## The server -/

/-- `to_service_def` (server.cc:54-62). `num_endpoints` turns from `uint32` to `int32`. -/
def toServiceDef (info : ServiceInfo) : Protocol.serviceDef.Val :=
  (.ofStr 16 info.uuid.bytes, info.majorVersion, info.minorVersion,
    info.numEndpoints.toInt32, ())

section Server

variable (V : Varint)

/-- `Server::send_service_description` (server.cc:193-199), with a stack of its own. -/
def sendServiceDescription (service : Protocol.serviceDef.Val) (out : Writer Err) :
    Except Panic (Writer Err) := do
  let m ← marshalFieldMessage 2 (Protocol.serviceDef.marshal V service) ⟨out, .empty⟩
  return m.out

/-- `Server::send_services_descriptions` (server.cc:200-213). -/
def sendServicesDescriptions : List ServiceDescription → Writer Err → Except Panic (Writer Err)
  | [], out => return out
  | desc :: descs, out => do
    let out ← sendServiceDescription V (toServiceDef desc.info) out
    if out.err.isSome then return out
    sendServicesDescriptions descs out

/-- `ServerBase::server_hello` (server_impl.cc:298-330). -/
def serverHello (services : List ServiceDescription) (out : Writer Err) :
    Except Panic (Writer Err) := do
  let out := out.write [ServerMessageType.serverHello.toUInt8] .baselib
  if out.err.isSome then return out
  let out := writeTag V 1 .varInt out
  if out.err.isSome then return out
  let out := out.write (V.writeUint32 ProtocolVersion) .baselib
  if out.err.isSome then return out
  let out ← sendServicesDescriptions V services out
  if out.err.isSome then return out
  return out.write [endByte] .baselib

end Server

section ServerBytes

variable {V : Varint}

theorem sendServicesDescriptions_open (hV : V.Lawful) :
    ∀ (services : List ServiceDescription) {out : Writer Err}, out.Open →
      sendServicesDescriptions V services out =
        .ok (out.append (FieldKind.ref V 2 (.repeated Protocol.serviceDef)
          (services.map fun desc => toServiceDef desc.info)))
  | [], out, _ => by simp [sendServicesDescriptions, FieldKind.ref, pure, Except.pure]
  | desc :: descs, out, h => by
    have hemits := (Protocol.serviceDef.marshal_emits hV (toServiceDef desc.info)).message 2
    have hsend : sendServiceDescription V (toServiceDef desc.info) out =
        .ok (out.append (wrap V 2 (Protocol.serviceDef.ref V (toServiceDef desc.info)))) := by
      have hdepth := Protocol.serviceDef.depth_le_height (toServiceDef desc.info)
      have hlevels : 0 + (Protocol.serviceDef.depth (toServiceDef desc.info) + 1) ≤ MaxNesting :=
        (Nat.zero_add _).trans_le ((Nat.succ_le_succ hdepth).trans (by decide))
      have hemit := hemits ⟨out, .empty⟩ h hlevels
      have hout := Marshaller.emit_empty_out (V := V) out
        (wrap V 2 (Protocol.serviceDef.ref V (toServiceDef desc.info)))
      rw [sendServiceDescription, hemit]
      exact congrArg Except.ok hout
    have ih := sendServicesDescriptions_open hV descs
      (h.append (wrap V 2 (Protocol.serviceDef.ref V (toServiceDef desc.info))))
    simp only [sendServicesDescriptions, hsend, bind, Except.bind, Writer.append_err, h.err,
      Option.isSome_none, ih, Writer.append_append]
    rfl

/-- The hello is the type byte and the encoding of a `ServerHello`. -/
theorem serverHello_open (hV : V.Lawful) (services : List ServiceDescription) {out : Writer Err}
    (h : out.Open) :
    serverHello V services out =
      .ok (out.append (ServerMessageType.serverHello.toUInt8 :: (Protocol.serverHello.ref V
        (ProtocolVersion, services.map (fun desc => toServiceDef desc.info), ()) ++
          [endByte]))) := by
  have hsend := sendServicesDescriptions_open hV services
    (h.append ([ServerMessageType.serverHello.toUInt8] ++ tagBytes V 1 .varInt ++
      V.writeUint32 ProtocolVersion))
  simp only [serverHello, h.write, h.write_append, writeTag, Writer.append_err, h.err,
    Option.isSome_none, Bool.false_eq_true, if_false, hsend, bind, Except.bind,
    Writer.append_append, pure, Except.pure]
  simp [Protocol.serverHello, MessageType.ref, FieldKind.ref, StorageType.ref,
    StorageType.isDefault, StorageType.wireType, StorageType.payload, ProtocolVersion]

end ServerBytes

/-! ## The client -/

/-- `struct Stub` (client.h:31-37), by what its service's metadata says. -/
structure Stub where
  info : ServiceInfo
  rpcOffset : Int32 := 0
  /-- Whether `client` has been set. -/
  bound : Bool := false

/-- What `handle_service_def` does to the stub it chooses. -/
def Stub.bind (offset : Int32) (stub : Stub) : Stub :=
  { stub with rpcOffset := offset, bound := true }

/-- `Client::handle_service_def` (client.cc:652-685): the first stub with the service's
UUID is checked and bound; the ones behind it are not looked at. -/
def handleServiceDef (serviceDef : Protocol.serviceDef.Val) (offset : Int32) :
    List Stub → Except Err (List Stub)
  | [] => .ok []
  | stub :: stubs =>
    if stub.info.uuid.bytes ≠ Protocol.defUuid serviceDef then
      (handleServiceDef serviceDef offset stubs).map (stub :: ·)
    else if stub.info.majorVersion ≠ Protocol.defMajorVersion serviceDef then
      .error (.majorVersionMismatch (Protocol.defMajorVersion serviceDef) stub.info.majorVersion)
    else if stub.info.minorVersion > Protocol.defMinorVersion serviceDef then
      .error (.minorVersionTooLow (Protocol.defMinorVersion serviceDef) stub.info.minorVersion)
    else .ok (stub.bind offset :: stubs)

/-- The variables of `Client::read_services_def`: the running offset and the stubs. -/
structure Handshake where
  offset : Int32
  stubs : List Stub

section Client

variable (V : Varint)

/-- `case ServicesFieldNumber` of `Client::read_services_def`. -/
def readServiceDef : Body Handshake Err := fun s inp =>
  let serviceDef := Protocol.serviceDef.unmarshalBody V MaxNesting inp
  if serviceDef.2.err.isSome then ⟨false, s, serviceDef.2⟩
  else
    match handleServiceDef serviceDef.1 s.offset s.stubs with
    | .error e => ⟨false, s, serviceDef.2.report e⟩
    | .ok stubs =>
      ⟨true, ⟨s.offset + Protocol.defNumEndpoints serviceDef.1, stubs⟩, serviceDef.2⟩

/-- `case ProtocolVersionFieldNumber` of `Client::read_services_def`. -/
def readProtocolVersion : Body Handshake Err := fun s inp =>
  let version := inp.read V.readUint32 .baselib
  if version.2.err.isSome then ⟨false, s, version.2⟩
  else if version.1 ≠ ProtocolVersion then
    ⟨false, s, version.2.report (.protocolVersionMismatch version.1 ProtocolVersion)⟩
  else ⟨true, s, version.2⟩

/-- The `switch` of `Client::read_services_def`. -/
def handshakeField (tag : Tag) : Body Handshake Err :=
  if tag.fieldNum = 2 then readServiceDef V
  else if tag.fieldNum = 1 then readProtocolVersion V
  else fun s inp =>
    let after := skip V tag.type MaxNesting inp
    ⟨after.err.isNone, s, after⟩

/-- `Client::read_services_def` (client.cc:603-650). -/
def readServicesDef (stubs : List Stub) (inp : In) : List Stub × In :=
  let s := Reader.loop (tagRound V (handshakeField V)) ⟨1, stubs⟩ inp
  (s.1.stubs, s.2)

variable {V}

theorem readServiceDef_consuming : Consuming (readServiceDef V) := by
  intro s inp
  have hdef := Protocol.serviceDef.unmarshalBody_suffix (V := V) MaxNesting inp
  unfold readServiceDef
  dsimp only
  split
  · exact hdef
  · split <;> exact hdef

theorem readProtocolVersion_consuming : Consuming (readProtocolVersion V) := by
  intro s inp
  have hversion := Reader.read_unread_suffix V.readUint32 Err.baselib inp
  unfold readProtocolVersion
  dsimp only
  split
  · exact hversion
  · split <;> exact hversion

theorem handshakeField_consuming (tag : Tag) : Consuming (handshakeField V tag) := by
  unfold handshakeField
  split
  · exact readServiceDef_consuming
  · split
    · exact readProtocolVersion_consuming
    · exact fun _ inp => skip_suffix _ _ inp

end Client

/-! ## Binding without bytes -/

/-- Walk through decoded services with a running offset. -/
def bindAll : List Protocol.serviceDef.Val → Handshake → Except Err Handshake
  | [], s => .ok s
  | serviceDef :: services, s => do
    let stubs ← handleServiceDef serviceDef s.offset s.stubs
    bindAll services ⟨s.offset + Protocol.defNumEndpoints serviceDef, stubs⟩

section Binding

/-- The first stub for a UUID, the one `handle_service_def` chooses. -/
def firstStub (uuid : List UInt8) (stubs : List Stub) : Option Stub :=
  stubs.find? fun stub => stub.info.uuid.bytes = uuid

theorem bind_eq_ok {ε α β : Type} {x : Except ε α} {f : α → Except ε β} {b : β}
    (h : (x >>= f) = .ok b) : ∃ a, x = .ok a ∧ f a = .ok b := by
  cases x with
  | error e => cases h
  | ok a => exact ⟨a, rfl, h⟩

/-- An accepted service binds the first stub for it and leaves the first stub for any
other. -/
theorem handleServiceDef_firstStub {d : Protocol.serviceDef.Val} {offset : Int32}
    (uuid : List UInt8) :
    ∀ {stubs stubs' : List Stub}, handleServiceDef d offset stubs = .ok stubs' →
      firstStub uuid stubs' =
        if uuid = Protocol.defUuid d then (firstStub uuid stubs).map (Stub.bind offset)
        else firstStub uuid stubs
  | [], stubs', h => by
    cases h
    simp [firstStub]
  | stub :: stubs, stubs', h => by
    simp only [handleServiceDef] at h
    split at h
    · -- Another uuid: the search goes on behind this stub.
      rename_i hne
      cases hrest : handleServiceDef d offset stubs with
      | error e =>
        rw [hrest] at h
        cases h
      | ok rest =>
        rw [hrest] at h
        cases h
        have ih := handleServiceDef_firstStub uuid hrest
        simp only [firstStub] at ih ⊢
        by_cases hstub : stub.info.uuid.bytes = uuid
        · have huuid : uuid ≠ Protocol.defUuid d := hstub ▸ hne
          simp [hstub, huuid]
        · simpa [hstub] using ih
    · -- The stub of this service, which is bound if its versions fit.
      rename_i heq
      rw [ne_eq, not_not] at heq
      split at h
      · cases h
      · split at h
        · cases h
        · cases h
          by_cases huuid : uuid = Protocol.defUuid d
          · simp [firstStub, huuid, heq, Stub.bind]
          · have hstub : ¬ Protocol.defUuid d = uuid := fun h => huuid h.symm
            simp [firstStub, huuid, heq, hstub, Stub.bind]

/-- Binding a stub leaves every stub's metadata. -/
theorem handleServiceDef_info {d : Protocol.serviceDef.Val} {offset : Int32} :
    ∀ {stubs stubs' : List Stub}, handleServiceDef d offset stubs = .ok stubs' →
      stubs'.map Stub.info = stubs.map Stub.info
  | [], stubs', h => by
    cases h
    rfl
  | stub :: stubs, stubs', h => by
    simp only [handleServiceDef] at h
    split at h
    · cases hrest : handleServiceDef d offset stubs with
      | error e =>
        rw [hrest] at h
        cases h
      | ok rest =>
        rw [hrest] at h
        cases h
        rw [List.map_cons, List.map_cons, handleServiceDef_info hrest]
    · split at h
      · cases h
      · split at h
        · cases h
        · cases h
          rfl

/-- A service's versions suit a stub's: equal major versions, and a minor version at
least the stub's. -/
def Accepts (d : Protocol.serviceDef.Val) (info : ServiceInfo) : Prop :=
  info.uuid.bytes = Protocol.defUuid d →
    info.majorVersion = Protocol.defMajorVersion d ∧
      ¬ info.minorVersion > Protocol.defMinorVersion d

instance (d : Protocol.serviceDef.Val) (info : ServiceInfo) : Decidable (Accepts d info) :=
  inferInstanceAs (Decidable (_ → _ ∧ ¬ _))

theorem handleServiceDef_accepts {d : Protocol.serviceDef.Val} (offset : Int32) :
    ∀ {stubs : List Stub}, (∀ info ∈ stubs.map Stub.info, Accepts d info) →
      ∃ stubs', handleServiceDef d offset stubs = .ok stubs'
  | [], _ => ⟨[], rfl⟩
  | stub :: stubs, h => by
    obtain ⟨hstub, hstubs⟩ := List.forall_mem_cons.mp h
    simp only [handleServiceDef]
    by_cases huuid : stub.info.uuid.bytes = Protocol.defUuid d
    · obtain ⟨hmajor, hminor⟩ := hstub huuid
      exact ⟨stub.bind offset :: stubs, by simp only [huuid, hmajor, hminor, ne_eq,
        not_true_eq_false, if_false]⟩
    · obtain ⟨rest, hrest⟩ := handleServiceDef_accepts offset hstubs
      exact ⟨stub :: rest, by simp only [huuid, hrest, ne_eq, not_false_eq_true, if_true,
        Except.map]⟩

/-- The walk succeeds when every service accepts every stub for it. -/
theorem bindAll_accepts :
    ∀ {defs : List Protocol.serviceDef.Val} {s : Handshake},
      (∀ d ∈ defs, ∀ info ∈ s.stubs.map Stub.info, Accepts d info) →
      ∃ s', bindAll defs s = .ok s'
  | [], s, _ => ⟨s, rfl⟩
  | d :: defs, s, h => by
    obtain ⟨hd, hdefs⟩ := List.forall_mem_cons.mp h
    obtain ⟨stubs, hstubs⟩ := handleServiceDef_accepts s.offset hd
    simp only [bindAll, hstubs, bind, Except.bind]
    refine bindAll_accepts fun d' hd' info hinfo => ?_
    rw [handleServiceDef_info hstubs] at hinfo
    exact hdefs d' hd' info hinfo

/-- Services with other UUIDs leave the first stub for this one. -/
theorem bindAll_other {uuid : List UInt8} :
    ∀ {defs : List Protocol.serviceDef.Val} {s s' : Handshake}, bindAll defs s = .ok s' →
      (∀ d ∈ defs, Protocol.defUuid d ≠ uuid) →
      firstStub uuid s'.stubs = firstStub uuid s.stubs
  | [], s, s', h, _ => by
    cases h
    rfl
  | d :: defs, s, s', h, hne => by
    obtain ⟨stubs, hstubs, h⟩ := bind_eq_ok h
    have hd : uuid ≠ Protocol.defUuid d := (hne d List.mem_cons_self).symm
    have ih := bindAll_other h fun d hd => hne d (List.mem_cons_of_mem _ hd)
    rw [ih, handleServiceDef_firstStub uuid hstubs, if_neg hd]

/-- The first stub for a service is bound to the running offset with the endpoints of
the services before added, unless a later service has the same UUID. -/
theorem bindAll_offset :
    ∀ {defs : List Protocol.serviceDef.Val} {s s' : Handshake}, bindAll defs s = .ok s' →
      ∀ (i : Nat) (h : i < defs.length),
      (∀ d ∈ defs.drop (i + 1), Protocol.defUuid d ≠ Protocol.defUuid defs[i]) →
      firstStub (Protocol.defUuid defs[i]) s'.stubs =
        (firstStub (Protocol.defUuid defs[i]) s.stubs).map
          (Stub.bind (s.offset + ((defs.take i).map Protocol.defNumEndpoints).sum))
  | [], _, _, _, i, hi, _ => absurd hi (Nat.not_lt_zero i)
  | d :: defs, s, s', h, 0, _, hlast => by
    obtain ⟨stubs, hstubs, h⟩ := bind_eq_ok h
    have hrest : firstStub (Protocol.defUuid d) s'.stubs = firstStub (Protocol.defUuid d) stubs :=
      bindAll_other h hlast
    rw [List.getElem_cons_zero, hrest, handleServiceDef_firstStub _ hstubs, if_pos rfl]
    simp
  | d :: defs, s, s', h, i + 1, hi, hlast => by
    obtain ⟨stubs, hstubs, h⟩ := bind_eq_ok h
    have hi' : i < defs.length := Nat.lt_of_succ_lt_succ hi
    have ih := bindAll_offset h i hi' hlast
    have hsum : s.offset + Protocol.defNumEndpoints d +
        ((defs.take i).map Protocol.defNumEndpoints).sum =
        s.offset + (((d :: defs).take (i + 1)).map Protocol.defNumEndpoints).sum := by
      simp [Int32.add_assoc]
    rw [List.getElem_cons_succ, ih, handleServiceDef_firstStub _ hstubs, hsum]
    split
    · -- The stub was bound to an earlier service with the same UUID: the offset is replaced.
      rw [Option.map_map]
      rfl
    · rfl

end Binding

/-! ## Reading the hello -/

section Reading

variable {V : Varint}

/-- The round of a service reads it back and hands it to the stubs. -/
theorem readServiceDef_ref (hV : V.Lawful) (d : Protocol.serviceDef.Val) (s : Handshake)
    (rest : List UInt8) :
    readServiceDef V s (.ofBytes (Protocol.serviceDef.ref V d ++ [endByte] ++ rest)) =
      match handleServiceDef d s.offset s.stubs with
      | .error e => ⟨false, s, Reader.report e (.ofBytes rest)⟩
      | .ok stubs => ⟨true, ⟨s.offset + Protocol.defNumEndpoints d, stubs⟩, .ofBytes rest⟩ := by
  have hdepth := (Protocol.serviceDef.depth_le_height d).trans
    (by decide : Protocol.serviceDef.height ≤ MaxNesting)
  have hwf : Protocol.serviceDef.WellFormed := by
    simp [Protocol.serviceDef, MessageType.WellFormed, FieldKind.WellFormed,
      MessageType.numbers, StorageType.Bounded]
  have hread : Protocol.serviceDef.unmarshalBody V MaxNesting
      (.ofBytes (Protocol.serviceDef.ref V d ++ [endByte] ++ rest)) = (d, .ofBytes rest) :=
    unmarshal_ref hV hwf hdepth rest
  simp only [readServiceDef, hread]
  rfl

/-- The loop takes a service off the hello by one step of the walk. -/
theorem readServices_step (hV : V.Lawful) {d : Protocol.serviceDef.Val}
    (hne : Protocol.serviceDef.isDefault d = false) (defs : List Protocol.serviceDef.Val)
    (s : Handshake) (rest : List UInt8) :
    Reader.loop (tagRound V (handshakeField V)) s
        (.ofBytes (FieldKind.ref V 2 (.repeated Protocol.serviceDef) (d :: defs) ++ rest)) =
      match handleServiceDef d s.offset s.stubs with
      | .error e => (s, Reader.report e
          (.ofBytes (FieldKind.ref V 2 (.repeated Protocol.serviceDef) defs ++ rest)))
      | .ok stubs =>
        Reader.loop (tagRound V (handshakeField V))
          ⟨s.offset + Protocol.defNumEndpoints d, stubs⟩
          (.ofBytes (FieldKind.ref V 2 (.repeated Protocol.serviceDef) defs ++ rest)) := by
  have href : Protocol.serviceDef.ref V d ≠ [] := by
    rw [ne_eq, Protocol.serviceDef.ref_eq_nil_iff hV d, hne]
    exact Bool.false_ne_true
  generalize hmore : FieldKind.ref V 2 (.repeated Protocol.serviceDef) defs ++ rest = more
  -- The field of one service is a group of its own, in front of the others'.
  have hbytes : FieldKind.ref V 2 (.repeated Protocol.serviceDef) (d :: defs) ++ rest =
      tagBytes V 2 .start ++ ((Protocol.serviceDef.ref V d ++ [endByte]) ++ more) := by
    rw [← hmore]
    simp [FieldKind.ref, wrap, href]
  have hread : handshakeField V ⟨.start, 2⟩ s
      (.ofBytes (Protocol.serviceDef.ref V d ++ [endByte] ++ more)) = _ :=
    readServiceDef_ref hV d s more
  cases hstubs : handleServiceDef d s.offset s.stubs with
  | error e =>
    rw [hstubs] at hread
    rw [hbytes, Reader.loop_eq (tagRound_productive handshakeField_consuming),
      tagRound_writeTag hV (by decide) (by decide), hread]
    rfl
  | ok stubs =>
    rw [hstubs] at hread
    rw [hbytes, tagLoop_writeTag hV handshakeField_consuming (by decide) (by decide) hread]

/-- The loop over the services of a hello binds the stubs. -/
theorem readServices_loop (hV : V.Lawful) (rest : List UInt8) :
    ∀ (defs : List Protocol.serviceDef.Val),
      (∀ d ∈ defs, Protocol.serviceDef.isDefault d = false) →
      ∀ s s' : Handshake, bindAll defs s = .ok s' →
      Reader.loop (tagRound V (handshakeField V)) s
        (.ofBytes (FieldKind.ref V 2 (.repeated Protocol.serviceDef) defs ++ endByte :: rest)) =
        (s', .ofBytes rest)
  | [], _, s, s', h => by
    cases h
    exact tagLoop_endByte hV handshakeField_consuming s rest
  | d :: defs, hne, s, s', h => by
    obtain ⟨stubs, hstubs, h⟩ := bind_eq_ok h
    have ih := readServices_loop hV rest defs
      (fun d' hd' => hne d' (List.mem_cons_of_mem _ hd')) _ _ h
    rw [readServices_step hV (hne d List.mem_cons_self), hstubs]
    exact ih

/-- A loop that has reported no error has walked through every service. -/
theorem bindAll_of_loop (hV : V.Lawful) (rest : List UInt8) :
    ∀ (defs : List Protocol.serviceDef.Val),
      (∀ d ∈ defs, Protocol.serviceDef.isDefault d = false) → ∀ s : Handshake,
      (Reader.loop (tagRound V (handshakeField V)) s
        (.ofBytes (FieldKind.ref V 2 (.repeated Protocol.serviceDef) defs ++
          endByte :: rest))).2.err = none →
      ∃ s', bindAll defs s = .ok s'
  | [], _, s, _ => ⟨s, rfl⟩
  | d :: defs, hne, s, h => by
    rw [readServices_step hV (hne d List.mem_cons_self)] at h
    cases hstubs : handleServiceDef d s.offset s.stubs with
    | error e =>
      rw [hstubs] at h
      exact absurd h (Reader.report_err_ne_none _ _)
    | ok stubs =>
      rw [hstubs] at h
      obtain ⟨s', hs'⟩ := bindAll_of_loop hV rest defs
        (fun d' hd' => hne d' (List.mem_cons_of_mem _ hd')) _ h
      refine ⟨s', ?_⟩
      rw [bindAll, hstubs]
      exact hs'

theorem toServiceDef_not_isDefault (info : ServiceInfo) :
    Protocol.serviceDef.isDefault (toServiceDef info) = false := by
  have huuid := InlineString.ofStr_data info.uuid.length_eq.le
  have hne : info.uuid.bytes ≠ [] := by
    intro heq
    have hlen := info.uuid.length_eq
    rw [heq] at hlen
    cases hlen
  simp [toServiceDef, Protocol.serviceDef, MessageType.isDefault, FieldKind.isDefault,
    StorageType.isDefault, huuid, hne]

/-- What the client reads of a hello: its version, and then the loop over its services. -/
theorem readServicesDef_ref (hV : V.Lawful) (defs : List Protocol.serviceDef.Val)
    (stubs : List Stub) (rest : List UInt8) :
    readServicesDef V stubs (.ofBytes (Protocol.serverHello.ref V (ProtocolVersion, defs, ()) ++
        [endByte] ++ rest)) =
      let s := Reader.loop (tagRound V (handshakeField V)) ⟨1, stubs⟩
        (.ofBytes (FieldKind.ref V 2 (.repeated Protocol.serviceDef) defs ++ endByte :: rest))
      (s.1.stubs, s.2) := by
  have hbytes : Protocol.serverHello.ref V (ProtocolVersion, defs, ()) ++ [endByte] ++ rest =
      tagBytes V 1 .varInt ++ (V.writeUint32 ProtocolVersion ++
        (FieldKind.ref V 2 (.repeated Protocol.serviceDef) defs ++ endByte :: rest)) := by
    simp [Protocol.serverHello, MessageType.ref, FieldKind.ref, StorageType.ref,
      StorageType.isDefault, StorageType.wireType, StorageType.payload, ProtocolVersion]
  generalize FieldKind.ref V 2 (.repeated Protocol.serviceDef) defs ++ endByte :: rest = more
    at hbytes ⊢
  have hversion : handshakeField V ⟨.varInt, 1⟩ ⟨1, stubs⟩
      (.ofBytes (V.writeUint32 ProtocolVersion ++ more)) = ⟨true, ⟨1, stubs⟩, .ofBytes more⟩ := by
    have hread := Reader.read_ofBytes (hV.uint32 ProtocolVersion) Err.baselib more
    simp [handshakeField, readProtocolVersion, hread]
  rw [hbytes, readServicesDef, tagLoop_writeTag hV handshakeField_consuming (by decide)
    (by decide) hversion]

theorem toServiceDefs_not_isDefault (services : List ServiceDescription) :
    ∀ d ∈ services.map (fun desc => toServiceDef desc.info),
      Protocol.serviceDef.isDefault d = false := by
  intro d hd
  obtain ⟨desc, -, rfl⟩ := List.mem_map.mp hd
  exact toServiceDef_not_isDefault desc.info

/-- A client that reads a server's hello without an error has read it to its end and
bound its stubs by the walk. -/
theorem readServicesDef_hello (hV : V.Lawful) (services : List ServiceDescription)
    (stubs : List Stub) (rest : List UInt8)
    (h : (readServicesDef V stubs (.ofBytes (Protocol.serverHello.ref V
      (ProtocolVersion, services.map (fun desc => toServiceDef desc.info), ()) ++
        [endByte] ++ rest))).2.err = none) :
    ∃ s', bindAll (services.map fun desc => toServiceDef desc.info) ⟨1, stubs⟩ = .ok s' ∧
      readServicesDef V stubs (.ofBytes (Protocol.serverHello.ref V
        (ProtocolVersion, services.map (fun desc => toServiceDef desc.info), ()) ++
          [endByte] ++ rest)) = (s'.stubs, .ofBytes rest) := by
  have hdefs := toServiceDefs_not_isDefault services
  rw [readServicesDef_ref hV] at h ⊢
  obtain ⟨s', hs'⟩ := bindAll_of_loop hV rest _ hdefs _ h
  refine ⟨s', hs', ?_⟩
  rw [readServices_loop hV rest _ hdefs _ _ hs']

/-- It does read it without an error when every service accepts every stub for it. -/
theorem readServicesDef_accepts (hV : V.Lawful) (services : List ServiceDescription)
    (stubs : List Stub) (rest : List UInt8)
    (h : ∀ desc ∈ services, ∀ stub ∈ stubs, Accepts (toServiceDef desc.info) stub.info) :
    (readServicesDef V stubs (.ofBytes (Protocol.serverHello.ref V
      (ProtocolVersion, services.map (fun desc => toServiceDef desc.info), ()) ++
        [endByte] ++ rest))).2.err = none := by
  have haccepts : ∀ d ∈ services.map (fun desc => toServiceDef desc.info),
      ∀ info ∈ stubs.map Stub.info, Accepts d info := by
    intro d hd info hinfo
    obtain ⟨desc, hdesc, rfl⟩ := List.mem_map.mp hd
    obtain ⟨stub, hstub, rfl⟩ := List.mem_map.mp hinfo
    exact h desc hdesc stub hstub
  obtain ⟨s', hs'⟩ := bindAll_accepts (s := ⟨1, stubs⟩) haccepts
  rw [readServicesDef_ref hV,
    readServices_loop hV rest _ (toServiceDefs_not_isDefault services) _ _ hs']
  rfl

end Reading

end SerialRpc
