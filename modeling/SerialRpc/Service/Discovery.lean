import SerialRpc.Encoding.RoundTrip
import SerialRpc.Service.Generator

/-!
# The discovery service (server_impl.cc:44-238)

`list_services` writes its reply straight from the static metadata of the services,
through hand-written `marshal` functions that stand in for the generated ones.

- `ServiceDescription` and `describeService`: the metadata, as the generator prints it.
- `listServicesBody`: what `dispatch_list_services` writes behind its `Reply` byte.
- `ListServicesResponse.ofDescriptions`: the generated value with the same contents.
  Given names that fit, the hand-written functions emit that value's reference bytes
  (`listServicesBody_eq`), the same as the encoder writes for it
  (`listServicesBody_eq_marshal`), so a client decodes that value from them.
- `cliEndpoint`: how the command-line client finds an endpoint id in the reply.
-/

namespace SerialRpc

open ByteStream

/-! ## Metadata -/

/-- `struct MethodInfo` (method_info.h:54-61). -/
structure MethodInfo where
  name : Str
  id : UInt32
  requestType : TypePtr
  responseType : TypePtr
  clientStreaming : Bool
  serverStreaming : Bool

/-- `struct ServiceInfo` (service_info.h:8-15). -/
structure ServiceInfo where
  name : Str
  package : Str
  uuid : Uuid
  majorVersion : Int32
  minorVersion : Int32
  numEndpoints : UInt32

/-- `struct ServiceDescription` (server.cc:64-68). -/
structure ServiceDescription where
  info : ServiceInfo
  methods : List MethodInfo
  types : List TypeInfo

/-- `T::Info` (protoc_serialrpc_plugin.cc:1763-1776). -/
def EchoService.info (s : EchoService) : ServiceInfo where
  name := s.name
  package := s.package
  uuid := s.uuid
  majorVersion := s.majorVersion
  minorVersion := s.minorVersion
  numEndpoints := UInt32.ofNat s.methods.length

/-- An entry of `T::Methods` (protoc_serialrpc_plugin.cc:1778-1788). -/
def EchoMethod.info (m : EchoMethod) : MethodInfo where
  name := m.name
  id := UInt32.ofNat m.methodId
  requestType := m.inputType
  responseType := m.outputType
  clientStreaming := m.clientStreaming
  serverStreaming := m.serverStreaming

/-- `describe_service<T>` (server.cc:70-78). `T::Methods` is in declaration order. -/
def describeService (s : EchoService) : ServiceDescription where
  info := s.info
  methods := s.methods.map EchoMethod.info
  types := s.types

/-! ## The hand-written `marshal` functions -/

/-- `type_id` (server_impl.cc:45-52): the one-based index of a type in the table. -/
def typeId (types : List TypeInfo) (type : TypePtr) : UInt32 :=
  match types.findIdx? fun t => t.address = type.address with
  | some i => UInt32.ofNat (i + 1)
  | none => 0

section Marshal

-- What baselib's `InlineString` holds after an append that does not fit is not known.
variable (V : Varint) (overflow : (capacity : Nat) → Str → InlineString capacity)

/-- `InlineString::operator+=`. -/
def InlineString.append {capacity : Nat} (s : InlineString capacity) (t : Str) :
    InlineString capacity :=
  if h : (s.data ++ t).length ≤ capacity then ⟨s.data ++ t, h⟩
  else overflow capacity (s.data ++ t)

/-- `DiscoveredMethod::marshal` (server_impl.cc:59-79). -/
def DiscoveredMethod.marshal (types : List TypeInfo) (full : Bool) (method : MethodInfo)
    (m : Marshaller) : Except Panic Marshaller :=
  let m := marshalStr V 1 method.name m
  let m := marshalUint32 V 2 method.id m
  if !full || m.out.err.isSome then .ok m
  else
    let m := marshalUint32 V 3 (typeId types method.requestType) m
    let m := marshalUint32 V 4 (typeId types method.responseType) m
    let m := marshalBool V 5 method.clientStreaming m
    .ok (marshalBool V 6 method.serverStreaming m)

/-- `DiscoveredField::marshal` (server_impl.cc:86-103). -/
def DiscoveredField.marshal (types : List TypeInfo) (field : FieldInfo) (m : Marshaller) :
    Except Panic Marshaller :=
  let m := marshalStr V 1 field.name m
  let m := marshalUint32 V 2 field.number m
  let m := marshalInt32 V 3 field.type.kind.toInt32 m
  let m :=
    if field.type.kind = .message ∨ field.type.kind = .enum then
      marshalUint32 V 4 (typeId types field.type) m
    else m
  .ok (marshalBool V 5 field.repeated m)

/-- The generated `EnumValueInfo` a value's name is assigned to (server_impl.cc:131-133). -/
def discoveredEnumValue (value : EnumValueInfo) : Protocol.enumValueInfo.Val :=
  (InlineString.append overflow .empty value.name, value.number, ())

/-- `DiscoveredType::marshal` (server_impl.cc:112-143). -/
def DiscoveredType.marshal (types : List TypeInfo) (type : TypeInfo) (id : UInt32)
    (m : Marshaller) : Except Panic Marshaller := do
  let m := marshalUint32 V 1 id m
  let m := marshalInt32 V 2 type.kind.toInt32 m
  let m := marshalStr V 3 type.name m
  let m ← marshalFieldVector
    (fun field => marshalFieldMessage 4 (DiscoveredField.marshal V types field)) type.fields m
  if m.out.err.isSome then return m
  marshalFieldVector
    (fun value => marshalFieldMessage 5
      (Protocol.enumValueInfo.marshal V (discoveredEnumValue overflow value))) type.enumValues m

/-- The full name `ServiceInfoView::marshal` builds (server_impl.cc:163-170). -/
def fullName (info : ServiceInfo) : InlineString 128 :=
  if info.package = [] then InlineString.append overflow .empty info.name
  else
    let name := InlineString.append overflow .empty info.package
    let name := InlineString.append overflow name [46]
    InlineString.append overflow name info.name

/-- `ServiceInfoView::marshal` (server_impl.cc:158-217). -/
def ServiceInfoView.marshal (full : Bool) (service : ServiceDescription) (m : Marshaller) :
    Except Panic Marshaller := do
  let m := marshalStr V 1 (fullName overflow service.info).data m
  if m.out.err.isSome then return m
  let m := marshalStr V 2 service.info.uuid.bytes m
  if m.out.err.isSome then return m
  let m := marshalInt32 V 3 service.info.majorVersion m
  if m.out.err.isSome then return m
  let m := marshalInt32 V 4 service.info.minorVersion m
  if m.out.err.isSome then return m
  let m ← marshalFieldVector
    (fun method => marshalFieldMessage 5 (DiscoveredMethod.marshal V service.types full method))
    service.methods m
  if m.out.err.isSome then return m
  if full then
    marshalFieldVector
      (fun (type, i) => marshalFieldMessage 6
        (DiscoveredType.marshal V overflow service.types type (UInt32.ofNat (i + 1))))
      service.types.zipIdx m
  else return m

/-- What `dispatch_list_services` writes behind its `Reply` byte (server_impl.cc:222-237). -/
def listServicesBody (services : List ServiceDescription) (full : Bool) (out : Writer Err) :
    Except Panic (Writer Err) := do
  let m ← marshalFieldVector
    (fun description => marshalFieldMessage 1 (ServiceInfoView.marshal V overflow full description))
    services ⟨out, .empty⟩
  if m.out.err.isSome then return m.out
  return m.out.write [endByte] .baselib

end Marshal

/-! ## The generated value with the same contents -/

/-- A string that fits, as an `InlineString`. -/
def InlineString.ofStr (capacity : Nat) (s : Str) : InlineString capacity :=
  if h : s.length ≤ capacity then ⟨s, h⟩ else .empty

/-- A string that fits is kept. -/
theorem InlineString.ofStr_data {capacity : Nat} {s : Str} (h : s.length ≤ capacity) :
    (InlineString.ofStr capacity s).data = s := by
  simp [InlineString.ofStr, h]

theorem InlineString.append_data {overflow : (capacity : Nat) → Str → InlineString capacity}
    {capacity : Nat} {s : InlineString capacity} {t : Str}
    (h : (s.data ++ t).length ≤ capacity) :
    (InlineString.append overflow s t).data = s.data ++ t := by
  simp only [InlineString.append, dif_pos h]

/-- `MethodInfo` of the reply. -/
def MethodInfo.value (types : List TypeInfo) (full : Bool) (method : MethodInfo) :
    Protocol.methodInfo.Val :=
  (.ofStr 64 method.name, method.id,
    if full then typeId types method.requestType else 0,
    if full then typeId types method.responseType else 0,
    full && method.clientStreaming, full && method.serverStreaming, ())

/-- `FieldInfo` of the reply. -/
def FieldInfo.value (types : List TypeInfo) (field : FieldInfo) : Protocol.fieldInfo.Val :=
  (.ofStr 64 field.name, field.number, field.type.kind.toInt32,
    if field.type.kind = .message ∨ field.type.kind = .enum then typeId types field.type else 0,
    field.repeated, ())

/-- `EnumValueInfo` of the reply. -/
def EnumValueInfo.value (value : EnumValueInfo) : Protocol.enumValueInfo.Val :=
  (.ofStr 64 value.name, value.number, ())

/-- `TypeInfo` of the reply. -/
def TypeInfo.value (types : List TypeInfo) (type : TypeInfo) (id : UInt32) :
    Protocol.typeInfo.Val :=
  (id, type.kind.toInt32, .ofStr 128 type.name, type.fields.map (FieldInfo.value types),
    type.enumValues.map EnumValueInfo.value, ())

/-- The fully qualified name of a service. -/
def ServiceInfo.qualifiedName (info : ServiceInfo) : Str :=
  if info.package = [] then info.name else info.package ++ [46] ++ info.name

/-- `ServiceInfo` of the reply. -/
def ServiceDescription.value (full : Bool) (service : ServiceDescription) :
    Protocol.serviceInfo.Val :=
  (.ofStr 128 service.info.qualifiedName, .ofStr 16 service.info.uuid.bytes,
    service.info.majorVersion, service.info.minorVersion,
    service.methods.map (MethodInfo.value service.types full),
    (if full then service.types.zipIdx.map fun (type, i) =>
      type.value service.types (UInt32.ofNat (i + 1)) else []), ())

/-- The `ListServicesResponse` that holds the same services, methods and types. -/
def ListServicesResponse.ofDescriptions (services : List ServiceDescription) (full : Bool) :
    Protocol.listServicesResponse.Val :=
  (services.map (ServiceDescription.value full), ())

/-- The names of a type and of its members fit the bounds of serialrpc_protocol.proto. -/
structure TypeInfo.Fits (type : TypeInfo) : Prop where
  name : type.name.length ≤ 128
  fields : ∀ field ∈ type.fields, field.name.length ≤ 64
  enumValues : ∀ value ∈ type.enumValues, value.name.length ≤ 64

/-- The names of a service, its methods and its types fit. -/
structure ServiceDescription.Fits (service : ServiceDescription) : Prop where
  name : service.info.qualifiedName.length ≤ 128
  methods : ∀ method ∈ service.methods, method.name.length ≤ 64
  types : ∀ type ∈ service.types, type.Fits

/-! ## The hand-written functions emit the generated value's bytes -/

section Emit

variable {V : Varint} {overflow : (capacity : Nat) → Str → InlineString capacity}

/-- A string that fits is written as the reference encoding has it. -/
theorem marshalStr_emit (hV : V.Lawful) (number : BitVec 32) {capacity : Nat} {s : Str}
    (hs : s.length ≤ capacity) (m : Marshaller) (h : m.Open) :
    marshalStr V number s m =
      m.emit V (StorageType.ref V number (.inlineString capacity) (.ofStr capacity s)) := by
  rw [← StorageType.marshalField_emit hV h number (.inlineString capacity) (.ofStr capacity s),
    StorageType.marshalField, InlineString.ofStr_data hs]

theorem marshalUint32_emit (hV : V.Lawful) (number : BitVec 32) (val : UInt32)
    (m : Marshaller) (h : m.Open) :
    marshalUint32 V number val m = m.emit V (StorageType.ref V number .uint32 val) :=
  StorageType.marshalField_emit hV h number .uint32 val

theorem marshalInt32_emit (hV : V.Lawful) (number : BitVec 32) (val : Int32)
    (m : Marshaller) (h : m.Open) :
    marshalInt32 V number val m = m.emit V (StorageType.ref V number .int32 val) :=
  StorageType.marshalField_emit hV h number .int32 val

theorem marshalBool_emit (hV : V.Lawful) (number : BitVec 32) (val : Bool)
    (m : Marshaller) (h : m.Open) :
    marshalBool V number val m = m.emit V (StorageType.ref V number .bool val) :=
  StorageType.marshalField_emit hV h number .bool val

/-- A method is written as the generated encoder writes it. -/
theorem DiscoveredMethod.marshal_emits (hV : V.Lawful) (types : List TypeInfo) (full : Bool)
    {method : MethodInfo} (hname : method.name.length ≤ 64) :
    Emits V (DiscoveredMethod.marshal V types full method)
      (Protocol.methodInfo.ref V (method.value types full)) 0 := by
  have hdone : Emits V .ok [] 0 := Emits.done
  cases full with
  | false =>
    -- The other fields are defaults and have no bytes.
    have h := Emits.after (marshalStr_emit hV 1 hname)
      (Emits.after (marshalUint32_emit hV 2 method.id) hdone)
    exact h
  | true =>
    have hflags := Emits.after (marshalBool_emit hV 5 method.clientStreaming)
      (Emits.after (marshalBool_emit hV 6 method.serverStreaming) hdone)
    have htypes := Emits.after (marshalUint32_emit hV 3 (typeId types method.requestType))
      (Emits.after (marshalUint32_emit hV 4 (typeId types method.responseType)) hflags)
    have h := Emits.after (marshalStr_emit hV 1 hname)
      (Emits.afterChecked (marshalUint32_emit hV 2 method.id) htypes)
    exact h

theorem DiscoveredField.marshal_emits (hV : V.Lawful) (types : List TypeInfo)
    {field : FieldInfo} (hname : field.name.length ≤ 64) :
    Emits V (DiscoveredField.marshal V types field)
      (Protocol.fieldInfo.ref V (field.value types)) 0 := by
  have hdone : Emits V .ok [] 0 := Emits.done
  have htypeId : ∀ m : Marshaller, m.Open →
      (if field.type.kind = .message ∨ field.type.kind = .enum then
        marshalUint32 V 4 (typeId types field.type) m else m) =
      m.emit V (StorageType.ref V 4 .uint32
        (if field.type.kind = .message ∨ field.type.kind = .enum then typeId types field.type
          else 0)) := by
    intro m h
    split
    · exact marshalUint32_emit hV 4 _ m h
    · exact m.emit_nil.symm
  have h := Emits.after (marshalStr_emit hV 1 hname)
    (Emits.after (marshalUint32_emit hV 2 field.number)
      (Emits.after (marshalInt32_emit hV 3 field.type.kind.toInt32)
        (Emits.after htypeId
          (Emits.after (marshalBool_emit hV 5 field.repeated) hdone))))
  exact h

theorem discoveredEnumValue_eq {value : EnumValueInfo} (h : value.name.length ≤ 64) :
    discoveredEnumValue overflow value = value.value := by
  have hname : InlineString.append overflow .empty value.name = .ofStr 64 value.name := by
    refine InlineString.ext ?_
    rw [InlineString.append_data (by simpa [InlineString.empty] using h),
      InlineString.ofStr_data h]
    rfl
  rw [discoveredEnumValue, EnumValueInfo.value, hname]

/-- A vector of stand-ins emits the repeated field of the values they stand for. -/
theorem marshalStandIns_emits {α : Type} {T : MessageType} {levels : Nat}
    {standIn : α → Marshaller → Except Panic Marshaller} {value : α → T.Val}
    (number : BitVec 32) (vec : List α)
    (h : ∀ a ∈ vec, Emits V (standIn a) (T.ref V (value a)) levels) :
    Emits V (marshalFieldVector (fun a => marshalFieldMessage number (standIn a)) vec)
      (FieldKind.ref V number (.repeated T) (vec.map value)) (levels + 1) := by
  rw [FieldKind.ref, List.flatMap_map]
  exact Emits.vector vec fun a ha => (h a ha).message number

/-- A type is written with its fields and values. -/
theorem DiscoveredType.marshal_emits (hV : V.Lawful) (types : List TypeInfo) {type : TypeInfo}
    (hfits : type.Fits) (id : UInt32) :
    Emits V (DiscoveredType.marshal V overflow types type id)
      (Protocol.typeInfo.ref V (type.value types id)) 1 := by
  have henum : ∀ value ∈ type.enumValues,
      Emits V (Protocol.enumValueInfo.marshal V (discoveredEnumValue overflow value))
        (Protocol.enumValueInfo.ref V value.value) 0 := by
    intro value hvalue
    rw [discoveredEnumValue_eq (hfits.enumValues value hvalue)]
    exact Protocol.enumValueInfo.marshal_emits hV value.value
  have hfields := marshalStandIns_emits 4 type.fields fun field hfield =>
    DiscoveredField.marshal_emits hV types (hfits.fields field hfield)
  have henums := marshalStandIns_emits 5 type.enumValues henum
  have h := Emits.after (marshalUint32_emit hV 1 id)
    (Emits.after (marshalInt32_emit hV 2 type.kind.toInt32)
      (Emits.after (marshalStr_emit hV 3 hfits.name) (hfields.andThen henums.last)))
  exact h

/-- The full name of a service is its qualified name, if this fits. -/
theorem fullName_data {info : ServiceInfo} (h : info.qualifiedName.length ≤ 128) :
    (fullName overflow info).data = info.qualifiedName := by
  unfold fullName
  unfold ServiceInfo.qualifiedName at h ⊢
  split
  · rename_i hpackage
    rw [if_pos hpackage] at h
    exact InlineString.append_data h
  · rename_i hpackage
    rw [if_neg hpackage, List.append_assoc, List.length_append] at h
    -- Each append fits, since the whole name does.
    have h₁ : (InlineString.append overflow .empty info.package : InlineString 128).data =
        info.package := InlineString.append_data (by simp [InlineString.empty]; omega)
    have h₂ : (InlineString.append overflow (InlineString.append overflow .empty info.package)
        [46] : InlineString 128).data = info.package ++ [46] := by
      rw [InlineString.append_data, h₁]
      rw [h₁]
      simp at h ⊢
      omega
    rw [InlineString.append_data, h₂]
    rw [h₂]
    simp at h ⊢
    omega

/-- A service is written with its methods and types. -/
theorem ServiceInfoView.marshal_emits (hV : V.Lawful) (full : Bool)
    {service : ServiceDescription} (hfits : service.Fits) :
    Emits V (ServiceInfoView.marshal V overflow full service)
      (Protocol.serviceInfo.ref V (service.value full)) 2 := by
  have hmethods := marshalStandIns_emits 5 service.methods fun method hmethod =>
    DiscoveredMethod.marshal_emits hV service.types full (hfits.methods method hmethod)
  have htype : ∀ entry ∈ service.types.zipIdx,
      Emits V (DiscoveredType.marshal V overflow service.types entry.1 (UInt32.ofNat (entry.2 + 1)))
        (Protocol.typeInfo.ref V (entry.1.value service.types (UInt32.ofNat (entry.2 + 1)))) 1 :=
    fun entry hentry => DiscoveredType.marshal_emits hV service.types
      (hfits.types entry.1 (List.fst_mem_of_mem_zipIdx hentry)) _
  have htypes := marshalStandIns_emits 6 service.types.zipIdx htype
  have htail : Emits V (fun m => if full then
      marshalFieldVector (fun entry => marshalFieldMessage 6
        (DiscoveredType.marshal V overflow service.types entry.1 (UInt32.ofNat (entry.2 + 1))))
        service.types.zipIdx m else .ok m)
      (FieldKind.ref V 6 (.repeated Protocol.typeInfo) (service.value full).2.2.2.2.2.1) 2 := by
    cases full with
    | false => exact Emits.done
    | true => exact htypes
  have huuid : service.info.uuid.bytes.length ≤ 16 := service.info.uuid.length_eq.le
  have hname : ∀ m : Marshaller, m.Open →
      marshalStr V 1 (fullName overflow service.info).data m =
        m.emit V
          (StorageType.ref V 1 (.inlineString 128) (.ofStr 128 service.info.qualifiedName)) := by
    rw [fullName_data hfits.name]
    exact marshalStr_emit hV 1 hfits.name
  have h := Emits.afterChecked hname
    (Emits.afterChecked (marshalStr_emit hV 2 huuid)
      (Emits.afterChecked (marshalInt32_emit hV 3 service.info.majorVersion)
        (Emits.afterChecked (marshalInt32_emit hV 4 service.info.minorVersion)
          ((hmethods.mono (Nat.le_succ 1)).andThen htail.last))))
  exact h

/-- What `dispatch_list_services` writes is the encoding of the generated value. -/
theorem listServicesBody_eq (hV : V.Lawful) (full : Bool) {services : List ServiceDescription}
    (hfits : ∀ service ∈ services, service.Fits) {out : Writer Err} (hopen : out.Open) :
    listServicesBody V overflow services full out =
      .ok (out.append (Protocol.listServicesResponse.ref V
        (ListServicesResponse.ofDescriptions services full) ++
        [endByte])) := by
  have hview : ∀ service ∈ services, Emits V (ServiceInfoView.marshal V overflow full service)
      (Protocol.serviceInfo.ref V (service.value full)) 2 :=
    fun service hservice => ServiceInfoView.marshal_emits hV full (hfits service hservice)
  have hservices := marshalStandIns_emits 1 services hview
  exact hservices.last.top (by decide) hopen

/-- The hand-written functions and the generated encoder write the same reply, and neither
runs out of stack. -/
theorem listServicesBody_eq_marshal (hV : V.Lawful)
    (overflow : (capacity : Nat) → Str → InlineString capacity) (full : Bool)
    {services : List ServiceDescription} (hfits : ∀ service ∈ services, service.Fits)
    {out : Writer Err} (hopen : out.Open) :
    ∃ bytes, listServicesBody V overflow services full out = .ok (out.append bytes) ∧
      marshal V Protocol.listServicesResponse (ListServicesResponse.ofDescriptions services full)
        out = .ok (out.append bytes) :=
  ⟨_, listServicesBody_eq hV full hfits hopen, marshal_open hV hopen
    ((MessageType.depth_le_height _ _).trans (by decide))⟩

end Emit

namespace Sample

/-- A tree with a color at each node, a type that refers to itself. -/
def tree : TypeInfo where
  address := 1
  kind := .message
  name := [84]
  fields := [⟨[115], 1, ⟨1, .message⟩, true⟩, ⟨[99], 2, ⟨2, .enum⟩, false⟩]
  enumValues := []

/-- The colors. -/
def color : TypeInfo where
  address := 2
  kind := .enum
  name := [67]
  fields := []
  enumValues := [⟨[82], 0⟩, ⟨[71], 5⟩]

/-- A service about trees. -/
def forest : ServiceDescription where
  info := ⟨[70], [112], ⟨List.replicate 16 2, rfl⟩, 1, 0, 1⟩
  methods := [⟨[97], 4, ⟨1, .message⟩, ⟨2, .enum⟩, false, true⟩]
  types := [tree, color]

theorem forest_fits : forest.Fits where
  name := by decide
  methods := by decide
  types type htype := by
    simp only [forest, List.mem_cons, List.not_mem_nil, or_false] at htype
    rcases htype with rfl | rfl
    · exact ⟨by decide, by decide, by decide⟩
    · exact ⟨by decide, by decide, by decide⟩

end Sample

theorem listServicesBody_eq_marshal_forest :
    ∃ bytes, listServicesBody .leb128 (fun _ _ => .empty) [Sample.forest] true {} =
        .ok (Writer.append bytes {}) ∧
      marshal .leb128 Protocol.listServicesResponse
        (ListServicesResponse.ofDescriptions [Sample.forest] true) {} =
          .ok (Writer.append bytes {}) :=
  listServicesBody_eq_marshal Varint.leb128_lawful (fun _ _ => .empty) true
    (List.forall_mem_singleton.mpr Sample.forest_fits) ⟨rfl, rfl⟩

/-! ## What a client decodes -/

theorem Protocol.listServicesResponse_wellFormed : Protocol.listServicesResponse.WellFormed := by
  simp [Protocol.listServicesResponse, Protocol.serviceInfo, Protocol.methodInfo,
    Protocol.typeInfo, Protocol.fieldInfo, Protocol.enumValueInfo, MessageType.WellFormed,
    FieldKind.WellFormed, MessageType.numbers, StorageType.Bounded]

/-- What the client's decoder makes of the reply: the same value with the elements that
encode to nothing removed, and the bytes behind it unread. -/
theorem unmarshal_listServicesBody {V : Varint} (hV : V.Lawful)
    (overflow : (capacity : Nat) → Str → InlineString capacity) (full : Bool)
    {services : List ServiceDescription} (hfits : ∀ service ∈ services, service.Fits) :
    ∃ bytes, listServicesBody V overflow services full {} = .ok { written := bytes } ∧
      ∀ rest, unmarshal V Protocol.listServicesResponse (.ofBytes (bytes ++ rest)) =
        (Protocol.listServicesResponse.received
          (ListServicesResponse.ofDescriptions services full), .ofBytes rest) :=
  ⟨_, listServicesBody_eq hV full hfits ⟨rfl, rfl⟩, fun rest =>
    unmarshal_ref hV Protocol.listServicesResponse_wellFormed
      ((MessageType.depth_le_height _ _).trans (by decide)) rest⟩

/-- No method of the reply is lost, since its id is not zero. -/
theorem MethodInfo.value_not_isDefault (types : List TypeInfo) (full : Bool)
    {method : MethodInfo} (h : method.id ≠ 0) :
    Protocol.methodInfo.isDefault (method.value types full) = false := by
  simp [Protocol.methodInfo, MethodInfo.value, MessageType.isDefault, FieldKind.isDefault,
    StorageType.isDefault, h]

/-- A service of the reply comes back with its methods. -/
theorem ServiceDescription.received_methods (full : Bool) {service : ServiceDescription}
    (hid : ∀ method ∈ service.methods, method.id ≠ 0) :
    Protocol.serviceMethods (Protocol.serviceInfo.received (service.value full)) =
      service.methods.map (MethodInfo.value service.types full) := by
  show ((service.methods.map (MethodInfo.value service.types full)).filter
    fun msg => !Protocol.methodInfo.isDefault msg).map Protocol.methodInfo.received = _
  have hkept : (service.methods.map (MethodInfo.value service.types full)).filter
      (fun msg => !Protocol.methodInfo.isDefault msg) =
      service.methods.map (MethodInfo.value service.types full) := by
    refine List.filter_eq_self.mpr fun msg hmsg => ?_
    obtain ⟨method, hmethod, rfl⟩ := List.mem_map.mp hmsg
    rw [MethodInfo.value_not_isDefault service.types full (hid method hmethod)]
    rfl
  -- A method has no repeated field and no floating-point one.
  have hsame : Protocol.methodInfo.received = id := rfl
  rw [hkept, hsame, List.map_id]

/-- The services of the reply all come back, since their names are not empty. -/
theorem responseServices_received (full : Bool) {services : List ServiceDescription}
    (hname : ∀ service ∈ services, service.info.qualifiedName ≠ [] ∧
      service.info.qualifiedName.length ≤ 128) :
    Protocol.responseServices (Protocol.listServicesResponse.received
        (ListServicesResponse.ofDescriptions services full)) =
      services.map fun service => Protocol.serviceInfo.received (service.value full) := by
  show ((services.map (ServiceDescription.value full)).filter
    fun msg => !Protocol.serviceInfo.isDefault msg).map Protocol.serviceInfo.received = _
  have hkept : (services.map (ServiceDescription.value full)).filter
      (fun msg => !Protocol.serviceInfo.isDefault msg) =
      services.map (ServiceDescription.value full) := by
    refine List.filter_eq_self.mpr fun msg hmsg => ?_
    obtain ⟨service, hservice, rfl⟩ := List.mem_map.mp hmsg
    obtain ⟨hne, hle⟩ := hname service hservice
    simp [Protocol.serviceInfo, ServiceDescription.value, MessageType.isDefault,
      FieldKind.isDefault, StorageType.isDefault, InlineString.ofStr_data hle, hne]
  rw [hkept, List.map_map]
  rfl

/-! ## The command-line client -/

/-- The loop of `call` over the services of the reply (call.cc:452-482): the endpoint id
of a method, if the service it is looked for in has it. The name of the method has
been split at its last separator. -/
def cliEndpoint (serviceName shortName : Str) :
    UInt32 → List Protocol.serviceInfo.Val → Option UInt32
  | _, [] => none
  | endpointId, service :: services =>
    let methods := Protocol.serviceMethods service
    if Protocol.serviceName service ≠ serviceName then
      cliEndpoint serviceName shortName (endpointId + UInt32.ofNat methods.length) services
    else
      (methods.find? fun method => Protocol.methodName method = shortName).map fun target =>
        -- One for every method that the dispatch table has before the target.
        endpointId + UInt32.ofNat
          (methods.countP fun method => Protocol.methodId method < Protocol.methodId target)

/-- The loop counts the methods of the services before the one with the name, and then
the smaller ids. -/
theorem cliEndpoint_eq (serviceName shortName : Str) :
    ∀ (services : List Protocol.serviceInfo.Val) (endpointId : UInt32) (i : Nat)
      (h : i < services.length), Protocol.serviceName services[i] = serviceName →
      (∀ j (hj : j < i), Protocol.serviceName services[j] ≠ serviceName) →
      cliEndpoint serviceName shortName endpointId services =
        ((Protocol.serviceMethods services[i]).find? fun method =>
          Protocol.methodName method = shortName).map fun target =>
            endpointId + UInt32.ofNat
              (((services.take i).map fun service => (Protocol.serviceMethods service).length).sum +
                (Protocol.serviceMethods services[i]).countP fun method =>
                  Protocol.methodId method < Protocol.methodId target)
  | [], _, i, h, _, _ => absurd h (Nat.not_lt_zero i)
  | service :: services, endpointId, 0, _, hname, _ => by
    simp only [List.getElem_cons_zero] at hname
    simp [cliEndpoint, hname]
  | service :: services, endpointId, i + 1, h, hname, hbefore => by
    have hne : Protocol.serviceName service ≠ serviceName := hbefore 0 (Nat.succ_pos i)
    have ih := cliEndpoint_eq serviceName shortName services
      (endpointId + UInt32.ofNat (Protocol.serviceMethods service).length) i
      (Nat.lt_of_succ_lt_succ h) hname fun j hj => hbefore (j + 1) (Nat.succ_lt_succ hj)
    simp only [cliEndpoint, hne, ne_eq, not_false_eq_true, if_true, ih, List.getElem_cons_succ,
      List.take_succ_cons, List.map_cons, List.sum_cons, UInt32.ofNat_add, UInt32.add_assoc]

end SerialRpc
