import SerialRpc.Encoding.Bounds
import SerialRpc.Service.Endpoint

/-!
# Names in the discovery reply (server_impl.cc:50-235)

`dispatch_list_services` writes names as the `.proto` files have them, and a client reads
them into the bounded strings of serialrpc_protocol.proto. The server has the full name of
a service and the names of enum values in bounded strings itself, and those fit. Methods,
types and fields have names that nothing bounds.

- `ServiceDescription.NamesFit`: the names that the reply to a request has room for.
- `listServicesBody_iff`: a reply is decoded exactly if the names in it fit.
-/

namespace SerialRpc

open ByteStream

/-- The names of a type and of its fields fit the client's strings. -/
structure TypeInfo.NamesFit (type : TypeInfo) : Prop where
  name : type.name.length ≤ 128
  fields : ∀ field ∈ type.fields, field.name.length ≤ 64

/-- The names that a reply about a service contains fit the client's strings: those of its
methods and, in a full reply, those of its types. -/
structure ServiceDescription.NamesFit (full : Bool) (service : ServiceDescription) : Prop where
  methods : ∀ method ∈ service.methods, method.name.length ≤ 64
  types : full = true → ∀ type ∈ service.types, type.NamesFit

section Emit

variable {V : Varint}

/-! ## The hand-written `marshal` functions -/

theorem DiscoveredMethod.marshal_emitsIf (hV : V.Lawful) (types : List TypeInfo) (full : Bool)
    (method : MethodInfo) :
    EmitsIf V Protocol.methodInfo 0 (method.name.length ≤ 64)
      (DiscoveredMethod.marshal V types full method) := by
  have hname : ScalarIf V Protocol.methodInfo (method.name.length ≤ 64)
    (marshalStr V 1 method.name) := .string hV (by decide) rfl (by decide) _
  have hid : ScalarIf V Protocol.methodInfo True (marshalUint32 V 2 method.id) :=
    .scalar hV .uint32 (by decide) rfl (by decide) _
  have hdone : EmitsIf V Protocol.methodInfo 0 True .ok := .done
  cases full with
  | false =>
    -- The name and the id only.
    have h := EmitsIf.after hV hname (.after hV hid hdone)
    exact h.of_iff (by simp)
  | true =>
    -- The types and the flags as well.
    have hrequest : ScalarIf V Protocol.methodInfo True
      (marshalUint32 V 3 (typeId types method.requestType)) :=
    .scalar hV .uint32 (by decide) rfl (by decide) _
    have hresponse : ScalarIf V Protocol.methodInfo True
      (marshalUint32 V 4 (typeId types method.responseType)) :=
    .scalar hV .uint32 (by decide) rfl (by decide) _
    have hclient : ScalarIf V Protocol.methodInfo True
      (marshalBool V 5 method.clientStreaming) := .scalar hV .bool (by decide) rfl (by decide) _
    have hserver : ScalarIf V Protocol.methodInfo True
      (marshalBool V 6 method.serverStreaming) := .scalar hV .bool (by decide) rfl (by decide) _
    have hflags := EmitsIf.after hV hclient (.after hV hserver hdone)
    have htypes := EmitsIf.after hV hrequest (.after hV hresponse hflags)
    have h := EmitsIf.after hV hname (.afterChecked hV hid htypes)
    exact h.of_iff (by simp)

theorem DiscoveredField.marshal_emitsIf (hV : V.Lawful) (types : List TypeInfo)
    (field : FieldInfo) :
    EmitsIf V Protocol.fieldInfo 0 (field.name.length ≤ 64)
      (DiscoveredField.marshal V types field) := by
  have hname : ScalarIf V Protocol.fieldInfo (field.name.length ≤ 64)
    (marshalStr V 1 field.name) := .string hV (by decide) rfl (by decide) _
  have hnumber : ScalarIf V Protocol.fieldInfo True (marshalUint32 V 2 field.number) :=
    .scalar hV .uint32 (by decide) rfl (by decide) _
  have hkind : ScalarIf V Protocol.fieldInfo True (marshalInt32 V 3 field.type.kind.toInt32) :=
    .scalar hV .enum (by decide) rfl (by decide) _
  have htypeId : ScalarIf V Protocol.fieldInfo True
      (marshalUint32 V 4 (typeId types field.type)) :=
    .scalar hV .uint32 (by decide) rfl (by decide) _
  have hrepeated : ScalarIf V Protocol.fieldInfo True (marshalBool V 5 field.repeated) :=
    .scalar hV .bool (by decide) rfl (by decide) _
  have hdone : EmitsIf V Protocol.fieldInfo 0 True .ok := .done
  have htail := EmitsIf.after hV hrepeated hdone
  unfold DiscoveredField.marshal
  -- Only a message or an enumeration has a type id.
  split
  · have h := EmitsIf.after hV hname (.after hV hnumber (.after hV hkind (.after hV htypeId htail)))
    exact h.of_iff (by simp)
  · have h := EmitsIf.after hV hname (.after hV hnumber (.after hV hkind htail))
    exact h.of_iff (by simp)

/-- The name of an enum value is in a bounded string already. -/
theorem discoveredEnumValue_emitsIf (hV : V.Lawful)
    (overflow : (capacity : Nat) → Str → InlineString capacity) (value : EnumValueInfo) :
    EmitsIf V Protocol.enumValueInfo 0 True
      (Protocol.enumValueInfo.marshal V (discoveredEnumValue overflow value)) := by
  refine ⟨_, Protocol.enumValueInfo.marshal_emits hV _, fun nesting _ => ?_⟩
  have hname : ReadsIf V Protocol.enumValueInfo nesting True (StorageType.ref V 1
    (.inlineString 64) (discoveredEnumValue overflow value).1) :=
    .scalar hV (.string 64) (by decide) rfl (by decide) _
  have hnumber : ReadsIf V Protocol.enumValueInfo nesting True (StorageType.ref V 2
    .int32 value.number) := .scalar hV .int32 (by decide) rfl (by decide) _
  have h := hname.append hV (hnumber.append hV .nil)
  exact h.of_iff (by simp)

theorem DiscoveredType.marshal_emitsIf (hV : V.Lawful)
    (overflow : (capacity : Nat) → Str → InlineString capacity) (types : List TypeInfo)
    (type : TypeInfo) (id : UInt32) :
    EmitsIf V Protocol.typeInfo 1 type.NamesFit
      (DiscoveredType.marshal V overflow types type id) := by
  have hid : ScalarIf V Protocol.typeInfo True (marshalUint32 V 1 id) :=
    .scalar hV .uint32 (by decide) rfl (by decide) _
  have hkind : ScalarIf V Protocol.typeInfo True (marshalInt32 V 2 type.kind.toInt32) :=
    .scalar hV .enum (by decide) rfl (by decide) _
  have hname : ScalarIf V Protocol.typeInfo (type.name.length ≤ 128)
    (marshalStr V 3 type.name) := .string hV (by decide) rfl (by decide) _
  have hfields := EmitsIf.vector hV Protocol.typeInfo 4 rfl (by decide)
    (DiscoveredField.marshal_emitsIf hV types) type.fields
  have henums := EmitsIf.vector hV Protocol.typeInfo 5 rfl (by decide)
    (discoveredEnumValue_emitsIf hV overflow) type.enumValues
  have h := EmitsIf.after hV hid (.after hV hkind (.after hV hname (hfields.andThen hV henums)))
  refine h.of_iff ⟨fun ⟨_, _, hname, hfields, _⟩ => ⟨hname, hfields⟩, fun hfit => ?_⟩
  exact ⟨trivial, trivial, hfit.name, hfit.fields, fun _ _ => trivial⟩

theorem ServiceInfoView.marshal_emitsIf (hV : V.Lawful)
    (overflow : (capacity : Nat) → Str → InlineString capacity) (full : Bool)
    (service : ServiceDescription) :
    EmitsIf V Protocol.serviceInfo 2 (service.NamesFit full)
      (ServiceInfoView.marshal V overflow full service) := by
  -- The full name is in a bounded string already, and a UUID has 16 bytes.
  have hname : ScalarIf V Protocol.serviceInfo True
    (marshalStr V 1 (fullName overflow service.info).data) :=
    .scalar hV (.string 128) (by decide) rfl (by decide) (fullName overflow service.info)
  have huuid : ScalarIf V Protocol.serviceInfo True (marshalStr V 2 service.info.uuid.bytes) :=
    .scalar hV (.bytes 16) (by decide) rfl (by decide)
      ⟨service.info.uuid.bytes, service.info.uuid.length_eq.le⟩
  have hmajor : ScalarIf V Protocol.serviceInfo True
    (marshalInt32 V 3 service.info.majorVersion) := .scalar hV .int32 (by decide) rfl (by decide) _
  have hminor : ScalarIf V Protocol.serviceInfo True
    (marshalInt32 V 4 service.info.minorVersion) := .scalar hV .int32 (by decide) rfl (by decide) _
  have hmethods := EmitsIf.vector hV Protocol.serviceInfo 5 rfl (by decide)
    (DiscoveredMethod.marshal_emitsIf hV service.types full) service.methods
  have htypes : EmitsIf V Protocol.serviceInfo 2
      (full = true → ∀ type ∈ service.types, type.NamesFit)
      (fun m => if full then
        marshalFieldVector (fun entry => marshalFieldMessage 6
          (DiscoveredType.marshal V overflow service.types entry.1 (UInt32.ofNat (entry.2 + 1))))
          service.types.zipIdx m else .ok m) := by
    -- The types are written for a full reply only.
    cases full with
    | false => exact EmitsIf.done.of_iff (by simp)
    | true =>
      have h := EmitsIf.vector hV Protocol.serviceInfo 6 rfl (by decide)
        (fun entry : TypeInfo × Nat => DiscoveredType.marshal_emitsIf hV overflow service.types
          entry.1 (UInt32.ofNat (entry.2 + 1))) service.types.zipIdx
      have hentries : (∀ type ∈ service.types.zipIdx.map Prod.fst, type.NamesFit) ↔
          ∀ entry ∈ service.types.zipIdx, entry.1.NamesFit := List.forall_mem_map
      rw [List.zipIdx_map_fst] at hentries
      exact h.of_iff (hentries.symm.trans (by simp))
  have h := EmitsIf.afterChecked hV hname (.afterChecked hV huuid (.afterChecked hV hmajor
    (.afterChecked hV hminor ((hmethods.mono (Nat.le_succ 1)).andThen hV htypes))))
  refine h.of_iff ⟨fun ⟨_, _, _, _, hmethods, htypes⟩ => ⟨hmethods, htypes⟩, fun hfit => ?_⟩
  exact ⟨trivial, trivial, trivial, trivial, hfit.methods, hfit.types⟩

end Emit

/-! ## The reply -/

/-- `dispatch_list_services` gets to the end of its reply whatever the names, and a client
decodes the reply exactly if they fit. -/
theorem listServicesBody_iff {V : Varint} (hV : V.Lawful)
    (overflow : (capacity : Nat) → Str → InlineString capacity) (full : Bool)
    (services : List ServiceDescription) :
    ∃ bytes, listServicesBody V overflow services full {} = .ok { written := bytes } ∧
      ∀ rest, (unmarshal V Protocol.listServicesResponse (.ofBytes (bytes ++ rest))).2.err = none ↔
        ∀ service ∈ services, service.NamesFit full := by
  have h := EmitsIf.vector hV Protocol.listServicesResponse 1 rfl (by decide)
    (ServiceInfoView.marshal_emitsIf hV overflow full) services
  exact h.top hV (by decide)

/-- `dispatch_list_services` always gets to the end of its reply. -/
theorem listServicesBody_ok {V : Varint} (hV : V.Lawful)
    (overflow : (capacity : Nat) → Str → InlineString capacity) (full : Bool)
    (services : List ServiceDescription) :
    ∃ bytes, listServicesBody V overflow services full {} = .ok { written := bytes } := by
  obtain ⟨bytes, hbytes, -⟩ := listServicesBody_iff hV overflow full services
  exact ⟨bytes, hbytes⟩

/-- A client decodes what `list_services` replies about a server without an error exactly if
the method names of its services, and for a full reply the names of types and fields, fit the
client's strings. -/
theorem list_services_decoded_iff {V : Varint} (hV : V.Lawful)
    (overflow : (capacity : Nat) → Str → InlineString capacity) (server : Server) (full : Bool) :
    ∃ bytes, listServicesBody V overflow server.descriptions full {} = .ok { written := bytes } ∧
      ∀ rest, (unmarshal V Protocol.listServicesResponse (.ofBytes (bytes ++ rest))).2.err = none ↔
        ∀ c ∈ server.services, (describeService c.service).NamesFit full := by
  obtain ⟨bytes, hbytes, hread⟩ := listServicesBody_iff hV overflow full server.descriptions
  refine ⟨bytes, hbytes, fun rest => (hread rest).trans ?_⟩
  exact List.forall_mem_map

/-- A `Counter` behind the discovery service, with short names. -/
theorem list_services_decoded_counter :
    ∃ bytes, listServicesBody .leb128 (fun _ _ => .empty) Sample.server.descriptions true {} =
        .ok { written := bytes } ∧
      ∀ rest, (unmarshal .leb128 Protocol.listServicesResponse
        (.ofBytes (bytes ++ rest))).2.err = none := by
  obtain ⟨bytes, hbytes, hread⟩ := list_services_decoded_iff Varint.leb128_lawful
    (fun _ _ => .empty) Sample.server true
  refine ⟨bytes, hbytes, fun rest => (hread rest).mpr fun c hc => ?_⟩
  have hfits := Sample.server_described.fits c hc
  exact ⟨hfits.methods, fun _ type htype => ⟨(hfits.types type htype).name,
    (hfits.types type htype).fields⟩⟩

namespace Sample

/-- A `Counter` whose one method has a name of 65 bytes. -/
def counterLong : EchoService :=
  counterOf 0 [method (List.replicate 65 97) 1] (by decide) (by decide) (by decide) (by decide)

/-- A server of it, behind the discovery service. -/
def longServer : Server where
  services := [only discovery, only counterLong]
  endpoints_lt := by decide

end Sample

/-- The client fails on the reply about a method with a name of 65 bytes. -/
theorem list_services_long_name :
    ¬ ∃ bytes, listServicesBody .leb128 (fun _ _ => .empty) Sample.longServer.descriptions false
        {} = .ok { written := bytes } ∧
      (unmarshal .leb128 Protocol.listServicesResponse (.ofBytes bytes)).2.err = none := by
  rintro ⟨bytes, hbytes, herr⟩
  obtain ⟨bytes', hbytes', hread⟩ := listServicesBody_iff Varint.leb128_lawful
    (fun _ _ => .empty) false Sample.longServer.descriptions
  rw [hbytes] at hbytes'
  cases hbytes'
  have hread := hread []
  rw [List.append_nil] at hread
  -- What was decoded would have names that fit.
  have hfit := hread.mp herr (describeService Sample.counterLong)
    (List.mem_cons_of_mem _ List.mem_cons_self)
  have hname := hfit.methods (Sample.method (List.replicate 65 97) 1).info List.mem_cons_self
  exact absurd hname (by decide)

end SerialRpc
