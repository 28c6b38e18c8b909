import SerialRpc.Encoding.Schema

/-!
# The protocol's own messages (serialrpc_protocol.proto)

The message types of the handshake and of the discovery service, as the generator
sees them, with their field numbers and bounds.
-/

namespace SerialRpc

namespace Protocol

/-- `message ServiceDef`. -/
def serviceDef : MessageType :=
  .field 1 (.scalar (.bytes 16)) <|
  .field 2 (.scalar .int32) <|
  .field 3 (.scalar .int32) <|
  .field 4 (.scalar .int32) .empty

/-- `message ServerHello`. -/
def serverHello : MessageType :=
  .field 1 (.scalar .uint32) <|
  .field 2 (.repeated serviceDef) .empty

/-- `message FieldInfo`. -/
def fieldInfo : MessageType :=
  .field 1 (.scalar (.string 64)) <|
  .field 2 (.scalar .uint32) <|
  .field 3 (.scalar .enum) <|
  .field 4 (.scalar .uint32) <|
  .field 5 (.scalar .bool) .empty

/-- `message EnumValueInfo`. -/
def enumValueInfo : MessageType :=
  .field 1 (.scalar (.string 64)) <|
  .field 2 (.scalar .int32) .empty

/-- `message TypeInfo`. -/
def typeInfo : MessageType :=
  .field 1 (.scalar .uint32) <|
  .field 2 (.scalar .enum) <|
  .field 3 (.scalar (.string 128)) <|
  .field 4 (.repeated fieldInfo) <|
  .field 5 (.repeated enumValueInfo) .empty

/-- `message MethodInfo`. -/
def methodInfo : MessageType :=
  .field 1 (.scalar (.string 64)) <|
  .field 2 (.scalar .uint32) <|
  .field 3 (.scalar .uint32) <|
  .field 4 (.scalar .uint32) <|
  .field 5 (.scalar .bool) <|
  .field 6 (.scalar .bool) .empty

/-- `message ServiceInfo`. -/
def serviceInfo : MessageType :=
  .field 1 (.scalar (.string 128)) <|
  .field 2 (.scalar (.bytes 16)) <|
  .field 3 (.scalar .int32) <|
  .field 4 (.scalar .int32) <|
  .field 5 (.repeated methodInfo) <|
  .field 6 (.repeated typeInfo) .empty

/-- `message ListServicesRequest`. -/
def listServicesRequest : MessageType :=
  .field 1 (.scalar .bool) .empty

/-- `message ListServicesResponse`. -/
def listServicesResponse : MessageType :=
  .field 1 (.repeated serviceInfo) .empty

/-! ## Members -/

/-- `MethodInfo::name`. -/
def methodName (m : methodInfo.Val) : List UInt8 := m.1.data

/-- `MethodInfo::id`. -/
def methodId (m : methodInfo.Val) : UInt32 := m.2.1

/-- `MethodInfo::request_type`. -/
def methodRequestType (m : methodInfo.Val) : UInt32 := m.2.2.1

/-- `MethodInfo::response_type`. -/
def methodResponseType (m : methodInfo.Val) : UInt32 := m.2.2.2.1

/-- `MethodInfo::client_streaming`. -/
def methodClientStreaming (m : methodInfo.Val) : Bool := m.2.2.2.2.1

/-- `MethodInfo::server_streaming`. -/
def methodServerStreaming (m : methodInfo.Val) : Bool := m.2.2.2.2.2.1

/-- `FieldInfo::name`. -/
def fieldName (f : fieldInfo.Val) : List UInt8 := f.1.data

/-- `FieldInfo::number`. -/
def fieldNumber (f : fieldInfo.Val) : UInt32 := f.2.1

/-- `FieldInfo::type`. -/
def fieldType (f : fieldInfo.Val) : Int32 := f.2.2.1

/-- `FieldInfo::type_id`. -/
def fieldTypeId (f : fieldInfo.Val) : UInt32 := f.2.2.2.1

/-- `FieldInfo::repeated`. -/
def fieldRepeated (f : fieldInfo.Val) : Bool := f.2.2.2.2.1

/-- `EnumValueInfo::name`. -/
def enumValueName (v : enumValueInfo.Val) : List UInt8 := v.1.data

/-- `EnumValueInfo::number`. -/
def enumValueNumber (v : enumValueInfo.Val) : Int32 := v.2.1

/-- `TypeInfo::id`. -/
def typeInfoId (t : typeInfo.Val) : UInt32 := t.1

/-- `TypeInfo::type`. -/
def typeInfoType (t : typeInfo.Val) : Int32 := t.2.1

/-- `TypeInfo::fields`. -/
def typeInfoFields (t : typeInfo.Val) : List fieldInfo.Val := t.2.2.2.1

/-- `TypeInfo::enum_values`. -/
def typeInfoEnumValues (t : typeInfo.Val) : List enumValueInfo.Val := t.2.2.2.2.1

/-- `ServiceInfo::name`. -/
def serviceName (s : serviceInfo.Val) : List UInt8 := s.1.data

/-- `ServiceInfo::methods`. -/
def serviceMethods (s : serviceInfo.Val) : List methodInfo.Val := s.2.2.2.2.1

/-- `ServiceInfo::types`. -/
def serviceTypes (s : serviceInfo.Val) : List typeInfo.Val := s.2.2.2.2.2.1

/-- `ListServicesResponse::services`. -/
def responseServices (r : listServicesResponse.Val) : List serviceInfo.Val := r.1

/-- `ServiceDef::uuid`. -/
def defUuid (d : serviceDef.Val) : List UInt8 := d.1.data

/-- `ServiceDef::major_version`. -/
def defMajorVersion (d : serviceDef.Val) : Int32 := d.2.1

/-- `ServiceDef::minor_version`. -/
def defMinorVersion (d : serviceDef.Val) : Int32 := d.2.2.1

/-- `ServiceDef::num_endpoints`. -/
def defNumEndpoints (d : serviceDef.Val) : Int32 := d.2.2.2.1

/-- A `MethodInfo` with a name and an id only. -/
def namedMethod (name : InlineString 64) (id : UInt32) : methodInfo.Val :=
  (name, id, 0, 0, false, false, ())

/-- A `ServiceInfo` with a name and methods only. -/
def namedService (name : InlineString 128) (methods : List methodInfo.Val) : serviceInfo.Val :=
  (name, .empty, 0, 0, methods, [], ())

end Protocol

end SerialRpc
