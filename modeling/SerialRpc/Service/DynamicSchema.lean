import SerialRpc.Lib.Keyed
import SerialRpc.Service.Generator
import SerialRpc.Encoding.Protocol

/-!
# Schemas from discovery (cmd/serialrpc/call.cc:276-410)

The command-line client has no generated code for the method it calls. It describes the types
of the service to protobuf, in a file of its own making, from what the server's discovery
service told it.

- `FileDescriptorProto`: what it sets of protobuf's descriptor messages.
- `registerType`, `describeType`: the two passes over the type table. The first one gives
  every entry a message and a name, the second one fills them in.
- `buildMethodDescriptorImpl`: the whole function, over any `BuildFile`.
-/

namespace SerialRpc

open Protocol (typeInfoId typeInfoType typeInfoFields typeInfoEnumValues fieldName fieldNumber
  fieldType fieldTypeId fieldRepeated enumValueName enumValueNumber serviceTypes
  methodRequestType methodResponseType methodClientStreaming methodServerStreaming)

/-! ## Protobuf's descriptor messages -/

/-- `FieldDescriptorProto`. -/
structure FieldDescriptorProto where
  name : Str
  number : Int32
  /-- `LABEL_REPEATED`; `LABEL_OPTIONAL` if not. -/
  repeated : Bool
  type : Int32
  typeName : Option Str := none
deriving DecidableEq

/-- `EnumValueDescriptorProto`. -/
structure EnumValueDescriptorProto where
  name : Str
  number : Int32
deriving DecidableEq

/-- `EnumDescriptorProto`. -/
structure EnumDescriptorProto where
  name : Str
  value : List EnumValueDescriptorProto := []
  allowAlias : Bool := false
deriving DecidableEq

/-- `DescriptorProto`. -/
structure DescriptorProto where
  name : Str
  field : List FieldDescriptorProto := []
  enumType : List EnumDescriptorProto := []
deriving DecidableEq

/-- `MethodDescriptorProto`. -/
structure MethodDescriptorProto where
  name : Str
  inputType : Str
  outputType : Str
  clientStreaming : Bool
  serverStreaming : Bool
deriving DecidableEq

/-- `ServiceDescriptorProto`. -/
structure ServiceDescriptorProto where
  name : Str
  method : List MethodDescriptorProto := []
deriving DecidableEq

/-- `FileDescriptorProto`. -/
structure FileDescriptorProto where
  name : Str
  package : Str
  /-- `set_syntax`. -/
  version : Str
  messageType : List DescriptorProto := []
  service : List ServiceDescriptorProto := []
deriving DecidableEq

/-! ## Texts -/

/-- The bytes of a literal. -/
def utf8 (s : String) : Str := s.toUTF8.toList

/-- `std::to_string` of a natural number. -/
def decimal (n : Nat) : Str := (Nat.toDigits 10 n).map fun c => UInt8.ofNat c.toNat

/-- `%v` of an `int`. -/
def decimalInt : Int → Str
  | .ofNat n => decimal n
  | .negSucc n => utf8 "-" ++ decimal (n + 1)

/-- What a call of the builder may end with instead of a file. -/
inductive SchemaFailure where
  /-- The error that was reported. -/
  | reported (text : Str)
  /-- An index or a key that is not there: `std::out_of_range`, or protobuf's own check. -/
  | outOfRange
deriving DecidableEq

/-- `FieldType::FieldTypeMessage`. -/
def fieldTypeMessage : Int32 := TypeKind.message.toInt32

/-- `FieldType::FieldTypeEnum`. -/
def fieldTypeEnum : Int32 := TypeKind.enum.toInt32

/-! ## The first pass -/

/-- What the first pass has built: the file, the four maps and the ids. -/
structure TypeTables where
  file : FileDescriptorProto
  messageNames : Keyed.Map UInt32 Str := .empty
  messageIndexes : Keyed.Map UInt32 Nat := .empty
  enumNames : Keyed.Map UInt32 Str := .empty
  enumContainerIndexes : Keyed.Map UInt32 Nat := .empty
  typeIds : List UInt32 := []

/-- `"Message" + std::to_string(type.id)`. -/
def generatedMessage (id : UInt32) : Str := utf8 "Message" ++ decimal id.toNat

/-- `"Enum" + std::to_string(type.id)`. -/
def generatedEnum (id : UInt32) : Str := utf8 "Enum" ++ decimal id.toNat

/-- The name of a message with its package. -/
def messageTypeName (id : UInt32) : Str := utf8 ".serialrpc_dynamic." ++ generatedMessage id

/-- The name of an enumeration with its container and package. -/
def enumTypeName (id : UInt32) : Str :=
  utf8 ".serialrpc_dynamic." ++ generatedEnum id ++ utf8 ".Value"

/-- A round of the first pass (call.cc:295-323). -/
def registerType (s : TypeTables) (type : Protocol.typeInfo.Val) :
    Except SchemaFailure TypeTables :=
  let id := typeInfoId type
  let size := s.file.messageType.length
  if id = 0 then
    .error (.reported (utf8 "serialrpc: discovered type has ID zero"))
  else if id ∈ s.typeIds then
    .error (.reported (utf8 "serialrpc: duplicate discovered type ID " ++ decimal id.toNat))
  else if typeInfoType type = fieldTypeMessage then
    .ok { s with
      file := { s.file with messageType := s.file.messageType ++ [{ name := generatedMessage id }] }
      messageNames := s.messageNames.emplace id (messageTypeName id)
      messageIndexes := s.messageIndexes.emplace id size
      typeIds := id :: s.typeIds }
  else if typeInfoType type = fieldTypeEnum then
    .ok { s with
      file := { s.file with
        messageType := s.file.messageType ++
          [{ name := generatedEnum id, enumType := [{ name := utf8 "Value" }] }] }
      enumNames := s.enumNames.emplace id (enumTypeName id)
      enumContainerIndexes := s.enumContainerIndexes.emplace id size
      typeIds := id :: s.typeIds }
  else
    .error (.reported (utf8 "serialrpc: discovered type " ++ decimal id.toNat ++
      utf8 " is not a message or enum"))

/-- The tables before the first pass (call.cc:290-294). -/
def TypeTables.start : TypeTables where
  file :=
    { name := utf8 "serialrpc_dynamic.proto", package := utf8 "serialrpc_dynamic",
      version := utf8 "proto3" }

/-! ## The second pass -/

/-- `std::map::at`. -/
def mapAt {β : Type} (m : Keyed.Map UInt32 β) (id : UInt32) : Except SchemaFailure β :=
  match m id with
  | some v => .ok v
  | none => .error .outOfRange

/-- Change the element that `mutable_message_type` or `mutable_enum_type` returns. -/
def mutate {β : Type} (elems : List β) (index : Nat) (change : β → Except SchemaFailure β) :
    Except SchemaFailure (List β) :=
  match elems[index]? with
  | some elem => do return elems.set index (← change elem)
  | none => .error .outOfRange

/-- The loop over the values of an enumeration (call.cc:332-339): the enumeration, the
numbers so far, and whether one of them came twice. -/
def describeEnumValues :
    List Protocol.enumValueInfo.Val → EnumDescriptorProto → List Int32 → Bool →
      EnumDescriptorProto × Bool
  | [], destination, _, hasAlias => (destination, hasAlias)
  | source :: sources, destination, numbers, hasAlias =>
    let value := { name := enumValueName source, number := enumValueNumber source }
    describeEnumValues sources { destination with value := destination.value ++ [value] }
      (enumValueNumber source :: numbers) (hasAlias || enumValueNumber source ∈ numbers)

/-- The enumeration of a table entry (call.cc:326-344). -/
def describeEnum (source : Protocol.typeInfo.Val) (destination : EnumDescriptorProto) :
    EnumDescriptorProto :=
  let (destination, hasAlias) := describeEnumValues (typeInfoEnumValues source) destination [] false
  if hasAlias then { destination with allowAlias := true } else destination

/-- A field type that protobuf has and this format has too (call.cc:351-357). -/
def FieldTypeInRange (type : Int32) : Prop := 1 ≤ type ∧ type ≤ 18 ∧ type ≠ 10

instance (type : Int32) : Decidable (FieldTypeInRange type) :=
  inferInstanceAs (Decidable (1 ≤ type ∧ type ≤ 18 ∧ type ≠ 10))

section Build

-- How baselib prints a string for `%q`.
variable (quote : Str → Str)

/-- A field of a message (call.cc:350-384). -/
def describeField (tables : TypeTables) (source : Protocol.fieldInfo.Val) :
    Except SchemaFailure FieldDescriptorProto :=
  if ¬ FieldTypeInRange (fieldType source) then
    .error (.reported (utf8 "serialrpc: field " ++ quote (fieldName source) ++
      utf8 " has invalid type " ++ decimalInt (fieldType source).toInt))
  else
    let field : FieldDescriptorProto :=
      { name := fieldName source, number := (fieldNumber source).toInt32,
        repeated := fieldRepeated source, type := fieldType source }
    if fieldType source = fieldTypeMessage then
      match tables.messageNames (fieldTypeId source) with
      | some found => .ok { field with typeName := some found }
      | none => .error (.reported (utf8 "serialrpc: unknown discovered message type " ++
          decimal (fieldTypeId source).toNat))
    else if fieldType source = fieldTypeEnum then
      match tables.enumNames (fieldTypeId source) with
      | some found => .ok { field with typeName := some found }
      | none => .error (.reported (utf8 "serialrpc: unknown discovered enum type " ++
          decimal (fieldTypeId source).toNat))
    else .ok field

/-- The loop over the fields of a message (call.cc:349-385). -/
def describeFields (tables : TypeTables) :
    List Protocol.fieldInfo.Val → DescriptorProto → Except SchemaFailure DescriptorProto
  | [], destination => .ok destination
  | source :: sources, destination => do
    let field ← describeField quote tables source
    describeFields tables sources { destination with field := destination.field ++ [field] }

/-- A round of the second pass (call.cc:325-386). -/
def describeType (tables : TypeTables) (file : FileDescriptorProto)
    (source : Protocol.typeInfo.Val) : Except SchemaFailure FileDescriptorProto := do
  if typeInfoType source = fieldTypeEnum then
    let index ← mapAt tables.enumContainerIndexes (typeInfoId source)
    let messageType ← mutate file.messageType index fun container => do
      let enumType ← mutate container.enumType 0 fun destination =>
        .ok (describeEnum source destination)
      return { container with enumType }
    return { file with messageType }
  else
    let index ← mapAt tables.messageIndexes (typeInfoId source)
    let messageType ←
      mutate file.messageType index (describeFields quote tables (typeInfoFields source))
    return { file with messageType }

/-! ## The whole function -/

/-- Everything before `BuildFile` (call.cc:279-402): the file that it is given. -/
def methodFile (service : Protocol.serviceInfo.Val) (method : Protocol.methodInfo.Val) :
    Except SchemaFailure FileDescriptorProto := do
  if methodRequestType method = 0 ∨ methodResponseType method = 0 ∨ serviceTypes service = [] then
    .error (.reported (utf8 "serialrpc: server does not support full discovery"))
  else
    let tables ← (serviceTypes service).foldlM registerType .start
    let file ← (serviceTypes service).foldlM (describeType quote tables) tables.file
    match tables.messageNames (methodRequestType method),
        tables.messageNames (methodResponseType method) with
    | some request, some response =>
      let dynamicMethod :=
        { name := utf8 "Method", inputType := request, outputType := response,
          clientStreaming := methodClientStreaming method,
          serverStreaming := methodServerStreaming method }
      return { file with
        service := file.service ++ [{ name := utf8 "Service", method := [dynamicMethod] }] }
    | _, _ => .error (.reported
        (utf8 "serialrpc: discovered method references an unknown message type"))

/-- `DescriptorPool::BuildFile`: the pool with the file in it, or `nullptr` and the pool as it
was. -/
abbrev BuildFile (Pool : Type) := FileDescriptorProto → Pool → Option Pool

/-- A `MethodDescriptor const *`: the file it is of, and the method. -/
structure DynamicMethod where
  file : FileDescriptorProto
  method : MethodDescriptorProto
deriving DecidableEq

/-- `built->service(0)->method(0)`. -/
def FileDescriptorProto.firstMethod (file : FileDescriptorProto) :
    Except SchemaFailure DynamicMethod :=
  match file.service[0]? with
  | none => .error .outOfRange
  | some service =>
    match service.method[0]? with
    | none => .error .outOfRange
    | some method => .ok ⟨file, method⟩

/-- `build_method_descriptor_impl` (call.cc:276-410). -/
def buildMethodDescriptorImpl {Pool : Type} (buildFile : BuildFile Pool)
    (service : Protocol.serviceInfo.Val) (method : Protocol.methodInfo.Val) (pool : Pool) :
    Except SchemaFailure DynamicMethod × Pool :=
  match methodFile quote service method with
  | .error failure => (.error failure, pool)
  | .ok file =>
    match buildFile file pool with
    | none =>
      (.error (.reported (utf8 "serialrpc: could not load discovered method schema")), pool)
    | some pool => (file.firstMethod, pool)

end Build

end SerialRpc
