import SerialRpc.Service.DynamicSchema
import SerialRpc.Service.TypeMetadata
import SerialRpc.Service.Uuid

/-!
# What the generator reads (serialrpc_objects.cc)

Before the generator prints anything, it makes objects of its own from the descriptors of a
file and of the files it imports. It refuses what it cannot print: field types it has no
object for, services without a UUID, methods without a number of their own, and messages and
enums that it has not made yet.

- `FileDescriptor`, `Descriptor` and so on: protobuf's descriptors, as trees. What points
  into another tree (a field at its message type) is an address.
- `EchoRoot`: the objects so far. `getFile`, `addMessage`, `addEnum`, `addService`: its
  operations, with the constructors they call.
- `GeneratorError`: what these throw, and `GeneratorError.text` what
  `CppInfraCodeGenerator::Generate` makes of it.
-/

namespace SerialRpc.Objects

/-! ## Descriptors -/

/-- A message or an enum that another descriptor points to. -/
structure TypeRef where
  address : Nat
  name : Str
  fullName : Str

/-- `FieldDescriptor::type`, with `message_type` or `enum_type`. -/
inductive FieldType where
  | double
  | float
  | int64
  | uint64
  | int32
  | fixed64
  | fixed32
  | bool
  | string
  | group
  | message (type : TypeRef)
  | bytes
  | uint32
  | enum (type : TypeRef)
  | sfixed32
  | sfixed64
  | sint32
  | sint64

/-- The enumerator's number. -/
def FieldType.number : FieldType → Nat
  | .double => 1
  | .float => 2
  | .int64 => 3
  | .uint64 => 4
  | .int32 => 5
  | .fixed64 => 6
  | .fixed32 => 7
  | .bool => 8
  | .string => 9
  | .group => 10
  | .message _ => 11
  | .bytes => 12
  | .uint32 => 13
  | .enum _ => 14
  | .sfixed32 => 15
  | .sfixed64 => 16
  | .sint32 => 17
  | .sint64 => 18

/-- `google::protobuf::FieldDescriptor`, with the options of serialrpc.proto. -/
structure FieldDescriptor where
  name : Str
  number : Int32
  type : FieldType
  hasProto3Optional : Bool
  isRepeated : Bool
  stringSize : UInt32
  bytesSize : UInt32
  arraySize : UInt32

/-- `google::protobuf::EnumDescriptor`. -/
structure EnumDescriptor where
  address : Nat
  name : Str
  values : List EnumValueInfo

/-- `google::protobuf::Descriptor`. -/
structure Descriptor where
  address : Nat
  name : Str
  enumTypes : List EnumDescriptor
  nestedTypes : List Descriptor
  fields : List FieldDescriptor

/-- `google::protobuf::MethodDescriptor`, with its `method_id`. -/
structure MethodDescriptor where
  name : Str
  methodId : UInt32
  inputType : TypeRef
  outputType : TypeRef
  serverStreaming : Bool

/-- `google::protobuf::ServiceDescriptor`, with the options of serialrpc.proto. -/
structure ServiceDescriptor where
  address : Nat
  name : Str
  uuid : Str
  majorVersion : UInt32
  minorVersion : UInt32
  methods : List MethodDescriptor

/-- `google::protobuf::FileDescriptor`. A file that several import is in the tree of each. -/
structure FileDescriptor where
  name : Str
  dependencies : List FileDescriptor
  enumTypes : List EnumDescriptor
  messageTypes : List Descriptor
  services : List ServiceDescriptor

/-! ## Errors -/

/-- What is thrown (serialrpc_objects.h:368-422), and the two ways in which the process ends. -/
inductive GeneratorError where
  | unsupportedFieldType (fieldName : Str) (type : FieldType)
  | unspecifiedStringSize (fieldName : Str)
  | unspecifiedBytesSize (fieldName : Str)
  | unspecifiedArraySize (fieldName : Str)
  | unspecifiedServiceId (service : Str)
  | invalidServiceUuid (service uuid : Str)
  | unspecifiedMethodId (service method : Str)
  | duplicateMethodId (service firstMethod secondMethod : Str) (methodId : UInt32)
  | messageNotFound (name : Str)
  | enumNotFound (name : Str)
  /-- `panic("string size")` -/
  | stringSize
  /-- `std::abort()` -/
  | abort

/-- The text that `Generate` hands to protoc (protoc_serialrpc_plugin.cc:931-986). -/
def GeneratorError.text : GeneratorError → Option Str
  | .unsupportedFieldType fieldName type =>
    some (utf8 "Unsupported field type " ++ decimal type.number ++ utf8 " of field " ++ fieldName)
  | .unspecifiedStringSize fieldName =>
    some (utf8 "Field " ++ fieldName ++
      utf8 " needs a string_size specifying its maximum number of characters")
  | .unspecifiedBytesSize fieldName =>
    some (utf8 "Field " ++ fieldName ++
      utf8 " needs a bytes_size specifying its maximum number of bytes")
  | .unspecifiedArraySize fieldName =>
    some (utf8 "Field " ++ fieldName ++
      utf8 " needs an array_size specifying its maximum number of elements")
  | .unspecifiedServiceId service =>
    some (utf8 "Field " ++ service ++ utf8 " needs a service_id specifying its id")
  | .invalidServiceUuid service uuid =>
    if uuid = [] then some (utf8 "Service " ++ service ++ utf8 " needs a uuid option")
    else some (utf8 "Service " ++ service ++ utf8 " has invalid uuid '" ++ uuid ++ utf8 "'")
  | .unspecifiedMethodId service method =>
    some (utf8 "Field " ++ service ++ utf8 "." ++ method ++
      utf8 " needs a method_id specifying its id")
  | .duplicateMethodId service firstMethod secondMethod methodId =>
    some (utf8 "Service " ++ service ++ utf8 " methods " ++ firstMethod ++ utf8 " and " ++
      secondMethod ++ utf8 " use duplicate method_id " ++ decimal methodId.toNat)
  | .messageNotFound name =>
    some (utf8 "Message " ++ name ++ utf8 " was used before having been fully defined")
  | .enumNotFound name =>
    some (utf8 "Enum " ++ name ++ utf8 " was used before having been fully defined")
  | .stringSize => none
  | .abort => none

/-! ## Objects -/

/-- `EchoEnum`. -/
structure EchoEnum where
  descriptor : EnumDescriptor
  members : List (Str × Int32)

mutual

/-- `EchoField`. -/
inductive EchoField where
  | mk (name : Str) (number : Int32) (subclass : EchoFieldClass)

/-- The subclasses of `EchoField`, with their members. Those without one of their own here are
the `scalar` ones. -/
inductive EchoFieldClass where
  | scalar (type : ScalarType)
  | unboundedString
  | unboundedBytes
  | enum (type : EchoEnum)
  | message (message : EchoMessage)
  | optional (type : EchoField)
  | repeated (maxArraySize : UInt32) (type : EchoField)
  | unboundedRepeated (type : EchoField)

/-- `EchoMessage`. -/
inductive EchoMessage where
  | mk (descriptor : Descriptor) (nestedEnums : List EchoEnum)
      (nestedMessages : List EchoMessage) (fields : List EchoField)

end

def EchoMessage.descriptor : EchoMessage → Descriptor
  | .mk descriptor _ _ _ => descriptor

def EchoMessage.nestedEnums : EchoMessage → List EchoEnum
  | .mk _ nestedEnums _ _ => nestedEnums

def EchoMessage.nestedMessages : EchoMessage → List EchoMessage
  | .mk _ _ nestedMessages _ => nestedMessages

def EchoMessage.fields : EchoMessage → List EchoField
  | .mk _ _ _ fields => fields

/-- `EchoMethod`. -/
structure EchoMethod where
  name : Str
  methodId : UInt32
  parameter : Option EchoMessage
  result : Option EchoMessage
  serverStreaming : Bool

/-- `EchoService`. -/
structure EchoService where
  descriptor : ServiceDescriptor
  uuid : Uuid
  majorVersion : Int32
  minorVersion : Int32
  methods : List EchoMethod

/-- `EchoFile`. -/
structure EchoFile where
  name : Str
  enums : List EchoEnum
  messages : List EchoMessage
  services : List EchoService
  dependencies : List EchoFile

/-- `EchoRoot`. -/
structure EchoRoot where
  files : List EchoFile := []
  messages : List EchoMessage := []
  enums : List EchoEnum := []
  services : List EchoService := []

namespace EchoRoot

/-- `EchoRoot::GetMessage` (serialrpc_objects.cc:928-935). -/
def getMessage (root : EchoRoot) (descriptor : TypeRef) : Except GeneratorError EchoMessage :=
  match root.messages.find? fun message => message.descriptor.address = descriptor.address with
  | some message => .ok message
  | none => .error (.messageNotFound descriptor.name)

/-- `EchoRoot::GetEnum` (serialrpc_objects.cc:948-955). -/
def getEnum (root : EchoRoot) (descriptor : TypeRef) : Except GeneratorError EchoEnum :=
  match root.enums.find? fun enum_ => enum_.descriptor.address = descriptor.address with
  | some enum_ => .ok enum_
  | none => .error (.enumNotFound descriptor.name)

end EchoRoot

/-! ## Fields -/

/-- `EchoFieldString` (serialrpc_objects.cc:626-635). -/
def echoFieldString (d : FieldDescriptor) : Except GeneratorError EchoField :=
  if d.stringSize = 0 then .error .stringSize
  else .ok (.mk d.name d.number (.scalar (.string d.stringSize.toNat)))

/-- `EchoFieldBytes` (serialrpc_objects.cc:668-676). -/
def echoFieldBytes (d : FieldDescriptor) : Except GeneratorError EchoField :=
  if d.bytesSize = 0 then .error (.unspecifiedBytesSize d.name)
  else .ok (.mk d.name d.number (.scalar (.bytes d.bytesSize.toNat)))

/-- `EchoFieldRepeated` (serialrpc_objects.cc:776-786). -/
def echoFieldRepeated (d : FieldDescriptor) (type : EchoField) : Except GeneratorError EchoField :=
  if d.arraySize = 0 then .error (.unspecifiedArraySize d.name)
  else .ok (.mk d.name d.number (.repeated d.arraySize type))

/-- The four switches of `GenerateField`, which differ in what they wrap the field in
(serialrpc_objects.cc:233-273, 275-315, 317-357, 359-399). -/
def EchoRoot.fieldOfType (root : EchoRoot) (d : FieldDescriptor) :
    Except GeneratorError EchoField :=
  match d.type with
  | .int64 => .ok (.mk d.name d.number (.scalar .int64))
  | .uint64 => .ok (.mk d.name d.number (.scalar .uint64))
  | .int32 => .ok (.mk d.name d.number (.scalar .int32))
  | .fixed64 => .ok (.mk d.name d.number (.scalar .fixed64))
  | .fixed32 => .ok (.mk d.name d.number (.scalar .fixed32))
  | .bool => .ok (.mk d.name d.number (.scalar .bool))
  | .string =>
    if d.stringSize ≠ 0 then echoFieldString d else .ok (.mk d.name d.number .unboundedString)
  | .message type => do
    let message ← root.getMessage type
    return .mk d.name d.number (.message message)
  | .bytes =>
    if d.bytesSize ≠ 0 then echoFieldBytes d else .ok (.mk d.name d.number .unboundedBytes)
  | .uint32 => .ok (.mk d.name d.number (.scalar .uint32))
  | .enum type => do
    let enum_ ← root.getEnum type
    return .mk d.name d.number (.enum enum_)
  | .sfixed64 => .ok (.mk d.name d.number (.scalar .sfixed64))
  | .sfixed32 => .ok (.mk d.name d.number (.scalar .sfixed32))
  | .float => .ok (.mk d.name d.number (.scalar .float))
  | .double => .ok (.mk d.name d.number (.scalar .double))
  | .group => .error (.unsupportedFieldType d.name d.type)
  | .sint32 => .error (.unsupportedFieldType d.name d.type)
  | .sint64 => .error (.unsupportedFieldType d.name d.type)

/-- `EchoField::GenerateField` (serialrpc_objects.cc:225-400). -/
def EchoRoot.generateField (root : EchoRoot) (d : FieldDescriptor) :
    Except GeneratorError EchoField := do
  let type ← root.fieldOfType d
  if d.hasProto3Optional then return .mk d.name d.number (.optional type)
  else if ¬ d.isRepeated then return type
  else if d.arraySize ≠ 0 then echoFieldRepeated d type
  else return .mk d.name d.number (.unboundedRepeated type)

/-! ## What is added -/

/-- An operation of `EchoRoot`. -/
abbrev Reading (α : Type) := EchoRoot → Except GeneratorError (α × EchoRoot)

/-- The loops of the constructors: what is added for each of a list of descriptors. -/
def addAll {δ α : Type} (add : δ → Reading α) : List δ → Reading (List α)
  | [], root => .ok ([], root)
  | d :: ds, root => do
    let (object, root) ← add d root
    let (objects, root) ← addAll add ds root
    return (object :: objects, root)

/-- `EchoEnum::EchoEnum` (serialrpc_objects.cc:402-413). -/
def echoEnum (descriptor : EnumDescriptor) : EchoEnum :=
  { descriptor, members := descriptor.values.map fun value => (value.name, value.number) }

/-- `EchoRoot::AddEnum` (serialrpc_objects.cc:937-946). -/
def addEnum (descriptor : EnumDescriptor) : Reading EchoEnum := fun root =>
  if root.enums.any fun enum_ => enum_.descriptor.address = descriptor.address then .error .abort
  else
    let result := echoEnum descriptor
    .ok (result, { root with enums := root.enums ++ [result] })

mutual

/-- `EchoRoot::AddMessage` (serialrpc_objects.cc:917-926) and `EchoMessage::EchoMessage`
(serialrpc_objects.cc:415-433). -/
def addMessage : Descriptor → Reading EchoMessage
  | ⟨address, name, enumTypes, nestedTypes, fields⟩, root =>
    if root.messages.any fun message => message.descriptor.address = address then .error .abort
    else do
      let (nestedEnums, root) ← addAll addEnum enumTypes root
      let (nestedMessages, root) ← addMessages nestedTypes root
      let echoFields ← fields.mapM root.generateField
      let result := .mk ⟨address, name, enumTypes, nestedTypes, fields⟩ nestedEnums
        nestedMessages echoFields
      return (result, { root with messages := root.messages ++ [result] })

/-- The loop over the messages of a message or of a file. -/
def addMessages : List Descriptor → Reading (List EchoMessage)
  | [], root => .ok ([], root)
  | d :: ds, root => do
    let (message, root) ← addMessage d root
    let (messages, root) ← addMessages ds root
    return (message :: messages, root)

end

/-- What `EchoMethod` has for its request or its response: nothing for `void`. -/
def EchoRoot.methodType (root : EchoRoot) (type : TypeRef) :
    Except GeneratorError (Option EchoMessage) :=
  if type.fullName ≠ voidName then do
    let message ← root.getMessage type
    return some message
  else return none

/-- `EchoMethod::EchoMethod` (serialrpc_objects.cc:806-829). -/
def EchoRoot.echoMethod (root : EchoRoot) (d : MethodDescriptor) :
    Except GeneratorError EchoMethod :=
  if d.methodId = 0 then .error (.unspecifiedMethodId [] d.name)
  else do
    let parameter ← root.methodType d.inputType
    let result ← root.methodType d.outputType
    return { name := d.name, methodId := d.methodId, parameter, result,
             serverStreaming := d.serverStreaming }

/-- The loop over the methods of a service, behind those that it has read. -/
def EchoRoot.echoMethods (root : EchoRoot) (service : Str) :
    List EchoMethod → List MethodDescriptor → Except GeneratorError (List EchoMethod)
  | methods, [] => .ok methods
  | methods, d :: ds => do
    let method ← root.echoMethod d
    match methods.find? fun previous => previous.methodId = method.methodId with
    | some previous =>
      .error (.duplicateMethodId service previous.name method.name method.methodId)
    | none => root.echoMethods service (methods ++ [method]) ds

/-- What is caught around the loop. -/
def GeneratorError.rethrow (service : Str) : GeneratorError → GeneratorError
  | .unspecifiedMethodId _ method => .unspecifiedMethodId service method
  | e => e

/-- `EchoService::EchoService` (serialrpc_objects.cc:831-862). -/
def EchoRoot.echoService (root : EchoRoot) (d : ServiceDescriptor) :
    Except GeneratorError EchoService :=
  match uuidStringToBytes d.uuid with
  | none => .error (.invalidServiceUuid d.name d.uuid)
  | some uuid => do
    let methods ← (root.echoMethods d.name [] d.methods).mapError (.rethrow d.name)
    return { descriptor := d, uuid, majorVersion := d.majorVersion.toInt32,
             minorVersion := d.minorVersion.toInt32, methods }

/-- `EchoRoot::AddService` (serialrpc_objects.cc:957-966). -/
def addService (d : ServiceDescriptor) : Reading EchoService := fun root =>
  if root.services.any fun service => service.descriptor.address = d.address then .error .abort
  else do
    let result ← root.echoService d
    return (result, { root with services := root.services ++ [result] })

section Files

-- protobuf's `StripProto`
variable (stripProto : Str → Str)

mutual

/-- `EchoRoot::GetFile` (serialrpc_objects.cc:906-915) and `EchoFile::EchoFile`
(serialrpc_objects.cc:864-885). -/
def getFile : FileDescriptor → Reading EchoFile
  | ⟨name, dependencies, enumTypes, messageTypes, services⟩, root =>
    match root.files.find? fun file => file.name = stripProto name with
    | some file => .ok (file, root)
    | none => do
      let (dependencies, root) ← getDependencies dependencies root
      let (enums, root) ← addAll addEnum enumTypes root
      let (messages, root) ← addMessages messageTypes root
      let (services, root) ← addAll addService services root
      let result := { name := stripProto name, enums, messages, services, dependencies }
      return (result, { root with files := root.files ++ [result] })

/-- The loop over the imports, which leaves out `serialrpc.proto`. -/
def getDependencies : List FileDescriptor → Reading (List EchoFile)
  | [], root => .ok ([], root)
  | d :: ds, root =>
    if d.name ≠ voidFile then do
      let (file, root) ← getFile d root
      let (files, root) ← getDependencies ds root
      return (file :: files, root)
    else getDependencies ds root

end

/-- `EchoRoot::EchoRoot` (serialrpc_objects.cc:887-890). -/
def echoRoot (rootFile : FileDescriptor) : Except GeneratorError EchoRoot := do
  let (_, root) ← getFile stripProto rootFile {}
  return root

end Files

end SerialRpc.Objects
