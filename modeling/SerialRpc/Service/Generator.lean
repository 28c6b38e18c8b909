import SerialRpc.Lib.Rank
import SerialRpc.Encoding.Schema

/-!
# Endpoint numbers in generated code (protoc_serialrpc_plugin.cc)

The generator copies a service's methods, sorts them by `method_id`, numbers the
copies through the whole file, and prints from them the server's dispatch table and,
after a second sort, the stub.

- `EchoMethod`, `EchoService`: a service as the generator has read it. What its
  constructor refuses (ids that are zero or repeated) cannot be built.
- `echoGenerator`: the sort and the renumbering of one file.
- `ServiceClass`: the generated classes of one service of a file, with the dispatch
  table (`dispatchTable`) and the number the stub adds to its offset (`stubId`).

Both come out as ranks of method ids: `stubId_eq_rank`, `dispatchTable_getElem?`.
-/

namespace SerialRpc

/-- `lib::str`: the bytes of a string. -/
abbrev Str := List UInt8

/-- `std::array<uint8, 16>`, a UUID. -/
@[ext] structure Uuid where
  bytes : List UInt8
  length_eq : bytes.length = 16
deriving DecidableEq

/-- `enum class TypeKind` (method_info.h:12-31). -/
inductive TypeKind where
  | unknown
  | double
  | float
  | int64
  | uint64
  | int32
  | fixed64
  | fixed32
  | bool
  | string
  | message
  | bytes
  | uint32
  | enum
  | sfixed32
  | sfixed64
  | sint32
  | sint64
deriving DecidableEq, Repr

/-- The enumerator's number. -/
def TypeKind.toInt32 : TypeKind → Int32
  | .unknown => 0
  | .double => 1
  | .float => 2
  | .int64 => 3
  | .uint64 => 4
  | .int32 => 5
  | .fixed64 => 6
  | .fixed32 => 7
  | .bool => 8
  | .string => 9
  | .message => 11
  | .bytes => 12
  | .uint32 => 13
  | .enum => 14
  | .sfixed32 => 15
  | .sfixed64 => 16
  | .sint32 => 17
  | .sint64 => 18

/-- `TypeInfo const*`: an address, and the kind read through it. -/
structure TypePtr where
  address : Nat
  kind : TypeKind

/-- `struct FieldInfo` (method_info.h:47-52). -/
structure FieldInfo where
  name : Str
  number : UInt32
  type : TypePtr
  repeated : Bool

/-- `struct EnumValueInfo` (method_info.h:35-38). -/
structure EnumValueInfo where
  name : Str
  number : Int32

/-- `struct TypeInfo` (method_info.h:40-45), and the address it is found at. -/
structure TypeInfo where
  address : Nat
  kind : TypeKind
  name : Str
  fields : List FieldInfo
  enumValues : List EnumValueInfo

/-- `EchoMethod` (serialrpc_objects.cc:806-832): a method as declared. A method whose
request or response is `void` has no parameter or no result. -/
structure EchoMethod where
  name : Str
  methodId : Nat
  parameter : Option MessageType
  result : Option MessageType
  clientStreaming : Bool
  serverStreaming : Bool
  /-- Where the metadata of the request and response types is. -/
  inputType : TypePtr
  outputType : TypePtr

/-- `EchoService` (serialrpc_objects.cc:834-863): a service as declared, its methods in
declaration order. -/
structure EchoService where
  name : Str
  package : Str
  uuid : Uuid
  majorVersion : Int32
  minorVersion : Int32
  methods : List EchoMethod
  types : List TypeInfo
  /-- `method_id` is a `uint32`. -/
  methodId_lt : ∀ m ∈ methods, m.methodId < 2 ^ 32
  /-- `throw UnspecifiedMethodId`. -/
  methodId_ne_zero : ∀ m ∈ methods, m.methodId ≠ 0
  /-- `throw DuplicateMethodId`. -/
  methodIds_nodup : (methods.map EchoMethod.methodId).Nodup
  /-- protobuf's names are not empty, and those of one scope are distinct. -/
  name_ne_nil : name ≠ []
  names_nodup : (methods.map EchoMethod.name).Nodup

/-- The method with a given name is the only one. -/
theorem EchoService.eq_of_name_eq (s : EchoService) {m m' : EchoMethod} (h : m ∈ s.methods)
    (h' : m' ∈ s.methods) (heq : m.name = m'.name) : m = m' :=
  List.inj_on_of_nodup_map s.names_nodup h h' heq

/-- A copy of a method, with the number that replaces its `methodId`. -/
structure Numbered where
  method : EchoMethod
  id : Nat

/-- `std::sort` by `methodId` (protoc_serialrpc_plugin.cc:2322-2324). The ids are
distinct, so the order does not depend on the algorithm. -/
def sortMethods (methods : List EchoMethod) : List EchoMethod :=
  Rank.sortBy EchoMethod.methodId methods

/-- `method.methodId = id++` over the methods of a service. -/
def renumber : Nat → List EchoMethod → List Numbered
  | _, [] => []
  | id, method :: methods => ⟨method, id⟩ :: renumber (id + 1) methods

/-- The sort and the renumbering of the services of a file
(protoc_serialrpc_plugin.cc:2318-2333); `id` counts through all of them. -/
def echoGenerator : Nat → List EchoService → List (List Numbered)
  | _, [] => []
  | id, service :: services =>
    let methods := renumber id (sortMethods service.methods)
    methods :: echoGenerator (id + methods.length) services

@[simp] theorem renumber_map_method :
    ∀ id methods, (renumber id methods).map Numbered.method = methods
  | _, [] => rfl
  | id, method :: methods => congrArg (method :: ·) (renumber_map_method (id + 1) methods)

theorem le_of_mem_renumber : ∀ {id methods} {n : Numbered}, n ∈ renumber id methods → id ≤ n.id
  | _, [], _, h => by cases h
  | id, _ :: methods, n, h => by
    rcases List.mem_cons.mp h with rfl | h
    · exact Nat.le_refl id
    · exact (Nat.le_succ id).trans (le_of_mem_renumber h)

/-- The new numbers increase, so the stub's sort keeps the order. -/
theorem renumber_increasing :
    ∀ id methods, Rank.Increasing Numbered.id (renumber id methods)
  | _, [] => List.Pairwise.nil
  | id, _ :: methods =>
    List.pairwise_cons.mpr
      ⟨fun _ h => Nat.lt_of_succ_le (le_of_mem_renumber h), renumber_increasing (id + 1) methods⟩

@[simp] theorem echoGenerator_length :
    ∀ id services, (echoGenerator id services).length = services.length
  | _, [] => rfl
  | _, _ :: services => congrArg Nat.succ (echoGenerator_length _ services)

/-- A service's copies are its sorted methods, numbered from some number on. -/
theorem echoGenerator_getElem :
    ∀ (id : Nat) (services : List EchoService) (i : Nat) (h : i < services.length)
      (h' : i < (echoGenerator id services).length),
      ∃ start, (echoGenerator id services)[i] = renumber start (sortMethods services[i].methods)
  | _, [], i, h, _ => absurd h (Nat.not_lt_zero i)
  | id, _ :: _, 0, _, _ => ⟨id, rfl⟩
  | _, _ :: services, i + 1, h, h' =>
    echoGenerator_getElem _ services i (Nat.lt_of_succ_lt_succ h) (Nat.lt_of_succ_lt_succ h')

/-- The classes generated for one service of a `.proto` file. -/
structure ServiceClass where
  file : List EchoService
  index : Nat
  index_lt : index < file.length

namespace ServiceClass

/-- The service as declared. -/
def service (c : ServiceClass) : EchoService := c.file.get ⟨c.index, c.index_lt⟩

/-- The numbered copies of its methods that the classes are printed from. -/
def methods (c : ServiceClass) : List Numbered :=
  (echoGenerator 1 c.file).get ⟨c.index, (echoGenerator_length 1 c.file).symm ▸ c.index_lt⟩

/-- `dispatch_table` of the server base (protoc_serialrpc_plugin.cc:2673-2681): the
method each entry dispatches. -/
def dispatchTable (c : ServiceClass) : List EchoMethod := c.methods.map Numbered.method

/-- The stub's methods, after the second sort (protoc_serialrpc_plugin.cc:2975-2978). -/
def stubMethods (c : ServiceClass) : List Numbered := Rank.sortBy Numbered.id c.methods

/-- The number printed into the stub's functions for a method: `id` starts at -1 and
is incremented before each method (protoc_serialrpc_plugin.cc:2955, 3000). -/
def stubId (c : ServiceClass) (name : Str) : Nat :=
  c.stubMethods.findIdx fun n => n.method.name = name

theorem methods_eq (c : ServiceClass) :
    ∃ start, c.methods = renumber start (sortMethods c.service.methods) :=
  echoGenerator_getElem 1 c.file c.index c.index_lt _

theorem dispatchTable_eq (c : ServiceClass) : c.dispatchTable = sortMethods c.service.methods := by
  obtain ⟨start, hstart⟩ := c.methods_eq
  rw [dispatchTable, hstart, renumber_map_method]

@[simp] theorem dispatchTable_length (c : ServiceClass) :
    c.dispatchTable.length = c.service.methods.length := by
  rw [dispatchTable_eq]
  exact (Rank.sortBy_perm _ _).length_eq

/-- The second sort changes nothing. -/
theorem stubMethods_eq (c : ServiceClass) : c.stubMethods = c.methods := by
  obtain ⟨start, hstart⟩ := c.methods_eq
  rw [stubMethods, hstart]
  exact Rank.sortBy_of_increasing (renumber_increasing start _)

/-- The stub's number of a method is the rank of its id. -/
theorem stubId_eq_rank (c : ServiceClass) {m : EchoMethod} (hm : m ∈ c.service.methods) :
    c.stubId m.name = Rank.rank EchoMethod.methodId c.service.methods m.methodId := by
  have hsorted : c.stubMethods.map Numbered.method = sortMethods c.service.methods := by
    rw [stubMethods_eq]
    exact c.dispatchTable_eq
  have hperm := Rank.sortBy_perm EchoMethod.methodId c.service.methods
  have hfind : c.stubId m.name =
      (sortMethods c.service.methods).findIdx fun m' => m'.name = m.name := by
    rw [stubId, ← hsorted, List.findIdx_map]
    rfl
  rw [hfind, ← Rank.rank_perm hperm]
  exact Rank.findIdx_eq_rank (Rank.sortBy_increasing c.service.methodIds_nodup)
    (hperm.mem_iff.mpr hm) (by simp)
    fun m' hm' hname => c.service.eq_of_name_eq (hperm.mem_iff.mp hm') hm (by simpa using hname)

/-- The dispatch table has a method at the rank of its id. -/
theorem dispatchTable_getElem? (c : ServiceClass) {m : EchoMethod} (hm : m ∈ c.service.methods) :
    c.dispatchTable[Rank.rank EchoMethod.methodId c.service.methods m.methodId]? = some m := by
  rw [dispatchTable_eq]
  exact Rank.getElem?_sortBy_rank c.service.methodIds_nodup hm

end ServiceClass

end SerialRpc
