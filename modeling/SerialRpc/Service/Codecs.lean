import SerialRpc.Service.DiscoveredSchema

/-!
# The types of a schema (serialrpc_objects.cc:225-415, call.cc:347-384)

The generator makes a codec for a message of the `.proto` files, and the client's protobuf
makes messages after the client's own file. Both go by the fields of a message: their
numbers, kinds and labels, and for a message field by the fields of the message it is of.

- `Schema`: what both look at. `MessageType.Follows`: a message type is one of a schema.
- `Follows.transfer`: of two schemas that agree on what they say of fields, one has the
  types that the other has.
- `Pool.schema`, `FileDescriptorProto.schema`: the schemas of the `.proto` files and of the
  client's file. `Pool.Mirrored.follows`: the client's messages are of the types that the
  generated codecs are for.
- `Pool.Generates`: the service that is generated from a descriptor. `Layout.prepareCall_eq`:
  what the client makes of its reply before it calls one of its methods.
-/

namespace SerialRpc

open Protocol (typeInfoId serviceTypes methodRequestType methodResponseType)

/-- What is looked at in a field, however it is described. -/
structure Schema (F : Type) where
  number : F → BitVec 32
  /-- `FieldDescriptor::Type`. -/
  kind : F → Int32
  repeated : F → Bool
  /-- The fields of the message that a field is of. -/
  fields : F → List F → Prop

/-- `FieldDescriptor::Type` of a scalar field. -/
def ScalarType.kind : ScalarType → TypeKind
  | .double => .double
  | .float => .float
  | .int64 => .int64
  | .uint64 => .uint64
  | .int32 => .int32
  | .fixed64 => .fixed64
  | .fixed32 => .fixed32
  | .bool => .bool
  | .string _ => .string
  | .bytes _ => .bytes
  | .uint32 => .uint32
  | .enum => .enum
  | .sfixed32 => .sfixed32
  | .sfixed64 => .sfixed64

section Follows

variable {F : Type} (schema : Schema F)

mutual

/-- A field of a message type is described by a field of a schema. -/
def FieldKind.Follows : FieldKind → F → Prop
  | .scalar type, field => schema.kind field = type.kind.toInt32 ∧ schema.repeated field = false
  | .message type, field => schema.kind field = fieldTypeMessage ∧ schema.repeated field = false ∧
      ∃ fields, schema.fields field fields ∧ type.Follows fields
  | .repeated type, field => schema.kind field = fieldTypeMessage ∧ schema.repeated field = true ∧
      ∃ fields, schema.fields field fields ∧ type.Follows fields

/-- A message type has the fields that a schema describes. -/
def MessageType.Follows : MessageType → List F → Prop
  | .empty, fields => fields = []
  | .field number kind rest, fields => ∃ field fields', fields = field :: fields' ∧
      schema.number field = number ∧ kind.Follows field ∧ rest.Follows fields'

end

end Follows

/-! ## From one schema to another -/

/-- A relation between fields of two schemas that say the same of them, and whose message
fields are of messages with related fields. -/
structure Schema.Agrees {F F' : Type} (schema : Schema F) (schema' : Schema F')
    (R : F → F' → Prop) : Prop where
  number : ∀ field field', R field field' → schema'.number field' = schema.number field
  kind : ∀ field field', R field field' → schema'.kind field' = schema.kind field
  repeated : ∀ field field', R field field' → schema'.repeated field' = schema.repeated field
  fields : ∀ field field', R field field' → ∀ fields, schema.fields field fields →
    ∃ fields', schema'.fields field' fields' ∧ List.Forall₂ R fields fields'

section Transfer

variable {F F' : Type} {schema : Schema F} {schema' : Schema F'} {R : F → F' → Prop}

mutual

theorem FieldKind.Follows.transfer (h : schema.Agrees schema' R) :
    ∀ {kind : FieldKind} {field : F} {field' : F'}, kind.Follows schema field → R field field' →
      kind.Follows schema' field'
  | .scalar _, field, field', ⟨hkind, hrepeated⟩, hR =>
    ⟨(h.kind field field' hR).trans hkind, (h.repeated field field' hR).trans hrepeated⟩
  | .message _, field, field', ⟨hkind, hrepeated, fields, hfields, htype⟩, hR => by
    obtain ⟨fields', hfields', hrelated⟩ := h.fields field field' hR fields hfields
    exact ⟨(h.kind field field' hR).trans hkind, (h.repeated field field' hR).trans hrepeated,
      fields', hfields', htype.transfer h hrelated⟩
  | .repeated _, field, field', ⟨hkind, hrepeated, fields, hfields, htype⟩, hR => by
    obtain ⟨fields', hfields', hrelated⟩ := h.fields field field' hR fields hfields
    exact ⟨(h.kind field field' hR).trans hkind, (h.repeated field field' hR).trans hrepeated,
      fields', hfields', htype.transfer h hrelated⟩

/-- A type of one schema is a type of the other. -/
theorem MessageType.Follows.transfer (h : schema.Agrees schema' R) :
    ∀ {T : MessageType} {fields : List F} {fields' : List F'}, T.Follows schema fields →
      List.Forall₂ R fields fields' → T.Follows schema' fields'
  | .empty, _, _, rfl, hrelated => List.forall₂_nil_left_iff.mp hrelated
  | .field _ _ _, _, _, ⟨field, _, rfl, hnumber, hkind, hrest⟩, hrelated => by
    obtain ⟨field', fields', hR, hrest', rfl⟩ := List.forall₂_cons_left_iff.mp hrelated
    exact ⟨field', fields', rfl, (h.number field field' hR).trans hnumber, hkind.transfer h hR,
      hrest.transfer h hrest'⟩

end

end Transfer

/-! ## The two schemas -/

section Schemas

variable {k n m : Nat}

/-- The fields of the `.proto` files. -/
def Pool.schema (pool : Pool k n m) : Schema (FieldDescriptor n m) where
  number field := field.number.toBitVec
  kind field := field.type.kind.toInt32
  repeated field := field.repeated
  fields field fields := ∃ i, field.type = .message i ∧ fields = pool.fields i

/-- The fields of the client's file. -/
def FileDescriptorProto.schema (file : FileDescriptorProto) : Schema FieldDescriptorProto where
  number field := field.number.toBitVec
  kind field := field.type
  repeated field := field.repeated
  fields field fields := ∃ name message, field.typeName = some name ∧
    file.Denotes name (.message message) ∧ fields = message.field

variable {pool : Pool k n m} {s : ServiceDescriptor k n} {method : MethodDescriptor n}
  {nameOf : Node n m → Str} {file : FileDescriptorProto}

/-- What is copied of a reachable message agrees with it. -/
theorem Pool.Mirrored.agrees (h : pool.Mirrored s method nameOf file) :
    pool.schema.Agrees file.schema fun field copy =>
      field.Copied nameOf copy ∧ ∀ node ∈ field.type.nodes, pool.Reachable s node where
  number := by
    rintro field copy ⟨hcopied, -⟩
    exact congrArg Int32.toBitVec hcopied.number
  kind := fun _ _ hR => hR.1.type
  repeated := fun _ _ hR => hR.1.repeated
  fields := by
    rintro field copy ⟨hcopied, hreach⟩ _ ⟨i, htype, rfl⟩
    have hmem : (.inl i : Node n m) ∈ field.type.nodes := htype ▸ List.mem_singleton_self _
    obtain ⟨symbol, hdenotes, hcopy⟩ := h.types (.inl i) (hreach _ hmem)
    have hname : copy.typeName = some (nameOf (.inl i)) := by
      rw [hcopied.typeName, htype]
      rfl
    cases symbol with
    | enum => cases hcopy
    | message message =>
      refine ⟨message.field, ⟨_, message, hname, hdenotes, rfl⟩, ?_⟩
      refine forall₂_imp_mem hcopy fun field' hfield' copy' hcopy' => ⟨hcopy', fun node hnode => ?_⟩
      exact (hreach _ hmem).step (Pool.mem_successors hfield' hnode)

/-- The client's messages for a reachable message of the `.proto` files are of the type that
its codec is for. -/
theorem Pool.Mirrored.follows (h : pool.Mirrored s method nameOf file) {i : Fin n}
    (hreach : pool.Reachable s (.inl i)) {T : MessageType}
    (hT : T.Follows pool.schema (pool.fields i)) :
    ∃ message, file.Denotes (nameOf (.inl i)) (.message message) ∧
      T.Follows file.schema message.field := by
  obtain ⟨symbol, hdenotes, hcopy⟩ := h.types (.inl i) hreach
  cases symbol with
  | enum => cases hcopy
  | message message =>
    refine ⟨message, hdenotes, hT.transfer h.agrees ?_⟩
    refine forall₂_imp_mem hcopy fun field hfield copy hcopy' => ⟨hcopy', fun node hnode => ?_⟩
    exact hreach.step (Pool.mem_successors hfield hnode)

end Schemas

/-! ## What the client calls -/

section Prepare

variable {k n m : Nat} {pool : Pool k n m}

/-- The codec for a method's request or response: none for `void`, which the constructor of
`EchoMethod` knows by its full name (serialrpc_objects.cc:814-826). -/
def Pool.IsCodec (pool : Pool k n m) (i : Fin n) : Option MessageType → Prop
  | none => pool.fullName i = voidName
  | some T => pool.fullName i ≠ voidName ∧ T.Follows pool.schema (pool.fields i)

/-- The client knows `void` by the same name. -/
theorem Pool.IsCodec.isNone_eq {i : Fin n} {codec : Option MessageType}
    (h : pool.IsCodec i codec) : decide (pool.fullName i = utf8 "void") = codec.isNone := by
  have hname : utf8 "void" = voidName := by decide +kernel
  rw [hname]
  cases codec with
  | none => exact decide_eq_true h
  | some T => exact decide_eq_false h.1

/-- The codecs of a service are those of the types that its methods name. -/
def Pool.Generates (pool : Pool k n m) (s : ServiceDescriptor k n) (service : EchoService) :
    Prop :=
  ∀ method ∈ s.methods, ∀ echo ∈ service.methods, echo.name = method.name →
    pool.IsCodec method.input echo.parameter ∧ pool.IsCodec method.output echo.result

variable {layout : Layout pool} {s : ServiceDescriptor k n} {desc : ServiceDescription}

/-- The entry with the number of a message has its name. -/
theorem Layout.cliTypeName_eq (hdesc : layout.describe s = some desc) (hfits : desc.Fits)
    {service : Protocol.serviceInfo.Val} (hservice : serviceTypes service = desc.entries)
    {i : Fin n} (hreach : pool.Reachable s (.inl i)) :
    cliTypeName service (pool.number s (.inl i)) = pool.fullName i := by
  obtain ⟨type, hmem, htype, hentry⟩ := Layout.exists_entry hdesc hreach
  have hfind : (serviceTypes service).find? (fun entry =>
      typeInfoId entry = pool.number s (.inl i)) =
        some (type.value desc.types (pool.number s (.inl i))) := by
    rw [hservice]
    obtain ⟨entry, hfound⟩ := Option.isSome_iff_exists.mp
      (List.find?_isSome (p := fun entry => typeInfoId entry = pool.number s (.inl i))
        |>.mpr ⟨_, hentry, decide_eq_true rfl⟩)
    have hid : typeInfoId entry = pool.number s (.inl i) := by
      simpa using List.find?_some hfound
    rw [hfound]
    -- No other entry has the number.
    exact congrArg some (List.inj_on_of_nodup_map (Layout.wellNumbered hdesc).ids_nodup
      (List.mem_of_find?_eq_some hfound) hentry hid)
  have hname : type.name = pool.fullName i := (layout.describes htype).2.1
  simp only [cliTypeName, hfind]
  exact (InlineString.ofStr_data (hfits.types type hmem).name).trans hname

/-- The method of the client's file. -/
theorem Pool.Mirrored.firstMethod {method : MethodDescriptor n} {nameOf : Node n m → Str}
    {file : FileDescriptorProto} (h : pool.Mirrored s method nameOf file) :
    file.firstMethod = .ok ⟨file, utf8 "Method", nameOf (.inl method.input),
      nameOf (.inl method.output), method.clientStreaming, method.serverStreaming⟩ := by
  simp [FileDescriptorProto.firstMethod, h.service]

/-- What a text must be for a request: nothing for `void`, else a text of the type. -/
def TextFits (parseFromString : DynamicMethod → Str → Bool) (dynamicMethod : DynamicMethod)
    (text : Str) : Option MessageType → Prop
  | none => text = []
  | some _ => parseFromString dynamicMethod text = true

/-- The client is ready to call a unary method of a service whose references resolve: it has the
endpoint, a file that mirrors the `.proto` files, and knows whether there is a request and a
response. -/
theorem Layout.prepareCall_eq {server : Server} (hserver : server.Described)
    (hnamed : pool.ValuesNamed) {i : Nat} (hi : i < server.services.length)
    (hdesc : layout.describe s = some (describeService server.services[i].service))
    (hresolvable : pool.Resolvable s)
    (hgenerates : pool.Generates s server.services[i].service) {method : MethodDescriptor n}
    (hmethod : method ∈ s.methods) (hclient : method.clientStreaming = false)
    (hserverStreaming : method.serverStreaming = false) (quote : Str → Str) {methodName : Str}
    (hsplit : splitMethod methodName =
      some (server.services[i].service.info.qualifiedName, method.name)) :
    ∃ echo ∈ server.services[i].service.methods, echo.name = method.name ∧
      echo.serverStreaming = false ∧ pool.IsCodec method.input echo.parameter ∧
      pool.IsCodec method.output echo.result ∧
      ∃ nameOf file dynamicMethod, pool.Mirrored s method nameOf file ∧
        file.firstMethod = .ok dynamicMethod ∧
        ∀ (P : Type) (buildFile : BuildFile P) (p : P), (buildFile file p).isSome →
        ∀ (parseFromString : DynamicMethod → Str → Bool) (text : Str),
          TextFits parseFromString dynamicMethod text echo.parameter →
          prepareCall quote buildFile parseFromString methodName text p (server.received true) =
            .ok
              { endpointId := UInt32.ofNat (1 + (server.offset i +
                  Rank.rank EchoMethod.methodId server.services[i].service.methods echo.methodId))
                method := dynamicMethod
                requestIsVoid := echo.parameter.isNone
                responseIsVoid := echo.result.isNone } := by
  have hfits := hserver.fits _ (List.getElem_mem hi)
  obtain ⟨echo, hecho, hname, hinfo, target, hlookup, hid, hservice, hlisted⟩ :=
    Layout.discovered hserver hnamed hi hdesc hmethod
  obtain ⟨hparameter, hresult⟩ := hgenerates method hmethod echo hecho hname
  obtain ⟨nameOf, file, dynamicMethod, hmirrored, hfirst, hfile⟩ :=
    Layout.methodFile_ok hdesc hresolvable hfits hservice hmethod hlisted quote
  have hstreaming : echo.serverStreaming = method.serverStreaming := by
    obtain ⟨requestType, -, hinfo⟩ := Option.bind_eq_some_iff.mp hinfo
    obtain ⟨responseType, -, hinfo⟩ := Option.bind_eq_some_iff.mp hinfo
    exact (congrArg MethodInfo.serverStreaming (Option.some.inj hinfo)).symm
  refine ⟨echo, hecho, hname, hstreaming.trans hserverStreaming, hparameter, hresult, nameOf, file,
    dynamicMethod, hmirrored, hfirst, fun P buildFile p hbuild parseFromString text htext => ?_⟩
  obtain ⟨p', hp'⟩ := Option.isSome_iff_exists.mp hbuild
  have hbuilt : (buildMethodDescriptorImpl quote buildFile target.service target.method p).1 =
      .ok dynamicMethod := by
    simp only [buildMethodDescriptorImpl, hfile, hp', hfirst]
  -- The names of the two types, as the client looks them up.
  have hvoid : ∀ {id : UInt32} {j : Fin n} {codec : Option MessageType},
      id = pool.number s (.inl j) → pool.Reachable s (.inl j) → pool.IsCodec j codec →
      decide (cliTypeName target.service id = utf8 "void") = codec.isNone := by
    rintro _ j codec rfl hreach hcodec
    rw [Layout.cliTypeName_eq hdesc hfits hservice hreach]
    exact hcodec.isNone_eq
  have hrequest := hvoid hlisted.requestType (ServiceDescriptor.reachable_input hmethod) hparameter
  have hresponse := hvoid hlisted.responseType (ServiceDescriptor.reachable_output hmethod) hresult
  have hunary : (dynamicMethod.method.clientStreaming || dynamicMethod.method.serverStreaming) =
      false := by
    obtain rfl : _ = dynamicMethod := Except.ok.inj (hmirrored.firstMethod.symm.trans hfirst)
    rw [hclient, hserverStreaming]
    rfl
  simp only [prepareCall, hsplit, hlookup, hbuilt, hrequest, hresponse, hid]
  show (if _ then _ else _ : Except SchemaFailure PreparedCall) = _
  rw [hunary]
  cases hcodec : echo.parameter with
  | none =>
    rw [hcodec] at htext
    obtain rfl : text = [] := htext
    rfl
  | some T =>
    rw [hcodec] at htext
    have hparsed : parseFromString dynamicMethod text = true := htext
    simp only [Option.isNone_some, hparsed]
    rfl

end Prepare

end SerialRpc
