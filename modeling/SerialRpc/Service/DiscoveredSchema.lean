import SerialRpc.Service.Call
import SerialRpc.Service.Endpoint
import SerialRpc.Service.References
import SerialRpc.Service.SchemaFidelity

/-!
# From `.proto` files to the client's schema (protoc_serialrpc_plugin.cc:94-322, call.cc:276-410)

The types of a service go a long way: from the descriptors of its files to the metadata that
is linked into the server, over the discovery reply to the command-line client, and into a
file that the client gives protobuf. At its end they are what they were at the beginning, or
the client says that they are not.

- `Pool.number`: the number of a type's entry. `Layout.entries_received`: the entries that
  the client decodes, and their types.
- `Layout.acceptable`, `Layout.resolvable_of_fieldsResolve`: the client accepts a service
  exactly if its references resolve.
- `Pool.Mirrored`: a file has the types that a service reaches. `Layout.mirrored`: so has
  every file that is faithful to the reply.
- `Layout.methodFile_error`: what the client reports of any other service.
- `discovered_schema`: the whole way, from the bytes that the server writes.
-/

namespace SerialRpc

open ByteStream
open Protocol (typeInfoId typeInfoType typeInfoFields typeInfoEnumValues fieldName fieldNumber
  fieldType fieldTypeId fieldRepeated enumValueName enumValueNumber serviceTypes
  methodRequestType methodResponseType methodClientStreaming methodServerStreaming)

/-! ## The table that is received -/

/-- A type, its fields and its values each have something in their messages. -/
structure TypeInfo.Visible (type : TypeInfo) : Prop where
  kind : type.kind ≠ .unknown
  fields : ∀ field ∈ type.fields, field.type.kind ≠ .unknown
  enumValues : ∀ value ∈ type.enumValues, value.name ≠ []

/-- The entries of a full reply. -/
def ServiceDescription.entries (desc : ServiceDescription) : List Protocol.typeInfo.Val :=
  desc.types.zipIdx.map fun (type, i) => type.value desc.types (UInt32.ofNat (i + 1))

/-- Only the unknown kind is zero on the wire. -/
theorem TypeKind.toInt32_ne_zero {kind : TypeKind} (h : kind ≠ .unknown) : kind.toInt32 ≠ 0 := by
  cases kind with
  | unknown => exact absurd rfl h
  | _ => decide

/-- A field is never left out of the reply. -/
theorem FieldInfo.value_not_isDefault (types : List TypeInfo) {field : FieldInfo}
    (h : field.type.kind ≠ .unknown) :
    Protocol.fieldInfo.isDefault (field.value types) = false := by
  simp [Protocol.fieldInfo, FieldInfo.value, MessageType.isDefault, FieldKind.isDefault,
    StorageType.isDefault, TypeKind.toInt32_ne_zero h]

theorem EnumValueInfo.value_not_isDefault {value : EnumValueInfo} (hle : value.name.length ≤ 64)
    (hne : value.name ≠ []) : Protocol.enumValueInfo.isDefault value.value = false := by
  simp [Protocol.enumValueInfo, EnumValueInfo.value, MessageType.isDefault, FieldKind.isDefault,
    StorageType.isDefault, InlineString.ofStr_data hle, hne]

theorem TypeInfo.value_not_isDefault (types : List TypeInfo) {type : TypeInfo}
    (h : type.kind ≠ .unknown) (id : UInt32) :
    Protocol.typeInfo.isDefault (type.value types id) = false := by
  simp [Protocol.typeInfo, TypeInfo.value, MessageType.isDefault, FieldKind.isDefault,
    StorageType.isDefault, TypeKind.toInt32_ne_zero h]

/-- A vector of messages that each have something in them comes back as it is. -/
theorem received_vector {α : Type} {T : MessageType} {value : α → T.Val} {vec : List α}
    (hkept : ∀ a ∈ vec, T.isDefault (value a) = false)
    (hsame : ∀ a ∈ vec, T.received (value a) = value a) :
    FieldKind.received (.repeated T) (vec.map value) = vec.map value := by
  have hfilter : (vec.map value).filter (fun msg => !T.isDefault msg) = vec.map value := by
    refine List.filter_eq_self.mpr fun msg hmsg => ?_
    obtain ⟨a, ha, rfl⟩ := List.mem_map.mp hmsg
    rw [hkept a ha]
    rfl
  rw [FieldKind.received, hfilter, List.map_map]
  exact List.map_congr_left hsame

/-- An entry comes back with its fields and its values. -/
theorem TypeInfo.received_value (types : List TypeInfo) {type : TypeInfo} (hfits : type.Fits)
    (hvisible : type.Visible) (id : UInt32) :
    Protocol.typeInfo.received (type.value types id) = type.value types id := by
  have hfields : FieldKind.received (.repeated Protocol.fieldInfo)
      (type.fields.map (FieldInfo.value types)) = type.fields.map (FieldInfo.value types) :=
    received_vector (fun field hfield => field.value_not_isDefault types
      (hvisible.fields field hfield)) fun _ _ => rfl
  have hvalues : FieldKind.received (.repeated Protocol.enumValueInfo)
      (type.enumValues.map EnumValueInfo.value) = type.enumValues.map EnumValueInfo.value :=
    received_vector (fun value hvalue => value.value_not_isDefault
      (hfits.enumValues value hvalue) (hvisible.enumValues value hvalue)) fun _ _ => rfl
  show (id, type.kind.toInt32, InlineString.ofStr 128 type.name,
    FieldKind.received (.repeated Protocol.fieldInfo) (type.fields.map (FieldInfo.value types)),
    FieldKind.received (.repeated Protocol.enumValueInfo)
      (type.enumValues.map EnumValueInfo.value), ()) = _
  rw [hfields, hvalues]
  rfl

/-- A full reply comes back with its type table. -/
theorem ServiceDescription.received_types {desc : ServiceDescription} (hfits : desc.Fits)
    (hvisible : ∀ type ∈ desc.types, type.Visible) :
    serviceTypes (Protocol.serviceInfo.received (desc.value true)) = desc.entries := by
  have hmem : ∀ p ∈ desc.types.zipIdx, p.1 ∈ desc.types := fun p hp => List.fst_mem_of_mem_zipIdx hp
  exact received_vector
    (fun p hp => p.1.value_not_isDefault desc.types (hvisible p.1 (hmem p hp)).kind _)
    fun p hp => p.1.received_value desc.types (hfits.types p.1 (hmem p hp))
      (hvisible p.1 (hmem p hp)) _

/-! ## The numbers of its entries -/

/-- The kind that a type's entry is listed with. -/
def nodeKind {n m : Nat} : Node n m → TypeKind
  | .inl _ => .message
  | .inr _ => .enum

section Numbers

variable {k n m : Nat} {pool : Pool k n m} {layout : Layout pool} {s : ServiceDescriptor k n}
  {desc : ServiceDescription}

/-- The number of a type's entry in the table of a service. -/
def Pool.number (pool : Pool k n m) (s : ServiceDescriptor k n) (node : Node n m) : UInt32 :=
  UInt32.ofNat (((pool.table s).findIdx fun node' => node' = node) + 1)

/-- A type has the number of its place in the table. -/
theorem Pool.number_getElem {i : Nat} (hi : i < (pool.table s).length) :
    pool.number s (pool.table s)[i] = UInt32.ofNat (i + 1) := by
  have hfind : ((pool.table s).findIdx fun node => node = (pool.table s)[i]) = i := by
    rw [List.findIdx_eq hi]
    refine ⟨decide_eq_true rfl, fun j hj => decide_eq_false fun heq => ?_⟩
    exact absurd ((pool.table_nodup s).getElem_inj_iff.mp heq) (Nat.ne_of_lt hj)
  rw [number, hfind]

/-- Numbers do not wrap: the table is no longer than there are types. -/
theorem Pool.number_toNat {i : Nat} (hi : i < (pool.table s).length) :
    (pool.number s (pool.table s)[i]).toNat = i + 1 := by
  have hle := (pool.table_nodup s).length_le_card
  rw [Fintype.card_sum, Fintype.card_fin, Fintype.card_fin] at hle
  have hcount := pool.count_lt
  rw [number_getElem hi, UInt32.toNat_ofNat', Nat.mod_eq_of_lt (by omega)]

/-- Types that are reached are numbered from 1 on. -/
theorem Pool.number_ne_zero {node : Node n m} (h : pool.Reachable s node) :
    pool.number s node ≠ 0 := by
  obtain ⟨i, hi, rfl⟩ := List.getElem_of_mem (pool.mem_table_iff.mpr h)
  intro hzero
  have hnat := pool.number_toNat hi
  rw [hzero] at hnat
  exact absurd hnat.symm (Nat.succ_ne_zero i)

/-- Different types have different numbers. -/
theorem Pool.number_inj {node node' : Node n m} (h : pool.Reachable s node)
    (h' : pool.Reachable s node') (heq : pool.number s node = pool.number s node') :
    node = node' := by
  obtain ⟨i, hi, rfl⟩ := List.getElem_of_mem (pool.mem_table_iff.mpr h)
  obtain ⟨j, hj, rfl⟩ := List.getElem_of_mem (pool.mem_table_iff.mpr h')
  have hnat := pool.number_toNat hi
  rw [heq, pool.number_toNat hj, Nat.succ.injEq] at hnat
  simp only [hnat]

/-- A reference to a type is the number of its entry. -/
theorem Refers.eq_number {id : UInt32} {node : Node n m} (h : Refers (pool.table s) id node) :
    pool.Reachable s node ∧ id = pool.number s node := by
  obtain ⟨i, hi, rfl, -⟩ := h
  obtain ⟨hlt, rfl⟩ := List.getElem?_eq_some_iff.mp hi
  exact ⟨pool.mem_table_iff.mp (List.getElem_mem hlt), (pool.number_getElem hlt).symm⟩

/-- The entries received are those of the types in the table, with their numbers. -/
theorem Layout.entries_received (hdesc : layout.describe s = some desc) :
    List.Forall₂ (fun node entry => ∃ type ∈ desc.types,
        layout.typeInfo (pool.nodePointer s.file node) = some type ∧
          entry = type.value desc.types (pool.number s node))
      (pool.table s) desc.entries := by
  obtain ⟨hlength, htypes⟩ := List.forall₂_iff_get.mp (Layout.entries_of_describe hdesc)
  refine List.forall₂_iff_get.mpr ⟨by simpa [ServiceDescription.entries] using hlength, ?_⟩
  intro i hi hi'
  have hnumber : pool.number s ((pool.table s).get ⟨i, hi⟩) = UInt32.ofNat (i + 1) :=
    pool.number_getElem hi
  refine ⟨_, List.get_mem _ _, htypes i hi (hlength ▸ hi), ?_⟩
  rw [hnumber]
  simp [ServiceDescription.entries]

/-- The entry of a type. -/
theorem Layout.exists_entry (hdesc : layout.describe s = some desc) {node : Node n m}
    (h : pool.Reachable s node) :
    ∃ type ∈ desc.types, layout.typeInfo (pool.nodePointer s.file node) = some type ∧
      type.value desc.types (pool.number s node) ∈ desc.entries := by
  obtain ⟨hlength, hentries⟩ := List.forall₂_iff_get.mp (Layout.entries_received hdesc)
  obtain ⟨i, hi, rfl⟩ := List.getElem_of_mem (pool.mem_table_iff.mpr h)
  obtain ⟨type, hmem, htype, hentry⟩ := hentries i hi (hlength ▸ hi)
  exact ⟨type, hmem, htype, hentry ▸ List.get_mem _ _⟩

/-- The type of an entry. -/
theorem Layout.exists_node (hdesc : layout.describe s = some desc)
    {entry : Protocol.typeInfo.Val} (h : entry ∈ desc.entries) :
    ∃ node type, pool.Reachable s node ∧
      layout.typeInfo (pool.nodePointer s.file node) = some type ∧
      entry = type.value desc.types (pool.number s node) := by
  obtain ⟨hlength, hentries⟩ := List.forall₂_iff_get.mp (Layout.entries_received hdesc)
  obtain ⟨i, hi, rfl⟩ := List.getElem_of_mem h
  obtain ⟨type, -, htype, hentry⟩ := hentries i (hlength ▸ hi) hi
  exact ⟨_, type, pool.mem_table_iff.mp (List.get_mem _ _), htype, hentry⟩

/-- A type of the table is a message or an enum. -/
theorem Layout.kind_of_typeInfo {node : Node n m} {type : TypeInfo}
    (h : layout.typeInfo (pool.nodePointer s.file node) = some type) :
    type.kind = nodeKind node := by
  have hdescribes := layout.describes h
  cases node with
  | inl i => exact hdescribes.1
  | inr e => exact hdescribes.1

theorem nodeKind_toInt32 (node : Node n m) :
    (nodeKind node).toInt32 = fieldTypeMessage ∨ (nodeKind node).toInt32 = fieldTypeEnum := by
  cases node with
  | inl => exact .inl rfl
  | inr => exact .inr rfl

/-- The types of a reply are numbered one by one. -/
theorem Layout.wellNumbered (hdesc : layout.describe s = some desc) :
    WellNumbered desc.entries where
  ids_ne_zero entry hentry := by
    obtain ⟨node, type, hreach, -, rfl⟩ := Layout.exists_node hdesc hentry
    exact pool.number_ne_zero hreach
  ids_nodup := by
    have hids : List.Forall₂ (fun node entry => pool.number s node = typeInfoId entry)
        (pool.table s) desc.entries := by
      refine (Layout.entries_received hdesc).imp ?_
      rintro node entry ⟨type, -, -, rfl⟩
      rfl
    have hmap : (pool.table s).map (pool.number s) = desc.entries.map typeInfoId := by
      rw [← List.forall₂_eq_eq_eq, List.forall₂_map_left_iff, List.forall₂_map_right_iff]
      exact hids
    rw [← hmap]
    refine (pool.table_nodup s).map_on fun node hnode node' hnode' heq => ?_
    exact pool.number_inj (pool.mem_table_iff.mp hnode) (pool.mem_table_iff.mp hnode') heq
  kinds entry hentry := by
    obtain ⟨node, type, -, htype, rfl⟩ := Layout.exists_node hdesc hentry
    show type.kind.toInt32 = _ ∨ type.kind.toInt32 = _
    rw [Layout.kind_of_typeInfo htype]
    exact nodeKind_toInt32 node

/-- There is an entry with a type's number and of its kind. -/
theorem Layout.hasEntry (hdesc : layout.describe s = some desc) {node : Node n m}
    (h : pool.Reachable s node) :
    HasEntry desc.entries (pool.number s node) (nodeKind node).toInt32 := by
  obtain ⟨type, -, htype, hentry⟩ := Layout.exists_entry hdesc h
  exact ⟨_, hentry, congrArg TypeKind.toInt32 (Layout.kind_of_typeInfo htype), rfl⟩

end Numbers

/-! ## When the client accepts it -/

/-- What goes along with an element of the first list is in the second. -/
theorem exists_mem_of_forall₂ {α β : Type} {R : α → β → Prop} {a : α} :
    ∀ {as : List α} {bs : List β}, List.Forall₂ R as bs → a ∈ as → ∃ b ∈ bs, R a b
  | _ :: _, _, h, ha => by
    obtain ⟨b, bs, hb, hrest, rfl⟩ := List.forall₂_cons_left_iff.mp h
    rcases List.mem_cons.mp ha with rfl | ha
    · exact ⟨b, List.mem_cons_self, hb⟩
    · obtain ⟨b', hb', hR⟩ := exists_mem_of_forall₂ hrest ha
      exact ⟨b', List.mem_cons_of_mem b hb', hR⟩

section Accept

variable {k n m : Nat} {pool : Pool k n m} {layout : Layout pool} {s : ServiceDescriptor k n}
  {desc : ServiceDescription}

/-- A service reaches the parameters of its methods. -/
theorem ServiceDescriptor.reachable_input {method : MethodDescriptor n}
    (h : method ∈ s.methods) : pool.Reachable s (.inl method.input) :=
  .root (List.mem_flatMap.mpr ⟨method, h, List.mem_cons_self⟩)

theorem ServiceDescriptor.reachable_output {method : MethodDescriptor n}
    (h : method ∈ s.methods) : pool.Reachable s (.inl method.output) :=
  .root (List.mem_flatMap.mpr ⟨method, h, List.mem_cons_of_mem _ List.mem_cons_self⟩)

/-- A method of the reply says what its descriptor says, and refers to the entries of its
request and its response. -/
structure Pool.DescribesMethod (pool : Pool k n m) (s : ServiceDescriptor k n)
    (method : MethodDescriptor n) (listed : Protocol.methodInfo.Val) : Prop where
  requestType : methodRequestType listed = pool.number s (.inl method.input)
  responseType : methodResponseType listed = pool.number s (.inl method.output)
  clientStreaming : methodClientStreaming listed = method.clientStreaming
  serverStreaming : methodServerStreaming listed = method.serverStreaming

/-- What is listed of a method describes it. -/
theorem Layout.describesMethod (hdesc : layout.describe s = some desc)
    {method : MethodDescriptor n} (hmethod : method ∈ s.methods) {info : MethodInfo}
    (hinfo : layout.methodInfo method = some info) :
    pool.DescribesMethod s method (info.value desc.types true) := by
  obtain ⟨requestType, hrequest, hinfo⟩ := Option.bind_eq_some_iff.mp hinfo
  obtain ⟨responseType, hresponse, hinfo⟩ := Option.bind_eq_some_iff.mp hinfo
  obtain rfl := Option.some.inj hinfo
  exact
    { requestType :=
        (Layout.refers hdesc (ServiceDescriptor.reachable_input hmethod) hrequest).eq_number.2
      responseType :=
        (Layout.refers hdesc (ServiceDescriptor.reachable_output hmethod) hresponse).eq_number.2
      clientStreaming := rfl
      serverStreaming := rfl }

/-- The fields of a message are listed with the numbers of their types' entries. -/
theorem Layout.fields_refer (hdesc : layout.describe s = some desc) (h : pool.Resolvable s)
    {i : Fin n} (hreach : pool.Reachable s (.inl i)) {type : TypeInfo}
    (htype : layout.typeInfo (pool.nodePointer s.file (.inl i)) = some type) :
    List.Forall₂ (fun field info => field.Describes info ∧ ∀ target ∈ field.type.nodes,
        pool.Reachable s target ∧
          fieldTypeId (info.value desc.types) = pool.number s target)
      (pool.fields i) type.fields := by
  obtain ⟨type', htype', hrefer⟩ := exists_of_forall₂ (Layout.entries_of_describe hdesc)
    (Layout.resolves hdesc h.home).fields (pool.mem_table_iff.mpr hreach)
  obtain rfl := Option.some.inj (htype'.symm.trans htype)
  have hfields := layout.fields_of_typeInfo htype
  refine List.Forall₂.mp (fun field info hfield hrefers => ?_) hfields hrefer
  exact ⟨hfield.1, fun target htarget => (hrefers target htarget).eq_number⟩

/-- A field's kind is one that protobuf has a number for. -/
theorem FieldType.kind_inRange {type : FieldType n m} : FieldTypeInRange type.kind.toInt32 := by
  have hall : ∀ kind : TypeKind, kind ≠ .unknown → FieldTypeInRange kind.toInt32 := by
    intro kind hne
    cases kind with
    | unknown => exact absurd rfl hne
    | _ => decide
  refine hall type.kind ?_
  cases type with
  | scalar kind => exact kind.property.1
  | message => exact TypeKind.noConfusion
  | enum => exact TypeKind.noConfusion

/-- A field listed as a message or an enumeration is of a type, of that kind. -/
theorem FieldType.exists_node {type : FieldType n m}
    (h : type.kind.toInt32 = fieldTypeMessage ∨ type.kind.toInt32 = fieldTypeEnum) :
    ∃ target, type.nodes = [target] ∧ type.kind = nodeKind target := by
  cases type with
  | message i => exact ⟨.inl i, rfl, rfl⟩
  | enum e => exact ⟨.inr e, rfl, rfl⟩
  | scalar kind =>
    obtain ⟨kind, hunknown, hmessage, henum⟩ := kind
    exfalso
    revert h
    cases kind with
    | message => exact absurd rfl hmessage
    | enum => exact absurd rfl henum
    | _ => simp only [FieldType.kind]; decide

/-- Where the service is resolvable, all references of the reply lead somewhere. -/
theorem Layout.fieldsResolve (hdesc : layout.describe s = some desc) (h : pool.Resolvable s) :
    FieldsResolve desc.entries desc.entries := by
  intro entry hentry hmessage field hfield
  obtain ⟨node, type, hreach, htype, rfl⟩ := Layout.exists_node hdesc hentry
  cases node with
  | inr e =>
    have henum : type.kind.toInt32 = fieldTypeEnum :=
      congrArg TypeKind.toInt32 (Layout.kind_of_typeInfo htype)
    exact absurd (henum.symm.trans hmessage) fieldTypeEnum_ne_message
  | inl i =>
    obtain ⟨info, hinfo, rfl⟩ := List.mem_map.mp hfield
    obtain ⟨field, -, hdescribes, hrefers⟩ :=
      exists_mem_of_forall₂ (Layout.fields_refer hdesc h hreach htype).flip hinfo
    have hkind : fieldType (info.value desc.types) = field.type.kind.toInt32 :=
      congrArg TypeKind.toInt32 hdescribes.2.2.1
    refine ⟨hkind ▸ FieldType.kind_inRange, fun hrefer => ?_⟩
    rw [hkind] at hrefer ⊢
    obtain ⟨target, hnodes, hsame⟩ := FieldType.exists_node hrefer
    obtain ⟨htarget, hnumber⟩ := hrefers target (hnodes ▸ List.mem_singleton_self target)
    rw [hnumber, hsame]
    exact Layout.hasEntry hdesc htarget

/-- The client accepts every method of a service whose references resolve. -/
theorem Layout.acceptable (hdesc : layout.describe s = some desc) (h : pool.Resolvable s)
    {service : Protocol.serviceInfo.Val} (hservice : serviceTypes service = desc.entries)
    {method : MethodDescriptor n} (hmethod : method ∈ s.methods)
    {listed : Protocol.methodInfo.Val} (hlisted : pool.DescribesMethod s method listed) :
    Acceptable service listed := by
  have hinput : pool.Reachable s (.inl method.input) := ServiceDescriptor.reachable_input hmethod
  have houtput : pool.Reachable s (.inl method.output) :=
    ServiceDescriptor.reachable_output hmethod
  exact
    { request_ne_zero := hlisted.requestType ▸ pool.number_ne_zero hinput
      response_ne_zero := hlisted.responseType ▸ pool.number_ne_zero houtput
      types_ne_nil := by
        obtain ⟨type, -, -, hentry⟩ := Layout.exists_entry hdesc hinput
        exact hservice ▸ List.ne_nil_of_mem hentry
      wellNumbered := hservice ▸ Layout.wellNumbered hdesc
      fields := hservice ▸ Layout.fieldsResolve hdesc h
      request := by
        rw [hservice, hlisted.requestType]
        exact Layout.hasEntry hdesc hinput
      response := by
        rw [hservice, hlisted.responseType]
        exact Layout.hasEntry hdesc houtput }

/-- If the fields of the entries refer to entries, then no message with an enum field is of
another file: such a field is listed with a zero. -/
theorem Layout.resolvable_of_fieldsResolve (hdesc : layout.describe s = some desc)
    (h : FieldsResolve desc.entries desc.entries) : pool.Resolvable s where
  top i hi := by
    obtain ⟨type, -, htype, -⟩ := Layout.exists_entry hdesc hi
    obtain ⟨object, -, hobject, -, -⟩ := layout.typeInfo_eq_some htype
    exact pool.containing_of_object hobject
  home i e hi he := by
    obtain ⟨field, hfield, hnode⟩ := List.mem_flatMap.mp he
    obtain ⟨type, -, htype, hentry⟩ := Layout.exists_entry hdesc hi
    obtain ⟨info, hinfo, hdescribes, hpointer⟩ :=
      exists_mem_of_forall₂ (layout.fields_of_typeInfo htype) hfield
    have hmessage : type.kind.toInt32 = fieldTypeMessage :=
      congrArg TypeKind.toInt32 (Layout.kind_of_typeInfo htype)
    have henum : fieldType (info.value desc.types) = fieldTypeEnum := by
      have hkind : field.type.kind = .enum := by
        cases htype : field.type with
        | scalar => simp [htype, FieldType.nodes] at hnode
        | message => simp [htype, FieldType.nodes] at hnode
        | enum => rfl
      exact congrArg TypeKind.toInt32 (hdescribes.2.2.1.trans hkind)
    obtain ⟨entry, hmem, -, hid⟩ := (h _ hentry hmessage _
      (List.mem_map_of_mem hinfo)).refers (.inr henum)
    have hne : typeId desc.types info.type ≠ 0 := by
      rw [← fieldTypeId_eq hdescribes hnode, ← hid]
      exact (Layout.wellNumbered hdesc).ids_ne_zero entry hmem
    -- The field's pointer is to its own source's object, so that object is in the table.
    have hsymbol := layout.mem_of_typeId (Layout.describe_eq_some hdesc).1 hpointer hne
    rw [pool.typePointer_eq hnode, Pool.tableSymbols_eq] at hsymbol
    obtain ⟨node, -, hsame⟩ := List.mem_map.mp hsymbol
    cases node with
    | inl j => exact absurd hsame (pool.messageTypePointer_ne_enumPointer j _ e)
    | inr e' => exact (pool.enumPointer_injective hsame).1.symm

end Accept

/-! ## The same types under other names -/

section Mirror

variable {k n m : Nat}

/-- A field of the client's file is a field of a `.proto` file. -/
structure FieldDescriptor.Copied (nameOf : Node n m → Str) (field : FieldDescriptor n m)
    (copy : FieldDescriptorProto) : Prop where
  name : copy.name = field.name
  number : copy.number = field.number.toInt32
  repeated : copy.repeated = field.repeated
  type : copy.type = field.type.kind.toInt32
  typeName : copy.typeName = field.type.nodes.head?.map nameOf

/-- What a name is of in the client's file is a type of a `.proto` file. -/
def Pool.Copied (pool : Pool k n m) (nameOf : Node n m → Str) : Node n m → FileSymbol → Prop
  | .inl i, .message message =>
    List.Forall₂ (FieldDescriptor.Copied nameOf) (pool.fields i) message.field
  | .inr e, .enum enumType =>
    enumType.value = (pool.enums e).values.map (fun value => ⟨value.name, value.number⟩) ∧
      (enumType.allowAlias ↔ ¬ ((pool.enums e).values.map EnumValueInfo.number).Nodup)
  | .inl _, .enum _ | .inr _, .message _ => False

/-- A file has the types that a service reaches and no others, each under a name of its own,
and a method from one of them to another. -/
structure Pool.Mirrored (pool : Pool k n m) (s : ServiceDescriptor k n)
    (method : MethodDescriptor n) (nameOf : Node n m → Str) (file : FileDescriptorProto) :
    Prop where
  names : ∀ node node', pool.Reachable s node → pool.Reachable s node' →
    nameOf node = nameOf node' → node = node'
  types : ∀ node, pool.Reachable s node → ∃ symbol,
    file.Denotes (nameOf node) symbol ∧ pool.Copied nameOf node symbol
  count : file.messageType.length = (pool.table s).length
  service : file.service = [⟨utf8 "Service", [⟨utf8 "Method", nameOf (.inl method.input),
    nameOf (.inl method.output), method.clientStreaming, method.serverStreaming⟩]⟩]

variable {pool : Pool k n m} {layout : Layout pool} {s : ServiceDescriptor k n}
  {desc : ServiceDescription}

/-- Two relations along lists compose. -/
theorem forall₂_comp {α β γ : Type} {R : α → β → Prop} {S : β → γ → Prop} :
    ∀ {as : List α} {bs : List β} {cs : List γ}, List.Forall₂ R as bs → List.Forall₂ S bs cs →
      List.Forall₂ (fun a c => ∃ b, R a b ∧ S b c) as cs
  | [], _, _, .nil, .nil => .nil
  | _ :: _, _, _, .cons ha has, .cons hb hbs => .cons ⟨_, ha, hb⟩ (forall₂_comp has hbs)

/-- A field that describes what is listed of a field of a `.proto` file is a copy of it. -/
theorem FieldDescriptor.Describes.copied {types : List Protocol.typeInfo.Val}
    {nameOf : UInt32 → Str} {field : FieldDescriptor n m} {info : FieldInfo}
    {copy : FieldDescriptorProto} (hinfo : field.Describes info)
    (hrefers : ∀ target ∈ field.type.nodes, pool.Reachable s target ∧
      fieldTypeId (info.value desc.types) = pool.number s target)
    (hfits : info.name.length ≤ 64)
    (hcopy : DescribesField types nameOf (info.value desc.types) copy) :
    field.Copied (fun node => nameOf (pool.number s node)) copy := by
  obtain ⟨hname, hnumber, hkind, hrepeated⟩ := hinfo
  have htype : fieldType (info.value desc.types) = field.type.kind.toInt32 :=
    congrArg TypeKind.toInt32 hkind
  constructor
  case name => exact hcopy.name.trans ((InlineString.ofStr_data hfits).trans hname)
  case number => exact hcopy.number.trans (congrArg UInt32.toInt32 hnumber)
  case repeated => exact hcopy.repeated.trans hrepeated
  case type => exact hcopy.type.trans htype
  case typeName =>
    by_cases hrefer : field.type.kind.toInt32 = fieldTypeMessage ∨
        field.type.kind.toInt32 = fieldTypeEnum
    · obtain ⟨target, hnodes, -⟩ := FieldType.exists_node hrefer
      have hnumber := (hrefers target (hnodes ▸ List.mem_singleton_self target)).2
      rw [(hcopy.typeName (htype ▸ hrefer)).1, hnumber, hnodes]
      rfl
    · rw [hcopy.typeName_none (htype ▸ hrefer)]
      cases hfield : field.type with
      | scalar => rfl
      | message => exact absurd (.inl (by rw [hfield]; rfl)) hrefer
      | enum => exact absurd (.inr (by rw [hfield]; rfl)) hrefer

/-- What is faithful to the entry of a type copies the type. -/
theorem Layout.copied (hdesc : layout.describe s = some desc) (h : pool.Resolvable s)
    {node : Node n m} (hreach : pool.Reachable s node) {type : TypeInfo}
    (htype : layout.typeInfo (pool.nodePointer s.file node) = some type) (hfits : type.Fits)
    {types : List Protocol.typeInfo.Val} {nameOf : UInt32 → Str} {symbol : FileSymbol}
    (hentry : DescribesEntry types nameOf (type.value desc.types (pool.number s node)) symbol) :
    pool.Copied (fun node => nameOf (pool.number s node)) node symbol := by
  have hkind : typeInfoType (type.value desc.types (pool.number s node)) =
      (nodeKind node).toInt32 :=
    congrArg TypeKind.toInt32 (Layout.kind_of_typeInfo htype)
  cases node with
  | inl i =>
    cases symbol with
    | enum enumType =>
      exact absurd (hentry.1.symm.trans hkind) fieldTypeEnum_ne_message
    | message message =>
      have hlisted := List.forall₂_map_left_iff.mp hentry.2
      have hfields := forall₂_comp (Layout.fields_refer hdesc h hreach htype)
        (forall₂_imp_mem hlisted fun info hinfo copy hcopy => And.intro
          (hfits.fields info hinfo) hcopy)
      refine hfields.imp ?_
      rintro field copy ⟨info, ⟨hinfo, hrefers⟩, hname, hcopy⟩
      exact hinfo.copied hrefers hname hcopy
  | inr e =>
    cases symbol with
    | message message =>
      exact absurd (hkind.symm.trans hentry.1) fieldTypeEnum_ne_message
    | enum enumType =>
      obtain ⟨-, hvalue, halias⟩ := hentry
      have hvalues : type.enumValues = (pool.enums e).values := (layout.describes htype).2.2.2
      constructor
      · rw [hvalue, ← hvalues]
        show (type.enumValues.map EnumValueInfo.value).map _ = _
        rw [List.map_map]
        refine List.map_congr_left fun value hmem => ?_
        exact congrArg (EnumValueDescriptorProto.mk · value.number)
          (InlineString.ofStr_data (hfits.enumValues value hmem))
      · rw [halias, ← hvalues]
        show ¬ ((type.enumValues.map EnumValueInfo.value).map _).Nodup ↔ _
        rw [List.map_map]
        rfl

/-- What is faithful to the reply mirrors the `.proto` files. -/
theorem Layout.mirrored (hdesc : layout.describe s = some desc) (h : pool.Resolvable s)
    (hfits : desc.Fits) {service : Protocol.serviceInfo.Val}
    (hservice : serviceTypes service = desc.entries) {method : MethodDescriptor n}
    {listed : Protocol.methodInfo.Val} (hlisted : pool.DescribesMethod s method listed)
    {nameOf : UInt32 → Str} {file : FileDescriptorProto}
    (hfile : FaithfulTo service listed nameOf file) :
    pool.Mirrored s method (fun node => nameOf (pool.number s node)) file where
  names node node' hnode hnode' heq := by
    obtain ⟨type, -, -, hentry⟩ := Layout.exists_entry hdesc hnode
    obtain ⟨type', -, -, hentry'⟩ := Layout.exists_entry hdesc hnode'
    by_contra hne
    refine hfile.names (type.value desc.types (pool.number s node)) (hservice ▸ hentry)
      (type'.value desc.types (pool.number s node')) (hservice ▸ hentry') (fun hid => ?_) heq
    exact hne (pool.number_inj hnode hnode' hid)
  types node hnode := by
    obtain ⟨type, hmem, htype, hentry⟩ := Layout.exists_entry hdesc hnode
    obtain ⟨symbol, hdenotes, hsymbol⟩ := hfile.entries _ (hservice ▸ hentry)
    exact ⟨symbol, hdenotes, Layout.copied hdesc h hnode htype (hfits.types type hmem) hsymbol⟩
  count := by
    rw [hfile.messages, hservice, (Layout.entries_received hdesc).length_eq]
  service := by
    rw [hfile.service_eq, hlisted.requestType, hlisted.responseType, hlisted.clientStreaming,
      hlisted.serverStreaming]

end Mirror

/-! ## What the client reports -/

section Refuse

variable {k n m : Nat} {pool : Pool k n m} {layout : Layout pool} {s : ServiceDescriptor k n}
  {desc : ServiceDescription}

/-- The text for a field of an enumeration that the table does not have. -/
def unknownEnumText : Str := utf8 "serialrpc: unknown discovered enum type 0"

/-- A computation in two parts fails in one of them. -/
theorem error_of_bind {ε α β : Type} {x : Except ε α} {f : α → Except ε β} {e : ε}
    (h : x >>= f = .error e) : x = .error e ∨ ∃ a, x = .ok a ∧ f a = .error e := by
  cases x with
  | error e' =>
    have heq : (.error e' : Except ε β) = .error e := h
    cases heq
    exact .inl rfl
  | ok a => exact .inr ⟨a, rfl, h⟩

/-- A loop fails in one of its rounds. -/
theorem exists_of_foldlM_error {ε α β : Type} {f : β → α → Except ε β} {e : ε} :
    ∀ {as : List α} {b : β}, as.foldlM f b = .error e → ∃ a ∈ as, ∃ b', f b' a = .error e
  | a :: as, b, h => by
    rw [List.foldlM_cons] at h
    rcases error_of_bind h with h | ⟨b', -, h⟩
    · exact ⟨a, List.mem_cons_self, b, h⟩
    · obtain ⟨a', ha', b'', hb''⟩ := exists_of_foldlM_error h
      exact ⟨a', List.mem_cons_of_mem a ha', b'', hb''⟩

/-- A message is refused for one of its fields. -/
theorem describeFields_error {quote : Str → Str} {tables : TypeTables} {e : SchemaFailure} :
    ∀ {sources : List Protocol.fieldInfo.Val} {destination : DescriptorProto},
      describeFields quote tables sources destination = .error e →
      ∃ source ∈ sources, describeField quote tables source = .error e
  | source :: sources, destination, h => by
    rw [describeFields] at h
    rcases error_of_bind h with h | ⟨field, -, h⟩
    · exact ⟨source, List.mem_cons_self, h⟩
    · obtain ⟨source', hsource', herror⟩ := describeFields_error h
      exact ⟨source', List.mem_cons_of_mem source hsource', herror⟩

/-- What is reported while an element is changed is reported by the change. -/
theorem mutate_reported {β : Type} {elems : List β} {index : Nat}
    {change : β → Except SchemaFailure β} {text : Str}
    (h : mutate elems index change = .error (.reported text)) :
    ∃ elem, change elem = .error (.reported text) := by
  unfold mutate at h
  split at h
  case h_1 elem _ =>
    rcases error_of_bind h with h | ⟨elem', -, h⟩
    · exact ⟨elem, h⟩
    · cases h
  case h_2 => cases h

/-- A missing entry is not reported with a text. -/
theorem mapAt_ne_reported {β : Type} {m : Keyed.Map UInt32 β} {id : UInt32} {text : Str} :
    mapAt m id ≠ .error (.reported text) := by
  unfold mapAt
  split
  · nofun
  · nofun

/-- What a round of the second pass reports is about a field of a message. -/
theorem describeType_reported {quote : Str → Str} {tables : TypeTables}
    {file : FileDescriptorProto} {source : Protocol.typeInfo.Val} {text : Str}
    (h : describeType quote tables file source = .error (.reported text)) :
    typeInfoType source ≠ fieldTypeEnum ∧ ∃ field ∈ typeInfoFields source,
      describeField quote tables field = .error (.reported text) := by
  unfold describeType at h
  split at h
  case isTrue =>
    rcases error_of_bind h with h | ⟨index, -, h⟩
    · exact absurd h mapAt_ne_reported
    · rcases error_of_bind h with h | ⟨messageType, -, h⟩
      · obtain ⟨container, h⟩ := mutate_reported h
        rcases error_of_bind h with h | ⟨enumType, -, h⟩
        · obtain ⟨destination, h⟩ := mutate_reported h
          cases h
        · cases h
      · cases h
  case isFalse hkind =>
    rcases error_of_bind h with h | ⟨index, -, h⟩
    · exact absurd h mapAt_ne_reported
    · rcases error_of_bind h with h | ⟨messageType, -, h⟩
      · obtain ⟨destination, h⟩ := mutate_reported h
        exact ⟨hkind, describeFields_error h⟩
      · cases h

/-- A field is listed with its type's entry, or it is of an enumeration, which the table does
not have. -/
theorem Layout.fieldResolves_or (hdesc : layout.describe s = some desc) {i : Fin n}
    (hreach : pool.Reachable s (.inl i)) {type : TypeInfo}
    (htype : layout.typeInfo (pool.nodePointer s.file (.inl i)) = some type) {info : FieldInfo}
    (hinfo : info ∈ type.fields) :
    FieldResolves desc.entries (info.value desc.types) ∨
      fieldType (info.value desc.types) = fieldTypeEnum ∧
        fieldTypeId (info.value desc.types) = 0 := by
  obtain ⟨field, hfield, hdescribes, hpointer⟩ :=
    exists_mem_of_forall₂ (layout.fields_of_typeInfo htype).flip hinfo
  have hkind : fieldType (info.value desc.types) = field.type.kind.toInt32 :=
    congrArg TypeKind.toInt32 hdescribes.2.2.1
  have hrange : FieldTypeInRange (fieldType (info.value desc.types)) :=
    hkind ▸ FieldType.kind_inRange
  by_cases hrefer : field.type.kind.toInt32 = fieldTypeMessage ∨
      field.type.kind.toInt32 = fieldTypeEnum
  case neg => exact .inl ⟨hrange, fun h => absurd (hkind ▸ h) hrefer⟩
  case pos =>
    obtain ⟨target, hnodes, hsame⟩ := FieldType.exists_node hrefer
    have htarget : target ∈ field.type.nodes := hnodes ▸ List.mem_singleton_self target
    have hid : fieldTypeId (info.value desc.types) = typeId desc.types info.type :=
      fieldTypeId_eq hdescribes htarget
    rw [pool.typePointer_eq htarget] at hpointer
    -- An object in the table is one of the service's own source.
    have hfound : ∀ node, pool.Reachable s node →
        layout.pointer (pool.nodePointer s.file node) = some info.type →
        nodeKind node = nodeKind target → FieldResolves desc.entries (info.value desc.types) := by
      intro node hnode hp hnodeKind
      refine ⟨hrange, fun _ => ?_⟩
      rw [hid, (Layout.refers hdesc hnode hp).eq_number.2, hkind, hsame, ← hnodeKind]
      exact Layout.hasEntry hdesc hnode
    cases target with
    | inl j =>
      have hnode : pool.Reachable s (.inl j) := hreach.step (Pool.mem_successors hfield htarget)
      exact .inl (hfound (.inl j) hnode hpointer rfl)
    | inr e =>
      by_cases hzero : typeId desc.types info.type = 0
      · exact .inr ⟨hkind.trans (congrArg TypeKind.toInt32 hsame), hid.trans hzero⟩
      · have hsymbol := layout.mem_of_typeId (Layout.describe_eq_some hdesc).1 hpointer hzero
        rw [Pool.tableSymbols_eq] at hsymbol
        obtain ⟨node, hnode, heq⟩ := List.mem_map.mp hsymbol
        rw [← heq] at hpointer
        refine .inl (hfound node (pool.mem_table_iff.mp hnode) hpointer ?_)
        cases node with
        | inl j => exact absurd heq (pool.messageTypePointer_ne_enumPointer j _ e)
        | inr e' => rfl

/-- The only field that is refused is one of an enumeration that the table does not have. -/
theorem Layout.describeField_error (hdesc : layout.describe s = some desc)
    {tables : TypeTables} (htables : TablesOf desc.entries tables) {i : Fin n}
    (hreach : pool.Reachable s (.inl i)) {type : TypeInfo}
    (htype : layout.typeInfo (pool.nodePointer s.file (.inl i)) = some type) {info : FieldInfo}
    (hinfo : info ∈ type.fields) {quote : Str → Str} {failure : SchemaFailure}
    (h : describeField quote tables (info.value desc.types) = .error failure) :
    failure = .reported unknownEnumText := by
  have hnumbered := Layout.wellNumbered hdesc
  rcases Layout.fieldResolves_or hdesc hreach htype hinfo with hgood | ⟨henum, hzero⟩
  · rcases describeField_spec quote hnumbered htables (info.value desc.types) with
      ⟨-, hok⟩ | ⟨hbad, -⟩
    · rw [hok] at h
      cases h
    · exact absurd hgood hbad
  · have hnone : ¬ HasEntry desc.entries 0 fieldTypeEnum := by
      rintro ⟨entry, hentry, -, hid⟩
      exact hnumbered.ids_ne_zero entry hentry hid
    have hrange : FieldTypeInRange fieldTypeEnum := by decide
    rw [describeField, henum, if_neg (not_not.mpr hrange), if_neg fieldTypeEnum_ne_message,
      if_pos rfl, hzero, htables.enumNames_none hnone] at h
    have htext : utf8 "serialrpc: unknown discovered enum type " ++ decimal (0 : UInt32).toNat =
        unknownEnumText := by decide +kernel
    rw [← htext]
    exact (Except.error.inj h).symm

/-- Of a service whose references do not resolve, the client refuses every method. -/
theorem Layout.methodFile_error (hdesc : layout.describe s = some desc)
    (h : ¬ pool.Resolvable s) {service : Protocol.serviceInfo.Val}
    (hservice : serviceTypes service = desc.entries) {method : MethodDescriptor n}
    (hmethod : method ∈ s.methods) {listed : Protocol.methodInfo.Val}
    (hlisted : pool.DescribesMethod s method listed) (quote : Str → Str) :
    methodFile quote service listed = .error (.reported unknownEnumText) := by
  have hnumbered := Layout.wellNumbered hdesc
  have hinput : pool.Reachable s (.inl method.input) := ServiceDescriptor.reachable_input hmethod
  have houtput : pool.Reachable s (.inl method.output) :=
    ServiceDescriptor.reachable_output hmethod
  obtain ⟨type, -, -, hentry⟩ := Layout.exists_entry hdesc hinput
  obtain ⟨-, tables, htables, hof⟩ | ⟨hbad, -⟩ := registerTypes_spec desc.entries
  case inr => exact absurd hnumbered hbad
  obtain ⟨hgood, -⟩ | ⟨-, e, he, text, rfl⟩ := describeTypes_spec quote hnumbered hof
  case inl => exact absurd (Layout.resolvable_of_fieldsResolve hdesc hgood) h
  -- Both passes get this far, and what the second reports is about a field.
  obtain ⟨source, hsource, file, hreported⟩ := exists_of_foldlM_error he
  obtain ⟨hkind, field, hfield, herror⟩ := describeType_reported hreported
  obtain ⟨node, type, hreach, htype, rfl⟩ := Layout.exists_node hdesc hsource
  cases node with
  | inr e => exact absurd (congrArg TypeKind.toInt32 (Layout.kind_of_typeInfo htype)) hkind
  | inl i =>
    obtain ⟨info, hinfo, rfl⟩ := List.mem_map.mp hfield
    have htext := Layout.describeField_error hdesc hof hreach htype hinfo herror
    have hchecks : ¬ (methodRequestType listed = 0 ∨ methodResponseType listed = 0 ∨
        serviceTypes service = []) := by
      rw [hlisted.requestType, hlisted.responseType, hservice]
      rintro (hzero | hzero | hnil)
      · exact pool.number_ne_zero hinput hzero
      · exact pool.number_ne_zero houtput hzero
      · exact List.ne_nil_of_mem hentry hnil
    rw [methodFile, if_neg hchecks, hservice, htables]
    simp only [bind, Except.bind, he, htext]

end Refuse

/-! ## From the server's reply -/

namespace Server

/-- The lookup in a server's reply finds a method with its service. -/
theorem cliLookup_received {server : Server} (hserver : server.Described) {i : Nat}
    (hi : i < server.services.length) {m : EchoMethod}
    (hm : m ∈ server.services[i].service.methods) :
    cliLookup server.services[i].service.info.qualifiedName m.name 1 (server.received true) =
      some
        { endpointId := UInt32.ofNat (1 + (server.offset i +
            Rank.rank EchoMethod.methodId server.services[i].service.methods m.methodId))
          service := Protocol.serviceInfo.received
            ((describeService server.services[i].service).value true)
          method := m.info.value server.services[i].service.types true } := by
  have hendpoint := cliEndpoint_received hserver true hi hm
  rw [← cliLookup_endpointId] at hendpoint
  obtain ⟨target, hlookup, hid⟩ := Option.map_eq_some_iff.mp hendpoint
  obtain ⟨hservice, hmethod⟩ := cliLookup_eq_some hlookup
  -- Full names are distinct, so the service with the name is this one.
  obtain ⟨c, hc, hreceived⟩ := List.mem_map.mp (List.mem_of_find?_eq_some hservice)
  have hname : Protocol.serviceName (Protocol.serviceInfo.received
      ((describeService c.service).value true)) = c.service.info.qualifiedName :=
    InlineString.ofStr_data (hserver.fits c hc).name
  have hsame : c.service.info.qualifiedName =
      server.services[i].service.info.qualifiedName := by
    have hfound : decide (Protocol.serviceName target.service =
        server.services[i].service.info.qualifiedName) = true := by
      simpa using List.find?_some hservice
    rw [← hname, hreceived]
    exact of_decide_eq_true hfound
  obtain rfl := List.inj_on_of_nodup_map hserver.names hc (List.getElem_mem hi) hsame
  have hmethods := received_methods server.services[i] true
  rw [← hreceived, hmethods, EchoService.find?_value _ true (hserver.fits _ hc) hm] at hmethod
  obtain ⟨endpointId, service, method⟩ := target
  dsimp only at hid hreceived hmethod
  rw [hlookup, hid, hreceived, Option.some.inj hmethod]

end Server

/-- protobuf's names are not empty. -/
def Pool.ValuesNamed {k n m : Nat} (pool : Pool k n m) : Prop :=
  ∀ e, ∀ value ∈ (pool.enums e).values, value.name ≠ []

section Reply

variable {k n m : Nat} {pool : Pool k n m} {layout : Layout pool} {s : ServiceDescriptor k n}
  {desc : ServiceDescription}

/-- No field of a `.proto` file is of the unknown kind. -/
theorem FieldType.kind_ne_unknown (type : FieldType n m) : type.kind ≠ .unknown := by
  cases type with
  | scalar kind => exact kind.property.1
  | message => exact TypeKind.noConfusion
  | enum => exact TypeKind.noConfusion

/-- Everything in a service's table is visible in the reply. -/
theorem Layout.visible (hnamed : pool.ValuesNamed) (hdesc : layout.describe s = some desc) :
    ∀ type ∈ desc.types, type.Visible := by
  intro type htype
  obtain ⟨node, -, hinfo⟩ :=
    exists_mem_of_forall₂ (Layout.entries_of_describe hdesc).flip htype
  have hdescribes := layout.describes hinfo
  cases node with
  | inl i =>
    obtain ⟨hkind, -, hfields, hvalues⟩ := hdescribes
    refine ⟨by rw [hkind]; exact TypeKind.noConfusion, fun info hfield => ?_, ?_⟩
    · obtain ⟨field, -, -, -, hsame, -⟩ := exists_mem_of_forall₂ hfields.flip hfield
      rw [hsame]
      exact field.type.kind_ne_unknown
    · rw [hvalues]
      exact fun value hvalue => absurd hvalue List.not_mem_nil
  | inr e =>
    obtain ⟨hkind, -, hfields, hvalues⟩ := hdescribes
    refine ⟨by rw [hkind]; exact TypeKind.noConfusion, ?_, ?_⟩
    · rw [hfields]
      exact fun field hfield => absurd hfield List.not_mem_nil
    · rw [hvalues]
      exact hnamed e

end Reply

/-- The client finds a method of a service that is generated from `.proto` files by its names:
what it finds describes the method, in front of the service's table. -/
theorem Layout.discovered {server : Server} (hserver : server.Described) {k n m : Nat}
    {pool : Pool k n m} (hnamed : pool.ValuesNamed) {layout : Layout pool}
    {s : ServiceDescriptor k n} {i : Nat} (hi : i < server.services.length)
    (hdesc : layout.describe s = some (describeService server.services[i].service))
    {method : MethodDescriptor n} (hmethod : method ∈ s.methods) :
    ∃ echo ∈ server.services[i].service.methods, echo.name = method.name ∧
      layout.methodInfo method = some echo.info ∧ ∃ target,
        cliLookup server.services[i].service.info.qualifiedName method.name 1
          (server.received true) = some target ∧
        target.endpointId = UInt32.ofNat (1 + (server.offset i +
          Rank.rank EchoMethod.methodId server.services[i].service.methods echo.methodId)) ∧
        serviceTypes target.service = (describeService server.services[i].service).entries ∧
        pool.DescribesMethod s method target.method := by
  have hfits := hserver.fits _ (List.getElem_mem hi)
  -- The method of the service that the descriptor became.
  obtain ⟨info, hinfo, hmethodInfo⟩ :=
    exists_mem_of_forall₂ (Layout.describe_eq_some hdesc).2 hmethod
  obtain ⟨echo, hecho, rfl⟩ := List.mem_map.mp hinfo
  have hname : method.name = echo.name := by
    obtain ⟨requestType, -, hmethodInfo⟩ := Option.bind_eq_some_iff.mp hmethodInfo
    obtain ⟨responseType, -, hmethodInfo⟩ := Option.bind_eq_some_iff.mp hmethodInfo
    exact congrArg MethodInfo.name (Option.some.inj hmethodInfo)
  refine ⟨echo, hecho, hname.symm, hmethodInfo, _,
    hname ▸ Server.cliLookup_received hserver hi hecho, rfl, ?_, ?_⟩
  · exact ServiceDescription.received_types hfits (Layout.visible hnamed hdesc)
  · exact Layout.describesMethod hdesc hmethod hmethodInfo

/-- If a service's references resolve, the file for one of its methods mirrors them. -/
theorem Layout.methodFile_ok {k n m : Nat} {pool : Pool k n m} {layout : Layout pool}
    {s : ServiceDescriptor k n} {desc : ServiceDescription} (hdesc : layout.describe s = some desc)
    (h : pool.Resolvable s) (hfits : desc.Fits) {service : Protocol.serviceInfo.Val}
    (hservice : serviceTypes service = desc.entries) {method : MethodDescriptor n}
    (hmethod : method ∈ s.methods) {listed : Protocol.methodInfo.Val}
    (hlisted : pool.DescribesMethod s method listed) (quote : Str → Str) :
    ∃ nameOf file dynamicMethod, pool.Mirrored s method nameOf file ∧
      file.firstMethod = .ok dynamicMethod ∧ methodFile quote service listed = .ok file := by
  have hgood := Layout.acceptable hdesc h hservice hmethod hlisted
  obtain ⟨-, hfile⟩ | ⟨hbad, -⟩ := methodFile_spec quote service listed
  case inr => exact absurd hgood hbad
  exact ⟨_, _, _, Layout.mirrored hdesc h hfits hservice hlisted hgood.faithful, rfl, hfile⟩

/-- The client's schema of a method is the one that the `.proto` files declare. A server
lists its services, one of which is generated from a set of files. From the bytes of the
reply the client finds the service and each of its methods. If the service's references
resolve, the client gives protobuf a file with exactly the types that the service reaches,
each under a name of its own, with the same fields and values, and with the method between
two of them. If they do not, it refuses every method, with one and the same text. -/
theorem discovered_schema {V : Varint} (hV : V.Lawful)
    (overflow : (capacity : Nat) → Str → InlineString capacity) (quote : Str → Str)
    {server : Server} (hserver : server.Described) {k n m : Nat} {pool : Pool k n m}
    (hnamed : pool.ValuesNamed) (layout : Layout pool) (s : ServiceDescriptor k n) {i : Nat}
    (hi : i < server.services.length)
    (hdesc : layout.describe s = some (describeService server.services[i].service)) :
    ∃ reply : List UInt8,
      listServicesBody V overflow server.descriptions true {} = .ok { written := reply } ∧
      ∀ rest : List UInt8, ∀ method ∈ s.methods, ∃ target,
        cliLookup server.services[i].service.info.qualifiedName method.name 1
          (Protocol.responseServices
            (unmarshal V Protocol.listServicesResponse (.ofBytes (reply ++ rest))).1) =
          some target ∧
        ((pool.Resolvable s ∧ ∃ nameOf file dynamicMethod,
            pool.Mirrored s method nameOf file ∧ file.firstMethod = .ok dynamicMethod ∧
            ∀ (P : Type) (buildFile : BuildFile P) (p : P),
              buildMethodDescriptorImpl quote buildFile target.service target.method p =
                loaded buildFile file dynamicMethod p) ∨
          (¬ pool.Resolvable s ∧ ∀ (P : Type) (buildFile : BuildFile P) (p : P),
            buildMethodDescriptorImpl quote buildFile target.service target.method p =
              (.error (.reported unknownEnumText), p))) := by
  obtain ⟨reply, hreply, hunmarshal⟩ :=
    unmarshal_listServicesBody hV overflow true hserver.fits_descriptions
  refine ⟨reply, hreply, fun rest method hmethod => ?_⟩
  rw [hunmarshal rest, hserver.responseServices_eq true]
  have hfits := hserver.fits _ (List.getElem_mem hi)
  obtain ⟨echo, -, -, -, target, hlookup, -, hservice, hlisted⟩ :=
    Layout.discovered hserver hnamed hi hdesc hmethod
  refine ⟨target, hlookup, ?_⟩
  by_cases hresolvable : pool.Resolvable s
  · obtain ⟨nameOf, file, dynamicMethod, hmirrored, hfirst, hfile⟩ :=
      Layout.methodFile_ok hdesc hresolvable hfits hservice hmethod hlisted quote
    refine .inl ⟨hresolvable, nameOf, file, dynamicMethod, hmirrored, hfirst,
      fun P buildFile p => ?_⟩
    cases hbuilt : buildFile file p with
    | none => simp only [buildMethodDescriptorImpl, hfile, loaded, hbuilt]
    | some p' => simp only [buildMethodDescriptorImpl, hfile, loaded, hbuilt, hfirst]
  · refine .inr ⟨hresolvable, fun P buildFile p => ?_⟩
    have hrefused := Layout.methodFile_error hdesc hresolvable hservice hmethod hlisted quote
    simp only [buildMethodDescriptorImpl, hrefused]

namespace Sample

/-- `a.proto` with `enum F { Z = 0; }` and `message A { F e = 1; }`. -/
def enumerated : Pool 1 1 1 where
  files := ![⟨[97, 46, 112, 114, 111, 116, 111], [97]⟩]
  messages := ![⟨⟨0, Nat.one_pos⟩, [], [65], [⟨[101], 1, .enum ⟨0, Nat.one_pos⟩, false⟩]⟩]
  enums := ![⟨[97, 46, 70], [⟨[90], 0⟩]⟩]
  fileName_injective := by decide
  messageName_injective := by decide
  enumName_injective := by decide
  fileName_graphic := by simp
  enumName_graphic := by simp
  field_declared := by decide
  void_fields := by decide
  count_lt := by decide

/-- `A`, as its codec is generated. -/
def enumeratedMessage : MessageType := .field 1 (.scalar .enum) .empty

/-- `rpc g(A) returns (A)`, as the generator has read it. -/
def enumeratedEcho : EchoService where
  name := [71]
  package := [97]
  uuid := ⟨List.replicate 16 3, rfl⟩
  majorVersion := 1
  minorVersion := 0
  methods := [⟨[103], 1, some enumeratedMessage, some enumeratedMessage, false, false,
    ⟨17, .message⟩, ⟨17, .message⟩⟩]
  types := [⟨17, .message, [97, 46, 65], [⟨[101], 1, ⟨16, .enum⟩, false⟩], []⟩,
    ⟨16, .enum, [97, 46, 70], [], [⟨[90], 0⟩]⟩]
  methodId_lt := by decide
  methodId_ne_zero := by decide
  methodIds_nodup := by decide
  name_ne_nil := by decide
  names_nodup := by decide

/-- The same, as protobuf describes it. -/
def enumeratedService : ServiceDescriptor 1 1 where
  file := ⟨0, Nat.one_pos⟩
  info := enumeratedEcho.info
  methods := [⟨[103], 1, ⟨0, Nat.one_pos⟩, ⟨0, Nat.one_pos⟩, false, false⟩]

def enumeratedServer : Server where
  services := [only discovery, only enumeratedEcho]
  endpoints_lt := by decide

theorem enumerated_describe : (Layout.inOrder enumerated).describe enumeratedService =
    some (describeService enumeratedEcho) := rfl

theorem enumerated_named : enumerated.ValuesNamed := by
  intro e
  rw [Subsingleton.elim e 0]
  decide

theorem enumerated_resolvable : enumerated.Resolvable enumeratedService where
  top i _ := .inr (by rw [Subsingleton.elim i 0]; rfl)
  home i _ _ _ := Subsingleton.elim _ _

theorem enumeratedServer_described : enumeratedServer.Described where
  names := by decide
  fits c hc := by
    simp only [enumeratedServer, List.mem_cons, List.not_mem_nil, or_false] at hc
    rcases hc with rfl | rfl
    · exact ⟨by decide, by decide, by rintro type ⟨⟩⟩
    · refine ⟨by decide, by decide, fun type htype => ?_⟩
      change type ∈ enumeratedEcho.types at htype
      simp only [enumeratedEcho, List.mem_cons, List.not_mem_nil, or_false] at htype
      rcases htype with rfl | rfl
      · exact ⟨by decide, by decide, by decide⟩
      · exact ⟨by decide, by decide, by decide⟩

end Sample

theorem discovered_schema_enumerated :
    ∃ reply : List UInt8,
      listServicesBody .leb128 (fun _ _ => .empty) Sample.enumeratedServer.descriptions true {} =
        .ok { written := reply } ∧
      ∃ target, cliLookup [97, 46, 71] [103] 1 (Protocol.responseServices
          (unmarshal .leb128 Protocol.listServicesResponse (.ofBytes (reply ++ []))).1) =
          some target ∧
        ∃ nameOf file dynamicMethod,
          Sample.enumerated.Mirrored Sample.enumeratedService ⟨[103], 1, 0, 0, false, false⟩
            nameOf file ∧
          buildMethodDescriptorImpl id (fun _ _ => some ()) target.service target.method () =
            (.ok dynamicMethod, ()) := by
  obtain ⟨reply, hreply, hall⟩ := discovered_schema Varint.leb128_lawful (fun _ _ => .empty) id
    Sample.enumeratedServer_described Sample.enumerated_named (.inOrder Sample.enumerated)
    Sample.enumeratedService (i := 1) (by decide) Sample.enumerated_describe
  obtain ⟨target, htarget, hbuilt⟩ := hall [] _ List.mem_cons_self
  rcases hbuilt with ⟨-, nameOf, file, dynamicMethod, hmirrored, -, hbuild⟩ | ⟨hunresolved, -⟩
  · exact ⟨reply, hreply, target, htarget, nameOf, file, dynamicMethod, hmirrored,
      hbuild Unit (fun _ _ => some ()) ()⟩
  · exact absurd Sample.enumerated_resolvable hunresolved

end SerialRpc
