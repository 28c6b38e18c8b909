import SerialRpc.Service.SchemaPasses

/-!
# What a schema says (cmd/serialrpc/call.cc:276-410)

Protobuf finds types by their full names. The file that the command-line client makes gives
every entry of the table a name of its own, made from its id, and so a field's type name can
only be of the entry that the field refers to.

- `FaithfulTo`: a file is a schema of a table and a method.
- `Acceptable.faithful`: the file that an acceptable reply becomes is one. The names are
  different since numerals are (`decimal_injective`), and since neither kind of entry, nor an
  enumeration's container, has a name of the other kind.
- `buildMethodDescriptorImpl_faithful`: the whole function.
-/

namespace SerialRpc

open Protocol (typeInfoId typeInfoType typeInfoFields typeInfoEnumValues fieldName fieldNumber
  fieldType fieldTypeId fieldRepeated enumValueName enumValueNumber serviceTypes
  methodRequestType methodResponseType methodClientStreaming methodServerStreaming)

/-! ## What a schema is -/

/-- What a full name in a file is of. -/
inductive FileSymbol where
  | message (message : DescriptorProto)
  | enum (enumType : EnumDescriptorProto)

/-- The full names in a file, and what they are of. -/
def FileDescriptorProto.symbols (file : FileDescriptorProto) : List (Str × FileSymbol) :=
  file.messageType.flatMap fun message =>
    let name := utf8 "." ++ file.package ++ utf8 "." ++ message.name
    (name, .message message) ::
      message.enumType.map fun enumType => (name ++ utf8 "." ++ enumType.name, .enum enumType)

/-- A name is of one thing in the file. -/
def FileDescriptorProto.Denotes (file : FileDescriptorProto) (name : Str) (symbol : FileSymbol) :
    Prop :=
  file.symbols.filter (fun entry => entry.1 = name) = [(name, symbol)]

/-- A field says what the discovered one says, and its type is the entry it refers to. -/
structure DescribesField (types : List Protocol.typeInfo.Val) (nameOf : UInt32 → Str)
    (source : Protocol.fieldInfo.Val) (field : FieldDescriptorProto) : Prop where
  name : field.name = fieldName source
  number : field.number = (fieldNumber source).toInt32
  repeated : field.repeated = fieldRepeated source
  type : field.type = fieldType source
  typeName : fieldType source = fieldTypeMessage ∨ fieldType source = fieldTypeEnum →
    field.typeName = some (nameOf (fieldTypeId source)) ∧
      HasEntry types (fieldTypeId source) (fieldType source)
  typeName_none : ¬ (fieldType source = fieldTypeMessage ∨ fieldType source = fieldTypeEnum) →
    field.typeName = none

/-- A message has the fields of an entry, and an enumeration has its values. -/
def DescribesEntry (types : List Protocol.typeInfo.Val) (nameOf : UInt32 → Str)
    (entry : Protocol.typeInfo.Val) : FileSymbol → Prop
  | .message message => typeInfoType entry = fieldTypeMessage ∧
      List.Forall₂ (DescribesField types nameOf) (typeInfoFields entry) message.field
  | .enum enumType => typeInfoType entry = fieldTypeEnum ∧
      enumType.value = (typeInfoEnumValues entry).map (fun value =>
        ⟨enumValueName value, enumValueNumber value⟩) ∧
      (enumType.allowAlias ↔ ¬ ((typeInfoEnumValues entry).map enumValueNumber).Nodup)

/-- A file is a schema of a table and a method, with names for the ids. -/
structure FaithfulTo (service : Protocol.serviceInfo.Val) (method : Protocol.methodInfo.Val)
    (nameOf : UInt32 → Str) (file : FileDescriptorProto) : Prop where
  names : ∀ type ∈ serviceTypes service, ∀ type' ∈ serviceTypes service,
    typeInfoId type ≠ typeInfoId type' → nameOf (typeInfoId type) ≠ nameOf (typeInfoId type')
  entries : ∀ type ∈ serviceTypes service, ∃ symbol,
    file.Denotes (nameOf (typeInfoId type)) symbol ∧
      DescribesEntry (serviceTypes service) nameOf type symbol
  messages : file.messageType.length = (serviceTypes service).length
  request : HasEntry (serviceTypes service) (methodRequestType method) fieldTypeMessage
  response : HasEntry (serviceTypes service) (methodResponseType method) fieldTypeMessage
  service_eq : file.service = [⟨utf8 "Service", [⟨utf8 "Method",
    nameOf (methodRequestType method), nameOf (methodResponseType method),
    methodClientStreaming method, methodServerStreaming method⟩]⟩]

/-! ## Names -/

theorem toNat_of_isDigit {c : Char} (h : c.isDigit) :
    (UInt8.ofNat c.toNat).toNat = c.toNat ∧ c.toNat ≠ 46 := by
  obtain ⟨hlow, hhigh⟩ := Char.isDigit_iff_toNat.mp h
  have hlow' : 48 ≤ c.toNat := hlow
  have hhigh' : c.toNat ≤ 57 := hhigh
  refine ⟨?_, by omega⟩
  rw [UInt8.toNat_ofNat']
  omega

/-- The characters of a numeral, from its bytes. -/
theorem decimal_chars (n : Nat) :
    (decimal n).map (fun b => Char.ofNat b.toNat) = Nat.toDigits 10 n := by
  rw [decimal, List.map_map]
  have hid : ∀ c ∈ Nat.toDigits 10 n, ((fun b : UInt8 => Char.ofNat b.toNat) ∘
      fun c => UInt8.ofNat c.toNat) c = c := by
    intro c hc
    have hdigit := Nat.isDigit_of_mem_toDigits (by decide) (by decide) hc
    show Char.ofNat (UInt8.ofNat c.toNat).toNat = c
    rw [(toNat_of_isDigit hdigit).1, Char.ofNat_toNat]
  exact (List.map_congr_left hid).trans (List.map_id _)

/-- A numeral is of one number. -/
theorem decimal_injective : Function.Injective decimal := by
  intro m n h
  have hdigits : Nat.toDigits 10 m = Nat.toDigits 10 n := by
    rw [← decimal_chars, ← decimal_chars, h]
  rw [← Nat.ofDigitChars_ten_toDigits (n := m), hdigits, Nat.ofDigitChars_ten_toDigits]

theorem dot_not_mem_decimal (n : Nat) : 46 ∉ decimal n := by
  intro h
  obtain ⟨c, hc, hdot⟩ := List.mem_map.mp h
  have hdigit := toNat_of_isDigit (Nat.isDigit_of_mem_toDigits (by decide) (by decide) hc)
  rw [hdot] at hdigit
  exact hdigit.2 hdigit.1.symm

/-- The package in front of a message's name. -/
theorem package_dot : utf8 "." ++ utf8 "serialrpc_dynamic" ++ utf8 "." =
    utf8 ".serialrpc_dynamic." := by
  decide +kernel

theorem generatedMessage_ne_enum (id id' : UInt32) (rest : Str) :
    generatedMessage id ≠ generatedEnum id' ++ rest := by
  have hm : utf8 "Message" = 77 :: utf8 "essage" := by decide +kernel
  have he : utf8 "Enum" = 69 :: utf8 "num" := by decide +kernel
  intro h
  rw [generatedMessage, generatedEnum, hm, he, List.cons_append, List.cons_append,
    List.cons_append] at h
  exact absurd (List.cons.inj h).1 (by decide)

theorem messageTypeName_injective : Function.Injective messageTypeName := by
  intro id id' h
  have hname := List.append_cancel_left h
  exact UInt32.toNat_inj.mp (decimal_injective (List.append_cancel_left hname))

theorem messageTypeName_ne_enumTypeName (id id' : UInt32) :
    messageTypeName id ≠ enumTypeName id' := by
  intro h
  rw [messageTypeName, enumTypeName, List.append_assoc] at h
  exact generatedMessage_ne_enum id id' _ (List.append_cancel_left h)

theorem enumTypeName_injective : Function.Injective enumTypeName := by
  intro id id' h
  have hname := List.append_cancel_left (List.append_cancel_right h)
  exact UInt32.toNat_inj.mp (decimal_injective (List.append_cancel_left hname))

/-- The container of an enumeration does not have the name of one. -/
theorem container_ne_enumTypeName (id id' : UInt32) :
    utf8 ".serialrpc_dynamic." ++ generatedEnum id ≠ enumTypeName id' := by
  intro h
  rw [enumTypeName, List.append_assoc] at h
  have hname := List.append_cancel_left h
  rw [generatedEnum, generatedEnum, List.append_assoc] at hname
  have hvalue : utf8 ".Value" = 46 :: utf8 "Value" := by decide +kernel
  -- The dot would be in the numeral.
  apply dot_not_mem_decimal id.toNat
  rw [List.append_cancel_left hname, hvalue]
  exact List.mem_append_right _ List.mem_cons_self

/-! ## The file is a schema -/

section Schema

variable {types : List Protocol.typeInfo.Val}

/-- The name of an entry is that of its message or enumeration. -/
theorem WellNumbered.schemaName_eq (h : WellNumbered types) {type : Protocol.typeInfo.Val}
    (htype : type ∈ types) :
    schemaName types (typeInfoId type) =
      if typeInfoType type = fieldTypeMessage then messageTypeName (typeInfoId type)
      else enumTypeName (typeInfoId type) := by
  rw [schemaName]
  refine if_congr ?_ rfl rfl
  constructor
  · rintro ⟨type', htype', hkind, hid⟩
    rwa [h.eq_of_id_eq htype htype' hid.symm]
  · intro hkind
    exact ⟨type, htype, hkind, rfl⟩

/-- Entries with different ids have different names. -/
theorem WellNumbered.schemaName_ne (h : WellNumbered types) {type type' : Protocol.typeInfo.Val}
    (htype : type ∈ types) (htype' : type' ∈ types) (hne : typeInfoId type ≠ typeInfoId type') :
    schemaName types (typeInfoId type) ≠ schemaName types (typeInfoId type') := by
  rw [h.schemaName_eq htype, h.schemaName_eq htype']
  split_ifs
  · exact messageTypeName_injective.ne hne
  · exact messageTypeName_ne_enumTypeName _ _
  · exact (messageTypeName_ne_enumTypeName _ _).symm
  · exact enumTypeName_injective.ne hne

/-- What the name of an entry is of. -/
def entrySymbol (types : List Protocol.typeInfo.Val) (entry : Protocol.typeInfo.Val) :
    FileSymbol :=
  if typeInfoType entry = fieldTypeMessage then .message (messageOf types entry)
  else .enum (describeEnum entry { name := utf8 "Value" })

/-- The full names that a message brings. -/
def messageSymbols (package : Str) (message : DescriptorProto) : List (Str × FileSymbol) :=
  let name := utf8 "." ++ package ++ utf8 "." ++ message.name
  (name, .message message) ::
    message.enumType.map fun enumType => (name ++ utf8 "." ++ enumType.name, .enum enumType)

theorem dot_value : utf8 "." ++ utf8 "Value" = utf8 ".Value" := by decide +kernel

/-- The full names that an entry's message brings. -/
theorem messageSymbols_messageOf (entry : Protocol.typeInfo.Val) :
    messageSymbols (utf8 "serialrpc_dynamic") (messageOf types entry) =
      if typeInfoType entry = fieldTypeMessage then
        [(messageTypeName (typeInfoId entry), entrySymbol types entry)]
      else
        [(utf8 ".serialrpc_dynamic." ++ generatedEnum (typeInfoId entry),
            .message (messageOf types entry)),
          (enumTypeName (typeInfoId entry), entrySymbol types entry)] := by
  have hname := (describeEnum_value entry (utf8 "Value")).1
  have hpackage : ∀ name : Str, utf8 "." ++ utf8 "serialrpc_dynamic" ++ utf8 "." ++ name =
      utf8 ".serialrpc_dynamic." ++ name := fun name => by rw [package_dot]
  have hvalue : ∀ name : Str, name ++ utf8 "." ++ utf8 "Value" = name ++ utf8 ".Value" :=
    fun name => by rw [List.append_assoc, dot_value]
  split_ifs with hmessage
  · simp only [messageSymbols, hpackage, messageOf, hmessage, if_true, List.map_nil,
      messageTypeName, entrySymbol]
  · simp only [messageSymbols, hpackage, messageOf, hmessage, if_false, List.map_singleton,
      hname, entrySymbol, enumTypeName, hvalue]

/-- Among the full names that an entry's message brings, the name of an entry is once if it is
this one, and else it is not there. -/
theorem filter_messageSymbols (h : WellNumbered types) {type entry : Protocol.typeInfo.Val}
    (htype : type ∈ types) (hentry : entry ∈ types) :
    (messageSymbols (utf8 "serialrpc_dynamic") (messageOf types entry)).filter
        (fun symbol => symbol.1 = schemaName types (typeInfoId type)) =
      if typeInfoId entry = typeInfoId type then
        [(schemaName types (typeInfoId type), entrySymbol types type)]
      else [] := by
  rw [messageSymbols_messageOf]
  split_ifs with hmessage hid hid
  · obtain rfl := h.eq_of_id_eq hentry htype hid
    simp [h.schemaName_eq htype, hmessage]
  · -- This message has the name of its own entry.
    have hne := h.schemaName_ne hentry htype hid
    rw [h.schemaName_eq hentry, if_pos hmessage] at hne
    simp [hne]
  · obtain rfl := h.eq_of_id_eq hentry htype hid
    simp [h.schemaName_eq htype, hmessage, container_ne_enumTypeName]
  · -- So has this enumeration, and its container has the name of none.
    have hne := h.schemaName_ne hentry htype hid
    rw [h.schemaName_eq hentry, if_neg hmessage] at hne
    have hcontainer : utf8 ".serialrpc_dynamic." ++ generatedEnum (typeInfoId entry) ≠
        schemaName types (typeInfoId type) := by
      rw [h.schemaName_eq htype]
      split_ifs
      · intro heq
        have hname := (List.append_cancel_left heq).symm
        exact generatedMessage_ne_enum _ _ [] (by rwa [List.append_nil])
      · exact container_ne_enumTypeName _ _
    simp [hne, hcontainer]

/-- What is there for one element of a list only is there once. -/
theorem flatMap_ite_of_nodup {α β : Type} {key : α → UInt32} {x : β} :
    ∀ {as : List α}, (as.map key).Nodup → ∀ {a : α}, a ∈ as →
      as.flatMap (fun b => if key b = key a then [x] else []) = [x]
  | b :: as, hnodup, a, ha => by
    obtain ⟨hnot, hnodup'⟩ := List.nodup_cons.mp hnodup
    rw [List.flatMap_cons]
    rcases List.mem_cons.mp ha with rfl | ha
    · have hrest : as.flatMap (fun b => if key b = key a then [x] else []) = [] := by
        refine List.flatMap_eq_nil_iff.mpr fun b hb => if_neg fun heq => hnot ?_
        exact heq ▸ List.mem_map_of_mem hb
      rw [if_pos rfl, hrest]
      rfl
    · have hne : key b ≠ key a := fun heq => hnot (heq ▸ List.mem_map_of_mem ha)
      rw [if_neg hne, List.nil_append]
      exact flatMap_ite_of_nodup hnodup' ha

/-- An entry's name denotes its message or enumeration in the file. -/
theorem schemaFile_denotes {service : Protocol.serviceInfo.Val} (method : Protocol.methodInfo.Val)
    (h : WellNumbered (serviceTypes service)) {type : Protocol.typeInfo.Val}
    (htype : type ∈ serviceTypes service) :
    (schemaFile service method).Denotes (schemaName (serviceTypes service) (typeInfoId type))
      (entrySymbol (serviceTypes service) type) := by
  have hsymbols : (schemaFile service method).symbols =
      (serviceTypes service).flatMap fun entry =>
        messageSymbols (utf8 "serialrpc_dynamic") (messageOf (serviceTypes service) entry) :=
    List.flatMap_map ..
  rw [FileDescriptorProto.Denotes, hsymbols, List.filter_flatMap]
  have hfilter : ∀ entry ∈ serviceTypes service,
      (messageSymbols (utf8 "serialrpc_dynamic") (messageOf (serviceTypes service) entry)).filter
        (fun symbol => symbol.1 = schemaName (serviceTypes service) (typeInfoId type)) =
      if typeInfoId entry = typeInfoId type then
        [(schemaName (serviceTypes service) (typeInfoId type),
          entrySymbol (serviceTypes service) type)]
      else [] := fun entry hentry => filter_messageSymbols h htype hentry
  rw [List.flatMap_congr hfilter]
  exact flatMap_ite_of_nodup h.ids_nodup htype

theorem describesField_fieldOf {source : Protocol.fieldInfo.Val} (h : FieldResolves types source) :
    DescribesField types (schemaName types) source (fieldOf types source) where
  name := rfl
  number := rfl
  repeated := rfl
  type := rfl
  typeName hkind := ⟨if_pos hkind, h.refers hkind⟩
  typeName_none hkind := if_neg hkind

/-- An entry is described by its message or enumeration. -/
theorem describesEntry_entrySymbol (hfields : FieldsResolve types types)
    (h : WellNumbered types) {entry : Protocol.typeInfo.Val} (hentry : entry ∈ types) :
    DescribesEntry types (schemaName types) entry (entrySymbol types entry) := by
  unfold entrySymbol
  split_ifs with hmessage
  · refine ⟨hmessage, ?_⟩
    rw [messageOf, if_pos hmessage]
    dsimp only
    rw [List.forall₂_map_right_iff, List.forall₂_same]
    intro source hsource
    exact describesField_fieldOf (hfields entry hentry hmessage source hsource)
  · have henum := (h.kinds entry hentry).resolve_left hmessage
    exact ⟨henum, (describeEnum_value entry _).2⟩

/-- The file is a schema of what was discovered. -/
theorem Acceptable.faithful {service : Protocol.serviceInfo.Val}
    {method : Protocol.methodInfo.Val} (h : Acceptable service method) :
    FaithfulTo service method (schemaName (serviceTypes service)) (schemaFile service method) where
  names _ htype _ htype' hne := h.wellNumbered.schemaName_ne htype htype' hne
  entries _ htype := ⟨_, schemaFile_denotes method h.wellNumbered htype,
    describesEntry_entrySymbol h.fields h.wellNumbered htype⟩
  messages := List.length_map _
  request := h.request
  response := h.response
  service_eq := rfl

end Schema

/-! ## The whole function -/

/-- What comes of a file that `BuildFile` is given. -/
def loaded {Pool : Type} (buildFile : BuildFile Pool) (file : FileDescriptorProto)
    (method : DynamicMethod) (pool : Pool) : Except SchemaFailure DynamicMethod × Pool :=
  match buildFile file pool with
  | none => (.error (.reported (utf8 "serialrpc: could not load discovered method schema")), pool)
  | some pool => (.ok method, pool)

/-- A reply is refused with an error, and the pool is as it was; or it is acceptable, and
`BuildFile` is given a file that is faithful to it. No lookup fails. -/
theorem buildMethodDescriptorImpl_faithful (quote : Str → Str)
    (service : Protocol.serviceInfo.Val) (method : Protocol.methodInfo.Val) :
    (¬ Acceptable service method ∧
      ∃ text, ∀ (Pool : Type) (buildFile : BuildFile Pool) (pool : Pool),
        buildMethodDescriptorImpl quote buildFile service method pool =
          (.error (.reported text), pool)) ∨
    (Acceptable service method ∧
      ∃ nameOf file dynamicMethod, FaithfulTo service method nameOf file ∧
        file.firstMethod = .ok dynamicMethod ∧
        ∀ (Pool : Type) (buildFile : BuildFile Pool) (pool : Pool),
          buildMethodDescriptorImpl quote buildFile service method pool =
            loaded buildFile file dynamicMethod pool) := by
  rcases methodFile_spec quote service method with ⟨hgood, hfile⟩ | ⟨hbad, e, he, text, rfl⟩
  · refine .inr ⟨hgood, _, _, _, hgood.faithful, rfl, fun Pool buildFile pool => ?_⟩
    simp only [buildMethodDescriptorImpl, hfile, loaded]
    rfl
  · refine .inl ⟨hbad, text, fun Pool buildFile pool => ?_⟩
    simp only [buildMethodDescriptorImpl, he]

namespace Sample

/-- A service with a message, and an enumeration that comes with a field of no type. -/
def strayField : Protocol.serviceInfo.Val :=
  (.empty, .empty, 0, 0, [],
    [(1, fieldTypeMessage, .empty, [], [], ()),
      (2, fieldTypeEnum, .empty, [(.empty, 1, 99, 0, false, ())], [(.empty, 0, ())], ())], ())

/-- A method from the message to itself. -/
def strayMethod : Protocol.methodInfo.Val := (.empty, 1, 1, 1, false, false, ())

end Sample

/-- The fields of an enumeration are not checked. -/
theorem buildMethodDescriptorImpl_stray_field :
    ¬ ∀ (service : Protocol.serviceInfo.Val) (method : Protocol.methodInfo.Val),
      (∃ type ∈ serviceTypes service, ∃ field ∈ typeInfoFields type,
        ¬ FieldTypeInRange (fieldType field)) →
      ∃ text, buildMethodDescriptorImpl id (fun _ _ => some ()) service method () =
        (.error (.reported text), ()) := by
  intro h
  obtain ⟨text, htext⟩ := h Sample.strayField Sample.strayMethod (by decide)
  have hok : (buildMethodDescriptorImpl id (fun _ _ => some ()) Sample.strayField
      Sample.strayMethod ()).1.isOk = true := by decide +kernel
  rw [htext] at hok
  cases hok

namespace Sample

/-- `SumService`, as the test of the client describes it: a request with fields of two
enumerations, one of which has an alias. -/
def sumService : Protocol.serviceInfo.Val :=
  (.empty, .empty, 0, 0, [],
    [(1, fieldTypeMessage, .empty,
        [(.empty, 1, 5, 0, false, ()), (.empty, 2, 5, 0, false, ()),
          (.empty, 3, fieldTypeEnum, 3, false, ()), (.empty, 4, fieldTypeEnum, 4, false, ())],
        [], ()),
      (2, fieldTypeMessage, .empty, [(.empty, 1, 5, 0, false, ())], [], ()),
      (3, fieldTypeEnum, .empty, [], [(.empty, 0, ()), (.empty, 0, ()), (.empty, 1, ())], ()),
      (4, fieldTypeEnum, .empty, [], [(.empty, 0, ()), (.empty, 1, ())], ())], ())

/-- `sum`. -/
def sumMethod : Protocol.methodInfo.Val := (.empty, 1, 1, 2, false, false, ())

end Sample

example : (methodFile id Sample.sumService Sample.sumMethod).map (fun file =>
    file.messageType.map fun message =>
      (message.field.map FieldDescriptorProto.typeName,
        message.enumType.map EnumDescriptorProto.allowAlias)) =
    .ok [([none, none, some (utf8 ".serialrpc_dynamic.Enum3.Value"),
        some (utf8 ".serialrpc_dynamic.Enum4.Value")], []),
      ([none], []), ([], [true]), ([], [false])] := by
  decide +kernel

end SerialRpc
