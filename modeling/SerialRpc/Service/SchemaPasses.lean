import SerialRpc.Service.DynamicSchema

/-!
# Which replies become a schema (cmd/serialrpc/call.cc:295-386)

The two passes over the type table, each with what it does to the tables and to the file,
for every table: in any order, with any ids and any references.

- `Acceptable`: what a reply must have.
- `registerTypes_spec`: the first pass refuses a table whose ids are zero or repeated, or
  with an entry of no kind, and else its maps hold all entries.
- `describeTypes_spec`: the second pass refuses a field whose type does not resolve, and else
  it fills in every message. No index is out of range, since the first pass has seen the same
  table.
- `methodFile_spec`: the file of an acceptable reply is `schemaFile`.
-/

namespace SerialRpc

open Protocol (typeInfoId typeInfoType typeInfoFields typeInfoEnumValues fieldName fieldNumber
  fieldType fieldTypeId fieldRepeated enumValueName enumValueNumber serviceTypes
  methodRequestType methodResponseType methodClientStreaming methodServerStreaming)

/-! ## What is accepted -/

/-- The entries have ids of their own, and each is a message or an enumeration. -/
structure WellNumbered (types : List Protocol.typeInfo.Val) : Prop where
  ids_ne_zero : ∀ type ∈ types, typeInfoId type ≠ 0
  ids_nodup : (types.map typeInfoId).Nodup
  kinds : ∀ type ∈ types, typeInfoType type = fieldTypeMessage ∨ typeInfoType type = fieldTypeEnum

/-- There is an entry with an id and a kind. -/
def HasEntry (types : List Protocol.typeInfo.Val) (id : UInt32) (kind : Int32) : Prop :=
  ∃ type ∈ types, typeInfoType type = kind ∧ typeInfoId type = id

/-- A field's type is one there is, and if it is a message or an enumeration then its id is
of such an entry. -/
structure FieldResolves (types : List Protocol.typeInfo.Val) (field : Protocol.fieldInfo.Val) :
    Prop where
  inRange : FieldTypeInRange (fieldType field)
  refers : fieldType field = fieldTypeMessage ∨ fieldType field = fieldTypeEnum →
    HasEntry types (fieldTypeId field) (fieldType field)

/-- The fields of the messages among some entries resolve in the table. -/
def FieldsResolve (types entries : List Protocol.typeInfo.Val) : Prop :=
  ∀ type ∈ entries, typeInfoType type = fieldTypeMessage →
    ∀ field ∈ typeInfoFields type, FieldResolves types field

/-- The server's reply has all that a schema needs. -/
structure Acceptable (service : Protocol.serviceInfo.Val) (method : Protocol.methodInfo.Val) :
    Prop where
  request_ne_zero : methodRequestType method ≠ 0
  response_ne_zero : methodResponseType method ≠ 0
  types_ne_nil : serviceTypes service ≠ []
  wellNumbered : WellNumbered (serviceTypes service)
  fields : FieldsResolve (serviceTypes service) (serviceTypes service)
  request : HasEntry (serviceTypes service) (methodRequestType method) fieldTypeMessage
  response : HasEntry (serviceTypes service) (methodResponseType method) fieldTypeMessage

theorem fieldTypeEnum_ne_message : fieldTypeEnum ≠ fieldTypeMessage := by decide

/-! ## The first pass -/

/-- The message that the first pass gives an entry. -/
def skeleton (entry : Protocol.typeInfo.Val) : DescriptorProto :=
  if typeInfoType entry = fieldTypeMessage then { name := generatedMessage (typeInfoId entry) }
  else { name := generatedEnum (typeInfoId entry), enumType := [{ name := utf8 "Value" }] }

/-- A file with some messages, and no service yet. -/
def fileOf (messages : List DescriptorProto) : FileDescriptorProto :=
  { TypeTables.start.file with messageType := messages }

/-- What the tables hold after some entries. -/
structure TablesOf (done : List Protocol.typeInfo.Val) (s : TypeTables) : Prop where
  file : s.file = fileOf (done.map skeleton)
  messageNames : Keyed.Holds typeInfoId (fun type => typeInfoType type = fieldTypeMessage)
    (fun _ type => messageTypeName (typeInfoId type)) done s.messageNames
  messageIndexes : Keyed.Holds typeInfoId (fun type => typeInfoType type = fieldTypeMessage)
    (fun i _ => i) done s.messageIndexes
  enumNames : Keyed.Holds typeInfoId (fun type => typeInfoType type = fieldTypeEnum)
    (fun _ type => enumTypeName (typeInfoId type)) done s.enumNames
  enumContainerIndexes : Keyed.Holds typeInfoId (fun type => typeInfoType type = fieldTypeEnum)
    (fun i _ => i) done s.enumContainerIndexes
  typeIds : ∀ id, id ∈ s.typeIds ↔ id ∈ done.map typeInfoId

theorem tablesOf_start : TablesOf [] .start where
  file := rfl
  messageNames := .nil
  messageIndexes := .nil
  enumNames := .nil
  enumContainerIndexes := .nil
  typeIds _ := Iff.rfl

theorem wellNumbered_nil : WellNumbered [] := ⟨nofun, List.nodup_nil, nofun⟩

theorem WellNumbered.of_append {done rest : List Protocol.typeInfo.Val}
    (h : WellNumbered (done ++ rest)) : WellNumbered done where
  ids_ne_zero type htype := h.ids_ne_zero type (List.mem_append_left _ htype)
  ids_nodup := by
    have hnodup := h.ids_nodup
    rw [List.map_append] at hnodup
    exact hnodup.of_append_left
  kinds type htype := h.kinds type (List.mem_append_left _ htype)

/-- One entry more is well numbered if its id is new and not zero, and it is a message or an
enumeration. -/
theorem WellNumbered.concat {done : List Protocol.typeInfo.Val} (h : WellNumbered done)
    {type : Protocol.typeInfo.Val} (hzero : typeInfoId type ≠ 0)
    (hnew : typeInfoId type ∉ done.map typeInfoId)
    (hkind : typeInfoType type = fieldTypeMessage ∨ typeInfoType type = fieldTypeEnum) :
    WellNumbered (done ++ [type]) where
  ids_ne_zero t ht := by
    rcases List.mem_append.mp ht with ht | ht
    · exact h.ids_ne_zero t ht
    · rwa [List.mem_singleton.mp ht]
  ids_nodup := by
    rw [List.map_append, List.map_singleton, ← List.concat_eq_append]
    exact (List.nodup_concat _ _).mpr ⟨hnew, h.ids_nodup⟩
  kinds t ht := by
    rcases List.mem_append.mp ht with ht | ht
    · exact h.kinds t ht
    · rwa [List.mem_singleton.mp ht]

/-- What is asked of the last entry. -/
theorem WellNumbered.last {done : List Protocol.typeInfo.Val} {type : Protocol.typeInfo.Val}
    (h : WellNumbered (done ++ [type])) :
    typeInfoId type ≠ 0 ∧ typeInfoId type ∉ done.map typeInfoId ∧
      (typeInfoType type = fieldTypeMessage ∨ typeInfoType type = fieldTypeEnum) := by
  have hmem : type ∈ done ++ [type] := List.mem_append_right _ List.mem_cons_self
  have hnodup := h.ids_nodup
  rw [List.map_append, List.map_singleton, ← List.concat_eq_append] at hnodup
  exact ⟨h.ids_ne_zero type hmem, ((List.nodup_concat _ _).mp hnodup).1, h.kinds type hmem⟩

/-- The error that was reported. -/
def Reported (failure : SchemaFailure) : Prop := ∃ text, failure = .reported text

/-- A round registers an entry that is well numbered, and refuses every other one. -/
theorem registerType_spec {done : List Protocol.typeInfo.Val} {s : TypeTables}
    (hdone : WellNumbered done) (hs : TablesOf done s) (type : Protocol.typeInfo.Val) :
    (WellNumbered (done ++ [type]) ∧
      ∃ s', registerType s type = .ok s' ∧ TablesOf (done ++ [type]) s') ∨
    (¬ WellNumbered (done ++ [type]) ∧
      ∃ e, registerType s type = .error e ∧ Reported e) := by
  have hsize : s.file.messageType.length = done.length := by rw [hs.file]; simp [fileOf]
  unfold registerType
  dsimp only
  split_ifs with hzero hold hmessage henum
  · exact .inr ⟨fun h => h.last.1 hzero, _, rfl, _, rfl⟩
  · exact .inr ⟨fun h => h.last.2.1 ((hs.typeIds _).mp hold), _, rfl, _, rfl⟩
  · have hnew : typeInfoId type ∉ done.map typeInfoId := mt (hs.typeIds _).mpr hold
    refine .inl ⟨hdone.concat hzero hnew (.inl hmessage), _, rfl, ?_⟩
    have hnot : ¬ typeInfoType type = fieldTypeEnum :=
      fun henum => fieldTypeEnum_ne_message (henum.symm.trans hmessage)
    exact {
      file := by simp [hs.file, fileOf, skeleton, hmessage]
      messageNames := hs.messageNames.emplace hmessage hnew
      messageIndexes := hsize ▸ hs.messageIndexes.emplace hmessage hnew
      enumNames := hs.enumNames.skip hnot
      enumContainerIndexes := hs.enumContainerIndexes.skip hnot
      typeIds := fun id => by simp [hs.typeIds, or_comm] }
  · have hnew : typeInfoId type ∉ done.map typeInfoId := mt (hs.typeIds _).mpr hold
    refine .inl ⟨hdone.concat hzero hnew (.inr henum), _, rfl, ?_⟩
    exact {
      file := by simp [hs.file, fileOf, skeleton, hmessage]
      messageNames := hs.messageNames.skip hmessage
      messageIndexes := hs.messageIndexes.skip hmessage
      enumNames := hs.enumNames.emplace henum hnew
      enumContainerIndexes := hsize ▸ hs.enumContainerIndexes.emplace henum hnew
      typeIds := fun id => by simp [hs.typeIds, or_comm] }
  · exact .inr ⟨fun h => h.last.2.2.elim hmessage henum, _, rfl, _, rfl⟩

/-- The first pass gets through exactly if the table is well numbered, and then the tables
hold all of it. -/
theorem registerTypes_spec (types : List Protocol.typeInfo.Val) :
    (WellNumbered types ∧
      ∃ s, types.foldlM registerType .start = .ok s ∧ TablesOf types s) ∨
    (¬ WellNumbered types ∧
      ∃ e, types.foldlM registerType .start = .error e ∧ Reported e) := by
  have hpass := Keyed.pass_spec WellNumbered (fun done s => WellNumbered done ∧ TablesOf done s)
    Reported registerType types (fun _ _ => WellNumbered.of_append)
    (fun done type _ _ s hs => ?_) types [] rfl wellNumbered_nil .start
    ⟨wellNumbered_nil, tablesOf_start⟩
  · rcases hpass with ⟨hgood, s, hs, -, htables⟩ | hbad
    · exact .inl ⟨hgood, s, hs, htables⟩
    · exact .inr hbad
  · rcases registerType_spec hs.1 hs.2 type with ⟨hgood, s', hs', htables⟩ | hbad
    · exact .inl ⟨hgood, s', hs', hgood, htables⟩
    · exact .inr hbad

/-! ## The second pass -/

instance (types : List Protocol.typeInfo.Val) (id : UInt32) (kind : Int32) :
    Decidable (HasEntry types id kind) :=
  inferInstanceAs (Decidable (∃ type ∈ types, typeInfoType type = kind ∧ typeInfoId type = id))

/-- The name of the entry with an id. -/
def schemaName (types : List Protocol.typeInfo.Val) (id : UInt32) : Str :=
  if HasEntry types id fieldTypeMessage then messageTypeName id else enumTypeName id

/-- The field that a discovered one becomes. -/
def fieldOf (types : List Protocol.typeInfo.Val) (source : Protocol.fieldInfo.Val) :
    FieldDescriptorProto where
  name := fieldName source
  number := (fieldNumber source).toInt32
  repeated := fieldRepeated source
  type := fieldType source
  typeName :=
    if fieldType source = fieldTypeMessage ∨ fieldType source = fieldTypeEnum then
      some (schemaName types (fieldTypeId source))
    else none

/-- The message that an entry becomes. -/
def messageOf (types : List Protocol.typeInfo.Val) (entry : Protocol.typeInfo.Val) :
    DescriptorProto :=
  if typeInfoType entry = fieldTypeMessage then
    { name := generatedMessage (typeInfoId entry)
      field := (typeInfoFields entry).map (fieldOf types) }
  else
    { name := generatedEnum (typeInfoId entry)
      enumType := [describeEnum entry { name := utf8 "Value" }] }

section Tables

variable {types : List Protocol.typeInfo.Val} {tables : TypeTables}

/-- Two entries with one id are one entry. -/
theorem WellNumbered.eq_of_id_eq (h : WellNumbered types) {type type' : Protocol.typeInfo.Val}
    (htype : type ∈ types) (htype' : type' ∈ types) (hid : typeInfoId type = typeInfoId type') :
    type = type' :=
  List.inj_on_of_nodup_map h.ids_nodup htype htype' hid

/-- An id is of a message or of an enumeration. -/
theorem WellNumbered.not_both (h : WellNumbered types) {id : UInt32}
    (henum : HasEntry types id fieldTypeEnum) : ¬ HasEntry types id fieldTypeMessage := by
  rintro ⟨type, htype, hkind, hid⟩
  obtain ⟨type', htype', hkind', hid'⟩ := henum
  obtain rfl := h.eq_of_id_eq htype htype' (hid.trans hid'.symm)
  exact fieldTypeEnum_ne_message (hkind'.symm.trans hkind)

theorem TablesOf.messageNames_some (h : TablesOf types tables) {id : UInt32}
    (hentry : HasEntry types id fieldTypeMessage) :
    tables.messageNames id = some (messageTypeName id) := by
  obtain ⟨type, htype, hkind, rfl⟩ := hentry
  obtain ⟨i, hi⟩ := List.getElem?_of_mem htype
  exact h.messageNames.find hi hkind

theorem TablesOf.messageNames_none (h : TablesOf types tables) {id : UInt32}
    (hentry : ¬ HasEntry types id fieldTypeMessage) : tables.messageNames id = none :=
  Option.not_isSome_iff_eq_none.mp (mt (h.messageNames.isSome_iff id).mp hentry)

theorem TablesOf.enumNames_some (h : TablesOf types tables) {id : UInt32}
    (hentry : HasEntry types id fieldTypeEnum) :
    tables.enumNames id = some (enumTypeName id) := by
  obtain ⟨type, htype, hkind, rfl⟩ := hentry
  obtain ⟨i, hi⟩ := List.getElem?_of_mem htype
  exact h.enumNames.find hi hkind

theorem TablesOf.enumNames_none (h : TablesOf types tables) {id : UInt32}
    (hentry : ¬ HasEntry types id fieldTypeEnum) : tables.enumNames id = none :=
  Option.not_isSome_iff_eq_none.mp (mt (h.enumNames.isSome_iff id).mp hentry)

/-- A field is described as what it becomes, or refused. -/
theorem describeField_spec (quote : Str → Str) (hnumbered : WellNumbered types)
    (htables : TablesOf types tables) (source : Protocol.fieldInfo.Val) :
    (FieldResolves types source ∧
      describeField quote tables source = .ok (fieldOf types source)) ∨
    (¬ FieldResolves types source ∧
      ∃ e, describeField quote tables source = .error e ∧ Reported e) := by
  unfold describeField
  by_cases hrange : FieldTypeInRange (fieldType source)
  · rw [if_neg (not_not.mpr hrange)]
    by_cases hmessage : fieldType source = fieldTypeMessage
    · rw [if_pos hmessage]
      by_cases hentry : HasEntry types (fieldTypeId source) fieldTypeMessage
      · rw [htables.messageNames_some hentry]
        refine .inl ⟨⟨hrange, fun _ => by rwa [hmessage]⟩, ?_⟩
        simp [fieldOf, schemaName, hmessage, hentry]
      · rw [htables.messageNames_none hentry]
        refine .inr ⟨fun h => hentry ?_, _, rfl, _, rfl⟩
        simpa only [hmessage] using h.refers (.inl hmessage)
    · rw [if_neg hmessage]
      by_cases henum : fieldType source = fieldTypeEnum
      · rw [if_pos henum]
        by_cases hentry : HasEntry types (fieldTypeId source) fieldTypeEnum
        · rw [htables.enumNames_some hentry]
          refine .inl ⟨⟨hrange, fun _ => by rwa [henum]⟩, ?_⟩
          simp [fieldOf, schemaName, henum, hnumbered.not_both hentry]
        · rw [htables.enumNames_none hentry]
          refine .inr ⟨fun h => hentry ?_, _, rfl, _, rfl⟩
          simpa only [henum] using h.refers (.inr henum)
      · -- Of a type of its own, with no name.
        rw [if_neg henum]
        refine .inl ⟨⟨hrange, fun h => absurd h (by simp [hmessage, henum])⟩, ?_⟩
        simp [fieldOf, hmessage, henum]
  · rw [if_pos hrange]
    exact .inr ⟨fun h => hrange h.inRange, _, rfl, _, rfl⟩

/-- The fields are described in order, up to the first that is refused. -/
theorem describeFields_spec (quote : Str → Str) (hnumbered : WellNumbered types)
    (htables : TablesOf types tables) :
    ∀ (sources : List Protocol.fieldInfo.Val) (destination : DescriptorProto),
      ((∀ source ∈ sources, FieldResolves types source) ∧
        describeFields quote tables sources destination = .ok { destination with
          field := destination.field ++ sources.map (fieldOf types) }) ∨
      ((¬ ∀ source ∈ sources, FieldResolves types source) ∧
        ∃ e, describeFields quote tables sources destination = .error e ∧ Reported e)
  | [], destination => .inl ⟨nofun, by simp [describeFields]⟩
  | source :: sources, destination => by
    rw [describeFields, List.forall_mem_cons]
    rcases describeField_spec quote hnumbered htables source with
      ⟨hgood, hfield⟩ | ⟨hbad, e, he, htext⟩
    · simp only [hfield, bind, Except.bind, hgood, true_and]
      have hrest := describeFields_spec quote hnumbered htables sources
        { destination with field := destination.field ++ [fieldOf types source] }
      simpa [List.append_assoc] using hrest
    · simp only [he, bind, Except.bind]
      exact .inr ⟨fun h => hbad h.1, e, rfl, htext⟩

end Tables

/-- The value that a discovered one becomes. -/
def valueOf (source : Protocol.enumValueInfo.Val) : EnumValueDescriptorProto :=
  ⟨enumValueName source, enumValueNumber source⟩

/-- The loop over the values of an enumeration puts each of them in. -/
theorem describeEnumValues_fst :
    ∀ (sources : List Protocol.enumValueInfo.Val) (destination : EnumDescriptorProto)
      (numbers : List Int32) (hasAlias : Bool),
      (describeEnumValues sources destination numbers hasAlias).1 =
        { destination with value := destination.value ++ sources.map valueOf }
  | [], destination, numbers, hasAlias => by simp [describeEnumValues]
  | source :: sources, destination, numbers, hasAlias => by
    rw [describeEnumValues, describeEnumValues_fst sources]
    simp [valueOf]

/-- It finds out whether a number came twice. -/
theorem describeEnumValues_snd :
    ∀ (sources : List Protocol.enumValueInfo.Val) (destination : EnumDescriptorProto)
      (numbers : List Int32) (hasAlias : Bool),
      (describeEnumValues sources destination numbers hasAlias).2 = true ↔
        hasAlias = true ∨ ¬ ((sources.map enumValueNumber).Nodup ∧
          ∀ number ∈ sources.map enumValueNumber, number ∉ numbers)
  | [], destination, numbers, hasAlias => by simp [describeEnumValues]
  | source :: sources, destination, numbers, hasAlias => by
    rw [describeEnumValues, describeEnumValues_snd sources, List.map_cons, List.nodup_cons,
      List.forall_mem_cons, Bool.or_eq_true, decide_eq_true_eq]
    generalize sources.map enumValueNumber = rest
    generalize enumValueNumber source = number
    -- The numbers that follow must differ from this one too.
    have hrest : (∀ n ∈ rest, n ∉ number :: numbers) ↔
        number ∉ rest ∧ ∀ n ∈ rest, n ∉ numbers := by
      simp only [List.mem_cons, not_or]
      constructor
      · intro h
        exact ⟨fun hmem => (h number hmem).1 rfl, fun n hn => (h n hn).2⟩
      · rintro ⟨hnew, hnot⟩ n hn
        exact ⟨fun heq => hnew (heq ▸ hn), hnot n hn⟩
    rw [hrest]
    tauto

/-- The enumeration of an entry, from an empty one. -/
theorem describeEnum_value (entry : Protocol.typeInfo.Val) (name : Str) :
    (describeEnum entry { name }).name = name ∧
      (describeEnum entry { name }).value = (typeInfoEnumValues entry).map valueOf ∧
      ((describeEnum entry { name }).allowAlias = true ↔
        ¬ ((typeInfoEnumValues entry).map enumValueNumber).Nodup) := by
  have hfst := describeEnumValues_fst (typeInfoEnumValues entry) { name } [] false
  have hsnd := describeEnumValues_snd (typeInfoEnumValues entry) { name } [] false
  simp only [Bool.false_eq_true, List.not_mem_nil, not_false_eq_true, implies_true, and_true,
    false_or] at hsnd
  simp only [describeEnum, ← hsnd, hfst]
  split <;> simp_all

/-- A change of an element between others. -/
theorem mutate_middle {β : Type} (before after : List β) (elem : β)
    (change : β → Except SchemaFailure β) :
    mutate (before ++ elem :: after) before.length change =
      (change elem).map fun elem' => before ++ elem' :: after := by
  have hget : (before ++ elem :: after)[before.length]? = some elem := by simp
  rw [mutate, hget]
  dsimp only
  cases change elem with
  | error e => rfl
  | ok elem' =>
    show Except.ok ((before ++ elem :: after).set before.length elem') = _
    rw [List.set_append_right _ _ (Nat.le_refl _), Nat.sub_self]
    rfl

/-- The file while the second pass is at some entry. -/
def fileAt (types done rest : List Protocol.typeInfo.Val) : FileDescriptorProto :=
  fileOf (done.map (messageOf types) ++ rest.map skeleton)

theorem FieldsResolve.of_append {types done rest : List Protocol.typeInfo.Val}
    (h : FieldsResolve types (done ++ rest)) : FieldsResolve types done :=
  fun type htype => h type (List.mem_append_left _ htype)

/-- One entry more. -/
theorem fieldsResolve_concat {types done : List Protocol.typeInfo.Val}
    {type : Protocol.typeInfo.Val} (h : FieldsResolve types done) :
    FieldsResolve types (done ++ [type]) ↔ (typeInfoType type = fieldTypeMessage →
      ∀ field ∈ typeInfoFields type, FieldResolves types field) := by
  constructor
  · intro hall
    exact hall type (List.mem_append_right _ List.mem_cons_self)
  · intro hlast t ht
    rcases List.mem_append.mp ht with ht | ht
    · exact h t ht
    · rwa [List.mem_singleton.mp ht]

section Describe

variable {types done rest : List Protocol.typeInfo.Val} {tables : TypeTables}
  {type : Protocol.typeInfo.Val}

/-- An enumeration's entry is filled in. -/
theorem describeType_enum (quote : Str → Str) (htables : TablesOf types tables)
    (hall : done ++ type :: rest = types) (henum : typeInfoType type = fieldTypeEnum) :
    describeType quote tables (fileAt types done (type :: rest)) type =
      .ok (fileAt types (done ++ [type]) rest) := by
  have hmessage : ¬ typeInfoType type = fieldTypeMessage :=
    fun h => fieldTypeEnum_ne_message (henum.symm.trans h)
  have hget : types[done.length]? = some type := by simp [← hall]
  have hindex : tables.enumContainerIndexes (typeInfoId type) = some done.length :=
    htables.enumContainerIndexes.find hget henum
  have hlength : done.length = (done.map (messageOf types)).length := by simp
  rw [describeType, if_pos henum, mapAt, hindex]
  simp only [bind, Except.bind, fileAt, fileOf, List.map_cons]
  rw [hlength, mutate_middle]
  simp [skeleton, hmessage, mutate, messageOf, Except.map, bind, Except.bind, pure, Except.pure]

/-- A message's entry is filled in, or a field of it is refused. -/
theorem describeType_message (quote : Str → Str) (hnumbered : WellNumbered types)
    (htables : TablesOf types tables) (hall : done ++ type :: rest = types)
    (hmessage : typeInfoType type = fieldTypeMessage) :
    ((∀ field ∈ typeInfoFields type, FieldResolves types field) ∧
      describeType quote tables (fileAt types done (type :: rest)) type =
        .ok (fileAt types (done ++ [type]) rest)) ∨
    ((¬ ∀ field ∈ typeInfoFields type, FieldResolves types field) ∧
      ∃ e, describeType quote tables (fileAt types done (type :: rest)) type = .error e ∧
        Reported e) := by
  have hnot : ¬ typeInfoType type = fieldTypeEnum :=
    fun h => fieldTypeEnum_ne_message (h.symm.trans hmessage)
  have hget : types[done.length]? = some type := by simp [← hall]
  have hindex : tables.messageIndexes (typeInfoId type) = some done.length :=
    htables.messageIndexes.find hget hmessage
  have hlength : done.length = (done.map (messageOf types)).length := by simp
  rw [describeType, if_neg hnot, mapAt, hindex]
  simp only [bind, Except.bind, fileAt, fileOf, List.map_cons]
  rw [hlength, mutate_middle]
  rcases describeFields_spec quote hnumbered htables (typeInfoFields type) (skeleton type) with
    ⟨hgood, hfields⟩ | ⟨hbad, e, he, htext⟩
  · refine .inl ⟨hgood, ?_⟩
    rw [hfields]
    simp [skeleton, hmessage, messageOf, Except.map, pure, Except.pure]
  · refine .inr ⟨hbad, e, ?_, htext⟩
    rw [he]
    rfl

/-- The second pass gets through exactly if the fields resolve, and then every message is
filled in. No index is out of range. -/
theorem describeTypes_spec (quote : Str → Str) (hnumbered : WellNumbered types)
    (htables : TablesOf types tables) :
    (FieldsResolve types types ∧
      types.foldlM (describeType quote tables) tables.file =
        .ok (fileOf (types.map (messageOf types)))) ∨
    (¬ FieldsResolve types types ∧
      ∃ e, types.foldlM (describeType quote tables) tables.file = .error e ∧ Reported e) := by
  have hpass := Keyed.pass_spec (FieldsResolve types)
    (fun done file => FieldsResolve types done ∧
      file = fileAt types done (types.drop done.length))
    Reported (describeType quote tables) types
    (fun _ _ => FieldsResolve.of_append) (fun done type rest hall file hfile => ?_)
    types [] rfl nofun tables.file ⟨nofun, by rw [htables.file]; rfl⟩
  · rcases hpass with ⟨hgood, file, hfile, -, rfl⟩ | hbad
    · refine .inl ⟨hgood, hfile.trans ?_⟩
      simp [fileAt]
    · exact .inr hbad
  · obtain ⟨hdone, rfl⟩ := hfile
    have hrest : types.drop done.length = type :: rest := by simp [← hall]
    have hrest' : types.drop (done ++ [type]).length = rest := by simp [← hall]
    rw [hrest, hrest', fieldsResolve_concat hdone]
    have hmem : type ∈ types := hall ▸ List.mem_append_right _ List.mem_cons_self
    rcases hnumbered.kinds type hmem with hmessage | henum
    · simp only [hmessage, forall_const]
      rcases describeType_message quote hnumbered htables hall hmessage with
        ⟨hgood, hfile⟩ | hbad
      · exact .inl ⟨hgood, _, hfile, hgood, rfl⟩
      · exact .inr hbad
    · -- The fields of an enumeration's entry are not looked at.
      have hgood : typeInfoType type = fieldTypeMessage →
          ∀ field ∈ typeInfoFields type, FieldResolves types field :=
        fun h => absurd (henum.symm.trans h) fieldTypeEnum_ne_message
      exact .inl ⟨hgood, _, describeType_enum quote htables hall henum, hgood, rfl⟩

end Describe

/-! ## The file -/

/-- The file that an accepted reply becomes. -/
def schemaFile (service : Protocol.serviceInfo.Val) (method : Protocol.methodInfo.Val) :
    FileDescriptorProto :=
  { fileOf ((serviceTypes service).map (messageOf (serviceTypes service))) with
    service := [⟨utf8 "Service", [⟨utf8 "Method",
      schemaName (serviceTypes service) (methodRequestType method),
      schemaName (serviceTypes service) (methodResponseType method),
      methodClientStreaming method, methodServerStreaming method⟩]⟩] }

/-- Exactly the acceptable replies become a file, and every other one is reported. -/
theorem methodFile_spec (quote : Str → Str) (service : Protocol.serviceInfo.Val)
    (method : Protocol.methodInfo.Val) :
    (Acceptable service method ∧
      methodFile quote service method = .ok (schemaFile service method)) ∨
    (¬ Acceptable service method ∧
      ∃ e, methodFile quote service method = .error e ∧ Reported e) := by
  unfold methodFile
  split_ifs with hfull
  · refine .inr ⟨fun h => ?_, _, rfl, _, rfl⟩
    rcases hfull with hrequest | hresponse | htypes
    · exact h.request_ne_zero hrequest
    · exact h.response_ne_zero hresponse
    · exact h.types_ne_nil htypes
  · simp only [not_or] at hfull
    obtain ⟨hrequest, hresponse, htypes⟩ := hfull
    rcases registerTypes_spec (serviceTypes service) with
      ⟨hnumbered, tables, hregister, htables⟩ | ⟨hbad, e, he, htext⟩
    · rw [hregister]
      rcases describeTypes_spec quote hnumbered htables with
        ⟨hfields, hdescribe⟩ | ⟨hbad, e, he, htext⟩
      · simp only [bind, Except.bind, hdescribe]
        by_cases hrequestEntry : HasEntry (serviceTypes service) (methodRequestType method)
          fieldTypeMessage
        · rw [htables.messageNames_some hrequestEntry]
          by_cases hresponseEntry : HasEntry (serviceTypes service) (methodResponseType method)
            fieldTypeMessage
          · rw [htables.messageNames_some hresponseEntry]
            refine .inl ⟨⟨hrequest, hresponse, htypes, hnumbered, hfields, hrequestEntry,
              hresponseEntry⟩, ?_⟩
            simp [schemaFile, fileOf, schemaName, hrequestEntry, hresponseEntry,
              TypeTables.start, pure, Except.pure]
          · rw [htables.messageNames_none hresponseEntry]
            exact .inr ⟨fun h => hresponseEntry h.response, _, rfl, _, rfl⟩
        · rw [htables.messageNames_none hrequestEntry]
          exact .inr ⟨fun h => hrequestEntry h.request, _, rfl, _, rfl⟩
      · simp only [bind, Except.bind, he]
        exact .inr ⟨fun h => hbad h.fields, e, rfl, htext⟩
    · simp only [he, bind, Except.bind]
      exact .inr ⟨fun h => hbad h.wellNumbered, e, rfl, htext⟩

end SerialRpc
