import Mathlib.Data.Fin.VecNotation
import SerialRpc.Service.TypeMetadata

/-!
# References in a full discovery reply (server_impl.cc:44-143)

A full reply numbers the entries of each service's type table, and refers to a type by
the number of its entry, which `type_id` finds by comparing addresses.

- `Pool.Resolves`: every reference of the reply is the number of the entry it should be,
  and the table has each type the service's methods reach once.
- `object_typeName`, `object_enumPointer`: which objects the program has. Each source has
  its own objects for the enums that its file's messages use, and no header has a struct
  for a nested message.
- `Pool.builds_iff`: the sources compile if nothing is of a nested message, and each
  service's file has the enums of its table.
- `resolves_iff`: in a program that builds, the references resolve when each reachable
  message with an enum field is of the service's own file. Elsewhere such a field points
  at the other source's object, which is not in the table.
-/

namespace SerialRpc

/-! ## Lookups -/

/-- `mapM` has a result exactly if every element has one, and these are its elements. -/
theorem mapM_eq_some_iff {α β : Type} {f : α → Option β} :
    ∀ {as : List α} {bs : List β},
      as.mapM f = some bs ↔ List.Forall₂ (fun a b => f a = some b) as bs
  | [], bs => by
    rw [List.mapM_nil, List.forall₂_nil_left_iff]
    exact ⟨fun h => (Option.some.inj h).symm, fun h => h ▸ rfl⟩
  | a :: as, bs => by
    rw [List.mapM_cons, List.forall₂_cons_left_iff]
    constructor
    · intro h
      obtain ⟨b, hb, h⟩ := Option.bind_eq_some_iff.mp h
      obtain ⟨bs', hbs', h⟩ := Option.bind_eq_some_iff.mp h
      exact ⟨b, bs', hb, mapM_eq_some_iff.mp hbs', (Option.some.inj h).symm⟩
    · rintro ⟨b, bs', hb, hbs', rfl⟩
      rw [hb, mapM_eq_some_iff.mpr hbs']
      rfl

/-- `mapM` has a result if every element has one. -/
theorem exists_mapM {α β : Type} {f : α → Option β} :
    ∀ {as : List α}, (∀ a ∈ as, ∃ b, f a = some b) → ∃ bs, as.mapM f = some bs
  | [], _ => ⟨[], rfl⟩
  | a :: as, h => by
    obtain ⟨b, hb⟩ := h a List.mem_cons_self
    obtain ⟨bs, hbs⟩ := exists_mapM fun a ha => h a (List.mem_cons_of_mem _ ha)
    refine ⟨b :: bs, ?_⟩
    rw [List.mapM_cons, hb, hbs]
    rfl

/-- A lookup by name, when the entries of one name are all the same. -/
theorem find?_map_snd {α β : Type} [DecidableEq α] {entries : List (α × β)} {a : α} {b : β}
    (hmem : (a, b) ∈ entries) (hsame : ∀ b', (a, b') ∈ entries → b' = b) :
    (entries.find? fun entry => entry.1 = a).map Prod.snd = some b := by
  cases hfind : entries.find? fun entry => entry.1 = a with
  | none =>
    have hnone := List.find?_eq_none.mp hfind (a, b) hmem
    simp at hnone
  | some entry =>
    obtain ⟨a', b'⟩ := entry
    have hname : a' = a := by simpa using List.find?_some hfind
    subst hname
    rw [hsame b' (List.mem_of_find?_eq_some hfind)]
    rfl

theorem forall₂_imp_mem {α β : Type} {R S : α → β → Prop} :
    ∀ {as : List α} {bs : List β}, List.Forall₂ R as bs → (∀ a ∈ as, ∀ b, R a b → S a b) →
      List.Forall₂ S as bs
  | [], _, h, _ => List.forall₂_nil_left_iff.mp h ▸ .nil
  | a :: as, _, h, himp => by
    obtain ⟨b, bs, hab, hrest, rfl⟩ := List.forall₂_cons_left_iff.mp h
    refine .cons (himp a List.mem_cons_self b hab) ?_
    exact forall₂_imp_mem hrest fun a ha => himp a (List.mem_cons_of_mem _ ha)

/-- What two relations say of one element's partner. -/
theorem exists_of_forall₂ {α β : Type} {R S : α → β → Prop} {a : α} :
    ∀ {as : List α} {bs : List β}, List.Forall₂ R as bs → List.Forall₂ S as bs → a ∈ as →
      ∃ b, R a b ∧ S a b
  | _ :: _, _, hR, hS, ha => by
    obtain ⟨b, bs, hRb, hRbs, rfl⟩ := List.forall₂_cons_left_iff.mp hR
    obtain ⟨hSb, hSbs⟩ := List.forall₂_cons.mp hS
    rcases List.mem_cons.mp ha with rfl | ha
    · exact ⟨b, hRb, hSb⟩
    · exact exists_of_forall₂ hRbs hSbs ha

section Objects

variable {k n m : Nat} (pool : Pool k n m)

/-! ## Which symbols are defined -/

/-- The messages of a file's metadata are those that its top-level messages reach. -/
theorem Pool.mem_collectFileTypes_messages {f : Fin k} {i : Fin n} :
    i ∈ (pool.collectFileTypes f).messages ↔
      Walk.Reach pool.successors ((pool.topLevel f).map .inl) (.inl i) := by
  rw [collectFileTypes_eq, Collected.mem_ofNodes_messages, Walk.mem_walk_iff pool.card_lt_depth]

theorem Pool.mem_collectFileTypes_enums {f : Fin k} {e : Fin m} :
    e ∈ (pool.collectFileTypes f).enums ↔
      Walk.Reach pool.successors ((pool.topLevel f).map .inl) (.inr e) := by
  rw [collectFileTypes_eq, Collected.mem_ofNodes_enums, Walk.mem_walk_iff pool.card_lt_depth]

/-- A message that is not nested is reached in its own file. -/
theorem Pool.reach_topLevel {i : Fin n} (h : (pool.messages i).containing = []) :
    Walk.Reach pool.successors ((pool.topLevel (pool.messages i).file).map .inl) (.inl i) := by
  refine .root (List.mem_map_of_mem ?_)
  simp [topLevel, h]

/-- What the sources define: the enums each collects, and the messages of its own. -/
theorem Pool.mem_definitions {symbol : Symbol} {object : TypeObject} :
    (symbol, object) ∈ (List.finRange k).flatMap pool.definitions ↔
      (∃ f, ∃ e ∈ (pool.collectFileTypes f).enums,
        symbol = pool.enumPointer f e ∧ object = pool.enumObject e) ∨
      (∃ i ∈ (pool.collectFileTypes (pool.messages i).file).messages, ¬ pool.IsVoid i ∧
        symbol = (pool.messages i).typeName pool.files ∧ object = pool.messageObject i) := by
  simp only [List.mem_flatMap, List.mem_finRange, true_and, definitions, List.mem_append,
    List.mem_map, List.mem_filter, decide_eq_true_eq, Prod.mk.injEq]
  constructor
  · rintro ⟨f, ⟨e, he, rfl, rfl⟩ | ⟨i, ⟨hi, hvoid, rfl⟩, rfl, rfl⟩⟩
    · exact .inl ⟨f, e, he, rfl, rfl⟩
    · exact .inr ⟨i, hi, hvoid, rfl, rfl⟩
  · rintro (⟨f, e, he, rfl, rfl⟩ | ⟨i, hi, hvoid, rfl, rfl⟩)
    · exact ⟨f, .inl ⟨e, he, rfl, rfl⟩⟩
    · exact ⟨_, .inr ⟨i, ⟨hi, hvoid, rfl⟩, rfl, rfl⟩⟩

/-- What the headers declare: the same enums, and the messages that have a struct. -/
theorem Pool.mem_declarations {symbol : Symbol} :
    symbol ∈ (List.finRange k).flatMap pool.declarations ↔
      (∃ f, ∃ e ∈ (pool.collectFileTypes f).enums, symbol = pool.enumPointer f e) ∨
      (∃ i, ¬ pool.IsVoid i ∧ (pool.messages i).containing = [] ∧
        symbol = (pool.messages i).typeName pool.files) := by
  simp only [List.mem_flatMap, List.mem_finRange, true_and, declarations, List.mem_append,
    List.mem_map, List.mem_filter, topLevel, decide_eq_true_eq]
  constructor
  · rintro ⟨f, ⟨e, he, rfl⟩ | ⟨i, ⟨⟨-, htop⟩, hvoid⟩, rfl⟩⟩
    · exact .inl ⟨f, e, he, rfl⟩
    · exact .inr ⟨i, hvoid, htop, rfl⟩
  · rintro (⟨f, e, he, rfl⟩ | ⟨i, hvoid, htop, rfl⟩)
    · exact ⟨f, .inl ⟨e, he, rfl⟩⟩
    · exact ⟨_, .inr ⟨i, ⟨⟨rfl, htop⟩, hvoid⟩, rfl⟩⟩

theorem Pool.typeName_injective {i j : Fin n}
    (h : (pool.messages i).typeName pool.files = (pool.messages j).typeName pool.files) :
    i = j :=
  pool.messageName_injective (Descriptor.fullName_eq_of_typeName h)

theorem Pool.enumPointer_injective {f f' : Fin k} {e e' : Fin m}
    (h : pool.enumPointer f e = pool.enumPointer f' e') : f = f' ∧ e = e' := by
  obtain ⟨hfile, henum⟩ := FileDescriptor.enumSymbol_injective (pool.fileName_graphic f)
    (pool.fileName_graphic f') (pool.enumName_graphic e) (pool.enumName_graphic e') h
  exact ⟨pool.fileName_injective hfile, pool.enumName_injective henum⟩

/-- A message's `Info` is declared exactly when it has a struct. -/
theorem Pool.declared_typeName {i : Fin n} (hvoid : ¬ pool.IsVoid i) :
    pool.declared ((pool.messages i).typeName pool.files) = true ↔
      (pool.messages i).containing = [] := by
  show (((List.finRange k).flatMap pool.declarations).any fun declared =>
    declared = (pool.messages i).typeName pool.files) = true ↔ _
  simp only [List.any_eq_true, decide_eq_true_eq, exists_eq_right, pool.mem_declarations]
  constructor
  · rintro (⟨f, e, -, hname⟩ | ⟨j, -, htop, hname⟩)
    · exact absurd hname Symbol.noConfusion
    · exact pool.typeName_injective hname ▸ htop
  · exact fun htop => .inr ⟨i, hvoid, htop, rfl⟩

/-- An enum's object is declared in the headers of the files that collect it. -/
theorem Pool.declared_enumPointer (f : Fin k) (e : Fin m) :
    pool.declared (pool.enumPointer f e) = true ↔ e ∈ (pool.collectFileTypes f).enums := by
  show (((List.finRange k).flatMap pool.declarations).any fun declared =>
    declared = pool.enumPointer f e) = true ↔ _
  simp only [List.any_eq_true, decide_eq_true_eq, exists_eq_right, pool.mem_declarations]
  constructor
  · rintro (⟨f', e', he', hname⟩ | ⟨j, -, -, hname⟩)
    · obtain ⟨rfl, rfl⟩ := pool.enumPointer_injective hname
      exact he'
    · exact absurd hname Symbol.noConfusion
  · exact fun he => .inl ⟨f, e, he, rfl⟩

/-- A message has an `Info` exactly when it has a struct. -/
theorem Pool.object_typeName {i : Fin n} (hvoid : ¬ pool.IsVoid i) :
    pool.object ((pool.messages i).typeName pool.files) =
      if (pool.messages i).containing = [] then some (pool.messageObject i) else none := by
  show (if pool.declared ((pool.messages i).typeName pool.files) then
    (((List.finRange k).flatMap pool.definitions).find? fun entry =>
      entry.1 = (pool.messages i).typeName pool.files).map Prod.snd else none) = _
  refine ite_congr (propext (pool.declared_typeName hvoid)) (fun htop => ?_) fun _ => rfl
  have hmem := pool.mem_collectFileTypes_messages.mpr (pool.reach_topLevel htop)
  refine find?_map_snd (pool.mem_definitions.mpr (.inr ⟨i, hmem, hvoid, rfl, rfl⟩)) ?_
  intro object hobject
  rcases pool.mem_definitions.mp hobject with ⟨f, e, -, hname, -⟩ | ⟨j, -, -, hname, hobject⟩
  · exact absurd hname Symbol.noConfusion
  · obtain rfl := pool.typeName_injective hname
    exact hobject

/-- A source defines the enums that it collects. -/
theorem Pool.object_enumPointer (f : Fin k) (e : Fin m) :
    pool.object (pool.enumPointer f e) =
      if e ∈ (pool.collectFileTypes f).enums then some (pool.enumObject e) else none := by
  show (if pool.declared (pool.enumPointer f e) then
    (((List.finRange k).flatMap pool.definitions).find? fun entry =>
      entry.1 = pool.enumPointer f e).map Prod.snd else none) = _
  refine ite_congr (propext (pool.declared_enumPointer f e)) (fun hmem => ?_) fun _ => rfl
  refine find?_map_snd (pool.mem_definitions.mpr (.inl ⟨f, e, hmem, rfl, rfl⟩)) ?_
  intro object hobject
  rcases pool.mem_definitions.mp hobject with ⟨f', e', -, hname, hobject⟩ | ⟨i, -, -, hname, -⟩
  · obtain ⟨rfl, rfl⟩ := pool.enumPointer_injective hname
    exact hobject
  · exact absurd hname Symbol.noConfusion

/-! ## The objects a service's table points at -/

/-- The object of a type, as the source generated for a file names it. -/
def Pool.nodePointer (f : Fin k) : Node n m → Symbol
  | .inl i => pool.messageTypePointer i
  | .inr e => pool.enumPointer f e

/-- A service's table has a pointer for each type that it reaches. -/
theorem Pool.tableSymbols_eq (s : ServiceDescriptor k n) :
    pool.tableSymbols s = (pool.table s).map (pool.nodePointer s.file) := by
  simp only [tableSymbols, table, List.map_append, List.map_map]
  rfl

/-- A field points at what is made of its type. -/
theorem Pool.typePointer_eq {f : Fin k} {type : FieldType n m} {node : Node n m}
    (h : node ∈ type.nodes) : pool.typePointer f type = pool.nodePointer f node := by
  cases type with
  | scalar => exact absurd h List.not_mem_nil
  | message i =>
    obtain rfl := List.mem_singleton.mp h
    rfl
  | enum e =>
    obtain rfl := List.mem_singleton.mp h
    rfl

theorem Pool.messageTypePointer_injective {i j : Fin n}
    (h : pool.messageTypePointer i = pool.messageTypePointer j) : i = j := by
  unfold messageTypePointer at h
  split at h <;> split at h
  case isTrue.isTrue hi hj =>
    exact pool.messageName_injective (hi.1.trans hj.1.symm)
  case isTrue.isFalse =>
    exact absurd h Symbol.noConfusion
  case isFalse.isTrue =>
    exact absurd h Symbol.noConfusion
  case isFalse.isFalse =>
    exact pool.typeName_injective h

/-- No object is that of a message and of an enum. -/
theorem Pool.messageTypePointer_ne_enumPointer (i : Fin n) (f : Fin k) (e : Fin m) :
    pool.messageTypePointer i ≠ pool.enumPointer f e := by
  unfold messageTypePointer
  split
  · exact Symbol.noConfusion
  · exact Symbol.noConfusion

theorem Pool.nodePointer_injective (f : Fin k) : Function.Injective (pool.nodePointer f) := by
  rintro (i | e) (j | e') h
  · rw [pool.messageTypePointer_injective h]
  · exact absurd h (pool.messageTypePointer_ne_enumPointer i f e')
  · exact absurd h.symm (pool.messageTypePointer_ne_enumPointer j f e)
  · rw [(pool.enumPointer_injective h).2]

/-- What the object of a type says. -/
def Pool.nodeObject : Node n m → TypeObject
  | .inl i => if pool.IsVoid i then { kind := .message, name := voidName } else pool.messageObject i
  | .inr e => pool.enumObject e

/-- A message that is not nested has its object. -/
theorem Pool.object_message {i : Fin n}
    (h : pool.IsVoid i ∨ (pool.messages i).containing = []) :
    pool.object (pool.messageTypePointer i) = some (pool.nodeObject (.inl i)) := by
  unfold messageTypePointer nodeObject
  by_cases hvoid : pool.IsVoid i
  · simp only [if_pos hvoid]
    rfl
  · have htop := h.resolve_left hvoid
    simp only [if_neg hvoid, pool.object_typeName hvoid, if_pos htop]

/-- A message whose object exists is `void` or has a struct. -/
theorem Pool.containing_of_object {i : Fin n} {object : TypeObject}
    (h : pool.object (pool.messageTypePointer i) = some object) :
    pool.IsVoid i ∨ (pool.messages i).containing = [] := by
  by_cases hvoid : pool.IsVoid i
  · exact .inl hvoid
  · rw [messageTypePointer, if_neg hvoid, pool.object_typeName hvoid] at h
    by_cases htop : (pool.messages i).containing = []
    · exact .inr htop
    · simp [if_neg htop] at h

/-- The objects that exist are the ones of their types. -/
theorem Pool.object_nodePointer {f : Fin k} {node : Node n m} {object : TypeObject}
    (h : pool.object (pool.nodePointer f node) = some object) : object = pool.nodeObject node := by
  cases node with
  | inl i =>
    have hobject := pool.object_message (pool.containing_of_object h)
    exact Option.some.inj (h.symm.trans hobject)
  | inr e =>
    have hobject := pool.object_enumPointer f e
    split at hobject
    · exact Option.some.inj (h.symm.trans hobject)
    · simpa using h.symm.trans hobject

/-! ## What `type_id` finds -/

variable {pool}
variable (layout : Layout pool)

/-- A pointer is the address of an object, with its kind. -/
theorem Layout.pointer_eq_some {symbol : Symbol} {p : TypePtr}
    (h : layout.pointer symbol = some p) :
    ∃ object, pool.object symbol = some object ∧ p = ⟨layout.address symbol, object.kind⟩ := by
  obtain ⟨object, hobject, rfl⟩ := Option.map_eq_some_iff.mp h
  exact ⟨object, hobject, rfl⟩

/-- A `TypeInfo` is an object, with the pointers of its fields. -/
theorem Layout.typeInfo_eq_some {symbol : Symbol} {type : TypeInfo}
    (h : layout.typeInfo symbol = some type) :
    ∃ object fields, pool.object symbol = some object ∧
      object.fields.mapM layout.fieldInfo = some fields ∧
      type = ⟨layout.address symbol, object.kind, object.name, fields, object.enumValues⟩ := by
  obtain ⟨object, hobject, h⟩ := Option.bind_eq_some_iff.mp h
  obtain ⟨fields, hfields, h⟩ := Option.bind_eq_some_iff.mp h
  exact ⟨object, fields, hobject, hfields, (Option.some.inj h).symm⟩

/-- An entry at a pointer's address is the entry of the pointer's symbol. -/
theorem Layout.symbol_eq {symbol symbol' : Symbol} {type : TypeInfo} {p : TypePtr}
    (htype : layout.typeInfo symbol = some type) (hp : layout.pointer symbol' = some p) :
    type.address = p.address ↔ symbol = symbol' := by
  obtain ⟨object, fields, hobject, -, rfl⟩ := layout.typeInfo_eq_some htype
  obtain ⟨object', hobject', rfl⟩ := layout.pointer_eq_some hp
  constructor
  · exact layout.address_injective symbol symbol' (by rw [hobject]; rfl) (by rw [hobject']; rfl)
  · rintro rfl
    rfl

variable {symbols : List Symbol} {types : List TypeInfo}
variable (htypes : List.Forall₂ (fun symbol type => layout.typeInfo symbol = some type)
  symbols types)

include htypes

theorem Layout.typeInfo_getElem {i : Nat} (hi : i < symbols.length) (hi' : i < types.length) :
    layout.typeInfo symbols[i] = some types[i] :=
  (List.forall₂_iff_get.mp htypes).2 i hi hi'

/-- `type_id` finds an object of the table at its place. -/
theorem Layout.typeId_eq (hnodup : symbols.Nodup) {i : Nat} {symbol : Symbol} {p : TypePtr}
    (hi : symbols[i]? = some symbol) (hp : layout.pointer symbol = some p) :
    typeId types p = UInt32.ofNat (i + 1) := by
  have hlength := htypes.length_eq
  obtain ⟨hlt, hsymbol⟩ := List.getElem?_eq_some_iff.mp hi
  have hfind : (types.findIdx? fun t => t.address = p.address) = some i := by
    rw [List.findIdx?_eq_some_iff_getElem]
    refine ⟨hlength ▸ hlt, ?_, fun j hj => ?_⟩
    · have hinfo := layout.typeInfo_getElem htypes hlt (hlength ▸ hlt)
      rw [decide_eq_true_eq, layout.symbol_eq hinfo hp]
      exact hsymbol
    · have hlt' : j < symbols.length := hj.trans hlt
      have hinfo := layout.typeInfo_getElem htypes hlt' (hlength ▸ hlt')
      rw [decide_eq_true_eq, layout.symbol_eq hinfo hp]
      intro hsame
      have hindex := hnodup.getElem_inj_iff.mp (hsame.trans hsymbol.symm)
      omega
  rw [typeId, hfind]

/-- What `type_id` finds is in the table. -/
theorem Layout.mem_of_typeId {symbol : Symbol} {p : TypePtr} (hp : layout.pointer symbol = some p)
    (h : typeId types p ≠ 0) : symbol ∈ symbols := by
  have hlength := htypes.length_eq
  unfold typeId at h
  split at h
  case h_1 i hfind =>
    obtain ⟨hlt, haddress, -⟩ := List.findIdx?_eq_some_iff_getElem.mp hfind
    have hlt' : i < symbols.length := hlength ▸ hlt
    have hinfo := layout.typeInfo_getElem htypes hlt' hlt
    rw [decide_eq_true_eq, layout.symbol_eq hinfo hp] at haddress
    rw [← haddress]
    exact List.get_mem symbols ⟨i, hlt'⟩
  case h_2 =>
    exact absurd rfl h

omit htypes

/-! ## The reply -/

/-- The kind a field is listed with. -/
def FieldType.kind : FieldType n m → TypeKind
  | .scalar kind => kind
  | .message _ => .message
  | .enum _ => .enum

/-- A field of an entry says what the descriptor says. -/
def FieldDescriptor.Describes (field : FieldDescriptor n m) (info : FieldInfo) : Prop :=
  info.name = field.name ∧ info.number = field.number ∧ info.type.kind = field.type.kind ∧
    info.repeated = field.repeated

variable (pool)

/-- An entry says of a type what its descriptor says. -/
def Pool.Describes : Node n m → TypeInfo → Prop
  | .inl i, type => type.kind = .message ∧ type.name = pool.fullName i ∧
      List.Forall₂ FieldDescriptor.Describes (pool.fields i) type.fields ∧ type.enumValues = []
  | .inr e, type => type.kind = .enum ∧ type.name = (pool.enums e).fullName ∧
      type.fields = [] ∧ type.enumValues = (pool.enums e).values

/-- A nonzero number, and that of a type's entry. Entries are numbered from one. -/
def Refers (table : List (Node n m)) (id : UInt32) (node : Node n m) : Prop :=
  ∃ i, table[i]? = some node ∧ id = UInt32.ofNat (i + 1) ∧ id ≠ 0

/-- The fields of an entry refer to the entries of the types they are of. -/
def Pool.FieldsRefer (table : List (Node n m)) (types : List TypeInfo) :
    Node n m → TypeInfo → Prop
  | .inl i, type =>
    List.Forall₂ (fun field info => ∀ node ∈ field.type.nodes,
      Refers table (Protocol.fieldTypeId (info.value types)) node) (pool.fields i) type.fields
  | .inr _, _ => True

/-- A full reply lists the types of `table`, which are those the methods reach, once each,
and its references are to them. -/
structure Pool.Resolves (s : ServiceDescriptor k n) (desc : ServiceDescription)
    (table : List (Node n m)) : Prop where
  nodup : table.Nodup
  reachable : ∀ node, node ∈ table ↔ pool.Reachable s node
  entries : List.Forall₂ pool.Describes table desc.types
  methods : List.Forall₂
    (fun method info =>
      Refers table (Protocol.methodRequestType (info.value desc.types true)) (.inl method.input) ∧
      Refers table (Protocol.methodResponseType (info.value desc.types true))
        (.inl method.output))
    s.methods desc.methods
  fields : List.Forall₂ (pool.FieldsRefer table desc.types) table desc.types

/-- No reachable message is nested in another, and those with an enum field are of the
service's own file. -/
structure Pool.Resolvable (s : ServiceDescriptor k n) : Prop where
  top : ∀ i, pool.Reachable s (.inl i) →
    pool.IsVoid i ∨ (pool.messages i).containing = []
  home : ∀ i e, pool.Reachable s (.inl i) → .inr e ∈ pool.successors (.inl i) →
    (pool.messages i).file = s.file

/-- No message that has a struct has a field of a nested message, no method names one, and
each enum that a service reaches is used by the messages of its own file. -/
structure Pool.Buildable (services : List (ServiceDescriptor k n)) : Prop where
  fields : ∀ i, (pool.messages i).containing = [] → ∀ j, .inl j ∈ pool.successors (.inl i) →
    (pool.messages j).containing = []
  methods : ∀ s ∈ services, ∀ i, .inl i ∈ (s.roots : List (Node n m)) →
    (pool.messages i).containing = []
  enums : ∀ s ∈ services, ∀ e, pool.Reachable s (.inr e) →
    Walk.Reach pool.successors ((pool.topLevel s.file).map .inl) (.inr e)

/-! ## When the sources compile -/

/-- `void` is in no other message, and in no package. -/
theorem Pool.IsVoid.containing {i : Fin n} (h : pool.IsVoid i) :
    (pool.messages i).containing = [] := by
  have hname : pool.fullName i = voidName := h.1
  have hdot : (46 : UInt8) ∉ voidName := by decide
  cases hcontaining : (pool.messages i).containing with
  | nil => rfl
  | cons outer inner =>
    have hpath : (46 : UInt8) ∈ [46].intercalate (outer :: inner ++ [(pool.messages i).name]) := by
      cases inner <;> simp [List.intercalate]
    rw [fullName, Descriptor.fullName, hcontaining] at hname
    split at hname
    · exact absurd (hname ▸ hpath) hdot
    · exact absurd (hname ▸ List.mem_append_right _ hpath) hdot

/-- Whether the object of a type is declared where a source names it. -/
theorem Pool.declared_message (i : Fin n) :
    pool.declared (pool.messageTypePointer i) = true ↔ (pool.messages i).containing = [] := by
  unfold messageTypePointer
  split
  case isTrue hvoid => exact iff_of_true rfl hvoid.containing
  case isFalse hvoid => exact pool.declared_typeName hvoid

/-- A source names the objects of its enums, those of its own messages with the types of their
fields, and the tables of its services. -/
theorem Pool.mem_mentions {services : List (ServiceDescriptor k n)} {f : Fin k} {symbol : Symbol} :
    symbol ∈ pool.mentions services f ↔
      (∃ e ∈ (pool.collectFileTypes f).enums, symbol = pool.enumPointer f e) ∨
      (∃ i ∈ (pool.collectFileTypes f).messages, ¬ pool.IsVoid i ∧ (pool.messages i).file = f ∧
        (symbol = (pool.messages i).typeName pool.files ∨
          ∃ field ∈ pool.fields i, symbol = pool.typePointer f field.type)) ∨
      ∃ s ∈ services, s.file = f ∧ ∃ node, pool.Reachable s node ∧
        symbol = pool.nodePointer f node := by
  simp only [mentions, List.mem_append, List.mem_flatMap, List.mem_filter, decide_eq_true_eq,
    tableSymbols_eq, List.mem_map, mem_table_iff, ← or_assoc]
  refine or_congr ?definitions ?tables
  case tables =>
    constructor
    · rintro ⟨s, ⟨hs, rfl⟩, node, hnode, rfl⟩
      exact ⟨s, hs, rfl, node, hnode, rfl⟩
    · rintro ⟨s, hs, rfl, node, hnode, rfl⟩
      exact ⟨s, ⟨hs, rfl⟩, node, hnode, rfl⟩
  case definitions =>
    simp only [definitions, List.mem_append, List.mem_map, List.mem_filter, decide_eq_true_eq]
    constructor
    · rintro ⟨entry, ⟨e, he, rfl⟩ | ⟨i, ⟨hi, hvoid, hfile⟩, rfl⟩, h⟩
      · exact .inl ⟨e, he, List.mem_singleton.mp h⟩
      · refine .inr ⟨i, hi, hvoid, hfile, (List.mem_cons.mp h).imp id fun h => ?_⟩
        obtain ⟨object, hobject, rfl⟩ := List.mem_map.mp h
        obtain ⟨field, hfield, rfl⟩ := List.mem_map.mp hobject
        exact ⟨field, hfield, by rw [hfile]⟩
    · rintro (⟨e, he, rfl⟩ | ⟨i, hi, hvoid, rfl, h⟩)
      · exact ⟨_, .inl ⟨e, he, rfl⟩, List.mem_cons_self⟩
      · refine ⟨_, .inr ⟨i, ⟨hi, hvoid, rfl⟩, rfl⟩, List.mem_cons.mpr (h.imp id ?_)⟩
        rintro ⟨field, hfield, rfl⟩
        exact List.mem_map.mpr ⟨_, List.mem_map_of_mem hfield, rfl⟩

/-- What is reached from messages that have a struct has one. -/
theorem Pool.Buildable.containing {services : List (ServiceDescriptor k n)}
    (h : pool.Buildable services) {roots : List (Node n m)}
    (hroots : ∀ i, .inl i ∈ roots → (pool.messages i).containing = []) {i : Fin n}
    (hi : Walk.Reach pool.successors roots (.inl i)) : (pool.messages i).containing = [] := by
  have htop : ∀ node : Node n m, Walk.Reach pool.successors roots node →
      node.elim (fun i => (pool.messages i).containing = []) fun _ => True := by
    refine fun node hnode =>
      hnode.mem_of_closed (fun node hnode => ?_) fun node hnode next hnext => ?_
    · cases node with
      | inl i => exact hroots i hnode
      | inr e => trivial
    · cases node with
      | inr e => exact absurd hnext List.not_mem_nil
      | inl i =>
        cases next with
        | inl j => exact h.fields i hnode j hnext
        | inr e => trivial
  exact htop _ hi

/-- Where nothing that is used is nested, all that is named is declared. -/
theorem Pool.Buildable.builds {services : List (ServiceDescriptor k n)}
    (h : pool.Buildable services) : pool.Builds services := by
  intro f symbol hsymbol
  have htop : ∀ i, (.inl i : Node n m) ∈ (pool.topLevel f).map .inl →
      (pool.messages i).containing = [] := by
    intro i hi
    obtain ⟨j, hj, heq⟩ := List.mem_map.mp hi
    obtain rfl := Sum.inl_injective heq
    exact (of_decide_eq_true (List.mem_filter.mp hj).2).2
  rcases pool.mem_mentions.mp hsymbol with ⟨e, he, rfl⟩ | ⟨i, hi, hvoid, -, hname⟩ |
    ⟨s, hs, rfl, node, hnode, rfl⟩
  · exact (pool.declared_enumPointer f e).mpr he
  · have hreach := pool.mem_collectFileTypes_messages.mp hi
    rcases hname with rfl | ⟨field, hfield, rfl⟩
    · exact (pool.declared_typeName hvoid).mpr (h.containing pool htop hreach)
    · cases htype : field.type with
      | scalar kind => rfl
      | message j =>
        have hmem : .inl j ∈ pool.successors (.inl i) :=
          List.mem_flatMap.mpr ⟨field, hfield, by simp [htype, FieldType.nodes]⟩
        exact (pool.declared_message j).mpr (h.containing pool htop (hreach.step hmem))
      | enum e =>
        have hmem : .inr e ∈ pool.successors (.inl i) :=
          List.mem_flatMap.mpr ⟨field, hfield, by simp [htype, FieldType.nodes]⟩
        exact (pool.declared_enumPointer f e).mpr
          (pool.mem_collectFileTypes_enums.mpr (hreach.step hmem))
  · cases node with
    | inl i => exact (pool.declared_message i).mpr (h.containing pool (h.methods s hs) hnode)
    | inr e =>
      exact (pool.declared_enumPointer s.file e).mpr
        (pool.mem_collectFileTypes_enums.mpr (h.enums s hs e hnode))

/-- The sources compile exactly if nothing that is used is nested, and each service's file has
the enums of its table. -/
theorem Pool.builds_iff (services : List (ServiceDescriptor k n)) :
    pool.Builds services ↔ pool.Buildable services := by
  refine ⟨fun h => ?_, fun h => h.builds⟩
  have htable : ∀ s ∈ services, ∀ node, pool.Reachable s node →
      pool.declared (pool.nodePointer s.file node) = true := fun s hs node hnode =>
    h s.file _ (pool.mem_mentions.mpr (.inr (.inr ⟨s, hs, rfl, node, hnode, rfl⟩)))
  refine ⟨fun i htop j hj => ?fields, fun s hs i hi => ?methods, fun s hs e he => ?enums⟩
  case methods => exact (pool.declared_message i).mp (htable s hs _ (.root hi))
  case enums =>
    exact pool.mem_collectFileTypes_enums.mp
      ((pool.declared_enumPointer s.file e).mp (htable s hs _ he))
  case fields =>
    obtain ⟨field, hfield, hnode⟩ := List.mem_flatMap.mp hj
    have hvoid : ¬ pool.IsVoid i := fun hvoid => by
      have hnone : pool.fields i = [] := pool.void_fields i hvoid
      simp [hnone] at hfield
    have hcollected := pool.mem_collectFileTypes_messages.mpr (pool.reach_topLevel htop)
    have hdeclared := h _ _ (pool.mem_mentions.mpr
      (.inr (.inl ⟨i, hcollected, hvoid, rfl, .inr ⟨field, hfield, rfl⟩⟩)))
    rw [pool.typePointer_eq hnode] at hdeclared
    exact (pool.declared_message j).mp hdeclared

variable {pool}

/-! ## Entries describe their types -/

/-- The object that a field points at is of the kind of its type. -/
theorem Pool.kind_of_object {f : Fin k} {type : FieldType n m} {object : TypeObject}
    (h : pool.object (pool.typePointer f type) = some object) : object.kind = type.kind := by
  cases type with
  | scalar kind =>
    obtain rfl := Option.some.inj h
    rfl
  | message i =>
    have hnode : pool.object (pool.nodePointer f (.inl i)) = some object := h
    obtain rfl := pool.object_nodePointer hnode
    simp only [nodeObject]
    split <;> rfl
  | enum e =>
    have hnode : pool.object (pool.nodePointer f (.inr e)) = some object := h
    obtain rfl := pool.object_nodePointer hnode
    rfl

/-- A field as it is printed, linked. -/
theorem Layout.fieldInfo_eq_some {f : Fin k} {field : FieldDescriptor n m} {info : FieldInfo}
    (h : layout.fieldInfo ⟨field.name, field.number, pool.typePointer f field.type,
      field.repeated⟩ = some info) :
    field.Describes info ∧ layout.pointer (pool.typePointer f field.type) = some info.type := by
  obtain ⟨p, hp, rfl⟩ := Option.map_eq_some_iff.mp h
  obtain ⟨object, hobject, rfl⟩ := layout.pointer_eq_some hp
  exact ⟨⟨rfl, rfl, Pool.kind_of_object hobject, rfl⟩, hp⟩

/-- The fields of an entry, in the order of the descriptor's. -/
theorem Layout.fields_of_typeInfo {f : Fin k} {i : Fin n} {type : TypeInfo}
    (h : layout.typeInfo (pool.nodePointer f (.inl i)) = some type) :
    List.Forall₂
      (fun field info => field.Describes info ∧
        layout.pointer (pool.typePointer (pool.messages i).file field.type) = some info.type)
      (pool.fields i) type.fields := by
  obtain ⟨object, fields, hobject, hfields, rfl⟩ := layout.typeInfo_eq_some h
  obtain rfl := pool.object_nodePointer hobject
  simp only [Pool.nodeObject] at hfields
  split at hfields
  case isTrue hvoid =>
    -- `void` has no fields, nor has its object.
    have hnone : pool.fields i = [] := pool.void_fields i hvoid
    obtain rfl := List.forall₂_nil_left_iff.mp (mapM_eq_some_iff.mp hfields)
    rw [hnone]
    exact .nil
  case isFalse =>
    have hinfos := List.forall₂_map_left_iff.mp (mapM_eq_some_iff.mp hfields)
    exact hinfos.imp fun field info hinfo => layout.fieldInfo_eq_some hinfo

/-- What is made of a type describes it. -/
theorem Layout.describes {f : Fin k} {node : Node n m} {type : TypeInfo}
    (h : layout.typeInfo (pool.nodePointer f node) = some type) : pool.Describes node type := by
  cases node with
  | inl i =>
    have hfields := layout.fields_of_typeInfo h
    obtain ⟨object, fields, hobject, -, rfl⟩ := layout.typeInfo_eq_some h
    obtain rfl := pool.object_nodePointer hobject
    have hinfos := hfields.imp fun field info hinfo => hinfo.1
    simp only [Pool.nodeObject]
    split
    case isTrue hvoid => exact ⟨rfl, hvoid.1.symm, hinfos, rfl⟩
    case isFalse => exact ⟨rfl, rfl, hinfos, rfl⟩
  | inr e =>
    obtain ⟨object, fields, hobject, hfields, rfl⟩ := layout.typeInfo_eq_some h
    obtain rfl := pool.object_nodePointer hobject
    obtain rfl := List.forall₂_nil_left_iff.mp (mapM_eq_some_iff.mp hfields)
    exact ⟨rfl, rfl, rfl, rfl⟩

/-- An entry describes one type. -/
theorem Pool.describes_unique {node node' : Node n m} {type : TypeInfo}
    (h : pool.Describes node type) (h' : pool.Describes node' type) : node = node' := by
  cases node with
  | inl i =>
    cases node' with
    | inl j => rw [pool.messageName_injective (h.2.1.symm.trans h'.2.1)]
    | inr e => exact absurd (h.1.symm.trans h'.1) (by decide)
  | inr e =>
    cases node' with
    | inl j => exact absurd (h.1.symm.trans h'.1) (by decide)
    | inr e' => rw [pool.enumName_injective (h.2.1.symm.trans h'.2.1)]

/-! ## References of a reply -/

variable {layout}

/-- A service is described by the objects of its table and the pointers of its methods. -/
theorem Layout.describe_eq_some {s : ServiceDescriptor k n} {desc : ServiceDescription}
    (h : layout.describe s = some desc) :
    List.Forall₂ (fun symbol type => layout.typeInfo symbol = some type) (pool.tableSymbols s)
        desc.types ∧
      List.Forall₂ (fun method info => layout.methodInfo method = some info) s.methods
        desc.methods := by
  obtain ⟨types, htypes, h⟩ := Option.bind_eq_some_iff.mp h
  obtain ⟨methods, hmethods, h⟩ := Option.bind_eq_some_iff.mp h
  obtain rfl := Option.some.inj h
  exact ⟨mapM_eq_some_iff.mp htypes, mapM_eq_some_iff.mp hmethods⟩

/-- The entries are those of the types collected, in order. -/
theorem Layout.entries_of_describe {s : ServiceDescriptor k n} {desc : ServiceDescription}
    (h : layout.describe s = some desc) :
    List.Forall₂ (fun node type => layout.typeInfo (pool.nodePointer s.file node) = some type)
      (pool.table s) desc.types := by
  have htypes := (Layout.describe_eq_some h).1
  rw [Pool.tableSymbols_eq] at htypes
  exact List.forall₂_map_left_iff.mp htypes

theorem Pool.tableSymbols_nodup (s : ServiceDescriptor k n) : (pool.tableSymbols s).Nodup := by
  rw [tableSymbols_eq]
  exact (pool.table_nodup s).map (pool.nodePointer_injective s.file)

/-- `type_id` of a type that the service reaches. -/
theorem Layout.refers {s : ServiceDescriptor k n} {desc : ServiceDescription}
    (hdesc : layout.describe s = some desc) {node : Node n m} (hreach : pool.Reachable s node)
    {p : TypePtr} (hp : layout.pointer (pool.nodePointer s.file node) = some p) :
    Refers (pool.table s) (typeId desc.types p) node := by
  obtain ⟨i, hi⟩ := List.getElem?_of_mem (pool.mem_table_iff.mpr hreach)
  have hsymbol : (pool.tableSymbols s)[i]? = some (pool.nodePointer s.file node) := by
    rw [Pool.tableSymbols_eq, List.getElem?_map, hi]
    rfl
  have hid := layout.typeId_eq (describe_eq_some hdesc).1 (Pool.tableSymbols_nodup s) hsymbol hp
  refine ⟨i, hi, hid, ?_⟩
  -- Numbers do not wrap: the table is no longer than there are types.
  obtain ⟨hlt, -⟩ := List.getElem?_eq_some_iff.mp hi
  have hle := (pool.table_nodup s).length_le_card
  rw [Fintype.card_sum, Fintype.card_fin, Fintype.card_fin] at hle
  have hcount : n + m < UInt32.size := pool.count_lt
  rw [hid, Ne, ← UInt32.toNat_inj, UInt32.toNat_ofNat_of_lt' (by omega)]
  exact Nat.succ_ne_zero i

/-- A field of a message or enum type is listed with the `type_id` of that type. -/
theorem fieldTypeId_eq {field : FieldDescriptor n m} {info : FieldInfo} {types : List TypeInfo}
    {node : Node n m} (h : field.Describes info) (hnode : node ∈ field.type.nodes) :
    Protocol.fieldTypeId (info.value types) = typeId types info.type := by
  have hkind : info.type.kind = .message ∨ info.type.kind = .enum := by
    rw [h.2.2.1]
    cases htype : field.type with
    | scalar => simp [htype, FieldType.nodes] at hnode
    | message => exact .inl rfl
    | enum => exact .inr rfl
  exact if_pos hkind

/-- A field leads to its type. -/
theorem Pool.mem_successors {i : Fin n} {field : FieldDescriptor n m} {node : Node n m}
    (hfield : field ∈ pool.fields i) (hnode : node ∈ field.type.nodes) :
    node ∈ pool.successors (.inl i) :=
  List.mem_flatMap.mpr ⟨field, hfield, hnode⟩

/-- If messages with enum fields are of the service's file, every reference resolves. -/
theorem Layout.resolves {s : ServiceDescriptor k n} {desc : ServiceDescription}
    (hdesc : layout.describe s = some desc)
    (hhome : ∀ i e, pool.Reachable s (.inl i) → .inr e ∈ pool.successors (.inl i) →
      (pool.messages i).file = s.file) :
    pool.Resolves s desc (pool.table s) where
  nodup := pool.table_nodup s
  reachable := fun _ => pool.mem_table_iff
  entries := (entries_of_describe hdesc).imp fun _ _ htype => layout.describes htype
  methods := by
    refine forall₂_imp_mem (describe_eq_some hdesc).2 fun method hmethod info hinfo => ?_
    obtain ⟨requestType, hrequest, hinfo⟩ := Option.bind_eq_some_iff.mp hinfo
    obtain ⟨responseType, hresponse, hinfo⟩ := Option.bind_eq_some_iff.mp hinfo
    obtain rfl := Option.some.inj hinfo
    have hinput : pool.Reachable s (.inl method.input) :=
      .root (List.mem_flatMap.mpr ⟨method, hmethod, List.mem_cons_self⟩)
    have houtput : pool.Reachable s (.inl method.output) :=
      .root (List.mem_flatMap.mpr ⟨method, hmethod, List.mem_cons_of_mem _ List.mem_cons_self⟩)
    exact ⟨refers hdesc hinput hrequest, refers hdesc houtput hresponse⟩
  fields := by
    refine forall₂_imp_mem (entries_of_describe hdesc) fun node hnode type htype => ?_
    cases node with
    | inr e => trivial
    | inl i =>
      have hreach := pool.mem_table_iff.mp hnode
      refine forall₂_imp_mem (layout.fields_of_typeInfo htype) ?_
      rintro field hfield info ⟨hdescribes, hpointer⟩ target htarget
      have hmem := Pool.mem_successors hfield htarget
      rw [fieldTypeId_eq hdescribes htarget]
      refine refers hdesc (hreach.step hmem) ?_
      rw [pool.typePointer_eq htarget] at hpointer
      -- An enum's pointer is to the object in the file of the message.
      cases target with
      | inl j => exact hpointer
      | inr e => rw [← hhome i e hreach hmem, hpointer]

/-! ## When the reply exists -/

/-- The methods name messages, so an enum is reached through a field. -/
theorem Pool.Reachable.enum {s : ServiceDescriptor k n} {e : Fin m}
    (h : pool.Reachable s (.inr e)) :
    ∃ i, pool.Reachable s (.inl i) ∧ .inr e ∈ pool.successors (.inl i) := by
  obtain ⟨root, hroot, hpath⟩ := h
  rcases Relation.ReflTransGen.cases_tail hpath with heq | ⟨node, hprefix, hedge⟩
  · obtain ⟨method, -, hmem⟩ := List.mem_flatMap.mp hroot
    simp [← heq] at hmem
  · cases node with
    | inl i => exact ⟨i, ⟨root, hroot, hprefix⟩, hedge⟩
    | inr e' => exact absurd hedge List.not_mem_nil

/-- Where the service is resolvable, an enum field points at an object of the table. -/
theorem Pool.Resolvable.object_enum {s : ServiceDescriptor k n} (h : pool.Resolvable s)
    {i : Fin n} {e : Fin m} (hi : pool.Reachable s (.inl i))
    (he : .inr e ∈ pool.successors (.inl i)) :
    pool.object (pool.enumPointer (pool.messages i).file e) = some (pool.enumObject e) := by
  have htop : (pool.messages i).containing = [] := by
    refine (h.top i hi).resolve_left fun hvoid => ?_
    have hnone : pool.fields i = [] := pool.void_fields i hvoid
    simp [successors, hnone] at he
  have hmem := pool.mem_collectFileTypes_enums.mpr ((pool.reach_topLevel htop).step he)
  rw [object_enumPointer, if_pos hmem]

/-- Everything that is reached has an object in the file of the service. -/
theorem Pool.Resolvable.object_node {s : ServiceDescriptor k n} (h : pool.Resolvable s)
    {node : Node n m} (hnode : pool.Reachable s node) :
    pool.object (pool.nodePointer s.file node) = some (pool.nodeObject node) := by
  cases node with
  | inl i => exact pool.object_message (h.top i hnode)
  | inr e =>
    obtain ⟨i, hi, he⟩ := hnode.enum
    have hobject := h.object_enum hi he
    rw [h.home i e hi he] at hobject
    exact hobject

theorem Layout.exists_pointer {symbol : Symbol} {object : TypeObject}
    (h : pool.object symbol = some object) : ∃ p, layout.pointer symbol = some p :=
  ⟨_, Option.map_eq_some_iff.mpr ⟨object, h, rfl⟩⟩

/-- Every pointer in a reachable type's entry is to an object. -/
theorem Pool.Resolvable.exists_typeInfo {s : ServiceDescriptor k n} (h : pool.Resolvable s)
    {node : Node n m} (hnode : pool.Reachable s node) :
    ∃ type, layout.typeInfo (pool.nodePointer s.file node) = some type := by
  -- Only the fields of a message hold pointers.
  have hfields : ∃ fields, (pool.nodeObject node).fields.mapM layout.fieldInfo = some fields := by
    refine exists_mapM fun object hobject => ?_
    cases node with
    | inr e => exact absurd hobject List.not_mem_nil
    | inl i =>
      simp only [nodeObject] at hobject
      split at hobject
      case isTrue => exact absurd hobject List.not_mem_nil
      case isFalse =>
        obtain ⟨field, hfield, rfl⟩ := List.mem_map.mp hobject
        have hpointer : ∃ p, layout.pointer
            (pool.typePointer (pool.messages i).file field.type) = some p := by
          cases htype : field.type with
          | scalar kind => exact ⟨_, rfl⟩
          | message j =>
            have hmem : .inl j ∈ pool.successors (.inl i) :=
              mem_successors hfield (by simp [htype, FieldType.nodes])
            exact Layout.exists_pointer (pool.object_message (h.top j (hnode.step hmem)))
          | enum e =>
            have hmem : .inr e ∈ pool.successors (.inl i) :=
              mem_successors hfield (by simp [htype, FieldType.nodes])
            exact Layout.exists_pointer (h.object_enum hnode hmem)
        obtain ⟨p, hp⟩ := hpointer
        exact ⟨_, Option.map_eq_some_iff.mpr ⟨p, hp, rfl⟩⟩
  obtain ⟨fields, hfields⟩ := hfields
  simp only [Layout.typeInfo, h.object_node hnode, Option.bind_eq_bind, Option.bind_some, hfields]
  exact ⟨_, rfl⟩

/-- A resolvable service is described. -/
theorem Pool.Resolvable.exists_describe {s : ServiceDescriptor k n} (h : pool.Resolvable s) :
    ∃ desc, layout.describe s = some desc := by
  obtain ⟨types, htypes⟩ : ∃ types, (pool.tableSymbols s).mapM layout.typeInfo = some types := by
    rw [tableSymbols_eq]
    refine exists_mapM fun symbol hsymbol => ?_
    obtain ⟨node, hnode, rfl⟩ := List.mem_map.mp hsymbol
    exact h.exists_typeInfo (pool.mem_table_iff.mp hnode)
  obtain ⟨methods, hmethods⟩ : ∃ methods, s.methods.mapM layout.methodInfo = some methods := by
    refine exists_mapM fun method hmethod => ?_
    have hinput : pool.Reachable s (.inl method.input) :=
      .root (List.mem_flatMap.mpr ⟨method, hmethod, List.mem_cons_self⟩)
    have houtput : pool.Reachable s (.inl method.output) :=
      .root (List.mem_flatMap.mpr ⟨method, hmethod, List.mem_cons_of_mem _ List.mem_cons_self⟩)
    obtain ⟨requestType, hrequest⟩ : ∃ p, layout.pointer (pool.messageTypePointer method.input) =
        some p := Layout.exists_pointer (h.object_node hinput)
    obtain ⟨responseType, hresponse⟩ : ∃ p,
        layout.pointer (pool.messageTypePointer method.output) = some p :=
      Layout.exists_pointer (h.object_node houtput)
    simp only [Layout.methodInfo, hrequest, hresponse, Option.bind_eq_bind, Option.bind_some]
    exact ⟨_, rfl⟩
  simp only [Layout.describe, htypes, hmethods, Option.bind_eq_bind, Option.bind_some]
  exact ⟨_, rfl⟩

/-- What a reply whose references resolve says of its service. -/
theorem Pool.Resolves.resolvable {s : ServiceDescriptor k n} {desc : ServiceDescription}
    {table : List (Node n m)} (h : pool.Resolves s desc table)
    (hdesc : layout.describe s = some desc) : pool.Resolvable s := by
  have hentries := Layout.entries_of_describe hdesc
  have htable : table = pool.table s :=
    List.left_unique_forall₂' (R := pool.Describes)
      (fun _ _ _ => Pool.describes_unique) h.entries
      (hentries.imp fun _ _ htype => layout.describes htype)
  subst htable
  constructor
  case top =>
    intro i hi
    obtain ⟨type, htype, -⟩ := exists_of_forall₂ hentries hentries ((h.reachable _).mpr hi)
    obtain ⟨object, _, hobject, -, -⟩ := layout.typeInfo_eq_some htype
    exact pool.containing_of_object hobject
  case home =>
    intro i e hi he
    obtain ⟨field, hfield, hnode⟩ := List.mem_flatMap.mp he
    obtain ⟨type, htype, hfields⟩ := exists_of_forall₂ hentries h.fields ((h.reachable _).mpr hi)
    obtain ⟨info, ⟨hdescribes, hpointer⟩, hrefers⟩ :=
      exists_of_forall₂ (layout.fields_of_typeInfo htype) hfields hfield
    obtain ⟨_, -, -, hne⟩ := hrefers _ hnode
    rw [fieldTypeId_eq hdescribes hnode] at hne
    -- The field's pointer is to its own source's object, so that object is in the table.
    have hmem := layout.mem_of_typeId (Layout.describe_eq_some hdesc).1 hpointer hne
    rw [pool.typePointer_eq hnode, Pool.tableSymbols_eq] at hmem
    obtain ⟨node, -, hsymbol⟩ := List.mem_map.mp hmem
    cases node with
    | inl j => exact absurd hsymbol (pool.messageTypePointer_ne_enumPointer j _ e)
    | inr e' => exact (pool.enumPointer_injective hsymbol).1.symm

end Objects

/-! ## An enum field of an imported message -/

namespace Sample

/-- `a.proto` with `enum E {}` and `message A { E e = 1; }`, and `b.proto` with
`message B { A a = 1; E e = 2; }`. -/
def importing : Pool 2 2 1 where
  files := ![⟨[97, 46, 112, 114, 111, 116, 111], [97]⟩, ⟨[98, 46, 112, 114, 111, 116, 111], [98]⟩]
  messages := ![⟨0, [], [65], [⟨[101], 1, .enum 0, false⟩]⟩,
    ⟨1, [], [66], [⟨[97], 1, .message 0, false⟩, ⟨[101], 2, .enum 0, false⟩]⟩]
  enums := ![⟨[97, 46, 69], [⟨[90], 0⟩]⟩]
  fileName_injective := by decide
  messageName_injective := by decide
  enumName_injective := by decide
  fileName_graphic := by simp [Fin.forall_fin_two]
  enumName_graphic := by simp
  field_declared := by decide
  void_fields := by decide
  count_lt := by decide

/-- `rpc g(B) returns (A)`, in `b.proto`. -/
def importingService : ServiceDescriptor 2 2 where
  file := 1
  info := ⟨[83], [98], ⟨List.replicate 16 0, rfl⟩, 0, 0, 1⟩
  methods := [⟨[103], 1, 1, 0, false, false⟩]

end Sample

example : ((Layout.inOrder Sample.importing).describe Sample.importingService).map
    (fun desc => desc.types.map fun type => type.fields.map fun field =>
      Protocol.fieldTypeId (field.value desc.types)) = some [[2, 3], [0], []] := by
  decide

end SerialRpc
