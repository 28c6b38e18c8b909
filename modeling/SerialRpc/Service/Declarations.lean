import SerialRpc.Lib.Checks
import SerialRpc.Service.Objects

/-!
# The declarations of a file (serialrpc_objects.cc:225-967)

The constructors and `EchoRoot`'s operations call each other over trees of descriptors. Put
in a row, what they go through is the declarations of the files: a file behind its imports,
each file once, a message behind the enums and messages in it.

- `FileDescriptor.order`: the declarations in that order. `FileDescriptor.reads`: the files.
- `Declaration.Passes`: what a declaration needs of those before it.
  `Declaration.failure`: what is thrown when it has it not. There is a text for each.
- `FileDescriptor.Pooled`: the descriptors are objects of a pool, each declared in one file.
  Then nothing is gone through twice (`FileDescriptor.Pooled.order_fresh`).
-/

namespace SerialRpc.Objects

open Checks

/-! ## The declarations in a row -/

/-- What files declare. -/
inductive Declaration where
  | enum (d : EnumDescriptor)
  | message (d : Descriptor)
  | service (d : ServiceDescriptor)

namespace Declaration

@[simp] def address : Declaration → Nat
  | .enum d => d.address
  | .message d => d.address
  | .service d => d.address

def enum? : Declaration → Option EnumDescriptor
  | .enum d => some d
  | _ => none

def message? : Declaration → Option Descriptor
  | .message d => some d
  | _ => none

def service? : Declaration → Option ServiceDescriptor
  | .service d => some d
  | _ => none

/-- A message is among the messages of declarations if it is declared. -/
theorem mem_message? {ds : List Declaration} {d : Descriptor} :
    d ∈ ds.filterMap message? ↔ .message d ∈ ds := by
  rw [List.mem_filterMap]
  constructor
  · rintro ⟨_ | d' | _, hd', heq⟩ <;> cases heq
    exact hd'
  · exact fun h => ⟨_, h, rfl⟩

/-- An enum is among the enums of declarations if it is declared. -/
theorem mem_enum? {ds : List Declaration} {d : EnumDescriptor} :
    d ∈ ds.filterMap enum? ↔ .enum d ∈ ds := by
  rw [List.mem_filterMap]
  constructor
  · rintro ⟨d' | _ | _, hd', heq⟩ <;> cases heq
    exact hd'
  · exact fun h => ⟨_, h, rfl⟩

/-- A service is among the services of declarations if it is declared. -/
theorem mem_service? {ds : List Declaration} {d : ServiceDescriptor} :
    d ∈ ds.filterMap service? ↔ .service d ∈ ds := by
  rw [List.mem_filterMap]
  constructor
  · rintro ⟨_ | _ | d', hd', heq⟩ <;> cases heq
    exact hd'
  · exact fun h => ⟨_, h, rfl⟩

end Declaration

mutual

/-- A message behind the enums and the messages in it. -/
def Descriptor.declarations : Descriptor → List Declaration
  | ⟨address, name, enumTypes, nestedTypes, fields⟩ =>
    enumTypes.map .enum ++ messageDeclarations nestedTypes ++
      [.message ⟨address, name, enumTypes, nestedTypes, fields⟩]

def messageDeclarations : List Descriptor → List Declaration
  | [] => []
  | d :: ds => d.declarations ++ messageDeclarations ds

end

/-- The declarations of a file. -/
def FileDescriptor.declarations (file : FileDescriptor) : List Declaration :=
  file.enumTypes.map .enum ++ messageDeclarations file.messageTypes ++ file.services.map .service

section Reads

variable (stripProto : Str → Str)

mutual

/-- The files that are read for a file, behind files of some names: none if its own is
among these, else those of its imports and itself. -/
def FileDescriptor.reads : FileDescriptor → List Str → List FileDescriptor
  | ⟨name, dependencies, enumTypes, messageTypes, services⟩, names =>
    if names.any fun read => read = stripProto name then []
    else importReads dependencies names ++
      [⟨name, dependencies, enumTypes, messageTypes, services⟩]

def importReads : List FileDescriptor → List Str → List FileDescriptor
  | [], _ => []
  | d :: ds, names =>
    if d.name ≠ voidFile then
      d.reads names ++
        importReads ds (names ++ (d.reads names).map fun file => stripProto file.name)
    else importReads ds names

end

/-- The declarations that are gone through for a file. -/
def FileDescriptor.order (file : FileDescriptor) : List Declaration :=
  (file.reads stripProto []).flatMap FileDescriptor.declarations

end Reads

/-! ## What a declaration needs -/

/-- A message that is declared. -/
def TypeRef.IsMessage (type : TypeRef) (before : List Declaration) : Prop :=
  ∃ d, .message d ∈ before ∧ d.address = type.address

/-- An enum that is declared. -/
def TypeRef.IsEnum (type : TypeRef) (before : List Declaration) : Prop :=
  ∃ d, .enum d ∈ before ∧ d.address = type.address

/-- A field of a type that there is an object for: a message or an enum from before, or a
scalar other than `sint32` and `sint64`. -/
def FieldDescriptor.Passes (before : List Declaration) (d : FieldDescriptor) : Prop :=
  match d.type with
  | .message type => type.IsMessage before
  | .enum type => type.IsEnum before
  | .group => False
  | .sint32 => False
  | .sint64 => False
  | _ => True

/-- A method has a number, and takes and returns `void` or messages from before. -/
structure MethodDescriptor.Passes (before : List Declaration) (d : MethodDescriptor) : Prop where
  methodId : d.methodId ≠ 0
  inputType : d.inputType.fullName = voidName ∨ d.inputType.IsMessage before
  outputType : d.outputType.fullName = voidName ∨ d.outputType.IsMessage before

/-- A service has a UUID, and its methods pass and have numbers of their own. -/
structure ServiceDescriptor.Passes (before : List Declaration) (d : ServiceDescriptor) : Prop where
  uuid : (uuidStringToBytes d.uuid).isSome
  methods : ∀ method ∈ d.methods, method.Passes before
  methodIds : (d.methods.map MethodDescriptor.methodId).Nodup

def Declaration.Passes (before : List Declaration) : Declaration → Prop
  | .enum _ => True
  | .message d => ∀ field ∈ d.fields, field.Passes before
  | .service d => d.Passes before

/-! ## What is thrown when it has it not -/

def TypeRef.messageFailure (before : List Declaration) (type : TypeRef) : Option GeneratorError :=
  if (before.filterMap Declaration.message?).any fun d => d.address = type.address then none
  else some (.messageNotFound type.name)

def TypeRef.enumFailure (before : List Declaration) (type : TypeRef) : Option GeneratorError :=
  if (before.filterMap Declaration.enum?).any fun d => d.address = type.address then none
  else some (.enumNotFound type.name)

def FieldDescriptor.failure (before : List Declaration) (d : FieldDescriptor) :
    Option GeneratorError :=
  match d.type with
  | .message type => type.messageFailure before
  | .enum type => type.enumFailure before
  | .group => some (.unsupportedFieldType d.name d.type)
  | .sint32 => some (.unsupportedFieldType d.name d.type)
  | .sint64 => some (.unsupportedFieldType d.name d.type)
  | _ => none

/-- `void` needs no declaration. -/
def TypeRef.methodFailure (before : List Declaration) (type : TypeRef) : Option GeneratorError :=
  if type.fullName = voidName then none else type.messageFailure before

/-- What is thrown for a method of a service, behind others. -/
def MethodDescriptor.failure (before : List Declaration) (service : Str)
    (methods : List MethodDescriptor) (d : MethodDescriptor) : Option GeneratorError :=
  if d.methodId = 0 then some (.unspecifiedMethodId service d.name)
  else ((d.inputType.methodFailure before).or (d.outputType.methodFailure before)).or
    ((methods.find? fun previous => previous.methodId = d.methodId).map fun previous =>
      .duplicateMethodId service previous.name d.name d.methodId)

def ServiceDescriptor.failure (before : List Declaration) (d : ServiceDescriptor) :
    Option GeneratorError :=
  if (uuidStringToBytes d.uuid).isNone then some (.invalidServiceUuid d.name d.uuid)
  else firstFailure (fun methods method => method.failure before d.name methods) [] d.methods

def Declaration.failure (before : List Declaration) : Declaration → Option GeneratorError
  | .enum _ => none
  | .message d => d.fields.findSome? fun field => field.failure before
  | .service d => d.failure before

/-! ### A declaration passes exactly if nothing is thrown -/

section Failure

variable {before : List Declaration}

theorem TypeRef.messageFailure_eq_none_iff {type : TypeRef} :
    type.messageFailure before = none ↔ type.IsMessage before := by
  have hany : ((before.filterMap Declaration.message?).any fun d =>
      d.address = type.address) = true ↔ type.IsMessage before := by
    simp only [List.any_eq_true, Declaration.mem_message?, decide_eq_true_eq, IsMessage]
  simp only [messageFailure, ite_eq_left_iff, reduceCtorEq, imp_false, not_not, hany]

theorem TypeRef.enumFailure_eq_none_iff {type : TypeRef} :
    type.enumFailure before = none ↔ type.IsEnum before := by
  have hany : ((before.filterMap Declaration.enum?).any fun d =>
      d.address = type.address) = true ↔ type.IsEnum before := by
    simp only [List.any_eq_true, Declaration.mem_enum?, decide_eq_true_eq, IsEnum]
  simp only [enumFailure, ite_eq_left_iff, reduceCtorEq, imp_false, not_not, hany]

theorem FieldDescriptor.failure_eq_none_iff {d : FieldDescriptor} :
    d.failure before = none ↔ d.Passes before := by
  unfold failure Passes
  cases d.type with
  | message type => exact TypeRef.messageFailure_eq_none_iff
  | enum type => exact TypeRef.enumFailure_eq_none_iff
  | group | sint32 | sint64 => simp
  | _ => exact iff_of_true rfl trivial

theorem TypeRef.methodFailure_eq_none_iff {type : TypeRef} :
    type.methodFailure before = none ↔ type.fullName = voidName ∨ type.IsMessage before := by
  unfold methodFailure
  split
  case isTrue hvoid => exact iff_of_true rfl (.inl hvoid)
  case isFalse hvoid => rw [messageFailure_eq_none_iff, or_iff_right hvoid]

theorem MethodDescriptor.failure_eq_none_iff {service : Str} {methods : List MethodDescriptor}
    {d : MethodDescriptor} : d.failure before service methods = none ↔
      d.Passes before ∧ ∀ previous ∈ methods, previous.methodId ≠ d.methodId := by
  unfold failure
  split
  case isTrue hzero => exact iff_of_false nofun fun h => h.1.methodId hzero
  case isFalse hzero =>
    simp only [Option.or_eq_none_iff, TypeRef.methodFailure_eq_none_iff, Option.map_eq_none_iff,
      List.find?_eq_none, decide_eq_true_eq]
    constructor
    · rintro ⟨⟨hinput, houtput⟩, hmethods⟩
      exact ⟨⟨hzero, hinput, houtput⟩, hmethods⟩
    · rintro ⟨hpasses, hmethods⟩
      exact ⟨⟨hpasses.inputType, hpasses.outputType⟩, hmethods⟩

/-- Numbers are distinct exactly if each is new behind those before it. -/
theorem methodIds_nodup_iff {methods : List MethodDescriptor} :
    (methods.map MethodDescriptor.methodId).Nodup ↔
      ∀ earlier d later, methods = earlier ++ d :: later →
        ∀ previous ∈ earlier, previous.methodId ≠ d.methodId := by
  rw [List.nodup_iff_pairwise_ne, List.pairwise_map]
  constructor
  · rintro h earlier d later rfl previous hprevious
    exact (List.pairwise_append.mp h).2.2 previous hprevious d List.mem_cons_self
  · intro h
    induction methods using List.reverseRecOn with
    | nil => exact .nil
    | append_singleton methods d ih =>
      refine List.pairwise_append.mpr ⟨ih fun earlier d' later hd => ?_,
        List.pairwise_singleton _ _, fun previous hprevious d' hd' => ?_⟩
      · exact h earlier d' (later ++ [d]) (by rw [hd, List.append_assoc, List.cons_append])
      · rw [List.mem_singleton.mp hd']
        exact h methods d [] rfl previous hprevious

theorem ServiceDescriptor.failure_eq_none_iff {d : ServiceDescriptor} :
    d.failure before = none ↔ d.Passes before := by
  unfold failure
  split
  case isTrue huuid =>
    refine iff_of_false nofun fun h => ?_
    rw [Option.isNone_iff_eq_none] at huuid
    exact absurd h.uuid (by simp [huuid])
  case isFalse huuid =>
    rw [← Option.not_isSome, Bool.not_eq_true', Bool.not_eq_false] at huuid
    simp only [firstFailure_eq_none_iff, List.nil_append, MethodDescriptor.failure_eq_none_iff]
    constructor
    · intro h
      refine ⟨huuid, fun method hmethod => ?_, methodIds_nodup_iff.mpr fun earlier d' later hd =>
        (h earlier d' later hd).2⟩
      obtain ⟨earlier, later, hmethods⟩ := List.append_of_mem hmethod
      exact (h earlier method later hmethods).1
    · intro h earlier d' later hd
      exact ⟨h.methods d' (by simp [hd]), methodIds_nodup_iff.mp h.methodIds earlier d' later hd⟩

theorem Declaration.failure_eq_none_iff {d : Declaration} :
    d.failure before = none ↔ d.Passes before := by
  cases d with
  | enum d => exact iff_of_true rfl trivial
  | message d =>
    simp only [failure, Passes, List.findSome?_eq_none_iff, FieldDescriptor.failure_eq_none_iff]
  | service d => exact ServiceDescriptor.failure_eq_none_iff

end Failure

/-! ## What is reported -/

section Text

variable {before : List Declaration} {e : GeneratorError}

theorem TypeRef.messageFailure_text {type : TypeRef} (h : type.messageFailure before = some e) :
    e.text.isSome := by
  unfold messageFailure at h
  split at h <;> cases h
  rfl

theorem TypeRef.enumFailure_text {type : TypeRef} (h : type.enumFailure before = some e) :
    e.text.isSome := by
  unfold enumFailure at h
  split at h <;> cases h
  rfl

theorem FieldDescriptor.failure_text {d : FieldDescriptor} (h : d.failure before = some e) :
    e.text.isSome := by
  unfold failure at h
  cases htype : d.type with
  | message type =>
    rw [htype] at h
    exact TypeRef.messageFailure_text h
  | enum type =>
    rw [htype] at h
    exact TypeRef.enumFailure_text h
  | _ =>
    rw [htype] at h
    cases h <;> rfl

theorem TypeRef.methodFailure_text {type : TypeRef} (h : type.methodFailure before = some e) :
    e.text.isSome := by
  unfold methodFailure at h
  split at h
  · cases h
  · exact messageFailure_text h

theorem MethodDescriptor.failure_text {service : Str} {methods : List MethodDescriptor}
    {d : MethodDescriptor} (h : d.failure before service methods = some e) : e.text.isSome := by
  unfold failure at h
  split at h
  · cases h
    rfl
  · rcases Option.or_eq_some_iff.mp h with h | ⟨-, h⟩
    · rcases Option.or_eq_some_iff.mp h with h | ⟨-, h⟩
      · exact TypeRef.methodFailure_text h
      · exact TypeRef.methodFailure_text h
    · obtain ⟨previous, -, rfl⟩ := Option.map_eq_some_iff.mp h
      rfl

/-- Nothing else is thrown: `Generate` has a text for every failure. -/
theorem Declaration.failure_text {d : Declaration} (h : d.failure before = some e) :
    e.text.isSome := by
  cases d with
  | enum d => cases h
  | message d =>
    obtain ⟨field, -, hfield⟩ := List.exists_of_findSome?_eq_some h
    exact FieldDescriptor.failure_text hfield
  | service d =>
    rw [failure, ServiceDescriptor.failure] at h
    split at h
    · cases h
      show (if d.uuid = [] then _ else _ : Option Str).isSome
      split <;> rfl
    · obtain ⟨earlier, method, later, -, -, hmethod⟩ := firstFailure_eq_some_iff.mp h
      exact MethodDescriptor.failure_text hmethod

end Text

/-! ## Files of a pool -/

/-- Descriptors are objects at different addresses. -/
def Fresh (ds : List Declaration) : Prop := (ds.map Declaration.address).Nodup

/-- What is new together is new by itself. -/
theorem Fresh.left {ds ds' : List Declaration} (h : Fresh (ds ++ ds')) : Fresh ds := by
  rw [Fresh, List.map_append] at h
  exact h.of_append_left

/-- Declarations that are new have addresses of their own. -/
theorem Fresh.ne {ds ds' : List Declaration} (h : Fresh (ds ++ ds')) {d d' : Declaration}
    (hd : d ∈ ds) (hd' : d' ∈ ds') : d.address ≠ d'.address := by
  rw [Fresh, List.map_append] at h
  exact (List.nodup_append.mp h).2.2 _ (List.mem_map_of_mem hd) _ (List.mem_map_of_mem hd')

mutual

/-- A file behind those that it imports, directly or not. -/
def FileDescriptor.files : FileDescriptor → List FileDescriptor
  | ⟨name, dependencies, enumTypes, messageTypes, services⟩ =>
    importFiles dependencies ++ [⟨name, dependencies, enumTypes, messageTypes, services⟩]

def importFiles : List FileDescriptor → List FileDescriptor
  | [] => []
  | d :: ds => d.files ++ importFiles ds

end

/-- What protobuf promises of descriptors: they are objects of their own, and an object is
declared in one file. -/
structure FileDescriptor.Pooled (file : FileDescriptor) : Prop where
  fresh : ∀ g ∈ file.files, Fresh g.declarations
  own : ∀ g ∈ file.files, ∀ g' ∈ file.files, ∀ d ∈ g.declarations, ∀ d' ∈ g'.declarations,
    d.address = d'.address → g = g'

mutual

/-- No file is below itself. -/
theorem sizeOf_files : ∀ {file g : FileDescriptor}, g ∈ file.files → sizeOf g ≤ sizeOf file
  | ⟨name, dependencies, enumTypes, messageTypes, services⟩, g, h => by
    rw [FileDescriptor.files] at h
    rcases List.mem_append.mp h with h | h
    · have hlt := sizeOf_importFiles h
      rw [FileDescriptor.mk.sizeOf_spec]
      omega
    · exact (List.mem_singleton.mp h) ▸ Nat.le_refl _

/-- An imported file is smaller than the list that imports it. -/
theorem sizeOf_importFiles : ∀ {ds : List FileDescriptor} {g : FileDescriptor},
    g ∈ importFiles ds → sizeOf g < sizeOf ds
  | [], _, h => by cases h
  | d :: ds, g, h => by
    rw [importFiles] at h
    rw [List.cons.sizeOf_spec]
    rcases List.mem_append.mp h with h | h
    · have hle := sizeOf_files h
      omega
    · have hlt := sizeOf_importFiles h
      omega

end

section Order

variable {stripProto : Str → Str}

mutual

/-- Only files that there are are read. -/
theorem mem_files_of_reads : ∀ {file g : FileDescriptor} {names : List Str},
    g ∈ file.reads stripProto names → g ∈ file.files
  | ⟨name, dependencies, enumTypes, messageTypes, services⟩, g, names, h => by
    rw [FileDescriptor.reads] at h
    rw [FileDescriptor.files]
    split at h
    · cases h
    · rcases List.mem_append.mp h with h | h
      · exact List.mem_append_left _ (mem_importFiles_of_reads h)
      · exact List.mem_append_right _ h

/-- Only imports are read for imports. -/
theorem mem_importFiles_of_reads : ∀ {ds : List FileDescriptor} {g : FileDescriptor}
    {names : List Str}, g ∈ importReads stripProto ds names → g ∈ importFiles ds
  | [], _, _, h => h
  | d :: ds, g, names, h => by
    rw [importReads] at h
    rw [importFiles]
    split at h
    · rcases List.mem_append.mp h with h | h
      · exact List.mem_append_left _ (mem_files_of_reads h)
      · exact List.mem_append_right _ (mem_importFiles_of_reads h)
    · exact List.mem_append_right _ (mem_importFiles_of_reads h)

end

mutual

/-- What is read has a name that has not been read. -/
theorem reads_new : ∀ {file g : FileDescriptor} {names : List Str},
    g ∈ file.reads stripProto names → stripProto g.name ∉ names
  | ⟨name, dependencies, enumTypes, messageTypes, services⟩, g, names, h => by
    rw [FileDescriptor.reads] at h
    split at h
    case isTrue => cases h
    case isFalse hnew =>
      rcases List.mem_append.mp h with h | h
      · exact importReads_new h
      · obtain rfl := List.mem_singleton.mp h
        exact fun hmem => hnew (List.any_eq_true.mpr ⟨_, hmem, decide_eq_true rfl⟩)

/-- The imports that are read are not among the names read before. -/
theorem importReads_new : ∀ {ds : List FileDescriptor} {g : FileDescriptor} {names : List Str},
    g ∈ importReads stripProto ds names → stripProto g.name ∉ names
  | [], _, _, h => by cases h
  | d :: ds, g, names, h => by
    rw [importReads] at h
    split at h
    · rcases List.mem_append.mp h with h | h
      · exact reads_new h
      · exact fun hmem => importReads_new h (List.mem_append_left _ hmem)
    · exact importReads_new h

end

mutual

/-- A file is read once. -/
theorem reads_nodup : ∀ (file : FileDescriptor) (names : List Str),
    (file.reads stripProto names).Nodup
  | ⟨name, dependencies, enumTypes, messageTypes, services⟩, names => by
    rw [FileDescriptor.reads]
    split
    · exact .nil
    · refine List.nodup_append.mpr ⟨importReads_nodup dependencies names, List.nodup_singleton _,
        fun g hg g' hg' heq => ?_⟩
      have hlt := sizeOf_importFiles (mem_importFiles_of_reads hg)
      rw [heq, List.mem_singleton.mp hg', FileDescriptor.mk.sizeOf_spec] at hlt
      omega

theorem importReads_nodup : ∀ (ds : List FileDescriptor) (names : List Str),
    (importReads stripProto ds names).Nodup
  | [], _ => .nil
  | d :: ds, names => by
    rw [importReads]
    split
    · refine List.nodup_append.mpr ⟨reads_nodup d names, importReads_nodup ds _,
        fun g hg g' hg' heq => ?_⟩
      refine importReads_new hg' (List.mem_append_right _ (List.mem_map.mpr ⟨g, hg, ?_⟩))
      rw [heq]
    · exact importReads_nodup ds names

end

/-- What is gone through for a file are objects of their own. -/
theorem FileDescriptor.Pooled.order_fresh {file : FileDescriptor} (h : file.Pooled) :
    Fresh (file.order stripProto) := by
  rw [Fresh, FileDescriptor.order, List.map_flatMap, List.nodup_flatMap]
  refine ⟨fun g hg => h.fresh g (mem_files_of_reads hg),
    (reads_nodup file []).pairwise_of_forall_ne fun g hg g' hg' hne address haddress haddress' =>
      ?_⟩
  obtain ⟨d, hd, rfl⟩ := List.mem_map.mp haddress
  obtain ⟨d', hd', heq⟩ := List.mem_map.mp haddress'
  exact hne (h.own g (mem_files_of_reads hg) g' (mem_files_of_reads hg') d hd d' hd' heq.symm)

end Order

end SerialRpc.Objects
