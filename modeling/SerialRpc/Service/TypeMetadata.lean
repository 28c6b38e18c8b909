import Mathlib.Data.Fintype.Sum
import Mathlib.Data.List.ModifyLast
import SerialRpc.Lib.Walk
import SerialRpc.Service.Discovery

/-!
# Type metadata in generated code (protoc_serialrpc_plugin.cc:94-322)

For each `.proto` file the generator prints a source of its own, with the `TypeInfo`
objects of the file's messages and of the enums they need, and for each service a
table of pointers to the types its methods reach.

- `Pool`: the descriptors of a set of files. What protobuf promises of them and what
  the generator refuses cannot be built.
- `collectMessageTypes`: the walk over the descriptors, with the names of what it has
  added. It is a depth-first walk of `Lib/Walk.lean` (`collectMessageTypes_eq`), so a
  service's table has each reachable type once (`mem_table_iff`, `table_nodup`).
- `Symbol`, `declarations`, `definitions`: the objects the headers declare and the sources
  define. `Pool.Builds`: the sources name no object that is not declared.
- `Pool.describe`: the metadata of a service, once the linker has given each object a
  place.
-/

namespace SerialRpc

/-! ## Names -/

/-- `absl::ascii_isalnum`. -/
def isAlnum (b : UInt8) : Bool :=
  (48 ≤ b && b ≤ 57) || (65 ≤ b && b ≤ 90) || (97 ≤ b && b ≤ 122)

def hexDigit (d : Nat) : UInt8 := UInt8.ofNat (if d < 10 then 48 + d else 87 + d)

/-- `absl::Hex` of a byte, which does not pad. -/
def hex (b : UInt8) : Str :=
  if b.toNat < 16 then [hexDigit b.toNat]
  else [hexDigit (b.toNat / 16), hexDigit (b.toNat % 16)]

/-- What `FilenameIdentifier` puts in the place of one character. -/
def identifierByte (b : UInt8) : Str := if isAlnum b then [b] else 95 :: hex b

/-- `FilenameIdentifier` (protoc_serialrpc_plugin.cc:27-41). -/
def filenameIdentifier (filename : Str) : Str := filename.flatMap identifierByte

/-- `_type_`. -/
def typeInfix : Str := [95, 116, 121, 112, 101, 95]

/-- `TypeSymbol` (protoc_serialrpc_plugin.cc:133-137). -/
def typeSymbol (metadataPrefix fullName : Str) : Str :=
  metadataPrefix ++ typeInfix ++ filenameIdentifier fullName

theorem hexDigit_injective {d d' : Nat} (hd : d < 16) (hd' : d' < 16)
    (h : hexDigit d = hexDigit d') : d = d' := by
  have hcases : ∀ a < 16, ∀ b < 16, hexDigit a = hexDigit b → a = b := by decide
  exact hcases d hd d' hd' h

/-- No digit is the `t` that `_type_` starts with. -/
theorem hexDigit_ne_t {d : Nat} (hd : d < 16) : hexDigit d ≠ 116 := by
  have hcases : ∀ a < 16, hexDigit a ≠ 116 := by decide
  exact hcases d hd

/-- A byte from 16 on has two digits. -/
theorem hex_of_le {b : UInt8} (hb : 16 ≤ b) :
    hex b = [hexDigit (b.toNat / 16), hexDigit (b.toNat % 16)] := by
  have hle : 16 ≤ b.toNat := UInt8.le_iff_toNat_le.mp hb
  rw [hex, if_neg (by omega)]

theorem toNat_div_lt (b : UInt8) : b.toNat / 16 < 16 := by
  have hlt := b.toNat_lt
  omega

/-- An escape is not an alphanumeric character. -/
theorem ne_of_isAlnum {b : UInt8} (hb : isAlnum b = true) : b ≠ 95 := by
  rintro rfl
  exact absurd hb (by decide)

/-- Where an identifier ends: at the end of a symbol, or before `_type_`. -/
inductive Stops : Str → Prop
  | done : Stops []
  | separator (rest : Str) : Stops (typeInfix ++ rest)

/-- Where an identifier stops, no byte of a name goes on. -/
theorem Stops.ne_identifierByte {b : UInt8} (hb : 16 ≤ b) {x rest : Str} (h : Stops x) :
    x ≠ identifierByte b ++ rest := by
  intro heq
  cases h with
  | done =>
    unfold identifierByte at heq
    split at heq <;> simp at heq
  | separator tail =>
    unfold identifierByte at heq
    split at heq
    case isTrue halnum =>
      obtain ⟨hchar, -⟩ := List.cons.inj heq
      exact ne_of_isAlnum halnum hchar.symm
    case isFalse =>
      rw [hex_of_le hb] at heq
      obtain ⟨-, heq⟩ := List.cons.inj heq
      obtain ⟨hchar, -⟩ := List.cons.inj heq
      exact hexDigit_ne_t (toNat_div_lt b) hchar.symm

theorem identifierByte_injective {b c : UInt8} (hb : 16 ≤ b) (hc : 16 ≤ c) {x y : Str}
    (h : identifierByte b ++ x = identifierByte c ++ y) : b = c ∧ x = y := by
  unfold identifierByte at h
  split at h <;> split at h
  case isTrue.isTrue =>
    exact List.cons.inj h
  case isTrue.isFalse halnum _ =>
    exact absurd (List.cons.inj h).1 (ne_of_isAlnum halnum)
  case isFalse.isTrue _ halnum =>
    exact absurd (List.cons.inj h).1.symm (ne_of_isAlnum halnum)
  case isFalse.isFalse =>
    rw [hex_of_le hb, hex_of_le hc] at h
    obtain ⟨-, h⟩ := List.cons.inj h
    obtain ⟨hhigh, h⟩ := List.cons.inj h
    obtain ⟨hlow, h⟩ := List.cons.inj h
    have hdiv := hexDigit_injective (toNat_div_lt b) (toNat_div_lt c) hhigh
    have hmod := hexDigit_injective (Nat.mod_lt _ (by decide)) (Nat.mod_lt _ (by decide)) hlow
    exact ⟨UInt8.toNat_inj.mp (by omega), h⟩

/-- An identifier can be read back up to where it stops. -/
theorem filenameIdentifier_append_injective :
    ∀ {s t x y : Str}, (∀ b ∈ s, 16 ≤ b) → (∀ b ∈ t, 16 ≤ b) → Stops x → Stops y →
      filenameIdentifier s ++ x = filenameIdentifier t ++ y → s = t ∧ x = y
  | [], [], _, _, _, _, _, _, h => ⟨rfl, h⟩
  | [], c :: t, _, _, _, ht, hx, _, h => by
    simp only [filenameIdentifier, List.flatMap_cons, List.append_assoc] at h
    exact absurd h (hx.ne_identifierByte (ht c List.mem_cons_self))
  | b :: s, [], _, _, hs, _, _, hy, h => by
    simp only [filenameIdentifier, List.flatMap_cons, List.append_assoc] at h
    exact absurd h.symm (hy.ne_identifierByte (hs b List.mem_cons_self))
  | b :: s, c :: t, _, _, hs, ht, hx, hy, h => by
    simp only [filenameIdentifier, List.flatMap_cons, List.append_assoc] at h
    obtain ⟨hbyte, hrest⟩ := identifierByte_injective (hs b List.mem_cons_self)
      (ht c List.mem_cons_self) h
    obtain ⟨hst, hxy⟩ := filenameIdentifier_append_injective
      (fun b hb => hs b (List.mem_cons_of_mem _ hb))
      (fun c hc => ht c (List.mem_cons_of_mem _ hc)) hx hy hrest
    exact ⟨by rw [hbyte, hst], hxy⟩

/-- A symbol names its file and its type. -/
theorem typeSymbol_injective {file file' name name' : Str} (hfile : ∀ b ∈ file, 16 ≤ b)
    (hfile' : ∀ b ∈ file', 16 ≤ b) (hname : ∀ b ∈ name, 16 ≤ b) (hname' : ∀ b ∈ name', 16 ≤ b)
    (h : typeSymbol (filenameIdentifier file) name =
      typeSymbol (filenameIdentifier file') name') : file = file' ∧ name = name' := by
  simp only [typeSymbol, List.append_assoc] at h
  obtain ⟨hfiles, hrest⟩ := filenameIdentifier_append_injective hfile hfile'
    (.separator _) (.separator _) h
  have hid : filenameIdentifier name ++ [] = filenameIdentifier name' ++ [] := by
    simpa using List.append_cancel_left hrest
  exact ⟨hfiles, (filenameIdentifier_append_injective hname hname' .done .done hid).1⟩

/-! ## Descriptors -/

/-- The kinds of a field that is neither a message nor an enum. -/
abbrev ScalarKind :=
  {kind : TypeKind // kind ≠ .unknown ∧ kind ≠ .message ∧ kind ≠ .enum}

/-- `FieldDescriptor::type`, with the type a message or enum field names. -/
inductive FieldType (n m : Nat) where
  | scalar (kind : ScalarKind)
  | message (type : Fin n)
  | enum (type : Fin m)
deriving DecidableEq

/-- `google::protobuf::FieldDescriptor`. -/
structure FieldDescriptor (n m : Nat) where
  name : Str
  number : UInt32
  type : FieldType n m
  repeated : Bool

/-- `google::protobuf::EnumDescriptor`. -/
structure EnumDescriptor where
  fullName : Str
  values : List EnumValueInfo

/-- `google::protobuf::FileDescriptor`. -/
structure FileDescriptor where
  name : Str
  package : Str

/-- `google::protobuf::Descriptor`. The containing types are outermost first. -/
structure Descriptor (k n m : Nat) where
  file : Fin k
  containing : List Str
  name : Str
  fields : List (FieldDescriptor n m)

/-- `Descriptor::full_name`. -/
def Descriptor.fullName {k n m : Nat} (files : Fin k → FileDescriptor) (d : Descriptor k n m) :
    Str :=
  let path := [46].intercalate (d.containing ++ [d.name])
  if (files d.file).package = [] then path else (files d.file).package ++ [46] ++ path

/-- `void`. -/
def voidName : Str := [118, 111, 105, 100]

/-- `serialrpc.proto`. -/
def voidFile : Str := [115, 101, 114, 105, 97, 108, 114, 112, 99, 46, 112, 114, 111, 116, 111]

/-- `IsVoidType` (protoc_serialrpc_plugin.cc:139-144). -/
def Descriptor.IsVoid {k n m : Nat} (files : Fin k → FileDescriptor) (d : Descriptor k n m) :
    Prop :=
  d.fullName files = voidName ∧ (files d.file).name = voidFile

instance {k n m : Nat} (files : Fin k → FileDescriptor) (d : Descriptor k n m) :
    Decidable (d.IsVoid files) :=
  inferInstanceAs (Decidable (_ ∧ _))

/-- A set of `.proto` files and their imports: its messages, each behind those its fields
name, and its enums. -/
structure Pool (k n m : Nat) where
  files : Fin k → FileDescriptor
  messages : Fin n → Descriptor k n m
  enums : Fin m → EnumDescriptor
  fileName_injective : Function.Injective fun f => (files f).name
  messageName_injective : Function.Injective fun i => (messages i).fullName files
  enumName_injective : Function.Injective fun e => (enums e).fullName
  /-- No control character of a one-digit code, the only ones `FilenameIdentifier` can
  confuse with others. -/
  fileName_graphic : ∀ f, ∀ b ∈ (files f).name, 16 ≤ b
  /-- Names are identifiers and dots. -/
  enumName_graphic : ∀ e, ∀ b ∈ (enums e).fullName, 16 ≤ b
  /-- `throw MessageNotFound` (serialrpc_objects.cc:928-935): a message is not among those
  read before its own fields are, and serialrpc.proto is not read. -/
  field_declared : ∀ i, ∀ field ∈ (messages i).fields, ∀ j, field.type = .message j →
    j < i ∧ ¬ (messages j).IsVoid files
  /-- serialrpc.proto is the repository's own. -/
  void_fields : ∀ i, (messages i).IsVoid files → (messages i).fields = []
  /-- The plugin reads all descriptors as one protobuf message, of less than 2³¹ bytes. -/
  count_lt : n + m < 2 ^ 32

/-- `google::protobuf::MethodDescriptor`, with its `method_id`. -/
structure MethodDescriptor (n : Nat) where
  name : Str
  methodId : UInt32
  input : Fin n
  output : Fin n
  clientStreaming : Bool
  serverStreaming : Bool

/-- `google::protobuf::ServiceDescriptor`, with what `T::Info` says of the service. -/
structure ServiceDescriptor (k n : Nat) where
  file : Fin k
  info : ServiceInfo
  methods : List (MethodDescriptor n)

/-- A message or an enum. -/
abbrev Node (n m : Nat) := Fin n ⊕ Fin m

/-- The message or enum a field is of. -/
def FieldType.nodes {n m : Nat} : FieldType n m → List (Node n m)
  | .scalar _ => []
  | .message i => [.inl i]
  | .enum e => [.inr e]

section Collect

variable {k n m : Nat} (pool : Pool k n m)

/-- `full_name`. -/
def Pool.fullName (i : Fin n) : Str := (pool.messages i).fullName pool.files

def Pool.IsVoid (i : Fin n) : Prop := (pool.messages i).IsVoid pool.files

instance (i : Fin n) : Decidable (pool.IsVoid i) :=
  inferInstanceAs (Decidable ((pool.messages i).IsVoid pool.files))

def Pool.fields (i : Fin n) : List (FieldDescriptor n m) := (pool.messages i).fields

/-- The types the fields of a message are of. -/
def Pool.successors : Node n m → List (Node n m)
  | .inl i => (pool.fields i).flatMap fun field => field.type.nodes
  | .inr _ => []

/-- The types the methods of a service name. -/
def ServiceDescriptor.roots (s : ServiceDescriptor k n) : List (Node n m) :=
  s.methods.flatMap fun method => [.inl method.input, .inl method.output]

/-- Reachable from the methods of a service. -/
def Pool.Reachable (s : ServiceDescriptor k n) (node : Node n m) : Prop :=
  Walk.Reach pool.successors s.roots node

/-- `FileDescriptor::message_type`: the messages of a file that no other contains. -/
def Pool.topLevel (f : Fin k) : List (Fin n) :=
  (List.finRange n).filter fun i =>
    (pool.messages i).file = f ∧ (pool.messages i).containing = []

/-! ## The walk -/

/-- The vectors `CollectMessageTypes` fills. `addedMessages` and `addedEnums` are the
names of what is in them. -/
structure Collected (n m : Nat) where
  messages : List (Fin n) := []
  enums : List (Fin m) := []

def Pool.addEnum (e : Fin m) (c : Collected n m) : Collected n m :=
  if (pool.enums e).fullName ∈ c.enums.map (fun e => (pool.enums e).fullName) then c
  else { c with enums := c.enums ++ [e] }

/-- `CollectMessageTypes` (protoc_serialrpc_plugin.cc:94-117), at most `fuel` messages
deep. -/
def Pool.collectMessageTypes : Nat → Fin n → Collected n m → Collected n m
  | 0, _, c => c
  | fuel + 1, message, c =>
    if pool.fullName message ∈ c.messages.map pool.fullName then c
    else
      (pool.fields message).foldl
        (fun c field =>
          match field.type with
          | .scalar _ => c
          | .message i => collectMessageTypes fuel i c
          | .enum e => pool.addEnum e c)
        { c with messages := c.messages ++ [message] }

/-- A walk goes through no message twice. -/
def Pool.depth (_ : Pool k n m) : Nat := n + m + 1

/-- `CollectServiceTypes` (protoc_serialrpc_plugin.cc:119-131). -/
def Pool.collectServiceTypes (s : ServiceDescriptor k n) : Collected n m :=
  s.methods.foldl
    (fun c method =>
      let c := pool.collectMessageTypes pool.depth method.input c
      pool.collectMessageTypes pool.depth method.output c)
    {}

/-- What `GenerateTypeMetadata` collects for a file (protoc_serialrpc_plugin.cc:243-250). -/
def Pool.collectFileTypes (f : Fin k) : Collected n m :=
  (pool.topLevel f).foldl (fun c i => pool.collectMessageTypes pool.depth i c) {}

/-! ## The walk is a depth-first walk over messages and enums -/

/-- The walk has fuel for every type there is. -/
theorem Pool.card_lt_depth : Fintype.card (Node n m) < pool.depth := by
  rw [Fintype.card_sum, Fintype.card_fin, Fintype.card_fin]
  exact Nat.lt_succ_self _

/-- The two vectors, from the nodes in the order they were first seen. -/
def Collected.ofNodes (seen : List (Node n m)) : Collected n m where
  messages := seen.filterMap Sum.getLeft?
  enums := seen.filterMap Sum.getRight?

/-- The messages that have been collected are those that have been seen. -/
theorem Collected.mem_ofNodes_messages {seen : List (Node n m)} {i : Fin n} :
    i ∈ (ofNodes seen).messages ↔ .inl i ∈ seen := by
  simp [ofNodes]

theorem Collected.mem_ofNodes_enums {seen : List (Node n m)} {e : Fin m} :
    e ∈ (ofNodes seen).enums ↔ .inr e ∈ seen := by
  simp [ofNodes]

theorem Collected.ofNodes_message (seen : List (Node n m)) (i : Fin n) :
    ofNodes (seen ++ [.inl i]) =
      { ofNodes seen with messages := (ofNodes seen).messages ++ [i] } := by
  simp [ofNodes]

theorem Collected.ofNodes_enum (seen : List (Node n m)) (e : Fin m) :
    ofNodes (seen ++ [.inr e]) =
      { ofNodes seen with enums := (ofNodes seen).enums ++ [e] } := by
  simp [ofNodes]

/-- The set of names has a message's name when the vector has the message. -/
theorem Pool.added_iff (seen : List (Node n m)) (i : Fin n) :
    pool.fullName i ∈ (Collected.ofNodes seen).messages.map pool.fullName ↔ .inl i ∈ seen :=
  (List.mem_map_of_injective pool.messageName_injective).trans Collected.mem_ofNodes_messages

/-- To collect an enum is to visit it. -/
theorem Pool.addEnum_eq {fuel : Nat} {seen : List (Node n m)} (hnodup : seen.Nodup)
    (hroom : Fintype.card (Node n m) < seen.length + fuel) (e : Fin m) :
    pool.addEnum e (Collected.ofNodes seen) =
      Collected.ofNodes (Walk.visit pool.successors fuel (.inr e) seen) := by
  have hadded : (pool.enums e).fullName ∈
      (Collected.ofNodes seen).enums.map (fun e => (pool.enums e).fullName) ↔
      .inr e ∈ seen :=
    (List.mem_map_of_injective pool.enumName_injective).trans Collected.mem_ofNodes_enums
  cases fuel with
  | zero =>
    have hle := hnodup.length_le_card
    omega
  | succ fuel =>
    rw [addEnum, Walk.visit]
    by_cases hmem : .inr e ∈ seen
    · rw [if_pos (hadded.mpr hmem), if_pos hmem]
    · rw [if_neg (mt hadded.mp hmem), if_neg hmem, ← Collected.ofNodes_enum]
      rfl

/-- The loop over the fields of a message visits the types they are of. -/
theorem Pool.fields_eq {fuel : Nat} {g : Fin n → Collected n m → Collected n m}
    (hg : ∀ i (seen : List (Node n m)), seen.Nodup →
      Fintype.card (Node n m) < seen.length + fuel →
      g i (Collected.ofNodes seen) =
        Collected.ofNodes (Walk.visit pool.successors fuel (.inl i) seen)) :
    ∀ (fields : List (FieldDescriptor n m)) (seen : List (Node n m)), seen.Nodup →
      Fintype.card (Node n m) < seen.length + fuel →
      fields.foldl
          (fun c field =>
            match field.type with
            | .scalar _ => c
            | .message i => g i c
            | .enum e => pool.addEnum e c)
          (Collected.ofNodes seen) =
        Collected.ofNodes (Walk.visitAll pool.successors fuel
          (fields.flatMap fun field => field.type.nodes) seen)
  | [], _, _, _ => rfl
  | ⟨_, _, type, _⟩ :: fields, seen, hnodup, hroom => by
    cases type with
    | scalar => exact fields_eq hg fields seen hnodup hroom
    | message i =>
      -- What the visit of this field has added leaves the fuel large enough.
      have hvisit : Walk.Extends pool.successors [.inl i] seen _ :=
        Walk.visit_extends fuel (.inl i) seen hnodup hroom
      have hrest := fields_eq hg fields _ hvisit.nodup (hvisit.room hroom)
      simp only [List.foldl_cons, hg i seen hnodup hroom]
      exact hrest
    | enum e =>
      have hvisit : Walk.Extends pool.successors [.inr e] seen _ :=
        Walk.visit_extends fuel (.inr e) seen hnodup hroom
      have hrest := fields_eq hg fields _ hvisit.nodup (hvisit.room hroom)
      simp only [List.foldl_cons, pool.addEnum_eq hnodup hroom]
      exact hrest

/-- To collect the types of a message is to visit it. -/
theorem Pool.collectMessageTypes_eq :
    ∀ (fuel : Nat) (i : Fin n) (seen : List (Node n m)), seen.Nodup →
      Fintype.card (Node n m) < seen.length + fuel →
      pool.collectMessageTypes fuel i (Collected.ofNodes seen) =
        Collected.ofNodes (Walk.visit pool.successors fuel (.inl i) seen)
  | 0, _, _, _, _ => rfl
  | fuel + 1, i, seen, hnodup, hroom => by
    rw [collectMessageTypes, Walk.visit]
    by_cases hmem : Sum.inl i ∈ seen
    · rw [if_pos ((pool.added_iff seen i).mpr hmem), if_pos hmem]
    · rw [if_neg (mt (pool.added_iff seen i).mp hmem), if_neg hmem,
        ← Collected.ofNodes_message]
      have hnodup' : (seen ++ [Sum.inl i]).Nodup := by
        refine List.Nodup.append hnodup (List.nodup_singleton _) fun node hnode hi => ?_
        exact hmem (List.mem_singleton.mp hi ▸ hnode)
      have hroom' : Fintype.card (Node n m) < (seen ++ [Sum.inl i]).length + fuel := by
        rw [List.length_append, List.length_singleton]
        omega
      exact pool.fields_eq (collectMessageTypes_eq fuel) (pool.fields i) _ hnodup' hroom'

/-- Several messages' walks, one after the other. -/
theorem Pool.collectAll_eq :
    ∀ (is : List (Fin n)) (seen : List (Node n m)), seen.Nodup →
      Fintype.card (Node n m) < seen.length + pool.depth →
      is.foldl (fun c i => pool.collectMessageTypes pool.depth i c) (Collected.ofNodes seen) =
        Collected.ofNodes (Walk.visitAll pool.successors pool.depth (is.map .inl) seen)
  | [], _, _, _ => rfl
  | i :: is, seen, hnodup, hroom => by
    have hvisit : Walk.Extends pool.successors [.inl i] seen _ :=
      Walk.visit_extends pool.depth (.inl i) seen hnodup hroom
    have hrest := collectAll_eq is _ hvisit.nodup (hvisit.room hroom)
    simp only [List.foldl_cons, pool.collectMessageTypes_eq pool.depth i seen hnodup hroom]
    exact hrest

/-- The types of a file are found by a walk from its top-level messages. -/
theorem Pool.collectFileTypes_eq (f : Fin k) :
    pool.collectFileTypes f = Collected.ofNodes
      (Walk.walk pool.successors pool.depth ((pool.topLevel f).map .inl)) :=
  pool.collectAll_eq (pool.topLevel f) [] List.nodup_nil (by simpa using pool.card_lt_depth)

/-- The types of a service are found by a walk from its parameters and results. -/
theorem Pool.collectServiceTypes_eq (s : ServiceDescriptor k n) :
    pool.collectServiceTypes s =
      Collected.ofNodes (Walk.walk pool.successors pool.depth s.roots) := by
  have hroots : (s.roots : List (Node n m)) =
      (s.methods.flatMap fun method => [method.input, method.output]).map .inl := by
    rw [List.map_flatMap]
    rfl
  have hall := pool.collectAll_eq (s.methods.flatMap fun method => [method.input, method.output])
    [] List.nodup_nil (by simpa using pool.card_lt_depth)
  rw [List.foldl_flatMap] at hall
  rw [hroots, Walk.walk, ← hall]
  rfl

/-- The types in a service's table, in its order. -/
def Pool.table (s : ServiceDescriptor k n) : List (Node n m) :=
  (pool.collectServiceTypes s).messages.map .inl ++ (pool.collectServiceTypes s).enums.map .inr

/-- The table of a service has what the service reaches. -/
theorem Pool.mem_table_iff {s : ServiceDescriptor k n} {node : Node n m} :
    node ∈ pool.table s ↔ pool.Reachable s node := by
  rw [Reachable, ← Walk.mem_walk_iff pool.card_lt_depth, table, collectServiceTypes_eq]
  cases node with
  | inl i => simp [Collected.mem_ofNodes_messages]
  | inr e => simp [Collected.mem_ofNodes_enums]

theorem Pool.table_nodup (s : ServiceDescriptor k n) : (pool.table s).Nodup := by
  have hnodup : (Walk.walk pool.successors pool.depth s.roots).Nodup :=
    Walk.walk_nodup pool.card_lt_depth s.roots
  rw [table, collectServiceTypes_eq]
  refine List.Nodup.append ?_ ?_ ?_
  · refine List.Nodup.map Sum.inl_injective (hnodup.filterMap ?_)
    intro a b i ha hb
    exact (Sum.getLeft?_eq_some_iff.mp ha).trans (Sum.getLeft?_eq_some_iff.mp hb).symm
  · refine List.Nodup.map Sum.inr_injective (hnodup.filterMap ?_)
    intro a b e ha hb
    exact (Sum.getRight?_eq_some_iff.mp ha).trans (Sum.getRight?_eq_some_iff.mp hb).symm
  · intro node hleft hright
    obtain ⟨i, -, rfl⟩ := List.mem_map.mp hleft
    obtain ⟨e, -, heq⟩ := List.mem_map.mp hright
    exact Sum.inr_ne_inl heq

end Collect

/-! ## Symbols -/

/-- The objects generated code and method_info.h:62-77 define. -/
inductive Symbol where
  /-- `serialrpc::TypeInt32` and the like. -/
  | scalar (kind : ScalarKind)
  /-- `serialrpc::TypeVoid`. -/
  | void
  /-- The `Info` of a struct. -/
  | info (namespaces types : List Str)
  /-- An object in the namespace `detail`. -/
  | detail (namespaces : List Str) (name : Str)
deriving DecidableEq

/-- The namespaces of a file's generated code: the parts of its package, and `pb` at the
end of the last. -/
def FileDescriptor.namespaces (f : FileDescriptor) : List Str :=
  (f.package.splitOn 46).modifyLast (· ++ [112, 98])

/-- `MessageTypeName` (protoc_serialrpc_plugin.cc:146-170). -/
def Descriptor.typeName {k n m : Nat} (files : Fin k → FileDescriptor) (d : Descriptor k n m) :
    Symbol :=
  .info (files d.file).namespaces (d.containing ++ [d.name])

/-- `detail::` and the `TypeSymbol` of an enum, in the source generated for a file. -/
def FileDescriptor.enumSymbol (f : FileDescriptor) (e : EnumDescriptor) : Symbol :=
  .detail f.namespaces (typeSymbol (filenameIdentifier f.name) e.fullName)

theorem FileDescriptor.enumSymbol_injective {f f' : FileDescriptor} {e e' : EnumDescriptor}
    (hf : ∀ b ∈ f.name, 16 ≤ b) (hf' : ∀ b ∈ f'.name, 16 ≤ b) (he : ∀ b ∈ e.fullName, 16 ≤ b)
    (he' : ∀ b ∈ e'.fullName, 16 ≤ b) (h : f.enumSymbol e = f'.enumSymbol e') :
    f.name = f'.name ∧ e.fullName = e'.fullName := by
  simp only [enumSymbol, Symbol.detail.injEq] at h
  exact typeSymbol_injective hf hf' he he' h.2

/-- Packages with the same namespaces are the same. -/
theorem FileDescriptor.package_eq_of_namespaces {f f' : FileDescriptor}
    (h : f.namespaces = f'.namespaces) : f.package = f'.package := by
  have hparts : ∀ package : Str, ∃ parts last, package.splitOn 46 = parts ++ [last] := by
    intro package
    have hne : package.splitOn 46 ≠ [] := List.splitOn_ne_nil 46 package
    exact ⟨_, _, (List.dropLast_append_getLast hne).symm⟩
  obtain ⟨parts, last, hf⟩ := hparts f.package
  obtain ⟨parts', last', hf'⟩ := hparts f'.package
  rw [namespaces, namespaces, hf, hf', List.modifyLast_concat, List.modifyLast_concat] at h
  obtain ⟨hinit, hlast⟩ := List.append_inj' h rfl
  have hlast' : last = last' := List.append_cancel_right (List.singleton_injective hlast)
  have hjoin : [46].intercalate (f.package.splitOn 46) = f.package := List.intercalate_splitOn 46
  have hjoin' : [46].intercalate (f'.package.splitOn 46) = f'.package :=
    List.intercalate_splitOn 46
  rw [← hjoin, ← hjoin', hf, hf', hinit, hlast']

/-- Messages with the same C++ name have the same protobuf name. -/
theorem Descriptor.fullName_eq_of_typeName {k n m : Nat} {files : Fin k → FileDescriptor}
    {d d' : Descriptor k n m} (h : d.typeName files = d'.typeName files) :
    d.fullName files = d'.fullName files := by
  simp only [typeName, Symbol.info.injEq] at h
  obtain ⟨hnamespaces, htypes⟩ := h
  simp only [fullName, FileDescriptor.package_eq_of_namespaces hnamespaces, htypes]

/-! ## Generated sources -/

/-- A field of a `TypeInfo` as it is printed. -/
structure FieldObject where
  name : Str
  number : UInt32
  type : Symbol
  repeated : Bool

/-- A `TypeInfo` as it is printed. -/
structure TypeObject where
  kind : TypeKind
  name : Str := []
  fields : List FieldObject := []
  enumValues : List EnumValueInfo := []

section Generate

variable {k n m : Nat} (pool : Pool k n m)

/-- `MessageTypePointer` (protoc_serialrpc_plugin.cc:187-193). -/
def Pool.messageTypePointer (i : Fin n) : Symbol :=
  if pool.IsVoid i then .void else (pool.messages i).typeName pool.files

/-- The enum of a field, as the source generated for a file names it. -/
def Pool.enumPointer (f : Fin k) (e : Fin m) : Symbol :=
  (pool.files f).enumSymbol (pool.enums e)

/-- `TypePointer` (protoc_serialrpc_plugin.cc:195-235). -/
def Pool.typePointer (f : Fin k) : FieldType n m → Symbol
  | .scalar kind => .scalar kind
  | .message i => pool.messageTypePointer i
  | .enum e => pool.enumPointer f e

def Pool.enumObject (e : Fin m) : TypeObject where
  kind := .enum
  name := (pool.enums e).fullName
  enumValues := (pool.enums e).values

def Pool.messageObject (i : Fin n) : TypeObject where
  kind := .message
  name := pool.fullName i
  fields := (pool.fields i).map fun field =>
    { name := field.name
      number := field.number
      type := pool.typePointer (pool.messages i).file field.type
      repeated := field.repeated }

/-- `GenerateTypeMetadata` with `definitions` (protoc_serialrpc_plugin.cc:252-299): what
the source generated for a file defines. -/
def Pool.definitions (f : Fin k) : List (Symbol × TypeObject) :=
  (pool.collectFileTypes f).enums.map (fun e => (pool.enumPointer f e, pool.enumObject e)) ++
    ((pool.collectFileTypes f).messages.filter fun i =>
      ¬ pool.IsVoid i ∧ (pool.messages i).file = f).map
      fun i => ((pool.messages i).typeName pool.files, pool.messageObject i)

/-- What the header generated for a file declares (protoc_serialrpc_plugin.cc:254-261,
1116-1119, 2284-2299). The struct of a message has its `Info`; a nested message has no
struct, as its generator is never run. -/
def Pool.declarations (f : Fin k) : List Symbol :=
  (pool.collectFileTypes f).enums.map (pool.enumPointer f) ++
    ((pool.topLevel f).filter fun i => ¬ pool.IsVoid i).map
      fun i => (pool.messages i).typeName pool.files

/-- Declared in method_info.h or in a header. -/
def Pool.declared : Symbol → Bool
  | .scalar _ | .void => true
  | symbol => ((List.finRange k).flatMap pool.declarations).any fun declared => declared = symbol

/-- The object of a symbol in the program made of all sources. A definition of what is not
declared does not compile. -/
def Pool.object : Symbol → Option TypeObject
  | .scalar kind => some { kind := kind }
  | .void => some { kind := .message, name := voidName }
  | symbol =>
    if pool.declared symbol then
      (((List.finRange k).flatMap pool.definitions).find? fun entry =>
        entry.1 = symbol).map Prod.snd
    else none

/-- The pointers in the `Types` of a service (protoc_serialrpc_plugin.cc:302-318). -/
def Pool.tableSymbols (s : ServiceDescriptor k n) : List Symbol :=
  (pool.collectServiceTypes s).messages.map pool.messageTypePointer ++
    (pool.collectServiceTypes s).enums.map (pool.enumPointer s.file)

/-- The objects that the source generated for a file names, with those of its header. -/
def Pool.mentions (services : List (ServiceDescriptor k n)) (f : Fin k) : List Symbol :=
  ((pool.definitions f).flatMap fun entry => entry.1 :: entry.2.fields.map FieldObject.type) ++
    (services.filter fun s => s.file = f).flatMap pool.tableSymbols

/-- The sources generated for the files and their services compile. -/
def Pool.Builds (services : List (ServiceDescriptor k n)) : Prop :=
  ∀ f, ∀ symbol ∈ pool.mentions services f, pool.declared symbol = true

instance (services : List (ServiceDescriptor k n)) : Decidable (pool.Builds services) :=
  inferInstanceAs (Decidable (∀ f, ∀ symbol ∈ pool.mentions services f, _ = true))

/-! ## The linked program -/

/-- Where the objects of the program are. Different objects have different addresses. -/
structure Layout where
  address : Symbol → Nat
  address_injective : ∀ a b, (pool.object a).isSome → (pool.object b).isSome →
    address a = address b → a = b

/-- The kinds there are. -/
def TypeKind.all : List TypeKind :=
  [.unknown, .double, .float, .int64, .uint64, .int32, .fixed64, .fixed32, .bool, .string,
    .message, .bytes, .uint32, .enum, .sfixed32, .sfixed64, .sint32, .sint64]

/-- Every kind is listed. -/
theorem TypeKind.mem_all (kind : TypeKind) : kind ∈ all := by
  cases kind <;> decide

def scalarKinds : List ScalarKind :=
  TypeKind.all.filterMap fun kind =>
    if h : kind ≠ .unknown ∧ kind ≠ .message ∧ kind ≠ .enum then some ⟨kind, h⟩ else none

theorem mem_scalarKinds (kind : ScalarKind) : kind ∈ scalarKinds :=
  List.mem_filterMap.mpr ⟨kind, TypeKind.mem_all kind, dif_pos kind.property⟩

/-- The symbols of the program: the runtime's, and those of the sources. -/
def Pool.symbols (pool : Pool k n m) : List Symbol :=
  .void :: scalarKinds.map .scalar ++ ((List.finRange k).flatMap pool.definitions).map Prod.fst

/-- Every object has its symbol listed. -/
theorem Pool.mem_symbols {pool : Pool k n m} {symbol : Symbol}
    (h : (pool.object symbol).isSome) : symbol ∈ pool.symbols := by
  have hgenerated : (if pool.declared symbol then
      (((List.finRange k).flatMap pool.definitions).find? fun entry =>
        entry.1 = symbol).map Prod.snd else none).isSome →
      symbol ∈ ((List.finRange k).flatMap pool.definitions).map Prod.fst := by
    intro hsome
    split at hsome
    case isFalse => exact nomatch hsome
    rw [Option.isSome_map, List.find?_isSome] at hsome
    obtain ⟨entry, hmem, hname⟩ := hsome
    exact List.mem_map.mpr ⟨entry, hmem, by simpa using hname⟩
  cases symbol with
  | scalar kind =>
    exact List.mem_append_left _ (List.mem_cons_of_mem _
      (List.mem_map_of_mem (mem_scalarKinds kind)))
  | void => exact List.mem_cons_self
  | info => exact List.mem_append_right _ (hgenerated h)
  | detail => exact List.mem_append_right _ (hgenerated h)

/-- The objects one after the other. -/
def Layout.inOrder (pool : Pool k n m) : Layout pool where
  address symbol := pool.symbols.idxOf symbol
  address_injective _ _ ha _ h := (List.idxOf_inj (Pool.mem_symbols ha)).mp h

variable {pool}
variable (layout : Layout pool)

/-- A pointer to the object of a symbol, if there is one. -/
def Layout.pointer (symbol : Symbol) : Option TypePtr :=
  (pool.object symbol).map fun object => ⟨layout.address symbol, object.kind⟩

def Layout.fieldInfo (field : FieldObject) : Option FieldInfo :=
  (layout.pointer field.type).map fun type =>
    { name := field.name, number := field.number, type := type, repeated := field.repeated }

def Layout.typeInfo (symbol : Symbol) : Option TypeInfo := do
  let object ← pool.object symbol
  let fields ← object.fields.mapM layout.fieldInfo
  return {
    address := layout.address symbol
    kind := object.kind
    name := object.name
    fields := fields
    enumValues := object.enumValues }

/-- An entry of `T::Methods` (protoc_serialrpc_plugin.cc:1789-1800). -/
def Layout.methodInfo (method : MethodDescriptor n) : Option MethodInfo := do
  let requestType ← layout.pointer (pool.messageTypePointer method.input)
  let responseType ← layout.pointer (pool.messageTypePointer method.output)
  return {
    name := method.name
    id := method.methodId
    requestType := requestType
    responseType := responseType
    clientStreaming := method.clientStreaming
    serverStreaming := method.serverStreaming }

/-- The metadata of a service, if the program has every object that its reply reads. -/
def Layout.describe (s : ServiceDescriptor k n) : Option ServiceDescription := do
  let types ← (pool.tableSymbols s).mapM layout.typeInfo
  let methods ← s.methods.mapM layout.methodInfo
  return { info := s.info, methods := methods, types := types }

end Generate

end SerialRpc
