import SerialRpc.Encoding.Marshal
import SerialRpc.Encoding.Protocol

/-!
# The encoder against a plain one

The reference encoder `MessageType.ref` returns bytes and holds nothing back: a
field is nothing or its bytes, a message field is its child's bytes between a
`Start` and an `End` tag, or nothing when the child has none.

The lazy encoder is connected to it by one operation on the marshaller,
`Marshaller.emit bs`: write the pending `Start` tags and then `bs`, but do nothing
at all for no bytes. Emitting twice is emitting the concatenation
(`Marshaller.emit_append`), and pushing a number, emitting and closing again is
emitting the wrapped bytes (`Emits.message`). So every encoder function emits its
reference bytes (`MessageType.marshal_emits`), by induction on the type.
-/

namespace SerialRpc

open ByteStream

/-! ## The reference encoder -/

/-- The default values: what the overloads of `marshal_field` do not write. -/
def StorageType.isDefault : (s : StorageType) → s.Val → Bool
  | .int32, val => decide (val = 0)
  | .int64, val => decide (val = 0)
  | .uint32, val => decide (val = 0)
  | .uint64, val => decide (val = 0)
  | .bool, val => !val
  | .float32, bits => isZero32 bits
  | .float64, bits => isZero64 bits
  | .inlineString _, s => decide (s.data.length = 0)

/-- The wire type of a storage type. -/
def StorageType.wireType : StorageType → WireType
  | .int32 => .varInt
  | .int64 => .varInt
  | .uint32 => .varInt
  | .uint64 => .varInt
  | .bool => .varInt
  | .float32 => .i32
  | .float64 => .i64
  | .inlineString _ => .len

variable (V : Varint)

/-- The payload of a value that is not a default. -/
def StorageType.payload : (s : StorageType) → s.Val → List UInt8
  | .int32, val => V.writeSint32 val
  | .int64, val => V.writeSint64 val
  | .uint32, val => V.writeUint32 val
  | .uint64, val => V.writeUint64 val
  | .bool, _ => [1]
  | .float32, bits => LittleEndian.bytes 4 bits.toNat
  | .float64, bits => LittleEndian.bytes 8 bits.toNat
  | .inlineString _, s => V.writeUnsigned s.data.length ++ s.data

/-- The reference bytes of a scalar field. -/
def StorageType.ref (number : BitVec 32) (s : StorageType) (val : s.Val) : List UInt8 :=
  if s.isDefault val then [] else tagBytes V number s.wireType ++ s.payload V val

/-- A message field's bytes from its child's: between `Start` and `End`, or
nothing. -/
def wrap (number : BitVec 32) (child : List UInt8) : List UInt8 :=
  if child = [] then [] else tagBytes V number .start ++ child ++ [endByte]

mutual

/-- The reference bytes of a field. -/
def FieldKind.ref (number : BitVec 32) : (k : FieldKind) → k.Val → List UInt8
  | .scalar type, val => type.storage.ref V number val
  | .message type, msg => wrap V number (type.ref msg)
  | .repeated type, vec =>
    vec.flatMap fun msg => wrap V number (type.ref msg)

/-- The reference bytes of a message: its fields' in declaration order. -/
def MessageType.ref : (T : MessageType) → T.Val → List UInt8
  | .empty, _ => []
  | .field number kind rest, (val, msg) => kind.ref number val ++ rest.ref msg

end

/-! ## Emitting -/

/-- The `Start` tags of pending field numbers, in order. -/
def startTags (elems : List (BitVec 32)) : List UInt8 :=
  elems.flatMap fun elem => tagBytes V elem .start

/-- Write the pending `Start` tags and then `bs`; do nothing for no bytes. -/
def Marshaller.emit (bs : List UInt8) (m : Marshaller) : Marshaller :=
  if bs = [] then m
  else ⟨m.out.append (startTags V m.stack.elems ++ bs), .empty⟩

/-- With nothing pending, the bytes are all that is written. -/
theorem Marshaller.emit_empty_out (out : Writer Err) (bs : List UInt8) :
    (Marshaller.emit V bs ⟨out, .empty⟩).out = out.append bs := by
  by_cases h : bs = []
  · simp [Marshaller.emit, h]
  · simp [Marshaller.emit, h, startTags]

/-- The marshaller's sink takes what it is given. -/
def Marshaller.Open (m : Marshaller) : Prop := m.out.Open

namespace Marshaller

variable {V} {m : Marshaller}

@[simp] theorem emit_nil : m.emit V [] = m := by
  simp [emit]

/-- The first bytes behind open messages bring their `Start` tags. -/
theorem emit_of_ne_nil {bs : List UInt8} (h : bs ≠ []) :
    m.emit V bs = ⟨m.out.append (startTags V m.stack.elems ++ bs), .empty⟩ := by
  simp [emit, h]

/-- What has been emitted to is still open. -/
theorem Open.emit (h : m.Open) (bs : List UInt8) : (m.emit V bs).Open := by
  unfold Marshaller.emit
  split
  · exact h
  · exact ByteStream.Writer.Open.append h _

/-- Emitting never grows the stack. -/
theorem emit_size_le (bs : List UInt8) :
    (m.emit V bs).stack.elems.length ≤ m.stack.elems.length := by
  unfold Marshaller.emit
  split
  · exact Nat.le_refl _
  · exact Nat.zero_le _

/-- Emitting twice is emitting the concatenation: after the first bytes nothing is
pending. -/
theorem emit_append (as bs : List UInt8) : m.emit V (as ++ bs) = (m.emit V as).emit V bs := by
  by_cases ha : as = []
  · simp [ha]
  by_cases hb : bs = []
  · simp [hb]
  rw [emit_of_ne_nil ha, emit_of_ne_nil hb, emit_of_ne_nil (by simp [ha])]
  simp [startTags]

end Marshaller

/-! ## The scalar overloads emit -/

section Scalars

variable {V} {m : Marshaller}

/-- On an open writer the `Start` tags are all written. -/
theorem writeStartTags_open :
    ∀ (elems : List (BitVec 32)) {out : Writer Err}, out.Open →
      writeStartTags V elems out = out.append (startTags V elems)
  | [], out, _ => by simp [writeStartTags, startTags]
  | elem :: elems, out, h => by
    have ih := writeStartTags_open elems (h.append (tagBytes V elem .start))
    simpa [writeStartTags, writeTag, h.write, h.err, startTags] using ih

theorem writeTags_open (h : m.Open) (number : BitVec 32) (type : WireType) :
    writeTags V number type m =
      ⟨m.out.append (startTags V m.stack.elems ++ tagBytes V number type), .empty⟩ := by
  have hstart := writeStartTags_open (V := V) m.stack.elems h
  simp [writeTags, writeTag, hstart, Writer.Open.err h, Writer.Open.write_append h]

/-- What a scalar overload with the given tag and payload emits. -/
theorem marshalScalar_emit (hV : V.Lawful) (h : m.Open) (number : BitVec 32) (type : WireType)
    (isDefault : Bool) (payload : List UInt8) :
    marshalScalar V number type isDefault payload m =
      m.emit V (if isDefault then [] else tagBytes V number type ++ payload) := by
  cases isDefault with
  | true => simp [marshalScalar]
  | false =>
    have hne : tagBytes V number type ++ payload ≠ [] :=
      List.append_ne_nil_of_left_ne_nil (hV.writeUint32_ne_nil _) _
    simp [marshalScalar, writeTags_open h, Writer.Open.err h, Writer.Open.write_append h,
      Marshaller.emit_of_ne_nil hne]

/-- The string overload makes two writes of what the others write in one. -/
theorem marshalStr_open (h : m.Open) (number : BitVec 32) (s : List UInt8) :
    marshalStr V number s m =
      marshalScalar V number .len (s.length = 0) (V.writeUnsigned s.length ++ s) m := by
  by_cases hs : s.length = 0
  · simp [marshalStr, marshalScalar, hs]
  · simp [marshalStr, marshalScalar, hs, writeTags_open h, Writer.Open.err h,
      Writer.Open.write_append h]

/-- Every overload emits the reference bytes. -/
theorem StorageType.marshalField_emit (hV : V.Lawful) (h : m.Open) (number : BitVec 32)
    (s : StorageType) (val : s.Val) :
    s.marshalField V number val m = m.emit V (s.ref V number val) := by
  cases s with
  | inlineString capacity =>
    rw [StorageType.marshalField, marshalStr_open h]
    exact marshalScalar_emit hV h ..
  | _ => exact marshalScalar_emit hV h ..

end Scalars

/-! ## The templates and the generated encoders emit -/

/-- An encoder call that emits `bytes`, given room on the stack for `levels` more
numbers. -/
def Emits (V : Varint) (marshal : Marshaller → Except Panic Marshaller) (bytes : List UInt8)
    (levels : Nat) : Prop :=
  ∀ m : Marshaller, m.Open → m.stack.elems.length + levels ≤ MaxNesting →
    marshal m = .ok (m.emit V bytes)

section Messages

variable {V} {m : Marshaller}

/-- A stack that is not full takes a number, and `pop` takes it off again. -/
theorem Stack.push_ok {stack : Stack} (h : stack.elems.length < MaxNesting) (e : BitVec 32) :
    ∃ stack', stack.push e = .ok stack' ∧ stack'.elems = stack.elems ++ [e] ∧
      stack'.pop = .ok stack := by
  refine ⟨_, by rw [Stack.push, dif_neg (Nat.ne_of_lt h)], rfl, ?_⟩
  simp [Stack.pop]

/-- A push adds one element. -/
theorem Stack.push_size {stack stack' : Stack} {e : BitVec 32} (h : stack.push e = .ok stack') :
    stack'.elems.length = stack.elems.length + 1 := by
  unfold Stack.push at h
  split at h
  · cases h
  · cases h
    simp

namespace Emits

variable {α : Type} {f g : Marshaller → Except Panic Marshaller} {as bs : List UInt8}
  {levels : Nat}

/-- An encoder call that does nothing. -/
theorem done : Emits V .ok [] levels := by
  intro m _ _
  rw [Marshaller.emit_nil]

theorem mono {levels' : Nat} (h : Emits V f as levels) (hle : levels ≤ levels') :
    Emits V f as levels' :=
  fun m hopen hsize => h m hopen (by omega)

/-- The call for the last field of a message. -/
theorem last (h : Emits V f as levels) : Emits V f (as ++ []) levels := by
  rwa [List.append_nil]

/-- One call after a scalar one. -/
theorem after {scalar : Marshaller → Marshaller}
    (hscalar : ∀ m : Marshaller, m.Open → scalar m = m.emit V as) (h : Emits V g bs levels) :
    Emits V (fun m => g (scalar m)) (as ++ bs) levels := by
  intro m hopen hsize
  have hle := Marshaller.emit_size_le (V := V) (m := m) as
  show g (scalar m) = _
  rw [hscalar m hopen, Marshaller.emit_append]
  exact h _ (hopen.emit as) (by omega)

/-- One call after a scalar one, with the check of the error between them. -/
theorem afterChecked {scalar : Marshaller → Marshaller}
    (hscalar : ∀ m : Marshaller, m.Open → scalar m = m.emit V as) (h : Emits V g bs levels) :
    Emits V (fun m => if (scalar m).out.err.isSome then .ok (scalar m) else g (scalar m))
      (as ++ bs) levels := by
  intro m hopen hsize
  have herr : (scalar m).out.err = none := by
    rw [hscalar m hopen]
    exact (hopen.emit as).err
  simp only [herr, Option.isSome_none, Bool.false_eq_true, if_false]
  exact after hscalar h m hopen hsize

/-- One call after another, with the check of the error between them. -/
theorem andThen (hf : Emits V f as levels) (hg : Emits V g bs levels) :
    Emits V (fun m => do
      let m' ← f m
      if m'.out.err.isSome then return m'
      g m') (as ++ bs) levels := by
  intro m hopen hsize
  have hle := Marshaller.emit_size_le (V := V) (m := m) as
  have hopen' := hopen.emit (V := V) as
  simp only [hf m hopen hsize, bind, Except.bind, hopen'.err, Option.isSome_none,
    Marshaller.emit_append]
  exact hg _ hopen' (by omega)

/-- `marshal_field` of a message whose own encoder emits its bytes emits them
wrapped. -/
theorem message (h : Emits V f as levels) (number : BitVec 32) :
    Emits V (marshalFieldMessage number f) (wrap V number as) (levels + 1) := by
  intro m hopen hsize
  have hdepth : m.stack.elems.length < MaxNesting := by omega
  obtain ⟨stack, hpush, helems, hpop⟩ := Stack.push_ok hdepth number
  have hpushed := Stack.push_size hpush
  have hopen' : Marshaller.Open { m with stack } := hopen
  have hf := h { m with stack } hopen' (by simp only; omega)
  simp only [marshalFieldMessage, hpush, hf, bind, Except.bind, (hopen'.emit as).err,
    Option.isSome_none]
  by_cases has : as = []
  · -- Nothing was written: the pushed number is still there, and is popped.
    have hpos : stack.size ≠ 0 := by simp [Stack.size, helems]
    simp [has, wrap, hpos, hpop, pure, Except.pure]
  · -- Something was written: the stack is empty, and the message is closed.
    have hne : tagBytes V number .start ++ as ++ [endByte] ≠ [] := by simp
    rw [wrap, if_neg has, Marshaller.emit_of_ne_nil has, Marshaller.emit_of_ne_nil hne]
    simp [Stack.size, Writer.Open.write_append hopen, pure, Except.pure, helems, startTags]

/-- The vector template emits its elements' bytes one after the other. -/
theorem vector {f : α → Marshaller → Except Panic Marshaller} {bytes : α → List UInt8} :
    ∀ vec : List α, (∀ value ∈ vec, Emits V (f value) (bytes value) levels) →
      Emits V (marshalFieldVector f vec) (vec.flatMap bytes) levels
  | [], _ => done
  | _ :: vec, h =>
    (h _ List.mem_cons_self).andThen (vector vec fun v hv => h v (List.mem_cons_of_mem _ hv))

end Emits

mutual

/-- Every `marshal_field` emits the field's reference bytes, given room on the
stack for the field's levels. -/
theorem FieldKind.marshalField_emits (hV : V.Lawful) (number : BitVec 32) :
    ∀ (k : FieldKind) (val : k.Val),
      Emits V (k.marshalField V number val) (k.ref V number val) (k.depth val)
  | .scalar type, val => fun _ h _ =>
    congrArg Except.ok (StorageType.marshalField_emit hV h number type.storage val)
  | .message type, msg => (type.marshal_emits hV msg).message number
  | .repeated type, vec => Emits.vector vec fun msg hmsg =>
    ((type.marshal_emits hV msg).message number).mono (le_maximum (List.mem_map_of_mem hmsg))

/-- The generated `T::marshal` emits the message's reference bytes, given room on
the stack for the message's levels. -/
theorem MessageType.marshal_emits (hV : V.Lawful) :
    ∀ (T : MessageType) (msg : T.Val), Emits V (T.marshal V msg) (T.ref V msg) (T.depth msg)
  | .empty, _ => Emits.done
  | .field number kind rest, (val, msg) =>
    ((kind.marshalField_emits hV number val).mono (Nat.le_max_left _ _)).andThen
      ((rest.marshal_emits hV msg).mono (Nat.le_max_right _ _))

end

/-- A sequence of fields with an `End` behind, from an empty stack. -/
theorem Emits.top {f : Marshaller → Except Panic Marshaller} {bytes : List UInt8} {levels : Nat}
    (h : Emits V f bytes levels) (hlevels : levels ≤ MaxNesting) {out : Writer Err}
    (hopen : out.Open) :
    (do
      let m ← f ⟨out, .empty⟩
      if m.out.err.isSome then return m.out
      return m.out.write [endByte] .baselib) =
    (.ok (out.append (bytes ++ [endByte])) : Except Panic (Writer Err)) := by
  have hopen' : Marshaller.Open ⟨out, .empty⟩ := hopen
  have hout := Marshaller.emit_empty_out V out bytes
  rw [h ⟨out, .empty⟩ hopen' (by simpa using hlevels)]
  simp [bind, Except.bind, pure, Except.pure, hout, hopen.err, hopen.write_append]

/-- The top-level `marshal` writes the reference bytes and an `End`. -/
theorem marshal_open (hV : V.Lawful) {T : MessageType} {msg : T.Val} {out : Writer Err}
    (h : out.Open) (hdepth : T.depth msg ≤ MaxNesting) :
    marshal V T msg out = .ok (out.append (T.ref V msg ++ [endByte])) :=
  (T.marshal_emits hV msg).top hdepth h

end Messages

/-! ## What the reference bytes look like -/

/-- A sequence of fields in which every `Start` has its matching `End` and no group
is empty. -/
inductive Bracketed (V : Varint) : List UInt8 → Prop
  | nil : Bracketed V []
  | scalar (number : BitVec 32) (s : StorageType) (val : s.Val) {rest : List UInt8} :
      s.isDefault val = false → Bracketed V rest →
      Bracketed V (tagBytes V number s.wireType ++ s.payload V val ++ rest)
  | group (number : BitVec 32) {child rest : List UInt8} :
      child ≠ [] → Bracketed V child → Bracketed V rest →
      Bracketed V (tagBytes V number .start ++ child ++ [endByte] ++ rest)

namespace Bracketed

variable {V}

/-- Bytes behind bytes are bracketed if both are. -/
theorem append {as bs : List UInt8} (ha : Bracketed V as) (hb : Bracketed V bs) :
    Bracketed V (as ++ bs) := by
  induction ha with
  | nil => exact hb
  | scalar number s val hval _ ih =>
    rw [List.append_assoc]
    exact .scalar number s val hval ih
  | group number hne hchild _ _ ih =>
    rw [List.append_assoc]
    exact .group number hne hchild ih

/-- A scalar has no brackets. -/
theorem ref_scalar (number : BitVec 32) (s : StorageType) (val : s.Val) :
    Bracketed V (s.ref V number val) := by
  unfold StorageType.ref
  split
  · exact .nil
  · rename_i h
    simpa using Bracketed.scalar number s val (by simpa using h) .nil

/-- A nested message is in brackets. -/
theorem wrap (number : BitVec 32) {child : List UInt8} (h : Bracketed V child) :
    Bracketed V (wrap V number child) := by
  unfold SerialRpc.wrap
  split
  · exact .nil
  · rename_i hne
    simpa using Bracketed.group number hne h .nil

/-- The elements of a vector are bracketed one by one. -/
theorem flatMap {α : Type} {bytes : α → List UInt8} (h : ∀ a, Bracketed V (bytes a)) :
    ∀ as : List α, Bracketed V (as.flatMap bytes)
  | [] => .nil
  | a :: as => (h a).append (flatMap h as)

mutual

theorem ref_field (number : BitVec 32) :
    ∀ (k : FieldKind) (val : k.Val), Bracketed V (k.ref V number val)
  | .scalar type, val => ref_scalar number type.storage val
  | .message type, msg => (ref_message type msg).wrap number
  | .repeated type, vec => flatMap (fun msg => (ref_message type msg).wrap number) vec

/-- The reference encoding has an `End` for every `Start`. -/
theorem ref_message : ∀ (T : MessageType) (msg : T.Val), Bracketed V (T.ref V msg)
  | .empty, _ => .nil
  | .field number kind rest, (val, msg) => (ref_field number kind val).append (ref_message rest msg)

end

end Bracketed

/-! ## No panic, whatever the sink does -/

/-- What an encoder call does to the stack when it reports no error: it leaves it empty
if it writes anything, and else as it was. -/
def Opens (writes : Bool) (m m' : Marshaller) : Prop :=
  m'.out.err = none → m'.stack = if writes then .empty else m.stack

namespace Opens

theorem refl (m : Marshaller) : Opens false m m := fun _ => rfl

/-- With an error nothing is promised. -/
theorem of_err {m m' : Marshaller} (h : m'.out.err.isSome = true) (writes : Bool) :
    Opens writes m m' := by
  intro hnone
  rw [hnone] at h
  exact absurd h Bool.false_ne_true

theorem trans {m m' m'' : Marshaller} {writes writes' : Bool} (h : Opens writes m m')
    (herr : m'.out.err = none) (h' : Opens writes' m' m'') :
    Opens (writes || writes') m m'' := by
  intro herr''
  rw [h' herr'', h herr]
  cases writes with
  | true => exact ite_self _
  | false => rfl

theorem size_le {m m' : Marshaller} {writes : Bool} (h : Opens writes m m')
    (herr : m'.out.err = none) : m'.stack.elems.length ≤ m.stack.elems.length := by
  rw [h herr]
  cases writes with
  | true => exact Nat.zero_le _
  | false => exact Nat.le_refl _

end Opens

/-- The same, whether or not it writes anything. -/
def Settles (m m' : Marshaller) : Prop :=
  m'.out.err = none → m'.stack = m.stack ∨ m'.stack = .empty

/-- What opens messages, if it writes, settles. -/
theorem Opens.settles {m m' : Marshaller} {writes : Bool} (h : Opens writes m m') :
    Settles m m' := by
  intro herr
  rw [h herr]
  cases writes with
  | true => exact .inr rfl
  | false => exact .inl rfl

namespace Settles

/-- What settles has written or has not. -/
theorem exists_opens {m m' : Marshaller} (h : Settles m m') : ∃ writes, Opens writes m m' := by
  by_cases herr : m'.out.err = none
  · rcases h herr with hs | hs
    · exact ⟨false, fun _ => hs⟩
    · exact ⟨true, fun _ => hs⟩
  · exact ⟨false, fun hnone => absurd hnone herr⟩

theorem refl (m : Marshaller) : Settles m m := (Opens.refl m).settles

theorem trans {m m' m'' : Marshaller} (h : Settles m m') (herr : m'.out.err = none)
    (h' : Settles m' m'') : Settles m m'' := by
  obtain ⟨writes, hopens⟩ := h.exists_opens
  obtain ⟨writes', hopens'⟩ := h'.exists_opens
  exact (hopens.trans herr hopens').settles

theorem size_le {m m' : Marshaller} (h : Settles m m') (herr : m'.out.err = none) :
    m'.stack.elems.length ≤ m.stack.elems.length := by
  obtain ⟨writes, hopens⟩ := h.exists_opens
  exact hopens.size_le herr

end Settles

section Panics

variable {V} {m : Marshaller}

/-- Writing a tag opens the messages around it. -/
theorem writeTags_opens (number : BitVec 32) (type : WireType) :
    Opens true m (writeTags V number type m) := by
  unfold writeTags
  dsimp only
  split
  · rename_i herr
    exact .of_err herr true
  · exact fun _ => rfl

/-- A scalar that is not the default opens the messages around it. -/
theorem marshalScalar_opens (number : BitVec 32) (type : WireType) (isDefault : Bool)
    (payload : List UInt8) :
    Opens (!isDefault) m (marshalScalar V number type isDefault payload m) := by
  cases isDefault with
  | true => exact .refl m
  | false =>
    simp only [marshalScalar, Bool.false_eq_true, if_false]
    split
    · rename_i herr
      exact .of_err herr true
    · rename_i herr
      exact fun _ => writeTags_opens number type (by simpa using herr)

theorem marshalStr_opens (number : BitVec 32) (s : List UInt8) :
    Opens (!decide (s.length = 0)) m (marshalStr V number s m) := by
  by_cases hs : s.length = 0
  · simp only [marshalStr, hs, if_true, decide_true, Bool.not_true]
    exact .refl m
  simp only [marshalStr, hs, if_false, decide_false, Bool.not_false]
  split
  · rename_i herr
    exact .of_err herr true
  · rename_i herr
    have htags := writeTags_opens (V := V) (m := m) number .len (by simpa using herr)
    split
    · rename_i herr'
      exact .of_err herr' true
    · exact fun _ => htags

theorem StorageType.marshalField_opens (number : BitVec 32) (s : StorageType) (val : s.Val) :
    Opens (!s.isDefault val) m (s.marshalField V number val m) := by
  cases s with
  | inlineString capacity => exact marshalStr_opens number _
  | _ => exact marshalScalar_opens number _ _ _

/-- `marshal_field` of a message neither pushes on a full stack nor pops an empty
one, when there is room for the message's own number. -/
theorem marshalFieldMessage_opens (hsize : m.stack.elems.length < MaxNesting)
    (number : BitVec 32) {marshal : Marshaller → Except Panic Marshaller} {writes : Bool}
    (hchild : ∀ stack, m.stack.push number = .ok stack →
      ∃ m', marshal { m with stack } = .ok m' ∧ Opens writes { m with stack } m') :
    ∃ m', marshalFieldMessage number marshal m = .ok m' ∧ Opens writes m m' := by
  obtain ⟨stack, hpush, helems, hpop⟩ := Stack.push_ok hsize number
  obtain ⟨m', hm', hopens⟩ := hchild stack hpush
  simp only [marshalFieldMessage, hpush, hm', bind, Except.bind, pure, Except.pure]
  by_cases herr : m'.out.err = none
  · have hs := hopens herr
    cases writes with
    | true =>
      refine ⟨{ m' with out := m'.out.write [endByte] .baselib }, ?_, fun _ => hs⟩
      simp [herr, hs, Stack.size]
    | false =>
      have hpos : stack.size ≠ 0 := by simp [Stack.size, helems]
      refine ⟨{ m' with stack := m.stack }, ?_, fun _ => rfl⟩
      simp [herr, hs, hpos, hpop]
  · have hsome : m'.out.err.isSome = true := Option.isSome_iff_ne_none.mpr herr
    exact ⟨m', by simp [hsome], .of_err hsome writes⟩

/-- A nested message settles if its own fields do. -/
theorem marshalFieldMessage_settles (hsize : m.stack.elems.length < MaxNesting)
    (number : BitVec 32) {marshal : Marshaller → Except Panic Marshaller}
    (hchild : ∀ stack, m.stack.push number = .ok stack →
      ∃ m', marshal { m with stack } = .ok m' ∧ Settles { m with stack } m') :
    ∃ m', marshalFieldMessage number marshal m = .ok m' ∧ Settles m m' := by
  obtain ⟨stack, hpush, -, -⟩ := Stack.push_ok hsize number
  obtain ⟨m', hm', hsettles⟩ := hchild stack hpush
  obtain ⟨writes, hopens⟩ := hsettles.exists_opens
  obtain ⟨m'', hm'', hopens''⟩ := marshalFieldMessage_opens hsize number fun stack' hpush' => by
    obtain rfl : stack = stack' := Except.ok.inj (hpush.symm.trans hpush')
    exact ⟨m', hm', hopens⟩
  exact ⟨m'', hm'', hopens''.settles⟩

/-- A vector settles if its elements do. -/
theorem marshalFieldVector_settles {α : Type}
    {marshalField : α → Marshaller → Except Panic Marshaller} :
    ∀ (vec : List α) {m : Marshaller},
      (∀ value ∈ vec, ∀ m₁ : Marshaller, m₁.stack.elems.length ≤ m.stack.elems.length →
        ∃ m', marshalField value m₁ = .ok m' ∧ Settles m₁ m') →
      ∃ m', marshalFieldVector marshalField vec m = .ok m' ∧ Settles m m'
  | [], m, _ => ⟨m, rfl, .refl m⟩
  | value :: vec, m, hvalue => by
    obtain ⟨m', hm', hsettles⟩ := hvalue value List.mem_cons_self m (Nat.le_refl _)
    simp only [marshalFieldVector, hm', bind, Except.bind, pure, Except.pure]
    by_cases herr : m'.out.err = none
    · obtain ⟨m'', hm'', hsettles'⟩ := marshalFieldVector_settles vec fun v hv m₁ hsize =>
        hvalue v (List.mem_cons_of_mem _ hv) m₁ (hsize.trans (hsettles.size_le herr))
      exact ⟨m'', by simpa [herr] using hm'', hsettles.trans herr hsettles'⟩
    · exact ⟨m', by simp [Option.isSome_iff_ne_none, herr], hsettles⟩

mutual

theorem FieldKind.marshalField_settles (number : BitVec 32) :
    ∀ (k : FieldKind) (val : k.Val) {m : Marshaller},
      m.stack.elems.length + k.depth val ≤ MaxNesting →
      ∃ m', k.marshalField V number val m = .ok m' ∧ Settles m m'
  | .scalar type, val, _, _ => ⟨_, rfl, (type.storage.marshalField_opens number val).settles⟩
  | .message type, msg, m, hdepth => by
    simp only [FieldKind.depth] at hdepth
    refine marshalFieldMessage_settles (by omega) number fun stack hpush => ?_
    exact MessageType.marshal_settles type msg (Stack.push_size hpush ▸ by omega)
  | .repeated type, vec, m, hdepth => by
    refine marshalFieldVector_settles vec fun msg hmsg m₁ hsize => ?_
    have hle : type.depth msg + 1 ≤ FieldKind.depth (.repeated type) vec :=
      le_maximum (List.mem_map_of_mem hmsg)
    refine marshalFieldMessage_settles (by omega) number fun stack hpush => ?_
    exact MessageType.marshal_settles type msg (Stack.push_size hpush ▸ by omega)

/-- The generated `T::marshal` panics on no sink, given room on the stack for the
message's levels. -/
theorem MessageType.marshal_settles :
    ∀ (T : MessageType) (msg : T.Val) {m : Marshaller},
      m.stack.elems.length + T.depth msg ≤ MaxNesting →
      ∃ m', T.marshal V msg m = .ok m' ∧ Settles m m'
  | .empty, _, m, _ => ⟨m, rfl, .refl m⟩
  | .field number kind rest, (val, msg), m, hdepth => by
    simp only [MessageType.depth] at hdepth
    obtain ⟨m', hm', hsettles⟩ :=
      FieldKind.marshalField_settles number kind val (m := m) (by omega)
    simp only [MessageType.marshal, hm', bind, Except.bind, pure, Except.pure]
    by_cases herr : m'.out.err = none
    · have hsize := hsettles.size_le herr
      obtain ⟨m'', hm'', hsettles'⟩ := MessageType.marshal_settles rest msg (m := m') (by omega)
      exact ⟨m'', by simpa [herr] using hm'', hsettles.trans herr hsettles'⟩
    · exact ⟨m', by simp [Option.isSome_iff_ne_none, herr], hsettles⟩

end

end Panics

/-! ## The lazy encoder is the plain one -/

/-- `T::marshal` with pending numbers writes nothing and keeps them when the message
has no bytes, and else writes their `Start` tags and the message's bytes and leaves
none pending; so `marshal` writes the message's bytes and an `End`. The bytes are
bracketed, and no sink makes the stack panic. -/
theorem marshal_eq_ref (hV : V.Lawful) (T : MessageType) (msg : T.Val) (m : Marshaller)
    (hopen : m.out.Open) (hdepth : m.stack.size + T.depth msg ≤ MaxNesting) :
    (T.ref V msg = [] → T.marshal V msg m = .ok m) ∧
    (T.ref V msg ≠ [] → T.marshal V msg m =
      .ok ⟨m.out.append (startTags V m.stack.elems ++ T.ref V msg), .empty⟩) ∧
    marshal V T msg m.out = .ok (m.out.append (T.ref V msg ++ [endByte])) ∧
    Bracketed V (T.ref V msg) ∧
    ∀ out, ∃ m', T.marshal V msg ⟨out, m.stack⟩ = .ok m' := by
  have hemit := T.marshal_emits hV msg m hopen hdepth
  refine ⟨fun hr => ?_, fun hr => ?_, ?_, Bracketed.ref_message T msg, fun out => ?_⟩
  · rw [hemit, hr, Marshaller.emit_nil]
  · rw [hemit, Marshaller.emit_of_ne_nil hr]
  · exact marshal_open hV hopen ((Nat.le_add_left _ _).trans hdepth)
  · obtain ⟨m', hm', -⟩ := MessageType.marshal_settles (V := V) T msg (m := ⟨out, m.stack⟩) hdepth
    exact ⟨m', hm'⟩

/-- Under two pending numbers, a service with one method: the empty name and the
empty type list leave no trace. -/
theorem marshal_eq_ref_service :
    Protocol.serviceInfo.marshal Varint.leb128
        (Protocol.namedService .empty [Protocol.namedMethod .empty 7])
        ⟨{}, ⟨[1, 2], by decide⟩⟩ =
      .ok ⟨{ written := [11, 19, 43, 16, 7, 4] }, .empty⟩ :=
  (marshal_eq_ref Varint.leb128 Varint.leb128_lawful Protocol.serviceInfo
    (Protocol.namedService .empty [Protocol.namedMethod .empty 7]) ⟨{}, ⟨[1, 2], by decide⟩⟩
    ⟨rfl, rfl⟩ (by decide)).2.1 (by decide)

end SerialRpc
