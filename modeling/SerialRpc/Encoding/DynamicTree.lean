import SerialRpc.Encoding.Dynamic
import SerialRpc.Encoding.RoundTrip

/-!
# Messages of recursive types (cmd/serialrpc/call.cc:47-149, 414-420)

A type that the server lists may refer to itself, and so a message of it may be of any depth.
Two limits stand in the way of a deep one: `marshal_message` counts the levels down from
`MaxNesting`, and the `Stack` has room for `MaxNesting` numbers of messages that are not opened
yet. Every number is pushed before the level is looked at.

- `DynamicMessage`: a protobuf message, whatever its type. `DynamicMessage.writes`: whether
  there is anything in it that is written (`DynamicMessage.ref_eq_nil_iff`).
- `DynamicMessage.marshalFields_emits`: what is not too deep is encoded, and
  `DynamicMessage.marshalFields_opens`: on no sink does it make the stack panic.
- `DynamicMessage.marshalFields_tooDeep`: what is too deep is refused if the stack has a place
  left at the first message that is, and so if anything was written before.
- `marshalTree_iff`: exactly when a deep message is refused with an error.
- `MessageType.tree`: a message of a finite type, which `cliMarshal` encodes in the same way
  (`cliMarshal_eq_tree`).
-/

namespace SerialRpc

open ByteStream

/-! ## The encoder -/

mutual

/-- A value of a field, or an element of a repeated one. -/
inductive DynamicValue where
  | scalar (type : CppType) (val : type.Val)
  | message (msg : DynamicMessage)

/-- A protobuf message, as `marshal_message` goes through it: the number and the value for
every call of `marshal_field_value`. These are the fields that `ListFields` lists, in its
order, and every element of a repeated one. -/
inductive DynamicMessage where
  | nil
  | field (number : BitVec 32) (value : DynamicValue) (rest : DynamicMessage)

end

mutual

/-- How many message levels a value is. -/
def DynamicValue.depth : DynamicValue → Nat
  | .scalar _ _ => 0
  | .message msg => msg.depth + 1

/-- The nesting depth of a message. -/
def DynamicMessage.depth : DynamicMessage → Nat
  | .nil => 0
  | .field _ value rest => max value.depth rest.depth

end

/-- The error of `marshal_message`. -/
def excessiveNesting : Err := .text "serialrpc: excessive message nesting"

/-- The check of `marshal_message` (call.cc:131-134), with its loop as an argument. -/
def withinNesting (nesting : Int) (fields : Marshaller → Except Panic Marshaller)
    (m : Marshaller) : Except Panic Marshaller :=
  if nesting < 0 then .ok ⟨{ m.out with err := m.out.err.or (some excessiveNesting) }, m.stack⟩
  else fields m

section Marshal

variable (V : Varint)

mutual

/-- `marshal_field_value` (call.cc:47-126). The message case writes out the body of the
generated codec's template. -/
def DynamicValue.marshal (number : BitVec 32) :
    DynamicValue → Int → Marshaller → Except Panic Marshaller
  | .scalar type val, _, m => return type.marshalFieldValue V number val m
  | .message msg, nesting, m =>
    marshalFieldMessage number (withinNesting (nesting - 1) (msg.marshalFields (nesting - 1))) m

/-- The loop of `marshal_message` (call.cc:139-148). -/
def DynamicMessage.marshalFields :
    DynamicMessage → Int → Marshaller → Except Panic Marshaller
  | .nil, _, m => return m
  | .field number value rest, nesting, m => do
    let m' ← value.marshal number nesting m
    if m'.out.err.isSome then return m'
    rest.marshalFields nesting m'

end

/-- `detail::marshal` (call.cc:414-420) of any message. -/
def marshalTree (msg : DynamicMessage) (out : Writer Err) : Except Panic (Writer Err) := do
  let m ← withinNesting MaxNesting (msg.marshalFields V MaxNesting) ⟨out, .empty⟩
  if m.out.err.isSome then return m.out
  return m.out.write [endByte] .baselib

/-! ## Its bytes -/

/-- A value as the generated codec has it. -/
def CppType.toStorage : (c : CppType) → c.Val → (s : StorageType) × s.Val
  | .int32, val => ⟨.int32, val⟩
  | .int64, val => ⟨.int64, val⟩
  | .uint32, val => ⟨.uint32, val⟩
  | .uint64, val => ⟨.uint64, val⟩
  | .double, val => ⟨.float64, val⟩
  | .float, val => ⟨.float32, val⟩
  | .bool, val => ⟨.bool, val⟩
  | .enum, val => ⟨.int32, val⟩
  | .string, val => ⟨.inlineString val.length, ⟨val, Nat.le_refl _⟩⟩

/-- The reference bytes of a scalar value. -/
def CppType.ref (number : BitVec 32) (c : CppType) (val : c.Val) : List UInt8 :=
  (c.toStorage val).1.ref V number (c.toStorage val).2

mutual

/-- The reference bytes of a value. -/
def DynamicValue.ref (number : BitVec 32) : DynamicValue → List UInt8
  | .scalar type val => type.ref V number val
  | .message msg => wrap V number msg.ref

/-- The reference bytes of a message. -/
def DynamicMessage.ref : DynamicMessage → List UInt8
  | .nil => []
  | .field number value rest => value.ref number ++ rest.ref

end

end Marshal

mutual

/-- Whether anything is written for a value: there is a scalar in it that is not a default. -/
def DynamicValue.writes : DynamicValue → Bool
  | .scalar type val => !type.isZero val
  | .message msg => msg.writes

/-- Whether anything is written for a message. -/
def DynamicMessage.writes : DynamicMessage → Bool
  | .nil => false
  | .field _ value rest => value.writes || rest.writes

end

variable {V : Varint} {m : Marshaller}

/-- Reflection's values are written by the overloads of the generated codec. -/
theorem CppType.marshalFieldValue_eq (number : BitVec 32) (c : CppType) (val : c.Val) :
    c.marshalFieldValue V number val m =
      (c.toStorage val).1.marshalField V number (c.toStorage val).2 m := by
  cases c <;> rfl

/-- A value is zero for the client exactly if it is a default for the codec. -/
theorem CppType.isZero_eq (c : CppType) (val : c.Val) :
    c.isZero val = (c.toStorage val).1.isDefault (c.toStorage val).2 := by
  cases c <;> rfl

/-- The client writes of a scalar what the reference encoding has. -/
theorem CppType.marshalFieldValue_emit (hV : V.Lawful) (h : m.Open) (number : BitVec 32)
    (c : CppType) (val : c.Val) :
    c.marshalFieldValue V number val m = m.emit V (c.ref V number val) := by
  rw [c.marshalFieldValue_eq, StorageType.marshalField_emit hV h]
  rfl

theorem CppType.ref_eq_nil_iff (hV : V.Lawful) (number : BitVec 32) (c : CppType)
    (val : c.Val) : c.ref V number val = [] ↔ c.isZero val = true := by
  rw [c.isZero_eq]
  exact StorageType.ref_eq_nil_iff hV number _ _

mutual

theorem DynamicValue.ref_eq_nil_iff (hV : V.Lawful) (number : BitVec 32) :
    ∀ value : DynamicValue, value.ref V number = [] ↔ value.writes = false
  | .scalar type val => by
    rw [DynamicValue.ref, DynamicValue.writes, type.ref_eq_nil_iff hV, Bool.not_eq_false']
  | .message msg => by
    rw [DynamicValue.ref, DynamicValue.writes, wrap_eq_nil_iff, msg.ref_eq_nil_iff hV]

/-- Nothing is written of a message exactly if there is nothing in it to write. -/
theorem DynamicMessage.ref_eq_nil_iff (hV : V.Lawful) :
    ∀ msg : DynamicMessage, msg.ref V = [] ↔ msg.writes = false
  | .nil => by simp [DynamicMessage.ref, DynamicMessage.writes]
  | .field number value rest => by
    rw [DynamicMessage.ref, DynamicMessage.writes, List.append_eq_nil_iff, Bool.or_eq_false_iff,
      value.ref_eq_nil_iff hV, rest.ref_eq_nil_iff hV]

end

/-! ## What is not too deep -/

/-- Within the nesting limit the check lets the fields through. -/
theorem Emits.withinNesting {fields : Marshaller → Except Panic Marshaller} {bytes : List UInt8}
    {levels : Nat} (h : Emits V fields bytes levels) {nesting : Int} (hnesting : 0 ≤ nesting) :
    Emits V (withinNesting nesting fields) bytes levels := by
  intro m hopen hsize
  rw [SerialRpc.withinNesting, if_neg (by omega)]
  exact h m hopen hsize

mutual

theorem DynamicValue.marshal_emits (hV : V.Lawful) (number : BitVec 32) :
    ∀ (value : DynamicValue) (nesting : Int), value.depth ≤ nesting →
      Emits V (value.marshal V number nesting) (value.ref V number) value.depth
  | .scalar type val, _, _ => fun _ hopen _ =>
    congrArg Except.ok (type.marshalFieldValue_emit hV hopen number val)
  | .message msg, nesting, hle => by
    simp only [DynamicValue.depth] at hle
    have hfields := msg.marshalFields_emits hV (nesting - 1) (by omega)
    exact (hfields.withinNesting (by omega)).message number

/-- A message that is not too deep emits its reference bytes. -/
theorem DynamicMessage.marshalFields_emits (hV : V.Lawful) :
    ∀ (msg : DynamicMessage) (nesting : Int), msg.depth ≤ nesting →
      Emits V (msg.marshalFields V nesting) (msg.ref V) msg.depth
  | .nil, _, _ => Emits.done
  | .field number value rest, nesting, hle => by
    simp only [DynamicMessage.depth] at hle
    have hvalue := value.marshal_emits hV number nesting (by omega)
    have hrest := rest.marshalFields_emits hV nesting (by omega)
    exact (hvalue.mono (Nat.le_max_left _ _)).andThen (hrest.mono (Nat.le_max_right _ _))

end

/-! ## What becomes of the stack -/

theorem CppType.marshalFieldValue_opens (number : BitVec 32) (c : CppType) (val : c.Val) :
    Opens (!c.isZero val) m (c.marshalFieldValue V number val m) := by
  rw [c.isZero_eq, c.marshalFieldValue_eq]
  exact (c.toStorage val).1.marshalField_opens number (c.toStorage val).2

/-- A level that is refused reports an error. -/
theorem withinNesting_refuses {nesting : Int} (h : nesting < 0)
    (fields : Marshaller → Except Panic Marshaller) (m : Marshaller) :
    ∃ m', withinNesting nesting fields m = .ok m' ∧ m'.out.err.isSome = true ∧
      (m.out.err = none → m'.out.err = some excessiveNesting) := by
  refine ⟨_, by rw [withinNesting, if_pos h], ?_, ?_⟩
  · cases m.out.err with
    | none => rfl
    | some => rfl
  · intro hnone
    simp [hnone]

mutual

theorem DynamicValue.marshal_opens (number : BitVec 32) :
    ∀ (value : DynamicValue) (nesting : Int) (m : Marshaller),
      m.stack.elems.length + value.depth ≤ MaxNesting →
      ∃ m', value.marshal V number nesting m = .ok m' ∧ Opens value.writes m m'
  | .scalar type val, _, _, _ => ⟨_, rfl, type.marshalFieldValue_opens number val⟩
  | .message msg, nesting, m, hsize => by
    simp only [DynamicValue.depth] at hsize
    refine marshalFieldMessage_opens (by omega) number fun stack hpush => ?_
    by_cases hneg : nesting - 1 < 0
    · obtain ⟨m', hm', herr, -⟩ :=
        withinNesting_refuses hneg (msg.marshalFields V (nesting - 1)) { m with stack }
      exact ⟨m', hm', .of_err herr _⟩
    · rw [withinNesting, if_neg hneg]
      exact msg.marshalFields_opens (nesting - 1) _ (Stack.push_size hpush ▸ by omega)

/-- No sink makes the stack panic, given room on it for the message's levels. -/
theorem DynamicMessage.marshalFields_opens :
    ∀ (msg : DynamicMessage) (nesting : Int) (m : Marshaller),
      m.stack.elems.length + msg.depth ≤ MaxNesting →
      ∃ m', msg.marshalFields V nesting m = .ok m' ∧ Opens msg.writes m m'
  | .nil, _, m, _ => ⟨m, rfl, .refl m⟩
  | .field number value rest, nesting, m, hsize => by
    simp only [DynamicMessage.depth] at hsize
    obtain ⟨m', hm', hopens⟩ := value.marshal_opens number nesting m (by omega)
    simp only [DynamicMessage.marshalFields, hm', bind, Except.bind, pure, Except.pure]
    by_cases herr : m'.out.err = none
    · have hle := hopens.size_le herr
      obtain ⟨m'', hm'', hopens'⟩ := rest.marshalFields_opens nesting m' (by omega)
      exact ⟨m'', by simpa [herr] using hm'', hopens.trans herr hopens'⟩
    · have hsome : m'.out.err.isSome = true := Option.isSome_iff_ne_none.mpr herr
      exact ⟨m', by simp [hsome], .of_err hsome _⟩

end

/-! ## What is too deep -/

mutual

/-- Whether anything is written for a value before the first message in it that is more than
`nesting` levels down. -/
def DynamicValue.writesFirst : Nat → DynamicValue → Bool
  | _, .scalar _ _ => false
  | 0, .message _ => false
  | nesting + 1, .message msg => msg.writesFirst nesting

/-- Whether anything is written, in the messages around it, before the first message that is
more than `nesting` levels down. What is written in the root opens none of them. -/
def DynamicMessage.writesFirst : Nat → DynamicMessage → Bool
  | _, .nil => false
  | nesting, .field _ value rest =>
    if nesting < value.depth then value.writesFirst nesting
    else decide (nesting < MaxNesting) && value.writes || rest.writesFirst nesting

end

/-- The stack has a place left, or something is written that empties it. -/
def Opened (m : Marshaller) (nesting : Nat) (writesFirst : Bool) : Prop :=
  m.stack.elems.length + nesting < MaxNesting ∨ writesFirst = true

/-- What comes of a message that is too deep: the error of `marshal_message` or an earlier one
of the sink, or else the panic of a full stack. -/
structure TooDeep (m : Marshaller) (opened : Prop) (result : Except Panic Marshaller) : Prop where
  refused : opened → ∃ m', result = .ok m' ∧ m'.out.err.isSome = true ∧
    (m.Open → m'.out.err = some excessiveNesting)
  panics : ¬ opened → m.Open → result = .error .outOfSpace

theorem TooDeep.message (hsize : m.stack.elems.length < MaxNesting)
    {number : BitVec 32} {opened : Prop} {fields : Marshaller → Except Panic Marshaller}
    (h : ∀ stack, m.stack.push number = .ok stack →
      TooDeep { m with stack } opened (fields { m with stack })) :
    TooDeep m opened (marshalFieldMessage number fields m) := by
  obtain ⟨stack, hpush, -, -⟩ := Stack.push_ok hsize number
  have hfields := h stack hpush
  constructor
  · intro hopened
    obtain ⟨m', hm', herr, hexcessive⟩ := hfields.refused hopened
    refine ⟨m', ?_, herr, hexcessive⟩
    simp [marshalFieldMessage, hpush, hm', bind, Except.bind, herr, pure, Except.pure]
  · intro hclosed hopen
    rw [marshalFieldMessage, hpush]
    simp [hfields.panics hclosed hopen, bind, Except.bind]

/-- The loop stops behind a field that is too deep. -/
theorem TooDeep.first {opened : Prop} {f g : Marshaller → Except Panic Marshaller}
    (h : TooDeep m opened (f m)) :
    TooDeep m opened (do
      let m' ← f m
      if m'.out.err.isSome then return m'
      g m') := by
  constructor
  · intro hopened
    obtain ⟨m', hm', herr, hexcessive⟩ := h.refused hopened
    refine ⟨m', ?_, herr, hexcessive⟩
    simp [hm', bind, Except.bind, herr, pure, Except.pure]
  · intro hclosed hopen
    simp [h.panics hclosed hopen, bind, Except.bind]

/-- The loop goes on behind a field that is not too deep, if there is no error. -/
theorem TooDeep.andThen {opened : Prop} {f g : Marshaller → Except Panic Marshaller}
    {m' : Marshaller} (hf : f m = .ok m') (hopen : m.Open → m'.Open)
    (hg : m'.out.err = none → TooDeep m' opened (g m')) :
    TooDeep m opened (do
      let m' ← f m
      if m'.out.err.isSome then return m'
      g m') := by
  by_cases herr : m'.out.err = none
  · have hrest := hg herr
    simp only [hf, bind, Except.bind, herr, Option.isSome_none, Bool.false_eq_true, if_false]
    constructor
    · intro hopened
      obtain ⟨m'', hm'', herr'', hexcessive⟩ := hrest.refused hopened
      exact ⟨m'', hm'', herr'', fun h => hexcessive (hopen h)⟩
    · intro hclosed h
      exact hrest.panics hclosed (hopen h)
  · have hsome : m'.out.err.isSome = true := Option.isSome_iff_ne_none.mpr herr
    simp only [hf, bind, Except.bind, hsome, if_true]
    constructor
    · intro _
      exact ⟨m', rfl, hsome, fun h => absurd (hopen h).err herr⟩
    · intro _ h
      exact absurd (hopen h).err herr

/-- What a field that is not too deep changes for the fields behind it. -/
theorem Opened.after_iff {nesting : Nat} (hsize : m.stack.elems.length + nesting ≤ MaxNesting)
    {m' : Marshaller} {writes : Bool} (hstack : m'.stack = if writes then .empty else m.stack)
    (writesFirst : Bool) :
    Opened m' nesting writesFirst ↔
      Opened m nesting (decide (nesting < MaxNesting) && writes || writesFirst) := by
  unfold Opened
  cases writes with
  | false => simp [hstack]
  | true =>
    have hempty : m'.stack.elems.length = 0 := by simp [hstack]
    -- Only the root has all the levels left, and its stack is empty as it is.
    by_cases hroot : nesting < MaxNesting
    · refine iff_of_true (.inl (by omega)) (.inr ?_)
      simp [hroot]
    · have hlen : m.stack.elems.length = 0 := by omega
      simp [hempty, hlen, hroot]

/-- A level that is refused, behind a push that either panics or does not. -/
theorem DynamicValue.marshal_tooDeep_zero (number : BitVec 32) (msg : DynamicMessage)
    (m : Marshaller) :
    TooDeep m (Opened m 0 false) ((DynamicValue.message msg).marshal V number (0 : Nat) m) := by
  by_cases hfull : m.stack.elems.length = MaxNesting
  · refine ⟨?_, fun _ _ => ?_⟩
    · rintro (hroom | hwrites)
      · exact absurd hfull (Nat.ne_of_lt hroom)
      · exact absurd hwrites Bool.false_ne_true
    · rw [DynamicValue.marshal, marshalFieldMessage, Stack.push, dif_pos hfull]
      rfl
  · have hroom : m.stack.elems.length < MaxNesting := Nat.lt_of_le_of_ne m.stack.size_le hfull
    refine .message hroom fun stack _ => ?_
    have hneg : ((0 : Nat) : Int) - 1 < 0 := by decide
    obtain ⟨m', hm', herr, hexcessive⟩ :=
      withinNesting_refuses hneg (msg.marshalFields V ((0 : Nat) - 1)) { m with stack }
    refine ⟨fun _ => ⟨m', hm', herr, fun hopen => hexcessive hopen.err⟩, ?_⟩
    intro hclosed
    exact absurd (.inl hroom) hclosed

mutual

theorem DynamicValue.marshal_tooDeep (hV : V.Lawful) (number : BitVec 32) :
    ∀ (value : DynamicValue) (nesting : Nat) (m : Marshaller),
      m.stack.elems.length + nesting ≤ MaxNesting → nesting < value.depth →
      TooDeep m (Opened m nesting (value.writesFirst nesting)) (value.marshal V number nesting m)
  | .scalar _ _, _, _, _, hdeep => absurd hdeep (Nat.not_lt_zero _)
  | .message msg, 0, m, _, _ => DynamicValue.marshal_tooDeep_zero number msg m
  | .message msg, nesting + 1, m, hsize, hdeep => by
    refine TooDeep.message (by omega) fun stack hpush => ?_
    have hlen := Stack.push_size hpush
    have hfields := msg.marshalFields_tooDeep hV nesting { m with stack }
      (by simp only; omega) (Nat.lt_of_succ_lt_succ hdeep)
    have hopened : Opened { m with stack } nesting (msg.writesFirst nesting) =
        Opened m (nesting + 1) ((DynamicValue.message msg).writesFirst (nesting + 1)) := by
      simp only [Opened, hlen, DynamicValue.writesFirst, Nat.add_assoc, Nat.add_comm 1]
    have hdown : ((nesting + 1 : Nat) : Int) - 1 = nesting := by omega
    rw [hdown, withinNesting, if_neg (by omega), ← hopened]
    exact hfields

/-- A message that is too deep is refused, or the stack panics when it is full. -/
theorem DynamicMessage.marshalFields_tooDeep (hV : V.Lawful) :
    ∀ (msg : DynamicMessage) (nesting : Nat) (m : Marshaller),
      m.stack.elems.length + nesting ≤ MaxNesting → nesting < msg.depth →
      TooDeep m (Opened m nesting (msg.writesFirst nesting)) (msg.marshalFields V nesting m)
  | .nil, _, _, _, hdeep => absurd hdeep (Nat.not_lt_zero _)
  | .field number value rest, nesting, m, hsize, hdeep => by
    -- The first field that is too deep decides; one before it may empty the stack.
    by_cases hvalue : nesting < value.depth
    · have hfield := value.marshal_tooDeep hV number nesting m hsize hvalue
      rw [DynamicMessage.writesFirst, if_pos hvalue]
      exact hfield.first
    · have hrest : nesting < rest.depth := by
        simp only [DynamicMessage.depth] at hdeep
        omega
      obtain ⟨m', hm', hopens⟩ := value.marshal_opens (V := V) number nesting m (by omega)
      rw [DynamicMessage.writesFirst, if_neg hvalue]
      refine TooDeep.andThen hm' (fun hopen => ?_) fun herr => ?_
      · have hemit := value.marshal_emits hV number nesting (by omega) m hopen (by omega)
        rw [hm'] at hemit
        cases hemit
        exact hopen.emit _
      · rw [← Opened.after_iff hsize (hopens herr)]
        have hle := hopens.size_le herr
        exact rest.marshalFields_tooDeep hV nesting m' (by omega) hrest

end

/-! ## Whole messages -/

section Whole

variable {msg : DynamicMessage} {out : Writer Err}

/-- Behind the fields there is an `End`. -/
theorem marshalTree_of_fields {m : Marshaller}
    (hm : msg.marshalFields V MaxNesting ⟨out, .empty⟩ = .ok m) :
    marshalTree V msg out =
      .ok (if m.out.err.isSome then m.out else m.out.write [endByte] .baselib) := by
  rw [marshalTree, withinNesting, if_neg (by decide), hm]
  simp only [bind, Except.bind, pure, Except.pure]
  split
  · rfl
  · rfl

/-- A message that is not too deep is written whole. -/
theorem marshalTree_complete (hV : V.Lawful) (hdepth : msg.depth ≤ MaxNesting)
    (hopen : out.Open) : marshalTree V msg out = .ok (out.append (msg.ref V ++ [endByte])) := by
  have hfields := msg.marshalFields_emits hV MaxNesting (Int.ofNat_le.mpr hdepth)
  exact (hfields.withinNesting (Int.natCast_nonneg _)).top hdepth hopen

/-- A tree within the nesting limit does not panic. -/
theorem marshalTree_noPanic (hdepth : msg.depth ≤ MaxNesting) (out : Writer Err) (panic : Panic) :
    marshalTree V msg out ≠ .error panic := by
  obtain ⟨m, hm, -⟩ :=
    msg.marshalFields_opens (V := V) MaxNesting ⟨out, .empty⟩ (by simpa using hdepth)
  rw [marshalTree_of_fields hm]
  exact nofun

theorem marshalTree_tooDeep (hV : V.Lawful) (hdeep : MaxNesting < msg.depth) (out : Writer Err) :
    (msg.writesFirst MaxNesting = true → ∃ w, marshalTree V msg out = .ok w ∧
      (out.Open → w.err = some excessiveNesting)) ∧
    (msg.writesFirst MaxNesting = false → out.Open →
      marshalTree V msg out = .error .outOfSpace) := by
  have hfields := msg.marshalFields_tooDeep hV MaxNesting ⟨out, .empty⟩
    (Nat.le_of_eq (Nat.zero_add _)) hdeep
  have hfull : ¬ (Stack.empty.elems.length + MaxNesting < MaxNesting) := by decide
  constructor
  · intro hwrites
    obtain ⟨m, hm, herr, hexcessive⟩ := hfields.refused (.inr hwrites)
    refine ⟨m.out, ?_, hexcessive⟩
    rw [marshalTree_of_fields hm, if_pos herr]
  · intro hwrites hopen
    have hclosed : ¬ Opened ⟨out, .empty⟩ MaxNesting (msg.writesFirst MaxNesting) := by
      rintro (hroom | h)
      · exact hfull hroom
      · exact absurd (hwrites.symm.trans h) Bool.false_ne_true
    rw [marshalTree, withinNesting, if_neg (by decide), hfields.panics hclosed hopen]
    rfl

end Whole

/-- A message of any depth is written whole or refused with an error, and the stack panics on no
sink, exactly when it is not too deep or something is written before the first message that
is. -/
theorem marshalTree_iff (V : Varint) (hV : V.Lawful) (msg : DynamicMessage) :
    ((∀ out : Writer Err, out.Open →
      (msg.depth ≤ MaxNesting →
        marshalTree V msg out = .ok (out.append (msg.ref V ++ [endByte]))) ∧
      (MaxNesting < msg.depth →
        ∃ w, marshalTree V msg out = .ok w ∧ w.err = some excessiveNesting)) ∧
     ∀ out panic, marshalTree V msg out ≠ .error panic) ↔
    msg.depth ≤ MaxNesting ∨ msg.writesFirst MaxNesting = true := by
  rcases Nat.lt_or_ge MaxNesting msg.depth with hdeep | hdepth
  · have hroot := marshalTree_tooDeep hV hdeep
    constructor
    · -- Where nothing was written, even a sink without bounds sees the panic.
      rintro ⟨-, hpanic⟩
      refine .inr (Bool.not_eq_false _ ▸ fun hwrites => ?_)
      exact hpanic {} .outOfSpace ((hroot {}).2 hwrites ⟨rfl, rfl⟩)
    · rintro (hdepth | hwrites)
      · exact absurd hdepth (Nat.not_le_of_lt hdeep)
      refine ⟨fun out hopen => ⟨fun h => absurd h (Nat.not_le_of_lt hdeep), fun _ => ?_⟩, ?_⟩
      · obtain ⟨w, hw, hexcessive⟩ := (hroot out).1 hwrites
        exact ⟨w, hw, hexcessive hopen⟩
      · intro out panic
        obtain ⟨w, hw, -⟩ := (hroot out).1 hwrites
        rw [hw]
        exact nofun
  · refine iff_of_true ⟨fun out hopen => ⟨fun _ => ?_, fun h => ?_⟩, ?_⟩ (.inl hdepth)
    · exact marshalTree_complete hV hdepth hopen
    · exact absurd hdepth (Nat.not_le_of_lt h)
    · exact marshalTree_noPanic hdepth

/-- `count` messages, each in a field of the one around it, and `inner` in the last. -/
def Sample.chain (inner : DynamicMessage) : Nat → DynamicMessage
  | 0 => inner
  | count + 1 => .field 1 (.message (chain inner count)) .nil

/-- A chain that is too deep, with a number written in its second message. -/
def Sample.openedChain : DynamicMessage :=
  .field 1 (.message (.field 2 (.scalar .int32 7) (chain .nil 128))) .nil

/-- The number opens the first message, and the chain is refused. -/
theorem marshalTree_openedChain :
    ∃ w, marshalTree Varint.leb128 Sample.openedChain {} = .ok w ∧
      w.err = some excessiveNesting :=
  (((marshalTree_iff Varint.leb128 Varint.leb128_lawful Sample.openedChain).mpr
    (.inr (by decide +kernel))).1 {} ⟨rfl, rfl⟩).2 (by decide +kernel)

/-- In a chain of empty messages the number of the first one that is too deep finds the stack
full. -/
theorem marshalTree_emptyChain :
    (Sample.chain .nil 129).depth = MaxNesting + 1 ∧
      marshalTree Varint.leb128 (Sample.chain .nil 129) {} = .error .outOfSpace :=
  ⟨by decide +kernel, (marshalTree_tooDeep Varint.leb128_lawful (by decide +kernel) {}).2
    (by decide +kernel) ⟨rfl, rfl⟩⟩

/-! ## Messages of a finite type -/

section Types

variable (listFields : ListFields)

/-- The calls for the listed fields of a message, with those for one field as an argument. -/
def treeListed (listed : List (BitVec 32))
    (field : BitVec 32 → DynamicMessage → DynamicMessage) : DynamicMessage :=
  listed.foldr field .nil

mutual

/-- The calls for one field, in front of those for the rest. -/
def FieldKind.tree (number : BitVec 32) :
    (k : FieldKind) → k.Dynamic → DynamicMessage → DynamicMessage
  | .scalar type, val, rest => .field number (.scalar type.cppType val) rest
  | .message type, msg, rest =>
    let value := msg.getD type.dynamicDefault
    .field number (.message
      (treeListed (listFields type value) fun number => type.numberTree number value)) rest
  | .repeated type, vec, rest =>
    vec.foldr (fun value => .field number (.message
      (treeListed (listFields type value) fun number => type.numberTree number value))) rest

/-- The calls for a listed field, in front of those for the rest. -/
def MessageType.numberTree :
    (T : MessageType) → BitVec 32 → T.Dynamic → DynamicMessage → DynamicMessage
  | .empty, _, _, rest => rest
  | .field number kind more, fieldNum, (val, msg), rest =>
    if fieldNum = number then kind.tree number val rest
    else more.numberTree fieldNum msg rest

end

/-- A message of a type as one of any type. -/
def MessageType.tree (T : MessageType) (msg : T.Dynamic) : DynamicMessage :=
  treeListed (listFields T msg) fun number => T.numberTree listFields number msg

end Types

/-- The calls that `tree` puts in front do what `f` does. -/
def Unrolls (V : Varint) (tree : DynamicMessage → DynamicMessage)
    (f : Int → Marshaller → Except Panic Marshaller) : Prop :=
  ∀ rest nesting (m : Marshaller), m.out.err = none →
    (tree rest).marshalFields V nesting m = do
      let m' ← f nesting m
      if m'.out.err.isSome then return m'
      rest.marshalFields V nesting m'

namespace Unrolls

/-- The tree without fields writes none. -/
theorem nothing : Unrolls V id fun _ m => .ok m := by
  intro rest nesting m herr
  simp [bind, Except.bind, herr]

/-- A field of the tree is one that is written. -/
theorem field {number : BitVec 32} {value : DynamicValue}
    {f : Int → Marshaller → Except Panic Marshaller}
    (h : ∀ nesting (m : Marshaller), m.out.err = none →
      value.marshal V number nesting m = f nesting m) :
    Unrolls V (.field number value) f := by
  intro rest nesting m herr
  rw [DynamicMessage.marshalFields, h nesting m herr]

/-- A vector of the tree is written element by element. -/
theorem foldr {α : Type} {tree : α → DynamicMessage → DynamicMessage}
    {f : Int → α → Marshaller → Except Panic Marshaller}
    (h : ∀ a, Unrolls V (tree a) fun nesting => f nesting a) :
    ∀ as : List α, Unrolls V (fun rest => as.foldr tree rest) fun nesting =>
      marshalFieldVector (f nesting) as
  | [] => nothing
  | a :: as => by
    intro rest nesting m herr
    show (tree a (as.foldr tree rest)).marshalFields V nesting m = _
    simp only [h a _ nesting m herr, marshalFieldVector]
    cases hm' : f nesting a m with
    | error panic => rfl
    | ok m' =>
      simp only [bind, Except.bind]
      by_cases herr' : m'.out.err = none
      · have ih := foldr h as rest nesting m' herr'
        simpa [herr', bind, Except.bind] using ih
      · have hsome : m'.out.err.isSome = true := Option.isSome_iff_ne_none.mpr herr'
        simp [hsome, pure, Except.pure]

/-- With nothing behind them, the calls for the listed fields are the loop over them. -/
theorem listed {field : BitVec 32 → DynamicMessage → DynamicMessage}
    {f : Int → BitVec 32 → Marshaller → Except Panic Marshaller}
    (h : ∀ number, Unrolls V (field number) fun nesting => f nesting number)
    (listed : List (BitVec 32)) (nesting : Int) {m : Marshaller} (herr : m.out.err = none) :
    withinNesting nesting ((treeListed listed field).marshalFields V nesting) m =
      marshalListed listed (f nesting) nesting m := by
  have hloop := foldr h listed .nil nesting m herr
  unfold withinNesting marshalListed
  split
  · rfl
  · rw [treeListed]
    refine hloop.trans ?_
    show (do
      let m' ← marshalFieldVector (f nesting) listed m
      if m'.out.err.isSome then return m'
      return m') = _
    cases marshalFieldVector (f nesting) listed m with
    | error panic => rfl
    | ok m' => exact ite_self _

/-- A nested message of the tree is written as one. -/
theorem message {field : BitVec 32 → DynamicMessage → DynamicMessage}
    {f : Int → BitVec 32 → Marshaller → Except Panic Marshaller}
    (h : ∀ number, Unrolls V (field number) fun nesting => f nesting number)
    (number : BitVec 32) (listed : List (BitVec 32)) :
    Unrolls V (.field number (.message (treeListed listed field))) fun nesting =>
      marshalFieldMessage number (marshalListed listed (f (nesting - 1)) (nesting - 1)) := by
  refine Unrolls.field fun nesting m herr => ?_
  rw [DynamicValue.marshal]
  unfold marshalFieldMessage
  cases m.stack.push number with
  | error panic => rfl
  | ok stack =>
    simp only [bind, Except.bind]
    have hinner : (Marshaller.mk m.out stack).out.err = none := herr
    rw [Unrolls.listed h listed (nesting - 1) hinner]

end Unrolls

section Types

variable {listFields : ListFields}

mutual

theorem FieldKind.tree_unrolls (number : BitVec 32) :
    ∀ (k : FieldKind) (val : k.Dynamic), Unrolls V (k.tree listFields number val)
      fun nesting => k.marshalFieldValues V listFields number val nesting
  | .scalar _, _ => .field fun _ _ _ => rfl
  | .message type, _ => .message (fun number => type.numberTree_unrolls number _) number _
  | .repeated type, vec =>
    .foldr (fun value => .message (fun number => type.numberTree_unrolls number value) number _)
      vec

/-- A message of a generated type is a tree that is written the same. -/
theorem MessageType.numberTree_unrolls (fieldNum : BitVec 32) :
    ∀ (T : MessageType) (msg : T.Dynamic), Unrolls V (T.numberTree listFields fieldNum msg)
      fun nesting => T.marshalNumber V listFields fieldNum msg nesting
  | .empty, _ => .nothing
  | .field number kind rest, (val, msg) => by
    intro more nesting m herr
    simp only [MessageType.numberTree, MessageType.marshalNumber]
    split
    · exact kind.tree_unrolls number val more nesting m herr
    · exact rest.numberTree_unrolls fieldNum msg more nesting m herr

end

/-- The messages of a finite type are encoded as the ones of any type. -/
theorem cliMarshal_eq_tree (T : MessageType) (msg : T.Dynamic) {out : Writer Err}
    (herr : out.err = none) :
    cliMarshal V listFields T msg out = marshalTree V (T.tree listFields msg) out := by
  have hfields : ∀ number, Unrolls V (T.numberTree listFields number msg)
      fun nesting => T.marshalNumber V listFields number msg nesting :=
    fun number => T.numberTree_unrolls number msg
  have hroot : (Marshaller.mk out .empty).out.err = none := herr
  have hlisted := Unrolls.listed hfields (listFields T msg) MaxNesting hroot
  rw [marshalTree, MessageType.tree, hlisted]
  rfl

end Types

end SerialRpc
