import SerialRpc.Encoding.Unmarshal

/-!
# What decoding holds (encoding.cc:133-140, protoc_serialrpc_plugin.cc:1468-1525)

A decoder fills in a value as it reads: a string by its bytes and a vector by an element for
each `Start` tag. Whatever the stream says, an element has been paid for by the byte of its
tag and a string by its own bytes, so that no stream makes a decoder hold more than there is
of it. This goes for the streams that are refused as well.

- `MessageType.weight`: the bytes of the strings and the elements of the vectors of a value,
  at every level.
- `messageLoop_paid`: a loop over tags pays for what its `switch` adds.
- `unmarshal_paid`: what `unmarshal` returns and what it leaves unread are no more than what
  there was.
-/

namespace SerialRpc

open ByteStream

variable {V : Varint}

/-! ## Paying by the byte -/

/-- A loop whose rounds pay for what they add pays for all. -/
theorem loop_paid {σ : Type} {body : Body σ Err} {cost : σ → Nat}
    (hround : ∀ s inp, cost (body s inp).state + (body s inp).reader.unread.length ≤
      cost s + inp.unread.length) (s : σ) (inp : In) :
    cost (Reader.loop body s inp).1 + (Reader.loop body s inp).2.unread.length ≤
      cost s + inp.unread.length :=
  Reader.loop_induct
    (motive := fun s' inp' => cost s' + inp'.unread.length ≤ cost s + inp.unread.length)
    (fun s' inp' h => (hround s' inp').trans h) s inp (Nat.le_refl _)

/-- A `switch` that is paid for by the tag in front and by what it reads. -/
def Switch.Paid {α : Type} (cost : α → Nat) (switch : Switch α) : Prop :=
  ∀ fieldNum msg inp next, switch fieldNum msg inp = some next →
    cost next.1 + next.2.unread.length ≤ cost msg + inp.unread.length + 1

/-- A loop over tags pays for what its `switch` adds. -/
theorem messageLoop_paid {α : Type} {cost : α → Nat} {switch : Switch α} (h : switch.Paid cost)
    (nesting : Int) (msg : α) (inp : In) :
    cost (messageLoop V switch nesting msg inp).1 +
        (messageLoop V switch nesting msg inp).2.unread.length ≤ cost msg + inp.unread.length := by
  refine loop_paid (fun msg inp => ?_) msg inp
  have htag := (readTag_suffix V inp).length_le
  unfold tagRound
  dsimp only
  split
  · exact Nat.add_le_add_left htag _
  · rename_i herr
    have hconsumes := readTag_consumes (Option.not_isSome_iff_eq_none.mp herr)
    split
    · exact Nat.add_le_add_left htag _
    · unfold messageField
      cases hswitch : switch (readTag V inp).1.fieldNum msg (readTag V inp).2 with
      | some next =>
        have hnext := h _ _ _ _ hswitch
        show cost next.1 + next.2.unread.length ≤ _
        omega
      | none =>
        have hskip := (skip_suffix (V := V) (readTag V inp).1.type (nesting - 1)
          (readTag V inp).2).length_le
        exact Nat.add_le_add_left (hskip.trans htag) _

/-! ## What a value holds -/

/-- The bytes of a string that have been filled in, which of a string cut short are not all
that its length claims. Other scalars stand in the message itself. -/
def StorageType.weight : (s : StorageType) → s.Val → Nat
  | .inlineString _, val => val.data.length
  | .int32, _ | .int64, _ | .uint32, _ | .uint64, _ | .bool, _ | .float32, _ | .float64, _ => 0

mutual

def FieldKind.weight : (k : FieldKind) → k.Val → Nat
  | .scalar type, val => type.storage.weight val
  | .message type, msg => type.weight msg
  | .repeated type, vec => (vec.map fun msg => type.weight msg + 1).sum

/-- What a message holds: the bytes of its strings and the elements of its vectors, with
what these hold. -/
def MessageType.weight : (T : MessageType) → T.Val → Nat
  | .empty, _ => 0
  | .field _ kind rest, msg => kind.weight msg.1 + rest.weight msg.2

end

mutual

theorem FieldKind.weight_default : ∀ k : FieldKind, k.weight k.default = 0
  | .scalar type => by cases type <;> rfl
  | .message type => type.weight_default
  | .repeated _ => rfl

/-- The default message holds nothing. -/
theorem MessageType.weight_default : ∀ T : MessageType, T.weight T.default = 0
  | .empty => rfl
  | .field _ kind rest => by
    show kind.weight kind.default + rest.weight rest.default = 0
    rw [kind.weight_default, rest.weight_default]

end

/-! ## The decoder pays -/

theorem read_full_paid (n : Nat) (e : Err) (inp : In) :
    (inp.read (Read.full n) e).1.length + (inp.read (Read.full n) e).2.unread.length ≤
      inp.unread.length := by
  have hrun : ((Read.full n).run inp.unread).value.length +
      ((Read.full n).run inp.unread).rest.length ≤ inp.unread.length := by
    by_cases hle : n ≤ inp.unread.length
    · simp only [Read.full, hle, if_true, List.length_take, List.length_drop]
      omega
    · simp [Read.full, hle]
  exact hrun

theorem unmarshalInlineString_paid (capacity : Nat) (inp : In) :
    (unmarshalInlineString V capacity inp).1.data.length +
      (unmarshalInlineString V capacity inp).2.unread.length ≤ inp.unread.length := by
  have hlength : ∀ raw : RawBytes, (raw.toInlineString capacity).data.length ≤ raw.data.length := by
    intro raw
    unfold RawBytes.toInlineString
    split
    · exact Nat.le_refl _
    · exact Nat.zero_le _
  have hraw : (unmarshalBytes V capacity inp).1.data.length +
      (unmarshalBytes V capacity inp).2.unread.length ≤ inp.unread.length := by
    have hn := (Reader.read_unread_suffix V.readUnsigned Err.baselib inp).length_le
    unfold unmarshalBytes
    dsimp only
    split
    · exact (Nat.zero_add _).trans_le hn
    · split
      · exact (Nat.zero_add _).trans_le hn
      · exact (read_full_paid _ _ _).trans hn
  exact (Nat.add_le_add_right (hlength _) _).trans hraw

theorem StorageType.paid (s : StorageType) (inp : In) :
    s.weight (s.unmarshal V inp).1 + (s.unmarshal V inp).2.unread.length ≤ inp.unread.length := by
  have hsuffix := (s.unmarshal_suffix (V := V) inp).length_le
  cases s with
  | inlineString capacity => exact unmarshalInlineString_paid capacity inp
  | _ => exact (Nat.zero_add _).trans_le hsuffix

theorem unmarshalNested_paid {α : Type} {cost : α → Nat} {default : α}
    {body : Int → In → α × In} (hdefault : cost default = 0)
    (hbody : ∀ nesting inp, cost (body nesting inp).1 + (body nesting inp).2.unread.length ≤
      inp.unread.length) (nesting : Int) (inp : In) :
    cost (unmarshalNested default body nesting inp).1 +
      (unmarshalNested default body nesting inp).2.unread.length ≤ inp.unread.length := by
  unfold unmarshalNested
  split
  · simp [hdefault]
  · exact hbody nesting inp

/-- A nested message starts from the default. -/
theorem MessageType.nested_paid {T : MessageType}
    (h : ∀ nesting, (T.switch V nesting).Paid T.weight) (nesting : Int) (inp : In) :
    T.weight (unmarshalNested T.default
        (fun nesting => messageLoop V (T.switch V nesting) nesting T.default) nesting inp).1 +
      (unmarshalNested T.default
        (fun nesting => messageLoop V (T.switch V nesting) nesting T.default) nesting
          inp).2.unread.length ≤ inp.unread.length := by
  refine unmarshalNested_paid T.weight_default (fun nesting inp => ?_) nesting inp
  have hloop := messageLoop_paid (V := V) (h nesting) nesting T.default inp
  rwa [T.weight_default, Nat.zero_add] at hloop

mutual

/-- The tag in front of a field pays for an element that it adds. -/
theorem FieldKind.paid :
    ∀ (k : FieldKind) (nesting : Int) (val : k.Val) (inp : In),
      k.weight (k.unmarshal V nesting val inp).1 + (k.unmarshal V nesting val inp).2.unread.length ≤
        k.weight val + inp.unread.length + 1
  | .scalar type, _, val, inp => by
    have hpaid := type.storage.paid (V := V) inp
    show type.storage.weight _ + _ ≤ type.storage.weight val + _ + 1
    simp only [FieldKind.unmarshal]
    omega
  | .message type, nesting, msg, inp => by
    have hpaid := MessageType.nested_paid type.switch_paid (nesting - 1) inp
    show type.weight _ + _ ≤ type.weight msg + _ + 1
    simp only [FieldKind.unmarshal]
    omega
  | .repeated type, nesting, vec, inp => by
    have hpaid := MessageType.nested_paid type.switch_paid (nesting - 1) inp
    simp only [FieldKind.unmarshal, FieldKind.weight, List.map_append, List.sum_append,
      List.map_cons, List.map_nil, List.sum_cons, List.sum_nil]
    omega

theorem MessageType.switch_paid :
    ∀ (T : MessageType) (nesting : Int), (T.switch V nesting).Paid T.weight
  | .empty, _, _, _, _, _, h => by cases h
  | .field number kind rest, nesting, fieldNum, (val, msg), inp, next, h => by
    simp only [MessageType.switch] at h
    split at h
    · cases h
      have hpaid := kind.paid nesting val inp
      simp only [MessageType.weight]
      omega
    · obtain ⟨next', hnext', rfl⟩ := Option.map_eq_some_iff.mp h
      have hpaid := rest.switch_paid nesting fieldNum msg inp next' hnext'
      simp only [MessageType.weight]
      omega

end

/-- Whatever the stream says, and whether or not it is accepted: the bytes that have been filled
in of the strings and the elements of the vectors in the message that `unmarshal` returns, at
every level, and the bytes that it leaves are together no more than the bytes that there were. -/
theorem unmarshal_paid (V : Varint) (T : MessageType) (inp : In) (nesting : Int) :
    T.weight (unmarshal V T inp nesting).1 + (unmarshal V T inp nesting).2.unread.length ≤
      inp.unread.length :=
  MessageType.nested_paid T.switch_paid nesting inp

end SerialRpc
