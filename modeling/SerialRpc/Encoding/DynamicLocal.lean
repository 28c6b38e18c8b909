import SerialRpc.Encoding.Interop
import SerialRpc.Encoding.Local

/-!
# What the command-line client's decoder looks at (call.cc:161-255)

The client decodes a reply off the stream that the next message stands behind, so its decoder
has to stop where the reply ends. The loop of `unmarshal_message` looks at the error behind
every field. So it takes its own bytes and looks at nothing behind them, as the generated
decoders do, if baselib's `io::Reader::skip` does.

- `Switch.Local`: what a `switch` does with a field takes what it reads.
- `cliUnmarshal_local`: the whole decoder.
-/

namespace SerialRpc

open ByteStream

variable {V : Varint} {readerSkip : Int → Read (List UInt8)}

theorem unmarshalStr_local (hV : V.Local) (hskip : ∀ n, (readerSkip n).Local) :
    Reader.Local (unmarshalStr V readerSkip) := by
  -- The data, and the check of its length.
  have hdata : ∀ n : Int, Reader.Local fun inp : In =>
      let s := inp.read (readerSkip n) Err.baselib
      if s.2.err.isSome then ([], s.2)
      else if (s.1.length : Int) ≠ n then (s.1, s.2.report (.text "str unmarhsal short read"))
      else s := by
    intro n
    refine Reader.Local.bind (f := fun inp : In => inp.read (readerSkip n) Err.baselib)
      (g := fun s inp =>
        if inp.err.isSome then ([], inp)
        else if (s.length : Int) ≠ n then (s, inp.report (.text "str unmarhsal short read"))
        else (s, inp))
      (.read (hskip n) _) (fun s => .checked _ ?_) fun s => .checked _ _
    by_cases hlength : (s.length : Int) ≠ n
    · simp only [hlength, ne_eq, not_false_eq_true, if_true]
      exact .report _ _
    · simp only [hlength, if_false]
      exact .pure _
  exact Reader.Local.bind (f := fun inp => inp.read V.readUnsigned Err.baselib)
    (.read hV.unsigned _) (fun n => .checked _ (hdata n)) fun n => .checked _ _

theorem CppType.unmarshal_local (hV : V.Local) (hskip : ∀ n, (readerSkip n).Local)
    (c : CppType) : Reader.Local (c.unmarshal V readerSkip) := by
  cases c with
  | int32 => exact .read hV.sint32 _
  | int64 => exact .read hV.sint64 _
  | uint32 => exact .read hV.uint32 _
  | uint64 => exact .read hV.uint64 _
  | double => exact StorageType.float64.unmarshal_local hV
  | float => exact StorageType.float32.unmarshal_local hV
  | bool => exact unmarshalBool_local
  | enum => exact .read hV.sint32 _
  | string => exact unmarshalStr_local hV hskip

/-- A `switch` has no case for a field, or reads it, and takes what it reads. -/
def Switch.Local {α : Type} (switch : Switch α) : Prop :=
  ∀ fieldNum msg, (∀ inp, switch fieldNum msg inp = none) ∨
    ∃ f, Reader.Local f ∧ ∀ inp, switch fieldNum msg inp = some (f inp)

section Loop

variable {α : Type} {switch : Switch α}

theorem dynamicField_local (hV : V.Local) (hs : switch.Local) (nesting : Int) (tag : Tag)
    (msg : α) : Reader.Local (Reader.round (dynamicField V switch nesting tag) msg) := by
  obtain hnone | ⟨f, hf, hsome⟩ := hs tag.fieldNum msg
  · have hround : Reader.round (dynamicField V switch nesting tag) msg = fun inp =>
        (((skipping (skip V tag.type nesting) inp).2.err.isNone, msg),
          (skipping (skip V tag.type nesting) inp).2) := by
      funext inp
      simp only [Reader.round, dynamicField, hnone, skipping]
    rw [hround]
    exact ((skip_local hV tag.type nesting).map fun _ => msg).goOn
  · have hround : Reader.round (dynamicField V switch nesting tag) msg = fun inp =>
        (((f inp).2.err.isNone, (f inp).1), (f inp).2) := by
      funext inp
      simp only [Reader.round, dynamicField, hsome]
    rw [hround]
    exact hf.goOn

theorem unmarshalInto_local (hV : V.Local) (hs : switch.Local) (hconsumes : switch.Consumes)
    (nesting : Int) (msg : α) :
    Reader.Local (unmarshalInto V switch nesting msg) := by
  by_cases hnesting : nesting < 0
  · have hrefuse : unmarshalInto V switch nesting msg = fun inp : In =>
        (msg, inp.report (.text "serialrpc: excessive message nesting")) :=
      funext fun inp => if_pos hnesting
    rw [hrefuse]
    exact .report _ _
  · have hloop : unmarshalInto V switch nesting msg =
        Reader.loop (tagRound V (dynamicField V switch nesting)) msg :=
      funext fun inp => if_neg hnesting
    rw [hloop]
    exact Reader.Local.loop (tagRound_productive (dynamicField_consuming hconsumes nesting))
      tagRound_sticky (tagRound_local hV fun tag => dynamicField_local hV hs nesting tag) msg

end Loop

mutual

theorem FieldKind.unmarshalDynamic_local (hV : V.Local) (hskip : ∀ n, (readerSkip n).Local) :
    ∀ (k : FieldKind) (nesting : Int) (val : k.Dynamic),
      Reader.Local (k.unmarshalDynamic V readerSkip nesting val)
  | .scalar type, _, _ => type.cppType.unmarshal_local hV hskip
  | .message type, nesting, msg =>
    (unmarshalInto_local hV (type.dynamicSwitch_local hV hskip (nesting - 1))
      (type.dynamicSwitch_consumes (nesting - 1)) (nesting - 1)
      (msg.getD type.dynamicDefault)).map some
  | .repeated type, nesting, vec =>
    (unmarshalInto_local hV (type.dynamicSwitch_local hV hskip (nesting - 1))
      (type.dynamicSwitch_consumes (nesting - 1)) (nesting - 1) type.dynamicDefault).map
      fun value => vec ++ [value]

theorem MessageType.dynamicSwitch_local (hV : V.Local) (hskip : ∀ n, (readerSkip n).Local) :
    ∀ (T : MessageType) (nesting : Int), (T.dynamicSwitch V readerSkip nesting).Local
  | .empty, _, _, _ => .inl fun _ => rfl
  | .field number kind rest, nesting, fieldNum, (val, msg) => by
    by_cases hnumber : fieldNum = number
    · refine .inr ⟨_, (kind.unmarshalDynamic_local hV hskip nesting val).map fun v => (v, msg),
        fun inp => ?_⟩
      rw [MessageType.dynamicSwitch, if_pos hnumber]
    · obtain hnone | ⟨f, hf, hsome⟩ := rest.dynamicSwitch_local hV hskip nesting fieldNum msg
      · refine .inl fun inp => ?_
        rw [MessageType.dynamicSwitch, if_neg hnumber, hnone, Option.map_none]
      · refine .inr ⟨_, hf.map fun m => (val, m), fun inp => ?_⟩
        rw [MessageType.dynamicSwitch, if_neg hnumber, hsome, Option.map_some]

end

/-- The client's decoder looks at nothing behind the message that it reads. -/
theorem cliUnmarshal_local (hV : V.Local) (hskip : ∀ n, (readerSkip n).Local) (T : MessageType)
    (msg : T.Dynamic) : Reader.Local (cliUnmarshal V readerSkip T msg) :=
  unmarshalInto_local hV (T.dynamicSwitch_local hV hskip MaxNesting)
    (T.dynamicSwitch_consumes MaxNesting) MaxNesting msg

end SerialRpc
