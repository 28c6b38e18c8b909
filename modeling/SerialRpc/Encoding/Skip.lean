import SerialRpc.Encoding.Tag

/-!
# Skipping a field (`serialrpc::skip`, encoding_impl.cc:31-85)

`skip` passes over one payload by its wire type alone. A `Start` group is a loop
of tags and payloads up to an `End` tag, each payload skipped with a nesting
budget one smaller; a group met with a negative budget is an error.

The budget is what the recursion is on: `skipGroup level` is the group with
`level - 1` left. `skip_start` is the source's case with the budget as it is
written there.
-/

namespace SerialRpc

open ByteStream

variable (V : Varint)

/-- `skip` of one payload, with `case Tag::Start` as a parameter. -/
def skipPayload (group : In → In) : WireType → In → In
  | .varInt, inp => (inp.read V.skip .baselib).2
  | .i64, inp => (inp.read (Read.discard 8) .baselib).2
  | .len, inp =>
    let n := inp.read V.readUint32 .baselib
    if n.2.err.isSome then n.2 else (n.2.read (Read.discard n.1.toNat) .baselib).2
  | .start, inp => group inp
  | .endTag, inp => inp
  | .i32, inp => (inp.read (Read.discard 4) .baselib).2
  | .unnamed6, inp => inp.report (.text "serialrpc: invalid tag")
  | .unnamed7, inp => inp.report (.text "serialrpc: invalid tag")

/-- A round of the loop of `case Tag::Start`, with `skip` of its payloads as a
parameter. -/
def skipRound (payload : WireType → In → In) : Body Unit Err :=
  tagRound V fun tag _ inp =>
    let after := payload tag.type inp
    ⟨after.err.isNone, (), after⟩

/-- `case Tag::Start` with a nesting budget of `level - 1`. -/
def skipGroup : Nat → In → In
  | 0, inp => inp.report (.text "excessive nesting")
  | level + 1, inp => (Reader.loop (skipRound V (skipPayload V (skipGroup level))) () inp).2

/-- `serialrpc::skip(in, type, err, nesting)`. -/
def skip (type : WireType) (nesting : Int) (inp : In) : In :=
  skipPayload V (skipGroup V (nesting + 1).toNat) type inp

/-- `case Tag::Start` as the source writes it. -/
theorem skip_start (nesting : Int) (inp : In) :
    skip V .start nesting inp =
      if nesting < 0 then inp.report (.text "excessive nesting")
      else (Reader.loop (skipRound V fun type => skip V type (nesting - 1)) () inp).2 := by
  simp only [skip, skipPayload]
  by_cases h : nesting < 0
  · -- No budget: the level is 0.
    have hlevel : (nesting + 1).toNat = 0 := by omega
    rw [if_pos h, hlevel, skipGroup]
  · have hlevel : (nesting + 1).toNat = (nesting - 1 + 1).toNat + 1 := by omega
    rw [if_neg h, hlevel, skipGroup]
    rfl

/-! ## Skipping never lengthens the stream -/

section Suffix

variable {V}

theorem skipPayload_suffix {group : In → In} (hgroup : ∀ inp, (group inp).unread <:+ inp.unread)
    (type : WireType) (inp : In) : (skipPayload V group type inp).unread <:+ inp.unread := by
  cases type with
  | len =>
    simp only [skipPayload]
    split
    · exact Reader.read_unread_suffix _ _ inp
    · exact (Reader.read_unread_suffix _ _ _).trans (Reader.read_unread_suffix _ _ inp)
  | start => exact hgroup inp
  | varInt => exact Reader.read_unread_suffix _ _ inp
  | i64 => exact Reader.read_unread_suffix _ _ inp
  | i32 => exact Reader.read_unread_suffix _ _ inp
  | endTag => exact List.suffix_refl _
  | unnamed6 => exact List.suffix_refl _
  | unnamed7 => exact List.suffix_refl _

theorem skipRound_consuming {payload : WireType → In → In}
    (h : ∀ type inp, (payload type inp).unread <:+ inp.unread) :
    Consuming (skipRound V payload) :=
  tagRound_consuming fun tag _ inp => h tag.type inp

theorem skipGroup_suffix :
    ∀ (level : Nat) (inp : In), (skipGroup V level inp).unread <:+ inp.unread
  | 0, inp => List.suffix_refl inp.unread
  | level + 1, inp =>
    Reader.loop_suffix (skipRound_consuming (skipPayload_suffix (skipGroup_suffix level))) () inp

theorem skip_suffix (type : WireType) (nesting : Int) (inp : In) :
    (skip V type nesting inp).unread <:+ inp.unread :=
  skipPayload_suffix (skipGroup_suffix _) type inp

end Suffix

end SerialRpc
