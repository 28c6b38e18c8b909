import SerialRpc.Client.Input
import SerialRpc.Service.Dispatch

/-!
# Chunked text (encoding_impl.cc:339-389)

The text of an error goes out as the formatter writes it, piece by piece, each with its
length before it, and a zero length ends it. The writer does not look whether a piece is
empty.

- `writeChunked`: the writer's side, over a sink that may fail; what it puts into an open
  one is `Conn.writeChunked`.
- `chunks_read`, `chunks_cut`: the reader takes pieces that are not empty, and stops at the
  first empty one.
- `chunked_round_trip_iff`: a text comes back exactly if no piece of it is empty.
- `error_reply_text`: the failed call is given the text that the server's handler reported.
-/

namespace SerialRpc.Client

open ByteStream

/-! ## Writing -/

section Write

variable (V : Varint)

/-- The adaptor's `direct_write` (encoding_impl.cc:346-353). -/
def directWrite (out : Writer Err) (data : Str) : Writer Err :=
  let out := out.write (V.writeUint32 (UInt32.ofNat data.length)) .baselib
  if out.err.isSome then out else out.write data .baselib

/-- `write_chunked` (encoding_impl.cc:339-361) of a text that writes itself in some pieces. -/
def writeChunked (pieces : List Str) (out : Writer Err) : Writer Err :=
  let out := pieces.foldl (directWrite V) out
  if out.err.isSome then out else out.write [0] .baselib

end Write

section Chunks

variable {V : Varint}

/-- A piece behind its length. -/
def chunkBytes (V : Varint) (piece : Str) : List UInt8 :=
  V.writeUint32 (UInt32.ofNat piece.length) ++ piece

theorem writeChunked_eq_flatMap (pieces : List Str) :
    Conn.writeChunked V pieces = pieces.flatMap (chunkBytes V) ++ [0] := rfl

theorem foldl_directWrite_open (pieces : List Str) {out : Writer Err} (h : out.Open) :
    pieces.foldl (directWrite V) out = out.append (pieces.flatMap (chunkBytes V)) := by
  induction pieces generalizing out with
  | nil => exact out.append_nil.symm
  | cons piece pieces ih =>
    have hpiece : directWrite V out piece = out.append (chunkBytes V piece) := by
      simp only [directWrite, h.write, h.write_append, Writer.append_err, h.err,
        Option.isSome_none, Bool.false_eq_true, if_false]
      rfl
    rw [List.foldl_cons, hpiece, ih (h.append _), Writer.append_append, List.flatMap_cons]

/-- What `write_chunked` puts into a sink whose writes succeed. -/
theorem writeChunked_open (pieces : List Str) {out : Writer Err} (h : out.Open) :
    writeChunked V pieces out = out.append (Conn.writeChunked V pieces) := by
  have hpieces := foldl_directWrite_open (V := V) pieces h
  simp only [writeChunked, hpieces, Writer.append_err, h.err, Option.isSome_none,
    Bool.false_eq_true, if_false, h.write_append]
  rfl

/-! ## Reading -/

/-- A round takes a piece that is not empty and fits. -/
theorem chunkRound_chunk (hV : V.Lawful) {s piece : Str} (hne : piece ≠ [])
    (hsize : s.length + piece.length ≤ MaxStringSize) :
    Reader.Takes (Reader.round (chunkRound V) s) (chunkBytes V piece) (true, s ++ piece) := by
  intro rest
  have hlength : (UInt32.ofNat piece.length).toNat = piece.length := by
    have : MaxStringSize < 2 ^ 32 := by decide
    rw [UInt32.toNat_ofNat', Nat.mod_eq_of_lt (by omega)]
  have hnonzero : UInt32.ofNat piece.length ≠ 0 := by
    intro hzero
    rw [hzero] at hlength
    exact hne (List.eq_nil_of_length_eq_zero hlength.symm)
  have hn := Reader.read_ofBytes (hV.uint32 (UInt32.ofNat piece.length)) Err.baselib (piece ++ rest)
  have hdata := Reader.read_ofBytes (Read.full_reads piece) Err.baselib rest
  have hfits : ¬ s.length + piece.length > MaxStringSize := Nat.not_lt.mpr hsize
  simp [Reader.round, chunkRound, chunkBytes, hn, hnonzero, hlength, hfits, hdata, readInto_full]

/-- A round ends the text at a zero length. -/
theorem chunkRound_zero (hV : V.Lawful) (s : Str) :
    Reader.Takes (Reader.round (chunkRound V) s) [0] (false, s) := by
  intro rest
  have hzero := Reader.read_ofBytes (hV.byte (b := 0) (by decide)) Err.baselib rest
  rw [List.singleton_append] at hzero
  simp [Reader.round, chunkRound, hzero]

/-- The loop takes pieces that are not empty. -/
theorem chunks_read (hV : V.Lawful) (pieces : List Str) (hne : [] ∉ pieces) {s : Str}
    (hsize : s.length + pieces.flatten.length ≤ MaxStringSize) (rest : List UInt8) :
    Reader.loop (chunkRound V) s (.ofBytes (pieces.flatMap (chunkBytes V) ++ rest)) =
      Reader.loop (chunkRound V) (s ++ pieces.flatten) (.ofBytes rest) := by
  induction pieces generalizing s with
  | nil => simp
  | cons piece pieces ih =>
    rw [List.mem_cons, not_or] at hne
    rw [List.flatten_cons, List.length_append] at hsize
    have hround := chunkRound_chunk hV (Ne.symm hne.1) (s := s) (by omega)
    have hrest := ih hne.2 (s := s ++ piece) (by rw [List.length_append]; omega)
    rw [List.flatMap_cons, List.append_assoc, hround.step chunkRound_productive, hrest,
      List.flatten_cons, List.append_assoc]

/-- The text ends at the first empty piece, and what was written behind stays. -/
theorem chunks_cut (hV : V.Lawful) (before after : List Str) (hne : [] ∉ before)
    (hsize : before.flatten.length ≤ MaxStringSize) (rest : List UInt8) :
    readChunked V (.ofBytes (Conn.writeChunked V (before ++ [] :: after) ++ rest)) =
      (before.flatten, .ofBytes (Conn.writeChunked V after ++ rest)) := by
  have hempty : chunkBytes V [] = [0] := by
    have hzero := hV.small 0 (by decide)
    rw [chunkBytes, List.append_nil]
    exact hzero
  have hbytes : Conn.writeChunked V (before ++ [] :: after) ++ rest =
      before.flatMap (chunkBytes V) ++ ([0] ++ (Conn.writeChunked V after ++ rest)) := by
    simp only [writeChunked_eq_flatMap, List.flatMap_append, List.flatMap_cons, hempty,
      List.append_assoc]
  have hlast := Reader.Takes.last chunkRound_productive (chunkRound_zero hV before.flatten)
  rw [readChunked, hbytes, chunks_read hV before hne (by simpa using hsize), List.nil_append]
  exact hlast _

/-- A text whose pieces are not empty comes back. -/
theorem readChunked_writeChunked (hV : V.Lawful) (pieces : List Str) (hne : [] ∉ pieces)
    (hsize : pieces.flatten.length ≤ MaxStringSize) (rest : List UInt8) :
    readChunked V (.ofBytes (Conn.writeChunked V pieces ++ rest)) =
      (pieces.flatten, .ofBytes rest) := by
  have hlast := Reader.Takes.last chunkRound_productive (chunkRound_zero hV pieces.flatten)
  rw [readChunked, writeChunked_eq_flatMap, List.append_assoc,
    chunks_read hV pieces hne (by simpa using hsize), List.nil_append]
  exact hlast rest

theorem chunkRound_length_le {s : Str} (hs : s.length ≤ MaxStringSize) (inp : In) :
    (chunkRound V s inp).state.length ≤ MaxStringSize := by
  unfold chunkRound
  dsimp only
  split
  · exact hs
  · split
    · exact hs
    · split
      · exact hs
      · rename_i hsize
        have hdata := Read.full_length_le (inp.read V.readUint32 .baselib).1.toNat
          (inp.read V.readUint32 .baselib).2.unread
        simp only [Reader.read, List.length_append] at hsize hdata ⊢
        rw [readInto_length hdata]
        omega

/-- Whatever it reads, `read_chunked` returns no more than it may. -/
theorem readChunked_length_le (inp : In) : (readChunked V inp).1.length ≤ MaxStringSize :=
  Reader.loop_induct (motive := fun (s : Str) _ => s.length ≤ MaxStringSize)
    (fun _ inp hs => chunkRound_length_le hs inp) [] inp (Nat.zero_le _)

/-- The call whose handler has reported an error is given its text. -/
theorem error_reply_text {ρ : Type} (hV : V.Lawful) {s : Inbox ρ} {decoder : Decoder ρ}
    {calls : List (Decoder ρ)} (hcalls : s.pending.calls = decoder :: calls) {pieces : List Str}
    (hne : [] ∉ pieces) (hsize : pieces.flatten.length ≤ MaxStringSize) (rest : List UInt8) :
    handleChunkedErrorReply V s (.ofBytes (Conn.writeChunked V pieces ++ rest)) =
      ({ s with pending.calls := calls, processed := s.processed ++ [.errorReply pieces.flatten] },
        .ofBytes rest) := by
  have htext := readChunked_writeChunked hV pieces hne hsize rest
  simp only [handleChunkedErrorReply, hcalls, htext, Reader.err_ofBytes, Option.isSome_none,
    Bool.false_eq_true, if_false]

end Chunks

/-- A text of some pieces, which together are no longer than a reader takes, comes back
with the bytes behind it unread if and only if none of the pieces is empty; and on no
input is more returned than `MaxStringSize` bytes. -/
theorem chunked_round_trip_iff {V : Varint} (hV : V.Lawful) {pieces : List Str}
    (hsize : pieces.flatten.length ≤ MaxStringSize) {out : Writer Err} (hopen : out.Open) :
    (∃ bytes, writeChunked V pieces out = out.append bytes ∧
      ((∀ rest, readChunked V (.ofBytes (bytes ++ rest)) = (pieces.flatten, .ofBytes rest)) ↔
        ∀ piece ∈ pieces, piece ≠ [])) ∧
      ∀ inp, (readChunked V inp).1.length ≤ MaxStringSize := by
  refine ⟨⟨_, writeChunked_open pieces hopen, ?_⟩, readChunked_length_le⟩
  constructor
  · intro h piece hpiece hempty
    obtain ⟨before, after, rfl, hne⟩ := List.eq_append_cons_of_mem (hempty ▸ hpiece)
    rw [List.flatten_append, List.length_append] at hsize
    have hcut := chunks_cut hV before after hne (by omega) []
    -- At least the zero that ends the text stays unread.
    have hunread := congrArg (fun x => x.2.unread.length) (hcut.symm.trans (h []))
    simp [writeChunked_eq_flatMap] at hunread
  · intro hall rest
    exact readChunked_writeChunked hV pieces (fun hmem => hall [] hmem rfl) hsize rest

/-- A text in two pieces. -/
theorem chunked_round_trip_pieces :
    (∃ bytes, writeChunked .leb128 [[72], [105, 33]] {} = Writer.append bytes {} ∧
      ((∀ rest, readChunked .leb128 (.ofBytes (bytes ++ rest)) =
          (List.flatten [[72], [105, 33]], .ofBytes rest)) ↔
        ∀ piece ∈ ([[72], [105, 33]] : List Str), piece ≠ [])) ∧
      ∀ inp, (readChunked .leb128 inp).1.length ≤ MaxStringSize :=
  chunked_round_trip_iff Varint.leb128_lawful (by decide) ⟨rfl, rfl⟩

/-- An empty piece cuts the text off, and the rest of it is read as what comes next. -/
theorem chunked_empty_piece :
    writeChunked .leb128 [[72], [], [105]] {} = { written := [1, 72, 0, 1, 105, 0] } ∧
      readChunked .leb128 (.ofBytes [1, 72, 0, 1, 105, 0]) = ([72], .ofBytes [1, 105, 0]) ∧
      readChunked .leb128 (.ofBytes [1, 72, 0, 1, 105, 0]) ≠
        (List.flatten [[72], [], [105]], .ofBytes []) := by
  have hread : readChunked .leb128 (.ofBytes [1, 72, 0, 1, 105, 0]) =
      ([72], .ofBytes [1, 105, 0]) := rfl
  refine ⟨rfl, hread, fun heq => ?_⟩
  have htext : ([72] : Str) = List.flatten [[72], [], [105]] :=
    congrArg Prod.fst (hread.symm.trans heq)
  exact absurd htext (by decide)

end SerialRpc.Client
