import Mathlib.Data.List.Infix

/-!
# Byte streams read under a sticky error

A library for programs that read a byte stream through a *reported* error: a
failing read does not throw, it calls an error reporter and returns, and the
caller finds out by testing the reporter. Two things follow that an exception
monad would hide: a caller that forgets to test goes on reading, and the error,
once reported, is never taken back.

- `Read α`: one read, as a function of the bytes still unread. It may fail, and
  it never puts bytes back: what it leaves unread is a suffix of what it was
  given (`Read.rest_suffix`, carried as a field).
- `Reader ε`: the stream together with the first error reported on it. The
  counter `lateReads` is a ghost: it counts the reads made after an error had
  been reported, so that "no read after an error" can be stated.
- `Reader.read` runs a `Read` on a `Reader`; `Reader.report` reports an error
  without reading.
- `Writer ε`: the other direction, a sink with the first error reported on it. A
  sink may stop taking bytes at any point.
-/

namespace ByteStream

universe u v

/-- What one read did: the value it returned, the bytes it left unread, and
whether it reported an error. A failing read still returns a value. -/
structure ReadResult (α : Type u) where
  value : α
  rest : List UInt8
  failed : Bool
deriving DecidableEq

/-- A read: a function of the unread bytes that never puts bytes back. -/
structure Read (α : Type u) where
  run : List UInt8 → ReadResult α
  /-- What is left unread is a suffix of what was there. -/
  rest_suffix : ∀ bs, (run bs).rest <:+ bs

namespace Read

/-- A successful read of `v` off the front of the stream. -/
def Reads {α : Type u} (p : Read α) (written : List UInt8) (v : α) : Prop :=
  ∀ rest, p.run (written ++ rest) = ⟨v, rest, false⟩

/-- One byte; an error at the end of the stream. -/
def byte : Read UInt8 where
  run
    | [] => ⟨0, [], true⟩
    | b :: bs => ⟨b, bs, false⟩
  rest_suffix
    | [] => List.suffix_refl []
    | b :: bs => List.suffix_cons b bs

/-- Exactly `n` bytes; an error, with the stream used up, when there are fewer. -/
def full (n : Nat) : Read (List UInt8) where
  run bs := if n ≤ bs.length then ⟨bs.take n, bs.drop n, false⟩ else ⟨bs, [], true⟩
  rest_suffix bs := by
    split
    · exact List.drop_suffix n bs
    · exact List.nil_suffix

/-- Skip exactly `n` bytes. -/
def discard (n : Nat) : Read Unit where
  run bs := ⟨(), ((full n).run bs).rest, ((full n).run bs).failed⟩
  rest_suffix bs := (full n).rest_suffix bs

theorem byte_reads (b : UInt8) : byte.Reads [b] b := fun _ => rfl

/-- As many bytes are read as there are. -/
theorem full_reads (bs : List UInt8) : (full bs.length).Reads bs bs := by
  intro rest
  simp [full]

/-- No more bytes are read than were asked for, whether or not there are as many. -/
theorem full_length_le (n : Nat) (bs : List UInt8) : ((full n).run bs).value.length ≤ n := by
  by_cases h : n ≤ bs.length
  · simp [full, h]
  · simp only [full, h, if_false]
    exact (Nat.not_le.mp h).le

theorem discard_reads (bs : List UInt8) : (discard bs.length).Reads bs () := by
  intro rest
  simp [discard, full_reads bs rest]

end Read

/-- A byte stream and the first error reported on it. -/
structure Reader (ε : Type v) where
  unread : List UInt8
  err : Option ε := none
  /-- Ghost: the reads made after an error had been reported. -/
  lateReads : Nat := 0

namespace Reader

variable {α : Type u} {ε : Type v}

/-- A stream on which nothing has gone wrong. -/
def ofBytes (bs : List UInt8) : Reader ε := { unread := bs }

@[simp] theorem unread_ofBytes (bs : List UInt8) : (ofBytes bs : Reader ε).unread = bs := rfl

@[simp] theorem err_ofBytes (bs : List UInt8) : (ofBytes bs : Reader ε).err = none := rfl

/-- Report `e`. The first error stays. -/
def report (e : ε) (r : Reader ε) : Reader ε :=
  { r with err := r.err.or (some e) }

/-- Run a read on the stream; a failure is reported as `e`. -/
def read (p : Read α) (e : ε) (r : Reader ε) : α × Reader ε :=
  let res := p.run r.unread
  (res.value,
    { unread := res.rest
      err := if res.failed then r.err.or (some e) else r.err
      lateReads := if r.err.isSome then r.lateReads + 1 else r.lateReads })

@[simp] theorem report_unread (e : ε) (r : Reader ε) : (r.report e).unread = r.unread := rfl

/-- A report leaves an error. -/
theorem report_err_ne_none (e : ε) (r : Reader ε) : (r.report e).err ≠ none := by
  simp [report]

/-- Reading never lengthens the stream. -/
theorem read_unread_suffix (p : Read α) (e : ε) (r : Reader ε) :
    (r.read p e).2.unread <:+ r.unread :=
  p.rest_suffix r.unread

/-- Reading leaves no more than there was. -/
theorem read_unread_length_le (p : Read α) (e : ε) (r : Reader ε) :
    (r.read p e).2.unread.length ≤ r.unread.length :=
  (read_unread_suffix p e r).length_le

/-- An error, once reported, stays. -/
theorem read_err_of_err (p : Read α) (e : ε) {r : Reader ε} (h : r.err ≠ none) :
    (r.read p e).2.err = r.err := by
  obtain ⟨x, hx⟩ := Option.ne_none_iff_exists'.mp h
  simp [read, hx]

/-- Reading what was written, with nothing reported before: the value comes
back, the rest stays unread, and no error is reported. -/
theorem read_ofBytes {p : Read α} {written : List UInt8} {v : α} (h : p.Reads written v)
    (e : ε) (rest : List UInt8) :
    (ofBytes (written ++ rest) : Reader ε).read p e = (v, ofBytes rest) := by
  simp [read, ofBytes, h rest]

/-- A byte that was read is gone from the stream. -/
theorem readByte_shortens {e : ε} {r : Reader ε} (h : (r.read Read.byte e).2.err = none) :
    (r.read Read.byte e).2.unread.length < r.unread.length := by
  obtain ⟨unread, err, lateReads⟩ := r
  cases unread with
  | nil => simp [read, Read.byte] at h
  | cons b bs => exact Nat.lt_succ_self _

/-- A read that does not fail, with nothing reported before. -/
theorem read_run {p : Read α} {bs : List UInt8} (h : (p.run bs).failed = false) (e : ε) :
    (ofBytes bs : Reader ε).read p e = ((p.run bs).value, ofBytes (p.run bs).rest) := by
  simp [read, ofBytes, h]

end Reader

/-- A byte sink and the first error reported on it. -/
structure Writer (ε : Type v) where
  written : List UInt8 := []
  /-- How many more bytes the sink takes; `none` when its writes always succeed. -/
  room : Option Nat := none
  err : Option ε := none

namespace Writer

variable {ε : Type v}

/-- Write `bs`. A sink with too little room takes what fits and reports `e`. -/
def write (bs : List UInt8) (e : ε) (w : Writer ε) : Writer ε :=
  match w.room with
  | none => { w with written := w.written ++ bs }
  | some n =>
    if bs.length ≤ n then
      { w with written := w.written ++ bs, room := some (n - bs.length) }
    else
      { written := w.written ++ bs.take n, room := some 0, err := w.err.or (some e) }

/-- Nothing was reported, and writes will not fail. -/
structure Open (w : Writer ε) : Prop where
  err : w.err = none
  room : w.room = none

/-- Put `bs` behind what was written. -/
def append (bs : List UInt8) (w : Writer ε) : Writer ε :=
  { w with written := w.written ++ bs }

@[simp] theorem append_err (bs : List UInt8) (w : Writer ε) : (w.append bs).err = w.err := rfl

@[simp] theorem append_nil (w : Writer ε) : w.append [] = w := by
  simp [append]

@[simp] theorem append_append (as bs : List UInt8) (w : Writer ε) :
    (w.append as).append bs = w.append (as ++ bs) := by
  simp [append]

/-- An open writer stays open. -/
theorem Open.append {w : Writer ε} (h : w.Open) (bs : List UInt8) : (w.append bs).Open :=
  ⟨h.err, h.room⟩

/-- A sink whose writes succeed takes everything. -/
theorem Open.write {w : Writer ε} (h : w.Open) (bs : List UInt8) (e : ε) :
    w.write bs e = w.append bs := by
  simp [Writer.write, h.room, Writer.append]

/-- What is written to it goes behind what was. -/
theorem Open.write_append {w : Writer ε} (h : w.Open) (as bs : List UInt8) (e : ε) :
    (w.append as).write bs e = w.append (as ++ bs) := by
  rw [(h.append as).write, append_append]

end Writer

end ByteStream
