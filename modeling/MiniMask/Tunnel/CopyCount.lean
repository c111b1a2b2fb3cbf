import MiniMask.Client.Bridge
import MiniMask.Tunnel.Proxy

/-!
# The bytes of a copy loop (`tunnel/proxy.rs`, `copy_count`)

`CopyCount.Step` is one `copy_count` with what it reads and writes as its labels: a
timed read into a buffer, `write_all` of the chunk, a flush, and the chunk is counted.
`Proxy` has the timers of the two loops of a connection. Here a timer may fire whenever
its read has not returned.
-/

namespace MiniMask

namespace CopyCount

/-- In the timed read; in `write_all` of the first `n` bytes of `buf`, of which `off` are
written; in `flush`, with `n` bytes to count; or returned. -/
inductive Phase
  | reading
  | writing (n off : Nat)
  | flushing (n : Nat)
  | returned (r : Except IoError Nat)

end CopyCount

/-- The local variables. -/
structure CopyCount where
  buf : List UInt8
  total : Nat
  phase : CopyCount.Phase

namespace CopyCount

/-- What the loop does next. `flush n` ends with `fetch_add` of `n` to the counter. -/
inductive Act
  | read (bytes : List UInt8)
  | eof
  | readFails
  | timeout
  | write (bytes : List UInt8)
  | writeFails
  | flush (n : Nat)
  | flushFails
deriving DecidableEq, Repr

def init : CopyCount := { buf := List.replicate Proxy.bufSize 0, total := 0, phase := .reading }

/-- The chunk is in the buffer, which keeps what was behind it. -/
def readChunk (s : CopyCount) (bytes : List UInt8) : CopyCount :=
  { s with buf := bytes ++ s.buf.drop bytes.length, phase := .writing bytes.length 0 }

/-- The next `k` bytes of `&buf[..n]`. -/
def slice (s : CopyCount) (n off k : Nat) : List UInt8 := ((s.buf.take n).drop off).take k

def finish (s : CopyCount) (r : Except IoError Nat) : CopyCount := { s with phase := .returned r }

inductive Step (s : CopyCount) : Act → CopyCount → Prop
  | read {bytes : List UInt8} :
      s.phase = .reading → bytes ≠ [] → bytes.length ≤ Proxy.bufSize →
      Step s (.read bytes) (s.readChunk bytes)
  | eof : s.phase = .reading → Step s .eof (s.finish (.ok s.total))
  | readFails : s.phase = .reading → Step s .readFails (s.finish (.error .other))
  | timeout : s.phase = .reading → Step s .timeout (s.finish (.error .timedOut))
  | writePart {n off k : Nat} :
      s.phase = .writing n off → 0 < k → off + k < n →
      Step s (.write (s.slice n off k)) { s with phase := .writing n (off + k) }
  | writeRest {n off k : Nat} :
      s.phase = .writing n off → 0 < k → off + k = n →
      Step s (.write (s.slice n off k)) { s with phase := .flushing n }
  | writeFails {n off : Nat} :
      s.phase = .writing n off → Step s .writeFails (s.finish (.error .other))
  | flush {n : Nat} :
      s.phase = .flushing n → Step s (.flush n) { s with total := s.total + n, phase := .reading }
  | flushFails {n : Nat} :
      s.phase = .flushing n → Step s .flushFails (s.finish (.error .other))

/-! ## What goes through -/

/-- The bytes that were read and are not written yet. -/
def pending (s : CopyCount) : List UInt8 :=
  match s.phase with
  | .writing n off => (s.buf.take n).drop off
  | _ => []

def Act.taken : Act → List UInt8
  | .read bytes => bytes
  | _ => []

def Act.given : Act → List UInt8
  | .write bytes => bytes
  | _ => []

variable {s t : CopyCount} {a : Act}

theorem slice_append_drop (s : CopyCount) (n off k : Nat) :
    s.slice n off k ++ (s.buf.take n).drop (off + k) = (s.buf.take n).drop off := by
  rw [slice, ← List.drop_drop, List.take_append_drop]

/-- Unless a write fails, a step passes the bytes on in order and keeps the rest. -/
theorem pending_step (hs : Step s a t) (hok : a ≠ .writeFails) :
    s.pending ++ a.taken = a.given ++ t.pending := by
  cases hs with
  | read hphase _ _ => simp [Act.taken, Act.given, pending, hphase, readChunk]
  | @writePart n off k hphase _ _ =>
    simp [Act.taken, Act.given, pending, hphase, slice_append_drop]
  | @writeRest n off k hphase _ hrest =>
    have hall : s.slice n off k = (s.buf.take n).drop off :=
      List.take_of_length_le (by rw [List.length_drop, List.length_take]; omega)
    simp [Act.taken, Act.given, pending, hphase, hall]
  | eof hphase => simp [Act.taken, Act.given, pending, hphase, finish]
  | readFails hphase => simp [Act.taken, Act.given, pending, hphase, finish]
  | timeout hphase => simp [Act.taken, Act.given, pending, hphase, finish]
  | flush hphase => simp [Act.taken, Act.given, pending, hphase]
  | flushFails hphase => simp [Act.taken, Act.given, pending, hphase, finish]
  | writeFails _ => exact absurd rfl hok

/-- A step passes on nothing but what was read, in order. -/
theorem given_prefix (hs : Step s a t) : a.given <+: s.pending ++ a.taken := by
  by_cases hok : a = .writeFails
  · rw [hok]
    exact List.nil_prefix
  · rw [pending_step hs hok]
    exact List.prefix_append _ _

/-- A write that fails ends the loop. -/
theorem returned_of_writeFails (hs : Step s .writeFails t) : ∃ r, t.phase = .returned r := by
  cases hs with
  | writeFails _ => exact ⟨_, rfl⟩

end CopyCount

end MiniMask
