import Mathlib.Logic.Basic
import MiniMask.Lib.Transition

/-!
# The client's bridge (`client.rs`, `copy_bidirectional_idle`)

One loop copies in both directions between the yamux stream `a` and the connection
`b` to the local service. It waits in a `select!` for a chunk from either side or
for a timer, which starts over in every round, and writes the chunk to the other
side with `write_all` before it waits again: while it writes it reads nothing and no
timer runs.

`Bridge.Step` is the loop alone, with what it takes from and gives to the two sides
as its labels. The modules that use it say what the two sides do. The `select!` is
biased, but what has arrived at the moment of a poll is not part of the model, so
either read may be the next.
-/

namespace MiniMask

/-- `a` is the yamux stream, `b` the connection to the local service. -/
inductive Side
  | a
  | b
deriving DecidableEq, Repr

def Side.other : Side → Side
  | .a => .b
  | .b => .a

@[simp] theorem Side.other_inj {x y : Side} : x.other = y.other ↔ x = y := by
  cases x <;> cases y <;> simp [Side.other]

theorem Side.eq_other {x y : Side} (h : y ≠ x) : y = x.other := by
  cases x <;> cases y <;> first | rfl | exact absurd rfl h

/-- `std::io::Error`: the one the loop makes itself, or one of a read or a write. -/
inductive IoError
  | timedOut
  | other
deriving DecidableEq, Repr

namespace Bridge

/-- The size of `a_buf` and of `b_buf`. -/
def bufSize : Nat := 16384

/-- In the `select!` whose `sleep` started at `since`; in `write_all` of the first `n`
bytes of the buffer of `x`, of which `off` are written; or returned. -/
inductive Phase
  | selecting (since : Nat)
  | writing (x : Side) (n off : Nat)
  | returned (r : Except IoError (Nat × Nat))

end Bridge

/-- The local variables. `buf .a` is `a_buf` and `copied .a` is `a_to_b`. -/
structure Bridge where
  buf : Side → List UInt8
  copied : Side → Nat
  phase : Bridge.Phase

namespace Bridge

/-- What the loop does next: a read of a chunk, of nothing or with an error on side
`x`, a write of some bytes or with an error to side `x`, or the timer. -/
inductive Act
  | read (x : Side) (bytes : List UInt8)
  | eof (x : Side)
  | readFails (x : Side)
  | write (x : Side) (bytes : List UInt8)
  | writeFails (x : Side)
  | timeout
deriving DecidableEq, Repr

def init (now : Nat) : Bridge where
  buf := fun _ => List.replicate bufSize 0
  copied := fun _ => 0
  phase := .selecting now

/-- A read of `bytes` into a buffer, which keeps what was behind them. -/
def fill (buf bytes : List UInt8) : List UInt8 := bytes ++ buf.drop bytes.length

/-- The chunk is in the buffer of `x`, and `write_all` begins. -/
def readChunk (s : Bridge) (x : Side) (bytes : List UInt8) : Bridge :=
  { s with
    buf := fun y => if y = x then fill (s.buf y) bytes else s.buf y
    phase := .writing x bytes.length 0 }

/-- The next `k` bytes of `&buf[..n]`. -/
def slice (s : Bridge) (x : Side) (n off k : Nat) : List UInt8 :=
  (((s.buf x).take n).drop off).take k

/-- `write_all` is done: the chunk is counted and the `select!` is entered again. -/
def wroteChunk (s : Bridge) (x : Side) (n now : Nat) : Bridge :=
  { s with
    copied := fun y => if y = x then s.copied y + n else s.copied y
    phase := .selecting now }

def finish (s : Bridge) (r : Except IoError (Nat × Nat)) : Bridge := { s with phase := .returned r }

/-- One step of the loop at the time `now`. The timer may fire from its deadline on. -/
inductive Step (idle now : Nat) (s : Bridge) : Act → Bridge → Prop
  | read {since : Nat} {x : Side} {bytes : List UInt8} :
      s.phase = .selecting since → bytes ≠ [] → bytes.length ≤ bufSize →
      Step idle now s (.read x bytes) (s.readChunk x bytes)
  | eof {since : Nat} {x : Side} :
      s.phase = .selecting since →
      Step idle now s (.eof x) (s.finish (.ok (s.copied .a, s.copied .b)))
  | readFails {since : Nat} {x : Side} :
      s.phase = .selecting since → Step idle now s (.readFails x) (s.finish (.error .other))
  | writePart {x : Side} {n off k : Nat} :
      s.phase = .writing x n off → 0 < k → off + k < n →
      Step idle now s (.write x.other (s.slice x n off k))
        { s with phase := .writing x n (off + k) }
  | writeRest {x : Side} {n off k : Nat} :
      s.phase = .writing x n off → 0 < k → off + k = n →
      Step idle now s (.write x.other (s.slice x n off k)) (s.wroteChunk x n now)
  | writeFails {x : Side} {n off : Nat} :
      s.phase = .writing x n off →
      Step idle now s (.writeFails x.other) (s.finish (.error .other))
  | timeout {since : Nat} :
      s.phase = .selecting since → since + idle ≤ now →
      Step idle now s .timeout (s.finish (.error .timedOut))

def Returned (s : Bridge) : Prop := ∃ r, s.phase = .returned r

/-! ## What goes through -/

/-- The bytes that were read from `x` and are not written yet. -/
def pending (s : Bridge) (x : Side) : List UInt8 :=
  match s.phase with
  | .writing y n off => if y = x then ((s.buf x).take n).drop off else []
  | _ => []

/-- The bytes that the action takes from `x`. -/
def Act.taken (x : Side) : Act → List UInt8
  | .read y bytes => if y = x then bytes else []
  | _ => []

/-- The bytes that the action gives to `x`. -/
def Act.given (x : Side) : Act → List UInt8
  | .write y bytes => if y = x then bytes else []
  | _ => []

/-- The size of the chunk of `x` that is being written. -/
def chunk (s : Bridge) (x : Side) : Nat :=
  match s.phase with
  | .writing y n _ => if y = x then n else 0
  | _ => 0

section Flow

variable {idle now : Nat} {s t : Bridge} {e : Act}

theorem slice_append_drop (s : Bridge) (x : Side) (n off k : Nat) :
    s.slice x n off k ++ ((s.buf x).take n).drop (off + k) = ((s.buf x).take n).drop off := by
  rw [slice, ← List.drop_drop, List.take_append_drop]

/-- Unless a write fails, a step passes the bytes on in order and keeps the rest. -/
theorem pending_step (hs : Step idle now s e t) (hok : ∀ y, e ≠ .writeFails y) (x : Side) :
    s.pending x ++ e.taken x = e.given x.other ++ t.pending x := by
  cases hs with
  | @read since y bytes hphase _ _ =>
    rcases eq_or_ne y x with rfl | hne
    · simp [Act.taken, Act.given, pending, hphase, readChunk, fill]
    · simp [Act.taken, Act.given, pending, hphase, readChunk, hne]
  | @writePart y n off k hphase _ _ =>
    rcases eq_or_ne y x with rfl | hne
    · simp [Act.taken, Act.given, pending, hphase, slice_append_drop]
    · simp [Act.taken, Act.given, pending, hphase, hne]
  | @writeRest y n off k hphase _ hrest =>
    have hall : s.slice y n off k = ((s.buf y).take n).drop off :=
      List.take_of_length_le (by rw [List.length_drop, List.length_take]; omega)
    rcases eq_or_ne y x with rfl | hne
    · simp [Act.taken, Act.given, pending, hphase, wroteChunk, hall]
    · simp [Act.taken, Act.given, pending, hphase, wroteChunk, hne]
  | eof hphase => simp [Act.taken, Act.given, pending, hphase, finish]
  | readFails hphase => simp [Act.taken, Act.given, pending, hphase, finish]
  | timeout hphase _ => simp [Act.taken, Act.given, pending, hphase, finish]
  | writeFails _ => exact absurd rfl (hok _)

/-- A write that fails loses what was still to be written and passes nothing on. -/
theorem pending_prefix (hs : Step idle now s e t) (x : Side) :
    e.given x.other ++ t.pending x <+: s.pending x ++ e.taken x := by
  by_cases hok : ∀ y, e ≠ .writeFails y
  · exact ⟨[], by rw [List.append_nil, pending_step hs hok x]⟩
  · obtain ⟨y, hy⟩ := not_forall_not.mp hok
    subst hy
    cases hs with
    | writeFails _ => exact List.nil_prefix

/-- Unless a write fails, a chunk is counted once it is written. -/
theorem copied_step (hs : Step idle now s e t) (hok : ∀ y, e ≠ .writeFails y) (x : Side) :
    t.copied x + t.chunk x = s.copied x + s.chunk x + (e.taken x).length := by
  cases hs with
  | @read since y bytes hphase _ _ =>
    rcases eq_or_ne y x with rfl | hne
    · simp [Act.taken, chunk, hphase, readChunk]
    · simp [Act.taken, chunk, hphase, readChunk, hne]
  | writePart hphase _ _ => simp [Act.taken, chunk, hphase]
  | @writeRest y n off k hphase _ _ =>
    rcases eq_or_ne y x with rfl | hne
    · simp [Act.taken, chunk, hphase, wroteChunk]
    · simp [Act.taken, chunk, hphase, wroteChunk, hne, hne.symm]
  | eof hphase => simp [Act.taken, chunk, hphase, finish]
  | readFails hphase => simp [Act.taken, chunk, hphase, finish]
  | timeout hphase _ => simp [Act.taken, chunk, hphase, finish]
  | writeFails _ => exact absurd rfl (hok _)

/-- What is being written is in the buffer, and some of it is left. -/
def Sound (s : Bridge) : Prop :=
  ∀ x n off, s.phase = .writing x n off → off < n ∧ n ≤ (s.buf x).length

theorem sound_step (h : Sound s) (hs : Step idle now s e t) : Sound t := by
  intro x n off hwriting
  cases hs with
  | @read since y bytes _ hne _ =>
    cases hwriting
    refine ⟨List.length_pos_iff.mpr hne, ?_⟩
    simp [readChunk, fill]
  | writePart hphase _ hrest =>
    cases hwriting
    exact ⟨hrest, (h _ _ _ hphase).2⟩
  | writeRest _ _ _ => cases hwriting
  | eof _ => cases hwriting
  | readFails _ => cases hwriting
  | timeout _ _ => cases hwriting
  | writeFails _ => cases hwriting

theorem Sound.length_slice (h : Sound s) {x : Side} {n off k : Nat}
    (hphase : s.phase = .writing x n off) (hle : off + k ≤ n) : (s.slice x n off k).length = k := by
  obtain ⟨_, hbuf⟩ := h x n off hphase
  simp only [slice, List.length_take, List.length_drop]
  omega

end Flow

end Bridge

end MiniMask
