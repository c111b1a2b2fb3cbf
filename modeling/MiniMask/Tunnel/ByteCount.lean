import Mathlib.Algebra.Order.Ring.Nat
import MiniMask.Lib.Transition
import MiniMask.Tunnel.CopyCount

/-!
# What the copy loops count (`tunnel/proxy.rs`, `state.rs` `Stats`)

Any number of `copy_count` runs share one counter of `Stats`, an `AtomicU64` to which each
of them adds a chunk once it is written and flushed. `CountedRun` is one run together with
what an observer at its `r` and `w` has seen: the chunks that were read, what `w` accepted
of each, and what the run added to the counter. The code keeps none of these.

`bytes_accounted` is the agreement of the two sides: in every state of every interleaving,
what a run has added is what it has delivered, and the counter is the sum over the runs.
-/

namespace MiniMask.CopyCount

open Lts

/-! ## What goes through one run -/

/-- One chunk: what was read, what `w` accepted of it, and whether `flush` returned `Ok`
after it. -/
structure Chunk where
  bytes : List UInt8
  accepted : List UInt8
  flushed : Bool
deriving DecidableEq, Repr

/-- `write_all` and `flush` both succeeded. -/
def Chunk.delivered (c : Chunk) : Bool := c.accepted == c.bytes && c.flushed

/-- The chunks after one more step of their run, newest first. -/
def record : Act → List Chunk → List Chunk
  | .read bytes, cs => { bytes, accepted := [], flushed := false } :: cs
  | .write bytes, c :: cs => { c with accepted := c.accepted ++ bytes } :: cs
  | .flush _, c :: cs => { c with flushed := true } :: cs
  | _, cs => cs

/-- What the step adds to the counter. -/
def Act.counted : Act → Nat
  | .flush n => n
  | _ => 0

end CopyCount

/-- One run, and what was seen of it. `counted` is the sum of what it added to the counter. -/
structure CountedRun where
  loop : CopyCount
  chunks : List CopyCount.Chunk
  counted : Nat
  eof : Bool

namespace CountedRun

open CopyCount

def init : CountedRun := { loop := CopyCount.init, chunks := [], counted := 0, eof := false }

/-- The run after a step that took its loop to `loop`. -/
def after (r : CountedRun) (a : Act) (loop : CopyCount) : CountedRun :=
  { loop
    chunks := record a r.chunks
    counted := r.counted + a.counted
    eof := r.eof || a == .eof }

/-- The bytes read from `r`, in order. -/
def read (r : CountedRun) : List UInt8 := r.chunks.reverse.flatMap Chunk.bytes

/-- The bytes accepted by `w`, in order. -/
def accepted (r : CountedRun) : List UInt8 := r.chunks.reverse.flatMap Chunk.accepted

/-- The sizes of the chunks that were delivered. -/
def deliveredBytes (cs : List Chunk) : Nat :=
  ((cs.filter Chunk.delivered).map fun c => c.bytes.length).sum

/-- What a run owes the counter. -/
structure Accounted (r : CountedRun) : Prop where
  in_order : r.accepted <+: r.read
  delivered : r.counted = deliveredBytes r.chunks
  counted_le : r.counted ≤ r.accepted.length
  accepted_le : r.accepted.length ≤ r.read.length
  read_le : r.read.length ≤ r.counted + Proxy.bufSize
  complete : ∀ t, r.loop.phase = .returned (.ok t) →
    t = r.counted ∧ r.eof = true ∧ r.accepted = r.read ∧ ∀ c ∈ r.chunks, c.delivered = true

/-! ## Chunks that went through -/

theorem delivered_iff {c : Chunk} :
    c.delivered = true ↔ c.accepted = c.bytes ∧ c.flushed = true := by
  simp [Chunk.delivered]

/-- Every chunk was delivered. -/
def Settled (cs : List Chunk) : Prop := ∀ c ∈ cs, c.delivered = true

/-- The newest chunk of the run is on its way: it was not flushed, and all chunks before it
were delivered. -/
structure Open (cs : List Chunk) (c : Chunk) (older : List Chunk) : Prop where
  newest : cs = c :: older
  settled : Settled older
  not_flushed : c.flushed = false
  fits : c.bytes.length ≤ Proxy.bufSize

theorem settled_cons {c : Chunk} {cs : List Chunk} (hc : c.delivered = true) (h : Settled cs) :
    Settled (c :: cs) :=
  List.forall_mem_cons.mpr ⟨hc, h⟩

theorem deliveredBytes_cons (c : Chunk) (cs : List Chunk) :
    deliveredBytes (c :: cs) =
      (if c.delivered then c.bytes.length else 0) + deliveredBytes cs := by
  unfold deliveredBytes
  rw [List.filter_cons]
  split <;> simp

theorem flatMap_reverse_cons {f : Chunk → List UInt8} (c : Chunk) (cs : List Chunk) :
    (c :: cs).reverse.flatMap f = cs.reverse.flatMap f ++ f c := by
  rw [List.reverse_cons, List.flatMap_append, List.flatMap_singleton]

/-- Of delivered chunks, `w` has every byte. -/
theorem accepted_of_settled {cs : List Chunk} (h : Settled cs) :
    cs.reverse.flatMap Chunk.accepted = cs.reverse.flatMap Chunk.bytes := by
  induction cs with
  | nil => rfl
  | cons c cs ih =>
    have hc : c.accepted = c.bytes := (delivered_iff.mp (h c List.mem_cons_self)).1
    rw [flatMap_reverse_cons, flatMap_reverse_cons, hc,
      ih fun d hd => h d (List.mem_cons_of_mem _ hd)]

/-- Of delivered chunks, every byte counts. -/
theorem deliveredBytes_of_settled {cs : List Chunk} (h : Settled cs) :
    deliveredBytes cs = (cs.reverse.flatMap Chunk.bytes).length := by
  induction cs with
  | nil => rfl
  | cons c cs ih =>
    have hc : c.delivered = true := h c List.mem_cons_self
    rw [deliveredBytes_cons, if_pos hc, flatMap_reverse_cons, List.length_append,
      ih fun d hd => h d (List.mem_cons_of_mem _ hd), Nat.add_comm]

/-- A chunk that was not flushed does not count. -/
theorem deliveredBytes_of_not_flushed {c : Chunk} {cs : List Chunk} (hc : c.flushed = false) :
    deliveredBytes (c :: cs) = deliveredBytes cs := by
  have hnot : ¬ c.delivered = true := fun hd =>
    Bool.false_ne_true (hc.symm.trans (delivered_iff.mp hd).2)
  rw [deliveredBytes_cons, if_neg hnot, Nat.zero_add]

/-! ## The invariant of one run -/

/-- Where the chunks of a run are while its loop is in a phase. -/
def Stands (loop : CopyCount) (cs : List Chunk) : Prop :=
  match loop.phase with
  | .reading => Settled cs
  | .writing n _ => ∃ c older, Open cs c older ∧ c.bytes.length = n ∧
      c.accepted ++ loop.pending = c.bytes
  | .flushing n => ∃ c older, Open cs c older ∧ c.bytes.length = n ∧ c.accepted = c.bytes
  | .returned (.ok _) => Settled cs
  | .returned (.error _) => Settled cs ∨ ∃ c older, Open cs c older ∧ c.accepted <+: c.bytes

/-- What every step of a run keeps. The copied total and the counted bytes are added in one
place, so they are one number. -/
structure Sound (r : CountedRun) : Prop where
  stands : Stands r.loop r.chunks
  counted : r.counted = deliveredBytes r.chunks
  total : r.loop.total = r.counted
  eof : ∀ t, r.loop.phase = .returned (.ok t) → t = r.loop.total ∧ r.eof = true

theorem sound_init : Sound init where
  stands := nofun
  counted := rfl
  total := rfl
  eof := nofun

section Phases

variable {r : CountedRun} {n off : Nat}

theorem Sound.settled (h : Sound r) (hphase : r.loop.phase = .reading) : Settled r.chunks := by
  have hstands := h.stands
  unfold Stands at hstands
  rwa [hphase] at hstands

theorem Sound.open_writing (h : Sound r) (hphase : r.loop.phase = .writing n off) :
    ∃ c older, Open r.chunks c older ∧ c.bytes.length = n ∧
      c.accepted ++ r.loop.pending = c.bytes := by
  have hstands := h.stands
  unfold Stands at hstands
  rwa [hphase] at hstands

theorem Sound.open_flushing (h : Sound r) (hphase : r.loop.phase = .flushing n) :
    ∃ c older, Open r.chunks c older ∧ c.bytes.length = n ∧ c.accepted = c.bytes := by
  have hstands := h.stands
  unfold Stands at hstands
  rwa [hphase] at hstands

/-- At any moment either everything was delivered or one chunk is on its way. -/
theorem Sound.settled_or_open (h : Sound r) :
    Settled r.chunks ∨ ∃ c older, Open r.chunks c older ∧ c.accepted <+: c.bytes := by
  have hstands := h.stands
  unfold Stands at hstands
  split at hstands
  · exact .inl hstands
  · obtain ⟨c, older, hopen, _, hall⟩ := hstands
    exact .inr ⟨c, older, hopen, hall ▸ List.prefix_append _ _⟩
  · obtain ⟨c, older, hopen, _, hall⟩ := hstands
    exact .inr ⟨c, older, hopen, hall ▸ List.prefix_rfl⟩
  · exact .inl hstands
  · exact hstands

end Phases

/-- A new chunk is on its way. -/
theorem sound_read {r : CountedRun} {bytes : List UInt8} (h : Sound r)
    (hphase : r.loop.phase = .reading) (hfits : bytes.length ≤ Proxy.bufSize) :
    Sound (r.after (.read bytes) (r.loop.readChunk bytes)) := by
  have hnew : Open (record (.read bytes) r.chunks) ⟨bytes, [], false⟩ r.chunks :=
    ⟨rfl, h.settled hphase, rfl, hfits⟩
  have hpend : (r.loop.readChunk bytes).pending = bytes := by simp [pending, readChunk]
  refine ⟨⟨_, _, hnew, rfl, hpend⟩, ?_, h.total, fun t ht => by cases ht⟩
  show r.counted = deliveredBytes (⟨bytes, [], false⟩ :: r.chunks)
  rw [deliveredBytes_of_not_flushed rfl]
  exact h.counted

/-- `w` accepts bytes of the newest chunk. -/
theorem sound_write {r : CountedRun} {bytes : List UInt8} {loop : CopyCount} {n off : Nat}
    (h : Sound r) (hphase : r.loop.phase = .writing n off)
    (hpend : r.loop.pending = bytes ++ loop.pending) (htotal : loop.total = r.loop.total)
    (hnext : (∃ off', loop.phase = .writing n off') ∨
      (loop.phase = .flushing n ∧ loop.pending = [])) :
    Sound (r.after (.write bytes) loop) := by
  obtain ⟨c, older, hopen, hlen, hall⟩ := h.open_writing hphase
  have hchunks : record (.write bytes) r.chunks =
      { c with accepted := c.accepted ++ bytes } :: older := by
    rw [hopen.newest, record]
  have hopen' : Open (record (.write bytes) r.chunks)
      { c with accepted := c.accepted ++ bytes } older :=
    ⟨hchunks, hopen.settled, hopen.not_flushed, hopen.fits⟩
  have hall' : (c.accepted ++ bytes) ++ loop.pending = c.bytes := by
    rw [List.append_assoc, ← hpend, hall]
  refine ⟨?_, ?_, htotal.trans h.total, ?_⟩
  · show Stands loop (record (.write bytes) r.chunks)
    unfold Stands
    rcases hnext with ⟨off', hphase'⟩ | ⟨hphase', hnil⟩
    · rw [hphase']
      exact ⟨_, older, hopen', hlen, hall'⟩
    · rw [hphase']
      rw [hnil, List.append_nil] at hall'
      exact ⟨_, older, hopen', hlen, hall'⟩
  · -- The chunk did not count before this write and does not count after it.
    have hcounted := h.counted
    rw [hopen.newest, deliveredBytes_of_not_flushed hopen.not_flushed] at hcounted
    show r.counted = deliveredBytes (record (.write bytes) r.chunks)
    rw [hchunks, hcounted]
    exact (deliveredBytes_of_not_flushed hopen'.not_flushed).symm
  · intro t ht
    rcases hnext with ⟨off', hphase'⟩ | ⟨hphase', _⟩
    · cases hphase'.symm.trans ht
    · cases hphase'.symm.trans ht

/-- The newest chunk is delivered, and counted in the same step. -/
theorem sound_flush {r : CountedRun} {n : Nat} (h : Sound r)
    (hphase : r.loop.phase = .flushing n) :
    Sound (r.after (.flush n) { r.loop with total := r.loop.total + n, phase := .reading }) := by
  obtain ⟨c, older, hopen, hlen, hall⟩ := h.open_flushing hphase
  have hdone : ({ c with flushed := true } : Chunk).delivered = true :=
    delivered_iff.mpr ⟨hall, rfl⟩
  have hchunks : record (.flush n) r.chunks = { c with flushed := true } :: older := by
    rw [hopen.newest, record]
  refine ⟨?_, ?_, congrArg (· + n) h.total, fun t ht => by cases ht⟩
  · show Settled (record (.flush n) r.chunks)
    rw [hchunks]
    exact settled_cons hdone hopen.settled
  · have hcounted := h.counted
    rw [hopen.newest, deliveredBytes_of_not_flushed hopen.not_flushed] at hcounted
    show r.counted + n = deliveredBytes (record (.flush n) r.chunks)
    rw [hchunks, deliveredBytes_cons, if_pos hdone, hcounted, hlen, Nat.add_comm]

/-- The run returns an error, with the newest chunk on its way or not. -/
theorem sound_fails {r : CountedRun} {a : Act} {e : IoError} (h : Sound r)
    (hchunks : record a r.chunks = r.chunks) (hnone : a.counted = 0) :
    Sound (r.after a (r.loop.finish (.error e))) := by
  refine ⟨?_, ?_, ?_, ?_⟩
  · show Stands _ (record a r.chunks)
    rw [hchunks]
    exact h.settled_or_open
  · show r.counted + a.counted = deliveredBytes (record a r.chunks)
    rw [hchunks, hnone]
    exact h.counted
  · show r.loop.total = r.counted + a.counted
    rw [hnone]
    exact h.total
  · intro t ht
    cases ht

theorem sound_step {r : CountedRun} {a : Act} {loop : CopyCount} (h : Sound r)
    (hs : CopyCount.Step r.loop a loop) : Sound (r.after a loop) := by
  cases hs with
  | read hphase _ hfits => exact sound_read h hphase hfits
  | eof hphase =>
    refine ⟨h.settled hphase, h.counted, h.total, fun t ht => ?_⟩
    cases ht
    exact ⟨rfl, Bool.or_true _⟩
  | readFails _ => exact sound_fails h rfl rfl
  | timeout _ => exact sound_fails h rfl rfl
  | @writePart n off k hphase _ _ =>
    refine sound_write h hphase ?_ rfl (.inl ⟨_, rfl⟩)
    simp [pending, hphase, slice_append_drop]
  | @writeRest n off k hphase hk hrest =>
    have hpend := pending_step (.writeRest hphase hk hrest) (by rintro ⟨⟩)
    rw [show (Act.write _).taken = [] from rfl, List.append_nil] at hpend
    exact sound_write h hphase hpend rfl (.inr ⟨rfl, rfl⟩)
  | writeFails _ => exact sound_fails h rfl rfl
  | flush hphase => exact sound_flush h hphase
  | flushFails _ => exact sound_fails h rfl rfl

/-! ## The books of one run -/

theorem accounted_of_settled {r : CountedRun} (h : Sound r) (hset : Settled r.chunks) :
    r.accepted = r.read ∧ r.counted = r.read.length :=
  ⟨accepted_of_settled hset, h.counted.trans (deliveredBytes_of_settled hset)⟩

/-- Behind a chunk on its way everything is delivered, and it is one buffer at most. -/
theorem split_of_open {r : CountedRun} {c : Chunk} {older : List Chunk} (h : Sound r)
    (hopen : Open r.chunks c older) :
    ∃ sent, r.counted = sent.length ∧ r.accepted = sent ++ c.accepted ∧
      r.read = sent ++ c.bytes := by
  refine ⟨older.reverse.flatMap Chunk.bytes, ?_, ?_, ?_⟩
  · rw [h.counted, hopen.newest, deliveredBytes_of_not_flushed hopen.not_flushed,
      deliveredBytes_of_settled hopen.settled]
  · unfold accepted
    rw [hopen.newest, flatMap_reverse_cons, accepted_of_settled hopen.settled]
  · unfold read
    rw [hopen.newest, flatMap_reverse_cons]

theorem accounted_of_sound {r : CountedRun} (h : Sound r) : Accounted r := by
  have hcomplete : ∀ t, r.loop.phase = .returned (.ok t) →
      t = r.counted ∧ r.eof = true ∧ r.accepted = r.read ∧ ∀ c ∈ r.chunks, c.delivered = true := by
    intro t ht
    have hset := h.stands
    unfold Stands at hset
    rw [ht] at hset
    obtain ⟨htotal, heof⟩ := h.eof t ht
    exact ⟨htotal.trans h.total, heof, (accounted_of_settled h hset).1, hset⟩
  rcases h.settled_or_open with hset | ⟨c, older, hopen, hpre⟩
  · obtain ⟨hacc, hcounted⟩ := accounted_of_settled h hset
    refine ⟨hacc ▸ List.prefix_rfl, h.counted, ?_, ?_, ?_, hcomplete⟩
    · exact Nat.le_of_eq (by rw [hacc, hcounted])
    · exact Nat.le_of_eq (by rw [hacc])
    · rw [hcounted]
      exact Nat.le_add_right _ _
  · obtain ⟨sent, hcounted, hacc, hread⟩ := split_of_open h hopen
    refine ⟨?_, h.counted, ?_, ?_, ?_, hcomplete⟩
    · rw [hacc, hread]
      exact (List.prefix_append_right_inj _).mpr hpre
    · rw [hcounted, hacc, List.length_append]
      exact Nat.le_add_right _ _
    · rw [hacc, hread, List.length_append, List.length_append]
      exact Nat.add_le_add_left hpre.length_le _
    · rw [hread, hcounted, List.length_append]
      exact Nat.add_le_add_left hopen.fits _

end CountedRun

/-! ## The shared counter -/

namespace CopyCount

open Lts

/-- The runs, and the counter they share. -/
structure Shared where
  counter : Nat
  runs : List CountedRun

inductive Event
  | start
  | act (a : Act)
deriving DecidableEq, Repr

namespace Shared

/-- `fetch_add` on an `AtomicU64`. -/
def fetchAdd (counter n : Nat) : Nat := (counter + n) % 2 ^ 64

/-- The counter after a step of some run: only a chunk that was flushed is added. -/
def count (counter : Nat) : Act → Nat
  | .flush n => fetchAdd counter n
  | _ => counter

def Init (s : Shared) : Prop := s = { counter := 0, runs := [] }

/-- One of the runs takes a step, or one more begins. A run that is dropped in the middle
takes no more steps. -/
inductive Step (s : Shared) : Event → Shared → Prop
  | start : Step s .start { s with runs := s.runs ++ [.init] }
  | act (pre : List CountedRun) {post : List CountedRun} {r : CountedRun} {a : Act}
      {loop : CopyCount} :
      s.runs = pre ++ r :: post → CopyCount.Step r.loop a loop →
      Step s (.act a) { counter := count s.counter a, runs := pre ++ r.after a loop :: post }

/-- What all runs have added. -/
def counted (s : Shared) : Nat := (s.runs.map (·.counted)).sum

theorem counted_split {s : Shared} {pre post : List CountedRun} {r : CountedRun}
    (h : s.runs = pre ++ r :: post) :
    s.counted = (pre.map (·.counted)).sum + r.counted + (post.map (·.counted)).sum := by
  unfold counted
  rw [h]
  simp [Nat.add_assoc]

/-- A step leaves the counter alone, or adds to it what it counts. -/
theorem added_of_step {s t : Shared} {e : Event} (hs : Step s e t) :
    (t.counter = s.counter ∧ t.counted = s.counted) ∨
      ∃ n, t.counter = fetchAdd s.counter n ∧ t.counted = s.counted + n := by
  cases hs with
  | start =>
    refine .inl ⟨rfl, ?_⟩
    rw [counted_split (show _ = s.runs ++ .init :: [] from rfl)]
    rfl
  | @act pre post r a loop hruns _ =>
    have hcounted :
        counted { counter := count s.counter a, runs := pre ++ r.after a loop :: post } =
          s.counted + a.counted := by
      rw [counted_split hruns, counted_split rfl]
      show _ + (r.counted + a.counted) + _ = _
      omega
    cases a with
    | flush n => exact .inr ⟨n, rfl, hcounted⟩
    | _ => exact .inl ⟨rfl, hcounted⟩

/-- The runs are sound, and the counter is their sum as a `u64`. -/
structure Kept (s : Shared) : Prop where
  sound : ∀ r ∈ s.runs, r.Sound
  counter : s.counter = s.counted % 2 ^ 64

theorem kept_init {s : Shared} (h : Init s) : Kept s := by
  cases h
  exact ⟨nofun, rfl⟩

theorem sound_runs_step {s t : Shared} {e : Event} (h : ∀ r ∈ s.runs, r.Sound)
    (hs : Step s e t) : ∀ r ∈ t.runs, r.Sound := by
  intro r' hr'
  cases hs with
  | start =>
    rcases List.mem_append.mp hr' with hr' | hr'
    · exact h r' hr'
    · cases List.mem_singleton.mp hr'
      exact CountedRun.sound_init
  | @act pre post r a loop hruns hloop =>
    rw [hruns] at h
    have hr : r.Sound := h r (List.mem_append_right _ List.mem_cons_self)
    rcases List.mem_append.mp hr' with hpre | hrest
    · exact h r' (List.mem_append_left _ hpre)
    rcases List.mem_cons.mp hrest with rfl | hpost
    · exact CountedRun.sound_step hr hloop
    · exact h r' (List.mem_append_right _ (List.mem_cons_of_mem _ hpost))

theorem kept_step {s t : Shared} {e : Event} (h : Kept s) (hs : Step s e t) : Kept t := by
  refine ⟨sound_runs_step h.sound hs, ?_⟩
  rcases added_of_step hs with ⟨hcounter, hcounted⟩ | ⟨n, hcounter, hcounted⟩
  · rw [hcounter, hcounted, h.counter]
  · rw [hcounter, hcounted, fetchAdd, h.counter, Nat.mod_add_mod]

end Shared

/-- Byte accounting, for any number of runs that share a counter: at every moment, what `w`
accepted is a prefix of what was read and at most a buffer behind, the run has added exactly
its delivered chunks, and it returns `Ok` of that number after the last byte. As long as the
bytes fit into the counter, it is the sum over the runs. -/
theorem bytes_accounted {s : Shared} (h : Reachable Shared.Step Shared.Init s) :
    (∀ r ∈ s.runs, r.Accounted) ∧ (s.counted < 2 ^ 64 → s.counter = s.counted) := by
  have hstart : ∀ s, Shared.Init s → s.Kept := fun _ => Shared.kept_init
  have hkept : s.Kept := h.invariant hstart fun _ _ _ => Shared.kept_step
  refine ⟨fun r hr => CountedRun.accounted_of_sound (hkept.sound r hr), fun hlt => ?_⟩
  rw [hkept.counter, Nat.mod_eq_of_lt hlt]

/-- Two runs: one delivers a chunk and sees the end of its stream while a write of the other
fails. -/
theorem bytes_accounted_two_runs :
    ∃ s, Reachable Shared.Step Shared.Init s ∧ (∀ r ∈ s.runs, r.Accounted) ∧
      s.runs.map (fun r => r.read.length) = [2, 1] ∧ s.counter = 2 := by
  have started : Reachable Shared.Step Shared.Init { counter := 0, runs := [.init, .init] } :=
    .step (.step (.init rfl) .start) .start
  obtain ⟨full, hfull⟩ : ∃ loop, loop = CopyCount.init.readChunk [104, 105] := ⟨_, rfl⟩
  have hread : CopyCount.Step CopyCount.init (.read [104, 105]) full :=
    hfull ▸ .read rfl (by decide) (by decide)
  have hwrite := @CopyCount.Step.writeRest full 2 0 2 (hfull ▸ rfl) (by decide) rfl
  have first := started.step (.act [] rfl hread)
  have second := first.step (.act [_] rfl (@CopyCount.Step.read _ [33] rfl (by decide) (by decide)))
  have written := second.step (.act [] rfl hwrite)
  have failed := written.step (.act [_] rfl (@CopyCount.Step.writeFails _ 1 0 rfl))
  have done := (failed.step (.act [] rfl (.flush (n := 2) rfl))).step
    (.act [] rfl (.eof rfl))
  obtain ⟨hbooks, hcounter⟩ := bytes_accounted done
  have hlt : 2 < 2 ^ 64 := by decide
  exact ⟨_, done, hbooks, rfl, hcounter hlt⟩

end CopyCount

end MiniMask
