import MiniMask.Client.Bridge
import MiniMask.Lib.Pipe

/-!
# The bridge between bounded buffers

Peer `a`, which sends what it has to send and reads what comes; the bridge; and a local
service of any kind. Between them are buffers of any capacity, and who writes to a full
one waits. The bridge does both directions in one loop, so while it waits in a write
toward the service it reads nothing from it.

1. `deadlock_exact`: whether the three can end in a deadlock depends on the service and
   its two buffers alone. They can if and only if the service, fed and drained in some
   way, can stop for good with its input buffer full and some of its output unread.
2. `echo_chokes`: a service that echoes with blocking writes does so, whatever the
   capacities; `echo_deadlocks` is the deadlock.
3. `not_choked_of_reads`: a service that always goes on reading does not.
-/

namespace MiniMask.Blocking

open Lts

variable {β : Type}

/-! ## Definitions -/

/-- The capacities of the buffers from `a` and back to it, and to the service and from
it. -/
structure Capacity where
  fromPeer : Nat
  toPeer : Nat
  toService : Nat
  fromService : Nat
  fromPeer_pos : 0 < fromPeer
  toPeer_pos : 0 < toPeer
  toService_pos : 0 < toService
  fromService_pos : 0 < fromService

/-- A local service: from which states it reads and writes which bytes, and where it can
go on or close its connection without either. -/
structure Service (β : Type) where
  init : β
  reads : β → List UInt8 → β → Prop
  writes : β → List UInt8 → β → Prop
  thinks : β → β → Prop
  closes : β → Prop

/-- The service with the two buffers of its connection. -/
structure Local (β : Type) where
  input : Pipe UInt8
  output : Pipe UInt8
  service : β
  closed : Bool

def Local.start (svc : Service β) : Local β :=
  { input := .empty, output := .empty, service := svc.init, closed := false }

inductive ServiceStep (cap : Capacity) (svc : Service β) (c : Local β) : Local β → Prop
  | read {bytes : List UInt8} {st : β} :
      c.closed = false → bytes ≠ [] → bytes <+: c.input.inFlight → svc.reads c.service bytes st →
      ServiceStep cap svc c { c with input := c.input.receive bytes.length, service := st }
  | write {bytes : List UInt8} {st : β} :
      c.closed = false → bytes ≠ [] → c.output.inFlight.length + bytes.length ≤ cap.fromService →
      svc.writes c.service bytes st →
      ServiceStep cap svc c { c with output := c.output.send bytes, service := st }
  | think {st : β} :
      c.closed = false → svc.thinks c.service st → ServiceStep cap svc c { c with service := st }
  | close :
      c.closed = false → svc.closes c.service → ServiceStep cap svc c { c with closed := true }

/-- The service on its own: bytes are put into its input buffer and taken from its output
buffer in any way. -/
inductive AloneEvent
  | service
  | feed (byte : UInt8)
  | drain

inductive Alone (cap : Capacity) (svc : Service β) (c : Local β) : AloneEvent → Local β → Prop
  | service {c' : Local β} : ServiceStep cap svc c c' → Alone cap svc c .service c'
  | feed {byte : UInt8} :
      c.closed = false → c.input.inFlight.length < cap.toService →
      Alone cap svc c (.feed byte) { c with input := c.input.send [byte] }
  | drain :
      c.output.inFlight ≠ [] → Alone cap svc c .drain { c with output := c.output.receive 1 }

/-- The service has stopped: its input buffer is full, some of its output is unread, and
it can do nothing. -/
structure Choked (cap : Capacity) (svc : Service β) (c : Local β) : Prop where
  connected : c.closed = false
  full : cap.toService ≤ c.input.inFlight.length
  unread : c.output.inFlight ≠ []
  stopped : ∀ c', ¬ ServiceStep cap svc c c'

/-- `todo` is what `a` has still to send; `up` and `down` are the buffers between `a` and
the bridge. -/
structure State (β : Type) where
  todo : List UInt8
  up : Pipe UInt8
  down : Pipe UInt8
  bridge : Bridge
  conn : Local β

def start (svc : Service β) (todo : List UInt8) : State β :=
  { todo, up := .empty, down := .empty, bridge := .init 0, conn := .start svc }

/-- What the buffers and the two connections let the bridge do. `a` may close its sending
half when it has sent everything; the service's connection fails once it is closed. -/
def State.Offers (cap : Capacity) (s : State β) : Bridge.Act → Prop
  | .read .a bytes => bytes <+: s.up.inFlight
  | .read .b bytes => bytes <+: s.conn.output.inFlight
  | .eof .a => s.todo = [] ∧ s.up.inFlight = []
  | .eof .b => s.conn.closed = true ∧ s.conn.output.inFlight = []
  | .readFails .a => False
  | .readFails .b => s.conn.closed = true
  | .write .a bytes => s.down.inFlight.length + bytes.length ≤ cap.toPeer
  | .write .b bytes =>
    s.conn.closed = false ∧ s.conn.input.inFlight.length + bytes.length ≤ cap.toService
  | .writeFails .a => False
  | .writeFails .b => s.conn.closed = true
  | .timeout => True

/-- The state after the action `e` has made the bridge `b`. -/
def State.after (s : State β) (e : Bridge.Act) (b : Bridge) : State β where
  todo := s.todo
  up := s.up.receive (e.taken .a).length
  down := s.down.send (e.given .a)
  bridge := b
  conn := { s.conn with
    input := s.conn.input.send (e.given .b)
    output := s.conn.output.receive (e.taken .b).length }

inductive Event
  | sends
  | takes
  | service
  | bridge (e : Bridge.Act)

inductive Step (cap : Capacity) (svc : Service β) (s : State β) : Event → State β → Prop
  | sends {bytes rest : List UInt8} :
      s.todo = bytes ++ rest → bytes ≠ [] → s.up.inFlight.length + bytes.length ≤ cap.fromPeer →
      Step cap svc s .sends { s with todo := rest, up := s.up.send bytes }
  | takes {n : Nat} :
      0 < n → n ≤ s.down.inFlight.length →
      Step cap svc s .takes { s with down := s.down.receive n }
  | service {c : Local β} :
      ServiceStep cap svc s.conn c → Step cap svc s .service { s with conn := c }
  | bridge {idle now : Nat} {e : Bridge.Act} {b : Bridge} :
      Bridge.Step idle now s.bridge e b → s.Offers cap e →
      Step cap svc s (.bridge e) (s.after e b)

/-- `a` may send anything. -/
def Init (svc : Service β) (s : State β) : Prop := ∃ todo, s = start svc todo

def Starts (svc : Service β) (c : Local β) : Prop := c = .start svc

/-- The service's output waits to be read and `a` has room for it, but the bridge is in a
write toward the service and nobody can take a step. -/
structure Deadlocked (cap : Capacity) (svc : Service β) (s : State β) : Prop where
  writing : ∃ n off, s.bridge.phase = .writing .a n off
  waiting : s.conn.output.inFlight ≠ []
  room : s.down.inFlight.length < cap.toPeer
  stuck : ∀ e t, ¬ Step cap svc s e t

/-! ## From the bridge to the service on its own -/

section Projection

variable {cap : Capacity} {svc : Service β} {s t : State β} {c : Local β}

/-- What a write puts into the input buffer can be fed byte by byte. -/
theorem alone_feed (bytes : List UInt8) (h : Reachable (Alone cap svc) (Starts svc) c)
    (hopen : c.closed = false) (hroom : c.input.inFlight.length + bytes.length ≤ cap.toService) :
    Reachable (Alone cap svc) (Starts svc) { c with input := c.input.send bytes } := by
  induction bytes generalizing c with
  | nil => simpa [Pipe.send] using h
  | cons byte bytes ih =>
    simp only [List.length_cons] at hroom
    have hfed := h.step (@Alone.feed _ cap svc c byte hopen (by omega))
    have hroom' : (c.input.send [byte]).inFlight.length + bytes.length ≤ cap.toService := by
      rw [Pipe.inFlight_send, List.length_append, List.length_singleton]
      omega
    have hrest := ih hfed hopen hroom'
    rwa [← Pipe.send_append] at hrest

/-- What a read takes from the output buffer can be drained byte by byte. -/
theorem alone_drain (n : Nat) (h : Reachable (Alone cap svc) (Starts svc) c)
    (hle : n ≤ c.output.inFlight.length) :
    Reachable (Alone cap svc) (Starts svc) { c with output := c.output.receive n } := by
  induction n with
  | zero => simpa [Pipe.receive_zero] using h
  | succ n ih =>
    have hdrained := ih (Nat.le_of_succ_le hle)
    have hleft : (c.output.receive n).inFlight ≠ [] := by
      rw [Pipe.inFlight_receive]
      exact fun heq => absurd (List.drop_eq_nil_iff.mp heq) (Nat.not_le.mpr hle)
    have hmore := hdrained.step (.drain hleft)
    rwa [← Pipe.receive_add] at hmore

/-- An action that has nothing to do with the service leaves its connection alone. -/
theorem after_conn {e : Bridge.Act} (b : Bridge) (htaken : e.taken .b = [])
    (hgiven : e.given .b = []) : (s.after e b).conn = s.conn := by
  simp [State.after, htaken, hgiven, Pipe.receive_zero, Pipe.send]

/-- The service in the composed system is one that was fed and drained on its own. -/
theorem reachable_alone (h : Reachable (Step cap svc) (Init svc) s) :
    Reachable (Alone cap svc) (Starts svc) s.conn := by
  induction h with
  | init h =>
    obtain ⟨todo, rfl⟩ := h
    exact .init rfl
  | @step s t e _ hs ih =>
    cases hs with
    | sends _ _ _ => exact ih
    | takes _ _ => exact ih
    | service hserves => exact ih.step (.service hserves)
    | @bridge idle now e b hact hoffers =>
      cases e with
      | read x bytes =>
        cases x with
        | a => rw [after_conn b rfl rfl]; exact ih
        | b =>
          have hdrained := alone_drain bytes.length ih (List.IsPrefix.length_le hoffers)
          simpa [State.after, Bridge.Act.taken, Bridge.Act.given, Pipe.send] using hdrained
      | write x bytes =>
        cases x with
        | a => rw [after_conn b rfl rfl]; exact ih
        | b =>
          have hfed := alone_feed bytes ih hoffers.1 hoffers.2
          simpa [State.after, Bridge.Act.taken, Bridge.Act.given, Pipe.receive_zero] using hfed
      | eof x => rw [after_conn b rfl rfl]; exact ih
      | readFails x => rw [after_conn b rfl rfl]; exact ih
      | writeFails x => rw [after_conn b rfl rfl]; exact ih
      | timeout => rw [after_conn b rfl rfl]; exact ih

theorem sound_reachable (h : Reachable (Step cap svc) (Init svc) s) : s.bridge.Sound := by
  induction h with
  | init h =>
    obtain ⟨todo, rfl⟩ := h
    exact nofun
  | step _ hs ih =>
    cases hs with
    | sends _ _ _ => exact ih
    | takes _ _ => exact ih
    | service _ => exact ih
    | bridge hact _ => exact Bridge.sound_step ih hact

/-- A bridge in a write can write one byte, and with it finish or go on. -/
theorem write_one {x : Side} {n off : Nat} (hphase : s.bridge.phase = .writing x n off)
    (hlt : off < n) :
    ∃ b, Bridge.Step 0 0 s.bridge (.write x.other (s.bridge.slice x n off 1)) b := by
  rcases Nat.lt_or_ge (off + 1) n with hmore | hlast
  · exact ⟨_, .writePart hphase Nat.one_pos hmore⟩
  · exact ⟨_, .writeRest hphase Nat.one_pos (Nat.le_antisymm hlt hlast)⟩

/-- In a deadlock the service is choked. -/
theorem Deadlocked.choked (hr : Reachable (Step cap svc) (Init svc) s)
    (h : Deadlocked cap svc s) : Choked cap svc s.conn := by
  have hsound := sound_reachable hr
  obtain ⟨⟨n, off, hphase⟩, hwaiting, _, hstuck⟩ := h
  have hopen : s.conn.closed = false := by
    by_contra hclosed
    exact hstuck _ _ (@Step.bridge _ cap svc s 0 0 _ _ (.writeFails hphase)
      (show s.conn.closed = true by simpa using hclosed))
  refine ⟨hopen, ?_, hwaiting, fun c hserves => hstuck _ _ (.service hserves)⟩
  by_contra hroom
  have hlt := (hsound .a n off hphase).1
  obtain ⟨b, hwrite⟩ := write_one hphase hlt
  have hlength := hsound.length_slice (k := 1) hphase hlt
  refine hstuck _ _ (.bridge hwrite ⟨hopen, ?_⟩)
  rw [hlength]
  exact Nat.lt_of_not_le hroom

end Projection

/-! ## From the service on its own to the bridge -/

/-- The bridge waits for a chunk, and the buffers between it and `a` are empty. -/
structure Waiting (s : State β) : Prop where
  selecting : s.bridge.phase = .selecting 0
  up : s.up.inFlight = []
  down : s.down.inFlight = []

section Simulation

variable {cap : Capacity} {svc : Service β} {s t : State β} {c c' : Local β}

theorem slice_readChunk (b : Bridge) (x : Side) (byte : UInt8) :
    (b.readChunk x [byte]).slice x 1 0 1 = [byte] := by
  simp [Bridge.slice, Bridge.readChunk, Bridge.fill]

/-- `a` sends one byte and the bridge takes it. -/
theorem reach_chunk (h : Reachable (Step cap svc) (Init svc) s) (hwaiting : Waiting s)
    {byte : UInt8} {todo : List UInt8} (htodo : s.todo = byte :: todo) :
    ∃ t, Reachable (Step cap svc) (Init svc) t ∧ t.todo = todo ∧ t.up.inFlight = [] ∧
      t.down.inFlight = [] ∧ t.bridge = s.bridge.readChunk .a [byte] ∧ t.conn = s.conn := by
  have hroom : s.up.inFlight.length + [byte].length ≤ cap.fromPeer := by
    rw [hwaiting.up]
    exact cap.fromPeer_pos
  have hsent := h.step (@Step.sends _ cap svc s [byte] todo htodo nofun hroom)
  have hnext : [byte] <+: (s.up.send [byte]).inFlight := by
    rw [Pipe.inFlight_send, hwaiting.up]
    exact List.prefix_rfl
  have hact := @Bridge.Step.read 0 0 s.bridge 0 .a [byte] hwaiting.selecting nofun
    (show 1 ≤ 16384 by decide)
  have hread := hsent.step (.bridge hact hnext)
  refine ⟨_, hread, rfl, ?_, ?_, rfl, after_conn _ rfl rfl⟩
  · simp [State.after, Bridge.Act.taken, hwaiting.up]
  · simp [State.after, Bridge.Act.given, hwaiting.down]

/-- The bridge writes the byte into the service's input buffer. -/
theorem reach_fed (h : Reachable (Step cap svc) (Init svc) s) (hwaiting : Waiting s)
    {byte : UInt8} {todo : List UInt8} (htodo : s.todo = byte :: todo)
    (hopen : s.conn.closed = false) (hroom : s.conn.input.inFlight.length < cap.toService) :
    ∃ t, Reachable (Step cap svc) (Init svc) t ∧ Waiting t ∧ t.todo = todo ∧
      t.conn = { s.conn with input := s.conn.input.send [byte] } := by
  obtain ⟨u, hu, hutodo, hup, hdown, hbridge, hconn⟩ := reach_chunk h hwaiting htodo
  have hphase : u.bridge.phase = .writing .a 1 0 := by rw [hbridge]; rfl
  have hslice : u.bridge.slice .a 1 0 1 = [byte] := by rw [hbridge]; exact slice_readChunk _ _ _
  have hwrite := @Bridge.Step.writeRest 0 0 u.bridge .a 1 0 1 hphase Nat.one_pos rfl
  rw [hslice] at hwrite
  have hwrote := hu.step (.bridge hwrite (by
    rw [← hconn] at hopen hroom
    exact ⟨hopen, hroom⟩))
  refine ⟨_, hwrote, ⟨rfl, ?_, ?_⟩, hutodo, ?_⟩
  · simp [State.after, Bridge.Act.taken, hup]
  · simp [State.after, Bridge.Act.given, Side.other, hdown]
  · simp [State.after, Bridge.Act.taken, Bridge.Act.given, Side.other, hconn, Pipe.receive_zero]

/-- The bridge carries a byte of the service's output to `a`, which takes it. -/
theorem reach_drained (h : Reachable (Step cap svc) (Init svc) s) (hwaiting : Waiting s)
    (hunread : s.conn.output.inFlight ≠ []) :
    ∃ t, Reachable (Step cap svc) (Init svc) t ∧ Waiting t ∧ t.todo = s.todo ∧
      t.conn = { s.conn with output := s.conn.output.receive 1 } := by
  obtain ⟨byte, rest, houtput⟩ := List.exists_cons_of_ne_nil hunread
  have hnext : [byte] <+: s.conn.output.inFlight := ⟨rest, houtput.symm⟩
  have hact := @Bridge.Step.read 0 0 s.bridge 0 .b [byte] hwaiting.selecting nofun
    (show 1 ≤ 16384 by decide)
  have hread := h.step (.bridge hact hnext)
  have hwrite := @Bridge.Step.writeRest 0 0 (s.bridge.readChunk .b [byte]) .b 1 0 1 rfl Nat.one_pos
    rfl
  rw [slice_readChunk] at hwrite
  have hwrote := hread.step (.bridge hwrite (by
    show (s.down.send []).inFlight.length + 1 ≤ cap.toPeer
    rw [Pipe.inFlight_send, hwaiting.down]
    exact cap.toPeer_pos))
  have htook := hwrote.step (.takes (n := 1) Nat.one_pos (by
    simp [State.after, Bridge.Act.taken, Bridge.Act.given, Side.other, hwaiting.down]))
  refine ⟨_, htook, ⟨rfl, ?_, ?_⟩, rfl, ?_⟩
  · simp [State.after, Bridge.Act.taken, hwaiting.up]
  · simp [State.after, Bridge.Act.taken, Bridge.Act.given, Side.other, hwaiting.down]
  · simp [State.after, Bridge.Act.taken, Bridge.Act.given, Side.other, Pipe.receive_zero, Pipe.send]

/-- Whatever is done with the service on its own, the bridge can do, with anything left
that `a` has still to send. -/
theorem reachable_composed (h : Reachable (Alone cap svc) (Starts svc) c) (todo : List UInt8) :
    ∃ s, Reachable (Step cap svc) (Init svc) s ∧ Waiting s ∧ s.todo = todo ∧ s.conn = c := by
  induction h generalizing todo with
  | init h =>
    cases h
    exact ⟨start svc todo, .init ⟨todo, rfl⟩, ⟨rfl, rfl, rfl⟩, rfl, rfl⟩
  | @step c c' e _ hs ih =>
    cases hs with
    | service hserves =>
      obtain ⟨s, hr, hwaiting, htodo, rfl⟩ := ih todo
      exact ⟨_, hr.step (.service hserves), ⟨hwaiting.selecting, hwaiting.up, hwaiting.down⟩,
        htodo, rfl⟩
    | @feed byte hopen hroom =>
      obtain ⟨s, hr, hwaiting, htodo, rfl⟩ := ih (byte :: todo)
      exact reach_fed hr hwaiting htodo hopen hroom
    | drain hunread =>
      obtain ⟨s, hr, hwaiting, htodo, rfl⟩ := ih todo
      obtain ⟨t, hrt, hwaiting', htodo', hconn⟩ := reach_drained hr hwaiting hunread
      exact ⟨t, hrt, hwaiting', htodo'.trans htodo, hconn⟩

/-- A byte for a choked service makes a deadlock. -/
theorem deadlock_of_choked (h : Reachable (Alone cap svc) (Starts svc) c)
    (hchoked : Choked cap svc c) :
    ∃ s, Reachable (Step cap svc) (Init svc) s ∧ Deadlocked cap svc s := by
  obtain ⟨s, hr, hwaiting, htodo, rfl⟩ := reachable_composed h [0]
  obtain ⟨t, hrt, htodo', hup, hdown, hbridge, hconn⟩ := reach_chunk hr hwaiting htodo
  have hphase : t.bridge.phase = .writing .a 1 0 := by rw [hbridge]; rfl
  refine ⟨t, hrt, ⟨_, _, hphase⟩, hconn ▸ hchoked.unread, ?_, fun e u hs => ?_⟩
  · rw [hdown]
    exact cap.toPeer_pos
  · have hfull : ∀ {k : Nat}, 0 < k → 0 + k ≤ 1 →
        ¬ t.Offers cap (.write .b (t.bridge.slice .a 1 0 k)) := by
      rintro k hk hle ⟨_, hroom⟩
      have hlength := (sound_reachable hrt).length_slice hphase hle
      rw [hlength, hconn] at hroom
      have hinput := hchoked.full
      omega
    cases hs with
    | sends hbytes hne _ =>
      rw [htodo'] at hbytes
      exact hne (List.append_eq_nil_iff.mp hbytes.symm).1
    | takes hpos hle =>
      rw [hdown] at hle
      exact absurd hle (Nat.not_le.mpr hpos)
    | service hserves => exact hchoked.stopped _ (hconn ▸ hserves)
    | bridge hact hoffers =>
      cases hact with
      | read hselecting _ _ => cases hphase.symm.trans hselecting
      | eof hselecting => cases hphase.symm.trans hselecting
      | readFails hselecting => cases hphase.symm.trans hselecting
      | timeout hselecting _ => cases hphase.symm.trans hselecting
      | writePart hwriting hk hlt =>
        cases hphase.symm.trans hwriting
        exact hfull hk (Nat.le_of_lt hlt) hoffers
      | writeRest hwriting hk hrest =>
        cases hphase.symm.trans hwriting
        exact hfull hk (Nat.le_of_eq hrest) hoffers
      | writeFails hwriting =>
        cases hphase.symm.trans hwriting
        have hclosed : t.conn.closed = true := hoffers
        rw [hconn, hchoked.connected] at hclosed
        cases hclosed

end Simulation

/-- **When the bridge deadlocks.** For a service and buffer capacities, no reachable
state is a deadlock if and only if the service on its own never chokes. -/
theorem deadlock_exact (cap : Capacity) (svc : Service β) :
    (∀ s, Reachable (Step cap svc) (Init svc) s → ¬ Deadlocked cap svc s) ↔
      ∀ c, Reachable (Alone cap svc) (Starts svc) c → ¬ Choked cap svc c := by
  constructor
  · intro hfree c hr hchoked
    obtain ⟨s, hrs, hdead⟩ := deadlock_of_choked hr hchoked
    exact hfree s hrs hdead
  · intro hfree s hr hdead
    exact hfree s.conn (reachable_alone hr) (hdead.choked hr)

/-- A service that reads whatever comes, in every state, does not choke. -/
theorem not_choked_of_reads {cap : Capacity} {svc : Service β} {c : Local β}
    (h : ∀ st bytes, ∃ st', svc.reads st bytes st') : ¬ Choked cap svc c := by
  intro hchoked
  have hinput : c.input.inFlight ≠ [] := by
    intro hnil
    have hfull := hchoked.full
    rw [hnil] at hfull
    exact absurd hfull (Nat.not_le.mpr cap.toService_pos)
  obtain ⟨st, hreads⟩ := h c.service c.input.inFlight
  exact hchoked.stopped _ (.read hchoked.connected hinput List.prefix_rfl hreads)

/-! ## An echo service -/

/-- It writes back each chunk before it reads the next one; the state is what is left to
write. -/
def echo : Service (List UInt8) where
  init := []
  reads st bytes st' := st = [] ∧ st' = bytes
  writes st bytes st' := st = bytes ++ st'
  thinks _ _ := False
  closes _ := False

section Echo

variable {cap : Capacity}

/-- An echo service with nothing to write takes a byte that is fed to it. -/
theorem echo_takes {c : Local (List UInt8)} (hr : Reachable (Alone cap echo) (Starts echo) c)
    (hopen : c.closed = false) (hidle : c.service = []) (hinput : c.input.inFlight = []) :
    ∃ c', Reachable (Alone cap echo) (Starts echo) c' ∧ c'.closed = false ∧ c'.service = [0] ∧
      c'.input.inFlight = [] ∧ c'.output = c.output := by
  have hroom : c.input.inFlight.length < cap.toService := by
    rw [hinput]
    exact cap.toService_pos
  have hnext : [0] <+: (c.input.send [0]).inFlight := by
    rw [Pipe.inFlight_send, hinput]
    exact List.prefix_rfl
  have hfed := hr.step (@Alone.feed _ cap echo c 0 hopen hroom)
  have hread := hfed.step (.service (@ServiceStep.read _ cap echo _ [0] [0] hopen nofun hnext
    ⟨hidle, rfl⟩))
  exact ⟨_, hread, hopen, rfl, by simp [hinput], rfl⟩

/-- The echo service after `n` bytes that nobody has read back. -/
theorem echo_filled {n : Nat} (hle : n ≤ cap.fromService) :
    ∃ c, Reachable (Alone cap echo) (Starts echo) c ∧ c.closed = false ∧ c.service = [] ∧
      c.input.inFlight = [] ∧ c.output.inFlight.length = n := by
  induction n with
  | zero => exact ⟨_, .init rfl, rfl, rfl, rfl, rfl⟩
  | succ n ih =>
    obtain ⟨c, hr, hopen, hidle, hinput, houtput⟩ := ih (Nat.le_of_succ_le hle)
    obtain ⟨c', hr', hopen', hservice, hinput', hsame⟩ := echo_takes hr hopen hidle hinput
    have hroom : c'.output.inFlight.length + [(0 : UInt8)].length ≤ cap.fromService := by
      rw [hsame, houtput]
      exact hle
    have hwrote := hr'.step (.service (@ServiceStep.write _ cap echo c' [0] [] hopen' nofun hroom
      hservice))
    exact ⟨_, hwrote, hopen', rfl, hinput', by simp [hsame, houtput]⟩

/-- Behind a chunk that it cannot write back, its input buffer fills up. -/
theorem echo_full {n : Nat} (hle : n ≤ cap.toService) :
    ∃ c, Reachable (Alone cap echo) (Starts echo) c ∧ c.closed = false ∧ c.service = [0] ∧
      c.input.inFlight.length = n ∧ c.output.inFlight.length = cap.fromService := by
  induction n with
  | zero =>
    obtain ⟨c, hr, hopen, hidle, hinput, houtput⟩ := echo_filled (Nat.le_refl cap.fromService)
    obtain ⟨c', hr', hopen', hservice, hinput', hsame⟩ := echo_takes hr hopen hidle hinput
    exact ⟨c', hr', hopen', hservice, by rw [hinput']; rfl, by rw [hsame, houtput]⟩
  | succ n ih =>
    obtain ⟨c, hr, hopen, hservice, hinput, houtput⟩ := ih (Nat.le_of_succ_le hle)
    have hroom : c.input.inFlight.length < cap.toService := by rw [hinput]; exact hle
    have hfed := hr.step (@Alone.feed _ cap echo c 0 hopen hroom)
    exact ⟨_, hfed, hopen, hservice, by simp [hinput], houtput⟩

/-- The echo service chokes, whatever the capacities. -/
theorem echo_chokes (cap : Capacity) :
    ∃ c, Reachable (Alone cap echo) (Starts echo) c ∧ Choked cap echo c := by
  obtain ⟨c, hr, hopen, hservice, hinput, houtput⟩ := echo_full (Nat.le_refl cap.toService)
  have hunread : c.output.inFlight ≠ [] := by
    intro hnil
    rw [hnil] at houtput
    exact absurd houtput.symm (Nat.ne_of_gt cap.fromService_pos)
  refine ⟨c, hr, hopen, Nat.le_of_eq hinput.symm, hunread, fun c' hs => ?_⟩
  cases hs with
  | read _ _ _ hreads =>
    rw [hservice] at hreads
    cases hreads.1
  | @write bytes st _ hne hroom _ =>
    have hpos : 0 < bytes.length := List.length_pos_iff.mpr hne
    omega
  | think _ hthinks => exact hthinks
  | close _ hcloses => exact hcloses

end Echo

/-- 64 KiB for each direction of the local connection and 256 KiB for the stream. -/
def usual : Capacity where
  fromPeer := 262144
  toPeer := 262144
  toService := 65536
  fromService := 65536
  fromPeer_pos := by decide
  toPeer_pos := by decide
  toService_pos := by decide
  fromService_pos := by decide

/-- The bridge deadlocks with an echo service. -/
theorem echo_deadlocks :
    ∃ s, Reachable (Step usual echo) (Init echo) s ∧ Deadlocked usual echo s := by
  obtain ⟨c, hr, hchoked⟩ := echo_chokes usual
  exact deadlock_of_choked hr hchoked

end MiniMask.Blocking
