import MiniMask.Lib.Transition

/-!
# The yamux session driver (`tunnel/session.rs`)

One task owns the yamux connection of a session. Its loop polls
`poll_next_inbound`, and when nothing is inbound it takes one request from the
proxy channel and waits in `poll_new_outbound` for a stream to give it. While it
waits there it polls nothing else.

Yamux is not part of the repository. What the driver sees of it: frames that
arrive are processed only inside `poll_next_inbound`, and `poll_new_outbound` is
pending as long as `K` outbound streams are not acknowledged.
-/

namespace MiniMask.Driver

open Lts

/-! ## Definitions -/

/-- `ProxyRequest`; `conn` is the visitor's connection. -/
structure ProxyRequest (C : Type) where
  target : String
  conn : C
deriving DecidableEq, Repr

/-- The capacity of the proxy channel. -/
def proxyChannelCapacity : Nat := 256

/-- What the peer sends. Streams are numbered in the order they are opened. -/
inductive Frame
  | ack (stream : Nat)
  | data (stream : Nat)
  | openStream
  | close
  | malformed
deriving DecidableEq, Repr

/-- Where `drive_server` stands: in the `select!`, in `poll_new_outbound`, or
past its loop. -/
inductive Phase (C : Type)
  | selecting
  | opening (req : ProxyRequest C)
  | ended
deriving DecidableEq, Repr

structure State (C : Type) where
  phase : Phase C
  /-- The requests in the proxy channel. -/
  queue : List (ProxyRequest C)
  /-- Whether some sender of the proxy channel is left. -/
  senders : Bool
  /-- The frames that have arrived and are not processed. -/
  inbound : List Frame
  /-- The outbound streams the peer has not acknowledged, as far as processed. -/
  unacked : List Nat
  /-- The payload frames handed to the streams. -/
  delivered : List Nat
  /-- The streams opened so far, with the requests they were opened for. -/
  opened : List (ProxyRequest C)
deriving DecidableEq, Repr

inductive Event (C : Type)
  | request (req : ProxyRequest C)
  | sendersDropped
  | arrive (f : Frame)
  | pollInbound
  | recv
  | recvClosed
  | openOk
  | openFails
deriving DecidableEq, Repr

variable {C : Type}

namespace State

def init : State C :=
  { phase := .selecting, queue := [], senders := true, inbound := [], unacked := []
    delivered := [], opened := [] }

/-- `poll_next_inbound` on one frame. The driver drops a stream that the client
opens and leaves its loop on an error or at the end of the connection. -/
def process (s : State C) : Frame → State C
  | .ack stream => { s with unacked := s.unacked.erase stream }
  | .data stream => { s with delivered := s.delivered ++ [stream] }
  | .openStream => s
  | .close => { s with phase := .ended }
  | .malformed => { s with phase := .ended }

/-- A stream for `req`; the proxy task is spawned and the loop goes on. -/
def openFor (s : State C) (req : ProxyRequest C) : State C :=
  { s with
    phase := .selecting
    unacked := s.unacked ++ [s.opened.length]
    opened := s.opened ++ [req] }

end State

/-- One step of the driver or of its surroundings. The `select!` is biased, so a
request is taken only when no frame is left to process. -/
inductive Step (K : Nat) : State C → Event C → State C → Prop
  | request {s : State C} {req : ProxyRequest C} :
      s.senders = true → s.queue.length < proxyChannelCapacity →
      Step K s (.request req) { s with queue := s.queue ++ [req] }
  | sendersDropped {s : State C} : Step K s .sendersDropped { s with senders := false }
  | arrive {s : State C} {f : Frame} : Step K s (.arrive f) { s with inbound := s.inbound ++ [f] }
  | pollInbound {s : State C} {f : Frame} {rest : List Frame} :
      s.phase = .selecting → s.inbound = f :: rest →
      Step K s .pollInbound ({ s with inbound := rest }.process f)
  | recv {s : State C} {req : ProxyRequest C} {rest : List (ProxyRequest C)} :
      s.phase = .selecting → s.inbound = [] → s.queue = req :: rest →
      Step K s .recv { s with queue := rest, phase := .opening req }
  | recvClosed {s : State C} :
      s.phase = .selecting → s.inbound = [] → s.queue = [] → s.senders = false →
      Step K s .recvClosed { s with phase := .ended }
  | openOk {s : State C} {req : ProxyRequest C} :
      s.phase = .opening req → s.unacked.length < K → Step K s .openOk (s.openFor req)
  | openFails {s : State C} {req : ProxyRequest C} :
      s.phase = .opening req → s.unacked.length < K →
      Step K s .openFails { s with phase := .ended }

/-- The driver waits in `poll_new_outbound` for an acknowledgement, which only
its own `poll_next_inbound` would process. -/
def Blocked (K : Nat) (s : State C) : Prop :=
  (∃ req, s.phase = .opening req) ∧ K ≤ s.unacked.length

/-- When a request is taken, fewer than `K` streams are unacknowledged. -/
def RoomAtRecv (K : Nat) (s : State C) (e : Event C) : Prop :=
  e = .recv → s.unacked.length < K

/-! ## Being blocked -/

/-- A blocked driver stays blocked, whatever visitors and the peer do, and no
payload reaches any stream. -/
theorem blocked_step {K : Nat} {s t : State C} {e : Event C} (h : Blocked K s)
    (hs : Step K s e t) : Blocked K t ∧ t.delivered = s.delivered := by
  obtain ⟨⟨req, hopening⟩, hfull⟩ := h
  cases hs with
  | request _ _ => exact ⟨⟨⟨req, hopening⟩, hfull⟩, rfl⟩
  | sendersDropped => exact ⟨⟨⟨req, hopening⟩, hfull⟩, rfl⟩
  | arrive => exact ⟨⟨⟨req, hopening⟩, hfull⟩, rfl⟩
  | pollInbound hselecting _ => rw [hopening] at hselecting; cases hselecting
  | recv hselecting _ _ => rw [hopening] at hselecting; cases hselecting
  | recvClosed hselecting _ _ _ => rw [hopening] at hselecting; cases hselecting
  | openOk _ hroom => exact absurd hroom (Nat.not_lt.mpr hfull)
  | openFails _ hroom => exact absurd hroom (Nat.not_lt.mpr hfull)

theorem blocked_forever {K : Nat} {s t : State C} {tr : List (State C × Event C × State C)}
    (h : Blocked K s) (hr : Run (Step K) s tr t) : Blocked K t ∧ t.delivered = s.delivered := by
  induction hr with
  | nil => exact ⟨h, rfl⟩
  | snoc _ hs ih =>
    obtain ⟨hblocked, hsame⟩ := blocked_step ih.1 hs
    exact ⟨hblocked, hsame.trans ih.2⟩

/-- What would end the wait: with one acknowledgement processed, a driver that
waits behind `K` streams could open its own. -/
theorem unblocked_by_ack {s : State C} {stream : Nat} (hmem : stream ∈ s.unacked) :
    ¬ Blocked s.unacked.length (s.process (.ack stream)) := by
  rintro ⟨_, hfull⟩
  have hlt : (s.unacked.erase stream).length < s.unacked.length := by
    rw [List.length_erase_of_mem hmem]
    exact Nat.sub_lt (List.length_pos_of_mem hmem) Nat.one_pos
  exact absurd hfull (Nat.not_le.mpr hlt)

theorem process_phase (s : State C) (f : Frame) :
    (s.process f).phase = s.phase ∨ (s.process f).phase = .ended := by
  cases f with
  | ack _ => exact .inl rfl
  | data _ => exact .inl rfl
  | openStream => exact .inl rfl
  | close => exact .inr rfl
  | malformed => exact .inr rfl

/-- A driver that is not blocked becomes blocked exactly by taking a request
when `K` streams are unacknowledged. -/
theorem blocked_after_step {K : Nat} {s t : State C} {e : Event C} (h : ¬ Blocked K s)
    (hs : Step K s e t) : ¬ Blocked K t ↔ RoomAtRecv K s e := by
  cases hs with
  | request _ _ => exact iff_of_true h nofun
  | sendersDropped => exact iff_of_true h nofun
  | arrive => exact iff_of_true h nofun
  | @pollInbound f rest hselecting _ =>
    refine iff_of_true ?_ nofun
    rintro ⟨⟨req, hopening⟩, _⟩
    rcases process_phase { s with inbound := rest } f with hphase | hphase
    · rw [hphase] at hopening
      exact absurd (hselecting.symm.trans hopening) nofun
    · rw [hphase] at hopening
      cases hopening
  | @recv req rest _ _ _ =>
    constructor
    · intro hfree _
      exact Nat.not_le.mp fun hfull => hfree ⟨⟨req, rfl⟩, hfull⟩
    · rintro hroom ⟨_, hfull⟩
      exact absurd (hroom rfl) (Nat.not_lt.mpr hfull)
  | recvClosed _ _ _ _ => exact iff_of_true (by rintro ⟨⟨_, hopening⟩, _⟩; cases hopening) nofun
  | openOk _ _ => exact iff_of_true (by rintro ⟨⟨_, hopening⟩, _⟩; cases hopening) nofun
  | openFails _ _ => exact iff_of_true (by rintro ⟨⟨_, hopening⟩, _⟩; cases hopening) nofun

/-- The driver is never blocked in a run if and only if, whenever it takes a
request, fewer than `K` of its streams are unacknowledged. -/
theorem blocked_exact {K : Nat} {s : State C} {tr : List (State C × Event C × State C)}
    (h : Run (Step K) State.init tr s) :
    (∀ x ∈ tr, ¬ Blocked K x.2.2) ↔ ∀ x ∈ tr, RoomAtRecv K x.1 x.2.1 := by
  refine h.forall_states_iff (fun _ _ _ (_ : True) _ => trivial)
    (fun s e t _ hfree hs => blocked_after_step hfree hs) trivial ?_
  rintro ⟨⟨_, hopening⟩, _⟩
  cases hopening

/-- Two visitors, the second of whom comes when the stream of the first is
acknowledged: one unacknowledged stream is enough of a limit. -/
theorem blocked_exact_one_at_a_time :
    ∃ tr s, Run (Step 1) (State.init (C := Nat)) tr s ∧ s.opened.length = 2 ∧
      ∀ x ∈ tr, ¬ Blocked 1 x.2.2 := by
  have first := ((Run.nil.snoc (@Step.request _ 1 (State.init (C := Nat)) ⟨"127.0.0.1:80", 0⟩ rfl
    (by decide))).snoc (.recv rfl rfl rfl)).snoc (.openOk rfl (by decide))
  have acked := (first.snoc (@Step.arrive _ _ _ (.ack 0))).snoc (.pollInbound rfl rfl)
  have second := ((acked.snoc (@Step.request _ _ _ ⟨"127.0.0.1:80", 1⟩ rfl (by decide))).snoc
    (.recv rfl rfl rfl)).snoc (.openOk rfl (by decide))
  refine ⟨_, _, second, rfl, (blocked_exact second).mpr ?_⟩
  simp only [List.mem_append, List.mem_singleton, or_imp, forall_and, forall_eq,
    List.not_mem_nil, RoomAtRecv, reduceCtorEq, false_implies, true_and]
  decide

/-! ## Enough visitors before the first answer -/

/-- The driver after it gave each of `n` visitors a stream and no frame arrived. -/
def unanswered (n : Nat) (req : ProxyRequest C) : State C :=
  { State.init with unacked := List.range n, opened := List.replicate n req }

theorem openFor_unanswered (n : Nat) (req : ProxyRequest C) :
    (unanswered n req).openFor req = unanswered (n + 1) req := by
  simp [State.openFor, State.init, unanswered, List.range_succ, List.replicate_succ']

/-- One more visitor arrives and is taken from the channel. -/
theorem run_taken {K : Nat} {tr : List (State C × Event C × State C)} (n : Nat)
    (req : ProxyRequest C) (h : Run (Step K) State.init tr (unanswered n req)) :
    ∃ tr', Run (Step K) State.init tr' { unanswered n req with phase := .opening req } :=
  ⟨_, (h.snoc (@Step.request _ _ _ req rfl (Nat.succ_pos 255))).snoc (.recv rfl rfl rfl)⟩

theorem run_unanswered (K : Nat) (req : ProxyRequest C) {n : Nat} (hn : n ≤ K) :
    ∃ tr, Run (Step K) State.init tr (unanswered n req) := by
  induction n with
  | zero => exact ⟨[], .nil⟩
  | succ n ih =>
    obtain ⟨tr, hr⟩ := ih (Nat.le_of_succ_le hn)
    obtain ⟨tr', hr'⟩ := run_taken n req hr
    have hroom : (List.range n).length < K := by rw [List.length_range]; exact hn
    rw [← openFor_unanswered]
    exact ⟨_, hr'.snoc (.openOk rfl hroom)⟩

theorem blocked_taken (n : Nat) (req : ProxyRequest C) :
    Blocked n { unanswered n req with phase := .opening req } :=
  ⟨⟨req, rfl⟩, Nat.le_of_eq List.length_range.symm⟩

/-- 257 visitors while the client answers none: the last one blocks the driver
(the limit of yamux 0.14 is 256). -/
theorem unanswered_visitors_block :
    ∃ tr s, Run (Step 256) (State.init (C := Nat)) tr s ∧ Blocked 256 s := by
  obtain ⟨tr, hr⟩ := run_unanswered 256 (⟨"127.0.0.1:80", 0⟩ : ProxyRequest Nat) (Nat.le_refl 256)
  obtain ⟨tr', hr'⟩ := run_taken 256 _ hr
  exact ⟨tr', _, hr', blocked_taken 256 _⟩

end MiniMask.Driver
