import MiniMask.Client.Bridge
import MiniMask.Tunnel.Proxy

/-!
# The idle timer of the bridge

The bridge with a clock, between two sides that read, write, stop and fail as they
like. A due timer fires before time goes on; there is no timer while the bridge is in
`write_all`.

1. The bridge never times out within `idle` of a read.
2. It has returned whenever nothing was transferred for longer than `idle`, if and only
   if no `write_all` stands still for longer than that (`idle_bounded`).
3. With a side that stops reading it need never return (`pinned`).
-/

namespace MiniMask.IdleTimer

open Lts

/-! ## Definitions -/

/-- `lastTransfer` is the time of the latest read or write of a byte, or of the start,
and `lastRead` that of the latest read. The code keeps neither. -/
structure State where
  now : Nat
  bridge : Bridge
  lastTransfer : Nat
  lastRead : Option Nat

inductive Event
  | delay (dt : Nat)
  | act (a : Bridge.Act)
deriving DecidableEq, Repr

def init (start : Nat) : State :=
  { now := start, bridge := .init start, lastTransfer := start, lastRead := none }

/-- The state after the action `a` has made the bridge `b`. -/
def State.after (s : State) (a : Bridge.Act) (b : Bridge) : State :=
  match a with
  | .read _ _ => { s with bridge := b, lastTransfer := s.now, lastRead := some s.now }
  | .write _ _ => { s with bridge := b, lastTransfer := s.now }
  | _ => { s with bridge := b }

/-- Time does not pass a deadline of the `select!`. -/
inductive Step (idle : Nat) : State → Event → State → Prop
  | delay {s : State} {dt : Nat} :
      (∀ since, s.bridge.phase = .selecting since → s.now + dt ≤ since + idle) →
      Step idle s (.delay dt) { s with now := s.now + dt }
  | act {s : State} {a : Bridge.Act} {b : Bridge} :
      Bridge.Step idle s.now s.bridge a b → Step idle s (.act a) (s.after a b)

/-- If nothing was transferred for longer than `idle`, the bridge has returned. -/
def Bounded (idle : Nat) (s : State) : Prop :=
  ¬ s.bridge.Returned → s.now ≤ s.lastTransfer + idle

/-- The timer fires only when nothing was read for `idle`. -/
def TimesOutIdle (idle : Nat) (s : State) (e : Event) : Prop :=
  e = .act .timeout → ∀ r, s.lastRead = some r → r + idle ≤ s.now

/-- No time passes in `write_all` beyond `idle` after the last byte transferred. -/
def WritesMove (idle : Nat) (s : State) (e : Event) : Prop :=
  ∀ dt x n off, e = .delay dt → s.bridge.phase = .writing x n off →
    s.now + dt ≤ s.lastTransfer + idle

/-! ## What the clock has seen -/

/-- The `select!` was entered after the last transfer. -/
structure Timely (s : State) : Prop where
  lastRead_le : ∀ r, s.lastRead = some r → r ≤ s.lastTransfer
  lastTransfer_le : s.lastTransfer ≤ s.now
  since_eq : ∀ since, s.bridge.phase = .selecting since → since = s.lastTransfer

section Timely

variable {idle : Nat} {s t : State} {e : Event}

theorem timely_init (start : Nat) : Timely (init start) :=
  ⟨nofun, Nat.le_refl _, fun _ h => by cases h; rfl⟩

theorem timely_step (h : Timely s) (hs : Step idle s e t) : Timely t := by
  cases hs with
  | @delay dt _ =>
    exact ⟨h.lastRead_le, Nat.le_add_right_of_le h.lastTransfer_le, h.since_eq⟩
  | act ha =>
    cases ha with
    | read _ _ _ => exact ⟨fun r hr => by cases hr; exact Nat.le_refl _, Nat.le_refl _, nofun⟩
    | writePart _ _ _ =>
      exact ⟨fun r hr => Nat.le_trans (h.lastRead_le r hr) h.lastTransfer_le, Nat.le_refl _, nofun⟩
    | writeRest _ _ _ =>
      refine ⟨fun r hr => Nat.le_trans (h.lastRead_le r hr) h.lastTransfer_le, Nat.le_refl _,
        fun since hsince => ?_⟩
      cases hsince
      rfl
    | eof _ => exact ⟨h.lastRead_le, h.lastTransfer_le, nofun⟩
    | readFails _ => exact ⟨h.lastRead_le, h.lastTransfer_le, nofun⟩
    | writeFails _ => exact ⟨h.lastRead_le, h.lastTransfer_le, nofun⟩
    | timeout _ _ => exact ⟨h.lastRead_le, h.lastTransfer_le, nofun⟩

/-- A timer is due `idle` after the last transfer, which no read is later than. -/
theorem timesOutIdle_step (h : Timely s) (hs : Step idle s e t) : TimesOutIdle idle s e := by
  rintro rfl r hr
  cases hs with
  | act ha =>
    cases ha with
    | timeout hphase hdue =>
      have hlate : s.lastTransfer + idle ≤ s.now := h.since_eq _ hphase ▸ hdue
      exact Nat.le_trans (Nat.add_le_add_right (h.lastRead_le r hr) idle) hlate

/-! ## When the bridge is bounded -/

/-- Only a delay can end the bound, and in the `select!` the timer forbids it. -/
theorem bounded_after_step (h : Timely s) (hs : Step idle s e t) :
    Bounded idle t ↔ WritesMove idle s e := by
  cases hs with
  | @delay dt hdue =>
    constructor
    · intro hafter dt' x n off heq hphase
      cases heq
      exact hafter fun ⟨r, hreturned⟩ => by cases hphase.symm.trans hreturned
    · intro hmove hrunning
      cases hphase : s.bridge.phase with
      | selecting since =>
        have hlast := h.since_eq since hphase
        exact hlast ▸ hdue since hphase
      | writing x n off => exact hmove dt x n off rfl hphase
      | returned r => exact absurd ⟨r, hphase⟩ hrunning
  | act ha =>
    refine iff_of_true (fun hrunning => ?_) nofun
    have hnow : s.now ≤ s.now + idle := Nat.le_add_right _ _
    cases ha with
    | read _ _ _ => exact hnow
    | writePart _ _ _ => exact hnow
    | writeRest _ _ _ => exact hnow
    | eof _ => exact absurd ⟨_, rfl⟩ hrunning
    | readFails _ => exact absurd ⟨_, rfl⟩ hrunning
    | writeFails _ => exact absurd ⟨_, rfl⟩ hrunning
    | timeout _ _ => exact absurd ⟨_, rfl⟩ hrunning

end Timely

/-- The timer never fires within `idle` of a read; and the bridge has always returned
once nothing was transferred for longer than `idle`, if and only if no `write_all` ever
stands still for longer. -/
theorem idle_bounded {idle start : Nat} {tr : List (State × Event × State)} {s : State}
    (h : Run (Step idle) (init start) tr s) :
    (∀ x ∈ tr, TimesOutIdle idle x.1 x.2.1) ∧
    ((∀ x ∈ tr, Bounded idle x.2.2) ↔ ∀ x ∈ tr, WritesMove idle x.1 x.2.1) := by
  have hsteps : ∀ s e t, Timely s → Step idle s e t → Timely t ∧ TimesOutIdle idle s e :=
    fun s e t htimely hs => ⟨timely_step htimely hs, timesOutIdle_step htimely hs⟩
  have hkeep : ∀ s e t, Timely s → Step idle s e t → Timely t :=
    fun _ _ _ htimely hs => timely_step htimely hs
  have hexact : ∀ s e t, Timely s → Bounded idle s → Step idle s e t →
      (Bounded idle t ↔ WritesMove idle s e) :=
    fun _ _ _ htimely _ hs => bounded_after_step htimely hs
  have hstart : Bounded idle (init start) := fun _ => Nat.le_add_right _ _
  exact ⟨h.forall_steps hsteps (timely_init start),
    h.forall_states_iff hkeep hexact (timely_init start) hstart⟩

/-- A chunk from the stream reaches the service within a second, and then both sides are
silent until the timer fires. -/
theorem idle_bounded_silence :
    ∃ tr s, Run (Step Proxy.proxyIdleTimeout) (init 0) tr s ∧
      s.bridge.phase = .returned (.error .timedOut) ∧ s.now = 301000 ∧
      ∀ x ∈ tr, Bounded Proxy.proxyIdleTimeout x.2.2 := by
  have read := Run.nil.snoc (@Step.act Proxy.proxyIdleTimeout (init 0) (.read .a [71, 69, 84]) _
    (.read rfl nofun (by decide)))
  have waited := read.snoc (@Step.delay _ _ 1000 nofun)
  have wrote := waited.snoc (.act (.writeRest (k := 3) rfl (by decide) rfl))
  have silent := wrote.snoc (@Step.delay _ _ 300000 fun since h => by
    cases h
    exact Nat.le_refl _)
  have timedOut := silent.snoc (.act (.timeout rfl (Nat.le_refl _)))
  refine ⟨_, _, timedOut, rfl, rfl, (idle_bounded timedOut).2.mpr ?_⟩
  simp only [List.mem_append, List.mem_singleton, or_imp, forall_and, forall_eq, List.not_mem_nil,
    false_implies, true_and]
  refine ⟨⟨⟨⟨nofun, ?_⟩, nofun⟩, nofun⟩, nofun⟩
  rintro dt x n off heq _
  cases heq
  decide

/-- With a chunk for the service pending in `write_all`, time goes on without end. -/
theorem pinned (idle d : Nat) :
    ∃ tr s, Run (Step idle) (init 0) tr s ∧ s.now = d ∧ s.lastTransfer = 0 ∧
      ¬ s.bridge.Returned := by
  have read := Run.nil.snoc (@Step.act idle (init 0) (.read .a [71, 69, 84]) _
    (.read rfl nofun (by decide)))
  have waited := read.snoc (@Step.delay _ _ d nofun)
  exact ⟨_, _, waited, Nat.zero_add d, rfl, fun ⟨r, h⟩ => by cases h⟩

/-- The service stops reading: after a day with no byte transferred, the bridge has not
returned. -/
theorem stopped_reader_pins :
    ∃ tr s, Run (Step Proxy.proxyIdleTimeout) (init 0) tr s ∧ s.now = 86400000 ∧
      s.lastTransfer = 0 ∧ ¬ s.bridge.Returned ∧ ¬ Bounded Proxy.proxyIdleTimeout s := by
  obtain ⟨tr, s, hrun, hnow, hlast, hnot⟩ := pinned Proxy.proxyIdleTimeout 86400000
  refine ⟨tr, s, hrun, hnow, hlast, hnot, fun h => ?_⟩
  have hle := h hnot
  rw [hnow, hlast] at hle
  exact absurd hle (by decide)

end MiniMask.IdleTimer
