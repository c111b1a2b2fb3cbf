import MiniMask.Client.Bridge
import MiniMask.Lib.Pipe

/-!
# Half-closed connections

The bridge between two peers of which each sends a stream of bytes and then closes its
sending half. Nothing fails and no timer fires; the bytes come in pieces of any size and
are taken in pieces of any size.

`half_close_exact`: the bridge always returns, and it has carried both streams whole if
and only if the side that it found at its end first was the last to have anything to
send. `answer_lost` is a peer that closes its half before the answer has come.
-/

namespace MiniMask.HalfClose

open Lts

/-! ## Definitions -/

/-- `input x` is what the peer on side `x` sends up to its end of file, `output x` what
it was given. -/
structure State where
  bridge : Bridge
  input : Side → Pipe UInt8
  output : Side → List UInt8

def init (stream : Side → List UInt8) : State :=
  { bridge := .init 0, input := fun x => .ofSent (stream x), output := fun _ => [] }

/-- What the peers let the bridge do. -/
def State.Offers (s : State) : Bridge.Act → Prop
  | .read x bytes => bytes <+: (s.input x).inFlight
  | .eof x => (s.input x).inFlight = []
  | .write _ _ => True
  | _ => False

/-- The state after the action `a` has made the bridge `b`. -/
def State.after (s : State) (a : Bridge.Act) (b : Bridge) : State where
  bridge := b
  input := fun x => (s.input x).receive (a.taken x).length
  output := fun x => s.output x ++ a.given x

inductive Step (idle : Nat) (s : State) (a : Bridge.Act) : State → Prop
  | act {now : Nat} {b : Bridge} :
      Bridge.Step idle now s.bridge a b → s.Offers a → Step idle s a (s.after a b)

/-- Each peer has what the other one sent, and the result has the lengths. -/
structure Carried (stream : Side → List UInt8) (s : State) : Prop where
  result : s.bridge.phase = .returned (.ok ((stream .a).length, (stream .b).length))
  output_eq : ∀ x, s.output x.other = stream x

/-- At the end of one side, nothing is left to read on the other. -/
def OtherDone (s : State) (a : Bridge.Act) : Prop :=
  ∀ x, a = .eof x → (s.input x.other).inFlight = []

/-! ## Where the bytes are -/

/-- What was read from a side was given to the other one or is being written. -/
structure Carrying (stream : Side → List UInt8) (s : State) : Prop where
  sent : ∀ x, (s.input x).sent = stream x
  flow : ∀ x, s.output x.other ++ s.bridge.pending x = (s.input x).received
  counted : ∀ x, s.bridge.copied x + s.bridge.chunk x = (s.input x).received.length
  sound : s.bridge.Sound
  result : ∀ r, s.bridge.phase = .returned r → r = .ok (s.bridge.copied .a, s.bridge.copied .b)

section Steps

variable {idle : Nat} {stream : Side → List UInt8} {s t : State} {a : Bridge.Act}

theorem carrying_init : Carrying stream (init stream) :=
  ⟨fun _ => rfl, fun _ => rfl, fun _ => rfl, nofun, nofun⟩

/-- What an action takes is what comes next. -/
theorem take_taken (h : s.Offers a) (x : Side) :
    (s.input x).inFlight.take (a.taken x).length = a.taken x := by
  cases a with
  | read y bytes =>
    rcases eq_or_ne y x with rfl | hne
    · simpa [Bridge.Act.taken] using (List.prefix_iff_eq_take.mp h).symm
    · simp [Bridge.Act.taken, hne]
  | _ => rfl

theorem carrying_step (h : Carrying stream s) (hs : Step idle s a t) : Carrying stream t := by
  obtain ⟨hact, hoffers⟩ := hs
  have hok : ∀ y, a ≠ .writeFails y := fun y heq => by rw [heq] at hoffers; exact hoffers
  refine ⟨h.sent, fun x => ?_, fun x => ?_, Bridge.sound_step h.sound hact, fun r hr => ?_⟩
  · have hflow := Bridge.pending_step hact hok x
    show (s.output x.other ++ a.given x.other) ++ _ = (s.input x).received ++ _
    rw [take_taken hoffers, ← h.flow x, List.append_assoc, List.append_assoc, hflow]
    rfl
  · have hcount := Bridge.copied_step hact hok x
    show _ = ((s.input x).received ++ _).length
    rw [take_taken hoffers, List.length_append, ← h.counted x]
    exact hcount
  · cases hact with
    | read _ _ _ => cases hr
    | writePart _ _ _ => cases hr
    | writeRest _ _ _ => cases hr
    | eof _ => cases hr; rfl
    | readFails _ => exact hoffers.elim
    | writeFails _ => exact hoffers.elim
    | timeout _ _ => exact hoffers.elim

/-- Only the end of a side makes the bridge return, and then nothing is pending. -/
theorem returned_of_step (hs : Step idle s a t) :
    ¬ s.bridge.Returned ∧ (t.bridge.Returned ↔ ∃ x, a = .eof x) := by
  obtain ⟨hact, hoffers⟩ := hs
  have hrunning : ∀ {p : Bridge.Phase}, s.bridge.phase = p → (∀ r, p ≠ .returned r) →
      ¬ s.bridge.Returned := fun hp hne ⟨r, hr⟩ => hne r (hp.symm.trans hr)
  cases hact with
  | read hphase _ _ => exact ⟨hrunning hphase nofun, iff_of_false nofun nofun⟩
  | writePart hphase _ _ => exact ⟨hrunning hphase nofun, iff_of_false nofun nofun⟩
  | writeRest hphase _ _ => exact ⟨hrunning hphase nofun, iff_of_false nofun nofun⟩
  | @eof since x hphase => exact ⟨hrunning hphase nofun, iff_of_true ⟨_, rfl⟩ ⟨x, rfl⟩⟩
  | readFails _ => exact hoffers.elim
  | writeFails _ => exact hoffers.elim
  | timeout _ _ => exact hoffers.elim

/-- A bridge that has returned has carried both streams if nothing is left to read. -/
theorem carried_iff (h : Carrying stream s) (hreturned : s.bridge.Returned) :
    Carried stream s ↔ ∀ x, (s.input x).inFlight = [] := by
  obtain ⟨r, hr⟩ := hreturned
  have hpending : ∀ x, s.bridge.pending x = [] := fun x => by simp [Bridge.pending, hr]
  have hchunk : ∀ x, s.bridge.chunk x = 0 := fun x => by simp [Bridge.chunk, hr]
  have hflow : ∀ x, s.output x.other = (s.input x).received := fun x => by
    rw [← h.flow x, hpending, List.append_nil]
  have hsplit : ∀ x, (s.input x).received ++ (s.input x).inFlight = stream x := fun x => by
    rw [Pipe.received_append_inFlight, h.sent]
  constructor
  · intro hcarried x
    have hwhole := hsplit x
    rw [← hflow, hcarried.output_eq] at hwhole
    exact List.append_right_eq_self.mp hwhole
  · intro hempty
    have hall : ∀ x, (s.input x).received = stream x := fun x => by
      rw [← hsplit x, hempty x, List.append_nil]
    refine ⟨?_, fun x => (hflow x).trans (hall x)⟩
    have hcount : ∀ x, s.bridge.copied x = (stream x).length := fun x => by
      rw [← hall x, ← h.counted x, hchunk, Nat.add_zero]
    rw [hr, h.result r hr, hcount, hcount]

end Steps

/-! ## The bridge returns -/

/-- Two steps for each byte to read and one for each byte to write. -/
def bytesLeft (s : State) (x : Side) : Nat :=
  2 * (s.input x).inFlight.length + (s.bridge.pending x).length

/-- One step to return. -/
def returnLeft : Bridge.Phase → Nat
  | .returned _ => 0
  | _ => 1

/-- A bound on the steps to come. -/
def stepsLeft (s : State) : Nat := bytesLeft s .a + bytesLeft s .b + returnLeft s.bridge.phase

section Returns

variable {idle : Nat} {stream : Side → List UInt8} {s t : State} {a : Bridge.Act}

theorem bytesLeft_step (hs : Step idle s a t) (x : Side) :
    bytesLeft t x + (a.taken x).length + (a.given x.other).length = bytesLeft s x := by
  obtain ⟨hact, hoffers⟩ := hs
  have hok : ∀ y, a ≠ .writeFails y := fun y heq => by rw [heq] at hoffers; exact hoffers
  have hpending := congrArg List.length (Bridge.pending_step hact hok x)
  have htaken := congrArg List.length (take_taken hoffers x)
  simp only [List.length_append, List.length_take] at hpending htaken
  simp only [bytesLeft, State.after, Pipe.inFlight_receive, List.length_drop]
  omega

/-- Every step takes or gives a byte, or it is the end of a side. -/
theorem moves_or_eof (h : s.bridge.Sound) (hs : Step idle s a t) :
    (∃ x, a = .eof x) ∨ ∃ x, 0 < (a.taken x).length + (a.given x.other).length := by
  obtain ⟨hact, hoffers⟩ := hs
  cases hact with
  | @read since x bytes _ hne _ =>
    refine .inr ⟨x, Nat.add_pos_left ?_ _⟩
    simpa [Bridge.Act.taken] using List.length_pos_iff.mpr hne
  | @writePart x n off k hphase hk hlt =>
    refine .inr ⟨x, Nat.add_pos_right _ ?_⟩
    simpa [Bridge.Act.given, h.length_slice hphase (Nat.le_of_lt hlt)] using hk
  | @writeRest x n off k hphase hk hrest =>
    refine .inr ⟨x, Nat.add_pos_right _ ?_⟩
    simpa [Bridge.Act.given, h.length_slice hphase (Nat.le_of_eq hrest)] using hk
  | @eof since x _ => exact .inl ⟨x, rfl⟩
  | readFails _ => exact hoffers.elim
  | writeFails _ => exact hoffers.elim
  | timeout _ _ => exact hoffers.elim

theorem returnLeft_of_running (h : ¬ s.bridge.Returned) : returnLeft s.bridge.phase = 1 := by
  cases hphase : s.bridge.phase with
  | returned r => exact absurd ⟨r, hphase⟩ h
  | selecting since => rfl
  | writing x n off => rfl

theorem stepsLeft_step (h : Carrying stream s) (hs : Step idle s a t) :
    stepsLeft t < stepsLeft s := by
  obtain ⟨hrunning, hreturns⟩ := returned_of_step hs
  have hone := returnLeft_of_running hrunning
  have ha := bytesLeft_step hs .a
  have hb := bytesLeft_step hs .b
  unfold stepsLeft
  rcases moves_or_eof h.sound hs with heof | ⟨x, hpos⟩
  · obtain ⟨r, hr⟩ := hreturns.mpr heof
    have hzero : returnLeft t.bridge.phase = 0 := by rw [hr]; rfl
    omega
  · have hle : returnLeft t.bridge.phase ≤ 1 := by
      cases t.bridge.phase with
      | returned r => exact Nat.zero_le 1
      | selecting since => exact Nat.le_refl 1
      | writing y n off => exact Nat.le_refl 1
    cases x with
    | a => omega
    | b => omega

/-- A bridge that has not returned can go on. -/
theorem step_of_running (idle : Nat) (h : Carrying stream s) (hrunning : ¬ s.bridge.Returned) :
    ∃ a t, Step idle s a t := by
  cases hphase : s.bridge.phase with
  | returned r => exact absurd ⟨r, hphase⟩ hrunning
  | selecting since =>
    cases hinput : (s.input .a).inFlight with
    | nil => exact ⟨_, _, .act (@Bridge.Step.eof idle 0 s.bridge since .a hphase) hinput⟩
    | cons byte rest =>
      have hread := @Bridge.Step.read idle 0 s.bridge since .a [byte] hphase nofun
        (show 1 ≤ 16384 by decide)
      refine ⟨_, _, .act hread ?_⟩
      show [byte] <+: (s.input .a).inFlight
      rw [hinput]
      exact ⟨rest, rfl⟩
  | writing x n off =>
    have hlt := (h.sound x n off hphase).1
    have hwrite := @Bridge.Step.writeRest idle 0 s.bridge x n off (n - off) hphase
      (Nat.sub_pos_of_lt hlt) (Nat.add_sub_cancel' (Nat.le_of_lt hlt))
    exact ⟨_, _, .act hwrite trivial⟩

/-- Up to a state that has not returned, no end of a side was found. -/
theorem no_eof_of_running {tr : List (State × Bridge.Act × State)} {s₀ : State}
    (run : Run (Step idle) s₀ tr s) (hrunning : ¬ s.bridge.Returned) :
    ∀ x ∈ tr, ∀ y, x.2.1 ≠ .eof y := by
  induction run with
  | nil => exact List.forall_mem_nil _
  | snoc _ hs ih =>
    obtain ⟨hbefore, hreturns⟩ := returned_of_step hs
    refine List.forall_mem_append.mpr ⟨ih hbefore, List.forall_mem_singleton.mpr fun y heq => ?_⟩
    exact hrunning (hreturns.mpr ⟨y, heq⟩)

end Returns

/-- The bridge returns after finitely many steps, and the two streams have been carried
whole if and only if the other side had nothing left when one was found at its end. -/
theorem half_close_exact {idle : Nat} (stream : Side → List UInt8)
    {tr : List (State × Bridge.Act × State)} {s : State}
    (run : Run (Step idle) (init stream) tr s) :
    (tr.length ≤ 2 * (stream .a).length + 2 * (stream .b).length + 1 ∧
      (¬ s.bridge.Returned → ∃ a t, Step idle s a t)) ∧
    (s.bridge.Returned → (Carried stream s ↔ ∀ x ∈ tr, OtherDone x.1 x.2.1)) := by
  have hkeep : ∀ s a t, Carrying stream s → Step idle s a t → Carrying stream t :=
    fun _ _ _ h hs => carrying_step h hs
  have hcarrying : Carrying stream s := run.keeps hkeep carrying_init
  have hlength := run.length_le hkeep (fun _ _ _ h hs => stepsLeft_step h hs) carrying_init
  have hstart : stepsLeft (init stream) = 2 * (stream .a).length + 2 * (stream .b).length + 1 := rfl
  refine ⟨⟨by omega, step_of_running idle hcarrying⟩, fun hreturned => ?_⟩
  rw [carried_iff hcarrying hreturned]
  cases run with
  | nil => obtain ⟨r, hr⟩ := hreturned; cases hr
  | @snoc tr s t a run hs =>
    -- the last step found the end of a side, and no step before it did
    obtain ⟨hbefore, hreturns⟩ := returned_of_step hs
    obtain ⟨x, rfl⟩ := hreturns.mp hreturned
    have hnone := no_eof_of_running run hbefore
    obtain ⟨hact, hoffers⟩ := hs
    have hsame : ∀ b y, ((s.after (.eof x) b).input y).inFlight = (s.input y).inFlight :=
      fun b y => by simp [State.after, Bridge.Act.taken]
    constructor
    · intro hempty
      refine List.forall_mem_append.mpr ⟨fun z hz y heq => absurd heq (hnone z hz y),
        List.forall_mem_singleton.mpr fun y heq => ?_⟩
      rw [← hsame]
      exact hempty y.other
    · intro hdone y
      have hlast := hdone _ (List.mem_append_right _ (List.mem_singleton_self _)) x rfl
      rw [hsame]
      rcases eq_or_ne y x with rfl | hne
      · exact hoffers
      · rw [Side.eq_other hne]
        exact hlast

/-- The peers of the two runs below: a request and its answer. -/
def exchange : Side → List UInt8
  | .a => [71, 69, 84]
  | .b => [50, 48, 48]

/-- The answer comes, and then the visitor closes its half. -/
theorem half_close_exact_answered :
    ∃ tr s, Run (Step 300000) (init exchange) tr s ∧ s.bridge.Returned ∧ Carried exchange s := by
  have read := Run.nil.snoc (@Step.act 300000 (init exchange) (.read .a [71, 69, 84]) 0 _
    (.read rfl nofun (by decide)) List.prefix_rfl)
  have wrote := read.snoc (@Step.act _ _ _ 0 _ (.writeRest (k := 3) rfl (by decide) rfl) trivial)
  have answer := wrote.snoc (@Step.act _ _ (.read .b [50, 48, 48]) 0 _ (.read rfl nofun (by decide))
    List.prefix_rfl)
  have passed := answer.snoc (@Step.act _ _ _ 0 _ (.writeRest (k := 3) rfl (by decide) rfl) trivial)
  have closed := passed.snoc (@Step.act _ _ (.eof .a) 0 _ (.eof rfl) rfl)
  refine ⟨_, _, closed, ⟨_, rfl⟩, ((half_close_exact exchange closed).2 ⟨_, rfl⟩).mpr ?_⟩
  simp only [List.mem_append, List.mem_singleton, or_imp, forall_and, forall_eq, List.not_mem_nil,
    false_implies, OtherDone, reduceCtorEq, implies_true, true_and]
  intro x heq
  cases heq
  rfl

/-- The visitor closes its half after the request: the bridge returns `Ok` and the answer
is never read. -/
theorem answer_lost :
    ∃ tr s, Run (Step 300000) (init exchange) tr s ∧ s.bridge.phase = .returned (.ok (3, 0)) ∧
      s.output .a = [] ∧ ¬ Carried exchange s := by
  have read := Run.nil.snoc (@Step.act 300000 (init exchange) (.read .a [71, 69, 84]) 0 _
    (.read rfl nofun (by decide)) List.prefix_rfl)
  have wrote := read.snoc (@Step.act _ _ _ 0 _ (.writeRest (k := 3) rfl (by decide) rfl) trivial)
  have closed := wrote.snoc (@Step.act _ _ (.eof .a) 0 _ (.eof rfl) rfl)
  refine ⟨_, _, closed, rfl, rfl, fun h => ?_⟩
  have hanswer : [] = exchange .b := h.output_eq .b
  cases hanswer

end MiniMask.HalfClose
