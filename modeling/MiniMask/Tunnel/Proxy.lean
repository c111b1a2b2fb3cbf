import Mathlib.Logic.Basic
import MiniMask.Lib.Transition

/-!
# The two copy loops of a proxied connection (`tunnel/proxy.rs`)

`proxy_connection` sends the target and then runs one `copy_count` per
direction; the connection ends as soon as one of the two does. Each loop waits
for its next chunk under a timer of its own, which starts over after the chunk
is written and knows nothing of the other direction. Time is in milliseconds.
-/

namespace MiniMask.Proxy

open Lts

/-! ## Definitions -/

/-- `PROXY_IDLE_TIMEOUT`. -/
def proxyIdleTimeout : Nat := 300000

/-- The size of `buf`. -/
def bufSize : Nat := 16384

/-- `out` is visitor to client, `inc` is client to visitor. -/
inductive Dir
  | out
  | inc
deriving DecidableEq, Repr

/-- Where a `copy_count` stands: in the timed read that started at `since`, or
writing a chunk of `n` bytes, for which there is no timer. -/
inductive Phase
  | reading (since : Nat)
  | writing (n : Nat)
deriving DecidableEq, Repr

/-- One `copy_count`. `lastRead` is the time of its latest chunk; the code does
not keep it. -/
structure Copy where
  phase : Phase
  counter : Nat
  lastRead : Option Nat
deriving DecidableEq, Repr

/-- Why `proxy_connection` returned. -/
inductive End
  | targetFailed
  | eof (d : Dir)
  | readFailed (d : Dir)
  | writeFailed (d : Dir)
  | idle (d : Dir)
deriving DecidableEq, Repr

inductive Stage
  | sendingTarget
  | copying
  | ended (why : End) (time : Nat)
deriving DecidableEq, Repr

structure State where
  now : Nat
  stage : Stage
  copy : Dir → Copy

inductive Event
  | delay (dt : Nat)
  | targetWritten
  | targetFails
  | read (d : Dir) (n : Nat)
  | written (d : Dir)
  | eof (d : Dir)
  | readFails (d : Dir)
  | writeFails (d : Dir)
  | timeout (d : Dir)
deriving DecidableEq, Repr

namespace State

/-- Before `write_target`. -/
def init : State :=
  { now := 0, stage := .sendingTarget
    copy := fun _ => { phase := .reading 0, counter := 0, lastRead := none } }

/-- Both loops start reading. -/
def startCopying (s : State) : State :=
  { s with
    stage := .copying
    copy := fun d => { s.copy d with phase := .reading s.now } }

def setCopy (s : State) (d : Dir) (c : Copy) : State :=
  { s with copy := fun d' => if d' = d then c else s.copy d' }

def readChunk (s : State) (d : Dir) (n : Nat) : State :=
  s.setCopy d { s.copy d with phase := .writing n, lastRead := some s.now }

/-- The chunk is written, flushed and counted; the next read gets a new timer. -/
def wroteChunk (s : State) (d : Dir) (n : Nat) : State :=
  s.setCopy d { s.copy d with phase := .reading s.now, counter := (s.copy d).counter + n }

def finish (s : State) (why : End) : State := { s with stage := .ended why s.now }

end State

/-- One step of `proxy_connection`.

* A timer may fire at any time from its deadline on, as long as its read has not
  returned.
* A read returns at most `bufSize` bytes; `eof` is the read of none. -/
inductive Step : State → Event → State → Prop
  | delay {s : State} {dt : Nat} : Step s (.delay dt) { s with now := s.now + dt }
  | targetWritten {s : State} : s.stage = .sendingTarget → Step s .targetWritten s.startCopying
  | targetFails {s : State} :
      s.stage = .sendingTarget → Step s .targetFails (s.finish .targetFailed)
  | read {s : State} {d : Dir} {since n : Nat} :
      s.stage = .copying → (s.copy d).phase = .reading since → 0 < n → n ≤ bufSize →
      Step s (.read d n) (s.readChunk d n)
  | written {s : State} {d : Dir} {n : Nat} :
      s.stage = .copying → (s.copy d).phase = .writing n → Step s (.written d) (s.wroteChunk d n)
  | eof {s : State} {d : Dir} {since : Nat} :
      s.stage = .copying → (s.copy d).phase = .reading since → Step s (.eof d) (s.finish (.eof d))
  | readFails {s : State} {d : Dir} {since : Nat} :
      s.stage = .copying → (s.copy d).phase = .reading since →
      Step s (.readFails d) (s.finish (.readFailed d))
  | writeFails {s : State} {d : Dir} {n : Nat} :
      s.stage = .copying → (s.copy d).phase = .writing n →
      Step s (.writeFails d) (s.finish (.writeFailed d))
  | timeout {s : State} {d : Dir} {since : Nat} :
      s.stage = .copying → (s.copy d).phase = .reading since →
      since + proxyIdleTimeout ≤ s.now → Step s (.timeout d) (s.finish (.idle d))

/-- If the connection was ended by the idle timeout, no byte was read in either
direction during the timeout before that moment. -/
def CutOnlyIdle (s : State) : Prop :=
  ∀ d time, s.stage = .ended (.idle d) time →
    ∀ d' r, (s.copy d').lastRead = some r → r + proxyIdleTimeout ≤ time

/-- A timer fires only if the other direction has read nothing since it started. -/
def CutByLastReader (s : State) (e : Event) : Prop :=
  ∀ d since, e = .timeout d → (s.copy d).phase = .reading since →
    ∀ d', d' ≠ d → ∀ r, (s.copy d').lastRead = some r → r ≤ since

/-- A timer fires at its deadline and not later. -/
def OnTime (s : State) (e : Event) : Prop :=
  ∀ d since, e = .timeout d → (s.copy d).phase = .reading since →
    s.now = since + proxyIdleTimeout

/-! ## What the clock has seen -/

/-- No chunk comes from the future, and none was read by a loop after it started
its current wait. -/
structure Timely (s : State) : Prop where
  lastRead_le_now : ∀ d r, (s.copy d).lastRead = some r → r ≤ s.now
  lastRead_le_since : ∀ d since r, (s.copy d).phase = .reading since →
    (s.copy d).lastRead = some r → r ≤ since

@[simp] theorem setCopy_self (s : State) (d : Dir) (c : Copy) : (s.setCopy d c).copy d = c := by
  simp [State.setCopy]

theorem setCopy_other (s : State) {d d' : Dir} (c : Copy) (h : d' ≠ d) :
    (s.setCopy d c).copy d' = s.copy d' := by
  simp [State.setCopy, h]

theorem timely_init : Timely State.init :=
  ⟨fun _ _ h => (nomatch h), fun _ _ _ _ h => (nomatch h)⟩

theorem timely_setCopy {s : State} {d : Dir} {c : Copy} (h : Timely s)
    (hnow : ∀ r, c.lastRead = some r → r ≤ s.now)
    (hsince : ∀ since r, c.phase = .reading since → c.lastRead = some r → r ≤ since) :
    Timely (s.setCopy d c) := by
  constructor
  · intro d' r hr
    rcases eq_or_ne d' d with rfl | hne
    · rw [setCopy_self] at hr
      exact hnow r hr
    · rw [setCopy_other s c hne] at hr
      exact h.lastRead_le_now d' r hr
  · intro d' since r hphase hr
    rcases eq_or_ne d' d with rfl | hne
    · rw [setCopy_self] at hphase hr
      exact hsince since r hphase hr
    · rw [setCopy_other s c hne] at hphase hr
      exact h.lastRead_le_since d' since r hphase hr

theorem timely_step {s t : State} {e : Event} (h : Timely s) (hs : Step s e t) : Timely t := by
  cases hs with
  | @delay dt =>
    refine ⟨fun d r hr => ?_, h.lastRead_le_since⟩
    show r ≤ s.now + dt
    exact Nat.le_add_right_of_le (h.lastRead_le_now d r hr)
  | targetWritten _ =>
    refine ⟨h.lastRead_le_now, fun d since r hphase hr => ?_⟩
    cases hphase
    exact h.lastRead_le_now d r hr
  | read _ _ _ _ =>
    refine timely_setCopy h (fun r hr => ?_) fun since r hphase _ => (nomatch hphase)
    cases hr
    exact Nat.le_refl _
  | @written d n _ _ =>
    refine timely_setCopy h (h.lastRead_le_now d) fun since r hphase hr => ?_
    cases hphase
    exact h.lastRead_le_now d r hr
  | targetFails _ => exact ⟨h.lastRead_le_now, h.lastRead_le_since⟩
  | eof _ _ => exact ⟨h.lastRead_le_now, h.lastRead_le_since⟩
  | readFails _ _ => exact ⟨h.lastRead_le_now, h.lastRead_le_since⟩
  | writeFails _ _ => exact ⟨h.lastRead_le_now, h.lastRead_le_since⟩
  | timeout _ _ _ => exact ⟨h.lastRead_le_now, h.lastRead_le_since⟩

/-! ## When the idle timeout ends a connection -/

/-- A connection that is still copying was not cut. -/
theorem cutOnlyIdle_of_copying {s : State} (h : s.stage = .copying) : CutOnlyIdle s := by
  intro d time hend
  rw [h] at hend
  cases hend

/-- One step keeps `CutOnlyIdle` if a timer that fires belongs to the last
reader. -/
theorem cutOnlyIdle_step {s t : State} {e : Event} (h : Timely s) (hgood : CutOnlyIdle s)
    (hs : Step s e t) (hok : CutByLastReader s e) : CutOnlyIdle t := by
  cases hs with
  | delay => exact hgood
  | targetWritten _ => exact cutOnlyIdle_of_copying rfl
  | read hcopying _ _ _ => exact cutOnlyIdle_of_copying hcopying
  | written hcopying _ => exact cutOnlyIdle_of_copying hcopying
  | @timeout d since _ hphase hdue =>
    intro d' time hend d'' r hr
    cases hend
    have hle : r ≤ since := by
      rcases eq_or_ne d'' d with rfl | hne
      · exact h.lastRead_le_since d'' since r hphase hr
      · exact hok d since rfl hphase d'' hne r hr
    exact Nat.le_trans (Nat.add_le_add_right hle _) hdue
  | targetFails _ => intro d time hend; cases hend
  | eof _ _ => intro d time hend; cases hend
  | readFails _ _ => intro d time hend; cases hend
  | writeFails _ _ => intro d time hend; cases hend

/-- When timers fire at their deadline, a step that keeps `CutOnlyIdle` fires no
timer but the last reader's. -/
theorem cutByLastReader_of_step {s t : State} {e : Event} (hs : Step s e t) (hon : OnTime s e)
    (hgood : CutOnlyIdle t) : CutByLastReader s e := by
  rintro d since rfl hphase d' _ r hr
  cases hs with
  | timeout _ _ _ =>
    have hidle : r + proxyIdleTimeout ≤ s.now := hgood d s.now rfl d' r hr
    rw [hon d since rfl hphase] at hidle
    exact Nat.le_of_add_le_add_right hidle

/-- The idle timeout cuts only idle connections in every run whose timers fire
only for the direction that read last. When timers fire at their deadline, these
are the only runs in which it does. -/
theorem idle_cut_exact {tr : List (State × Event × State)} {s : State}
    (h : Run Step State.init tr s) :
    ((∀ x ∈ tr, CutByLastReader x.1 x.2.1) → ∀ x ∈ tr, CutOnlyIdle x.2.2) ∧
    ((∀ x ∈ tr, OnTime x.1 x.2.1) →
      ((∀ x ∈ tr, CutOnlyIdle x.2.2) ↔ ∀ x ∈ tr, CutByLastReader x.1 x.2.1)) := by
  have hstart : CutOnlyIdle State.init := fun _ _ hend => nomatch hend
  constructor
  · intro hok x hx
    have hkeep : ∀ s e t, Timely s ∧ CutOnlyIdle s → Guarded Step CutByLastReader s e t →
        Timely t ∧ CutOnlyIdle t := fun s e t hs ht =>
      ⟨timely_step hs.1 ht.1, cutOnlyIdle_step hs.1 hs.2 ht.1 ht.2⟩
    exact ((h.guarded hok).forall_states hkeep ⟨timely_init, hstart⟩ x hx).2
  · intro hon
    refine (h.guarded hon).forall_states_iff
      (fun s e t (hs : Timely s) (ht : Guarded Step OnTime s e t) => timely_step hs ht.1) ?_
      timely_init hstart
    intro s e t htimely hgood ht
    exact ⟨fun htgood => cutByLastReader_of_step ht.1 ht.2 htgood,
      cutOnlyIdle_step htimely hgood ht.1⟩

/-- A request and its answer within a millisecond and then silence on both
sides: the timer that fires belongs to a last reader. -/
theorem idle_cut_exact_silence :
    ∃ tr s, Run Step State.init tr s ∧ s.stage = .ended (.idle .out) 300000 ∧
      ∀ x ∈ tr, CutOnlyIdle x.2.2 := by
  have start := Run.nil.snoc (@Step.targetWritten State.init rfl)
  have request := (start.snoc (.read (d := .out) (n := 200) rfl rfl (by decide) (by decide))).snoc
    (.written (d := .out) (n := 200) rfl rfl)
  have answer := (request.snoc (.read (d := .inc) (n := 900) rfl rfl (by decide) (by decide))).snoc
    (.written (d := .inc) (n := 900) rfl rfl)
  have silence := (answer.snoc (@Step.delay _ 300000)).snoc
    (.timeout (d := .out) rfl rfl (by decide))
  refine ⟨_, _, silence, rfl, (idle_cut_exact silence).1 ?_⟩
  simp only [List.mem_append, List.mem_singleton, or_imp, forall_and, forall_eq,
    List.not_mem_nil, CutByLastReader, reduceCtorEq, false_implies, implies_true, true_and]
  rintro d since heq hphase d' hne r hr
  cases heq
  cases d' with
  | out => exact absurd rfl hne
  | inc => cases hr; exact Nat.zero_le _

/-! ## A long download -/

/-- A download with a chunk every 100 s, the last one second before the timer of
the silent direction `out` fires: the connection is cut while it is in use. -/
theorem download_cut :
    ∃ tr s, Run Step State.init tr s ∧ s.stage = .ended (.idle .out) 300000 ∧
      (s.copy .inc).lastRead = some 299000 ∧ ¬ CutOnlyIdle s := by
  have start := Run.nil.snoc (@Step.targetWritten State.init rfl)
  have first := ((start.snoc (@Step.delay _ 100000)).snoc
    (.read (d := .inc) (n := 16384) rfl rfl (by decide) (by decide))).snoc
    (.written (d := .inc) (n := 16384) rfl rfl)
  have second := ((first.snoc (@Step.delay _ 100000)).snoc
    (.read (d := .inc) (n := 16384) rfl rfl (by decide) (by decide))).snoc
    (.written (d := .inc) (n := 16384) rfl rfl)
  have third := ((second.snoc (@Step.delay _ 99000)).snoc
    (.read (d := .inc) (n := 16384) rfl rfl (by decide) (by decide))).snoc
    (.written (d := .inc) (n := 16384) rfl rfl)
  have cut := (third.snoc (@Step.delay _ 1000)).snoc
    (.timeout (d := .out) rfl rfl (by decide))
  refine ⟨_, _, cut, rfl, rfl, fun h => ?_⟩
  exact absurd (h .out 300000 rfl .inc 299000 rfl) (by decide)

end MiniMask.Proxy
