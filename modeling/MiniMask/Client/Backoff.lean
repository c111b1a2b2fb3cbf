import Mathlib.Algebra.Ring.Nat
import Mathlib.Data.List.Induction
import Mathlib.Tactic.ByContra
import MiniMask.Lib.Transition

/-!
# The reconnect delay (`client.rs`, `run_supervised`)

The loop makes an attempt with `run_once`, sleeps, and only then adapts `backoff` to the
attempt: what it sleeps after an attempt was chosen by the attempts before it. The jitter
and the log lines are left out.

`backoff_exact` is the delay after every attempt of every run: it is the documented one
except where a tunnel that had been up is lost right after a failed attempt.
-/

namespace MiniMask.Supervisor

open Lts

/-! ## Definitions -/

/-- `INITIAL_BACKOFF`, in milliseconds. -/
def initialBackoff : Nat := 500

/-- `MAX_BACKOFF`. -/
def maxBackoff : Nat := 30000

/-- What `run_once` returned: `Ok(())`, when the tunnel was up and was closed, or an
error from before. -/
inductive Outcome
  | closed
  | failed
deriving DecidableEq, Repr

/-- Where `run_once` stands. -/
inductive Stage
  | tcp
  | tls
  | handshake
  | session
deriving DecidableEq, Repr

inductive Phase
  | checking
  | attempting (stage : Stage)
  | attempted (o : Outcome)
  | sleeping (o : Outcome)
  | returned
deriving DecidableEq, Repr

/-- An attempt and the base delay after it. -/
structure Attempt where
  outcome : Outcome
  delay : Nat
deriving DecidableEq, Repr

/-- `attempts` is what happened so far; the code does not keep it. -/
structure State where
  phase : Phase
  backoff : Nat
  cancelled : Bool
  attempts : List Attempt
deriving DecidableEq, Repr

inductive Event
  | cancel
  | stop
  | connect
  | advance (stage : Stage)
  | fail (stage : Stage)
  | close
  | sleep
  | wake
deriving DecidableEq, Repr

def init : State :=
  { phase := .checking, backoff := initialBackoff, cancelled := false, attempts := [] }

/-- The last lines of the loop. -/
def nextBackoff (o : Outcome) (backoff : Nat) : Nat :=
  match o with
  | .closed => initialBackoff
  | .failed => min (backoff * 2) maxBackoff

/-- The stage after `stage`, with TLS or without. -/
def Stage.next (useTls : Bool) : Stage → Stage
  | .tcp => if useTls then .tls else .handshake
  | .tls => .handshake
  | .handshake => .session
  | .session => .session

/-- One step of `run_supervised`. Once cancelled, it may still go on until it looks at the
token. -/
inductive Step (useTls : Bool) (s : State) : Event → State → Prop
  | cancel : Step useTls s .cancel { s with cancelled := true }
  | stop : s.cancelled = true → Step useTls s .stop { s with phase := .returned }
  | connect :
      s.phase = .checking → s.cancelled = false →
      Step useTls s .connect { s with phase := .attempting .tcp }
  | advance {stage : Stage} :
      s.phase = .attempting stage → stage ≠ .session →
      Step useTls s (.advance stage) { s with phase := .attempting (stage.next useTls) }
  | fail {stage : Stage} :
      s.phase = .attempting stage → stage ≠ .session →
      Step useTls s (.fail stage) { s with phase := .attempted .failed }
  | close :
      s.phase = .attempting .session → Step useTls s .close { s with phase := .attempted .closed }
  | sleep {o : Outcome} :
      s.phase = .attempted o → s.cancelled = false →
      Step useTls s .sleep
        { s with phase := .sleeping o, attempts := s.attempts ++ [⟨o, s.backoff⟩] }
  | wake {o : Outcome} :
      s.phase = .sleeping o →
      Step useTls s .wake { s with phase := .checking, backoff := nextBackoff o s.backoff }

/-- The number of failures that `history` ends with. -/
def failures (history : List Outcome) : Nat :=
  (history.reverse.takeWhile fun o => o = .failed).length

/-- The base delay that is documented for the last attempt of `history`. -/
def documented (history : List Outcome) : Nat :=
  match failures history with
  | 0 => initialBackoff
  | k + 1 => min (initialBackoff * 2 ^ k) maxBackoff

/-- A tunnel that was up is lost and the attempt before it had failed. -/
def AfterFailure (earlier : List Outcome) (o : Outcome) : Prop :=
  o = .closed ∧ earlier.getLast? = some .failed

/-! ## The delay in force -/

/-- The backoff after `history`, once the loop has adapted it. -/
def grown (history : List Outcome) : Nat := min (initialBackoff * 2 ^ failures history) maxBackoff

theorem failures_closed (history : List Outcome) : failures (history ++ [.closed]) = 0 := by
  simp [failures]

theorem failures_failed (history : List Outcome) :
    failures (history ++ [.failed]) = failures history + 1 := by
  simp [failures]

theorem failures_eq_zero {history : List Outcome} :
    failures history = 0 ↔ history.getLast? ≠ some .failed := by
  cases history using List.reverseRecOn with
  | nil => simp [failures]
  | append_singleton history o =>
    cases o with
    | closed => simp [failures_closed]
    | failed => simp [failures_failed]

theorem grown_snoc (history : List Outcome) (o : Outcome) :
    grown (history ++ [o]) = nextBackoff o (grown history) := by
  cases o with
  | closed => rw [grown, failures_closed]; rfl
  | failed =>
    have hdouble : initialBackoff * 2 ^ (failures history + 1) =
        initialBackoff * 2 ^ failures history * 2 := by rw [Nat.pow_succ, Nat.mul_assoc]
    rw [grown, failures_failed, hdouble, nextBackoff, grown]
    omega

theorem grown_bounds (history : List Outcome) :
    initialBackoff ≤ grown history ∧ grown history ≤ maxBackoff :=
  ⟨Nat.le_min.mpr ⟨Nat.le_mul_of_pos_right _ (Nat.two_pow_pos _), by decide⟩, Nat.min_le_right _ _⟩

/-- A failure makes the next delay longer. -/
theorem grown_eq_initial {history : List Outcome} :
    grown history = initialBackoff ↔ history.getLast? ≠ some .failed := by
  rw [← failures_eq_zero, grown]
  constructor
  · intro heq
    by_contra hpos
    have hdouble : 2 ^ 1 ≤ 2 ^ failures history :=
      Nat.pow_le_pow_right Nat.two_pos (Nat.one_le_iff_ne_zero.mpr hpos)
    have hle := Nat.mul_le_mul_left initialBackoff hdouble
    simp only [initialBackoff, maxBackoff] at heq hle
    omega
  · intro hzero
    rw [hzero]
    rfl

/-- What the loop sleeps is what is documented, unless a failure was still counted. -/
theorem grown_eq_documented {earlier : List Outcome} {o : Outcome} :
    grown earlier = documented (earlier ++ [o]) ↔ ¬ AfterFailure earlier o := by
  cases o with
  | closed => simp [documented, failures_closed, AfterFailure, grown_eq_initial]
  | failed => simp [documented, failures_failed, AfterFailure, grown]

/-! ## Runs -/

/-- `backoff` counts every attempt after whose sleep the loop has adapted it. -/
def BackoffGrown (s : State) : Prop :=
  match s.phase with
  | .returned => True
  | .sleeping o => ∃ earlier d, s.attempts = earlier ++ [⟨o, d⟩] ∧
      s.backoff = grown (earlier.map Attempt.outcome)
  | _ => s.backoff = grown (s.attempts.map Attempt.outcome)

/-- Every delay was chosen by the attempts before it. -/
structure Delayed (s : State) : Prop where
  backoff : BackoffGrown s
  delays : ∀ earlier a later, s.attempts = earlier ++ a :: later →
    a.delay = grown (earlier.map Attempt.outcome)

section Steps

variable {useTls : Bool} {s t : State} {e : Event}

theorem delayed_init : Delayed init :=
  ⟨rfl, fun earlier a later heq => by simp [init] at heq⟩

/-- The attempts of a list and one more. -/
theorem delays_snoc {attempts : List Attempt} {o : Outcome}
    (h : ∀ earlier a later, attempts = earlier ++ a :: later →
      a.delay = grown (earlier.map Attempt.outcome)) :
    ∀ earlier a later,
      attempts ++ [⟨o, grown (attempts.map Attempt.outcome)⟩] = earlier ++ a :: later →
      a.delay = grown (earlier.map Attempt.outcome) := by
  intro earlier a later heq
  rcases eq_append_cons_of_snoc heq with ⟨-, rfl, rfl⟩ | ⟨later', -, hbefore⟩
  · rfl
  · exact h earlier a later' hbefore

theorem delayed_step (h : Delayed s) (hs : Step useTls s e t) : Delayed t := by
  obtain ⟨hbackoff, hdelays⟩ := h
  cases hs with
  | cancel => exact ⟨hbackoff, hdelays⟩
  | stop _ => exact ⟨trivial, hdelays⟩
  | connect hphase _ | advance hphase _ | fail hphase _ | close hphase =>
    rw [BackoffGrown, hphase] at hbackoff
    exact ⟨hbackoff, hdelays⟩
  | sleep hphase _ =>
    rw [BackoffGrown, hphase] at hbackoff
    refine ⟨⟨s.attempts, s.backoff, rfl, hbackoff⟩, ?_⟩
    rw [hbackoff]
    exact delays_snoc hdelays
  | @wake o hphase =>
    rw [BackoffGrown, hphase] at hbackoff
    obtain ⟨earlier, d, hattempts, hgrown⟩ := hbackoff
    refine ⟨?_, hdelays⟩
    show nextBackoff o s.backoff = grown (s.attempts.map Attempt.outcome)
    rw [hattempts, List.map_append, hgrown]
    exact (grown_snoc _ o).symm

end Steps

/-- After every attempt of every run, the delay lies between the two bounds, and it is the
documented one if and only if this is not the loss of a tunnel right after a failure. -/
theorem backoff_exact {useTls : Bool} {s : State}
    (reached : Reachable (Step useTls) (fun s₀ => s₀ = init) s) (earlier later : List Attempt)
    (a : Attempt) (split : s.attempts = earlier ++ a :: later) :
    (initialBackoff ≤ a.delay ∧ a.delay ≤ maxBackoff) ∧
    (a.delay = documented (earlier.map Attempt.outcome ++ [a.outcome]) ↔
      ¬ AfterFailure (earlier.map Attempt.outcome) a.outcome) := by
  have h : Delayed s := reached.invariant (fun _ heq => heq ▸ delayed_init) fun _ _ _ hs hstep =>
    delayed_step hs hstep
  rw [h.delays earlier a later split]
  exact ⟨grown_bounds _, grown_eq_documented⟩

/-- A tunnel that is up, is lost, and is not found again at once. -/
theorem backoff_exact_lost :
    ∃ s, Reachable (Step false) (fun s₀ => s₀ = init) s ∧
      s.attempts = [⟨.closed, 500⟩, ⟨.failed, 500⟩] ∧
      (500 : Nat) = documented [.closed, .failed] := by
  have start : Reachable (Step false) (fun s₀ => s₀ = init) init := .init rfl
  have up := ((start.step (.connect rfl rfl)).step (.advance rfl nofun)).step (.advance rfl nofun)
  have lost := ((up.step (.close rfl)).step (.sleep rfl rfl)).step (.wake rfl)
  have failed := ((lost.step (.connect rfl rfl)).step (.fail rfl nofun)).step (.sleep rfl rfl)
  refine ⟨_, failed, rfl, ?_⟩
  have hiff := (backoff_exact failed [⟨.closed, 500⟩] [] ⟨.failed, 500⟩ rfl).2
  exact hiff.mpr fun h => nomatch h.1

/-- The tunnel comes up at the second attempt and is lost: the client waits a second
before it connects again, and not half a second. -/
theorem slow_after_success :
    ∃ s, Reachable (Step false) (fun s₀ => s₀ = init) s ∧
      s.attempts = [⟨.failed, 500⟩, ⟨.closed, 1000⟩] ∧
      documented [.failed, .closed] = 500 := by
  have start : Reachable (Step false) (fun s₀ => s₀ = init) init := .init rfl
  have failed := (((start.step (.connect rfl rfl)).step (.fail rfl nofun)).step
    (.sleep rfl rfl)).step (.wake rfl)
  have up := ((failed.step (.connect rfl rfl)).step (.advance rfl nofun)).step (.advance rfl nofun)
  have lost := (up.step (.close rfl)).step (.sleep rfl rfl)
  exact ⟨_, lost, rfl, rfl⟩

end MiniMask.Supervisor
