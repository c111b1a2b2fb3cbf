import MiniMask.Client.Backoff
import MiniMask.Lib.Deadline

/-!
# When the client connects (`client.rs`, `run_supervised`, `run_once`, `jitter`)

The loop of the client with a clock: each stage of `run_once` before the session has its
timeout, the sleep ends when it is due, and what is not awaited takes no time.

* `attempts_paced`: how far apart any two attempts are, by what was slept between them; never
  less than 449 ms for each.
* `outage_bound`: while no attempt that was begun since `T` fails, a client without a tunnel
  has had one less than 113 s ago, or `T` is less than that ago.
-/

namespace MiniMask.Pacing

open Lts Deadline
open Supervisor (Attempt Outcome Phase Stage initialBackoff maxBackoff nextBackoff)

/-! ## Definitions -/

/-- The timeouts of `run_once`, in milliseconds; the session has none. -/
def stageLimit : Stage → Option Nat
  | .tcp => some 10000
  | .tls => some 15000
  | .handshake => some 15000
  | .session => none

/-- How long a phase takes at most, when the sleep is for `pause`. -/
def limit (pause : Nat) : Phase → Option Nat
  | .checking => some 0
  | .attempting stage => stageLimit stage
  | .attempted _ => some 0
  | .sleeping _ => some pause
  | .returned => none

/-- What `jitter(backoff, 0.10)` can be, however the floats are rounded. -/
def Jitter (backoff pause : Nat) : Prop :=
  9 * backoff ≤ 10 * (pause + 1) ∧ 10 * pause ≤ 11 * backoff

/-- `started` has the times at which attempts began; `lastUp` is when the tunnel was lost last, or
when the client was started. The code keeps neither. -/
structure State where
  sup : Supervisor.State
  clock : Clock
  started : List Nat
  lastUp : Nat

inductive Event
  | delay (dt : Nat)
  | cancel
  | act (e : Supervisor.Event)
deriving DecidableEq, Repr

def init (start : Nat) : State where
  sup := Supervisor.init
  clock := .start start (limit 0 .checking)
  started := []
  lastUp := start

/-- The loop has come to `sup`, and sleeps for `pause` if it sleeps. -/
def State.after (s : State) (e : Supervisor.Event) (sup : Supervisor.State) (pause : Nat) :
    State where
  sup := sup
  clock := s.clock.enter (limit pause sup.phase)
  started := if e = .connect then s.started ++ [s.clock.now] else s.started
  lastUp := if e = .close then s.clock.now else s.lastUp

/-- A step of the loop; its timers fire before time goes on. -/
inductive Step (useTls : Bool) (s : State) : Event → State → Prop
  | delay {dt : Nat} :
      s.clock.Allows dt → Step useTls s (.delay dt) { s with clock := s.clock.tick dt }
  | cancel {sup : Supervisor.State} :
      Supervisor.Step useTls s.sup .cancel sup → Step useTls s .cancel { s with sup }
  | act {e : Supervisor.Event} {sup : Supervisor.State} {pause : Nat} :
      e ≠ .cancel → Supervisor.Step useTls s.sup e sup →
      (e = .sleep → Jitter s.sup.backoff pause) → (e = .wake → s.clock.due = some s.clock.now) →
      Step useTls s (.act e) (s.after e sup pause)

def Init (s : State) : Prop := ∃ start, s = init start

/-- No attempt that was begun at `T` or later fails. -/
def Healthy (T : Nat) (s : State) (e : Event) : Prop :=
  ∀ stage, e = .act (.fail stage) → ∀ a, s.started.getLast? = some a → a < T

/-! ## A server that does not answer at first -/

/-- The first attempt times out, and the client has slept and begins the second one. -/
theorem reachable_second : ∃ s, Reachable (Guarded (Step true) (Healthy 1)) Init s ∧
    s.sup.cancelled = false ∧ s.sup.phase = .attempting .tcp ∧ s.started = [0, 10550] ∧
    s.clock.now = 10550 := by
  have started : Reachable (Guarded (Step true) (Healthy 1)) Init (init 0) := .init ⟨0, rfl⟩
  have first := started.step (e := .act .connect)
    ⟨@Step.act true _ _ _ 0 (by decide) (.connect rfl rfl) nofun nofun, nofun⟩
  have waited := first.step (e := .delay 10000) ⟨.delay fun _ heq => by cases heq; decide, nofun⟩
  have failed := waited.step (e := .act (.fail .tcp))
    ⟨@Step.act true _ _ _ 0 (by decide) (.fail rfl (by decide)) nofun nofun,
      fun _ _ a ha => by cases ha; decide⟩
  have slept := failed.step (e := .act .sleep)
    ⟨@Step.act true _ _ _ 550 (by decide) (.sleep rfl rfl) (fun _ => ⟨by decide, by decide⟩) nofun,
      nofun⟩
  have rested := slept.step (e := .delay 550) ⟨.delay fun _ heq => by cases heq; decide, nofun⟩
  have woken := rested.step (e := .act .wake)
    ⟨@Step.act true _ _ _ 0 (by decide) (.wake rfl) nofun (fun _ => rfl), nofun⟩
  have second := woken.step (e := .act .connect)
    ⟨@Step.act true _ _ _ 0 (by decide) (.connect rfl rfl) nofun nofun, nofun⟩
  exact ⟨_, second, rfl, rfl, rfl, rfl⟩

/-! ## The pace -/

/-- What was slept between the attempts `i` and `j`, before the jitter. -/
def slept (attempts : List Attempt) (i j : Nat) : Nat :=
  (((attempts.take j).drop i).map Attempt.delay).sum

/-- The attempt at `b` comes after the one at `a` and a sleep of `delay`. -/
def Gap (a delay b : Nat) : Prop := 10 * a + 9 * delay ≤ 10 * (b + 1)

/-- How many attempts have been begun when the loop is at the phase. -/
def Begun (attempts started : Nat) : Phase → Prop
  | .checking => started = attempts
  | .attempting _ => started = attempts + 1
  | .attempted _ => started = attempts + 1
  | .sleeping _ => started = attempts
  | .returned => True

/-- By when the next attempt can begin, if it is the next thing to come. -/
def earliest (clock : Clock) : Phase → Option Nat
  | .checking => some clock.now
  | .sleeping _ => clock.due
  | _ => none

structure Paced (s : State) : Prop where
  onTime : s.clock.OnTime
  bounds : initialBackoff ≤ s.sup.backoff ∧ s.sup.backoff ≤ maxBackoff
  delays : ∀ x ∈ s.sup.attempts, initialBackoff ≤ x.delay
  begun : Begun s.sup.attempts.length s.started.length s.sup.phase
  count : s.started.length ≤ s.sup.attempts.length + 1
  past : ∀ a ∈ s.started, a ≤ s.clock.now
  gaps : ∀ i a b x, s.started[i]? = some a → s.started[i + 1]? = some b →
    s.sup.attempts[i]? = some x → Gap a x.delay b
  next : ∀ a x b, s.started.getLast? = some a → s.sup.attempts.getLast? = some x →
    earliest s.clock s.sup.phase = some b → Gap a x.delay b

section Pace

variable {useTls : Bool} {s t : State} {e : Event}

theorem Gap.mono {a delay b b' : Nat} (h : Gap a delay b) (hle : b ≤ b') : Gap a delay b' := by
  unfold Gap at *
  omega

/-- What the sleep after an attempt at `a` makes of the time at which it begins. -/
theorem gap_of_jitter {a now backoff pause : Nat} (hpast : a ≤ now)
    (hjitter : Jitter backoff pause) : Gap a backoff (now + pause) := by
  obtain ⟨hlow, -⟩ := hjitter
  unfold Gap
  omega

theorem bounds_nextBackoff {o : Outcome} {backoff : Nat}
    (h : initialBackoff ≤ backoff ∧ backoff ≤ maxBackoff) :
    initialBackoff ≤ nextBackoff o backoff ∧ nextBackoff o backoff ≤ maxBackoff := by
  simp only [initialBackoff, maxBackoff] at h
  cases o with
  | closed => simp only [nextBackoff, initialBackoff, maxBackoff]; omega
  | failed => simp only [nextBackoff, initialBackoff, maxBackoff]; omega

theorem paced_init (start : Nat) : Paced (init start) where
  onTime := Clock.onTime_start
  bounds := ⟨Nat.le_refl 500, by
    simp only [init, Supervisor.init, initialBackoff, maxBackoff]
    omega⟩
  delays := nofun
  begun := rfl
  count := Nat.zero_le _
  past := nofun
  gaps := nofun
  next := nofun

/-- Steps that leave the attempts and their times as they are. -/
theorem Paced.keep (h : Paced s) {sup : Supervisor.State} {clock : Clock} {lastUp : Nat}
    (hattempts : sup.attempts = s.sup.attempts) (htime : clock.OnTime)
    (hbounds : initialBackoff ≤ sup.backoff ∧ sup.backoff ≤ maxBackoff)
    (hbegun : Begun s.sup.attempts.length s.started.length sup.phase)
    (hnow : s.clock.now ≤ clock.now)
    (hearliest : ∀ b, earliest clock sup.phase = some b →
      ∃ b', earliest s.clock s.sup.phase = some b' ∧ b' ≤ b) :
    Paced { s with sup, clock, lastUp } where
  onTime := htime
  bounds := hbounds
  delays := hattempts ▸ h.delays
  begun := by
    rw [hattempts]
    exact hbegun
  count := hattempts ▸ h.count
  past := fun a ha => Nat.le_trans (h.past a ha) hnow
  gaps := hattempts ▸ h.gaps
  next := fun a x b ha hx hb => by
    obtain ⟨b', hb', hle⟩ := hearliest b hb
    exact (h.next a x b' ha (hattempts ▸ hx) hb').mono hle

theorem paced_connect (h : Paced s) (hphase : s.sup.phase = .checking) {pause : Nat} :
    Paced (s.after .connect { s.sup with phase := .attempting .tcp } pause) := by
  have hlength : s.started.length = s.sup.attempts.length := by
    have hbegun := h.begun
    rw [hphase] at hbegun
    exact hbegun
  have hlast : (s.started ++ [s.clock.now]).length = s.sup.attempts.length + 1 := by
    rw [List.length_append, hlength]
    rfl
  refine ⟨Clock.onTime_enter, h.bounds, h.delays, hlast, Nat.le_of_eq hlast, fun a ha => ?_,
    fun i a b x ha hb hx => ?_, nofun⟩
  · rcases List.mem_append.mp ha with ha | ha
    · exact h.past a ha
    · exact Nat.le_of_eq (List.mem_singleton.mp ha)
  · change (s.started ++ [s.clock.now])[i]? = some a at ha
    change (s.started ++ [s.clock.now])[i + 1]? = some b at hb
    have hx' : s.sup.attempts[i]? = some x := hx
    obtain ⟨hi, -⟩ := List.getElem?_eq_some_iff.mp hx'
    rw [List.getElem?_append_left (by omega)] at ha
    rcases Nat.lt_or_ge (i + 1) s.started.length with hlt | hge
    · rw [List.getElem?_append_left hlt] at hb
      exact h.gaps i a b x ha hb hx'
    · -- the attempt that begins now
      have hi' : i = s.started.length - 1 := by omega
      rw [show i + 1 = s.started.length by omega, List.getElem?_concat_length] at hb
      cases hb
      refine h.next a x s.clock.now ?_ ?_ (by rw [hphase]; rfl)
      · rw [List.getLast?_eq_getElem?, ← hi', ha]
      · rw [List.getLast?_eq_getElem?, ← hlength, ← hi', hx']

theorem paced_sleep (h : Paced s) {o : Outcome} (hphase : s.sup.phase = .attempted o)
    {pause : Nat} (hjitter : Jitter s.sup.backoff pause) :
    Paced (s.after .sleep { s.sup with
      phase := .sleeping o, attempts := s.sup.attempts ++ [⟨o, s.sup.backoff⟩] } pause) := by
  have hlength : s.started.length = s.sup.attempts.length + 1 := by
    have hbegun := h.begun
    rw [hphase] at hbegun
    exact hbegun
  have hmore : s.started.length =
      (s.sup.attempts ++ [(⟨o, s.sup.backoff⟩ : Attempt)]).length := by
    rw [List.length_append, hlength]
    rfl
  refine ⟨Clock.onTime_enter, h.bounds, fun x hx => ?_, hmore,
    Nat.le_succ_of_le (Nat.le_of_eq hmore), h.past, fun i a b x ha hb hx => ?_,
    fun a x b ha hx hb => ?_⟩
  · rcases List.mem_append.mp hx with hx | hx
    · exact h.delays x hx
    · rw [List.mem_singleton.mp hx]
      exact h.bounds.1
  · obtain ⟨hi, -⟩ := List.getElem?_eq_some_iff.mp (show s.started[i + 1]? = some b from hb)
    change (s.sup.attempts ++ [(⟨o, s.sup.backoff⟩ : Attempt)])[i]? = some x at hx
    rw [List.getElem?_append_left (by omega)] at hx
    exact h.gaps i a b x ha hb hx
  · change (s.sup.attempts ++ [(⟨o, s.sup.backoff⟩ : Attempt)]).getLast? = some x at hx
    rw [List.getLast?_concat] at hx
    cases hx
    cases hb
    -- the sleep begins after the attempt that it follows
    exact gap_of_jitter (h.past a (List.mem_of_getLast? ha)) hjitter

theorem paced_step (h : Paced s) (hs : Step useTls s e t) : Paced t := by
  cases hs with
  | @delay dt hallows =>
    refine h.keep rfl (Clock.onTime_tick hallows) h.bounds h.begun (Nat.le_add_right _ _)
      fun b hb => ?_
    -- Time goes on: `checking` comes later with it, the end of a sleep stays where it is.
    cases hphase : s.sup.phase with
    | checking =>
      rw [hphase] at hb
      cases hb
      exact ⟨_, rfl, Nat.le_add_right _ _⟩
    | sleeping o =>
      rw [hphase] at hb
      exact ⟨b, hb, Nat.le_refl b⟩
    | attempting stage => rw [hphase] at hb; cases hb
    | attempted o => rw [hphase] at hb; cases hb
    | returned => rw [hphase] at hb; cases hb
  | cancel hcancel =>
    cases hcancel with
    | cancel =>
      exact h.keep rfl h.onTime h.bounds h.begun (Nat.le_refl _) fun b hb => ⟨b, hb, Nat.le_refl b⟩
  | @act e sup pause hcancel hs hjitter hdue =>
    have hbegun := h.begun
    cases hs with
    | cancel => exact absurd rfl hcancel
    | stop _ => exact h.keep rfl Clock.onTime_enter h.bounds trivial (Nat.le_refl _) nofun
    | connect hphase _ => exact paced_connect h hphase
    | advance hphase _ =>
      rw [hphase] at hbegun
      exact h.keep rfl Clock.onTime_enter h.bounds hbegun (Nat.le_refl _) nofun
    | fail hphase _ =>
      rw [hphase] at hbegun
      exact h.keep rfl Clock.onTime_enter h.bounds hbegun (Nat.le_refl _) nofun
    | close hphase =>
      rw [hphase] at hbegun
      exact h.keep rfl Clock.onTime_enter h.bounds hbegun (Nat.le_refl _) nofun
    | sleep hphase _ => exact paced_sleep h hphase (hjitter rfl)
    | wake hphase =>
      rw [hphase] at hbegun
      refine h.keep rfl Clock.onTime_enter (bounds_nextBackoff h.bounds) hbegun (Nat.le_refl _)
        fun b hb => ?_
      cases hb
      -- the sleep ends when it is due, so no time passes between it and the next attempt
      exact ⟨s.clock.now, by rw [hphase]; exact hdue rfl, Nat.le_refl _⟩

theorem paced (h : Reachable (Step useTls) Init s) : Paced s :=
  h.invariant (fun _ hinit => by obtain ⟨start, rfl⟩ := hinit; exact paced_init start)
    fun _ _ _ h hs => paced_step h hs

/-- One more sleep. -/
theorem slept_succ {attempts : List Attempt} {i j : Nat} {x : Attempt} (hij : i ≤ j)
    (hx : attempts[j]? = some x) :
    slept attempts i (j + 1) = slept attempts i j + x.delay := by
  obtain ⟨hj, -⟩ := List.getElem?_eq_some_iff.mp hx
  have hlength : i ≤ (attempts.take j).length := by
    rw [List.length_take]
    omega
  rw [slept, List.take_add_one, hx, Option.toList_some, List.drop_append_of_le_length hlength,
    List.map_append, List.sum_append]
  rfl

theorem slept_self (attempts : List Attempt) (i : Nat) : slept attempts i i = 0 := by
  rw [slept, List.drop_eq_nil_of_le (List.length_take_le i attempts)]
  rfl

/-- Between any two attempts there is nine tenths of what was slept between them at least, up
to a millisecond each, and never less than 449 ms for each. -/
theorem attempts_paced (h : Reachable (Step useTls) Init s) {i j a b : Nat} (hij : i ≤ j)
    (ha : s.started[i]? = some a) (hb : s.started[j]? = some b) :
    10 * a + 9 * slept s.sup.attempts i j ≤ 10 * (b + (j - i)) ∧ a + 449 * (j - i) ≤ b := by
  have hpaced := paced h
  induction j, hij using Nat.le_induction generalizing b with
  | base =>
    cases ha.symm.trans hb
    rw [slept_self]
    omega
  | succ j hij ih =>
    have hj : j < s.started.length := by
      obtain ⟨hlt, -⟩ := List.getElem?_eq_some_iff.mp hb
      omega
    obtain ⟨hslept, hleast⟩ := ih (List.getElem?_eq_getElem hj)
    have hx : j < s.sup.attempts.length := by
      obtain ⟨hlt, -⟩ := List.getElem?_eq_some_iff.mp hb
      have hcount := hpaced.count
      omega
    have hgap := hpaced.gaps j _ b _ (List.getElem?_eq_getElem hj) hb (List.getElem?_eq_getElem hx)
    have hdelay := hpaced.delays _ (List.getElem_mem hx)
    rw [slept_succ hij (List.getElem?_eq_getElem hx)]
    unfold Gap at hgap
    rw [initialBackoff] at hdelay
    omega

/-- The second attempt comes 10.55 s after the first one, which took 10 s to fail. -/
theorem attempts_paced_second : ∃ s a b, Reachable (Step true) Init s ∧
    s.started = [a, b] ∧ 10 * a + 9 * slept s.sup.attempts 0 1 ≤ 10 * (b + 1) ∧ a + 449 ≤ b := by
  obtain ⟨s, hs, -, -, hstarted, -⟩ := reachable_second
  have hfirst : s.started[0]? = some 0 := by rw [hstarted]; rfl
  have hsecond : s.started[1]? = some 10550 := by rw [hstarted]; rfl
  exact ⟨s, 0, 10550, hs.of_guarded, hstarted,
    attempts_paced hs.of_guarded (Nat.zero_le 1) hfirst hsecond⟩

end Pace

/-! ## Outages -/

/-- How long the stages of `run_once` after this one may take. -/
def rest : Stage → Nat
  | .tcp => 30000
  | .tls => 15000
  | .handshake => 0
  | .session => 0

/-- The time from which the outage is counted. -/
def State.from (s : State) (T : Nat) : Nat := max T s.lastUp

/-- By when the phase ends: what began before `T` is over 40 s later and may fail, and the
client sleeps for 33 s at most; what begins then does not fail. -/
def Recovering (T : Nat) (s : State) : Phase → Prop
  | .checking => s.clock.Within 0 (s.from T + 73000)
  | .attempting stage =>
    stage = .session ∨ ∃ a, s.started.getLast? = some a ∧
      (a < T ∧ s.clock.Within (rest stage) (T + 40000) ∨
        T ≤ a ∧ s.clock.Within (rest stage) (s.from T + 113000))
  | .attempted .closed => s.clock.Within 0 (s.from T)
  | .attempted .failed => s.clock.Within 0 (s.from T + 40000)
  | .sleeping _ => s.clock.Within 0 (s.from T + 73000)
  | .returned => s.sup.cancelled = true

section Outages

variable {useTls : Bool} {s t : State} {e : Event} {T : Nat}

/-- A stage and the ones after it are paid for by the one before. -/
theorem rest_next {stage : Stage} (hne : stage ≠ .session) :
    stage.next useTls = .session ∨
      ∃ l, stageLimit (stage.next useTls) = some l ∧ l + rest (stage.next useTls) ≤ rest stage := by
  cases stage with
  | tcp =>
    cases useTls with
    | true => exact .inr ⟨15000, rfl, Nat.le_refl _⟩
    | false => exact .inr ⟨15000, rfl, by decide⟩
  | tls => exact .inr ⟨15000, rfl, Nat.le_refl _⟩
  | handshake => exact .inl rfl
  | session => exact absurd rfl hne

theorem le_from (T : Nat) (s : State) : T ≤ s.from T := Nat.le_max_left ..

theorem recovering_init (start : Nat) : Recovering T (init start) (init start).sup.phase := by
  have hle : start ≤ max T start := Nat.le_max_right ..
  exact ⟨start, rfl, by show start + 0 ≤ max T start + 73000; omega⟩

/-- A sleep takes 33 s at most. -/
theorem pause_le {backoff pause : Nat} (hbounds : initialBackoff ≤ backoff ∧ backoff ≤ maxBackoff)
    (hjitter : Jitter backoff pause) : pause ≤ 33000 := by
  obtain ⟨-, hmax⟩ := hbounds
  obtain ⟨-, hhigh⟩ := hjitter
  rw [maxBackoff] at hmax
  omega

theorem recovering_step (hpaced : Paced s)
    (h : s.sup.cancelled = false → Recovering T s s.sup.phase) (hs : Step useTls s e t)
    (hhealthy : Healthy T s e) (hcancelled : t.sup.cancelled = false) :
    Recovering T t t.sup.phase := by
  have htime := hpaced.onTime
  have hfrom := le_from T s
  cases hs with
  | delay _ => exact h hcancelled
  | cancel hcancel => cases hcancel with | cancel => cases hcancelled
  | @act e sup pause hcancel hs hjitter hdue =>
    cases hs with
    | cancel => exact absurd rfl hcancel
    | stop hstop => exact hstop
    | connect hphase _ =>
      have hold := h hcancelled
      rw [hphase] at hold
      have hnow := Clock.Within.now_le hold htime
      refine .inr ⟨s.clock.now, List.getLast?_concat, ?_⟩
      -- An attempt that begins before `T` has 40 s to fail; one that begins later succeeds.
      rcases Nat.lt_or_ge s.clock.now T with hlt | hge
      · exact .inl ⟨hlt, Clock.within_enter (by rw [rest]; omega)⟩
      · exact .inr ⟨hge, Clock.within_enter (by
          show s.clock.now + 10000 + 30000 ≤ s.from T + 113000
          omega)⟩
    | @advance stage hphase hne =>
      have hold := h hcancelled
      rw [hphase] at hold
      obtain ⟨a, hlast, hcase⟩ := hold.resolve_left hne
      -- the timeout of the next stage is paid for by what is left for this one
      rcases rest_next hne with hsession | ⟨l, hl, hpaid⟩
      · exact .inl hsession
      have hclock : (s.after (.advance stage)
          { s.sup with phase := .attempting (stage.next useTls) } pause).clock =
            s.clock.enter (some l) := congrArg s.clock.enter hl
      refine .inr ⟨a, hlast, ?_⟩
      rw [hclock]
      exact hcase.imp (fun hearly => ⟨hearly.1, hearly.2.enter htime hpaid⟩)
        fun hlate => ⟨hlate.1, hlate.2.enter htime hpaid⟩
    | @fail stage hphase hne =>
      have hold := h hcancelled
      rw [hphase] at hold
      obtain ⟨a, hlast, ⟨hearly, hwithin⟩ | ⟨hlate, -⟩⟩ := hold.resolve_left hne
      · have hnow := hwithin.now_le htime
        exact Clock.within_enter (by show s.clock.now + 0 + 0 ≤ s.from T + 40000; omega)
      -- a healthy attempt does not fail
      · exact absurd (hhealthy stage rfl a hlast) (Nat.not_lt.mpr hlate)
    | close hphase =>
      exact Clock.within_enter (Nat.le_max_right T s.clock.now)
    | @sleep o hphase _ =>
      have hold := h hcancelled
      rw [hphase] at hold
      have hpause := pause_le hpaced.bounds (hjitter rfl)
      have hnow : s.clock.now ≤ s.from T + 40000 := by
        cases o with
        | closed => exact Nat.le_add_right_of_le (Clock.Within.now_le hold htime)
        | failed => exact Clock.Within.now_le hold htime
      exact Clock.within_enter (by show s.clock.now + pause + 0 ≤ s.from T + 73000; omega)
    | wake hphase =>
      have hold := h hcancelled
      rw [hphase] at hold
      have hnow := Clock.Within.now_le hold htime
      exact Clock.within_enter (by show s.clock.now + 0 + 0 ≤ s.from T + 73000; omega)

/-- A client that nobody has cancelled and whose attempts do not fail any more has had its
tunnel less than 113 s ago, if it does not have it now. -/
theorem outage_bound (h : Reachable (Guarded (Step useTls) (Healthy T)) Init s)
    (running : s.sup.cancelled = false) (outage : s.sup.phase ≠ .attempting .session) :
    s.clock.now ≤ max T s.lastUp + 113000 := by
  have hstart : ∀ s, Init s → Paced s ∧ (s.sup.cancelled = false → Recovering T s s.sup.phase) := by
    rintro _ ⟨start, rfl⟩
    exact ⟨paced_init start, fun _ => recovering_init start⟩
  obtain ⟨hpaced, hrecovering⟩ := h.invariant hstart fun _ _ _ hinv hs =>
    ⟨paced_step hinv.1 hs.1, recovering_step hinv.1 hinv.2 hs.1 hs.2⟩
  have hphase := hrecovering running
  have hfrom : T ≤ max T s.lastUp := le_from T s
  have htime := hpaced.onTime
  cases hat : s.sup.phase with
  | checking =>
    rw [hat] at hphase
    exact Nat.le_trans (Clock.Within.now_le hphase htime) (by rw [State.from]; omega)
  | attempting stage =>
    rw [hat] at hphase outage
    obtain ⟨a, -, ⟨-, hwithin⟩ | ⟨-, hwithin⟩⟩ :=
      hphase.resolve_left fun hsession => outage (congrArg _ hsession)
    · exact Nat.le_trans (hwithin.now_le htime) (by omega)
    · exact hwithin.now_le htime
  | attempted o =>
    rw [hat] at hphase
    cases o with
    | closed => exact Nat.le_add_right_of_le (Clock.Within.now_le hphase htime)
    | failed => exact Nat.le_trans (Clock.Within.now_le hphase htime) (by rw [State.from]; omega)
  | sleeping o =>
    rw [hat] at hphase
    exact Nat.le_trans (Clock.Within.now_le hphase htime) (by rw [State.from]; omega)
  | returned =>
    rw [hat] at hphase
    cases running.symm.trans hphase

/-- The second attempt begins; the server answers from 1 ms on. -/
theorem outage_bound_second : ∃ s, Reachable (Guarded (Step true) (Healthy 1)) Init s ∧
    s.clock.now = 10550 ∧ s.clock.now ≤ max 1 s.lastUp + 113000 := by
  obtain ⟨s, hs, hrunning, hphase, -, hnow⟩ := reachable_second
  exact ⟨s, hs, hnow, outage_bound hs hrunning (hphase ▸ by decide)⟩

end Outages

end MiniMask.Pacing
