import Mathlib.Logic.Function.Basic
import MiniMask.Lib.Transition

/-!
# Cancelling a client (`client.rs`, `CancelToken`, `run_supervised`)

A `CancelToken` is a flag and a `tokio::sync::Notify`. `cancel` sets the flag and then wakes
the futures that `notified()` has created so far; `cancelled` tests the flag and then
creates one. Any number of loops of `run_supervised` and of callers of `cancel` share a
token, and each of these operations is a step of its own. The steps are sequentially
consistent; `Backoff` has the delays of the loop.

A loop that tests the flag before `cancel` sets it and creates its future after `cancel` has
notified sleeps on. `cancel_exact`: a run leaves room for no such loop if and only if no
`cancel` in it notifies while a loop is between its test and its future.
-/

namespace MiniMask.CancelToken

open Lts

/-! ## Data -/

/-- What the loop runs in a `select!` against `cancel.cancelled()`. -/
inductive Task
  | runOnce
  | sleep
deriving DecidableEq, Repr

/-- Where the future of `cancelled()` stands: not polled yet; it has read the flag as not
set; it has created its `Notified`; it waits there, or is to be woken. -/
inductive Wait
  | unpolled
  | tested
  | created
  | asleep
  | woken
deriving DecidableEq, Repr

/-- Where a loop of `run_supervised` stands: before its first test of the token, in one of
its two `select!`, before its second test, or returned. -/
inductive Place
  | top
  | select (task : Task) (wait : Wait)
  | between
  | returned
deriving DecidableEq, Repr

/-- A call of `cancel`: to come, between `store` and `notify_waiters`, or returned. -/
inductive Caller
  | idle
  | stored
  | returned
deriving DecidableEq, Repr

structure State where
  flag : Bool
  loops : Nat → Place
  callers : Nat → Caller

inductive LoopEvent
  | check
  | test
  | create
  | sleep
  | wake
  | taskDone
deriving DecidableEq, Repr

inductive Event
  | loop (i : Nat) (e : LoopEvent)
  | store (c : Nat)
  | notify (c : Nat)
deriving DecidableEq, Repr

def Init (s : State) : Prop :=
  s = { flag := false, loops := fun _ => .top, callers := fun _ => .idle }

namespace State

def setLoop (s : State) (i : Nat) (p : Place) : State :=
  { s with loops := Function.update s.loops i p }

def setCaller (s : State) (c : Nat) (x : Caller) : State :=
  { s with callers := Function.update s.callers c x }

/-- Some call of `cancel` has returned. -/
def Cancelled (s : State) : Prop := ∃ c, s.callers c = .returned

end State

/-- `notify_waiters` wakes the futures that are there. -/
def Place.notified : Place → Place
  | .select task .created => .select task .woken
  | .select task .asleep => .select task .woken
  | p => p

/-- What the loop does when it is done with a task of its own. -/
def Task.next : Task → Place
  | .runOnce => .between
  | .sleep => .top

/-- The place after a test of the token. -/
def checked (flag : Bool) (p : Place) : Place := if flag then .returned else p

/-- One step of a loop.

* The two branches of a `select!` are polled in any order, so that the task may be done
  before the token was looked at.
* `create` and `sleep` follow `test` without an `await` in between. -/
inductive LoopStep (flag : Bool) : Place → LoopEvent → Place → Prop
  | checkTop : LoopStep flag .top .check (checked flag (.select .runOnce .unpolled))
  | checkBetween : LoopStep flag .between .check (checked flag (.select .sleep .unpolled))
  | test {task : Task} :
      LoopStep flag (.select task .unpolled) .test (checked flag (.select task .tested))
  | create {task : Task} : LoopStep flag (.select task .tested) .create (.select task .created)
  | sleep {task : Task} : LoopStep flag (.select task .created) .sleep (.select task .asleep)
  | wake {task : Task} : LoopStep flag (.select task .woken) .wake .returned
  | taskDone {task : Task} {wait : Wait} :
      wait ≠ .tested → wait ≠ .created → LoopStep flag (.select task wait) .taskDone task.next

inductive Step (s : State) : Event → State → Prop
  | loop {i : Nat} {e : LoopEvent} {p : Place} :
      LoopStep s.flag (s.loops i) e p → Step s (.loop i e) (s.setLoop i p)
  | store {c : Nat} :
      s.callers c = .idle → Step s (.store c) ({ s with flag := true }.setCaller c .stored)
  | notify {c : Nat} :
      s.callers c = .stored →
      Step s (.notify c)
        ({ s with loops := fun i => (s.loops i).notified }.setCaller c .returned)

/-! ## No cancellation is lost -/

/-- How many steps of its own a loop has left before it returns, once it is cancelled. -/
def Place.remaining : Place → Nat
  | .select _ _ => 2
  | .top => 1
  | .between => 1
  | .returned => 0

/-- The loop is not left asleep: while it has not returned, the token makes it go on, and
whatever it does brings it closer to its return. -/
structure Answers (s : State) (i : Nat) : Prop where
  awake : ∀ task, s.loops i ≠ .select task .asleep
  goes_on : s.loops i ≠ .returned → ∃ e p, e ≠ .taskDone ∧ LoopStep s.flag (s.loops i) e p
  closer : ∀ e p, LoopStep s.flag (s.loops i) e p → p.remaining < (s.loops i).remaining

/-- Once some `cancel` has returned, every loop answers it. -/
def Delivered (s : State) : Prop := s.Cancelled → ∀ i, Answers s i

/-- The loops go on by themselves: no call of `cancel` takes a step. -/
def Undisturbed (_ : State) (e : Event) : Prop := ∃ i e', e = .loop i e'

/-- No cancellation is lost from here on, even if nobody calls `cancel` again. -/
def Safe (s : State) : Prop :=
  ∀ u, Reachable (Guarded Step Undisturbed) (fun s' => s' = s) u → Delivered u

/-- When `cancel` notifies, no loop has tested the flag without creating its future yet. -/
def NoneBetween (s : State) (e : Event) : Prop :=
  ∀ c, e = .notify c → ∀ i task, s.loops i ≠ .select task .tested

/-! ## What the steps keep -/

variable {s t u : State}

/-- The loop has read the flag and is not to be woken yet. -/
def Place.unnoticed : Place → Bool
  | .select _ .tested | .select _ .created | .select _ .asleep => true
  | _ => false

/-- A call of `cancel` that has begun has set the flag, and one that has returned has left
no loop without notice. -/
structure Noticed (s : State) : Prop where
  flag : ∀ c, s.callers c ≠ .idle → s.flag = true
  loops : s.Cancelled → ∀ i, (s.loops i).unnoticed = false

theorem noticed_init (h : Init s) : Noticed s := by
  cases h
  exact ⟨fun c hc => absurd rfl hc, fun ⟨c, hc⟩ => nomatch hc⟩

theorem Noticed.flag_of_cancelled (h : Noticed s) (hc : s.Cancelled) : s.flag = true := by
  obtain ⟨c, hc⟩ := hc
  exact h.flag c (by rw [hc]; nofun)

@[simp] theorem setLoop_self (s : State) (i : Nat) (p : Place) : (s.setLoop i p).loops i = p :=
  Function.update_self ..

theorem setLoop_other (s : State) {i j : Nat} (p : Place) (h : j ≠ i) :
    (s.setLoop i p).loops j = s.loops j :=
  Function.update_of_ne h ..

/-- A loop that finds the flag set and has notice keeps it. -/
theorem LoopStep.keeps_notice {p q : Place} {e : LoopEvent} (hs : LoopStep true p e q)
    (h : p.unnoticed = false) : q.unnoticed = false := by
  cases hs with
  | checkTop => rfl
  | checkBetween => rfl
  | test => rfl
  | create => cases h
  | sleep => cases h
  | wake => rfl
  | @taskDone task _ _ _ => cases task <;> rfl

theorem noticed_loop {i : Nat} {e : LoopEvent} {p : Place} (h : Noticed s)
    (hs : LoopStep s.flag (s.loops i) e p) : Noticed (s.setLoop i p) := by
  refine ⟨h.flag, fun hc j => ?_⟩
  rw [h.flag_of_cancelled hc] at hs
  rcases eq_or_ne j i with rfl | hne
  · rw [setLoop_self]
    exact hs.keeps_notice (h.loops hc j)
  · rw [setLoop_other s p hne]
    exact h.loops hc j

/-- A loop that a `cancel` finds waiting is woken. -/
theorem notified_unnoticed {p : Place} (h : ∀ task, p ≠ .select task .tested) :
    p.notified.unnoticed = false := by
  cases p with
  | select task wait =>
    cases wait with
    | tested => exact absurd rfl (h task)
    | _ => rfl
  | _ => rfl

theorem noticed_step {e : Event} (h : Noticed s) (hs : Step s e t) (hok : NoneBetween s e) :
    Noticed t := by
  cases hs with
  | loop hs => exact noticed_loop h hs
  | @store c hidle =>
    -- The new caller has not returned yet, so nobody more has.
    refine ⟨fun _ _ => rfl, fun ⟨c', hc'⟩ => h.loops ⟨c', ?_⟩⟩
    change Function.update s.callers c .stored c' = .returned at hc'
    rcases eq_or_ne c' c with rfl | hne
    · rw [Function.update_self] at hc'
      cases hc'
    · rwa [Function.update_of_ne hne] at hc'
  | @notify c hstored =>
    refine ⟨fun c' hc' => ?_, fun _ i => notified_unnoticed (hok c rfl i)⟩
    rcases eq_or_ne c' c with rfl | hne
    · exact h.flag c' (by rw [hstored]; nofun)
    · exact h.flag c' fun hidle => hc' ((Function.update_of_ne hne _ _).trans hidle)

/-! ## From notice to return -/

theorem answers_of_noticed {i : Nat} (hflag : s.flag = true) (h : (s.loops i).unnoticed = false) :
    Answers s i := by
  refine ⟨fun task hp => ?_, fun hgo => ?_, fun e p hs => ?_⟩
  · rw [hp] at h
    cases h
  · rw [hflag]
    cases hp : s.loops i with
    | top => exact ⟨.check, _, nofun, .checkTop⟩
    | between => exact ⟨.check, _, nofun, .checkBetween⟩
    | returned => exact absurd hp hgo
    | select task wait =>
      rw [hp] at h
      cases wait with
      | unpolled => exact ⟨.test, _, nofun, .test⟩
      | woken => exact ⟨.wake, _, nofun, .wake⟩
      | tested => cases h
      | created => cases h
      | asleep => cases h
  · -- With the flag set, every test returns.
    rw [hflag] at hs
    revert hs h
    generalize s.loops i = q
    intro h hs
    cases hs with
    | checkTop => exact Nat.zero_lt_one
    | checkBetween => exact Nat.zero_lt_one
    | test => exact Nat.zero_lt_two
    | create => cases h
    | sleep => cases h
    | wake => exact Nat.zero_lt_two
    | @taskDone task _ _ _ => cases task <;> exact Nat.one_lt_two

theorem delivered_of_noticed (h : Noticed s) : Delivered s := fun hc i =>
  answers_of_noticed (h.flag_of_cancelled hc) (h.loops hc i)

/-- Steps of the loops alone cannot undo the notice. -/
theorem safe_of_noticed (h : Noticed s) : Safe s := by
  intro u hu
  refine delivered_of_noticed (hu.invariant (fun _ heq => heq ▸ h) fun s e t hs hstep => ?_)
  obtain ⟨hstep, i, e', rfl⟩ := hstep
  exact noticed_step hs hstep nofun

/-- A loop between its test and its future has missed the notification and can fall
asleep. -/
theorem not_safe_of_tested {i : Nat} {task : Task} (hc : s.Cancelled)
    (hp : s.loops i = .select task .tested) : ¬ Safe s := by
  intro hsafe
  have hcreate : LoopStep s.flag (s.loops i) .create (.select task .created) := by
    rw [hp]
    exact .create
  have hsleep : LoopStep s.flag ((s.setLoop i (.select task .created)).loops i) .sleep
      (.select task .asleep) := by
    rw [setLoop_self]
    exact .sleep
  have start : Reachable (Guarded Step Undisturbed) (fun s' => s' = s) s := .init rfl
  have asleep := (start.step ⟨.loop hcreate, i, _, rfl⟩).step ⟨.loop hsleep, i, _, rfl⟩
  exact (hsafe _ asleep hc i).awake task (setLoop_self ..)

theorem noneBetween_of_safe {e : Event} (hs : Step s e t) (hsafe : Safe t) : NoneBetween s e := by
  rintro c rfl i task hp
  cases hs with
  | notify _ =>
    have htested : (s.loops i).notified = .select task .tested := by rw [hp]; rfl
    exact not_safe_of_tested ⟨c, Function.update_self ..⟩ htested hsafe

/-- No cancellation is lost in a run if and only if no `cancel` in it notifies while a loop
is between its test of the flag and its future. -/
theorem cancel_exact {s₀ : State} {tr : List (State × Event × State)} (h₀ : Init s₀)
    (h : Run Step s₀ tr s) :
    (∀ x ∈ tr, Safe x.2.2) ↔ ∀ x ∈ tr, NoneBetween x.1 x.2.1 := by
  constructor
  · intro hsafe x hx
    have hstep : ∀ s e t, True → Step s e t → True ∧ (Safe t → NoneBetween s e) :=
      fun s e t _ hs => ⟨trivial, noneBetween_of_safe hs⟩
    exact h.forall_steps hstep trivial x hx (hsafe x hx)
  · intro hok x hx
    have hkeep : ∀ s e t, Noticed s → Guarded Step NoneBetween s e t → Noticed t :=
      fun s e t hs ht => noticed_step hs ht.1 ht.2
    exact safe_of_noticed ((h.guarded hok).forall_states hkeep (noticed_init h₀) x hx)

/-- A loop that waits for its tunnel is cancelled. -/
theorem cancel_exact_waiting :
    ∃ s₀ tr s, Init s₀ ∧ Run Step s₀ tr s ∧ s.loops 0 = .select .runOnce .woken ∧
      ∀ x ∈ tr, Safe x.2.2 := by
  have start : Run Step { flag := false, loops := fun _ => .top, callers := fun _ => .idle } [] _ :=
    .nil
  have tested := (start.snoc (.loop (i := 0) .checkTop)).snoc (.loop (i := 0) .test)
  have asleep := (tested.snoc (.loop (i := 0) .create)).snoc (.loop (i := 0) .sleep)
  have woken := (asleep.snoc (.store (c := 0) rfl)).snoc (.notify (c := 0) rfl)
  refine ⟨_, _, _, rfl, woken, rfl, (cancel_exact rfl woken).mpr ?_⟩
  simp only [List.forall_mem_append, List.forall_mem_singleton, List.not_mem_nil, false_implies,
    implies_true, true_and, NoneBetween, reduceCtorEq]
  rintro c - i task
  rcases eq_or_ne i 0 with rfl | hne
  · nofun
  · simp [State.setCaller, setLoop_other _ _ hne]

/-- `cancel` runs between a loop's test of the flag and its future: it has returned, and the
loop sleeps until its tunnel ends by itself. -/
theorem cancellation_lost :
    ∃ s, Reachable Step Init s ∧ s.Cancelled ∧ s.loops 0 = .select .runOnce .asleep ∧
      ¬ Delivered s ∧ ∀ e p, LoopStep s.flag (s.loops 0) e p → e = .taskDone := by
  have start : Reachable Step Init
      { flag := false, loops := fun _ => .top, callers := fun _ => .idle } := .init rfl
  have tested := (start.step (.loop (i := 0) .checkTop)).step (.loop (i := 0) .test)
  have cancelled := (tested.step (.store (c := 0) rfl)).step (.notify (c := 0) rfl)
  have asleep := (cancelled.step (.loop (i := 0) .create)).step (.loop (i := 0) .sleep)
  refine ⟨_, asleep, ⟨0, rfl⟩, rfl, fun h => (h ⟨0, rfl⟩ 0).awake .runOnce rfl, ?_⟩
  intro e p hs
  cases hs with
  | taskDone _ _ => rfl

end MiniMask.CancelToken
