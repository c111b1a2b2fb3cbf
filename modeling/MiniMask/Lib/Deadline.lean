/-!
# Deadlines

A process whose stages end by a deadline each, or have none. `Within` bounds the end of the
stage and of all that comes after it: a process that is on time, and whose stages take no more
than what was set aside for them, is at its goal by the bound (`Within.now_le`).
-/

namespace Deadline

/-- The time, and the deadline of the stage. -/
structure Clock where
  now : Nat
  due : Option Nat
deriving DecidableEq, Repr

namespace Clock

def start (now : Nat) (limit : Option Nat) : Clock := { now, due := limit.map (now + ·) }

/-- Time does not pass the deadline. -/
def Allows (c : Clock) (dt : Nat) : Prop := ∀ due, c.due = some due → c.now + dt ≤ due

def tick (c : Clock) (dt : Nat) : Clock := { c with now := c.now + dt }

/-- A stage that takes no longer than `limit` begins. -/
def enter (c : Clock) (limit : Option Nat) : Clock := start c.now limit

def OnTime (c : Clock) : Prop := ∀ due, c.due = some due → c.now ≤ due

/-- The stage ends so early that `rest` more makes it by `bound`. -/
def Within (c : Clock) (rest bound : Nat) : Prop := ∃ due, c.due = some due ∧ due + rest ≤ bound

variable {c : Clock} {dt now l rest rest' bound : Nat} {limit : Option Nat}

theorem onTime_start : (start now limit).OnTime := by
  intro due hdue
  obtain ⟨l, _, rfl⟩ := Option.map_eq_some_iff.mp hdue
  exact Nat.le_add_right now l

theorem onTime_tick (h : c.Allows dt) : (c.tick dt).OnTime := h

theorem onTime_enter : (c.enter limit).OnTime := onTime_start

/-- What is left once the stage is over. -/
theorem Within.now_add_le (h : c.Within rest bound) (htime : c.OnTime) : c.now + rest ≤ bound := by
  obtain ⟨due, hdue, hbound⟩ := h
  exact Nat.le_trans (Nat.add_le_add_right (htime due hdue) rest) hbound

theorem Within.now_le (h : c.Within rest bound) (htime : c.OnTime) : c.now ≤ bound :=
  Nat.le_trans (Nat.le_add_right _ _) (h.now_add_le htime)

theorem within_enter (h : c.now + l + rest ≤ bound) : (c.enter (some l)).Within rest bound :=
  ⟨c.now + l, rfl, h⟩

/-- The next stage is paid for out of what the one before left. -/
theorem Within.enter (h : c.Within rest bound) (htime : c.OnTime) (hpaid : l + rest' ≤ rest) :
    (c.enter (some l)).Within rest' bound := by
  have hleft := h.now_add_le htime
  exact within_enter (by omega)

end Clock

end Deadline
