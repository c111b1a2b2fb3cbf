import Mathlib.Algebra.BigOperators.Group.List.Basic
import Mathlib.Algebra.Order.Ring.Nat
import Mathlib.Data.Nat.Count
import Mathlib.Logic.Function.Basic

/-!
# Counting tasks by where they are

Tasks are numbered from 0, each of them is at some place, and `tally p place n` is the
number of the first `n` tasks that meet `p` where they are. A counter that every task
raises at one point of its way and lowers at another is such a tally at every moment.

* `tally_update`: one task moves.
* `tally_succ_of_not`: one more task, which does not count yet.
* `sum_tally`: tasks that belong to different keys are counted once each.
-/

namespace Tally

variable {P : Type}

def tally (p : Nat → P → Bool) (place : Nat → P) (n : Nat) : Nat :=
  Nat.count (fun i => p i (place i) = true) n

section Tally

variable {p q : Nat → P → Bool} {place place' : Nat → P} {n : Nat}

theorem tally_succ :
    tally p place (n + 1) = tally p place n + (p n (place n)).toNat := by
  unfold tally
  rw [Nat.count_succ]
  cases p n (place n) <;> rfl

theorem tally_congr (h : ∀ i < n, p i (place i) = q i (place' i)) :
    tally p place n = tally q place' n := by
  induction n with
  | zero => rfl
  | succ n ih =>
    rw [tally_succ, tally_succ, ih fun i hi => h i (Nat.lt_succ_of_lt hi), h n (Nat.lt_succ_self n)]

theorem tally_succ_of_not (h : p n (place n) = false) :
    tally p place (n + 1) = tally p place n := by
  rw [tally_succ, h]
  rfl

theorem tally_mono (h : ∀ i < n, p i (place i) = true → q i (place i) = true) :
    tally p place n ≤ tally q place n :=
  Nat.count_mono_left h

theorem tally_le : tally p place n ≤ n := Nat.count_le _

theorem tally_pos {i : Nat} (hi : i < n) (h : p i (place i) = true) : 0 < tally p place n :=
  Nat.pos_of_ne_zero (Nat.count_ne_iff_exists.mpr ⟨i, hi, h⟩)

theorem tally_eq_zero (h : ∀ i < n, p i (place i) = false) : tally p place n = 0 :=
  Nat.count_iff_forall_not.mpr fun i hi => by rw [h i hi]; exact Bool.false_ne_true

/-- Task `i` moves to `x`: the tally loses it where it was and gains it where it is. -/
theorem tally_update (p : Nat → P → Bool) (place : Nat → P) {i : Nat} (hi : i < n) (x : P) :
    tally p (Function.update place i x) n + (p i (place i)).toNat =
      tally p place n + (p i x).toNat := by
  induction n with
  | zero => exact absurd hi (Nat.not_lt_zero i)
  | succ n ih =>
    rw [tally_succ, tally_succ]
    rcases Nat.lt_succ_iff_lt_or_eq.mp hi with hlt | rfl
    · have hn : Function.update place i x n = place n :=
        Function.update_of_ne (Nat.ne_of_gt hlt) _ _
      have := ih hlt
      rw [hn]
      omega
    · have hsame : tally p (Function.update place i x) i = tally p place i :=
        tally_congr fun j hj => by rw [Function.update_of_ne (Nat.ne_of_lt hj)]
      rw [hsame, Function.update_self]
      omega

end Tally

/-! ## Tasks by key -/

variable {κ : Type} [DecidableEq κ]

theorem sum_beq {keys : List κ} {k : κ} :
    (keys.map fun k' => (k == k').toNat).sum = keys.count k := by
  induction keys with
  | nil => rfl
  | cons k' keys ih =>
    rw [List.map_cons, List.sum_cons, ih, List.count_cons, Nat.add_comm]
    by_cases heq : k' = k
    · simp [heq]
    · simp [heq, Ne.symm heq]

/-- Every task that counts belongs to one of the keys: counted key by key, it counts once. -/
theorem sum_tally (p : Nat → P → Bool) (place : Nat → P) {n : Nat} {keys : List κ}
    {key : Nat → Option κ} (hnodup : keys.Nodup)
    (h : ∀ i < n, p i (place i) = true → ∃ k ∈ keys, key i = some k) :
    (keys.map fun k => tally (fun i x => key i == some k && p i x) place n).sum =
      tally p place n := by
  induction n with
  | zero => simp [tally]
  | succ n ih =>
    simp only [tally_succ, List.sum_map_add]
    rw [ih fun i hi => h i (Nat.lt_succ_of_lt hi)]
    congr 1
    cases hp : p n (place n) with
    | false => simp
    | true =>
      obtain ⟨k, hk, hkey⟩ := h n (Nat.lt_succ_self n) hp
      simp only [hkey, Option.some_beq_some, Bool.and_true]
      rw [sum_beq, List.count_eq_one_of_mem hnodup hk]
      rfl

end Tally
