import Mathlib.Algebra.BigOperators.Group.List.Basic
import Mathlib.Algebra.Order.Monoid.Canonical.Defs
import Mathlib.Algebra.Order.Ring.Nat
import Mathlib.Data.List.DropRight

/-!
# Readings of a growing quantity

A quantity is read from time to time, and each time what it has grown since the reading
before is noted. `Grows rates reads last` is such a series: the rates add up to what lies
between the readings, so nothing that the quantity gains is noted twice or not at all.

* `Grows.sum_between`: the rates between any two readings make up their difference.
* `Grows.existsUnique_between`: what was gained between the first reading and the last one
  was gained between exactly one pair of neighbours.
* `rtake_rtake_concat`, `drop_rtake`: a list of which only the last entries are kept.
-/

namespace Series

variable {M : Type} {rates reads : List M} {last : M}

/-- Readings, the latest of which is `last`, and the growth from each of them to the next. -/
inductive Grows [AddMonoid M] : List M → List M → M → Prop
  | start (first : M) : Grows [] [first] first
  | snoc {rates reads : List M} {last : M} (r : M) :
      Grows rates reads last → Grows (rates ++ [r]) (reads ++ [last + r]) (last + r)

/-- The `k`-th rate has what the quantity gained at `x`. -/
def Holds [AddMonoid M] [LinearOrder M] (rates reads : List M) (x : M) (k : Nat) : Prop :=
  ∃ a r, reads[k]? = some a ∧ rates[k]? = some r ∧ a ≤ x ∧ x < a + r

/-- Only the readings before a rate matter. -/
theorem holds_congr [AddMonoid M] [LinearOrder M] {reads' : List M} {x : M} {k : Nat}
    (h : ∀ i < rates.length, reads[i]? = reads'[i]?) :
    Holds rates reads x k ↔ Holds rates reads' x k := by
  unfold Holds
  by_cases hk : k < rates.length
  · rw [h k hk]
  · simp [List.getElem?_eq_none (Nat.le_of_not_lt hk)]

namespace Grows

section Sum

variable [AddMonoid M]

theorem length_reads (h : Grows rates reads last) : reads.length = rates.length + 1 := by
  induction h with
  | start _ => rfl
  | snoc _ _ ih => rw [List.length_append, List.length_append, ih, List.length_singleton,
      List.length_singleton]

theorem getElem?_last (h : Grows rates reads last) : reads[rates.length]? = some last := by
  cases h with
  | start _ => rfl
  | snoc r h =>
    rw [List.length_append, List.length_singleton, ← h.length_reads, List.getElem?_concat_length]

/-- The last reading is the first one and all rates. -/
theorem first_add_sum (h : Grows rates reads last) :
    ∃ first, reads[0]? = some first ∧ first + rates.sum = last := by
  induction h with
  | start first => exact ⟨first, rfl, add_zero first⟩
  | @snoc rates reads last r h ih =>
    obtain ⟨first, hfirst, hsum⟩ := ih
    have hpos : 0 < reads.length := h.length_reads ▸ Nat.succ_pos _
    refine ⟨first, (List.getElem?_append_left hpos).trans hfirst, ?_⟩
    rw [List.sum_append, List.sum_singleton, ← add_assoc, hsum]

/-- What was read up to some point is a series too. -/
theorem of_append {rest : List M} (h : Grows (rates ++ rest) reads last) :
    ∃ earlier later last', reads = earlier ++ later ∧ Grows rates earlier last' := by
  generalize hall : rates ++ rest = all at h
  induction h generalizing rest with
  | start first =>
    obtain ⟨rfl, rfl⟩ := List.append_eq_nil_iff.mp hall
    exact ⟨[first], [], first, rfl, .start first⟩
  | @snoc rates' reads last r h ih =>
    rcases List.eq_nil_or_concat rest with rfl | ⟨rest', r', rfl⟩
    · rw [List.append_nil] at hall
      exact ⟨reads ++ [last + r], [], last + r, by rw [List.append_nil], hall ▸ h.snoc r⟩
    · rw [List.concat_eq_append, ← List.append_assoc] at hall
      obtain ⟨earlier, later, last', hreads, hseries⟩ := ih (List.append_inj' hall rfl).1
      exact ⟨earlier, later ++ [last + r], last', by rw [hreads, List.append_assoc], hseries⟩

/-- Each reading is the first one and the rates up to it. -/
theorem getElem?_reads (h : Grows rates reads last) {i : Nat} (hi : i ≤ rates.length) :
    ∃ first, reads[0]? = some first ∧ reads[i]? = some (first + (rates.take i).sum) := by
  rw [← List.take_append_drop i rates] at h
  obtain ⟨earlier, later, last', rfl, hseries⟩ := h.of_append
  obtain ⟨first, hfirst, hsum⟩ := hseries.first_add_sum
  have hlen := hseries.length_reads
  have hlast := hseries.getElem?_last
  rw [List.length_take_of_le hi] at hlen hlast
  have hlt : i < earlier.length := hlen ▸ Nat.lt_succ_self i
  refine ⟨first, ?_, ?_⟩
  · rw [List.getElem?_append_left ((Nat.zero_le i).trans_lt hlt), hfirst]
  · rw [List.getElem?_append_left hlt, hlast, hsum]

/-- The rates between two readings make up their difference. -/
theorem sum_between (h : Grows rates reads last) {i j : Nat} (hij : i ≤ j)
    (hj : j ≤ rates.length) :
    ∃ a b, reads[i]? = some a ∧ reads[j]? = some b ∧
      a + ((rates.drop i).take (j - i)).sum = b := by
  obtain ⟨first, hfirst, ha⟩ := h.getElem?_reads (hij.trans hj)
  obtain ⟨first', hfirst', hb⟩ := h.getElem?_reads hj
  cases hfirst.symm.trans hfirst'
  refine ⟨_, _, ha, hb, ?_⟩
  have hsplit : rates.take j = rates.take i ++ (rates.drop i).take (j - i) := by
    rw [← List.take_add, Nat.add_sub_cancel' hij]
  rw [hsplit, List.sum_append, add_assoc]

/-- Each rate leads from one reading to the next. -/
theorem getElem?_succ (h : Grows rates reads last) {k : Nat} {a r : M}
    (ha : reads[k]? = some a) (hr : rates[k]? = some r) : reads[k + 1]? = some (a + r) := by
  have hk : k < rates.length := (List.getElem?_eq_some_iff.mp hr).1
  obtain ⟨a', b, ha', hb, hsum⟩ := h.sum_between (Nat.le_succ k) hk
  cases ha.symm.trans ha'
  have hone : (rates.drop k).take (k + 1 - k) = [r] := by
    rw [Nat.add_sub_cancel_left, List.take_one, List.head?_drop, hr]
    rfl
  rw [hone, List.sum_singleton] at hsum
  rw [hb, hsum]

end Sum

/-! ## What lies between two readings -/

section Order

variable [AddMonoid M] [LinearOrder M]

theorem exists_holds (h : Grows rates reads last) {first x : M} (hfirst : reads[0]? = some first)
    (hge : first ≤ x) (hlt : x < last) : ∃ k, Holds rates reads x k := by
  induction h with
  | start _ =>
    cases hfirst
    exact absurd hlt (not_lt.mpr hge)
  | @snoc rates reads last r h ih =>
    have hlen : rates.length < reads.length := h.length_reads ▸ Nat.lt_succ_self _
    rw [List.getElem?_append_left ((Nat.zero_le _).trans_lt hlen)] at hfirst
    rcases lt_or_ge x last with hbefore | hafter
    · obtain ⟨k, a, r', ha, hr', hax, hxr⟩ := ih hfirst hbefore
      have hk := (List.getElem?_eq_some_iff.mp hr').1
      refine ⟨k, a, r', ?_, ?_, hax, hxr⟩
      · rw [List.getElem?_append_left (hk.trans hlen), ha]
      · rw [List.getElem?_append_left hk, hr']
    · refine ⟨rates.length, last, r, ?_, List.getElem?_concat_length, hafter, hlt⟩
      rw [List.getElem?_append_left hlen, h.getElem?_last]

variable [CanonicallyOrderedAdd M]

theorem reads_le (h : Grows rates reads last) {i j : Nat} {a b : M} (hij : i ≤ j)
    (ha : reads[i]? = some a) (hb : reads[j]? = some b) : a ≤ b := by
  have hj : j < rates.length + 1 := h.length_reads ▸ (List.getElem?_eq_some_iff.mp hb).1
  obtain ⟨a', b', ha', hb', hsum⟩ := h.sum_between hij (Nat.le_of_lt_succ hj)
  cases ha.symm.trans ha'
  cases hb.symm.trans hb'
  rw [← hsum]
  exact le_self_add

theorem sum_le (h : Grows rates reads last) : rates.sum ≤ last := by
  obtain ⟨first, _, hsum⟩ := h.first_add_sum
  rw [← hsum]
  exact le_add_self

/-- What one rate has lies below the next reading, and so below all that later rates have. -/
theorem not_holds_later (h : Grows rates reads last) {x : M} {k k' : Nat} (hlt : k < k')
    (hk : Holds rates reads x k) : ¬ Holds rates reads x k' := by
  rintro ⟨b, _, hb, _, hbx, _⟩
  obtain ⟨a, r, ha, hr, _, hxr⟩ := hk
  have hle : a + r ≤ b := h.reads_le hlt (h.getElem?_succ ha hr) hb
  exact absurd (hxr.trans_le hle) (not_lt.mpr hbx)

/-- What the quantity gained between the first reading and the last is in exactly one
rate. -/
theorem existsUnique_between (h : Grows rates reads last) {first x : M}
    (hfirst : reads[0]? = some first) (hge : first ≤ x) (hlt : x < last) :
    ∃! k, Holds rates reads x k := by
  obtain ⟨k, hk⟩ := h.exists_holds hfirst hge hlt
  refine ⟨k, hk, fun k' hk' => ?_⟩
  rcases Nat.lt_trichotomy k k' with hlater | rfl | hearlier
  · exact absurd hk' (h.not_holds_later hlater hk)
  · rfl
  · exact absurd hk (h.not_holds_later hearlier hk')

end Order

end Grows

/-! ## Keeping the last entries -/

section Window

variable {α : Type}

theorem length_rtake (l : List α) (cap : Nat) : (l.rtake cap).length = min l.length cap := by
  unfold List.rtake
  rw [List.length_drop, Nat.sub_sub_eq_min]

/-- A list that is trimmed after each push is the whole list, trimmed once. -/
theorem rtake_rtake_concat (l : List α) (cap : Nat) (x : α) :
    (l.rtake cap ++ [x]).rtake cap = (l ++ [x]).rtake cap := by
  cases cap with
  | zero => rw [List.rtake_zero, List.rtake_zero]
  | succ cap =>
    rw [List.rtake_concat_succ, List.rtake_concat_succ]
    unfold List.rtake
    rw [List.drop_drop, List.length_drop]
    congr 2
    omega

/-- Where the entries from the `i`-th on are kept. -/
theorem drop_rtake {l : List α} {cap i : Nat} (h : l.length - cap ≤ i) :
    (l.rtake cap).drop (i - (l.length - cap)) = l.drop i := by
  unfold List.rtake
  rw [List.drop_drop, Nat.add_sub_cancel' h]

end Window

end Series
