import Mathlib.Data.List.Basic

/-!
# Routing tables

A pattern has a segment for each segment of the paths it takes: a fixed one, or a capture,
which takes what `takes` allows.

* `overlaps` says of two patterns whether some path could be taken by both
  (`overlaps_of_capture`).
* `find_iff`: if no two patterns of a table overlap, what is found for a path is the one
  entry whose pattern takes it, so the order of the table is of no account.
-/

namespace Routing

inductive Segment (α : Type)
  | fixed (a : α)
  | capture
deriving DecidableEq, Repr

abbrev Pattern (α : Type) := List (Segment α)

section

variable {α : Type} [DecidableEq α]

def Segment.takes (takes : α → Bool) : Segment α → α → Bool
  | .fixed a, b => a == b
  | .capture, b => takes b

/-- What a segment captures. -/
def Segment.kept : Segment α → α → List α
  | .fixed _, _ => []
  | .capture, b => [b]

/-- Whether something could be taken by both. -/
def Segment.meets : Segment α → Segment α → Bool
  | .fixed a, .fixed b => a == b
  | _, _ => true

/-- What is captured of the path, if the pattern takes it. -/
def capture (takes : α → Bool) : Pattern α → List α → Option (List α)
  | [], [] => some []
  | x :: p, b :: path =>
    if x.takes takes b then (capture takes p path).map (x.kept b ++ ·) else none
  | _, _ => none

def overlaps : Pattern α → Pattern α → Bool
  | [], [] => true
  | x :: p, y :: q => x.meets y && overlaps p q
  | _, _ => false

end

section Tables

variable {α β : Type} [DecidableEq α] {takes : α → Bool} {x y : Segment α} {p q : Pattern α}
  {b : α} {path cs ds : List α} {table : List (Pattern α × β)} {entry : β}

/-- The first entry whose pattern takes the path, with what is captured. -/
def find (takes : α → Bool) (table : List (Pattern α × β)) (path : List α) :
    Option (β × List α) :=
  table.findSome? fun x => (capture takes x.1 path).map (x.2, ·)

/-- No two patterns of the table overlap. -/
def Apart (table : List (Pattern α × β)) : Prop :=
  table.Pairwise fun x y => overlaps x.1 y.1 = false

instance : Decidable (Apart table) :=
  inferInstanceAs (Decidable (table.Pairwise fun x y => overlaps x.1 y.1 = false))

theorem capture_cons (h : capture takes (x :: p) path = some cs) :
    ∃ b rest ds, path = b :: rest ∧ x.takes takes b = true ∧ capture takes p rest = some ds := by
  cases path with
  | nil => cases h
  | cons b rest =>
    rw [capture] at h
    split at h
    · next htakes =>
      obtain ⟨ds, hds, -⟩ := Option.map_eq_some_iff.mp h
      exact ⟨b, rest, ds, rfl, htakes, hds⟩
    · cases h

theorem meets_of_takes (hx : x.takes takes b = true) (hy : y.takes takes b = true) :
    x.meets y = true := by
  cases x with
  | capture => cases y <;> rfl
  | fixed a =>
    cases y with
    | capture => rfl
    | fixed a' => exact beq_iff_eq.mpr ((beq_iff_eq.mp hx).trans (beq_iff_eq.mp hy).symm)

theorem overlaps_of_capture (hp : capture takes p path = some cs)
    (hq : capture takes q path = some ds) : overlaps p q = true := by
  induction p generalizing q path cs ds with
  | nil =>
    cases path with
    | cons b rest => cases hp
    | nil =>
      cases q with
      | nil => rfl
      | cons y q => cases hq
  | cons x p ih =>
    obtain ⟨b, rest, cs', rfl, hx, hp'⟩ := capture_cons hp
    cases q with
    | nil => cases hq
    | cons y q =>
      obtain ⟨b', rest', ds', heq, hy, hq'⟩ := capture_cons hq
      obtain ⟨rfl, rfl⟩ := List.cons.inj heq
      exact Bool.and_eq_true_iff.mpr ⟨meets_of_takes hx hy, ih hp' hq'⟩

theorem mem_of_find (h : find takes table path = some (entry, cs)) :
    ∃ p, (p, entry) ∈ table ∧ capture takes p path = some cs := by
  obtain ⟨x, hx, hfound⟩ := List.exists_of_findSome?_eq_some h
  obtain ⟨ds, hds, heq⟩ := Option.map_eq_some_iff.mp hfound
  obtain ⟨rfl, rfl⟩ := Prod.mk.inj heq
  exact ⟨x.1, hx, hds⟩

/-- In a table whose patterns do not overlap, the entry that is found is the only one whose
pattern takes the path. -/
theorem find_iff (h : Apart table) : find takes table path = some (entry, cs) ↔
    ∃ p, (p, entry) ∈ table ∧ capture takes p path = some cs := by
  refine ⟨mem_of_find, ?_⟩
  rintro ⟨p, hmem, hp⟩
  induction table with
  | nil => cases hmem
  | cons x table ih =>
    obtain ⟨hfirst, hrest⟩ := List.pairwise_cons.mp h
    unfold find
    rcases List.mem_cons.mp hmem with rfl | hmem
    · rw [List.findSome?_cons, hp]
      rfl
    -- An earlier entry that took the path would overlap with this one.
    · have hnone : capture takes x.1 path = none := by
        cases hx : capture takes x.1 path with
        | none => rfl
        | some ds => cases (hfirst _ hmem).symm.trans (overlaps_of_capture hx hp)
      rw [List.findSome?_cons, hnone]
      exact ih hrest hmem

end Tables

end Routing
