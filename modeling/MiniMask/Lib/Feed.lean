import Mathlib.Data.List.Infix
import Mathlib.Logic.Function.Basic
import MiniMask.Lib.Transition

/-!
# Feeds

A feed is a log that only grows and readers that join and leave it. A reader starts at
what is then the end of the log and reads on from there, entry by entry. What it has got
is all that a reader can tell of the log.

`got_segment`: a reader has got a segment of the log from where it joined, nothing left out,
repeated or out of order.
-/

@[ext] structure Feed.Reader (α : Type) where
  start : Nat
  got : List α
  live : Bool

@[ext] structure Feed (α : Type) where
  log : List α
  readers : Nat → Option (Feed.Reader α)

namespace Feed

open Lts

variable {α : Type}

def empty : Feed α := ⟨[], fun _ => none⟩

def publish (f : Feed α) (a : α) : Feed α := { f with log := f.log ++ [a] }

def setReader (f : Feed α) (i : Nat) (r : Reader α) : Feed α :=
  { f with readers := Function.update f.readers i (some r) }

@[simp] theorem readers_setReader_self (f : Feed α) (i : Nat) (r : Reader α) :
    (f.setReader i r).readers i = some r := by
  unfold setReader
  exact Function.update_self ..

theorem readers_setReader_of_ne (f : Feed α) {i j : Nat} (r : Reader α) (h : j ≠ i) :
    (f.setReader i r).readers j = f.readers j := by
  unfold setReader
  exact Function.update_of_ne h ..

/-- A reader is set if nothing else changes. -/
theorem eq_setReader {f f' : Feed α} {i : Nat} {r : Reader α} (hlog : f'.log = f.log)
    (hi : f'.readers i = some r) (hother : ∀ j, j ≠ i → f'.readers j = f.readers j) :
    f' = f.setReader i r := by
  refine Feed.ext hlog (funext fun j => ?_)
  by_cases hj : j = i
  · subst hj
    exact hi.trans (readers_setReader_self ..).symm
  · exact (hother j hj).trans (readers_setReader_of_ne f r hj).symm

inductive Event (α : Type)
  | publish (a : α)
  | join (i : Nat)
  | read (i : Nat)
  | leave (i : Nat)

inductive Step (f : Feed α) : Event α → Feed α → Prop
  | publish (a : α) : Step f (.publish a) (f.publish a)
  | join {i : Nat} :
      f.readers i = none →
      Step f (.join i) (f.setReader i ⟨f.log.length, [], true⟩)
  | read {i : Nat} {r : Reader α} {a : α} :
      f.readers i = some r → r.live = true → f.log[r.start + r.got.length]? = some a →
      Step f (.read i) (f.setReader i { r with got := r.got ++ [a] })
  | leave {i : Nat} {r : Reader α} :
      f.readers i = some r →
      Step f (.leave i) (f.setReader i { r with live := false })

def Init (f : Feed α) : Prop := f = .empty

/-! ## What a reader has got -/

/-- The reader has read from its start on. -/
def Reader.Segment (r : Reader α) (log : List α) : Prop :=
  r.start ≤ log.length ∧ r.got <+: log.drop r.start

/-- The entry after a prefix makes it longer by one. -/
theorem prefix_concat {got rest : List α} {a : α} (h : got <+: rest)
    (ha : rest[got.length]? = some a) : got ++ [a] <+: rest := by
  obtain ⟨tail, rfl⟩ := h
  rw [List.getElem?_append_right (le_refl got.length), Nat.sub_self] at ha
  cases tail with
  | nil => cases ha
  | cons b tail =>
    cases ha
    exact (List.prefix_append_right_inj got).mpr (List.cons_prefix_cons.mpr ⟨rfl, List.nil_prefix⟩)

theorem Reader.Segment.grow {r : Reader α} {log : List α} (h : r.Segment log) (a : α) :
    r.Segment (log ++ [a]) := by
  refine ⟨h.1.trans (List.length_append ▸ Nat.le_add_right _ _), h.2.trans ?_⟩
  rw [List.drop_append_of_le_length h.1]
  exact List.prefix_append _ _

/-- What holds of all readers holds of them after one was set, if it holds of that one. -/
theorem forall_setReader {f : Feed α} {i : Nat} {r : Reader α} {p : Reader α → Prop} (hr : p r)
    (h : ∀ j r', f.readers j = some r' → p r') {j : Nat} {r' : Reader α}
    (hj : (f.setReader i r).readers j = some r') : p r' := by
  by_cases heq : j = i
  · subst heq
    cases (readers_setReader_self f j r).symm.trans hj
    exact hr
  · exact h j r' ((readers_setReader_of_ne f r heq).symm.trans hj)

theorem segment_step {f f' : Feed α} {e : Event α}
    (h : ∀ i r, f.readers i = some r → r.Segment f.log) (hs : Step f e f') :
    ∀ i r, f'.readers i = some r → r.Segment f'.log := by
  cases hs with
  | publish a => exact fun i r hr => (h i r hr).grow a
  | join hnone =>
    exact fun j r hr => forall_setReader (p := fun r => r.Segment f.log)
      ⟨le_refl _, List.nil_prefix⟩ h hr
  | @read i r₀ a hr₀ hlive ha =>
    obtain ⟨hstart, hgot⟩ := h i r₀ hr₀
    have hread : Reader.Segment { r₀ with got := r₀.got ++ [a] } f.log :=
      ⟨hstart, prefix_concat hgot (List.getElem?_drop.trans ha)⟩
    exact fun j r hr => forall_setReader (p := fun r => r.Segment f.log) hread h hr
  | @leave i r₀ hr₀ =>
    have hleft : Reader.Segment { r₀ with live := false } f.log := h i r₀ hr₀
    exact fun j r hr => forall_setReader (p := fun r => r.Segment f.log) hleft h hr

/-- Nobody has joined the empty feed. -/
theorem segment_init {f : Feed α} (h : Init f) : ∀ i r, f.readers i = some r → r.Segment f.log := by
  subst h
  intro i r hr
  cases hr

section Reachable

variable {f : Feed α} {r : Reader α} {i : Nat}

theorem segment (h : Reachable Step Init f) (hr : f.readers i = some r) : r.Segment f.log := by
  have hall : ∀ i r, f.readers i = some r → r.Segment f.log :=
    h.invariant (fun _ => segment_init) (fun _ _ _ => segment_step)
  exact hall i r hr

theorem got_segment (h : Reachable Step Init f) (hr : f.readers i = some r) :
    r.got <+: f.log.drop r.start :=
  (segment h hr).2

end Reachable

end Feed
