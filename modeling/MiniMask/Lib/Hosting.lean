import Mathlib.Logic.Function.Basic
import MiniMask.Lib.Transition

/-!
# Systems that start others

A host takes steps of its own and starts parts in the course of it. A part begins in the
state that the host gives it and then takes steps of its own, in between those of the host
and of the other parts.

* `host_reachable`, `host_run`, `part_reachable`: the host and each part are where they could
  be without the others, so what holds of either alone holds of it in the whole.
  `Lts.Guarded` adds what binds the steps of one to the state of another.
-/

namespace Hosting

open Lts

variable {σ ε τ η ι : Type}

structure Hosted (σ τ ι : Type) where
  host : σ
  parts : ι → Option τ

inductive Event (ε η ι : Type)
  | host (e : ε)
  | part (i : ι) (e : η)
deriving DecidableEq, Repr

/-- The host is at `t` now, and the parts that it has started since are there. -/
def Hosted.follow (starts : σ → ι → Option τ) (h : Hosted σ τ ι) (t : σ) : Hosted σ τ ι where
  host := t
  parts := fun i => (h.parts i).or (starts t i)

inductive Step [DecidableEq ι] (hostStep : σ → ε → σ → Prop) (partStep : τ → η → τ → Prop)
    (starts : σ → ι → Option τ) (h : Hosted σ τ ι) : Event ε η ι → Hosted σ τ ι → Prop
  | host {e : ε} {t : σ} :
      hostStep h.host e t → Step hostStep partStep starts h (.host e) (h.follow starts t)
  | part {i : ι} {e : η} {c d : τ} :
      h.parts i = some c → partStep c e d →
      Step hostStep partStep starts h (.part i e)
        { h with parts := Function.update h.parts i (some d) }

def Init (init : σ → Prop) (starts : σ → ι → Option τ) (h : Hosted σ τ ι) : Prop :=
  init h.host ∧ h.parts = starts h.host

section Reachable

variable [DecidableEq ι] {hostStep : σ → ε → σ → Prop} {partStep : τ → η → τ → Prop}
  {starts : σ → ι → Option τ} {init : σ → Prop} {h : Hosted σ τ ι}

theorem host_reachable (hr : Reachable (Step hostStep partStep starts) (Init init starts) h) :
    Reachable hostStep init h.host := by
  induction hr with
  | init hinit => exact .init hinit.1
  | step _ hs ih =>
    cases hs with
    | host hs => exact ih.step hs
    | part _ _ => exact ih

/-- Where a part is that the host has started. -/
theorem part_reachable (keep : ∀ s e t i c, hostStep s e t → starts s i = some c →
      starts t i = some c)
    (hr : Reachable (Step hostStep partStep starts) (Init init starts) h) :
    ∀ i d, h.parts i = some d →
      ∃ c, starts h.host i = some c ∧ Reachable partStep (fun s => s = c) d := by
  induction hr with
  | init hinit =>
    intro i d hd
    exact ⟨d, (congrFun hinit.2 i).symm.trans hd, .init rfl⟩
  | @step h _ _ _ hs ih =>
    intro i d hd
    cases hs with
    | @host e t hs =>
      -- a part that was there goes on; one that has just been started has made no step
      rcases Option.or_eq_some_iff.mp hd with hold | ⟨-, hnew⟩
      · obtain ⟨c, hc, hpart⟩ := ih i d hold
        exact ⟨c, keep _ _ _ _ _ hs hc, hpart⟩
      · exact ⟨d, hnew, .init rfl⟩
    | @part j e c' d' hc' hs =>
      by_cases hij : i = j
      · subst hij
        cases (Function.update_self i (some d') h.parts).symm.trans hd
        obtain ⟨c, hc, hpart⟩ := ih i c' hc'
        exact ⟨c, hc, hpart.step hs⟩
      · exact ih i d ((Function.update_of_ne hij (some d') h.parts).symm.trans hd)

/-- What the host has started is there. -/
theorem part_there (hr : Reachable (Step hostStep partStep starts) (Init init starts) h)
    {i : ι} {c : τ} (hc : starts h.host i = some c) : ∃ d, h.parts i = some d := by
  induction hr generalizing c with
  | init hinit => exact ⟨c, (congrFun hinit.2 i).trans hc⟩
  | @step h _ _ _ hs ih =>
    cases hs with
    | @host e t hs =>
      have hnew : starts t i = some c := hc
      show ∃ d, (h.parts i).or (starts t i) = some d
      cases h.parts i with
      | none => exact ⟨c, hnew⟩
      | some d => exact ⟨d, rfl⟩
    | @part j e c' d' hc' hs =>
      by_cases hij : i = j
      · exact ⟨d', by rw [hij]; exact Function.update_self ..⟩
      · obtain ⟨d, hd⟩ := ih hc
        exact ⟨d, (Function.update_of_ne hij ..).trans hd⟩

/-- The steps of the host in a run. -/
def hostTrace (tr : List (Hosted σ τ ι × Event ε η ι × Hosted σ τ ι)) : List (σ × ε × σ) :=
  tr.filterMap fun x =>
    match x.2.1 with
    | .host e => some (x.1.host, e, x.2.2.host)
    | .part _ _ => none

theorem host_run {h₀ : Hosted σ τ ι} {tr : List (Hosted σ τ ι × Event ε η ι × Hosted σ τ ι)}
    (run : Run (Step hostStep partStep starts) h₀ tr h) :
    Run hostStep h₀.host (hostTrace tr) h.host := by
  induction run with
  | nil => exact .nil
  | snoc _ hs ih =>
    rw [hostTrace, List.filterMap_append]
    cases hs with
    | host hs => exact ih.snoc hs
    | part _ _ => exact (List.append_nil _).symm ▸ ih

omit [DecidableEq ι] in
theorem mem_hostTrace {tr : List (Hosted σ τ ι × Event ε η ι × Hosted σ τ ι)}
    {y : σ × ε × σ} (hy : y ∈ hostTrace tr) : ∃ x ∈ tr, x.1.host = y.1 ∧ x.2.1 = .host y.2.1 := by
  obtain ⟨⟨s, e, t⟩, hx, heq⟩ := List.mem_filterMap.mp hy
  cases e with
  | host e =>
    cases heq
    exact ⟨_, hx, rfl, rfl⟩
  | part _ _ => cases heq

end Reachable

end Hosting
