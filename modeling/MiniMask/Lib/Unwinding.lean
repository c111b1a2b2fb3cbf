import MiniMask.Lib.Transition

/-!
# Two runs side by side

When does a system keep a secret? Let `seen` be the part of an event that is no secret, and
`shown` the part of a state. If the states of two systems can be related so that steps with
the same `seen` lead from related states to related ones, and related states have the same
`shown`, then what a run shows does not depend on the secrets in its events.

`Unwinding` are the conditions on one step, and `Unwinding.run` is what follows for runs.
-/

namespace Lts

variable {σ τ ε η γ δ : Type}

/-- Each step from related states is followed by the second system, with whatever secrets,
and related states show the same. -/
structure Unwinding (step : σ → ε → σ → Prop) (step' : τ → η → τ → Prop) (related : σ → τ → Prop)
    (seen : ε → δ) (seen' : η → δ) (shown : σ → γ) (shown' : τ → γ) : Prop where
  follow : ∀ s s' e e' t, related s s' → seen e = seen' e' → step s e t →
    ∃ t', step' s' e' t' ∧ related t t'
  shows : ∀ s s', related s s' → shown s = shown' s'

/-- Every run is followed by one of the second system, with any events in which the same is
seen, and both show the same all along. -/
theorem Unwinding.run {step : σ → ε → σ → Prop} {step' : τ → η → τ → Prop}
    {related : σ → τ → Prop} {seen : ε → δ} {seen' : η → δ} {shown : σ → γ} {shown' : τ → γ}
    (h : Unwinding step step' related seen seen' shown shown') {s₀ s : σ} {s₀' : τ}
    {tr : List (σ × ε × σ)} (hrun : Run step s₀ tr s) (h₀ : related s₀ s₀') {es : List η}
    (hes : (tr.map fun x => seen x.2.1) = es.map seen') :
    ∃ tr' s', Run step' s₀' tr' s' ∧ (tr'.map fun x => x.2.1) = es ∧ related s s' ∧
      (tr'.map fun x => shown' x.2.2) = tr.map fun x => shown x.2.2 := by
  induction hrun generalizing es with
  | nil =>
    obtain rfl : es = [] := List.map_eq_nil_iff.mp hes.symm
    exact ⟨[], s₀', .nil, rfl, h₀, rfl⟩
  | @snoc tr s t e _ hs ih =>
    rw [List.map_append] at hes
    obtain ⟨init, last, rfl, hinit, hlast⟩ := List.map_eq_append_iff.mp hes.symm
    obtain ⟨e', rfl, hseen⟩ := List.map_eq_singleton_iff.mp hlast
    obtain ⟨tr', s', hrun', hevents, hrel, hshown⟩ := ih hinit.symm
    obtain ⟨t', hs', hrel'⟩ := h.follow s s' e e' t hrel hseen.symm hs
    refine ⟨tr' ++ [(s', e', t')], t', hrun'.snoc hs', ?_, hrel', ?_⟩
    · rw [List.map_append, hevents]
      rfl
    · rw [List.map_append, List.map_append, hshown, List.map_singleton, List.map_singleton,
        h.shows t t' hrel']

end Lts
