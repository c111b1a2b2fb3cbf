/-!
# Labelled transition systems

A system is a step relation `step : σ → ε → σ → Prop` over any type of states and
any type of events. This module has what the proofs about such systems share:

* `Reachable`, the states some run reaches, and its induction rule
  `Reachable.invariant`;
* `Run`, a run with the transitions it took, for statements about every state
  and every step of one run (`Run.forall_states_iff`);
* `Guarded`, the runs whose steps all meet a condition;
* `Observed`, the system with a monitor that only watches it;
* `Simulation`, a map to a second system under which every step is a step or
  nothing.
-/

namespace Lts

variable {σ τ ε η γ : Type}

/-! ## Reachable states -/

/-- The states that some run from an initial state reaches. -/
inductive Reachable (step : σ → ε → σ → Prop) (init : σ → Prop) : σ → Prop
  | init {s : σ} : init s → Reachable step init s
  | step {s t : σ} {e : ε} : Reachable step init s → step s e t → Reachable step init t

section Reachable

variable {step step' : σ → ε → σ → Prop} {init : σ → Prop}

/-- What holds initially and is kept by every step holds of every reachable state. -/
theorem Reachable.invariant {inv : σ → Prop} (start : ∀ s, init s → inv s)
    (keep : ∀ s e t, inv s → step s e t → inv t) {s : σ} (h : Reachable step init s) : inv s := by
  induction h with
  | init h => exact start _ h
  | step _ hs ih => exact keep _ _ _ ih hs

/-- `Reachable.invariant` on top of an invariant already known. -/
theorem Reachable.invariant_of {known inv : σ → Prop}
    (have_known : ∀ s, Reachable step init s → known s) (start : ∀ s, init s → inv s)
    (keep : ∀ s e t, known s → inv s → step s e t → inv t) {s : σ}
    (h : Reachable step init s) : inv s := by
  induction h with
  | init h => exact start _ h
  | step hr hs ih => exact keep _ _ _ (have_known _ hr) ih hs

/-- More steps reach more states. -/
theorem Reachable.mono (sub : ∀ s e t, step s e t → step' s e t) {s : σ}
    (h : Reachable step init s) : Reachable step' init s := by
  induction h with
  | init h => exact .init h
  | step _ hs ih => exact .step ih (sub _ _ _ hs)

end Reachable

/-! ## Conditions on the steps -/

/-- The steps of a system whose state and event meet a condition. -/
def Guarded (step : σ → ε → σ → Prop) (ok : σ → ε → Prop) : σ → ε → σ → Prop :=
  fun s e t => step s e t ∧ ok s e

/-- A run of guarded steps is a run. -/
theorem Reachable.of_guarded {step : σ → ε → σ → Prop} {ok : σ → ε → Prop} {init : σ → Prop}
    {s : σ} (h : Reachable (Guarded step ok) init s) : Reachable step init s :=
  h.mono fun _ _ _ hs => hs.1

/-! ## Runs with their transitions -/

/-- A run from `s₀`: the transitions it took, first to last, and where it ends. -/
inductive Run (step : σ → ε → σ → Prop) (s₀ : σ) : List (σ × ε × σ) → σ → Prop
  | nil : Run step s₀ [] s₀
  | snoc {tr : List (σ × ε × σ)} {s t : σ} {e : ε} :
      Run step s₀ tr s → step s e t → Run step s₀ (tr ++ [(s, e, t)]) t

section Run

variable {step : σ → ε → σ → Prop} {init : σ → Prop}

theorem Run.reachable {s₀ s : σ} {tr : List (σ × ε × σ)} (h : Run step s₀ tr s)
    (h₀ : init s₀) : Reachable step init s := by
  induction h with
  | nil => exact .init h₀
  | snoc _ hs ih => exact .step ih hs

/-- What each step keeps holds at the end of a run. -/
theorem Run.keeps {good : σ → Prop} (keep : ∀ s e t, good s → step s e t → good t) {s₀ s : σ}
    {tr : List (σ × ε × σ)} (h : Run step s₀ tr s) (good₀ : good s₀) : good s := by
  induction h with
  | nil => exact good₀
  | snoc _ hs ih => exact keep _ _ _ ih hs

/-- What holds at the end of a run held at its start, or one of its steps is the cause. -/
theorem Run.since (good : σ → Prop) (cause : σ × ε × σ → Prop)
    (trace : ∀ s e t, step s e t → good t → good s ∨ cause (s, e, t)) {s₀ s : σ}
    {tr : List (σ × ε × σ)} (h : Run step s₀ tr s) (hs : good s) :
    good s₀ ∨ ∃ x ∈ tr, cause x := by
  induction h with
  | nil => exact .inl hs
  | snoc _ hstep ih =>
    rcases trace _ _ _ hstep hs with hbefore | hcause
    · exact (ih hbefore).imp_right fun ⟨x, hx, hcause⟩ => ⟨x, List.mem_append_left _ hx, hcause⟩
    · exact .inr ⟨_, List.mem_append_right _ (List.mem_singleton_self _), hcause⟩

/-- A run whose steps all meet a condition is a run of guarded steps. -/
theorem Run.guarded {ok : σ → ε → Prop} {s₀ s : σ} {tr : List (σ × ε × σ)}
    (h : Run step s₀ tr s) (hok : ∀ x ∈ tr, ok x.1 x.2.1) : Run (Guarded step ok) s₀ tr s := by
  induction h with
  | nil => exact .nil
  | @snoc tr s t e _ hs ih =>
    have hlast : ok s e := hok (s, e, t) (by simp)
    exact .snoc (ih fun x hx => hok x (List.mem_append_left _ hx)) ⟨hs, hlast⟩

/-- A run of guarded steps is a run whose steps all meet the condition. -/
theorem Run.of_guarded {ok : σ → ε → Prop} {s₀ s : σ} {tr : List (σ × ε × σ)}
    (h : Run (Guarded step ok) s₀ tr s) : Run step s₀ tr s ∧ ∀ x ∈ tr, ok x.1 x.2.1 := by
  induction h with
  | nil => exact ⟨.nil, nofun⟩
  | @snoc tr s t e _ hs ih =>
    refine ⟨ih.1.snoc hs.1, fun x hx => ?_⟩
    rcases List.mem_append.mp hx with hx | hx
    · exact ih.2 x hx
    · cases List.mem_singleton.mp hx
      exact hs.2

/-- What each step does from the states that a run goes through, every step of the
run does. -/
theorem Run.forall_steps {good : σ → Prop} {ok : σ → ε → σ → Prop}
    (keep : ∀ s e t, good s → step s e t → good t ∧ ok s e t) {s₀ s : σ}
    {tr : List (σ × ε × σ)} (h : Run step s₀ tr s) (good₀ : good s₀) :
    ∀ x ∈ tr, ok x.1 x.2.1 x.2.2 := by
  suffices key : good s ∧ ∀ x ∈ tr, ok x.1 x.2.1 x.2.2 from key.2
  induction h with
  | nil => exact ⟨good₀, by simp⟩
  | @snoc tr s t e _ hs ih =>
    obtain ⟨hgood, hall⟩ := ih
    obtain ⟨hlast, hok⟩ := keep _ _ _ hgood hs
    refine ⟨hlast, fun x hx => ?_⟩
    rcases List.mem_append.mp hx with hx | hx
    · exact hall x hx
    · cases List.mem_singleton.mp hx
      exact hok

/-- What each step keeps holds in every state of a run. -/
theorem Run.forall_states {good : σ → Prop} (keep : ∀ s e t, good s → step s e t → good t)
    {s₀ s : σ} {tr : List (σ × ε × σ)} (h : Run step s₀ tr s) (good₀ : good s₀) :
    ∀ x ∈ tr, good x.2.2 :=
  h.forall_steps (fun s e t hgood hs => ⟨keep s e t hgood hs, keep s e t hgood hs⟩) good₀

/-- A run in which every step makes the measure smaller is no longer than the measure
says. -/
theorem Run.length_le {inv : σ → Prop} {measure : σ → Nat}
    (keep : ∀ s e t, inv s → step s e t → inv t)
    (decr : ∀ s e t, inv s → step s e t → measure t < measure s) {s₀ s : σ}
    {tr : List (σ × ε × σ)} (h : Run step s₀ tr s) (inv₀ : inv s₀) :
    tr.length + measure s ≤ measure s₀ := by
  induction h with
  | nil => simp
  | @snoc tr s t e hrun hs ih =>
    have hlt : measure t < measure s := decr _ _ _ (hrun.keeps keep inv₀) hs
    rw [List.length_append, List.length_singleton]
    omega

/-- What each step that meets a condition keeps holds before every step of a run of such
steps, and at its end. -/
theorem Run.keeps_guarded {good : σ → Prop} {ok : σ → ε → Prop}
    (keep : ∀ s e t, good s → step s e t → ok s e → good t) {s₀ s : σ} {tr : List (σ × ε × σ)}
    (h : Run step s₀ tr s) (hok : ∀ x ∈ tr, ok x.1 x.2.1) (good₀ : good s₀) :
    good s ∧ ∀ x ∈ tr, good x.1 := by
  have hkeep : ∀ s e t, good s → Guarded step ok s e t → good t := fun s e t hgood hs =>
    keep s e t hgood hs.1 hs.2
  have hboth : ∀ s e t, good s → Guarded step ok s e t → good t ∧ good s := fun s e t hgood hs =>
    ⟨hkeep s e t hgood hs, hgood⟩
  exact ⟨(h.guarded hok).keeps hkeep good₀, (h.guarded hok).forall_steps hboth good₀⟩

/-- A property that each step keeps exactly under a condition holds in every
state of a run if and only if every step of the run meets the condition. -/
theorem Run.forall_states_iff {inv good : σ → Prop} {ok : σ → ε → Prop}
    (keep : ∀ s e t, inv s → step s e t → inv t)
    (exact_step : ∀ s e t, inv s → good s → step s e t → (good t ↔ ok s e))
    {s₀ s : σ} {tr : List (σ × ε × σ)} (h : Run step s₀ tr s) (inv₀ : inv s₀) (good₀ : good s₀) :
    (∀ x ∈ tr, good x.2.2) ↔ ∀ x ∈ tr, ok x.1 x.2.1 := by
  suffices key : inv s ∧ ((∀ x ∈ tr, good x.2.2) → good s) ∧
      ((∀ x ∈ tr, good x.2.2) ↔ ∀ x ∈ tr, ok x.1 x.2.1) from key.2.2
  induction h with
  | nil => exact ⟨inv₀, fun _ => good₀, by simp⟩
  | @snoc tr s t e _ hs ih =>
    obtain ⟨hinv, hlast, hiff⟩ := ih
    refine ⟨keep _ _ _ hinv hs, fun hall => hall (s, e, t) (by simp), ?_⟩
    simp only [List.mem_append, List.mem_singleton, or_imp, forall_and, forall_eq]
    constructor
    · rintro ⟨hall, hgood⟩
      exact ⟨hiff.mp hall, (exact_step _ _ _ hinv (hlast hall) hs).mp hgood⟩
    · rintro ⟨hall, hok⟩
      have hgood := hiff.mpr hall
      exact ⟨hgood, (exact_step _ _ _ hinv (hlast hgood) hs).mpr hok⟩

end Run

/-! ## Histories

What a state records as it happens, oldest first.
-/

/-- Where an entry can stand in a history with one entry more. -/
theorem eq_append_cons_of_snoc {α : Type} {history earlier later : List α} {x y : α}
    (h : history ++ [x] = earlier ++ y :: later) :
    (later = [] ∧ earlier = history ∧ y = x) ∨
      ∃ later', later = later' ++ [x] ∧ history = earlier ++ y :: later' := by
  rcases List.eq_nil_or_concat later with rfl | ⟨later', z, rfl⟩
  · obtain ⟨hinit, hlast⟩ := List.append_inj' h rfl
    exact .inl ⟨rfl, hinit.symm, (List.cons.inj hlast).1.symm⟩
  · rw [List.concat_eq_append, ← List.cons_append, ← List.append_assoc] at h
    obtain ⟨hinit, hlast⟩ := List.append_inj' h rfl
    cases hlast
    exact .inr ⟨later', List.concat_eq_append, hinit⟩

/-! ## Monitors -/

/-- A system together with a monitor: `watch` updates what the monitor knows
from each transition and never restrains the system. -/
def Observed (step : σ → ε → σ → Prop) (watch : γ → σ → ε → σ → γ) :
    σ × γ → ε → σ × γ → Prop :=
  fun s e t => step s.1 e t.1 ∧ t.2 = watch s.2 s.1 e t.1

/-! ## Simulation -/

/-- `abs` maps the states of a system that satisfy `inv` to states of a second
one; each step is matched by one step or by none. -/
structure Simulation (step : σ → ε → σ → Prop) (inv : σ → Prop) (step' : τ → η → τ → Prop)
    (abs : σ → τ) : Prop where
  keep : ∀ s e t, inv s → step s e t → inv t
  follow : ∀ s e t, inv s → step s e t → abs t = abs s ∨ ∃ e', step' (abs s) e' (abs t)

/-- A simulation maps reachable states to reachable states. -/
theorem Simulation.reachable {step : σ → ε → σ → Prop} {inv : σ → Prop}
    {step' : τ → η → τ → Prop} {abs : σ → τ} {init : σ → Prop} {init' : τ → Prop}
    (sim : Simulation step inv step' abs) (start : ∀ s, init s → inv s ∧ init' (abs s)) {s : σ}
    (h : Reachable step init s) : inv s ∧ Reachable step' init' (abs s) := by
  induction h with
  | init h => exact ⟨(start _ h).1, .init (start _ h).2⟩
  | step _ hs ih =>
    obtain ⟨hinv, hr⟩ := ih
    refine ⟨sim.keep _ _ _ hinv hs, ?_⟩
    rcases sim.follow _ _ _ hinv hs with heq | ⟨e', hs'⟩
    · rw [heq]; exact hr
    · exact .step hr hs'

end Lts
