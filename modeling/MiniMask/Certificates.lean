import Mathlib.Logic.Function.Basic
import Mathlib.Tactic.ByContra
import MiniMask.Lib.Transition

/-!
# The certificate files (`util.rs`, `ensure_ca_and_server_cert`)

A start makes sure that `ca.pem`, `ca_key.pem`, `cert.pem` and `key.pem` are there: it
leaves them alone if all four exist, and otherwise makes a new CA with a server certificate
and writes the four one by one, over what is left of the old ones. The call can fail or be
killed at any point, also in the middle of a write.

`one_generation_exact`: whenever a call returns `Ok` the files are those of one generation,
now and later, exactly if no call was interrupted in its writes while all four existed.
`mixed_generations` is the other case.
-/

namespace MiniMask.Certificates

open Lts

/-! ## Definitions -/

inductive Part
  | ca
  | caKey
  | cert
  | key
deriving DecidableEq, Repr

/-- The order in which the files are written. -/
def Part.next : Part → Option Part
  | .ca => some .caKey
  | .caKey => some .cert
  | .cert => some .key
  | .key => none

/-- What a file holds: its part of one result of `gen_ca_and_server_cert`, or what a write
that was cut off has left. -/
inductive Content
  | whole (gen : Nat)
  | torn
deriving DecidableEq, Repr

/-- Where a call stands: about to truncate a file, or writing into it. -/
inductive Phase
  | idle
  | opening (p : Part) (gen : Nat)
  | filling (p : Part) (gen : Nat)
  | returned
deriving DecidableEq, Repr

/-- The files, the latest call, and the number of certificate sets made so far. A call that
failed or was killed is `idle`; one that returned `Ok` is `returned`. -/
structure State where
  files : Part → Option Content
  phase : Phase
  generations : Nat

inductive Event
  | call
  | truncate (p : Part)
  | write (p : Part)
  | dies
deriving DecidableEq, Repr

namespace State

def setFile (s : State) (p : Part) (c : Content) : State :=
  { s with files := Function.update s.files p (some c) }

/-- `ca_path.exists() && ca_key_path.exists() && cert_path.exists() && key_path.exists()`. -/
def Complete (s : State) : Prop := ∀ p, s.files p ≠ none

/-- No call is in progress. -/
def Quiet (s : State) : Prop := s.phase = .idle ∨ s.phase = .returned

/-- `cert.pem` is signed by `ca.pem` and each of them matches its key. -/
def OneGeneration (s : State) : Prop := ∃ gen, ∀ p, s.files p = some (.whole gen)

end State

/-- What follows the write of a file. -/
def Phase.after (p : Part) (gen : Nat) : Phase :=
  match p.next with
  | some q => .opening q gen
  | none => .returned

/-- One step of a call. -/
inductive Step (s : State) : Event → State → Prop
  | found : s.Quiet → s.Complete → Step s .call { s with phase := .returned }
  /- `gen_ca_and_server_cert` has made a new set. -/
  | generate :
      s.Quiet → ¬ s.Complete →
      Step s .call
        { s with phase := .opening .ca s.generations, generations := s.generations + 1 }
  | truncate {p : Part} {gen : Nat} :
      s.phase = .opening p gen →
      Step s (.truncate p) { s.setFile p .torn with phase := .filling p gen }
  | write {p : Part} {gen : Nat} :
      s.phase = .filling p gen →
      Step s (.write p) { s.setFile p (.whole gen) with phase := .after p gen }
  | dies : ¬ s.Quiet → Step s .dies { s with phase := .idle }

/-- Any of the four files is there, and those that are belong to one generation. -/
structure Init (s : State) : Prop where
  phase : s.phase = .idle
  generations : s.generations = 1
  files : ∀ p, s.files p = none ∨ s.files p = some (.whole 0)

/-- A call that has returned `Ok` leaves the files of one generation. -/
def Consistent (s : State) : Prop := s.phase = .returned → s.OneGeneration

/-- A call does not die while all four files exist. -/
def DiesIncomplete (s : State) (e : Event) : Prop := e = .dies → ¬ s.Complete

/-- The states that the calls reach from `s` when none of them dies so. -/
def Reaches (s : State) : State → Prop := Reachable (Guarded Step DiesIncomplete) fun s₀ => s₀ = s

/-! ## A call under way -/

/-- The files that are written before `p`. -/
def Part.earlier : Part → List Part
  | .ca => []
  | .caKey => [.ca]
  | .cert => [.ca, .caKey]
  | .key => [.ca, .caKey, .cert]

/-- A call is at `p` with a new set: the files before `p` are of this set, and no other is. -/
structure Underway (s : State) (p : Part) (gen : Nat) : Prop where
  made : gen < s.generations
  earlier : ∀ q ∈ p.earlier, s.files q = some (.whole gen)
  later : ∀ q, q ∉ p.earlier → s.files q ≠ some (.whole gen)

/-- What every step keeps, whenever a call dies. -/
structure Sound (s : State) : Prop where
  old : ∀ p gen, s.files p = some (.whole gen) → gen < s.generations
  opening : ∀ p gen, s.phase = .opening p gen → Underway s p gen ∧ (p = .ca → ¬ s.Complete)
  filling : ∀ p gen, s.phase = .filling p gen → Underway s p gen ∧ s.files p = some .torn

section Steps

variable {s t : State} {e : Event}

theorem not_mem_earlier (p : Part) : p ∉ p.earlier := by cases p <;> decide

theorem earlier_next {p q : Part} (h : p.next = some q) (r : Part) :
    r ∈ q.earlier ↔ r = p ∨ r ∈ p.earlier := by
  cases p <;> cases h <;> cases r <;> decide

theorem mem_earlier_of_last {p : Part} (h : p.next = none) (r : Part) : r = p ∨ r ∈ p.earlier := by
  cases p <;> cases h
  cases r <;> decide

theorem next_ne_ca (p : Part) : p.next ≠ some .ca := by cases p <;> decide

theorem after_opening {p q : Part} {gen gen' : Nat} (h : Phase.after p gen = .opening q gen') :
    p.next = some q ∧ gen' = gen := by
  cases p <;> cases h <;> exact ⟨rfl, rfl⟩

theorem after_ne_filling (p q : Part) (gen gen' : Nat) : Phase.after p gen ≠ .filling q gen' := by
  cases p <;> nofun

theorem after_ne_idle (p : Part) (gen : Nat) : Phase.after p gen ≠ .idle := by cases p <;> nofun

theorem after_returned {p : Part} {gen : Nat} (h : Phase.after p gen = .returned) :
    p.next = none := by
  cases p <;> cases h
  rfl

@[simp] theorem setFile_self (s : State) (p : Part) (c : Content) :
    (s.setFile p c).files p = some c :=
  Function.update_self ..

theorem setFile_other (s : State) {p q : Part} (c : Content) (h : q ≠ p) :
    (s.setFile p c).files q = s.files q :=
  Function.update_of_ne h ..

theorem sound_init (h : Init s) : Sound s := by
  refine ⟨fun p gen hfile => ?_, fun p gen hphase => ?_, fun p gen hphase => ?_⟩
  · rw [h.generations]
    rcases h.files p with hnone | hwhole
    · rw [hnone] at hfile
      cases hfile
    · rw [hwhole] at hfile
      cases hfile
      exact Nat.zero_lt_one
  · rw [h.phase] at hphase
    cases hphase
  · rw [h.phase] at hphase
    cases hphase

/-- Truncating a file that is not of the new set leaves the set where it is. -/
theorem Underway.truncate {p : Part} {gen : Nat} (h : Underway s p gen) :
    Underway { s.setFile p .torn with phase := .filling p gen } p gen := by
  refine ⟨h.made, fun q hq => ?_, fun q hq => ?_⟩
  · have hne : q ≠ p := fun heq => not_mem_earlier p (heq ▸ hq)
    exact (setFile_other s _ hne).trans (h.earlier q hq)
  · show (s.setFile p .torn).files q ≠ _
    rcases eq_or_ne q p with rfl | hne
    · rw [setFile_self]
      nofun
    · rw [setFile_other s _ hne]
      exact h.later q hq

/-- A file that is written joins the set. -/
theorem Underway.write {p q : Part} {gen : Nat} (h : Underway s p gen) (hnext : p.next = some q)
    {phase : Phase} : Underway { s.setFile p (.whole gen) with phase } q gen := by
  refine ⟨h.made, fun r hr => ?_, fun r hr => ?_⟩
  · show (s.setFile p (.whole gen)).files r = _
    rcases eq_or_ne r p with rfl | hne
    · exact setFile_self ..
    · rw [setFile_other s _ hne]
      exact h.earlier r (((earlier_next hnext r).mp hr).resolve_left hne)
  · show (s.setFile p (.whole gen)).files r ≠ _
    rw [earlier_next hnext, not_or] at hr
    rw [setFile_other s _ hr.1]
    exact h.later r hr.2

/-- The last file completes the set. -/
theorem Underway.last {p : Part} {gen : Nat} (h : Underway s p gen) (hnext : p.next = none)
    {phase : Phase} : State.OneGeneration { s.setFile p (.whole gen) with phase } := by
  refine ⟨gen, fun r => ?_⟩
  show (s.setFile p (.whole gen)).files r = _
  rcases mem_earlier_of_last hnext r with rfl | hr
  · exact setFile_self ..
  · have hne : r ≠ p := by
      rintro rfl
      exact not_mem_earlier _ hr
    rw [setFile_other s _ hne]
    exact h.earlier r hr

theorem sound_step (h : Sound s) (hs : Step s e t) : Sound t := by
  cases hs with
  | found _ _ => exact ⟨h.old, nofun, nofun⟩
  | generate _ hmissing =>
    refine ⟨fun p gen hfile => Nat.lt_succ_of_lt (h.old p gen hfile), fun p gen hphase => ?_, nofun⟩
    cases hphase
    refine ⟨⟨Nat.lt_succ_self _, nofun, fun q _ hfile => ?_⟩, fun _ => hmissing⟩
    exact Nat.lt_irrefl _ (h.old q _ hfile)
  | @truncate p gen hphase =>
    refine ⟨fun q gen' hfile => ?_, nofun, fun q gen' hphase' => ?_⟩
    · change (s.setFile p .torn).files q = _ at hfile
      rcases eq_or_ne q p with rfl | hne
      · rw [setFile_self] at hfile
        cases hfile
      · rw [setFile_other s _ hne] at hfile
        exact h.old q gen' hfile
    · cases hphase'
      exact ⟨(h.opening p gen hphase).1.truncate, setFile_self ..⟩
  | @write p gen hphase =>
    obtain ⟨hunder, _⟩ := h.filling p gen hphase
    refine ⟨fun q gen' hfile => ?_, fun q gen' hphase' => ?_, fun q gen' hphase' => ?_⟩
    · change (s.setFile p (.whole gen)).files q = _ at hfile
      rcases eq_or_ne q p with rfl | hne
      · rw [setFile_self] at hfile
        cases hfile
        exact hunder.made
      · rw [setFile_other s _ hne] at hfile
        exact h.old q gen' hfile
    · obtain ⟨hnext, rfl⟩ := after_opening hphase'
      exact ⟨hunder.write hnext, fun hq => absurd (hq ▸ hnext) (next_ne_ca p)⟩
    · exact absurd hphase' (after_ne_filling p q gen gen')
  | dies _ => exact ⟨h.old, nofun, nofun⟩

/-! ## Calls that do not die in between -/

/-- What a call finds complete is of one generation, and so is what it leaves. -/
structure Kept (s : State) : Prop where
  sound : Sound s
  idle : s.phase = .idle → s.Complete → s.OneGeneration
  returned : Consistent s

theorem kept_init (h : Init s) : Kept s := by
  refine ⟨sound_init h, fun _ hall => ⟨0, fun p => ?_⟩, fun hphase => ?_⟩
  · exact (h.files p).resolve_left (hall p)
  · rw [h.phase] at hphase
    cases hphase

theorem kept_step (h : Kept s) (hs : Step s e t) (hok : DiesIncomplete s e) : Kept t := by
  have hsound := sound_step h.sound hs
  cases hs with
  | found hquiet hall =>
    refine ⟨hsound, nofun, fun _ => ?_⟩
    rcases hquiet with hphase | hphase
    · exact h.idle hphase hall
    · exact h.returned hphase
  | generate _ _ => exact ⟨hsound, nofun, nofun⟩
  | truncate _ => exact ⟨hsound, nofun, nofun⟩
  | @write p gen hphase =>
    refine ⟨hsound, fun hidle => absurd hidle (after_ne_idle p gen), fun hret => ?_⟩
    exact (h.sound.filling p gen hphase).1.last (after_returned hret)
  | dies _ => exact ⟨hsound, fun _ hall => absurd hall (hok rfl), nofun⟩

/-! ## Calls that do -/

/-- The four files exist and are not of one generation, and no call is in progress. -/
structure Mixed (s : State) : Prop where
  quiet : s.Quiet
  complete : s.Complete
  mixed : ¬ s.OneGeneration

/-- A mixed set is accepted for good. -/
theorem mixed_step (h : Mixed s) (hs : Step s e t) : Mixed t := by
  have hbusy : ∀ {p gen}, s.phase ≠ .opening p gen ∧ s.phase ≠ .filling p gen := by
    intro p gen
    rcases h.quiet with hphase | hphase
    · rw [hphase]; exact ⟨nofun, nofun⟩
    · rw [hphase]; exact ⟨nofun, nofun⟩
  cases hs with
  | found _ _ => exact ⟨.inr rfl, h.complete, h.mixed⟩
  | generate _ hmissing => exact absurd h.complete hmissing
  | truncate hphase => exact absurd hphase hbusy.1
  | write hphase => exact absurd hphase hbusy.2
  | dies hnot => exact absurd h.quiet hnot

/-- While a call is at `p`, that file is not of the new set and a file before it is. -/
theorem Underway.mixed {p : Part} {gen : Nat} (h : Underway s p gen) (hp : p ≠ .ca) :
    ¬ s.OneGeneration := by
  rintro ⟨gen', hall⟩
  have hca : Part.ca ∈ p.earlier := by
    cases p with
    | ca => exact absurd rfl hp
    | _ => decide
  have hfirst := h.earlier .ca hca
  rw [hall .ca] at hfirst
  cases hfirst
  exact h.later p (not_mem_earlier p) (hall p)

/-- A call that dies while all four files exist leaves them mixed. -/
theorem mixed_of_dies (h : Sound s) (hs : Step s .dies t) (hall : s.Complete) : Mixed t := by
  cases hs with
  | dies hnot =>
    refine ⟨.inl rfl, hall, fun hone => ?_⟩
    cases hphase : s.phase with
    | idle => exact hnot (.inl hphase)
    | returned => exact hnot (.inr hphase)
    | opening p gen =>
      -- Before the first file, one is missing, so `p` is not `ca.pem`.
      obtain ⟨hunder, hca⟩ := h.opening p gen hphase
      exact hunder.mixed (fun hp => hca hp hall) hone
    | filling p gen =>
      obtain ⟨gen', hone⟩ := hone
      have htorn := (h.filling p gen hphase).2
      cases htorn.symm.trans (hone p)

theorem mixed_of_dead {s₀ : State} {tr : List (State × Event × State)} (h₀ : Init s₀)
    (run : Run Step s₀ tr s) (hdead : ∃ x ∈ tr, ¬ DiesIncomplete x.1 x.2.1) : Mixed s := by
  induction run with
  | nil => obtain ⟨x, hx, _⟩ := hdead; cases hx
  | @snoc tr s t e run hs ih =>
    obtain ⟨x, hx, hbad⟩ := hdead
    rcases List.mem_append.mp hx with hx | hx
    · exact mixed_step (ih ⟨x, hx, hbad⟩) hs
    · cases List.mem_singleton.mp hx
      obtain ⟨rfl, hall⟩ := Classical.not_imp.mp hbad
      have hsound : Sound s := run.keeps (fun _ _ _ h hs => sound_step h hs) (sound_init h₀)
      exact mixed_of_dies hsound hs (not_not.mp hall)

end Steps

/-- However the call is made from now on, whenever it returns `Ok` the files are those of one
generation, if it does not die while all four exist: exactly if it has not died so yet. -/
theorem one_generation_exact {s₀ s : State} {tr : List (State × Event × State)} (h₀ : Init s₀)
    (run : Run Step s₀ tr s) :
    (∀ t, Reaches s t → Consistent t) ↔ ∀ x ∈ tr, DiesIncomplete x.1 x.2.1 := by
  have hkeep : ∀ s e t, Kept s → Step s e t → DiesIncomplete s e → Kept t :=
    fun _ _ _ h hs hok => kept_step h hs hok
  constructor
  · intro hall
    -- A mixed set stays, and the next call returns `Ok` with it.
    by_contra hdead
    simp only [not_forall] at hdead
    obtain ⟨x, hx, hbad⟩ := hdead
    have hmixed := mixed_of_dead h₀ run ⟨x, hx, hbad⟩
    have here : Reaches s s := .init rfl
    have again : Reaches s { s with phase := .returned } :=
      .step here ⟨.found hmixed.quiet hmixed.complete, nofun⟩
    have hone : State.OneGeneration { s with phase := .returned } := hall _ again rfl
    exact hmixed.mixed hone
  · intro hok t hreach
    have hkept := (run.keeps_guarded hkeep hok (kept_init h₀)).1
    have hstart : ∀ s₁, s₁ = s → Kept s₁ := fun _ heq => heq ▸ hkept
    exact (hreach.invariant hstart fun _ _ _ h hs => hkeep _ _ _ h hs.1 hs.2).returned

/-! ## Two runs -/

/-- A data directory in which `ca.pem` of the first set is missing. -/
def withoutCa : State where
  files p := if p = .ca then none else some (.whole 0)
  phase := .idle
  generations := 1

theorem init_withoutCa : Init withoutCa := by
  refine ⟨rfl, rfl, fun p => ?_⟩
  cases p with
  | ca => exact .inl rfl
  | _ => exact .inr rfl

theorem withoutCa_incomplete : ¬ withoutCa.Complete := fun h => h .ca rfl

/-- A call that is killed before its first write does no harm: the next one makes all four
files. -/
theorem one_generation_exact_replaced :
    ∃ tr s, Run Step withoutCa tr s ∧ s.phase = .returned ∧ s.OneGeneration := by
  have start : Run Step withoutCa [] withoutCa := .nil
  have killed := (start.snoc (.generate (.inl rfl) withoutCa_incomplete)).snoc (.dies (by
    rintro (heq | heq) <;> cases heq))
  have made := killed.snoc (.generate (.inl rfl) withoutCa_incomplete)
  have ca := (made.snoc (.truncate rfl)).snoc (.write rfl)
  have caKey := (ca.snoc (.truncate rfl)).snoc (.write rfl)
  have cert := (caKey.snoc (.truncate rfl)).snoc (.write rfl)
  have key := (cert.snoc (.truncate rfl)).snoc (.write rfl)
  refine ⟨_, _, key, rfl, (one_generation_exact init_withoutCa key).mpr ?_ _ (.init rfl) rfl⟩
  simp only [List.forall_mem_append, List.forall_mem_singleton, List.not_mem_nil, DiesIncomplete,
    reduceCtorEq, false_implies, implies_true, and_true, true_and]
  exact fun _ => withoutCa_incomplete

/-- `ca.pem` is missing, a call is killed after it has written a new one, and the next call
returns `Ok` with the new `ca.pem` beside a certificate that the old CA has signed. -/
theorem mixed_generations :
    ∃ s, Reachable Step Init s ∧ s.phase = .returned ∧ s.files .ca = some (.whole 1) ∧
      s.files .cert = some (.whole 0) ∧ ¬ Consistent s := by
  have start : Reachable Step Init withoutCa := .init init_withoutCa
  have made := start.step (.generate (.inl rfl) withoutCa_incomplete)
  have ca := (made.step (.truncate rfl)).step (.write rfl)
  have killed := ca.step (.dies (by rintro (heq | heq) <;> cases heq))
  have again := killed.step (.found (.inl rfl) (fun p => by cases p <;> nofun))
  refine ⟨_, again, rfl, rfl, rfl, fun h => ?_⟩
  obtain ⟨gen, hall⟩ := h rfl
  have hca := hall .ca
  have hcert := hall .cert
  cases hca
  cases hcert

end MiniMask.Certificates
