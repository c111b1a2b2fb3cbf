import Mathlib.Data.List.Nodup
import Mathlib.Logic.Function.Basic
import Mathlib.Logic.Relation
import MiniMask.Lib.Transition

/-!
# Fair locks and their order

Tasks that take readers-writer locks. A lock is granted first come, first served: a task
that asks for it queues up, and only the one at the front is let in, as soon as nobody
holds the lock in a mode that excludes its own. So a reader waits behind a writer that
waits. A mutex is a lock that is only written.

* `Cmd` is what a task does as far as locks go: which it holds around what, where it
  waits for something from outside, and what it may do in turn. What decides its branches
  is left open.
* `Cmd.Ordered` is the discipline, which is checked on the commands alone: locks are
  taken in the order of their ranks, and nothing is awaited from outside under a lock.
* `deadlock_free`: tasks that keep to it never deadlock. In every reachable state each
  task that waits for a lock waits, in the end, for a task that can go on by itself.
-/

namespace Locks

open Lts

/-! ## Tasks -/

inductive Mode
  | read
  | write
deriving DecidableEq, Repr

/-- Two tasks can hold a lock at a time when both read. -/
def Mode.Compatible (m m' : Mode) : Prop := m = .read ∧ m' = .read

/-- What a task does.

* `io` is an operation that comes to its end by itself, `outside` one that may wait for
  a peer or a clock;
* `choice`, `any` and `loop` leave open which way the task goes, and how often;
* `guard ℓ m c` holds the lock `ℓ` around `c`. -/
inductive Cmd (κ : Type)
  | skip
  | io
  | outside
  | seq (c d : Cmd κ)
  | choice (c d : Cmd κ)
  | any (f : Nat → Cmd κ)
  | loop (c : Cmd κ)
  | guard (ℓ : κ) (m : Mode) (c : Cmd κ)

/-- What a task has still to do: run a command, wait in the queue of a lock for the guard
around a command, or give up a guard. -/
inductive Frame (κ : Type)
  | run (c : Cmd κ)
  | blocked (ℓ : κ) (m : Mode) (c : Cmd κ)
  | release (ℓ : κ) (m : Mode)

/-- The tasks, each with its frames, and the queues of the locks. -/
structure State (κ τ : Type) where
  code : τ → List (Frame κ)
  queue : κ → List τ

variable {κ τ : Type}

namespace State

/-- A task holds the locks that it is going to give up. -/
def Holds (s : State κ τ) (i : τ) (ℓ : κ) (m : Mode) : Prop := .release ℓ m ∈ s.code i

def WaitsAt (s : State κ τ) (i : τ) (ℓ : κ) (m : Mode) : Prop :=
  ∃ c k, s.code i = .blocked ℓ m c :: k

def Waits (s : State κ τ) (i : τ) : Prop := ∃ ℓ m, s.WaitsAt i ℓ m

/-- `i` waits for `j`, which is before it in the queue or holds the lock in a mode that
excludes it. -/
def WaitsFor (s : State κ τ) (i j : τ) : Prop :=
  ∃ ℓ m, s.WaitsAt i ℓ m ∧
    ((∃ pre post, s.queue ℓ = pre ++ i :: post ∧ j ∈ pre) ∨
      ∃ m', s.Holds j ℓ m' ∧ ¬ m.Compatible m')

section Updates

variable [DecidableEq τ]

def setCode (s : State κ τ) (i : τ) (k : List (Frame κ)) : State κ τ :=
  { s with code := Function.update s.code i k }

@[simp] theorem setCode_self (s : State κ τ) (i : τ) (k : List (Frame κ)) :
    (s.setCode i k).code i = k := Function.update_self ..

@[simp] theorem setCode_of_ne (s : State κ τ) {i j : τ} (k : List (Frame κ)) (hne : j ≠ i) :
    (s.setCode i k).code j = s.code j := Function.update_of_ne hne ..

@[simp] theorem setCode_queue (s : State κ τ) (i : τ) (k : List (Frame κ)) :
    (s.setCode i k).queue = s.queue := rfl

end Updates

section Queues

variable [DecidableEq κ]

def setQueue (s : State κ τ) (ℓ : κ) (q : List τ) : State κ τ :=
  { s with queue := Function.update s.queue ℓ q }

@[simp] theorem setQueue_self (s : State κ τ) (ℓ : κ) (q : List τ) :
    (s.setQueue ℓ q).queue ℓ = q := Function.update_self ..

@[simp] theorem setQueue_of_ne (s : State κ τ) {ℓ ℓ' : κ} (q : List τ) (hne : ℓ' ≠ ℓ) :
    (s.setQueue ℓ q).queue ℓ' = s.queue ℓ' := Function.update_of_ne hne ..

@[simp] theorem setQueue_code (s : State κ τ) (ℓ : κ) (q : List τ) :
    (s.setQueue ℓ q).code = s.code := rfl

end Queues

end State

/-- What a command comes to in one step that takes no lock and awaits nothing. -/
inductive Moves : Cmd κ → List (Cmd κ) → Prop
  | skip : Moves .skip []
  | io : Moves .io []
  | seq {c d : Cmd κ} : Moves (.seq c d) [c, d]
  | left {c d : Cmd κ} : Moves (.choice c d) [c]
  | right {c d : Cmd κ} : Moves (.choice c d) [d]
  | any {f : Nat → Cmd κ} (n : Nat) : Moves (.any f) [f n]
  | exit {c : Cmd κ} : Moves (.loop c) []
  | again {c : Cmd κ} : Moves (.loop c) [c, .loop c]

/-- Who takes a step: a task by itself, a task that something from outside has come for,
or whoever drops a task. -/
inductive Event (τ : Type)
  | own (i : τ)
  | outside (i : τ)
  | drop (i : τ)

/-- One step of any task. -/
inductive Step [DecidableEq κ] [DecidableEq τ] (s : State κ τ) : Event τ → State κ τ → Prop
  | move {i : τ} {c : Cmd κ} {cs : List (Cmd κ)} {k : List (Frame κ)} :
      s.code i = .run c :: k → Moves c cs → Step s (.own i) (s.setCode i (cs.map .run ++ k))
  | outside {i : τ} {k : List (Frame κ)} :
      s.code i = .run .outside :: k → Step s (.outside i) (s.setCode i k)
  | request {i : τ} {ℓ : κ} {m : Mode} {c : Cmd κ} {k : List (Frame κ)} :
      s.code i = .run (.guard ℓ m c) :: k →
      Step s (.own i) ((s.setCode i (.blocked ℓ m c :: k)).setQueue ℓ (s.queue ℓ ++ [i]))
  | grant {i : τ} {ℓ : κ} {m : Mode} {c : Cmd κ} {k : List (Frame κ)} {q : List τ} :
      s.code i = .blocked ℓ m c :: k → s.queue ℓ = i :: q →
      (∀ j m', s.Holds j ℓ m' → m.Compatible m') →
      Step s (.own i) ((s.setCode i (.run c :: .release ℓ m :: k)).setQueue ℓ q)
  | release {i : τ} {ℓ : κ} {m : Mode} {k : List (Frame κ)} :
      s.code i = .release ℓ m :: k → Step s (.own i) (s.setCode i k)
  /- A dropped future gives up its guards and its place in a queue. -/
  | drop {i : τ} :
      Step s (.drop i)
        { s.setCode i [] with queue := fun ℓ => (s.queue ℓ).filter fun j => j ≠ i }

/-- Every task is at its beginning. -/
def Starts (tasks : τ → Cmd κ) (s : State κ τ) : Prop :=
  s = { code := fun i => [.run (tasks i)], queue := fun _ => [] }

/-! ## The order of the locks -/

/-- The command can run under locks of rank at most `b`, or under none where `b` is `0`: it
takes locks of a higher rank only, in order, and awaits nothing from outside under a lock. -/
def Cmd.Ordered (rank : κ → Nat) : Nat → Cmd κ → Prop
  | _, .skip => True
  | _, .io => True
  | b, .outside => b = 0
  | b, .seq c d => c.Ordered rank b ∧ d.Ordered rank b
  | b, .choice c d => c.Ordered rank b ∧ d.Ordered rank b
  | b, .any f => ∀ n, (f n).Ordered rank b
  | b, .loop c => c.Ordered rank b
  | b, .guard ℓ _ c => b < rank ℓ ∧ c.Ordered rank (rank ℓ)

/-- The rank of the lock that was taken last, of those held. -/
def bound (rank : κ → Nat) : List (Frame κ) → Nat
  | [] => 0
  | .run _ :: k => bound rank k
  | .blocked _ _ _ :: k => bound rank k
  | .release ℓ _ :: _ => rank ℓ

/-- What the task has still to do is in order. -/
def InOrder (rank : κ → Nat) : List (Frame κ) → Prop
  | [] => True
  | .run c :: k => c.Ordered rank (bound rank k) ∧ InOrder rank k
  | .blocked ℓ _ c :: k => bound rank k < rank ℓ ∧ c.Ordered rank (rank ℓ) ∧ InOrder rank k
  | .release ℓ _ :: k => bound rank k < rank ℓ ∧ InOrder rank k

section Order

variable {rank : κ → Nat}

/-- A lock that is held has at most the rank of the one taken last. -/
theorem rank_of_held {k : List (Frame κ)} (h : InOrder rank k) {ℓ : κ} {m : Mode}
    (hheld : .release ℓ m ∈ k) : 0 < rank ℓ ∧ rank ℓ ≤ bound rank k := by
  induction k with
  | nil => cases hheld
  | cons frame k ih =>
    rcases List.mem_cons.mp hheld with rfl | hrest
    · exact ⟨Nat.zero_lt_of_lt h.1, Nat.le_refl _⟩
    · cases frame with
      | run c => exact ih h.2 hrest
      | blocked ℓ' m' c => exact ih h.2.2 hrest
      | release ℓ' m' =>
        obtain ⟨hpos, hle⟩ := ih h.2 hrest
        exact ⟨hpos, Nat.le_trans hle (Nat.le_of_lt h.1)⟩

/-- What a command comes to is as ordered as the command. -/
theorem Moves.inOrder {c : Cmd κ} {cs : List (Cmd κ)} {k : List (Frame κ)} (hs : Moves c cs)
    (h : InOrder rank (.run c :: k)) : InOrder rank (cs.map .run ++ k) := by
  obtain ⟨hc, hk⟩ := h
  cases hs with
  | skip => exact hk
  | io => exact hk
  | seq => exact ⟨hc.1, hc.2, hk⟩
  | left => exact ⟨hc.1, hk⟩
  | right => exact ⟨hc.2, hk⟩
  | any n => exact ⟨hc n, hk⟩
  | exit => exact hk
  | again => exact ⟨hc, hc, hk⟩

/-- A command that takes no lock and awaits nothing has a next step. -/
theorem Cmd.moves_or (c : Cmd κ) :
    (∃ cs, Moves c cs) ∨ c = .outside ∨ ∃ ℓ m d, c = .guard ℓ m d := by
  cases c with
  | skip => exact .inl ⟨_, .skip⟩
  | io => exact .inl ⟨_, .io⟩
  | outside => exact .inr (.inl rfl)
  | seq c d => exact .inl ⟨_, .seq⟩
  | choice c d => exact .inl ⟨_, .left⟩
  | any f => exact .inl ⟨_, .any 0⟩
  | loop c => exact .inl ⟨_, .exit⟩
  | guard ℓ m c => exact .inr (.inr ⟨ℓ, m, c, rfl⟩)

end Order

/-! ## Reachable states -/

/-- No frame of the list waits for a lock. -/
def NoneBlocked (k : List (Frame κ)) : Prop := ∀ ℓ m c, .blocked ℓ m c ∉ k

/-- The frames of every task are in order, and the queues have the tasks that wait. -/
structure Orderly (rank : κ → Nat) (s : State κ τ) : Prop where
  inOrder : ∀ i, InOrder rank (s.code i)
  inner : ∀ i, NoneBlocked (s.code i).tail
  queued : ∀ ℓ i, i ∈ s.queue ℓ ↔ ∃ m, s.WaitsAt i ℓ m
  nodup : ∀ ℓ, (s.queue ℓ).Nodup

theorem orderly_starts {rank : κ → Nat} {tasks : τ → Cmd κ} {s : State κ τ}
    (hordered : ∀ i, (tasks i).Ordered rank 0) (h : Starts tasks s) : Orderly rank s := by
  cases h
  refine ⟨fun i => ⟨hordered i, trivial⟩, fun i _ _ _ => List.not_mem_nil,
    fun ℓ i => iff_of_false List.not_mem_nil ?_, fun _ => List.nodup_nil⟩
  rintro ⟨m, c, k, heq⟩
  cases heq

section Reachable

variable [DecidableEq τ] {rank : κ → Nat} {s t : State κ τ} {i : τ}

/-- Task `i` goes on with `k`, and waits neither before nor after. -/
theorem Orderly.setCode (h : Orderly rank s) {k : List (Frame κ)} (hk : InOrder rank k)
    (hbefore : ¬ s.Waits i) (hafter : NoneBlocked k) : Orderly rank (s.setCode i k) where
  inOrder j := by
    rcases eq_or_ne j i with rfl | hne
    · simpa using hk
    · simpa [hne] using h.inOrder j
  inner j := by
    rcases eq_or_ne j i with rfl | hne
    · rw [State.setCode_self]
      exact fun ℓ m c hmem => hafter ℓ m c (List.mem_of_mem_tail hmem)
    · simpa [hne] using h.inner j
  queued ℓ j := by
    rw [State.setCode_queue, h.queued]
    rcases eq_or_ne j i with rfl | hne
    · refine iff_of_false (fun ⟨m, hm⟩ => hbefore ⟨ℓ, m, hm⟩) ?_
      rintro ⟨m, c, k', heq⟩
      rw [State.setCode_self] at heq
      exact hafter ℓ m c (heq ▸ List.mem_cons_self)
    · simp [State.WaitsAt, hne]
  nodup := h.nodup

/-- A dropped task is gone from the queues. -/
theorem Orderly.drop (h : Orderly rank s) (i : τ) : Orderly rank
    { s.setCode i [] with queue := fun ℓ => (s.queue ℓ).filter fun j => j ≠ i } where
  inOrder j := by
    rcases eq_or_ne j i with rfl | hne
    · simp [InOrder]
    · simpa [hne] using h.inOrder j
  inner j := by
    rcases eq_or_ne j i with rfl | hne
    · simp [NoneBlocked]
    · simpa [hne] using h.inner j
  queued ℓ j := by
    rcases eq_or_ne j i with rfl | hne
    · simp [State.WaitsAt]
    · simpa [State.WaitsAt, hne] using h.queued ℓ j
  nodup ℓ := (h.nodup ℓ).filter _

variable [DecidableEq κ]

/-- Task `i` takes a place at the end of the queue. -/
theorem Orderly.request (h : Orderly rank s) {ℓ : κ} {m : Mode} {c : Cmd κ}
    {k : List (Frame κ)} (hcode : s.code i = .run (.guard ℓ m c) :: k) :
    Orderly rank ((s.setCode i (.blocked ℓ m c :: k)).setQueue ℓ (s.queue ℓ ++ [i])) := by
  have hnot : ∀ ℓ', i ∉ s.queue ℓ' := by
    intro ℓ' hmem
    obtain ⟨_, _, _, heq⟩ := (h.queued ℓ' i).mp hmem
    cases hcode.symm.trans heq
  have hin := h.inOrder i
  have hinner := h.inner i
  rw [hcode] at hin hinner
  constructor
  · intro j
    rcases eq_or_ne j i with rfl | hne
    · rw [State.setQueue_code, State.setCode_self]
      exact ⟨hin.1.1, hin.1.2, hin.2⟩
    · simpa [hne] using h.inOrder j
  · intro j
    rcases eq_or_ne j i with rfl | hne
    · rw [State.setQueue_code, State.setCode_self]
      exact hinner
    · simpa [hne] using h.inner j
  · intro ℓ' j
    rcases eq_or_ne ℓ' ℓ with rfl | hℓ
    · rcases eq_or_ne j i with rfl | hne
      · simp [State.WaitsAt]
      · simpa [State.WaitsAt, hne] using h.queued ℓ' j
    · rcases eq_or_ne j i with rfl | hne
      · simp [State.WaitsAt, hℓ, hℓ.symm, hnot]
      · simpa [State.WaitsAt, hne, hℓ] using h.queued ℓ' j
  · intro ℓ'
    rcases eq_or_ne ℓ' ℓ with rfl | hℓ
    · rw [State.setQueue_self]
      exact List.concat_eq_append ▸ List.Nodup.concat (hnot ℓ') (h.nodup ℓ')
    · simpa [hℓ] using h.nodup ℓ'

/-- The task at the front of the queue is let in. -/
theorem Orderly.grant (h : Orderly rank s) {ℓ : κ} {m : Mode} {c : Cmd κ}
    {k : List (Frame κ)} {q : List τ} (hcode : s.code i = .blocked ℓ m c :: k)
    (hqueue : s.queue ℓ = i :: q) :
    Orderly rank ((s.setCode i (.run c :: .release ℓ m :: k)).setQueue ℓ q) := by
  have hin := h.inOrder i
  have hinner := h.inner i
  have hnodup := h.nodup ℓ
  rw [hcode] at hin hinner
  rw [hqueue] at hnodup
  obtain ⟨hnot, hnodup⟩ := List.nodup_cons.mp hnodup
  have hnone : NoneBlocked (.release ℓ m :: k) := by
    intro ℓ' m' d hmem
    rcases List.mem_cons.mp hmem with heq | hmem
    · cases heq
    · exact hinner ℓ' m' d hmem
  constructor
  · intro j
    rcases eq_or_ne j i with rfl | hne
    · rw [State.setQueue_code, State.setCode_self]
      exact ⟨hin.2.1, hin.1, hin.2.2⟩
    · simpa [hne] using h.inOrder j
  · intro j
    rcases eq_or_ne j i with rfl | hne
    · rw [State.setQueue_code, State.setCode_self]
      exact hnone
    · simpa [hne] using h.inner j
  · intro ℓ' j
    have hold := h.queued ℓ' j
    rcases eq_or_ne ℓ' ℓ with rfl | hℓ
    · rcases eq_or_ne j i with rfl | hne
      · simpa [State.WaitsAt] using hnot
      · rw [hqueue, List.mem_cons, or_iff_right hne] at hold
        simpa [State.WaitsAt, hne] using hold
    · rcases eq_or_ne j i with rfl | hne
      · simpa [State.WaitsAt, hℓ, hℓ.symm, hcode] using hold
      · simpa [State.WaitsAt, hne, hℓ] using hold
  · intro ℓ'
    rcases eq_or_ne ℓ' ℓ with rfl | hℓ
    · simpa using hnodup
    · simpa [hℓ] using h.nodup ℓ'

theorem orderly_step {e : Event τ} (h : Orderly rank s) (hs : Step s e t) : Orderly rank t := by
  have hrun : ∀ {i f k}, s.code i = f :: k → (∀ ℓ m c, f ≠ .blocked ℓ m c) →
      ¬ s.Waits i ∧ NoneBlocked k := by
    rintro i f k hcode hf
    have hinner := h.inner i
    rw [hcode] at hinner
    refine ⟨?_, hinner⟩
    rintro ⟨ℓ, m, c, k', heq⟩
    cases hcode.symm.trans heq
    exact hf ℓ m c rfl
  cases hs with
  | @move i c cs k hcode hmoves =>
    obtain ⟨hbefore, hnone⟩ := hrun hcode nofun
    have hin := h.inOrder i
    rw [hcode] at hin
    refine h.setCode (hmoves.inOrder hin) hbefore fun ℓ m d hmem => ?_
    rcases List.mem_append.mp hmem with hmem | hmem
    · obtain ⟨_, _, heq⟩ := List.mem_map.mp hmem
      cases heq
    · exact hnone ℓ m d hmem
  | @outside i k hcode =>
    obtain ⟨hbefore, hnone⟩ := hrun hcode nofun
    have hin := h.inOrder i
    rw [hcode] at hin
    exact h.setCode hin.2 hbefore hnone
  | @release i ℓ m k hcode =>
    obtain ⟨hbefore, hnone⟩ := hrun hcode nofun
    have hin := h.inOrder i
    rw [hcode] at hin
    exact h.setCode hin.2 hbefore hnone
  | request hcode => exact h.request hcode
  | grant hcode hqueue _ => exact h.grant hcode hqueue
  | drop => exact h.drop _

/-! ## No deadlock -/

/-- Whoever waits for a lock waits, in the end, for a task that can take a step. -/
theorem Orderly.progress (h : Orderly rank s) {n : Nat} (hrank : ∀ ℓ, rank ℓ ≤ n) {ℓ : κ}
    {m : Mode} (hwaits : s.WaitsAt i ℓ m) :
    ∃ j, Relation.ReflTransGen s.WaitsFor i j ∧ ∃ t, Step s (.own j) t := by
  -- the induction is on the ranks above that of the lock waited for
  induction hd : n - rank ℓ using Nat.strongRecOn generalizing i ℓ m with
  | ind d ih =>
    have hmem := (h.queued ℓ i).mpr ⟨m, hwaits⟩
    obtain ⟨front, q, hqueue⟩ := List.exists_cons_of_ne_nil (List.ne_nil_of_mem hmem)
    have hfront : Relation.ReflTransGen s.WaitsFor i front := by
      rw [hqueue] at hmem
      rcases List.mem_cons.mp hmem with rfl | hmem
      · exact .refl
      · obtain ⟨pre, post, rfl⟩ := List.append_of_mem hmem
        exact .single ⟨ℓ, m, hwaits, .inl ⟨front :: pre, post, hqueue, List.mem_cons_self⟩⟩
    obtain ⟨m₁, hfwaits⟩ := (h.queued ℓ front).mp (by rw [hqueue]; exact List.mem_cons_self)
    obtain ⟨c, k, hcode⟩ := id hfwaits
    by_cases hgrant : ∀ j m', s.Holds j ℓ m' → m₁.Compatible m'
    · exact ⟨front, hfront, _, .grant hcode hqueue hgrant⟩
    -- the front of the queue waits for a task that holds the lock
    obtain ⟨j, m₂, hholds, hnot⟩ : ∃ j m', s.Holds j ℓ m' ∧ ¬ m₁.Compatible m' := by
      by_contra hnone
      exact hgrant fun j m' hholds => by_contra fun hnot => hnone ⟨j, m', hholds, hnot⟩
    have hj := hfront.tail ⟨ℓ, m₁, hfwaits, .inr ⟨m₂, hholds, hnot⟩⟩
    have hin := h.inOrder j
    have hheld : .release ℓ m₂ ∈ s.code j := hholds
    obtain ⟨hpos, hle⟩ := rank_of_held hin hheld
    cases hcode : s.code j with
    | nil =>
      rw [hcode] at hheld
      cases hheld
    | cons frame k =>
      rw [hcode] at hin hle
      cases frame with
      | release ℓ' m' => exact ⟨j, hj, _, .release hcode⟩
      | run c =>
        rcases c.moves_or with ⟨cs, hmoves⟩ | rfl | ⟨ℓ', m', d, rfl⟩
        · exact ⟨j, hj, _, .move hcode hmoves⟩
        · -- nothing is awaited from outside under a lock
          have hbound : bound rank k = 0 := hin.1
          rw [show bound rank (.run .outside :: k) = bound rank k from rfl, hbound] at hle
          exact absurd hle (Nat.not_le_of_lt hpos)
        · exact ⟨j, hj, _, .request hcode⟩
      | blocked ℓ' m' c =>
        have hlt : rank ℓ < rank ℓ' := Nat.lt_of_le_of_lt hle hin.1
        have hle' := hrank ℓ'
        obtain ⟨j', hj', ht⟩ := ih (n - rank ℓ') (by omega) ⟨c, k, hcode⟩ rfl
        exact ⟨j', hj.trans hj', ht⟩

/-- Tasks that take their locks in order never deadlock. -/
theorem deadlock_free {tasks : τ → Cmd κ} {n : Nat} (hrank : ∀ ℓ, rank ℓ ≤ n)
    (hordered : ∀ i, (tasks i).Ordered rank 0) (hr : Reachable Step (Starts tasks) s)
    (hwaits : s.Waits i) :
    ∃ j, Relation.ReflTransGen s.WaitsFor i j ∧ ∃ t, Step s (.own j) t := by
  obtain ⟨ℓ, m, hwaits⟩ := hwaits
  have horderly : Orderly rank s := hr.invariant (fun _ h => orderly_starts hordered h)
    fun _ _ _ h hs => orderly_step h hs
  exact horderly.progress hrank hwaits

end Reachable

end Locks
