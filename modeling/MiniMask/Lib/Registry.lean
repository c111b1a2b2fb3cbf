import Mathlib.Data.List.AList
import MiniMask.Lib.Transition

/-!
# Tables that keep the latest claim of each key

A table of bounded size holds at most one value per key. A *claim* puts its value
under its key, over whatever is there; it is admitted only while the table has
fewer than `cap` entries. A *release* takes a value out again, unless another
claim of the same key has replaced it. Claims have distinct identifiers and may be
released late, more than once or never.

`reachable_good` is the invariant: in every reachable state the entry of a key is
the value of its latest claim, unless that very claim has been released.
-/

namespace Registry

open Lts

variable {κ ι ν : Type} [DecidableEq κ] [DecidableEq ι]

/-! ## Definitions -/

/-- The table with its history: the claims so far, newest first, and the
identifiers of the released ones. -/
structure State (κ ι ν : Type) where
  table : AList fun _ : κ => ν
  log : List ν
  released : List ι

/-- Remove the entry of `k` if it is the one that `i` identifies. -/
def removeOwn (ident : ν → ι) (table : AList fun _ : κ => ν) (k : κ) (i : ι) :
    AList fun _ : κ => ν :=
  match table.lookup k with
  | some v => if ident v = i then table.erase k else table
  | none => table

inductive Event (ν : Type)
  | claim (v : ν)
  | release (v : ν)

/-- Where a value belongs and what tells claims apart. -/
structure Schema (κ ι ν : Type) where
  key : ν → κ
  ident : ν → ι

variable (c : Schema κ ι ν)

def claim (s : State κ ι ν) (v : ν) : State κ ι ν :=
  { s with table := s.table.insert (c.key v) v, log := v :: s.log }

def release (s : State κ ι ν) (v : ν) : State κ ι ν :=
  { s with
    table := removeOwn c.ident s.table (c.key v) (c.ident v)
    released := c.ident v :: s.released }

inductive Step (cap : Nat) : State κ ι ν → Event ν → State κ ι ν → Prop
  | claim {s : State κ ι ν} {v : ν} :
      s.table.entries.length < cap → c.ident v ∉ s.log.map c.ident →
      Step cap s (.claim v) (claim c s v)
  | release {s : State κ ι ν} {v : ν} : v ∈ s.log → Step cap s (.release v) (release c s v)

/-- No entries, no history. -/
def init : State κ ι ν := { table := ∅, log := [], released := [] }

/-- The initial states: only `init`. -/
def Initial (s : State κ ι ν) : Prop := s = init

/-- The latest claim of `k`. -/
def latest (log : List ν) (k : κ) : Option ν := log.find? fun v => c.key v = k

/-- What a lookup must give: the latest claim, unless it was released. -/
def current (s : State κ ι ν) (k : κ) : Option ν :=
  (latest c s.log k).filter fun v => !decide (c.ident v ∈ s.released)

structure Good (cap : Nat) (s : State κ ι ν) : Prop where
  size_le : s.table.entries.length ≤ cap
  own_key : ∀ k v, s.table.lookup k = some v → c.key v = k
  ident_nodup : (s.log.map c.ident).Nodup
  released_logged : ∀ i ∈ s.released, i ∈ s.log.map c.ident
  lookup_eq : ∀ k, s.table.lookup k = current c s k

/-! ## Tables -/

section Tables

variable {c}

theorem length_insert_le (table : AList fun _ : κ => ν) (k : κ) (v : ν) :
    (table.insert k v).entries.length ≤ table.entries.length + 1 := by
  rw [AList.entries_insert, List.length_cons]
  exact Nat.succ_le_succ (List.kerase_sublist k table.entries).length_le

theorem length_removeOwn_le (ident : ν → ι) (table : AList fun _ : κ => ν) (k : κ) (i : ι) :
    (removeOwn ident table k i).entries.length ≤ table.entries.length := by
  unfold removeOwn
  split
  · split
    · exact (List.kerase_sublist k table.entries).length_le
    · exact Nat.le_refl _
  · exact Nat.le_refl _

theorem lookup_removeOwn_ne (ident : ν → ι) (table : AList fun _ : κ => ν) {k k' : κ} (i : ι)
    (h : k' ≠ k) : (removeOwn ident table k i).lookup k' = table.lookup k' := by
  unfold removeOwn
  split
  · split
    · exact AList.lookup_erase_ne h
    · rfl
  · rfl

theorem lookup_removeOwn_self (ident : ν → ι) (table : AList fun _ : κ => ν) (k : κ) (i : ι) :
    (removeOwn ident table k i).lookup k =
      (table.lookup k).filter fun v => !decide (ident v = i) := by
  unfold removeOwn
  cases hlookup : table.lookup k with
  | none => simp [hlookup]
  | some v =>
    rcases eq_or_ne (ident v) i with heq | hne
    · simp [Option.filter_some, heq]
    · simp [Option.filter_some, hne, hlookup]

/-- An entry that is found after a removal was there before. -/
theorem lookup_of_removeOwn {ident : ν → ι} {table : AList fun _ : κ => ν} {k k' : κ} {i : ι}
    {v : ν} (h : (removeOwn ident table k i).lookup k' = some v) : table.lookup k' = some v := by
  rcases eq_or_ne k' k with rfl | hne
  · rw [lookup_removeOwn_self] at h
    exact (Option.filter_eq_some_iff.mp h).1
  · rwa [lookup_removeOwn_ne ident table i hne] at h

/-- A release that comes after its value was replaced does nothing to the table. -/
theorem removeOwn_of_ne {ident : ν → ι} {table : AList fun _ : κ => ν} {k : κ} {i : ι} {v : ν}
    (h : table.lookup k = some v) (hne : ident v ≠ i) : removeOwn ident table k i = table := by
  simp [removeOwn, h, hne]

end Tables

/-! ## The invariant -/

section Invariant

variable {c} {cap : Nat} {s t : State κ ι ν}

omit [DecidableEq ι] in
theorem latest_mem {log : List ν} {k : κ} {v : ν} (h : latest c log k = some v) :
    v ∈ log ∧ c.key v = k :=
  ⟨List.mem_of_find?_eq_some h, by simpa using List.find?_some h⟩

theorem good_init : Good c cap (init : State κ ι ν) := by
  refine ⟨Nat.zero_le _, fun k v h => ?_, List.nodup_nil, nofun, fun k => ?_⟩
  · exact absurd h (by simp [init])
  · simp [init, current, latest]

theorem good_claim {v : ν} (h : Good c cap s) (hroom : s.table.entries.length < cap)
    (hfresh : c.ident v ∉ s.log.map c.ident) : Good c cap (claim c s v) := by
  have hnew : c.ident v ∉ s.released := fun hmem => hfresh (h.released_logged _ hmem)
  refine ⟨Nat.le_trans (length_insert_le _ _ _) hroom, fun k w hw => ?_,
    List.nodup_cons.mpr ⟨hfresh, h.ident_nodup⟩,
    fun i hi => List.mem_cons_of_mem _ (h.released_logged i hi), fun k => ?_⟩
  · rcases eq_or_ne k (c.key v) with rfl | hne
    · rw [show (claim c s v).table = s.table.insert (c.key v) v from rfl,
        AList.lookup_insert] at hw
      cases hw
      rfl
    · exact h.own_key k w (by rwa [← AList.lookup_insert_ne hne])
  · rcases eq_or_ne k (c.key v) with rfl | hne
    · simp [claim, current, latest, Option.filter_some, hnew]
    · rw [show (claim c s v).table = s.table.insert (c.key v) v from rfl,
        AList.lookup_insert_ne hne, h.lookup_eq k]
      have hlatest : latest c (v :: s.log) k = latest c s.log k := by simp [latest, hne.symm]
      show current c s k = (latest c (v :: s.log) k).filter _
      rw [hlatest]
      rfl

/-- Identifiers tell logged claims apart. -/
theorem Good.eq_of_ident (h : Good c cap s) {v w : ν} (hv : v ∈ s.log) (hw : w ∈ s.log)
    (heq : c.ident v = c.ident w) : v = w :=
  List.inj_on_of_nodup_map h.ident_nodup hv hw heq

theorem good_release {v : ν} (h : Good c cap s) (hlog : v ∈ s.log) :
    Good c cap (release c s v) := by
  refine ⟨Nat.le_trans (length_removeOwn_le _ _ _ _) h.size_le,
    fun k w hw => h.own_key k w (lookup_of_removeOwn hw), h.ident_nodup, fun i hi => ?_,
    fun k => ?_⟩
  · rcases List.mem_cons.mp hi with rfl | hi
    · exact List.mem_map_of_mem hlog
    · exact h.released_logged i hi
  · show (removeOwn c.ident s.table (c.key v) (c.ident v)).lookup k =
      (latest c s.log k).filter fun w => !decide (c.ident w ∈ c.ident v :: s.released)
    have hold := h.lookup_eq k
    unfold current at hold
    rcases eq_or_ne k (c.key v) with rfl | hne
    · -- the key of the released claim: both sides lose the entries identified by it
      rw [lookup_removeOwn_self, hold, Option.filter_filter]
      congr 1
      funext w
      simp [Bool.and_comm]
    · rw [lookup_removeOwn_ne _ _ _ hne, hold]
      cases hlatest : latest c s.log k with
      | none => rfl
      | some w =>
        obtain ⟨hw, hkey⟩ := latest_mem hlatest
        have hident : c.ident w ≠ c.ident v := fun heq =>
          hne (h.eq_of_ident hw hlog heq ▸ hkey.symm)
        simp [Option.filter_some, hident]

theorem good_step {e : Event ν} (h : Good c cap s) (hs : Step c cap s e t) : Good c cap t := by
  cases hs with
  | claim hroom hfresh => exact good_claim h hroom hfresh
  | release hlog => exact good_release h hlog

/-- The invariant holds in every reachable state. -/
theorem reachable_good (h : Reachable (Step c cap) Initial s) : Good c cap s :=
  h.invariant (fun _ hinit => hinit ▸ good_init) fun _ _ _ hgood hs => good_step hgood hs

end Invariant

end Registry
