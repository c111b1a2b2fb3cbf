import Mathlib.Data.List.Nodup

/-!
# Lists as finite maps that keep their order

A list of records whose keys are distinct is a finite map from keys to records
that also remembers an order. `get` looks a key up, `put` replaces the record of
a key where it stands, `erase` takes it out. All three speak of every record with
the key; where keys are distinct there is at most one (`get_iff`), so that what
is done to all of them is done to the one that is found (`put_eq_map`).
-/

namespace Keyed

variable {α κ : Type} [DecidableEq κ] (key : α → κ)

def get (k : κ) (l : List α) : Option α := l.find? fun a => key a = k

/-- Put `a` in the place of the record of `k`. -/
def put (k : κ) (a : α) (l : List α) : List α := l.map fun b => if key b = k then a else b

def erase (k : κ) (l : List α) : List α := l.filter fun b => !decide (key b = k)

/-- The keys are distinct. -/
def Distinct (l : List α) : Prop := (l.map key).Nodup

variable {key} {k : κ} {a : α} {l : List α}

/-! ## Lookups -/

theorem get_mem (h : get key k l = some a) : a ∈ l ∧ key a = k :=
  ⟨List.mem_of_find?_eq_some h, by simpa using List.find?_some h⟩

theorem get_eq_none : get key k l = none ↔ ∀ a ∈ l, key a ≠ k := by
  simp [get]

theorem get_iff (hl : Distinct key l) : get key k l = some a ↔ a ∈ l ∧ key a = k := by
  constructor
  · exact get_mem
  · rintro ⟨ha, rfl⟩
    cases hget : get key (key a) l with
    | none => exact absurd rfl (get_eq_none.mp hget a ha)
    | some b =>
      obtain ⟨hb, hkey⟩ := get_mem hget
      rw [List.inj_on_of_nodup_map hl hb ha hkey]

/-! ## Replacing and erasing a record -/

theorem put_of_absent (h : get key k l = none) (a : α) : put key k a l = l := by
  have hsame : ∀ b ∈ l, (if key b = k then a else b) = id b := fun b hb =>
    if_neg (get_eq_none.mp h b hb)
  exact (List.map_congr_left hsame).trans (List.map_id l)

theorem erase_of_absent (h : get key k l = none) : erase key k l = l :=
  List.filter_eq_self.mpr fun b hb => by simpa using get_eq_none.mp h b hb

theorem length_erase_eq_iff : (erase key k l).length = l.length ↔ get key k l = none := by
  constructor
  · intro h
    have hself : erase key k l = l := List.filter_sublist.eq_of_length h
    refine get_eq_none.mpr fun a ha => ?_
    rw [← hself] at ha
    simpa using (List.mem_filter.mp ha).2
  · exact fun h => congrArg List.length (erase_of_absent h)

/-- What changes nothing but the records of `k` replaces the one that is found. -/
theorem put_eq_map {f : α → α} (hl : Distinct key l) (h : get key k l = some a)
    (hf : ∀ b ∈ l, key b ≠ k → f b = b) : put key k (f a) l = l.map f := by
  refine List.map_congr_left fun b hb => ?_
  split
  · next hkey => rw [List.inj_on_of_nodup_map hl hb (get_mem h).1 (hkey.trans (get_mem h).2.symm)]
  · next hkey => rw [hf b hb hkey]

end Keyed
