import Mathlib.Logic.Function.Basic
import MiniMask.Lib.Transition

/-!
# Concurrent saves through one temporary file

A program keeps a document in memory. A call changes it and then saves a copy of
what it has set, without holding a lock: it opens the temporary file, which
truncates it, writes the text at its own offset, and renames the file over the
main one. All calls use the same temporary name, and a rename moves whatever file
has that name.

If a call opens the temporary file only while no other call has it open, the main
file is always complete and no rename fails (`tidy_step`). Otherwise two calls
have it open, and from then on the calls cannot all finish without one of their
renames failing (`crowded_step`).
-/

namespace SharedTemp

variable {ι α : Type} [DecidableEq ι]

/-! ## Files and calls -/

abbrev Inode := Nat

/-- The file of each of the two names, and the contents of all files. A file that
has no name any more can still be written to by who has it open. -/
structure Disk where
  main : Inode
  tmp : Option Inode
  content : Inode → List UInt8
  next : Inode

/-- Write `bytes` at an offset; a gap is filled with zeros. -/
def overwrite (old : List UInt8) (off : Nat) (bytes : List UInt8) : List UInt8 :=
  old.take off ++ List.replicate (off - old.length) 0 ++ bytes ++ old.drop (off + bytes.length)

/-- Where a call stands: before it has set its document, after it has failed to make
one, before it opens the temporary file, with `off` bytes written to the file it
opened, and at the end. -/
inductive Call (α : Type)
  | idle
  | refused
  | opening (a : α)
  | writing (a : α) (fd : Inode) (off : Nat)
  | saved
  | failed

/-- The call has the temporary file open. -/
def Call.InFlight : Call α → Prop
  | .writing _ _ _ => True
  | _ => False

/-- The call has set its document and has not returned. -/
def Call.InProgress : Call α → Prop
  | .opening _ => True
  | .writing _ _ _ => True
  | _ => False

/-- The document that the call has still to save. -/
def Call.doc : Call α → Option α
  | .opening a => some a
  | .writing a _ _ => some a
  | _ => none

/-- The document in memory, the files, the calls, and all documents there have been
in memory. -/
structure State (ι α : Type) where
  mem : α
  disk : Disk
  calls : ι → Call α
  history : List α

inductive Event (ι α : Type)
  | set (i : ι) (a : α)
  | giveUp (i : ι)
  | open (i : ι)
  | write (i : ι) (n : Nat)
  | rename (i : ι)

def State.setCall (s : State ι α) (i : ι) (c : Call α) : State ι α :=
  { s with calls := Function.update s.calls i c }

def Disk.setContent (d : Disk) (fd : Inode) (bytes : List UInt8) : Disk :=
  { d with content := Function.update d.content fd bytes }

inductive Step (encode : α → List UInt8) : State ι α → Event ι α → State ι α → Prop
  | set {s : State ι α} {i : ι} {a : α} :
      s.calls i = .idle →
      Step encode s (.set i a)
        { s.setCall i (.opening a) with mem := a, history := a :: s.history }
  | giveUp {s : State ι α} {i : ι} :
      s.calls i = .idle → Step encode s (.giveUp i) (s.setCall i .refused)
  | openTemp {s : State ι α} {i : ι} {a : α} {fd : Inode} :
      s.calls i = .opening a → s.disk.tmp = some fd →
      Step encode s (.open i)
        { s.setCall i (.writing a fd 0) with disk := s.disk.setContent fd [] }
  | createTemp {s : State ι α} {i : ι} {a : α} :
      s.calls i = .opening a → s.disk.tmp = none →
      Step encode s (.open i)
        { s.setCall i (.writing a s.disk.next 0) with
          disk := { s.disk.setContent s.disk.next [] with
            tmp := some s.disk.next
            next := s.disk.next + 1 } }
  | write {s : State ι α} {i : ι} {a : α} {fd : Inode} {off n : Nat} :
      s.calls i = .writing a fd off → 0 < n → off + n ≤ (encode a).length →
      Step encode s (.write i n)
        { s.setCall i (.writing a fd (off + n)) with
          disk := s.disk.setContent fd
            (overwrite (s.disk.content fd) off (((encode a).drop off).take n)) }
  | rename {s : State ι α} {i : ι} {a : α} {fd fd' : Inode} :
      s.calls i = .writing a fd (encode a).length → s.disk.tmp = some fd' →
      Step encode s (.rename i)
        { s.setCall i .saved with disk := { s.disk with main := fd', tmp := none } }
  | renameFails {s : State ι α} {i : ι} {a : α} {fd : Inode} :
      s.calls i = .writing a fd (encode a).length → s.disk.tmp = none →
      Step encode s (.rename i) (s.setCall i .failed)

/-- No call is between setting its document and its return. -/
def State.Quiet (s : State ι α) : Prop := ∀ i, ¬ (s.calls i).InProgress

/-- The main file is complete, with a document that has been in memory; no rename
has failed; and with no call in progress the file has what is in memory. -/
structure Sound (encode : α → List UInt8) (s : State ι α) : Prop where
  complete : ∃ a ∈ s.history, s.disk.content s.disk.main = encode a
  succeeded : ∀ i, s.calls i ≠ .failed
  settled : s.Quiet → s.disk.content s.disk.main = encode s.mem

/-- The temporary file is opened only while no other call has it open. -/
def Exclusive (s : State ι α) : Event ι α → Prop
  | .open i => ∀ j, j ≠ i → ¬ (s.calls j).InFlight
  | _ => True

/-- A call that renames while no other one is in progress saves what is in memory. -/
def Settling (s : State ι α) : Event ι α → Prop
  | .rename i => (∀ j, j ≠ i → ¬ (s.calls j).InProgress) → (s.calls i).doc = some s.mem
  | _ => True

/-! ## The text of one writer -/

/-- A writer that is alone extends what it has written. -/
theorem overwrite_take {text : List UInt8} {off : Nat} (h : off ≤ text.length) (n : Nat) :
    overwrite (text.take off) off ((text.drop off).take n) = text.take (off + n) := by
  have hlen : (text.take off).length = off := by simp [h]
  have hdrop : (text.take off).drop (off + ((text.drop off).take n).length) = [] :=
    List.drop_eq_nil_of_le (by omega)
  rw [overwrite, hdrop, hlen, List.take_take, Nat.min_self, Nat.sub_self, List.take_add]
  simp

/-! ## Opening one at a time -/

/-- What a call that is not disturbed has reached: its document has been in memory,
and the file it has open has the temporary name and what it has written so far. -/
def Call.Fine (encode : α → List UInt8) (disk : Disk) (history : List α) : Call α → Prop
  | .opening a => a ∈ history
  | .writing a fd off =>
    a ∈ history ∧ disk.tmp = some fd ∧ off ≤ (encode a).length ∧
      disk.content fd = (encode a).take off
  | .failed => False
  | _ => True

/-- The main file is complete, and at most one call has a file open. -/
structure Tidy (encode : α → List UInt8) (s : State ι α) : Prop where
  current : s.mem ∈ s.history
  complete : ∃ a ∈ s.history, s.disk.content s.disk.main = encode a
  fine : ∀ i, (s.calls i).Fine encode s.disk s.history
  alone : ∀ i j, (s.calls i).InFlight → (s.calls j).InFlight → i = j
  apart : ∀ fd, s.disk.tmp = some fd → fd ≠ s.disk.main
  bound : s.disk.main < s.disk.next ∧ ∀ fd, s.disk.tmp = some fd → fd < s.disk.next

section Tidy

variable {encode : α → List UInt8} {s t : State ι α} {e : Event ι α} {i : ι} {c : Call α}
  {disk disk' : Disk} {history history' : List α}

omit [DecidableEq ι] in
/-- A call that has no file open does not depend on the files. -/
theorem Call.Fine.of_not_inFlight (h : c.Fine encode disk history) (hc : ¬ c.InFlight)
    (hsub : history ⊆ history') : c.Fine encode disk' history' := by
  cases c with
  | idle => trivial
  | refused => trivial
  | opening a => exact hsub h
  | writing a fd off => exact absurd trivial hc
  | saved => trivial
  | failed => exact h

theorem Call.Fine.mono (h : c.Fine encode disk history) (hsub : history ⊆ history') :
    c.Fine encode disk history' := by
  cases c with
  | idle => trivial
  | refused => trivial
  | opening a => exact hsub h
  | writing a fd off => exact ⟨hsub h.1, h.2⟩
  | saved => trivial
  | failed => exact h

theorem calls_setCall (s : State ι α) (i : ι) (c : Call α) (j : ι) :
    (s.setCall i c).calls j = if j = i then c else s.calls j :=
  Function.update_apply s.calls i c j

theorem content_setContent (d : Disk) (fd : Inode) (bytes : List UInt8) (fd' : Inode) :
    (d.setContent fd bytes).content fd' = if fd' = fd then bytes else d.content fd' :=
  Function.update_apply d.content fd bytes fd'

omit [DecidableEq ι] in
theorem Tidy.others (h : Tidy encode s) (hi : (s.calls i).InFlight) :
    ∀ j, j ≠ i → ¬ (s.calls j).InFlight :=
  fun j hne hj => hne (h.alone j i hj hi)

/-- A step of the one call that may have a file open. -/
theorem Tidy.turn (h : Tidy encode s) (hothers : ∀ j, j ≠ i → ¬ (s.calls j).InFlight)
    (hfine : c.Fine encode disk s.history)
    (hcomplete : ∃ a ∈ s.history, disk.content disk.main = encode a)
    (hapart : ∀ fd, disk.tmp = some fd → fd ≠ disk.main)
    (hbound : disk.main < disk.next ∧ ∀ fd, disk.tmp = some fd → fd < disk.next) :
    Tidy encode { s.setCall i c with disk } := by
  refine ⟨h.current, hcomplete, fun j => ?_, fun j k hj hk => ?_, hapart, hbound⟩
  · show ((s.setCall i c).calls j).Fine encode disk s.history
    rw [calls_setCall]
    split
    · exact hfine
    · next hne => exact (h.fine j).of_not_inFlight (hothers j hne) fun _ => id
  · have hown : ∀ k, ((s.setCall i c).calls k).InFlight → k = i := by
      intro k hk
      rw [calls_setCall] at hk
      split at hk
      · assumption
      · next hne => exact absurd hk (hothers k hne)
    exact (hown j hj).trans (hown k hk).symm

/-- A call that has no file open stays without one. -/
theorem inFlight_setCall (hc : ¬ c.InFlight) {j : ι} (h : ((s.setCall i c).calls j).InFlight) :
    (s.calls j).InFlight := by
  rw [calls_setCall] at h
  split at h
  · exact absurd h hc
  · exact h

theorem tidy_giveUp (h : Tidy encode s) : Tidy encode (s.setCall i .refused) := by
  refine ⟨h.current, h.complete, fun j => ?_, fun j k hj hk => ?_, h.apart, h.bound⟩
  · show ((s.setCall i .refused).calls j).Fine encode s.disk s.history
    rw [calls_setCall]
    split
    · trivial
    · exact h.fine j
  · exact h.alone j k (inFlight_setCall id hj) (inFlight_setCall id hk)

theorem tidy_set {a : α} (h : Tidy encode s) :
    Tidy encode { s.setCall i (.opening a) with mem := a, history := a :: s.history } := by
  have hsub : s.history ⊆ a :: s.history := List.subset_cons_self a s.history
  refine ⟨List.mem_cons_self, ?_, fun j => ?_, fun j k hj hk => ?_, h.apart, h.bound⟩
  · obtain ⟨b, hb, hcontent⟩ := h.complete
    exact ⟨b, hsub hb, hcontent⟩
  · show ((s.setCall i (.opening a)).calls j).Fine encode s.disk (a :: s.history)
    rw [calls_setCall]
    split
    · exact List.mem_cons_self
    · exact (h.fine j).mono hsub
  · exact h.alone j k (inFlight_setCall id hj) (inFlight_setCall id hk)

omit [DecidableEq ι] in
/-- The main file is another one than the temporary file, so a write leaves it alone. -/
theorem Tidy.complete_setContent (h : Tidy encode s) {fd : Inode} (hne : fd ≠ s.disk.main)
    (bytes : List UInt8) :
    ∃ a ∈ s.history, (s.disk.setContent fd bytes).content s.disk.main = encode a := by
  obtain ⟨a, ha, hcontent⟩ := h.complete
  refine ⟨a, ha, ?_⟩
  rw [content_setContent, if_neg hne.symm, hcontent]

/-- Every step keeps the main file complete, where the temporary file is opened by
one call at a time. -/
theorem tidy_step (h : Tidy encode s) (hexclusive : Exclusive s e) (hs : Step encode s e t) :
    Tidy encode t := by
  cases hs with
  | set hidle => exact tidy_set h
  | giveUp hidle => exact tidy_giveUp h
  | @openTemp i a fd hcall htmp =>
    have ha := h.fine i
    rw [hcall] at ha
    have hown : (s.disk.setContent fd []).content fd = (encode a).take 0 := by
      simp [content_setContent]
    exact h.turn hexclusive ⟨ha, htmp, Nat.zero_le _, hown⟩
      (h.complete_setContent (h.apart fd htmp) []) h.apart h.bound
  | @createTemp i a hcall htmp =>
    have ha := h.fine i
    rw [hcall] at ha
    have hne : s.disk.next ≠ s.disk.main := Nat.ne_of_gt h.bound.1
    have hown : (s.disk.setContent s.disk.next []).content s.disk.next = (encode a).take 0 := by
      simp [content_setContent]
    refine h.turn hexclusive ⟨ha, rfl, Nat.zero_le _, hown⟩ (h.complete_setContent hne [])
      (fun fd hfd => ?_) ⟨Nat.lt_succ_of_lt h.bound.1, fun fd hfd => ?_⟩
    · cases hfd
      exact hne
    · cases hfd
      exact Nat.lt_succ_self _
  | @write i a fd off n hcall hpos hle =>
    have hi : (s.calls i).InFlight := by rw [hcall]; trivial
    have hfine := h.fine i
    rw [hcall] at hfine
    obtain ⟨ha, htmp, hoff, hcontent⟩ := hfine
    refine h.turn (h.others hi) ⟨ha, htmp, hle, ?_⟩
      (h.complete_setContent (h.apart fd htmp) _) h.apart h.bound
    rw [content_setContent, if_pos rfl, hcontent, overwrite_take hoff]
  | @rename i a fd fd' hcall htmp =>
    have hi : (s.calls i).InFlight := by rw [hcall]; trivial
    have hfine := h.fine i
    rw [hcall] at hfine
    obtain ⟨ha, htmp', _, hcontent⟩ := hfine
    cases htmp.symm.trans htmp'
    refine h.turn (h.others hi) trivial ⟨a, ha, ?_⟩ nofun ⟨h.bound.2 fd htmp, nofun⟩
    rw [hcontent, List.take_length]
  | @renameFails i a fd hcall htmp =>
    have hfine := h.fine i
    rw [hcall] at hfine
    cases htmp.symm.trans hfine.2.1

theorem quiet_calls (hcalls : t.calls = (s.setCall i c).calls) (hquiet : t.Quiet) :
    ¬ c.InProgress ∧ ∀ j, j ≠ i → ¬ (s.calls j).InProgress := by
  have hcall : ∀ j, t.calls j = if j = i then c else s.calls j := fun j => by
    rw [hcalls, calls_setCall]
  refine ⟨?_, fun j hne => ?_⟩
  · have hi := hquiet i
    rwa [hcall, if_pos rfl] at hi
  · have hj := hquiet j
    rwa [hcall, if_neg hne] at hj

/-- The file has what is in memory whenever no call is in progress. -/
theorem settled_step (h : Tidy encode s) (hsettling : Settling s e) (hs : Step encode s e t)
    (hsettled : s.Quiet → s.disk.content s.disk.main = encode s.mem) :
    t.Quiet → t.disk.content t.disk.main = encode t.mem := by
  intro hquiet
  cases hs with
  | set hidle => exact absurd trivial (quiet_calls rfl hquiet).1
  | @giveUp i hidle =>
    refine hsettled fun j hj => ?_
    have hne : j ≠ i := fun heq => by rw [heq, hidle] at hj; exact hj
    exact (quiet_calls rfl hquiet).2 j hne hj
  | openTemp hcall htmp => exact absurd trivial (quiet_calls rfl hquiet).1
  | createTemp hcall htmp => exact absurd trivial (quiet_calls rfl hquiet).1
  | write hcall hpos hle => exact absurd trivial (quiet_calls rfl hquiet).1
  | @rename i a fd fd' hcall htmp =>
    have hdoc := hsettling (quiet_calls rfl hquiet).2
    have hfine := h.fine i
    rw [hcall] at hdoc hfine
    obtain ⟨_, htmp', _, hcontent⟩ := hfine
    cases htmp.symm.trans htmp'
    cases hdoc
    rw [List.take_length] at hcontent
    exact hcontent
  | @renameFails i a fd hcall htmp =>
    have hfine := h.fine i
    rw [hcall] at hfine
    cases htmp.symm.trans hfine.2.1

/-- Conversely, where the file has what is in memory after the last rename, that
rename was one of the document in memory. -/
theorem settling_of_settled (h : Tidy encode s)
    (injective : ∀ a ∈ s.history, ∀ b ∈ s.history, encode a = encode b → a = b)
    (hs : Step encode s e t)
    (hsettled : t.Quiet → t.disk.content t.disk.main = encode t.mem) : Settling s e := by
  cases hs with
  | @rename i a fd fd' hcall htmp =>
    intro hothers
    have hfine := h.fine i
    rw [hcall] at hfine ⊢
    obtain ⟨ha, htmp', _, hcontent⟩ := hfine
    cases htmp.symm.trans htmp'
    have hquiet : State.Quiet { s.setCall i .saved with
        disk := { s.disk with main := fd, tmp := none } } := by
      intro j hj
      rw [show State.calls _ j = _ from calls_setCall s i .saved j] at hj
      split at hj
      · exact hj
      · next hne => exact hothers j hne hj
    have heq := (hcontent.symm.trans (hsettled hquiet))
    rw [List.take_length] at heq
    exact congrArg some (injective a ha s.mem h.current heq)
  | @renameFails i a fd hcall htmp =>
    have hfine := h.fine i
    rw [hcall] at hfine
    cases htmp.symm.trans hfine.2.1
  | set hidle => trivial
  | giveUp hidle => trivial
  | openTemp hcall htmp => trivial
  | createTemp hcall htmp => trivial
  | write hcall hpos hle => trivial

end Tidy

/-! ## Two calls with the file open -/

/-- Two calls have a file open, or one has while no file has the temporary name. -/
def Crowded (s : State ι α) : Prop :=
  (∃ i j, i ≠ j ∧ (s.calls i).InFlight ∧ (s.calls j).InFlight) ∨
    s.disk.tmp = none ∧ ∃ i, (s.calls i).InFlight

section Crowded

variable {encode : α → List UInt8} {s t : State ι α} {e : Event ι α} {i j : ι} {c : Call α}

theorem inFlight_other (hne : j ≠ i) (hj : (s.calls j).InFlight) :
    ((s.setCall i c).calls j).InFlight := by
  rw [calls_setCall, if_neg hne]
  exact hj

theorem inFlight_self (hc : c.InFlight) : ((s.setCall i c).calls i).InFlight := by
  rw [calls_setCall, if_pos rfl]
  exact hc

/-- A call that opens the file while another one has it open crowds it. -/
theorem crowded_open (hs : Step encode s (.open i) t) (hj : (s.calls j).InFlight) (hne : j ≠ i) :
    Crowded t := by
  cases hs with
  | openTemp hcall htmp => exact .inl ⟨j, i, hne, inFlight_other hne hj, inFlight_self trivial⟩
  | createTemp hcall htmp => exact .inl ⟨j, i, hne, inFlight_other hne hj, inFlight_self trivial⟩

/-- A call with a file open keeps it open until it renames. -/
theorem inFlight_step (hs : Step encode s e t) (hj : (s.calls j).InFlight)
    (hne : e ≠ .rename j) : (t.calls j).InFlight := by
  have keep : ∀ {i : ι} {c : Call α}, (j = i → c.InFlight) →
      ((s.setCall i c).calls j).InFlight := by
    intro i c hc
    rw [calls_setCall]
    split
    · next heq => exact hc heq
    · exact hj
  cases hs with
  | set hidle => exact keep fun heq => by rw [heq, hidle] at hj; exact hj.elim
  | giveUp hidle => exact keep fun heq => by rw [heq, hidle] at hj; exact hj.elim
  | openTemp hcall htmp => exact keep fun _ => trivial
  | createTemp hcall htmp => exact keep fun _ => trivial
  | write hcall hpos hle => exact keep fun _ => trivial
  | rename hcall htmp => exact keep fun heq => absurd (heq ▸ rfl) hne
  | renameFails hcall htmp => exact keep fun heq => absurd (heq ▸ rfl) hne

/-- A rename that does not fail takes the temporary name away. -/
theorem tmp_rename (hs : Step encode s (.rename i) t) (hok : t.calls i ≠ .failed) :
    s.disk.tmp ≠ none ∧ t.disk.tmp = none := by
  cases hs with
  | rename hcall htmp => exact ⟨by simp [htmp], rfl⟩
  | renameFails hcall htmp => exact absurd (by rw [calls_setCall, if_pos rfl]) hok

/-- From a crowded state only a failing rename leads out. -/
theorem crowded_step (h : Crowded s) (hs : Step encode s e t) (hok : ∀ i, t.calls i ≠ .failed) :
    Crowded t := by
  rcases h with ⟨i, j, hne, hi, hj⟩ | ⟨htmp, j, hj⟩
  · by_cases hrename : ∃ k, e = .rename k
    · obtain ⟨k, rfl⟩ := hrename
      -- the other one of the two is left without a name for its file
      refine .inr ⟨(tmp_rename hs (hok k)).2, ?_⟩
      by_cases hki : k = i
      · exact ⟨j, inFlight_step hs hj fun heq => by cases heq; exact hne hki.symm⟩
      · exact ⟨i, inFlight_step hs hi fun heq => by cases heq; exact hki rfl⟩
    · exact .inl ⟨i, j, hne, inFlight_step hs hi fun heq => hrename ⟨i, heq⟩,
        inFlight_step hs hj fun heq => hrename ⟨j, heq⟩⟩
  · cases e with
    | «open» i =>
      refine crowded_open hs hj fun heq => ?_
      cases hs with
      | openTemp hcall htmp' => rw [heq, hcall] at hj; exact hj
      | createTemp hcall htmp' => rw [heq, hcall] at hj; exact hj
    | rename i => exact absurd htmp (tmp_rename hs (hok i)).1
    | set i a =>
      refine .inr ⟨?_, j, inFlight_step hs hj nofun⟩
      cases hs
      exact htmp
    | giveUp i =>
      refine .inr ⟨?_, j, inFlight_step hs hj nofun⟩
      cases hs
      exact htmp
    | write i n =>
      refine .inr ⟨?_, j, inFlight_step hs hj nofun⟩
      cases hs
      exact htmp

omit [DecidableEq ι] in
/-- With no call in progress nothing is crowded. -/
theorem not_crowded_of_quiet (h : s.Quiet) : ¬ Crowded s := by
  have hnone : ∀ i, ¬ (s.calls i).InFlight := by
    intro i hi
    refine h i ?_
    cases hcall : s.calls i <;> rw [hcall] at hi <;> trivial
  rintro (⟨i, _, _, hi, _⟩ | ⟨_, i, hi⟩)
  · exact hnone i hi
  · exact hnone i hi

end Crowded

/-! ## Runs

The steps may be those of a program whose events `lower` to the events here. -/

section Runs

variable {encode : α → List UInt8} {ε : Type} {lower : State ι α → ε → Event ι α}
  {step : State ι α → ε → State ι α → Prop} {s₀ s t : State ι α} {e' : Event ι α}
  {tr : List (State ι α × ε × State ι α)}

/-- Tidy, and the file has what is in memory whenever no call is in progress. -/
def Orderly (encode : α → List UInt8) (s : State ι α) : Prop :=
  Tidy encode s ∧ (s.Quiet → s.disk.content s.disk.main = encode s.mem)

/-- The steps that open one at a time and settle. -/
def Ordered (s : State ι α) (e : Event ι α) : Prop := Exclusive s e ∧ Settling s e

omit [DecidableEq ι] in
theorem Orderly.sound (h : Orderly encode s) : Sound encode s := by
  refine ⟨h.1.complete, fun i hfailed => ?_, h.2⟩
  have hfine := h.1.fine i
  rw [hfailed] at hfine
  exact hfine

/-- A run whose steps open one at a time and settle is orderly throughout. -/
theorem orderly_run (hlower : ∀ s e t, step s e t → Step encode s (lower s e) t)
    (run : Lts.Run step s₀ tr s) (start : Orderly encode s₀)
    (ordered : ∀ x ∈ tr, Ordered x.1 (lower x.1 x.2.1)) : ∀ x ∈ tr, Orderly encode x.2.2 := by
  let ok : State ι α → ε → Prop := fun s e => Ordered s (lower s e)
  have hrun : Lts.Run (Lts.Guarded step ok) s₀ tr s := run.guarded ordered
  have keep : ∀ s e t, Orderly encode s → Lts.Guarded step ok s e t → Orderly encode t := by
    rintro s e t ⟨htidy, hsettled⟩ ⟨hs, hexclusive, hsettling⟩
    have hs' := hlower _ _ _ hs
    exact ⟨tidy_step htidy hexclusive hs', settled_step htidy hsettling hs' hsettled⟩
  exact hrun.forall_states keep start

/-- Once two calls have the file open, the run stays crowded as long as no rename
fails. -/
theorem crowded_run (hlower : ∀ s e t, step s e t → Step encode s (lower s e) t)
    (run : Lts.Run step s₀ tr s) (sound : ∀ x ∈ tr, Sound encode x.2.2)
    (hshared : ∃ x ∈ tr, ¬ Exclusive x.1 (lower x.1 x.2.1)) : Crowded s := by
  induction run with
  | nil => simp at hshared
  | @snoc tr s t e _ hs ih =>
    have hs' := hlower _ _ _ hs
    obtain ⟨x, hx, hshared⟩ := hshared
    rcases List.mem_append.mp hx with hx | hx
    · have hcrowded := ih (fun y hy => sound y (List.mem_append_left _ hy)) ⟨x, hx, hshared⟩
      exact crowded_step hcrowded hs' (sound (s, e, t) (by simp)).succeeded
    · cases List.mem_singleton.mp hx
      cases hlast : lower s e with
      | «open» i =>
        simp only [hlast, Exclusive, not_forall, not_not] at hshared
        obtain ⟨j, hne, hj⟩ := hshared
        exact crowded_open (hlast ▸ hs') hj hne
      | set i a => simp [hlast, Exclusive] at hshared
      | giveUp i => simp [hlast, Exclusive] at hshared
      | write i n => simp [hlast, Exclusive] at hshared
      | rename i => simp [hlast, Exclusive] at hshared

theorem history_step (hs : Step encode s e' t) : s.history ⊆ t.history := by
  cases hs with
  | set hidle => exact List.subset_cons_self _ _
  | giveUp hidle => exact List.Subset.refl _
  | openTemp hcall htmp => exact List.Subset.refl _
  | createTemp hcall htmp => exact List.Subset.refl _
  | write hcall hpos hle => exact List.Subset.refl _
  | rename hcall htmp => exact List.Subset.refl _
  | renameFails hcall htmp => exact List.Subset.refl _

/-- The documents of every state are among those of the last. -/
theorem history_run (hlower : ∀ s e t, step s e t → Step encode s (lower s e) t)
    (run : Lts.Run step s₀ tr s) :
    ∀ x ∈ tr, x.1.history ⊆ x.2.2.history ∧ x.2.2.history ⊆ s.history := by
  induction run with
  | nil => simp
  | @snoc tr s t e _ hs ih =>
    have hsub : s.history ⊆ t.history := history_step (hlower _ _ _ hs)
    intro x hx
    rcases List.mem_append.mp hx with hx | hx
    · exact ⟨(ih x hx).1, List.Subset.trans (ih x hx).2 hsub⟩
    · cases List.mem_singleton.mp hx
      exact ⟨hsub, List.Subset.refl _⟩

/-- A run that is sound throughout and ends with no call in progress opened one at a
time and settled. -/
theorem ordered_run (hlower : ∀ s e t, step s e t → Step encode s (lower s e) t)
    (run : Lts.Run step s₀ tr s) (start : Tidy encode s₀) (quiet : s.Quiet)
    (injective : ∀ a ∈ s.history, ∀ b ∈ s.history, encode a = encode b → a = b)
    (sound : ∀ x ∈ tr, Sound encode x.2.2) : ∀ x ∈ tr, Ordered x.1 (lower x.1 x.2.1) := by
  have hexclusive : ∀ x ∈ tr, Exclusive x.1 (lower x.1 x.2.1) := fun x hx => by
    by_contra hshared
    exact not_crowded_of_quiet quiet (crowded_run hlower run sound ⟨x, hx, hshared⟩)
  let ok : State ι α → ε → Prop := fun s e => Exclusive s (lower s e)
  have hrun : Lts.Run (Lts.Guarded step ok) s₀ tr s := run.guarded hexclusive
  have keep : ∀ s e t, Tidy encode s → Lts.Guarded step ok s e t →
      Tidy encode t ∧ Tidy encode s ∧ step s e t := by
    rintro s e t htidy ⟨hs, hexclusive⟩
    exact ⟨tidy_step htidy hexclusive (hlower _ _ _ hs), htidy, hs⟩
  intro x hx
  obtain ⟨htidy, hs⟩ := hrun.forall_steps keep start x hx
  obtain ⟨hsub, hsub'⟩ := history_run hlower run x hx
  have hmem : x.1.history ⊆ s.history := List.Subset.trans hsub hsub'
  refine ⟨hexclusive x hx, settling_of_settled htidy (fun a ha b hb => ?_) (hlower _ _ _ hs)
    (sound x hx).settled⟩
  exact injective a (hmem ha) b (hmem hb)

end Runs

end SharedTemp
