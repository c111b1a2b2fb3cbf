import Mathlib.Order.Basic
import MiniMask.Lib.SharedTemp

/-!
# Saves whose caller can go away

A program keeps a document in memory, of which every change makes a later version. A call
takes a lock, changes the document and saves it before it lets go of the lock: a job on
another thread opens the temporary file and writes the text, and when the call has seen the
end of it a second job renames the file over the main one. The call may be dropped at any
point. That frees the lock, and the job that is running goes on without it.

Where a job opens the temporary file only while no other job is at work on it (`Apart`), the
main file is always the complete text of a version, and no call has answered for a later one
(`tidy_step`).
-/

namespace DetachedSaves

open SharedTemp (Disk Inode overwrite overwrite_take content_setContent)

variable {ι α : Type} [DecidableEq ι] [Preorder α]

/-! ## Calls and jobs -/

/-- How far a save is: no job yet; the write job before it has opened the file, and with `off`
bytes written; the rename job; and after it. -/
inductive Job
  | ready
  | queued
  | writing (fd : Inode) (off : Nat)
  | moving
  | moved
deriving DecidableEq, Repr

/-- A call with its document, its save, and whether it is still there. -/
inductive Call (α : Type)
  | idle
  | active (a : α) (job : Job) (live : Bool)
  | answered
  | failed

/-- There is a job, and it has not returned. -/
def Job.Running : Job → Prop
  | .queued | .writing _ _ | .moving => True
  | .ready | .moved => False

/-- The call has a job that is at work on the temporary file or is going to rename it. -/
def Call.Busy (encode : α → List UInt8) : Call α → Prop
  | .active a (.writing _ off) live => live = true ∨ off < (encode a).length
  | .active _ .moving _ => True
  | _ => False

/-- The call waits for its save. -/
def Call.Live (c : Call α) : Prop := ∃ a job, c = .active a job true

/-- The document in memory, who has the lock, the files, the calls, and what was in memory
each time a call answered. -/
structure State (ι α : Type) where
  mem : α
  lock : Option ι
  disk : Disk
  calls : ι → Call α
  acked : List α

inductive Event (ι α : Type)
  | begin (i : ι) (a : α)
  | queue (i : ι)
  | open (i : ι)
  | write (i : ι) (n : Nat)
  | move (i : ι)
  | rename (i : ι)
  | fail (i : ι)
  | answer (i : ι)
  | drop (i : ι)

def State.setCall (s : State ι α) (i : ι) (c : Call α) : State ι α :=
  { s with calls := Function.update s.calls i c }

/-- Open the temporary file, which truncates it, or create it. -/
def openTemp (d : Disk) : Disk × Inode :=
  match d.tmp with
  | some fd => (d.setContent fd [], fd)
  | none => ({ d.setContent d.next [] with tmp := some d.next, next := d.next + 1 }, d.next)

inductive Step (encode : α → List UInt8) (s : State ι α) : Event ι α → State ι α → Prop
  | begin {i : ι} {a : α} :
      s.calls i = .idle → s.lock = none → s.mem ≤ a →
      Step encode s (.begin i a)
        { s.setCall i (.active a .ready true) with mem := a, lock := some i }
  | queue {i : ι} {a : α} :
      s.calls i = .active a .ready true →
      Step encode s (.queue i) (s.setCall i (.active a .queued true))
  | openTemp {i : ι} {a : α} {live : Bool} :
      s.calls i = .active a .queued live →
      Step encode s (.open i)
        { s.setCall i (.active a (.writing (openTemp s.disk).2 0) live) with
          disk := (openTemp s.disk).1 }
  | write {i : ι} {a : α} {live : Bool} {fd : Inode} {off n : Nat} :
      s.calls i = .active a (.writing fd off) live → 0 < n → off + n ≤ (encode a).length →
      Step encode s (.write i n)
        { s.setCall i (.active a (.writing fd (off + n)) live) with
          disk := s.disk.setContent fd
            (overwrite (s.disk.content fd) off (((encode a).drop off).take n)) }
  -- only a call that is still there starts the second job
  | move {i : ι} {a : α} {fd : Inode} :
      s.calls i = .active a (.writing fd (encode a).length) true →
      Step encode s (.move i) (s.setCall i (.active a .moving true))
  | rename {i : ι} {a : α} {live : Bool} {fd : Inode} :
      s.calls i = .active a .moving live → s.disk.tmp = some fd →
      Step encode s (.rename i)
        { s.setCall i (.active a .moved live) with
          disk := { s.disk with main := fd, tmp := none } }
  -- the job returns an error, which the call answers with if it is still there
  | fail {i : ι} {a : α} {job : Job} {live : Bool} :
      s.calls i = .active a job live → job.Running →
      Step encode s (.fail i) { s.setCall i .failed with lock := if live then none else s.lock }
  | answer {i : ι} {a : α} :
      s.calls i = .active a .moved true →
      Step encode s (.answer i)
        { s.setCall i .answered with lock := none, acked := s.mem :: s.acked }
  | drop {i : ι} {a : α} {job : Job} :
      s.calls i = .active a job true →
      Step encode s (.drop i) { s.setCall i (.active a job false) with lock := none }

/-- A job opens the temporary file only while no other one is at work on it. -/
def Apart (encode : α → List UInt8) (s : State ι α) : Event ι α → Prop
  | .open i => ∀ j, j ≠ i → ¬ (s.calls j).Busy encode
  | _ => True

/-! ## What is kept -/

/-- What a save that is not disturbed has reached. -/
def Job.Fine (encode : α → List UInt8) (s : State ι α) (a : α) (live : Bool) : Job → Prop
  | .writing fd off => off ≤ (encode a).length ∧ (live = true ∨ off < (encode a).length →
      s.disk.tmp = some fd ∧ s.disk.content fd = (encode a).take off)
  | .moving => (∃ fd, s.disk.tmp = some fd ∧ s.disk.content fd = encode a) ∧
      ∀ b ∈ s.acked, b ≤ a
  | .moved => live = true → s.disk.content s.disk.main = encode a ∧
      ∀ j b, s.calls j ≠ .active b .moving false
  | .ready | .queued => True

def Call.Fine (encode : α → List UInt8) (s : State ι α) (i : ι) : Call α → Prop
  | .active a job live =>
    a ≤ s.mem ∧ (live = true → s.lock = some i ∧ a = s.mem) ∧ job.Fine encode s a live
  | _ => True

/-- The main file has the text of a version, and no call has answered for a later one. -/
def Complete (encode : α → List UInt8) (s : State ι α) : Prop :=
  ∃ a, a ≤ s.mem ∧ s.disk.content s.disk.main = encode a ∧ ∀ b ∈ s.acked, b ≤ a

/-- The two names are of different files, which are not new. -/
structure Named (d : Disk) : Prop where
  apart : ∀ fd, d.tmp = some fd → fd ≠ d.main
  main_lt : d.main < d.next
  tmp_lt : ∀ fd, d.tmp = some fd → fd < d.next

structure Tidy (encode : α → List UInt8) (s : State ι α) : Prop where
  complete : Complete encode s
  fine : ∀ i, (s.calls i).Fine encode s i
  alone : ∀ i j, (s.calls i).Busy encode → (s.calls j).Busy encode → i = j
  named : Named s.disk

section Tidy

variable {encode : α → List UInt8} {s t : State ι α} {e : Event ι α} {i j : ι} {c : Call α}

omit [Preorder α] in
theorem calls_setCall (s : State ι α) (i : ι) (c : Call α) (j : ι) :
    (s.setCall i c).calls j = if j = i then c else s.calls j :=
  Function.update_apply s.calls i c j

omit [DecidableEq ι] in
/-- A call that a step is not about. -/
theorem Call.Fine.frame (h : c.Fine encode s j) (hmem : s.mem ≤ t.mem)
    (hlive : c.Live → t.lock = s.lock ∧ t.mem = s.mem) (hbusy : c.Busy encode → t.disk = s.disk)
    (hmoving : ∀ a live, c = .active a .moving live → t.acked = s.acked)
    (hmoved : ∀ a, c = .active a .moved true →
      t.disk.content t.disk.main = s.disk.content s.disk.main ∧
        ∀ k b, t.calls k ≠ .active b .moving false) : c.Fine encode t j := by
  cases c with
  | idle | answered | failed => trivial
  | active a job live =>
    obtain ⟨ha, hlock, hjob⟩ := h
    refine ⟨ha.trans hmem, fun hl => ?_, ?_⟩
    · obtain ⟨hlock', hmem'⟩ := hlive ⟨a, job, by rw [hl]⟩
      rw [hlock', hmem']
      exact hlock hl
    cases job with
    | ready | queued => trivial
    | writing fd off =>
      refine ⟨hjob.1, fun hb => ?_⟩
      rw [hbusy hb]
      exact hjob.2 hb
    | moving =>
      unfold Job.Fine
      rw [hbusy trivial, hmoving a live rfl]
      exact hjob
    | moved =>
      intro hl
      obtain ⟨hmain, hnone⟩ := hmoved a (by rw [hl])
      rw [hmain]
      exact ⟨(hjob hl).1, hnone⟩

omit [DecidableEq ι] in
/-- A call that is waited for has the lock. -/
theorem Tidy.locked (h : Tidy encode s) (hlive : (s.calls i).Live) : s.lock = some i := by
  obtain ⟨a, job, hcall⟩ := hlive
  have hfine := h.fine i
  rw [hcall] at hfine
  exact (hfine.2.1 rfl).1

omit [DecidableEq ι] in
/-- Nobody else waits while a call has the lock. -/
theorem Tidy.not_live (h : Tidy encode s) (hlive : (s.calls i).Live) (hne : j ≠ i) :
    ¬ (s.calls j).Live := by
  intro hlive'
  have hlock := (h.locked hlive').symm.trans (h.locked hlive)
  exact hne (Option.some.inj hlock)

omit [DecidableEq ι] in
/-- Only one job is at work. -/
theorem Tidy.others (h : Tidy encode s) (hi : (s.calls i).Busy encode) :
    ∀ j, j ≠ i → ¬ (s.calls j).Busy encode :=
  fun j hne hj => hne (h.alone j i hj hi)

/-- A step of one call, which leaves the others in order. -/
theorem Tidy.turn (h : Tidy encode s) (hcalls : t.calls = (s.setCall i c).calls)
    (hcomplete : Complete encode t) (hown : c.Fine encode t i)
    (hothers : ∀ j, j ≠ i → (s.calls j).Fine encode t j)
    (hbusy : c.Busy encode → ∀ j, j ≠ i → ¬ (s.calls j).Busy encode)
    (hnamed : Named t.disk) : Tidy encode t := by
  have hcall : ∀ j, t.calls j = if j = i then c else s.calls j := fun j => by
    rw [hcalls, calls_setCall]
  refine ⟨hcomplete, fun j => ?_, fun j k hj hk => ?_, hnamed⟩
  · rw [hcall]
    split
    · next heq => exact heq ▸ hown
    · next hne => exact hothers j hne
  · rw [hcall] at hj hk
    split at hj <;> split at hk
    · next hji hki => exact hji.trans hki.symm
    · next hki => exact absurd hk (hbusy hj k hki)
    · next hji _ => exact absurd hj (hbusy hk j hji)
    · exact h.alone j k hj hk

/-- A step that takes the lock or lets go of it, while no other call waits. -/
theorem Tidy.relock (h : Tidy encode s) (hcalls : t.calls = (s.setCall i c).calls)
    (hmem : s.mem ≤ t.mem) (hdisk : t.disk = s.disk)
    (hacked : ∀ j a live, j ≠ i → s.calls j = .active a .moving live → t.acked = s.acked)
    (hnone : ∀ j, j ≠ i → ¬ (s.calls j).Live) (hcomplete : Complete encode t)
    (hown : c.Fine encode t i) (hbusy : c.Busy encode → (s.calls i).Busy encode) :
    Tidy encode t := by
  refine h.turn hcalls hcomplete hown (fun j hne => ?_) (fun hb => h.others (hbusy hb))
    (hdisk ▸ h.named)
  refine (h.fine j).frame hmem (fun hlive => absurd hlive (hnone j hne)) (fun _ => hdisk)
    (fun a live => hacked j a live hne) fun a hcall => ?_
  exact absurd ⟨a, .moved, hcall⟩ (hnone j hne)

/-- A step of a save, which leaves the files alone that another job is at work on. -/
theorem Tidy.work {disk : Disk} (h : Tidy encode s)
    (hcomplete : Complete encode { s.setCall i c with disk })
    (hown : c.Fine encode { s.setCall i c with disk } i)
    (hdisk : disk = s.disk ∨ ∀ j, j ≠ i → ¬ (s.calls j).Busy encode)
    (hmain : ∀ j a, j ≠ i → s.calls j = .active a .moved true →
      disk.content disk.main = s.disk.content s.disk.main)
    (hbusy : c.Busy encode → ∀ j, j ≠ i → ¬ (s.calls j).Busy encode)
    (hc : ∀ b, c ≠ .active b .moving false) (hnamed : Named disk) :
    Tidy encode { s.setCall i c with disk } := by
  refine h.turn rfl hcomplete hown (fun j hne => ?_) hbusy hnamed
  refine (h.fine j).frame le_rfl (fun _ => ⟨rfl, rfl⟩)
    (fun hb => hdisk.resolve_right fun hnone => hnone j hne hb) (fun _ _ _ => rfl)
    fun a hcall => ⟨hmain j a hne hcall, fun k b hk => ?_⟩
  have hfine := h.fine j
  rw [hcall] at hfine
  rw [show State.calls _ k = _ from calls_setCall s i c k] at hk
  split at hk
  · exact hc b hk
  · exact (hfine.2.2 rfl).2 k b hk

/-! ## One lemma for each step -/

theorem tidy_begin {a : α} (h : Tidy encode s) (hlock : s.lock = none) (hle : s.mem ≤ a) :
    Tidy encode { s.setCall i (.active a .ready true) with mem := a, lock := some i } := by
  obtain ⟨b, hb, hcontent, hacked⟩ := h.complete
  refine h.relock rfl hle rfl (fun _ _ _ _ _ => rfl) (fun j _ hlive => ?_)
    ⟨b, hb.trans hle, hcontent, hacked⟩ ⟨le_rfl, fun _ => ⟨rfl, rfl⟩, trivial⟩ False.elim
  cases hlock.symm.trans (h.locked hlive)

theorem tidy_drop {a : α} {job : Job} (h : Tidy encode s)
    (hcall : s.calls i = .active a job true) :
    Tidy encode { s.setCall i (.active a job false) with lock := none } := by
  have hfine := h.fine i
  have hlive : (s.calls i).Live := ⟨a, job, hcall⟩
  rw [hcall] at hfine
  obtain ⟨ha, -, hjob⟩ := hfine
  refine h.relock rfl le_rfl rfl (fun _ _ _ _ _ => rfl) (fun j hne => h.not_live hlive hne)
    h.complete ⟨ha, fun hl => absurd hl Bool.false_ne_true, ?_⟩ ?_
  · cases job with
    | ready | queued => trivial
    | writing fd off => exact ⟨hjob.1, fun _ => hjob.2 (.inl rfl)⟩
    | moving => exact hjob
    | moved => exact fun hl => absurd hl Bool.false_ne_true
  · rw [hcall]
    intro hbusy
    cases job with
    | writing fd off => exact .inl rfl
    | moving => trivial
    | ready | queued | moved => exact hbusy

omit [DecidableEq ι] in
/-- The main file has the text of the document in memory when a call answers. -/
theorem Tidy.main_answer {a : α} (h : Tidy encode s) (hcall : s.calls i = .active a .moved true) :
    a = s.mem ∧ s.disk.content s.disk.main = encode a ∧
      ∀ j b, s.calls j ≠ .active b .moving false := by
  have hfine := h.fine i
  rw [hcall] at hfine
  obtain ⟨-, hlock, hjob⟩ := hfine
  exact ⟨(hlock rfl).2, hjob rfl⟩

theorem tidy_answer {a : α} (h : Tidy encode s) (hcall : s.calls i = .active a .moved true) :
    Tidy encode { s.setCall i .answered with lock := none, acked := s.mem :: s.acked } := by
  obtain ⟨heq, hmain, hnone⟩ := h.main_answer hcall
  have hlive : (s.calls i).Live := ⟨a, .moved, hcall⟩
  obtain ⟨b, hb, -, hacked⟩ := h.complete
  refine h.relock rfl le_rfl rfl (fun j b live hne hmoving => ?_)
    (fun j hne => h.not_live hlive hne) ⟨s.mem, le_rfl, heq ▸ hmain, ?_⟩ trivial False.elim
  · -- no other call renames later, dropped or not
    cases live with
    | true => exact absurd ⟨b, .moving, hmoving⟩ (h.not_live hlive hne)
    | false => exact absurd hmoving (hnone j b)
  · exact List.forall_mem_cons.mpr ⟨le_rfl, fun b' hb' => (hacked b' hb').trans hb⟩

theorem tidy_fail {a : α} {job : Job} {live : Bool} (h : Tidy encode s)
    (hcall : s.calls i = .active a job live) :
    Tidy encode { s.setCall i .failed with lock := if live then none else s.lock } := by
  cases live with
  | true =>
    exact h.relock rfl le_rfl rfl (fun _ _ _ _ _ => rfl)
      (fun j hne => h.not_live ⟨a, job, hcall⟩ hne) h.complete trivial False.elim
  | false =>
    exact h.work h.complete trivial (.inl rfl) (fun _ _ _ _ => rfl) False.elim nofun h.named

theorem tidy_queue {a : α} (h : Tidy encode s) (hcall : s.calls i = .active a .ready true) :
    Tidy encode (s.setCall i (.active a .queued true)) := by
  have hfine := h.fine i
  rw [hcall] at hfine
  exact h.work h.complete ⟨hfine.1, hfine.2.1, trivial⟩ (.inl rfl) (fun _ _ _ _ => rfl) False.elim
    nofun h.named

/-- The temporary file is there and empty, and the main one is as before. -/
theorem openTemp_spec {d : Disk} (h : Named d) :
    (openTemp d).1.tmp = some (openTemp d).2 ∧ (openTemp d).1.content (openTemp d).2 = [] ∧
      (openTemp d).1.content (openTemp d).1.main = d.content d.main ∧ Named (openTemp d).1 := by
  unfold openTemp
  split
  · next fd htmp =>
    refine ⟨htmp, ?_, ?_, h.apart, h.main_lt, h.tmp_lt⟩
    · simp [content_setContent]
    -- truncating the temporary file leaves the main one: they are two inodes
    · exact (content_setContent d fd [] d.main).trans (if_neg (h.apart fd htmp).symm)
  · have hne : d.next ≠ d.main := Nat.ne_of_gt h.main_lt
    refine ⟨rfl, ?_, ?_, fun fd hfd => ?_, Nat.lt_succ_of_lt h.main_lt, fun fd hfd => ?_⟩
    · simp [content_setContent]
    · exact (content_setContent d d.next [] d.main).trans (if_neg hne.symm)
    · cases hfd
      exact hne
    · cases hfd
      exact Nat.lt_succ_self _

theorem tidy_openTemp {a : α} {live : Bool} (h : Tidy encode s)
    (hcall : s.calls i = .active a .queued live)
    (hapart : ∀ j, j ≠ i → ¬ (s.calls j).Busy encode) :
    Tidy encode { s.setCall i (.active a (.writing (openTemp s.disk).2 0) live) with
      disk := (openTemp s.disk).1 } := by
  have hfine := h.fine i
  rw [hcall] at hfine
  obtain ⟨htmp, hempty, hmain, hnamed⟩ := openTemp_spec h.named
  obtain ⟨b, hb, hcontent, hacked⟩ := h.complete
  exact h.work ⟨b, hb, hmain.trans hcontent, hacked⟩
    ⟨hfine.1, hfine.2.1, Nat.zero_le _, fun _ => ⟨htmp, hempty⟩⟩ (.inr hapart)
    (fun _ _ _ _ => hmain) (fun _ => hapart) nofun hnamed

theorem tidy_write {a : α} {live : Bool} {fd : Inode} {off n : Nat} (h : Tidy encode s)
    (hcall : s.calls i = .active a (.writing fd off) live) (hpos : 0 < n)
    (hle : off + n ≤ (encode a).length) :
    Tidy encode { s.setCall i (.active a (.writing fd (off + n)) live) with
      disk := s.disk.setContent fd
        (overwrite (s.disk.content fd) off (((encode a).drop off).take n)) } := by
  have hlt : off < (encode a).length := Nat.lt_of_lt_of_le (Nat.lt_add_of_pos_right hpos) hle
  have hbusy : (s.calls i).Busy encode := by
    rw [hcall]
    exact .inr hlt
  have hfine := h.fine i
  rw [hcall] at hfine
  obtain ⟨ha, hlock, hoff, hreached⟩ := hfine
  obtain ⟨htmp, hcontent⟩ := hreached (.inr hlt)
  have hmain : ∀ bytes, (s.disk.setContent fd bytes).content s.disk.main =
      s.disk.content s.disk.main := fun bytes =>
    (content_setContent s.disk fd bytes s.disk.main).trans (if_neg (h.named.apart fd htmp).symm)
  obtain ⟨b, hb, hcomplete, hacked⟩ := h.complete
  refine h.work ⟨b, hb, (hmain _).trans hcomplete, hacked⟩
    ⟨ha, hlock, hle, fun _ => ⟨htmp, ?_⟩⟩ (.inr (h.others hbusy)) (fun _ _ _ _ => hmain _)
    (fun _ => h.others hbusy) nofun ⟨h.named.apart, h.named.main_lt, h.named.tmp_lt⟩
  -- what is written goes behind what was there
  rw [content_setContent, if_pos rfl, hcontent, overwrite_take hoff]

theorem tidy_move {a : α} {fd : Inode} (h : Tidy encode s)
    (hcall : s.calls i = .active a (.writing fd (encode a).length) true) :
    Tidy encode (s.setCall i (.active a .moving true)) := by
  have hbusy : (s.calls i).Busy encode := by
    rw [hcall]
    exact .inl rfl
  have hfine := h.fine i
  rw [hcall] at hfine
  obtain ⟨ha, hlock, -, hreached⟩ := hfine
  obtain ⟨htmp, hcontent⟩ := hreached (.inl rfl)
  rw [List.take_length] at hcontent
  obtain ⟨b, hb, -, hacked⟩ := h.complete
  -- its document is the one in memory, the last version of all
  have hlast : ∀ b' ∈ s.acked, b' ≤ a := fun b' hb' =>
    (hlock rfl).2 ▸ (hacked b' hb').trans hb
  exact h.work h.complete ⟨ha, hlock, ⟨fd, htmp, hcontent⟩, hlast⟩ (.inl rfl)
    (fun _ _ _ _ => rfl) (fun _ => h.others hbusy) nofun h.named

theorem tidy_rename {a : α} {live : Bool} {fd : Inode} (h : Tidy encode s)
    (hcall : s.calls i = .active a .moving live) (htmp : s.disk.tmp = some fd) :
    Tidy encode { s.setCall i (.active a .moved live) with
      disk := { s.disk with main := fd, tmp := none } } := by
  have hbusy : (s.calls i).Busy encode := by
    rw [hcall]
    trivial
  have hfine := h.fine i
  rw [hcall] at hfine
  obtain ⟨ha, hlock, ⟨fd', htmp', hcontent⟩, hacked⟩ := hfine
  cases htmp.symm.trans htmp'
  refine h.work ⟨a, ha, hcontent, hacked⟩ ⟨ha, hlock, fun _ => ⟨hcontent, fun k b hk => ?_⟩⟩
    (.inr (h.others hbusy)) (fun j b hne hmoved => ?_) False.elim nofun
    ⟨nofun, h.named.tmp_lt fd htmp, nofun⟩
  · rw [show State.calls _ k = _ from calls_setCall s i _ k] at hk
    split at hk
    · cases hk
    · next hne => exact h.others hbusy k hne (by rw [hk]; trivial)
  · -- a call that waits for its answer would have seen this one's job
    cases live with
    | true => exact absurd ⟨b, .moved, hmoved⟩ (h.not_live ⟨a, .moving, hcall⟩ hne)
    | false => exact absurd hcall ((h.main_answer hmoved).2.2 i a)

/-- Every step keeps the main file complete, where the temporary file is opened by one job at
a time. -/
theorem tidy_step (h : Tidy encode s) (hapart : Apart encode s e) (hs : Step encode s e t) :
    Tidy encode t := by
  cases hs with
  | begin hidle hlock hle => exact tidy_begin h hlock hle
  | queue hcall => exact tidy_queue h hcall
  | openTemp hcall => exact tidy_openTemp h hcall hapart
  | write hcall hpos hle => exact tidy_write h hcall hpos hle
  | move hcall => exact tidy_move h hcall
  | rename hcall htmp => exact tidy_rename h hcall htmp
  | fail hcall hrunning => exact tidy_fail h hcall
  | answer hcall => exact tidy_answer h hcall
  | drop hcall => exact tidy_drop h hcall

/-- A program whose events `lower` to the events here, in a run in which jobs open apart. -/
theorem tidy_run {ε : Type} {lower : State ι α → ε → Event ι α}
    {step : State ι α → ε → State ι α → Prop} {s₀ : State ι α}
    {tr : List (State ι α × ε × State ι α)}
    (hlower : ∀ s e t, step s e t → Step encode s (lower s e) t) (run : Lts.Run step s₀ tr s)
    (start : Tidy encode s₀) (apart : ∀ x ∈ tr, Apart encode x.1 (lower x.1 x.2.1)) :
    Tidy encode s := by
  let ok : State ι α → ε → Prop := fun s e => Apart encode s (lower s e)
  have hrun : Lts.Run (Lts.Guarded step ok) s₀ tr s := run.guarded apart
  refine hrun.keeps (fun s e t htidy hs => ?_) start
  obtain ⟨hs, hapart⟩ := hs
  exact tidy_step htidy hapart (hlower _ _ _ hs)

theorem acked_step (hs : Step encode s e t) :
    s.acked ⊆ t.acked ∧ ∀ i, e = .answer i → s.mem ∈ t.acked := by
  cases hs with
  | answer hcall => exact ⟨List.subset_cons_self _ _, fun _ _ => List.mem_cons_self⟩
  | begin _ _ _ => exact ⟨List.Subset.refl _, nofun⟩
  | queue _ => exact ⟨List.Subset.refl _, nofun⟩
  | openTemp _ => exact ⟨List.Subset.refl _, nofun⟩
  | write _ _ _ => exact ⟨List.Subset.refl _, nofun⟩
  | move _ => exact ⟨List.Subset.refl _, nofun⟩
  | rename _ _ => exact ⟨List.Subset.refl _, nofun⟩
  | fail _ _ => exact ⟨List.Subset.refl _, nofun⟩
  | drop _ => exact ⟨List.Subset.refl _, nofun⟩

/-- What was in memory when a call answered stays recorded. -/
theorem acked_run {ε : Type} {lower : State ι α → ε → Event ι α}
    {step : State ι α → ε → State ι α → Prop} {s₀ : State ι α}
    {tr : List (State ι α × ε × State ι α)}
    (hlower : ∀ s e t, step s e t → Step encode s (lower s e) t) (run : Lts.Run step s₀ tr s) :
    ∀ x ∈ tr, ∀ i, lower x.1 x.2.1 = .answer i → x.1.mem ∈ s.acked := by
  induction run with
  | nil => nofun
  | @snoc tr s t e _ hs ih =>
    obtain ⟨hsub, hlast⟩ := acked_step (hlower _ _ _ hs)
    intro x hx i hi
    rcases List.mem_append.mp hx with hx | hx
    · exact hsub (ih x hx i hi)
    · cases List.mem_singleton.mp hx
      exact hlast i hi

end Tidy

end DetachedSaves
