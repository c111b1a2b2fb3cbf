import Mathlib.Algebra.Ring.Nat
import Mathlib.Data.List.DropRight
import Mathlib.Tactic.ByContra
import MiniMask.Lib.Transition

/-!
# The audit log (`state.rs`, `AuditLogStore`)

A call of `add` pushes its entry to the ring and then, without any lock, reads the size
of the file, renames it over the backup if it is full, opens or creates the file and
writes one line. Calls run side by side, and any of these steps of other calls may come
in between.

`retention_exact` says when that loses entries too early, in two ways: no call rotates
between another call's look at the file and its use of it (enough), and what each rename
and each write finds (exact). `two_rotations` is a run of two calls that both saw a full
file.
-/

namespace MiniMask

open Lts

/-! ## Definitions -/

/-- `ts` is the text of the time. -/
structure AuditLog where
  ts : String
  level : String
  category : String
  message : String
deriving DecidableEq, Repr

namespace AuditLogStore

abbrev Inode := Nat

/-- `max_bytes` as `with_file` computes it, a saturating `u64`. -/
def maxBytes (maxSizeMb : Nat) : Nat := min (maxSizeMb * 1048576) (2 ^ 64 - 1)

/-- The bytes of a line. `toJson` is `serde_json::to_string`. -/
def lineBytes (toJson : AuditLog → String) (entry : AuditLog) : Nat :=
  (toJson entry ++ "\n").utf8ByteSize

/-- Where a call of `add` stands: pushed to the ring; with the size of `seen` read and
`rename` next; `open` next; or about to write to the file it has open. -/
inductive Phase
  | pushed
  | rotating (seen : Inode)
  | opening
  | opened (i : Inode)
deriving DecidableEq, Repr

structure Call where
  entry : AuditLog
  phase : Phase
deriving DecidableEq, Repr

/-- `written` has every line in the order of writing, with the file it went to; a file is
gone when no name has it any more. `moved` has the sizes of the files at their renames. -/
structure State where
  logs : List AuditLog
  path : Option Inode
  backup : Option Inode
  next : Inode
  written : List (Inode × AuditLog)
  moved : List Nat
  calls : Nat → Option Call

inductive Event
  | push (c : Nat) (entry : AuditLog)
  | check (c : Nat)
  | rename (c : Nat)
  | open (c : Nat)
  | write (c : Nat)
deriving DecidableEq, Repr

/-- What earlier runs of the server left in the backup and in the file. -/
def init (old cur : Option (List AuditLog)) : State where
  logs := []
  path := cur.map fun _ => 1
  backup := old.map fun _ => 0
  next := 2
  written := (old.getD []).map (fun e => (0, e)) ++ (cur.getD []).map fun e => (1, e)
  moved := []
  calls := fun _ => none

/-- The push to the ring, which keeps `cap` entries. -/
def pushLog (cap : Nat) (logs : List AuditLog) (entry : AuditLog) : List AuditLog :=
  (if cap ≤ logs.length then logs.tail else logs) ++ [entry]

section Model

variable (toJson : AuditLog → String)

def bytes (lines : List (Inode × AuditLog)) : Nat :=
  (lines.map fun x => lineBytes toJson x.2).sum

/-- `metadata(..).len()`. -/
def State.size (s : State) (i : Inode) : Nat := bytes toJson (s.written.filter fun x => x.1 = i)

def State.setCall (s : State) (c : Nat) (call : Option Call) : State :=
  { s with calls := fun d => if d = c then call else s.calls d }

/-- `metadata` of a missing file fails, and the call goes on to open it. -/
def State.looked (s : State) (maxBytes : Nat) : Phase :=
  match s.path with
  | some i => if maxBytes ≤ s.size toJson i then .rotating i else .opening
  | none => .opening

/-- `rename` of a missing file fails, which is ignored. -/
def State.rotate (s : State) : State :=
  match s.path with
  | some j =>
    { s with path := none, backup := some j, moved := s.moved ++ [s.size toJson j] }
  | none => s

/-- `open` with `create` and `append`. -/
def State.openPath (s : State) : State × Inode :=
  match s.path with
  | some i => (s, i)
  | none => ({ s with path := some s.next, next := s.next + 1 }, s.next)

/-- One step of one call. -/
inductive Step (cap maxBytes : Nat) (s : State) : Event → State → Prop
  | push {c : Nat} {entry : AuditLog} :
      s.calls c = none →
      Step cap maxBytes s (.push c entry)
        ({ s with logs := pushLog cap s.logs entry }.setCall c (some ⟨entry, .pushed⟩))
  | check {c : Nat} {entry : AuditLog} :
      s.calls c = some ⟨entry, .pushed⟩ →
      Step cap maxBytes s (.check c) (s.setCall c (some ⟨entry, s.looked toJson maxBytes⟩))
  | rename {c : Nat} {entry : AuditLog} {seen : Inode} :
      s.calls c = some ⟨entry, .rotating seen⟩ →
      Step cap maxBytes s (.rename c) ((s.rotate toJson).setCall c (some ⟨entry, .opening⟩))
  | open {c : Nat} {entry : AuditLog} :
      s.calls c = some ⟨entry, .opening⟩ →
      Step cap maxBytes s (.open c)
        (s.openPath.1.setCall c (some ⟨entry, .opened s.openPath.2⟩))
  | write {c : Nat} {entry : AuditLog} {i : Inode} :
      s.calls c = some ⟨entry, .opened i⟩ →
      Step cap maxBytes s (.write c)
        ({ s with written := s.written ++ [(i, entry)] }.setCall c none)

/-- The file still has one of the two names. -/
def State.Kept (s : State) (i : Inode) : Prop := s.path = some i ∨ s.backup = some i

/-- Every rename moved a full file, and a line that is in neither of the two files was
followed by lines of `maxBytes` bytes in all. -/
structure Retained (maxBytes : Nat) (s : State) : Prop where
  moved_full : ∀ n ∈ s.moved, maxBytes ≤ n
  lost_old : ∀ earlier i entry later, s.written = earlier ++ (i, entry) :: later →
    ¬ s.Kept i → maxBytes ≤ bytes toJson later

/-- A call renames the file whose size it has read, and writes to the file while that
still has its name. -/
def Undisturbed (s : State) : Event → Prop
  | .rename c => ∀ entry seen j, s.calls c = some ⟨entry, .rotating seen⟩ →
      s.path = some j → seen = j
  | .write c => ∀ entry i, s.calls c = some ⟨entry, .opened i⟩ → s.path = some i
  | _ => True

/-- A rename finds a full file, and since the last line of the backup lines of `maxBytes`
bytes were written; a write finds its file under one of the two names. -/
def Timely (maxBytes : Nat) (s : State) : Event → Prop
  | .rename _ => ∀ j, s.path = some j → maxBytes ≤ s.size toJson j ∧
      ∀ k, s.backup = some k → ∀ earlier entry later,
        s.written = earlier ++ (k, entry) :: later → maxBytes ≤ bytes toJson later
  | .write c => ∀ entry i, s.calls c = some ⟨entry, .opened i⟩ → s.Kept i
  | _ => True

end Model

/-! ## Sizes and names -/

section Proofs

variable {toJson : AuditLog → String} {cap maxBytes : Nat} {s t : State} {e : Event}

theorem bytes_append (xs ys : List (Inode × AuditLog)) :
    bytes toJson (xs ++ ys) = bytes toJson xs + bytes toJson ys := by
  simp [bytes]

theorem bytes_filter_le (p : Inode × AuditLog → Bool) (xs : List (Inode × AuditLog)) :
    bytes toJson (xs.filter p) ≤ bytes toJson xs := by
  induction xs with
  | nil => exact Nat.le_refl 0
  | cons x xs ih =>
    have hcons : bytes toJson (x :: xs) = lineBytes toJson x.2 + bytes toJson xs := rfl
    cases hx : p x with
    | true =>
      rw [List.filter_cons_of_pos hx]
      exact Nat.add_le_add_left ih _
    | false =>
      rw [List.filter_cons_of_neg (by simp [hx])]
      omega

/-- A file of which no line is older than a line of another file is no larger than what
was written after that line. -/
theorem size_le_later {earlier later : List (Inode × AuditLog)} {j k : Inode} {entry : AuditLog}
    (hwritten : s.written = earlier ++ (k, entry) :: later) (hne : k ≠ j)
    (hafter : ∀ x ∈ earlier, x.1 ≠ j) : s.size toJson j ≤ bytes toJson later := by
  have hearlier : (earlier.filter fun x => x.1 = j) = [] :=
    List.filter_eq_nil_iff.mpr fun x hx => by simpa using hafter x hx
  have hsize : s.size toJson j = bytes toJson (later.filter fun x => x.1 = j) := by
    rw [State.size, hwritten, List.filter_append, hearlier, List.filter_cons_of_neg (by simpa)]
    rfl
  rw [hsize]
  exact bytes_filter_le _ _

theorem looked_cases (toJson : AuditLog → String) (maxBytes : Nat) (s : State) :
    s.looked toJson maxBytes = .opening ∨
      ∃ i, s.path = some i ∧ maxBytes ≤ s.size toJson i ∧
        s.looked toJson maxBytes = .rotating i := by
  unfold State.looked
  split
  · next i hi =>
    split
    · next hfull => exact .inr ⟨i, hi, hfull, rfl⟩
    · exact .inl rfl
  · exact .inl rfl

@[simp] theorem path_rotate : (s.rotate toJson).path = none := by
  unfold State.rotate
  split
  · rfl
  · assumption

@[simp] theorem written_rotate : (s.rotate toJson).written = s.written := by
  unfold State.rotate
  split <;> rfl

@[simp] theorem calls_rotate : (s.rotate toJson).calls = s.calls := by
  unfold State.rotate
  split <;> rfl

@[simp] theorem logs_rotate : (s.rotate toJson).logs = s.logs := by
  unfold State.rotate
  split <;> rfl

@[simp] theorem logs_openPath : s.openPath.1.logs = s.logs := by
  unfold State.openPath
  split <;> rfl

@[simp] theorem written_openPath : s.openPath.1.written = s.written := by
  unfold State.openPath
  split <;> rfl

@[simp] theorem moved_openPath : s.openPath.1.moved = s.moved := by
  unfold State.openPath
  split <;> rfl

@[simp] theorem calls_openPath : s.openPath.1.calls = s.calls := by
  unfold State.openPath
  split <;> rfl

theorem size_congr (h : t.written = s.written) (i : Inode) : t.size toJson i = s.size toJson i := by
  rw [State.size, State.size, h]

/-- Every file has its own inode, and the next one is new. -/
structure Named (s : State) : Prop where
  apart : ∀ j k, s.path = some j → s.backup = some k → k ≠ j
  path_lt : ∀ j, s.path = some j → j < s.next
  backup_lt : ∀ k, s.backup = some k → k < s.next
  opened_lt : ∀ c entry i, s.calls c = some ⟨entry, .opened i⟩ → i < s.next
  written_lt : ∀ x ∈ s.written, x.1 < s.next

/-- What a call of `setCall` says about every call. -/
theorem setCall_cases {c d : Nat} {call : Option Call} {v : Call}
    (h : (s.setCall c call).calls d = some v) : (d = c ∧ call = some v) ∨ s.calls d = some v := by
  rcases eq_or_ne d c with rfl | hne
  · exact .inl ⟨rfl, by simpa [State.setCall] using h⟩
  · exact .inr (by simpa [State.setCall, hne] using h)

theorem named_init (old cur : Option (List AuditLog)) : Named (init old cur) := by
  refine ⟨fun j k hj hk => ?_, fun j hj => ?_, fun k hk => ?_, nofun, fun x hx => ?_⟩
  · obtain ⟨_, _, rfl⟩ := Option.map_eq_some_iff.mp hj
    obtain ⟨_, _, rfl⟩ := Option.map_eq_some_iff.mp hk
    decide
  · obtain ⟨_, _, rfl⟩ := Option.map_eq_some_iff.mp hj
    exact Nat.one_lt_two
  · obtain ⟨_, _, rfl⟩ := Option.map_eq_some_iff.mp hk
    exact Nat.two_pos
  · rcases List.mem_append.mp hx with hx | hx
    · obtain ⟨_, _, rfl⟩ := List.mem_map.mp hx
      exact Nat.two_pos
    · obtain ⟨_, _, rfl⟩ := List.mem_map.mp hx
      exact Nat.one_lt_two

/-- A call that has no file open keeps the names apart. -/
theorem named_setCall {c : Nat} {call : Option Call} (h : Named s)
    (hcall : ∀ entry i, call = some ⟨entry, .opened i⟩ → i < s.next) :
    Named (s.setCall c call) := by
  refine ⟨h.apart, h.path_lt, h.backup_lt, fun d entry i hd => ?_, h.written_lt⟩
  rcases setCall_cases hd with ⟨-, heq⟩ | hd
  · exact hcall entry i heq
  · exact h.opened_lt d entry i hd

theorem named_rotate (h : Named s) : Named (s.rotate toJson) := by
  unfold State.rotate
  split
  · next j hj =>
    exact ⟨nofun, nofun, fun k hk => Option.some.inj hk ▸ h.path_lt j hj, h.opened_lt, h.written_lt⟩
  · exact h

theorem named_openPath (h : Named s) :
    Named s.openPath.1 ∧ s.openPath.2 < s.openPath.1.next := by
  unfold State.openPath
  split
  · next j hj => exact ⟨h, h.path_lt j hj⟩
  · refine ⟨⟨fun j k hj hk => ?_, fun j hj => ?_, fun k hk => ?_, fun c entry i hc => ?_,
      fun x hx => ?_⟩, Nat.lt_succ_self _⟩
    · cases hj
      exact Nat.ne_of_lt (h.backup_lt k hk)
    · cases hj
      exact Nat.lt_succ_self _
    · exact Nat.lt_succ_of_lt (h.backup_lt k hk)
    · exact Nat.lt_succ_of_lt (h.opened_lt c entry i hc)
    · exact Nat.lt_succ_of_lt (h.written_lt x hx)

theorem named_step (h : Named s) (hs : Step toJson cap maxBytes s e t) : Named t := by
  cases hs with
  | push _ =>
    have hpushed : ∀ logs, Named { s with logs := logs } := fun _ =>
      ⟨h.apart, h.path_lt, h.backup_lt, h.opened_lt, h.written_lt⟩
    exact named_setCall (hpushed _) nofun
  | check _ =>
    refine named_setCall h fun entry i heq => ?_
    rcases looked_cases toJson maxBytes s with hlooked | ⟨j, -, -, hlooked⟩ <;>
      rw [hlooked] at heq <;> cases heq
  | rename _ => exact named_setCall (named_rotate h) nofun
  | @«open» c entry _ =>
    obtain ⟨hopened, hlt⟩ := named_openPath h
    refine named_setCall hopened fun entry' i heq => ?_
    cases heq
    exact hlt
  | @write c entry i hcall =>
    have hi := h.opened_lt c entry i hcall
    refine named_setCall ⟨h.apart, h.path_lt, h.backup_lt, h.opened_lt, ?_⟩ nofun
    exact List.forall_mem_append.mpr ⟨h.written_lt, List.forall_mem_singleton.mpr hi⟩

/-! ## What each step is about -/

/-- The ring has the last lines that were pushed. -/
theorem pushLog_rtake (hcap : 0 < cap) (lines : List AuditLog) (entry : AuditLog) :
    pushLog cap (lines.rtake cap) entry = (lines ++ [entry]).rtake cap := by
  unfold pushLog List.rtake
  rw [List.length_drop, List.length_append, List.length_singleton]
  by_cases hfull : cap ≤ lines.length
  · rw [if_pos (by omega), List.tail_drop, List.drop_append_of_le_length (by omega),
      Nat.sub_add_comm hfull]
  · rw [if_neg (by omega), List.drop_append_of_le_length (by omega),
      Nat.sub_eq_zero_of_le (by omega), Nat.sub_eq_zero_of_le (by omega)]

/-- Only a push begins a call or touches the ring. -/
theorem calls_of_step (hs : Step toJson cap maxBytes s e t) (hpush : ∀ c entry, e ≠ .push c entry) :
    t.logs = s.logs ∧ ∀ d entry phase, t.calls d = some ⟨entry, phase⟩ →
      ∃ phase', s.calls d = some ⟨entry, phase'⟩ := by
  cases hs with
  | push _ => exact absurd rfl (hpush _ _)
  | check hcall =>
    refine ⟨rfl, fun d entry phase hd => ?_⟩
    rcases setCall_cases hd with ⟨rfl, heq⟩ | hd
    · cases heq
      exact ⟨_, hcall⟩
    · exact ⟨_, hd⟩
  | rename hcall =>
    refine ⟨logs_rotate, fun d entry phase hd => ?_⟩
    rcases setCall_cases hd with ⟨rfl, heq⟩ | hd
    · cases heq
      exact ⟨_, hcall⟩
    · exact ⟨_, calls_rotate ▸ hd⟩
  | «open» hcall =>
    refine ⟨logs_openPath, fun d entry phase hd => ?_⟩
    rcases setCall_cases hd with ⟨rfl, heq⟩ | hd
    · cases heq
      exact ⟨_, hcall⟩
    · exact ⟨_, calls_openPath ▸ hd⟩
  | write hcall =>
    refine ⟨rfl, fun d entry phase hd => ?_⟩
    rcases setCall_cases hd with ⟨-, heq⟩ | hd
    · cases heq
    · exact ⟨_, hd⟩

/-- Only a write adds to what was written, and it ends its call. -/
theorem written_of_step (hs : Step toJson cap maxBytes s e t) :
    ((∀ c, e ≠ .write c) ∧ t.written = s.written) ∨
      ∃ c i entry, e = .write c ∧ s.calls c = some ⟨entry, .opened i⟩ ∧
        t.written = s.written ++ [(i, entry)] ∧ t.calls c = none := by
  cases hs with
  | push _ | check _ => exact .inl ⟨nofun, rfl⟩
  | rename _ => exact .inl ⟨nofun, written_rotate⟩
  | «open» _ => exact .inl ⟨nofun, written_openPath⟩
  | @write c entry i hcall => exact .inr ⟨c, i, entry, rfl, hcall, rfl, if_pos rfl⟩

/-! ## What each step loses -/

theorem retained_init (old cur : Option (List AuditLog)) :
    Retained toJson maxBytes (init old cur) := by
  refine ⟨nofun, fun earlier i entry later hwritten hlost => absurd ?_ hlost⟩
  have hmem : (i, entry) ∈ (init old cur).written := by rw [hwritten]; simp
  rcases List.mem_append.mp hmem with hx | hx
  · obtain ⟨_, hline, heq⟩ := List.mem_map.mp hx
    cases heq
    cases old with
    | none => nomatch hline
    | some lines => exact .inr rfl
  · obtain ⟨_, hline, heq⟩ := List.mem_map.mp hx
    cases heq
    cases cur with
    | none => nomatch hline
    | some lines => exact .inl rfl

/-- A step that writes and renames nothing loses nothing. -/
theorem Retained.of_kept (h : Retained toJson maxBytes s) (hwritten : t.written = s.written)
    (hmoved : t.moved = s.moved) (hkept : ∀ i, s.Kept i → t.Kept i) :
    Retained toJson maxBytes t := by
  refine ⟨hmoved ▸ h.moved_full, fun earlier i entry later hsplit hlost => ?_⟩
  exact h.lost_old earlier i entry later (hwritten ▸ hsplit) fun hs => hlost (hkept i hs)

theorem retained_rotate (hnamed : Named s) (h : Retained toJson maxBytes s) :
    Retained toJson maxBytes (s.rotate toJson) ↔
      ∀ j, s.path = some j → maxBytes ≤ s.size toJson j ∧
        ∀ k, s.backup = some k → ∀ earlier entry later,
          s.written = earlier ++ (k, entry) :: later → maxBytes ≤ bytes toJson later := by
  unfold State.rotate
  split
  · next j hj =>
    constructor
    · intro hretained j' hj'
      cases hj.symm.trans hj'
      refine ⟨hretained.moved_full _ (List.mem_append_right _ (List.mem_singleton_self _)), ?_⟩
      intro k hk earlier entry later hsplit
      refine hretained.lost_old earlier k entry later hsplit ?_
      rintro (hpath | hbackup)
      · cases hpath
      · cases hbackup
        exact hnamed.apart _ _ hj hk rfl
    · intro hok
      obtain ⟨hfull, hold⟩ := hok j hj
      refine ⟨List.forall_mem_append.mpr ⟨h.moved_full, List.forall_mem_singleton.mpr hfull⟩, ?_⟩
      intro earlier i entry later hsplit hlost
      by_cases hkept : s.Kept i
      · -- the file had a name before the rename, so it was the backup
        rcases hkept with hpath | hbackup
        · exact absurd (.inr (hj.symm.trans hpath)) hlost
        · exact hold i hbackup earlier entry later hsplit
      · exact h.lost_old earlier i entry later hsplit hkept
  · next hnone => exact iff_of_true h fun j hj => nomatch hnone.symm.trans hj

theorem retained_write (hpos : 0 < maxBytes) (h : Retained toJson maxBytes s) (i : Inode)
    (entry : AuditLog) (calls : Nat → Option Call) :
    Retained toJson maxBytes { s with written := s.written ++ [(i, entry)], calls := calls } ↔
      s.Kept i := by
  constructor
  · intro hretained
    by_contra hlost
    exact absurd (hretained.lost_old s.written i entry [] rfl hlost) (Nat.not_le.mpr hpos)
  · intro hkept
    refine ⟨h.moved_full, fun earlier i' entry' later hsplit hlost => ?_⟩
    rcases eq_append_cons_of_snoc hsplit with ⟨rfl, rfl, heq⟩ | ⟨later', rfl, hbefore⟩
    · cases heq
      exact absurd hkept hlost
    · rw [bytes_append]
      exact Nat.le_add_right_of_le (h.lost_old earlier i' entry' later' hbefore hlost)

/-- A step loses no recent line exactly if it is timely. -/
theorem retained_step (hpos : 0 < maxBytes) (hnamed : Named s) (h : Retained toJson maxBytes s)
    (hs : Step toJson cap maxBytes s e t) :
    Retained toJson maxBytes t ↔ Timely toJson maxBytes s e := by
  cases hs with
  | push _ => exact iff_of_true (h.of_kept rfl rfl fun _ hk => hk) trivial
  | check _ => exact iff_of_true (h.of_kept rfl rfl fun _ hk => hk) trivial
  | rename _ =>
    rw [Timely, ← retained_rotate hnamed h]
    exact ⟨fun ht => ht.of_kept rfl rfl fun _ hk => hk, fun ht => ht.of_kept rfl rfl fun _ hk => hk⟩
  | «open» _ =>
    refine iff_of_true (h.of_kept written_openPath moved_openPath fun i hk => ?_) trivial
    show s.openPath.1.Kept i
    unfold State.openPath
    split
    · exact hk
    · next hnone => exact hk.elim (fun hpath => nomatch hnone.symm.trans hpath) .inr
  | @write c entry i hcall =>
    have hone := retained_write hpos h i entry (s.setCall c none).calls
    refine hone.trans ⟨fun hkept entry' i' hc => ?_, fun hok => hok entry i hcall⟩
    cases hcall.symm.trans hc
    exact hkept

/-! ## Calls that do not disturb each other -/

/-- The files as they are when no call uses a file that another one has rotated away:
the file that a call has found full is full, and no line of the file is older than a line
of the backup. -/
structure InTurn (toJson : AuditLog → String) (maxBytes : Nat) (s : State) : Prop where
  named : Named s
  full : ∀ c entry seen, s.calls c = some ⟨entry, .rotating seen⟩ → maxBytes ≤ s.size toJson seen
  newer : ∀ j k, s.path = some j → s.backup = some k → ∀ earlier entry later,
    s.written = earlier ++ (k, entry) :: later → ∀ x ∈ earlier, x.1 ≠ j

theorem inTurn_init (old cur : Option (List AuditLog)) :
    InTurn toJson maxBytes (init old cur) := by
  refine ⟨named_init old cur, nofun, fun j k hj hk earlier entry later hsplit x hx => ?_⟩
  obtain ⟨_, _, rfl⟩ := Option.map_eq_some_iff.mp hj
  obtain ⟨_, _, rfl⟩ := Option.map_eq_some_iff.mp hk
  rcases List.append_eq_append_iff.mp hsplit with ⟨front, hearlier, hrest⟩ | ⟨rest, hold, -⟩
  · -- the line of the backup would be one of the file
    have hmem : (0, entry) ∈ (cur.getD []).map fun e => (1, e) := by rw [hrest]; simp
    obtain ⟨_, _, heq⟩ := List.mem_map.mp hmem
    cases heq
  · have hmem : x ∈ (old.getD []).map fun e => (0, e) := hold ▸ List.mem_append_left _ hx
    obtain ⟨_, _, rfl⟩ := List.mem_map.mp hmem
    exact Nat.zero_ne_one

theorem InTurn.timely (h : InTurn toJson maxBytes s) (hs : Step toJson cap maxBytes s e t)
    (hok : Undisturbed s e) : Timely toJson maxBytes s e := by
  cases hs with
  | push _ => trivial
  | check _ => trivial
  | «open» _ => trivial
  | @rename c entry seen hcall =>
    intro j hj
    have hfull : maxBytes ≤ s.size toJson j := hok entry seen j hcall hj ▸ h.full c entry seen hcall
    refine ⟨hfull, fun k hk earlier entry' later hsplit => Nat.le_trans hfull ?_⟩
    exact size_le_later hsplit (h.named.apart j k hj hk) (h.newer j k hj hk _ _ _ hsplit)
  | write _ => exact fun entry i hc => .inl (hok entry i hc)

/-- A call that has found no full file changes nothing for the others. -/
theorem full_setCall {c : Nat} {call : Option Call} {maxBytes : Nat}
    (h : ∀ c entry seen, s.calls c = some ⟨entry, .rotating seen⟩ → maxBytes ≤ s.size toJson seen)
    (hcall : ∀ entry seen, call = some ⟨entry, .rotating seen⟩ → maxBytes ≤ s.size toJson seen) :
    ∀ d entry seen, (s.setCall c call).calls d = some ⟨entry, .rotating seen⟩ →
      maxBytes ≤ (s.setCall c call).size toJson seen := by
  intro d entry seen hd
  rcases setCall_cases hd with ⟨-, heq⟩ | hd
  · exact hcall entry seen heq
  · exact h d entry seen hd

theorem inTurn_step (h : InTurn toJson maxBytes s) (hs : Step toJson cap maxBytes s e t)
    (hok : Undisturbed s e) : InTurn toJson maxBytes t := by
  refine ⟨named_step h.named hs, ?_, ?_⟩
  · cases hs with
    | @push c entry _ =>
      exact @full_setCall toJson { s with logs := pushLog cap s.logs entry } c _ maxBytes h.full
        nofun
    | check _ =>
      refine full_setCall h.full fun entry seen heq => ?_
      rcases looked_cases toJson maxBytes s with hlooked | ⟨j, -, hfull, hlooked⟩ <;>
        rw [hlooked] at heq <;> cases heq
      exact hfull
    | rename _ =>
      refine full_setCall (fun d entry seen hd => ?_) nofun
      rw [size_congr written_rotate]
      exact h.full d entry seen (calls_rotate ▸ hd)
    | «open» _ =>
      refine full_setCall (fun d entry seen hd => ?_) nofun
      rw [size_congr written_openPath]
      exact h.full d entry seen (calls_openPath ▸ hd)
    | @write c entry i _ =>
      refine full_setCall (fun d entry' seen hd => ?_) nofun
      have hgrown : s.size toJson seen ≤
          State.size toJson { s with written := s.written ++ [(i, entry)] } seen := by
        rw [State.size, State.size, List.filter_append, bytes_append]
        exact Nat.le_add_right _ _
      exact Nat.le_trans (h.full d entry' seen hd) hgrown
  · cases hs with
    | push _ => exact h.newer
    | check _ => exact h.newer
    | rename _ => exact fun j k hj => nomatch path_rotate.symm.trans hj
    | @«open» c entry _ =>
      show ∀ j k, s.openPath.1.path = some j → s.openPath.1.backup = some k → _
      unfold State.openPath
      split
      · exact h.newer
      · intro j k hj _ earlier entry' later hsplit x hx
        cases hj
        have hmem : x ∈ s.written := by
          have hwritten : s.written = earlier ++ (k, entry') :: later := hsplit
          rw [hwritten]
          exact List.mem_append_left _ hx
        exact Nat.ne_of_lt (h.named.written_lt x hmem)
    | @write c entry i hcall =>
      have hpath : s.path = some i := hok entry i hcall
      intro j k hj hk earlier entry' later hsplit x hx
      rcases eq_append_cons_of_snoc hsplit with ⟨-, -, heq⟩ | ⟨later', -, hbefore⟩
      · -- the new line is in the file and not in the backup
        cases heq
        exact absurd rfl (h.named.apart _ _ hpath hk)
      · exact h.newer j k hj hk earlier entry' later' hbefore x hx

end Proofs

/-- In every run, if no call rotates between the look of another one at the file and its
rename, or between its open and its write, no line is lost before lines of `maxBytes`
bytes have followed it. This holds in a run if and only if every rename finds a full
file, with as much written since the last line of the backup, and every write finds its
file under one of the two names. -/
theorem retention_exact {toJson : AuditLog → String} {cap maxBytes : Nat} (hpos : 0 < maxBytes)
    {old cur : Option (List AuditLog)} {tr : List (State × Event × State)} {s : State}
    (run : Run (Step toJson cap maxBytes) (init old cur) tr s) :
    ((∀ x ∈ tr, Undisturbed x.1 x.2.1) → ∀ x ∈ tr, Retained toJson maxBytes x.2.2) ∧
    ((∀ x ∈ tr, Retained toJson maxBytes x.2.2) ↔ ∀ x ∈ tr, Timely toJson maxBytes x.1 x.2.1) := by
  have hstep : ∀ s e t, Named s → Retained toJson maxBytes s → Step toJson cap maxBytes s e t →
      (Retained toJson maxBytes t ↔ Timely toJson maxBytes s e) :=
    fun _ _ _ hnamed h hs => retained_step hpos hnamed h hs
  have hexact := run.forall_states_iff (fun _ _ _ h hs => named_step h hs) hstep
    (named_init old cur) (retained_init old cur)
  refine ⟨fun hok => hexact.mpr ?_, hexact⟩
  have hkeep : ∀ s e t, InTurn toJson maxBytes s →
      Guarded (Step toJson cap maxBytes) Undisturbed s e t →
      InTurn toJson maxBytes t ∧ Timely toJson maxBytes s e :=
    fun _ _ _ h hs => ⟨inTurn_step h hs.1 hs.2, h.timely hs.1 hs.2⟩
  exact (run.guarded hok).forall_steps hkeep (inTurn_init old cur)

/-! ## Two runs from a full file -/

/-- A check that finds a full file. -/
theorem Step.check_full {toJson : AuditLog → String} {cap maxBytes c i : Nat} {s : State}
    {entry : AuditLog} (hcall : s.calls c = some ⟨entry, .pushed⟩) (hpath : s.path = some i)
    (hfull : maxBytes ≤ s.size toJson i) :
    Step toJson cap maxBytes s (.check c) (s.setCall c (some ⟨entry, .rotating i⟩)) := by
  have hlooked : s.looked toJson maxBytes = .rotating i := by
    rw [State.looked, hpath]
    exact if_pos hfull
  exact hlooked ▸ Step.check hcall

/-- An entry of `login`, and its JSON: there is nothing in it to escape. -/
def loginFailed : AuditLog where
  ts := "2025-01-01T00:00:00Z"
  level := "warn"
  category := "auth"
  message := "failed login attempt for 'admin'"

def plainJson (entry : AuditLog) : String :=
  "\x7b\"ts\":\"" ++ entry.ts ++ "\",\"level\":\"" ++ entry.level ++ "\",\"category\":\"" ++
    entry.category ++ "\",\"message\":\"" ++ entry.message ++ "\"\x7d"

theorem lineBytes_loginFailed : lineBytes plainJson loginFailed = 108 := by decide

/-- A file that has passed 1 MiB. -/
def fullLog : List AuditLog := List.replicate 16384 loginFailed

theorem bytes_map (toJson : AuditLog → String) (i : Inode) (entry : AuditLog) (n : Nat) :
    bytes toJson ((List.replicate n entry).map fun e => (i, e)) = n * lineBytes toJson entry := by
  simp [bytes]

theorem fullLog_full : maxBytes 1 ≤ (init none (some fullLog)).size plainJson 1 := by
  have hall : (init none (some fullLog)).written.filter (fun x => x.1 = 1) =
      fullLog.map fun e => (1, e) := by
    show (fullLog.map fun e => (1, e)).filter _ = _
    rw [List.filter_eq_self]
    simp
  rw [State.size, hall, fullLog, bytes_map, lineBytes_loginFailed]
  decide

/-- A call that finds the file full and has it to itself: the old lines are in the backup. -/
theorem retention_exact_rotation :
    ∃ tr s, Run (Step plainJson 500 (maxBytes 1)) (init none (some fullLog)) tr s ∧
      s.backup = some 1 ∧ s.path = some 2 ∧ ∀ x ∈ tr, Retained plainJson (maxBytes 1) x.2.2 := by
  have pushed := Run.nil.snoc (@Step.push plainJson 500 (maxBytes 1)
    (init none (some fullLog)) 0 loginFailed rfl)
  have moved := (pushed.snoc (Step.check_full (c := 0) rfl rfl fullLog_full)).snoc
    (.rename (c := 0) rfl)
  have written := (moved.snoc (.open (c := 0) rfl)).snoc (.write (c := 0) rfl)
  refine ⟨_, _, written, rfl, rfl, (retention_exact (by decide) written).1 ?_⟩
  simp only [List.forall_mem_append, List.forall_mem_singleton, Undisturbed]
  refine ⟨⟨⟨⟨⟨nofun, trivial⟩, trivial⟩, ?_⟩, trivial⟩, ?_⟩
  · intro entry seen j hcall hpath
    cases hcall
    cases hpath
    rfl
  · intro entry i hcall
    cases hcall
    rfl

/-- Two calls read the size of the full file before either of them renames it: the second
renames a file of one line over the backup, and all the lines of the full file are gone. -/
theorem two_rotations :
    ∃ tr s, Run (Step plainJson 500 (maxBytes 1)) (init none (some fullLog)) tr s ∧
      s.written = fullLog.map (fun e => (1, e)) ++ [(2, loginFailed)] ∧ ¬ s.Kept 1 ∧
      bytes plainJson [(2, loginFailed)] = 108 ∧ ¬ Retained plainJson (maxBytes 1) s := by
  have pushed := (Run.nil.snoc (@Step.push plainJson 500 (maxBytes 1)
    (init none (some fullLog)) 0 loginFailed rfl)).snoc (@Step.push _ _ _ _ 1 loginFailed rfl)
  have checked := (pushed.snoc (Step.check_full (c := 0) rfl rfl fullLog_full)).snoc
    (Step.check_full (c := 1) rfl rfl fullLog_full)
  have first := ((checked.snoc (.rename (c := 0) rfl)).snoc (.open (c := 0) rfl)).snoc
    (.write (c := 0) rfl)
  have second := first.snoc (.rename (c := 1) rfl)
  have hlost : ¬ ((none : Option Inode) = some 1 ∨ (some 2 : Option Inode) = some 1) := by simp
  have hline : bytes plainJson [(2, loginFailed)] = 108 :=
    (bytes_map plainJson 2 loginFailed 1).trans (by rw [lineBytes_loginFailed])
  refine ⟨_, _, second, rfl, hlost, hline, fun h => ?_⟩
  have hlast : fullLog.map (fun e => ((1 : Inode), e)) ++ [(2, loginFailed)] =
      (List.replicate 16383 loginFailed).map (fun e => (1, e)) ++
        (1, loginFailed) :: [(2, loginFailed)] := by
    rw [fullLog, List.replicate_succ', List.map_append, List.append_assoc]
    rfl
  have hbytes := h.lost_old _ 1 loginFailed [(2, loginFailed)] hlast hlost
  rw [hline] at hbytes
  exact absurd hbytes (by decide)

end AuditLogStore

end MiniMask
