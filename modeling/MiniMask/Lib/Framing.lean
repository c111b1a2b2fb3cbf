import Mathlib.Data.List.Basic

/-!
# Readers and writers of framed byte streams

A reader takes exact numbers of bytes from a source that delivers its bytes in
pieces of its own choice; a writer appends bytes to a sink and may stop half way.

* `ByteSource` is what a reader needs of the source. `Chunks` is the source that
  delivers a given list of pieces, so a theorem about every `ByteSource` holds for
  every fragmentation.
* `Reads p bs a`: in front of any remaining bytes, `p` turns `bs` into `a` and
  takes no byte more.
* `Consumes p shape`: whatever `p` accepts begins with bytes of the given shape,
  and `p` takes exactly these.
* `Writes w bs` and `FailsAfter w e bs`: what `w` emits when it succeeds and what
  it has emitted when it fails.

Each comes with the rules for `pure`, `>>=` and the primitives, so that the
behaviour of a reader or a writer is read off its `do` block.
-/

namespace Framing

/-! ## Sources -/

/-- A source of bytes that ends. `unread` are the bytes still to come before the
end; `readExact n` waits for `n` bytes and is `none` if the source ends first. -/
class ByteSource (R : Type) where
  unread : R → List UInt8
  readExact : Nat → R → Option (List UInt8 × R)
  readExact_of_le {n : Nat} {r : R} : n ≤ (unread r).length →
    ∃ r', readExact n r = some ((unread r).take n, r') ∧ unread r' = (unread r).drop n
  readExact_of_lt {n : Nat} {r : R} : (unread r).length < n → readExact n r = none

/-- Fill a buffer of `n` bytes from the pieces in order, keeping what is left of
the last one. -/
def fillFrom : Nat → List (List UInt8) → Option (List UInt8 × List (List UInt8))
  | 0, pieces => some ([], pieces)
  | _ + 1, [] => none
  | n + 1, piece :: pieces =>
    if n + 1 ≤ piece.length then some (piece.take (n + 1), piece.drop (n + 1) :: pieces)
    else (fillFrom (n + 1 - piece.length) pieces).map fun x => (piece ++ x.1, x.2)

theorem fillFrom_of_le {n : Nat} {pieces : List (List UInt8)} (h : n ≤ pieces.flatten.length) :
    ∃ rest, fillFrom n pieces = some (pieces.flatten.take n, rest) ∧
      rest.flatten = pieces.flatten.drop n := by
  induction pieces generalizing n with
  | nil =>
    obtain rfl : n = 0 := by simpa using h
    exact ⟨[], by simp [fillFrom], rfl⟩
  | cons piece pieces ih =>
    cases n with
    | zero => exact ⟨piece :: pieces, by simp [fillFrom], by simp⟩
    | succ n =>
      simp only [fillFrom, List.flatten_cons]
      split
      · next hle =>
        refine ⟨piece.drop (n + 1) :: pieces, ?_, ?_⟩
        · rw [List.take_append_of_le_length hle]
        · rw [List.flatten_cons, List.drop_append_of_le_length hle]
      · next hgt =>
        have hrest : n + 1 - piece.length ≤ pieces.flatten.length := by
          simp only [List.flatten_cons, List.length_append] at h
          omega
        obtain ⟨rest, hfill, hflat⟩ := ih hrest
        have hpiece : piece.length ≤ n + 1 := by omega
        refine ⟨rest, ?_, ?_⟩
        · rw [hfill, List.take_append, List.take_of_length_le hpiece]
          rfl
        · rw [hflat, List.drop_append, List.drop_of_length_le hpiece, List.nil_append]

theorem fillFrom_of_lt {n : Nat} {pieces : List (List UInt8)} (h : pieces.flatten.length < n) :
    fillFrom n pieces = none := by
  induction pieces generalizing n with
  | nil =>
    cases n with
    | zero => simp at h
    | succ n => rfl
  | cons piece pieces ih =>
    simp only [List.flatten_cons, List.length_append] at h
    cases n with
    | zero => omega
    | succ n =>
      simp only [fillFrom]
      rw [if_neg (by omega), ih (by omega)]
      rfl

example : fillFrom 3 [[1], [], [2, 3, 4], [5]] = some ([1, 2, 3], [[4], [5]]) := by decide
example : fillFrom 3 [[1], [2]] = none := by decide

/-- A source that delivers the given pieces, in any sizes. An empty piece
delivers nothing and does not end the source. -/
structure Chunks where
  pieces : List (List UInt8)
deriving DecidableEq, Repr

instance : ByteSource Chunks where
  unread r := r.pieces.flatten
  readExact n r := (fillFrom n r.pieces).map fun x => (x.1, ⟨x.2⟩)
  readExact_of_le h := by
    obtain ⟨rest, hfill, hflat⟩ := fillFrom_of_le h
    exact ⟨⟨rest⟩, by simp [hfill], hflat⟩
  readExact_of_lt h := by simp [fillFrom_of_lt h]

@[simp] theorem unread_chunks (r : Chunks) : ByteSource.unread r = r.pieces.flatten := rfl

/-! ## Readers -/

variable {R ε α β κ : Type}

/-- A computation that takes bytes from a source and may fail. -/
abbrev ByteReader (R ε α : Type) := StateT R (Except ε) α

namespace ByteReader

/-- Take exactly `n` bytes, or fail with `eof` when the source ends before. -/
def exactly [ByteSource R] (eof : ε) (n : Nat) : ByteReader R ε (List UInt8) := fun r =>
  match ByteSource.readExact n r with
  | some x => .ok x
  | none => .error eof

/-- Fail with `e` unless `c` holds. -/
def ensure (c : Prop) [Decidable c] (e : ε) : ByteReader R ε Unit :=
  if c then pure () else throw e

/-- The value of an option, or `e`. -/
def ofOption (e : ε) : Option α → ByteReader R ε α
  | some a => pure a
  | none => throw e

theorem bind_apply (p : ByteReader R ε α) (f : α → ByteReader R ε β) (r : R) :
    (p >>= f) r = match p r with
      | .ok (a, r') => f a r'
      | .error e => .error e := by
  simp only [bind, StateT.bind, Except.bind]
  cases p r <;> rfl

end ByteReader

section Rules

variable [ByteSource R]

open ByteSource ByteReader

/-- In front of any bytes, `p` reads `bs` as `a` and nothing more. -/
def Reads (p : ByteReader R ε α) (bs : List UInt8) (a : α) : Prop :=
  ∀ r rest, unread r = bs ++ rest → ∃ r', p r = .ok (a, r') ∧ unread r' = rest

theorem Reads.pure (a : α) : Reads (R := R) (ε := ε) (Pure.pure a) [] a :=
  fun r _ h => ⟨r, rfl, by simpa using h⟩

theorem Reads.bind {p : ByteReader R ε α} {f : α → ByteReader R ε β} {bs bs' : List UInt8} {a : α}
    {b : β} (hp : Reads p bs a) (hf : Reads (f a) bs' b) : Reads (p >>= f) (bs ++ bs') b := by
  intro r rest h
  obtain ⟨r₁, hr₁, hu₁⟩ := hp r (bs' ++ rest) (by simpa using h)
  obtain ⟨r₂, hr₂, hu₂⟩ := hf r₁ rest hu₁
  exact ⟨r₂, by rw [bind_apply, hr₁]; exact hr₂, hu₂⟩

theorem Reads.map {p : ByteReader R ε α} {bs : List UInt8} {a : α} (hp : Reads p bs a) (f : α → β) :
    Reads (p >>= fun x => Pure.pure (f x)) bs (f a) := by
  have h : Reads (p >>= fun x => Pure.pure (f x)) (bs ++ []) (f a) := hp.bind (Reads.pure (f a))
  rwa [List.append_nil] at h

theorem Reads.exactly (eof : ε) {n : Nat} {bs : List UInt8} (h : bs.length = n) :
    Reads (R := R) (ByteReader.exactly eof n) bs bs := by
  intro r rest hr
  have hle : n ≤ (unread r).length := by simp [hr, h]
  obtain ⟨r', hread, hu⟩ := readExact_of_le hle
  rw [hr, List.take_left' h] at hread
  rw [hr, List.drop_left' h] at hu
  exact ⟨r', by simp only [ByteReader.exactly, hread], hu⟩

theorem Reads.ensure_bind {c : Prop} [Decidable c] {e : ε} {f : Unit → ByteReader R ε β}
    {bs : List UInt8} {b : β} (h : c) (hf : Reads (f ()) bs b) :
    Reads (ByteReader.ensure c e >>= f) bs b := by
  simpa [ByteReader.ensure, h] using hf

theorem Reads.ofOption (e : ε) {o : Option α} {a : α} (h : o = some a) :
    Reads (R := R) (ByteReader.ofOption e o) [] a := by
  subst h
  exact Reads.pure a

/-- Reading a list of items one after another: `kind` says which reader an item
needs. -/
theorem Reads.mapM {kind : α → κ} {p : κ → ByteReader R ε α} {enc : α → List UInt8} (items : List α)
    (h : ∀ x ∈ items, Reads (p (kind x)) (enc x) x) :
    Reads ((items.map kind).mapM p) (items.flatMap enc) items := by
  induction items with
  | nil => simpa using Reads.pure []
  | cons x items ih =>
    simp only [List.map_cons, List.mapM_cons, List.flatMap_cons]
    have hx := h x (by simp)
    have hrest := ih fun y hy => h y (by simp [hy])
    exact hx.bind (hrest.map (x :: ·))

/-- Whatever `p` accepts begins with bytes of shape `shape a`, and `p` takes
exactly these. -/
def Consumes (p : ByteReader R ε α) (shape : α → List UInt8 → Prop) : Prop :=
  ∀ r a r', p r = .ok (a, r') → ∃ bs, shape a bs ∧ unread r = bs ++ unread r'

theorem Consumes.mono {p : ByteReader R ε α} {shape shape' : α → List UInt8 → Prop}
    (hp : Consumes p shape) (h : ∀ a bs, shape a bs → shape' a bs) : Consumes p shape' := by
  intro r a r' hr
  obtain ⟨bs, hbs, hu⟩ := hp r a r' hr
  exact ⟨bs, h a bs hbs, hu⟩

theorem Consumes.pure (a : α) :
    Consumes (R := R) (ε := ε) (Pure.pure a) fun b bs => b = a ∧ bs = [] := by
  intro r b r' h
  cases h
  exact ⟨[], ⟨rfl, rfl⟩, rfl⟩

theorem Consumes.bind {p : ByteReader R ε α} {f : α → ByteReader R ε β}
    {shape : α → List UInt8 → Prop} {shape' : α → β → List UInt8 → Prop} (hp : Consumes p shape)
    (hf : ∀ a, Consumes (f a) (shape' a)) :
    Consumes (p >>= f) fun b bs => ∃ a bs₁ bs₂, shape a bs₁ ∧ shape' a b bs₂ ∧ bs = bs₁ ++ bs₂ := by
  intro r b r' h
  rw [bind_apply] at h
  cases hpr : p r with
  | error e => simp [hpr] at h
  | ok x =>
    obtain ⟨a, r₁⟩ := x
    rw [hpr] at h
    obtain ⟨bs₁, hs₁, hu₁⟩ := hp r a r₁ hpr
    obtain ⟨bs₂, hs₂, hu₂⟩ := hf a r₁ b r' h
    exact ⟨bs₁ ++ bs₂, ⟨a, bs₁, bs₂, hs₁, hs₂, rfl⟩, by rw [hu₁, hu₂, List.append_assoc]⟩

theorem Consumes.exactly (eof : ε) (n : Nat) :
    Consumes (R := R) (ByteReader.exactly eof n) fun a bs => bs = a ∧ a.length = n := by
  intro r a r' h
  by_cases hle : n ≤ (unread r).length
  · obtain ⟨r₁, hread, hu⟩ := readExact_of_le hle
    simp only [ByteReader.exactly, hread, Except.ok.injEq, Prod.mk.injEq] at h
    obtain ⟨rfl, rfl⟩ := h
    refine ⟨(unread r).take n, ⟨rfl, List.length_take_of_le hle⟩, ?_⟩
    rw [hu, List.take_append_drop]
  · simp [ByteReader.exactly, readExact_of_lt (Nat.lt_of_not_le hle)] at h

theorem Consumes.ensure (c : Prop) [Decidable c] (e : ε) :
    Consumes (R := R) (ByteReader.ensure c e) fun _ bs => c ∧ bs = [] := by
  intro r a r' h
  unfold ByteReader.ensure at h
  split at h
  · next hc =>
    cases h
    exact ⟨[], ⟨hc, rfl⟩, rfl⟩
  · cases h

theorem Consumes.ofOption (e : ε) (o : Option α) :
    Consumes (R := R) (ByteReader.ofOption e o) fun a bs => o = some a ∧ bs = [] := by
  intro r a r' h
  cases o with
  | none => cases h
  | some b =>
    cases h
    exact ⟨[], ⟨rfl, rfl⟩, rfl⟩

/-- A reader that reads two encodings of which one continues as the other does
reads the same value from both, and the same bytes remain. -/
theorem Reads.unique {p : ByteReader R ε α} {bs bs' rest rest' : List UInt8} {a a' : α} {r : R}
    (h : Reads p bs a) (h' : Reads p bs' a') (hr : unread r = bs ++ rest)
    (hr' : unread r = bs' ++ rest') : a = a' ∧ rest = rest' := by
  obtain ⟨r₁, h₁, hu₁⟩ := h r rest hr
  obtain ⟨r₂, h₂, hu₂⟩ := h' r rest' hr'
  rw [h₁] at h₂
  cases h₂
  exact ⟨rfl, hu₁.symm.trans hu₂⟩

end Rules

/-! ## Writers -/

/-- A computation that appends bytes to a sink and may fail; what it emitted
before it failed stays in the sink. -/
abbrev ByteWriter (ε α : Type) := ExceptT ε (StateM (List UInt8)) α

/-- Append bytes to the sink. -/
def ByteWriter.writeAll (bs : List UInt8) : ByteWriter ε Unit := fun out => (.ok (), out ++ bs)

/-- Flushing the sink emits no byte. -/
def ByteWriter.flush : ByteWriter ε Unit := pure ()

/-- Run `w` on an empty sink: its result and the bytes it emitted. -/
def ByteWriter.emitted (w : ByteWriter ε α) : Except ε α × List UInt8 := w []

/-- `w` succeeds and emits `bs`. -/
def Writes (w : ByteWriter ε Unit) (bs : List UInt8) : Prop :=
  ∀ out, w out = (.ok (), out ++ bs)

/-- `w` fails with `e` after it has emitted `bs`. -/
def FailsAfter (w : ByteWriter ε Unit) (e : ε) (bs : List UInt8) : Prop :=
  ∀ out, w out = (.error e, out ++ bs)

theorem Writes.emitted_eq {w : ByteWriter ε Unit} {bs : List UInt8} (h : Writes w bs) :
    w.emitted = (.ok (), bs) :=
  h []

theorem FailsAfter.emitted_eq {w : ByteWriter ε Unit} {e : ε} {bs : List UInt8}
    (h : FailsAfter w e bs) : w.emitted = (.error e, bs) :=
  h []

theorem Writes.pure : Writes (ε := ε) (Pure.pure ()) [] := fun out => by
  rw [List.append_nil]
  rfl

theorem Writes.writeAll (bs : List UInt8) : Writes (ε := ε) (ByteWriter.writeAll bs) bs :=
  fun _ => rfl

theorem Writes.flush : Writes (ε := ε) ByteWriter.flush [] := Writes.pure

theorem bind_of_ok {w : ByteWriter ε Unit} {f : Unit → ByteWriter ε Unit} {out out' : List UInt8}
    (h : w out = (.ok (), out')) : (w >>= f) out = f () out' := by
  simp only [bind, ExceptT.bind, ExceptT.mk, StateT.bind, h]
  rfl

theorem bind_of_error {w : ByteWriter ε Unit} {f : Unit → ByteWriter ε Unit} {out out' : List UInt8}
    {e : ε} (h : w out = (.error e, out')) : (w >>= f) out = (.error e, out') := by
  simp only [bind, ExceptT.bind, ExceptT.mk, StateT.bind, h]
  rfl

theorem Writes.bind {w : ByteWriter ε Unit} {f : Unit → ByteWriter ε Unit} {bs bs' : List UInt8}
    (hw : Writes w bs) (hf : Writes (f ()) bs') : Writes (w >>= f) (bs ++ bs') := fun out => by
  rw [bind_of_ok (hw out), hf, List.append_assoc]

theorem FailsAfter.here {w : ByteWriter ε Unit} {f : Unit → ByteWriter ε Unit} {e : ε}
    {bs : List UInt8} (hw : FailsAfter w e bs) : FailsAfter (w >>= f) e bs :=
  fun out => bind_of_error (hw out)

theorem FailsAfter.later {w : ByteWriter ε Unit} {f : Unit → ByteWriter ε Unit} {e : ε}
    {bs bs' : List UInt8} (hw : Writes w bs) (hf : FailsAfter (f ()) e bs') :
    FailsAfter (w >>= f) e (bs ++ bs') := fun out => by
  rw [bind_of_ok (hw out), hf, List.append_assoc]

end Framing
