import MiniMask.Lib.Framing

/-!
# Readers that are fed as the bytes come in

A reader that waits for the bytes it still needs takes no others: between two reads it has
some bytes and is `Awaits`-ing more. What it has when it returns is the encoding of what it
returns, and the bytes behind it are still there for whoever reads next.

* `Fed p eof got`: `got` was taken byte by byte, each of them while `p` was waiting.
* `Fed.exact`: what `p` returns on `got` is what all of `got` encodes.
* `Starves p eof bs`: `p` waits on every part of `bs`, with the rules for `>>=` and the
  primitives; so an encoding that comes in is taken to its end (`Fed.next`).
* `Headed`, `Taken`: the two ends of a pipe that carries a header and then a payload.
-/

namespace Framing

open ByteSource

variable {R ε α β : Type}

/-! ## What has been taken -/

/-- With `got` and nothing else, the reader runs out of bytes. -/
def Awaits (p : ByteReader Chunks ε α) (eof : ε) (got : List UInt8) : Prop :=
  p ⟨[got]⟩ = .error eof

def Fed (p : ByteReader Chunks ε α) (eof : ε) (got : List UInt8) : Prop :=
  ∀ front b, front ++ [b] <+: got → Awaits p eof front

section Fed

variable {p : ByteReader Chunks ε α} {eof : ε} {got : List UInt8} {a : α} {r : Chunks}
  {shape : α → List UInt8 → Prop}

theorem fed_nil : Fed p eof [] := by
  intro front b h
  obtain ⟨-, hb⟩ := List.append_eq_nil_iff.mp (List.prefix_nil.mp h)
  cases hb

theorem Fed.snoc (h : Fed p eof got) (hawaits : Awaits p eof got) (b : UInt8) :
    Fed p eof (got ++ [b]) := by
  intro front b' hfront
  rcases List.prefix_concat_iff.mp hfront with heq | hbefore
  · exact (List.append_inj' heq rfl).1 ▸ hawaits
  · exact h front b' hbefore

/-- A reader that was fed returns with nothing left over. -/
theorem Fed.exact (h : Fed p eof got) (hconsumes : Consumes p shape)
    (hreads : ∀ a bs, shape a bs → Reads p bs a) (hread : p ⟨[got]⟩ = .ok (a, r)) :
    shape a got := by
  obtain ⟨bs, hshape, hgot⟩ := hconsumes _ _ _ hread
  simp only [unread_chunks, List.flatten_cons, List.flatten_nil, List.append_nil] at hgot
  cases hrest : r.pieces.flatten with
  | nil => rwa [hgot, hrest, List.append_nil]
  | cons b rest =>
    -- The reader would have returned on `bs`, before `b` was there.
    have hawaits : Awaits p eof bs := h bs b ⟨rest, by rw [hgot, hrest, List.append_assoc]; rfl⟩
    have hbs : unread (⟨[bs]⟩ : Chunks) = bs ++ [] := by simp
    obtain ⟨r', hok, -⟩ := hreads a bs hshape ⟨[bs]⟩ [] hbs
    cases hok.symm.trans hawaits

end Fed

/-! ## What is still taken -/

/-- On less than `bs` the reader runs out of bytes. -/
def Starves [ByteSource R] (p : ByteReader R ε α) (eof : ε) (bs : List UInt8) : Prop :=
  ∀ r : R, unread r <+: bs → unread r ≠ bs → p r = .error eof

theorem Starves.awaits {p : ByteReader Chunks ε α} {eof : ε} {bs front : List UInt8} {b : UInt8}
    (h : Starves p eof bs) (hfront : front ++ [b] <+: bs) : Awaits p eof front := by
  have hunread : unread (⟨[front]⟩ : Chunks) = front := by simp
  have hpart : unread (⟨[front]⟩ : Chunks) <+: bs := by
    rw [hunread]
    exact (List.prefix_append front [b]).trans hfront
  refine h ⟨[front]⟩ hpart fun heq => ?_
  have hle := hfront.length_le
  rw [← heq, hunread, List.length_append, List.length_singleton] at hle
  exact absurd hle (Nat.not_succ_le_self _)

section Starves

variable [ByteSource R] {eof : ε} {bs bs' : List UInt8} {a : α}

theorem Starves.empty (p : ByteReader R ε α) (eof : ε) : Starves p eof [] :=
  fun _ h hne => absurd (List.prefix_nil.mp h) hne

theorem Starves.exactly {n : Nat} (h : bs.length = n) :
    Starves (R := R) (ByteReader.exactly eof n) eof bs := by
  intro r hr hne
  have hlt : (unread r).length < n :=
    h ▸ Nat.lt_of_le_of_ne hr.length_le fun heq => hne (hr.eq_of_length heq)
  rw [ByteReader.exactly, readExact_of_lt hlt]

theorem Starves.bind {p : ByteReader R ε α} {f : α → ByteReader R ε β} (hp : Starves p eof bs)
    (hreads : Reads p bs a) (hf : Starves (f a) eof bs') :
    Starves (p >>= f) eof (bs ++ bs') := by
  intro r hr hne
  rw [ByteReader.bind_apply]
  by_cases hall : bs <+: unread r
  · obtain ⟨rest, hrest⟩ := hall
    obtain ⟨r', hok, hunread⟩ := hreads r rest hrest.symm
    rw [hok]
    rw [← hrest] at hr hne
    exact hf r' (hunread ▸ (List.prefix_append_right_inj bs).mp hr) fun heq =>
      hne (by rw [← hunread, heq])
  · have hpart : unread r <+: bs :=
      (List.prefix_or_prefix_of_prefix hr (List.prefix_append bs bs')).resolve_right hall
    rw [hp r hpart fun heq => hall (heq ▸ List.prefix_rfl)]

theorem Starves.map {p : ByteReader R ε α} (hp : Starves p eof bs) (hreads : Reads p bs a)
    (f : α → β) : Starves (p >>= fun x => Pure.pure (f x)) eof bs := by
  have h := hp.bind hreads (f := fun x => Pure.pure (f x)) (Starves.empty _ eof)
  rwa [List.append_nil] at h

theorem Starves.ensure_bind {c : Prop} [Decidable c] {e : ε} {f : Unit → ByteReader R ε β}
    (h : c) (hf : Starves (f ()) eof bs) : Starves (ByteReader.ensure c e >>= f) eof bs := by
  simpa [ByteReader.ensure, h] using hf

end Starves

/-- A reader that is fed an encoding takes the next byte, or it has all of it and returns. -/
theorem Fed.next {p : ByteReader Chunks ε α} {eof : ε} {got flight header payload : List UInt8}
    {a : α} (h : Fed p eof got) (hreads : Reads p header a) (hstarves : Starves p eof header)
    (hsent : got ++ flight = header ++ payload) :
    (∃ b more, flight = b :: more ∧ got ++ [b] <+: header ∧ Awaits p eof got) ∨
      ∃ r, p ⟨[got]⟩ = .ok (a, r) := by
  have hunread : unread (⟨[header]⟩ : Chunks) = header ++ [] := by simp
  obtain ⟨r, hok, -⟩ := hreads ⟨[header]⟩ [] hunread
  rcases List.append_eq_append_iff.mp hsent with ⟨rest, hheader, hflight⟩ | ⟨more, hgot, -⟩
  · cases rest with
    | nil =>
      rw [List.append_nil] at hheader
      exact .inr ⟨r, hheader ▸ hok⟩
    | cons b rest =>
      have hpart : got ++ [b] <+: header := ⟨rest, by rw [hheader, List.append_assoc]; rfl⟩
      exact .inl ⟨b, rest ++ payload, hflight, hpart, hstarves.awaits hpart⟩
  · cases more with
    | nil =>
      rw [List.append_nil] at hgot
      exact .inr ⟨r, hgot ▸ hok⟩
    | cons b more =>
      -- it has returned on the header, before `b` was there
      have hawaits : Awaits p eof header :=
        h header b ⟨more, by rw [hgot, List.append_assoc]; rfl⟩
      cases hok.symm.trans hawaits

/-! ## Headers -/

section Headers

variable {header sent payload received got : List α}

/-- A part of the header was sent, or the header and then the payload. -/
def Headed (header sent payload : List α) : Prop :=
  sent <+: header ∧ payload = [] ∨ sent = header ++ payload

/-- Nothing was taken of the payload, or what is behind the header was. -/
def Taken (header received got : List α) : Prop := got = [] ∨ received = header ++ got

theorem Headed.sent_le (h : Headed header sent payload) : sent <+: header ++ payload := by
  rcases h with ⟨hpart, -⟩ | heq
  · exact hpart.trans (List.prefix_append _ _)
  · exact heq ▸ List.prefix_rfl

/-- What was taken of the payload comes first in it. -/
theorem Headed.taken (h : Headed header sent payload) (htaken : Taken header received got)
    (hreceived : received <+: sent) : got <+: payload := by
  rcases htaken with rfl | rfl
  · exact List.nil_prefix
  · exact (List.prefix_append_right_inj header).mp (hreceived.trans h.sent_le)

end Headers

end Framing
