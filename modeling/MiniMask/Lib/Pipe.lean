import Mathlib.Data.List.Infix

/-!
# Reliable byte pipes

One direction of a connection that loses, repeats and reorders nothing: what was
received is a prefix of what was sent, and the structure carries the proof. A pipe
of bounded capacity is one whose sender leaves room.

`Relayed` is what a program that copies from one pipe to the next one keeps.
-/

/-- What went in at one end of a connection and what came out at the other. -/
@[ext] structure Pipe (α : Type) where
  sent : List α
  received : List α
  ordered : received <+: sent

namespace Pipe

variable {α : Type}

def empty : Pipe α := ⟨[], [], List.prefix_rfl⟩

/-- A pipe into which all of `items` was sent. -/
def ofSent (items : List α) : Pipe α := ⟨items, [], List.nil_prefix⟩

/-- What was sent and not received. -/
def inFlight (p : Pipe α) : List α := p.sent.drop p.received.length

def send (p : Pipe α) (items : List α) : Pipe α :=
  ⟨p.sent ++ items, p.received, p.ordered.trans (List.prefix_append _ _)⟩

theorem received_append_inFlight (p : Pipe α) : p.received ++ p.inFlight = p.sent :=
  (List.prefix_append_drop p.ordered).symm

/-- The next `n` items come out, or all there are. -/
def receive (p : Pipe α) (n : Nat) : Pipe α where
  sent := p.sent
  received := p.received ++ p.inFlight.take n
  ordered := by
    have hprefix : p.received ++ p.inFlight.take n <+: p.received ++ p.inFlight :=
      (List.prefix_append_right_inj _).mpr (List.take_prefix n _)
    rwa [received_append_inFlight] at hprefix

@[simp] theorem sent_send (p : Pipe α) (items : List α) : (p.send items).sent = p.sent ++ items := rfl

@[simp] theorem received_send (p : Pipe α) (items : List α) :
    (p.send items).received = p.received := rfl

@[simp] theorem sent_receive (p : Pipe α) (n : Nat) : (p.receive n).sent = p.sent := rfl

@[simp] theorem received_receive (p : Pipe α) (n : Nat) :
    (p.receive n).received = p.received ++ p.inFlight.take n := rfl

@[simp] theorem inFlight_empty : (empty : Pipe α).inFlight = [] := rfl

@[simp] theorem inFlight_ofSent (items : List α) : (ofSent items).inFlight = items := rfl

@[simp] theorem inFlight_send (p : Pipe α) (items : List α) :
    (p.send items).inFlight = p.inFlight ++ items :=
  List.drop_append_of_le_length p.ordered.length_le

@[simp] theorem inFlight_receive (p : Pipe α) (n : Nat) :
    (p.receive n).inFlight = p.inFlight.drop n := by
  have hsplit := (p.receive n).received_append_inFlight
  rw [sent_receive, ← p.received_append_inFlight, received_receive, List.append_assoc] at hsplit
  have hrest := List.append_cancel_left hsplit
  exact List.append_cancel_left (hrest.trans (List.take_append_drop n p.inFlight).symm)

/-- What is sent in two parts is sent. -/
theorem send_append (p : Pipe α) (xs ys : List α) : p.send (xs ++ ys) = (p.send xs).send ys := by
  ext1
  · exact (List.append_assoc _ _ _).symm
  · rfl

/-- What is received in two parts is received. -/
theorem receive_add (p : Pipe α) (m n : Nat) : p.receive (m + n) = (p.receive m).receive n := by
  ext1
  · rfl
  · simp [List.take_add]

theorem receive_zero (p : Pipe α) : p.receive 0 = p := by
  ext1
  · rfl
  · simp

/-- What is next in the pipe comes out. -/
theorem received_receive_length {p : Pipe α} {items : List α} (h : items <+: p.inFlight) :
    (p.receive items.length).received = p.received ++ items := by
  rw [received_receive, ← List.prefix_iff_eq_take.mp h]

end Pipe

/-! ## Relays -/

/-- A relay has sent on what it took from `source`, except for what it holds. One that
has stopped holds nothing, and what it held is lost. -/
def Relayed {α : Type} (held : Option (List α)) (source sent : List α) : Prop :=
  match held with
  | some items => sent ++ items = source
  | none => sent <+: source

namespace Relayed

variable {α : Type} {held : Option (List α)} {source sent items items' taken given : List α}

theorem isPrefix (h : Relayed held source sent) : sent <+: source := by
  cases held with
  | none => exact h
  | some items => exact ⟨items, h⟩

theorem stop (h : Relayed held source sent) : Relayed none source sent := h.isPrefix

/-- A relay that gives what it held or takes, in order, goes on relaying. -/
theorem move (h : Relayed (some items) source sent) (hmove : items ++ taken = given ++ items') :
    Relayed (some items') (source ++ taken) (sent ++ given) := by
  have hsource : sent ++ items = source := h
  show sent ++ given ++ items' = source ++ taken
  rw [← hsource, List.append_assoc, List.append_assoc, hmove]

/-- A relay that stops while it moves items has sent a prefix if it gives no others. -/
theorem stop_move (h : Relayed (some items) source sent) (hmove : given <+: items ++ taken) :
    Relayed none (source ++ taken) (sent ++ given) := by
  have hsource : sent ++ items = source := h
  show sent ++ given <+: source ++ taken
  rw [← hsource, List.append_assoc]
  exact (List.prefix_append_right_inj sent).mpr hmove

end Relayed
