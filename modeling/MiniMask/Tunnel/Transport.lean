import MiniMask.Lib.Feeding
import MiniMask.Lib.Pipe
import MiniMask.Tunnel.Admission

/-!
# A tunnel connection (`run_once`, from the handshake on, and `handle_tunnel`)

What `run_once` writes and reads, what `handle_tunnel` reads and answers, and the yamux
session behind, whose bytes go over the same two pipes. Either end may stop at any time.

* `Sound`: what was sent and taken on either side, by where its end stands.
* `Sound.delivered`: neither yamux sees a byte of the handshake, or misses one that is behind
  it.
-/

namespace MiniMask.Tunnel

open Framing
open Protocol (ProtocolError Fits statusOk statusFail writeHandshake writeStatus handshakeBytes
  lpStr)

namespace Transport

/-! ## One connection -/

/-- Where `run_once` stands. -/
inductive ClientStage
  | announcing (rest : List UInt8) (res : Except ProtocolError Unit)
  | waiting (got : List UInt8)
  | connected
  | refused (msg : String)
  | ended

/-- Where `handle_tunnel` stands with the connection. -/
inductive ServerStage
  | reading (got : List UInt8)
  | announced (id token : String)
  | answering (a : Admission) (rest : List UInt8)
  | connected
  | closed

/-- A connection of a client that was started with `id` and `token`. The yamux of the client
has sent `upSent`, and that of the server has received `upGot` of it; `down` likewise. `answer`
is what the server has begun to answer. -/
structure Conn where
  id : String
  token : String
  up : Pipe UInt8
  down : Pipe UInt8
  client : ClientStage
  server : ServerStage
  answer : Option Admission
  upSent : List UInt8
  upGot : List UInt8
  downSent : List UInt8
  downGot : List UInt8

def Conn.init (id token : String) : Conn where
  id := id
  token := token
  up := .empty
  down := .empty
  client := .announcing (writeHandshake id token).emitted.2 (writeHandshake id token).emitted.1
  server := .reading []
  answer := none
  upSent := []
  upGot := []
  downSent := []
  downGot := []

inductive ConnEvent
  | sendHandshake (n : Nat)
  | handshakeSent
  | readStatus (b : UInt8)
  | statusRead
  | clientSends (bytes : List UInt8)
  | clientReceives (n : Nat)
  | clientEnds
  | readHandshake (b : UInt8)
  | handshakeRead
  | answers (a : Admission)
  | sendStatus (n : Nat)
  | statusSent
  | serverSends (bytes : List UInt8)
  | serverReceives (n : Nat)
  | serverCloses

/-- A step of either end. `read_exact` takes a byte only while it waits for one; a write, a read
or a timeout that fails ends a side. -/
inductive ConnStep (c : Conn) : ConnEvent → Conn → Prop
  | sendHandshake (n : Nat) {rest : List UInt8} {res : Except ProtocolError Unit} :
      c.client = .announcing rest res →
      ConnStep c (.sendHandshake n)
        { c with up := c.up.send (rest.take n), client := .announcing (rest.drop n) res }
  | handshakeSent :
      c.client = .announcing [] (.ok ()) →
      ConnStep c .handshakeSent { c with client := .waiting [] }
  | readStatus {got more : List UInt8} {b : UInt8} :
      c.client = .waiting got → Awaits Protocol.readStatus .earlyEof got →
      c.down.inFlight = b :: more →
      ConnStep c (.readStatus b)
        { c with down := c.down.receive 1, client := .waiting (got ++ [b]) }
  | statusRead {got : List UInt8} {ok : Bool} {msg : String} {rest : Chunks} :
      c.client = .waiting got → Protocol.readStatus (⟨[got]⟩ : Chunks) = .ok ((ok, msg), rest) →
      ConnStep c .statusRead { c with client := if ok then .connected else .refused msg }
  | clientSends (bytes : List UInt8) :
      c.client = .connected →
      ConnStep c (.clientSends bytes)
        { c with up := c.up.send bytes, upSent := c.upSent ++ bytes }
  | clientReceives (n : Nat) :
      c.client = .connected →
      ConnStep c (.clientReceives n)
        { c with down := c.down.receive n, downGot := c.downGot ++ c.down.inFlight.take n }
  | clientEnds :
      (∀ msg, c.client ≠ .refused msg) → ConnStep c .clientEnds { c with client := .ended }
  | readHandshake {got more : List UInt8} {b : UInt8} :
      c.server = .reading got → Awaits Protocol.readHandshake .earlyEof got →
      c.up.inFlight = b :: more →
      ConnStep c (.readHandshake b)
        { c with up := c.up.receive 1, server := .reading (got ++ [b]) }
  | handshakeRead {got : List UInt8} {id token : String} {rest : Chunks} :
      c.server = .reading got →
      Protocol.readHandshake (⟨[got]⟩ : Chunks) = .ok ((id, token), rest) →
      ConnStep c .handshakeRead { c with server := .announced id token }
  | answers {a : Admission} {id token msg : String} {ok : Bool} :
      c.server = .announced id token → a.status = some (ok, msg) →
      ConnStep c (.answers a)
        { c with server := .answering a (writeStatus ok msg).emitted.2, answer := some a }
  | sendStatus (n : Nat) {a : Admission} {rest : List UInt8} :
      c.server = .answering a rest →
      ConnStep c (.sendStatus n)
        { c with down := c.down.send (rest.take n), server := .answering a (rest.drop n) }
  | statusSent {a : Admission} {ok : Bool} {msg : String} :
      c.server = .answering a [] → a.status = some (ok, msg) →
      ConnStep c .statusSent { c with server := if ok then .connected else .closed }
  | serverSends (bytes : List UInt8) :
      c.server = .connected →
      ConnStep c (.serverSends bytes)
        { c with down := c.down.send bytes, downSent := c.downSent ++ bytes }
  | serverReceives (n : Nat) :
      c.server = .connected →
      ConnStep c (.serverReceives n)
        { c with up := c.up.receive n, upGot := c.upGot ++ c.up.inFlight.take n }
  | serverCloses :
      (∀ id token, c.server ≠ .announced id token) →
      ConnStep c .serverCloses { c with server := .closed }

/-! ## The messages byte by byte -/

section Messages

variable {R : Type} [ByteSource R] {id token id' token' msg : String} {ok : Bool}
  {sent payload got : List UInt8} {a : Admission}

theorem starves_lpStr (h : Fits msg) :
    Starves (R := R) Protocol.readLpStr .earlyEof (lpStr msg) := by
  have hlen : (Protocol.asBytes msg).length =
      (Protocol.fromBeBytes (Protocol.toBeBytes
        (UInt16.ofNat (Protocol.asBytes msg).length))).toNat := by
    rw [Protocol.fromBeBytes_toBeBytes]
    exact (UInt16.toNat_ofNat_of_lt' (Nat.lt_succ_of_le h)).symm
  have hbuf : Starves (R := R) (ByteReader.exactly ProtocolError.earlyEof _ >>= fun buf =>
      ByteReader.ofOption ProtocolError.invalidUtf8 (Protocol.fromUtf8 buf)) .earlyEof
      (Protocol.asBytes msg ++ []) :=
    (Starves.exactly hlen).bind (Reads.exactly _ hlen) (Starves.empty _ _)
  rw [List.append_nil] at hbuf
  exact (Starves.exactly (Protocol.length_toBeBytes _)).bind
    (Reads.exactly _ (Protocol.length_toBeBytes _)) hbuf

theorem starves_handshake (hid : Fits id) (htoken : Fits token) :
    Starves (R := R) Protocol.readHandshake .earlyEof (handshakeBytes id token) := by
  refine (Starves.exactly (R := R) rfl).bind (Reads.exactly _ rfl) ?_
  refine Starves.ensure_bind rfl ?_
  refine (Starves.exactly (R := R) rfl).bind (Reads.exactly _ rfl) ?_
  refine Starves.ensure_bind rfl ?_
  refine (starves_lpStr hid).bind (Protocol.reads_lpStr hid) ?_
  exact (starves_lpStr htoken).map (Protocol.reads_lpStr htoken) _

theorem starves_status (h : Fits msg) (b : UInt8) :
    Starves (R := R) Protocol.readStatus .earlyEof ([b] ++ lpStr msg) := by
  refine (Starves.exactly (R := R) rfl).bind (Reads.exactly _ rfl) ?_
  exact (starves_lpStr h).map (Protocol.reads_lpStr h) _

/-- What `read_status` takes for `x`. -/
def StatusBytes (x : Bool × String) (bs : List UInt8) : Prop :=
  ∃ b : UInt8, (b == statusOk) = x.1 ∧ Fits x.2 ∧ bs = [b] ++ lpStr x.2

theorem reads_statusBytes (x : Bool × String) (bs : List UInt8) (h : StatusBytes x bs) :
    Reads (R := R) Protocol.readStatus bs x := by
  obtain ⟨ok, msg⟩ := x
  obtain ⟨b, rfl, hfits, rfl⟩ := h
  refine (Reads.exactly (R := R) _ rfl).bind ?_
  exact (Protocol.reads_lpStr hfits).map _

theorem consumes_statusBytes : Consumes (R := R) Protocol.readStatus StatusBytes := by
  have parts := (Consumes.exactly (R := R) ProtocolError.earlyEof 1).bind fun s =>
    (Protocol.consumes_lpStr (R := R)).bind fun msg =>
      Consumes.pure (R := R) (ε := ProtocolError) (s.headD 0 == statusOk, msg)
  refine parts.mono ?_
  rintro x bs ⟨s, _, _, ⟨rfl, hlength⟩, ⟨msg, _, _, ⟨hfits, rfl⟩, ⟨rfl, rfl⟩, rfl⟩, rfl⟩
  obtain ⟨b, rfl⟩ := List.length_eq_one_iff.mp hlength
  exact ⟨b, rfl, hfits, by rw [List.append_nil]⟩

end Messages

/-! ## What went over a connection -/

/-- What `write_status` writes for an answer. -/
def answerBytes (a : Admission) : List UInt8 :=
  match a.status with
  | some (ok, msg) => (writeStatus ok msg).emitted.2
  | none => []

/-- Nothing was sent, or the answer and then `payload`. -/
def Answered (answer : Option Admission) (sent payload : List UInt8) : Prop :=
  match answer with
  | none => sent = [] ∧ payload = []
  | some a => Headed (answerBytes a) sent payload

/-- The client has sent its handshake, and then `payload`. -/
def ClientStage.Sent (hello : Except ProtocolError Unit × List UInt8)
    (sent payload : List UInt8) : ClientStage → Prop
  | .announcing rest res => sent ++ rest = hello.2 ∧ res = hello.1 ∧ payload = []
  | .ended => Headed hello.2 sent payload ∧ (hello.1 = .ok () ∨ payload = [])
  | .waiting _ | .connected | .refused _ => hello.1 = .ok () ∧ sent = hello.2 ++ payload

/-- The client has taken the answer, and then `payload`. -/
def ClientStage.Took (answer : Option Admission) (received payload : List UInt8) :
    ClientStage → Prop
  | .announcing _ _ => received = [] ∧ payload = []
  | .waiting got => received = got ∧ Fed Protocol.readStatus .earlyEof got ∧ payload = []
  | .connected => ∃ a msg, answer = some a ∧ a.status = some (true, msg) ∧
      received = answerBytes a ++ payload
  | .refused msg => payload = [] ∧ ∃ a, answer = some a ∧ a.status = some (false, msg)
  | .ended => payload = [] ∨ ∃ a, answer = some a ∧ received = answerBytes a ++ payload

/-- The server has taken the handshake, and then `payload`. -/
def ServerStage.Took (id token : String) (received payload : List UInt8) : ServerStage → Prop
  | .reading got => received = got ∧ Fed Protocol.readHandshake .earlyEof got ∧ payload = []
  | .announced id' token' => (id' = id ∧ token' = token) ∧
      received = (writeHandshake id token).emitted.2 ∧ payload = []
  | .answering _ _ | .connected => received = (writeHandshake id token).emitted.2 ++ payload
  | .closed => Taken (writeHandshake id token).emitted.2 received payload

/-- The server has sent its answer, and then `payload`. -/
def ServerStage.Sent (answer : Option Admission) (sent payload : List UInt8) :
    ServerStage → Prop
  | .reading _ | .announced _ _ => answer = none ∧ sent = [] ∧ payload = []
  | .answering a rest => answer = some a ∧ sent ++ rest = answerBytes a ∧ payload = []
  | .connected => ∃ a, answer = some a ∧ sent = answerBytes a ++ payload
  | .closed => Answered answer sent payload

structure Sound (c : Conn) : Prop where
  clientSent : c.client.Sent (writeHandshake c.id c.token).emitted c.up.sent c.upSent
  clientTook : c.client.Took c.answer c.down.received c.downGot
  serverTook : c.server.Took c.id c.token c.up.received c.upGot
  serverSent : c.server.Sent c.answer c.down.sent c.downSent
  status : ∀ a, c.answer = some a → ∃ x, a.status = some x

section Connection

variable {c d : Conn} {e : ConnEvent} {id token id' token' msg : String}
  {sent payload received got : List UInt8} {answer : Option Admission} {a : Admission}
  {x : Bool × String}

theorem ClientStage.Sent.headed {hello : Except ProtocolError Unit × List UInt8}
    {stage : ClientStage} (h : stage.Sent hello sent payload) :
    Headed hello.2 sent payload ∧ (hello.1 = .ok () ∨ payload = []) := by
  cases stage with
  | announcing rest res =>
    obtain ⟨hsent, -, hnone⟩ := h
    exact ⟨.inl ⟨⟨rest, hsent⟩, hnone⟩, .inr hnone⟩
  | ended => exact h
  | waiting _ | connected | refused _ => exact ⟨.inr h.2, .inl h.1⟩

theorem ServerStage.Took.taken {stage : ServerStage} (h : stage.Took id token received payload) :
    Taken (writeHandshake id token).emitted.2 received payload := by
  cases stage with
  | reading _ | announced _ _ => exact .inl h.2.2
  | answering _ _ | connected => exact .inr h
  | closed => exact h

theorem ServerStage.Sent.answered {stage : ServerStage} (h : stage.Sent answer sent payload) :
    Answered answer sent payload := by
  cases stage with
  | reading _ | announced _ _ =>
    obtain ⟨rfl, hnothing⟩ := h
    exact hnothing
  | answering a rest =>
    obtain ⟨rfl, hsent, hnone⟩ := h
    exact .inl ⟨⟨rest, hsent⟩, hnone⟩
  | connected =>
    obtain ⟨a, rfl, hsent⟩ := h
    exact .inr hsent
  | closed => exact h

/-- A handshake that has arrived is the one of the client. -/
theorem announced_eq (hsent : Headed (writeHandshake id token).emitted.2 sent payload)
    (hok : (writeHandshake id token).emitted.1 = .ok () ∨ payload = [])
    (hfits : Fits id' ∧ Fits token') (harrived : handshakeBytes id' token' <+: sent) :
    (id' = id ∧ token' = token) ∧
      handshakeBytes id' token' = (writeHandshake id token).emitted.2 := by
  obtain ⟨rest, hrest⟩ := harrived.trans hsent.sent_le
  cases hemitted : (writeHandshake id token).emitted with
  | mk res bytes =>
    rw [hemitted] at hrest hok
    cases res with
    | ok _ =>
      obtain ⟨hfits', rfl⟩ := Protocol.handshake_emitted_ok.mp hemitted
      obtain ⟨heq, -⟩ := Protocol.handshakeBytes_unique hfits hfits' hrest
      obtain ⟨rfl, rfl⟩ := Prod.mk.inj heq
      exact ⟨⟨rfl, rfl⟩, rfl⟩
    | error _ =>
      -- What was written before the error is not the start of a handshake.
      have hnone : payload = [] := hok.resolve_left nofun
      rw [hnone, List.append_nil] at hrest
      exact absurd hrest.symm (Protocol.emitted_partial hemitted hfits)

theorem fits_status (h : a.status = some x) : Fits x.2 := by
  cases a with
  | unreadable _ => cases h
  | invalidToken | rejected _ | registered _ =>
    cases h
    decide

theorem answerBytes_eq (h : a.status = some x) :
    answerBytes a = [if x.1 then statusOk else statusFail] ++ lpStr x.2 := by
  unfold answerBytes
  rw [h]
  exact congrArg Prod.snd (Protocol.writes_status (fits_status h)).emitted_eq

/-- A status that has arrived is the answer of the server. -/
theorem status_eq (hsent : Answered answer sent payload)
    (hstatus : ∀ a, answer = some a → ∃ x, a.status = some x) (hgot : StatusBytes x got)
    (harrived : got <+: sent) :
    ∃ a, answer = some a ∧ a.status = some x ∧ got = answerBytes a := by
  obtain ⟨b, hb, hfits, rfl⟩ := hgot
  cases answer with
  | none =>
    rw [hsent.1] at harrived
    cases List.prefix_nil.mp harrived
  | some a =>
    obtain ⟨⟨ok, msg⟩, hx⟩ := hstatus a rfl
    obtain ⟨rest, hrest⟩ := harrived.trans (Headed.sent_le hsent)
    rw [answerBytes_eq hx] at hrest
    obtain ⟨rfl, htext⟩ := List.cons.inj hrest
    obtain ⟨hmsg, -⟩ := Protocol.lpStr_unique hfits (fits_status hx) htext
    refine ⟨a, rfl, hx.trans (congrArg some (Prod.ext ?_ hmsg.symm)), ?_⟩
    · rw [← hb]
      cases ok <;> rfl
    · rw [answerBytes_eq hx, hmsg]

/-- A byte that is read goes from the pipe to what was got. -/
theorem received_next {p : Pipe UInt8} {b : UInt8} {more : List UInt8}
    (h : p.inFlight = b :: more) : (p.receive 1).received = p.received ++ [b] := by
  rw [Pipe.received_receive, h]
  rfl

theorem sound_init (id token : String) : Sound (Conn.init id token) where
  clientSent := ⟨List.nil_append _, rfl, rfl⟩
  clientTook := ⟨rfl, rfl⟩
  serverTook := ⟨rfl, fed_nil, rfl⟩
  serverSent := ⟨rfl, rfl, rfl⟩
  status := nofun

/-- Where the client cannot have an answer yet, the server may begin one. -/
theorem ClientStage.Took.answers {stage : ClientStage} (h : stage.Took none received payload) :
    stage.Took answer received payload := by
  cases stage with
  | announcing _ _ | waiting _ => exact h
  | connected =>
    obtain ⟨_, _, hnone, -⟩ := h
    cases hnone
  | refused _ =>
    obtain ⟨-, _, hnone, -⟩ := h
    cases hnone
  | ended =>
    refine h.imp_right ?_
    rintro ⟨_, hnone, -⟩
    cases hnone

theorem ClientStage.Took.ends {stage : ClientStage} (h : stage.Took answer received payload) :
    ClientStage.ended.Took answer received payload := by
  cases stage with
  | announcing _ _ => exact .inl h.2
  | waiting _ => exact .inl h.2.2
  | connected =>
    obtain ⟨a, _, hanswer, -, hreceived⟩ := h
    exact .inr ⟨a, hanswer, hreceived⟩
  | refused _ => exact .inl h.1
  | ended => exact h

theorem sound_step (h : Sound c) (hs : ConnStep c e d) : Sound d := by
  obtain ⟨hclientSent, hclientTook, hserverTook, hserverSent, hstatus⟩ := h
  cases hs with
  | @sendHandshake n rest res hstage =>
    rw [hstage] at hclientSent hclientTook
    obtain ⟨hsent, hres, hnone⟩ := hclientSent
    refine ⟨⟨?_, hres, hnone⟩, hclientTook, hserverTook, hserverSent, hstatus⟩
    rw [Pipe.sent_send, List.append_assoc, List.take_append_drop, hsent]
  | handshakeSent hstage =>
    rw [hstage] at hclientSent hclientTook
    obtain ⟨hsent, hres, hnone⟩ := hclientSent
    rw [List.append_nil] at hsent
    exact ⟨⟨hres.symm, by rw [hsent, hnone, List.append_nil]⟩,
      ⟨hclientTook.1, fed_nil, hclientTook.2⟩, hserverTook, hserverSent, hstatus⟩
  | @readStatus got more b hstage hawaits hnext =>
    rw [hstage] at hclientSent hclientTook
    obtain ⟨hreceived, hfed, hnone⟩ := hclientTook
    refine ⟨hclientSent, ⟨?_, hfed.snoc hawaits b, hnone⟩, hserverTook, hserverSent, hstatus⟩
    rw [received_next hnext, hreceived]
  | @statusRead got ok msg rest hstage hread =>
    rw [hstage] at hclientSent hclientTook
    obtain ⟨hreceived, hfed, hnone⟩ := hclientTook
    have hgot : StatusBytes (ok, msg) got := hfed.exact consumes_statusBytes reads_statusBytes hread
    obtain ⟨a, hanswer, hx, rfl⟩ := status_eq hserverSent.answered hstatus hgot
      (hreceived ▸ c.down.ordered)
    cases ok with
    | true =>
      exact ⟨hclientSent, ⟨a, msg, hanswer, hx, by rw [hreceived, hnone, List.append_nil]⟩,
        hserverTook, hserverSent, hstatus⟩
    | false => exact ⟨hclientSent, ⟨hnone, a, hanswer, hx⟩, hserverTook, hserverSent, hstatus⟩
  | clientSends bytes hstage =>
    rw [hstage] at hclientSent hclientTook
    refine ⟨?_, ?_, hserverTook, hserverSent, hstatus⟩
    · rw [hstage]
      exact ⟨hclientSent.1, by rw [Pipe.sent_send, hclientSent.2, List.append_assoc]⟩
    · rw [hstage]
      exact hclientTook
  | clientReceives n hstage =>
    rw [hstage] at hclientSent hclientTook
    obtain ⟨a, msg, hanswer, hx, hreceived⟩ := hclientTook
    refine ⟨?_, ?_, hserverTook, hserverSent, hstatus⟩
    · rw [hstage]
      exact hclientSent
    · rw [hstage]
      exact ⟨a, msg, hanswer, hx, by rw [Pipe.received_receive, hreceived, List.append_assoc]⟩
  | clientEnds _ =>
    exact ⟨hclientSent.headed, hclientTook.ends, hserverTook, hserverSent, hstatus⟩
  | @readHandshake got more b hstage hawaits hnext =>
    rw [hstage] at hserverTook hserverSent
    obtain ⟨hreceived, hfed, hnone⟩ := hserverTook
    refine ⟨hclientSent, hclientTook, ⟨?_, hfed.snoc hawaits b, hnone⟩, hserverSent, hstatus⟩
    rw [received_next hnext, hreceived]
  | @handshakeRead got id token rest hstage hread =>
    rw [hstage] at hserverTook hserverSent
    obtain ⟨hreceived, hfed, hnone⟩ := hserverTook
    obtain ⟨hfits, rfl⟩ := hfed.exact Protocol.consumes_handshake
      (fun x bs hx => hx.2 ▸ Protocol.reads_handshake hx.1.1 hx.1.2) hread
    obtain ⟨hsent, hok⟩ := hclientSent.headed
    obtain ⟨hsame, hframe⟩ := announced_eq hsent hok hfits (hreceived ▸ c.up.ordered)
    exact ⟨hclientSent, hclientTook, ⟨hsame, hreceived.trans hframe, hnone⟩, hserverSent, hstatus⟩
  | @answers a id token msg ok hstage hx =>
    rw [hstage] at hserverTook hserverSent
    obtain ⟨-, hreceived, hgot⟩ := hserverTook
    obtain ⟨hanswer, hsent, hnone⟩ := hserverSent
    rw [hanswer] at hclientTook
    refine ⟨hclientSent, hclientTook.answers, ?_, ⟨rfl, ?_, hnone⟩, fun a' heq => ?_⟩
    · show c.up.received = _ ++ c.upGot
      rw [hreceived, hgot, List.append_nil]
    · show c.down.sent ++ (writeStatus ok msg).emitted.2 = answerBytes a
      rw [hsent, List.nil_append, answerBytes, hx]
    · cases heq
      exact ⟨_, hx⟩
  | @sendStatus n a rest hstage =>
    rw [hstage] at hserverTook hserverSent
    obtain ⟨hanswer, hsent, hnone⟩ := hserverSent
    refine ⟨hclientSent, hclientTook, hserverTook, ⟨hanswer, ?_, hnone⟩, hstatus⟩
    rw [Pipe.sent_send, List.append_assoc, List.take_append_drop, hsent]
  | @statusSent a ok msg hstage hx =>
    rw [hstage] at hserverTook hserverSent
    obtain ⟨hanswer, hsent, hnone⟩ := hserverSent
    rw [List.append_nil] at hsent
    have hall : c.down.sent = answerBytes a ++ c.downSent := by rw [hsent, hnone, List.append_nil]
    cases ok with
    | true => exact ⟨hclientSent, hclientTook, hserverTook, ⟨a, hanswer, hall⟩, hstatus⟩
    | false =>
      refine ⟨hclientSent, hclientTook, .inr hserverTook, ?_, hstatus⟩
      show Answered c.answer c.down.sent c.downSent
      rw [hanswer]
      exact .inr hall
  | serverSends bytes hstage =>
    rw [hstage] at hserverTook hserverSent
    obtain ⟨a, hanswer, hsent⟩ := hserverSent
    refine ⟨hclientSent, hclientTook, ?_, ?_, hstatus⟩
    · rw [hstage]
      exact hserverTook
    · rw [hstage]
      exact ⟨a, hanswer, by rw [Pipe.sent_send, hsent, List.append_assoc]⟩
  | serverReceives n hstage =>
    rw [hstage] at hserverTook hserverSent
    refine ⟨hclientSent, hclientTook, ?_, ?_, hstatus⟩
    · rw [hstage]
      show (c.up.receive n).received = _
      rw [Pipe.received_receive, show c.up.received = _ from hserverTook, List.append_assoc]
    · rw [hstage]
      exact hserverSent
  | serverCloses _ =>
    exact ⟨hclientSent, hclientTook, hserverTook.taken, hserverSent.answered, hstatus⟩

/-- Neither yamux receives anything but what the other one sent, in order. -/
theorem Sound.delivered (h : Sound c) : c.upGot <+: c.upSent ∧ c.downGot <+: c.downSent := by
  refine ⟨h.clientSent.headed.1.taken h.serverTook.taken c.up.ordered, ?_⟩
  have hended := h.clientTook.ends
  rcases hended with hnone | ⟨a, hanswer, hreceived⟩
  · exact hnone ▸ List.nil_prefix
  · have hanswered := h.serverSent.answered
    rw [hanswer] at hanswered
    exact Headed.taken hanswered (.inr hreceived) c.down.ordered

end Connection

end Transport

end MiniMask.Tunnel
