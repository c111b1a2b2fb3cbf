import MiniMask.Client.Bridge
import MiniMask.Lib.Pipe
import MiniMask.Protocol
import MiniMask.Tunnel.CopyCount

/-!
# One connection from the visitor to the local service

The three connections that a visitor's bytes go through (visitor to server, a yamux
stream to the client, client to the local service), and the two programs between them:
`proxy_connection`, which sends the target and then copies with two `copy_count`s, and
`handle_client_stream`, which reads the target, dials it and copies with one loop.

Everybody may send, receive, stop and fail at any time. `byte_exact` is what both ends
then know of each other.
-/

namespace MiniMask.EndToEnd

open Lts Protocol Framing
open Proxy (Dir)

/-! ## Definitions -/

/-- Where `proxy_connection` stands. While it sends the target, `rest` is what is still
to be sent and `res` is how `write_target` will end. -/
inductive ProxyStage
  | sendingTarget (rest : List UInt8) (res : Except ProtocolError Unit)
  | copying (out inc : CopyCount)
  | ended

/-- The `select!` over the two loops: the first to return ends the connection. -/
def ProxyStage.select (out inc : CopyCount) : ProxyStage :=
  match out.phase, inc.phase with
  | .returned _, _ => .ended
  | _, .returned _ => .ended
  | _, _ => .copying out inc

/-- Where `handle_client_stream` stands. `got` is what it has of the target's frame. -/
inductive ClientStage
  | readingTarget (got : List UInt8)
  | dialing (target : String)
  | bridging (b : Bridge)
  | ended

def ClientStage.ofBridge (b : Bridge) : ClientStage :=
  match b.phase with
  | .returned _ => .ended
  | _ => .bridging b

/-- The pipes in the direction of the service are `Out`, the other ones `Inc`. `dialed`
is what `TcpStream::connect` was called with. -/
structure State where
  visitorOut : Pipe UInt8
  visitorInc : Pipe UInt8
  streamOut : Pipe UInt8
  streamInc : Pipe UInt8
  serviceOut : Pipe UInt8
  serviceInc : Pipe UInt8
  proxy : ProxyStage
  client : ClientStage
  dialed : Option String

/-- A visitor was admitted and its stream is open. -/
def init (target : String) : State where
  visitorOut := .empty
  visitorInc := .empty
  streamOut := .empty
  streamInc := .empty
  serviceOut := .empty
  serviceInc := .empty
  proxy := .sendingTarget (writeTarget target).emitted.2 (writeTarget target).emitted.1
  client := .readingTarget []
  dialed := none

/-- How much `read_lp_str` wants in all, when it has `got`: the length, and then what
the length says. -/
def frameLength (got : List UInt8) : Nat :=
  if got.length < 2 then 2 else 2 + (fromBeBytes (got.take 2)).toNat

inductive Event
  | visitorSends (bytes : List UInt8)
  | visitorReceives (n : Nat)
  | serviceSends (bytes : List UInt8)
  | serviceReceives (n : Nat)
  | sendTarget (n : Nat)
  | targetSent
  | copyOut (a : CopyCount.Act)
  | copyInc (a : CopyCount.Act)
  | proxyEnds
  | readTarget (bytes : List UInt8)
  | targetRead
  | connected
  | bridge (a : Bridge.Act)
  | clientEnds

inductive Step (s : State) : Event → State → Prop
  | visitorSends (bytes : List UInt8) :
      Step s (.visitorSends bytes) { s with visitorOut := s.visitorOut.send bytes }
  | visitorReceives (n : Nat) :
      Step s (.visitorReceives n) { s with visitorInc := s.visitorInc.receive n }
  | serviceSends (bytes : List UInt8) :
      Step s (.serviceSends bytes) { s with serviceInc := s.serviceInc.send bytes }
  | serviceReceives (n : Nat) :
      Step s (.serviceReceives n) { s with serviceOut := s.serviceOut.receive n }
  | sendTarget (n : Nat) {rest : List UInt8} {res : Except ProtocolError Unit} :
      s.proxy = .sendingTarget rest res →
      Step s (.sendTarget n)
        { s with
          streamOut := s.streamOut.send (rest.take n)
          proxy := .sendingTarget (rest.drop n) res }
  | targetSent :
      s.proxy = .sendingTarget [] (.ok ()) →
      Step s .targetSent { s with proxy := .select .init .init }
  | copyOut {out inc out' : CopyCount} {a : CopyCount.Act} :
      s.proxy = .copying out inc → CopyCount.Step out a out' → a.taken <+: s.visitorOut.inFlight →
      Step s (.copyOut a)
        { s with
          visitorOut := s.visitorOut.receive a.taken.length
          streamOut := s.streamOut.send a.given
          proxy := .select out' inc }
  | copyInc {out inc inc' : CopyCount} {a : CopyCount.Act} :
      s.proxy = .copying out inc → CopyCount.Step inc a inc' → a.taken <+: s.streamInc.inFlight →
      Step s (.copyInc a)
        { s with
          streamInc := s.streamInc.receive a.taken.length
          visitorInc := s.visitorInc.send a.given
          proxy := .select out inc' }
  | proxyEnds : Step s .proxyEnds { s with proxy := .ended }
  | readTarget (bytes : List UInt8) {got : List UInt8} :
      s.client = .readingTarget got → got.length + bytes.length ≤ frameLength got →
      bytes <+: s.streamOut.inFlight →
      Step s (.readTarget bytes)
        { s with
          streamOut := s.streamOut.receive bytes.length
          client := .readingTarget (got ++ bytes) }
  | targetRead {got : List UInt8} {t : String} {rest : Chunks} :
      s.client = .readingTarget got → got.length = frameLength got →
      Protocol.readTarget (⟨[got]⟩ : Chunks) = .ok (t, rest) →
      Step s .targetRead { s with client := .dialing t, dialed := some t }
  | connected (now : Nat) {t : String} :
      s.client = .dialing t →
      Step s .connected { s with client := .ofBridge (.init now) }
  | bridge (now : Nat) {b b' : Bridge} {a : Bridge.Act} :
      s.client = .bridging b → Bridge.Step Proxy.proxyIdleTimeout now b a b' →
      a.taken .a <+: s.streamOut.inFlight → a.taken .b <+: s.serviceInc.inFlight →
      Step s (.bridge a)
        { s with
          streamOut := s.streamOut.receive (a.taken .a).length
          streamInc := s.streamInc.send (a.given .a)
          serviceOut := s.serviceOut.send (a.given .b)
          serviceInc := s.serviceInc.receive (a.taken .b).length
          client := .ofBridge b' }
  | clientEnds : Step s .clientEnds { s with client := .ended }

/-! ## What the two programs hold -/

/-- What `proxy_connection` has taken or made and not sent on. -/
def ProxyStage.held : ProxyStage → Dir → Option (List UInt8)
  | .sendingTarget rest _, .out => some rest
  | .sendingTarget _ _, .inc => some []
  | .copying out _, .out => some out.pending
  | .copying _ inc, .inc => some inc.pending
  | .ended, _ => none

def ClientStage.held : ClientStage → Dir → Option (List UInt8)
  | .readingTarget got, .out => some got
  | .readingTarget _, .inc => some []
  | .dialing _, _ => some []
  | .bridging b, .out => some (b.pending .a)
  | .bridging b, .inc => some (b.pending .b)
  | .ended, _ => none

/-- Nothing has been dialed yet, or nothing will be. -/
def ClientStage.Waiting : ClientStage → Prop
  | .readingTarget _ => True
  | .ended => True
  | _ => False

/-- What the client has taken off the front of the stream. -/
def State.frame (s : State) : List UInt8 :=
  match s.dialed with
  | some target => lpStr target
  | none => []

/-- Each of the two programs relays in each direction. For the client the target's frame
counts as sent on when it dials. -/
structure Relaying (target : String) (s : State) : Prop where
  proxyOut : Relayed (s.proxy.held .out) (lpStr target ++ s.visitorOut.received) s.streamOut.sent
  proxyInc : Relayed (s.proxy.held .inc) s.streamInc.received s.visitorInc.sent
  clientOut :
    Relayed (s.client.held .out) s.streamOut.received (s.frame ++ s.serviceOut.sent)
  clientInc : Relayed (s.client.held .inc) s.serviceInc.received s.streamInc.sent
  fits : ∀ t, s.dialed = some t → Fits t
  undialed : s.dialed = none → s.serviceOut.sent = [] ∧ s.client.Waiting
  reading : ∀ got, s.client = .readingTarget got → s.dialed = none

theorem relaying_init {target : String} (h : Fits target) : Relaying target (init target) := by
  have hemitted : (writeTarget target).emitted = (.ok (), lpStr target) :=
    (writes_target h).emitted_eq
  refine ⟨?_, rfl, rfl, rfl, nofun, fun _ => ⟨rfl, trivial⟩, fun _ _ => rfl⟩
  show [] ++ (writeTarget target).emitted.2 = lpStr target ++ []
  rw [hemitted, List.append_nil, List.nil_append]

/-! ## Steps -/

theorem select_cases (out inc : CopyCount) :
    ProxyStage.select out inc = .ended ∨
      ((∀ r, out.phase ≠ .returned r) ∧ ∀ r, inc.phase ≠ .returned r) ∧
        ProxyStage.select out inc = .copying out inc := by
  unfold ProxyStage.select
  split
  · exact .inl rfl
  · exact .inl rfl
  · next hout hinc => exact .inr ⟨⟨hout, hinc⟩, rfl⟩

/-- When one loop returns, both are dropped with what they hold. -/
theorem held_select_out (out inc : CopyCount) :
    (ProxyStage.select out inc).held .out = none ∨ (∀ r, out.phase ≠ .returned r) ∧
      (ProxyStage.select out inc).held .out = some out.pending := by
  rcases select_cases out inc with hsel | ⟨hrunning, hsel⟩ <;> rw [hsel]
  · exact .inl rfl
  · exact .inr ⟨hrunning.1, rfl⟩

theorem held_select_inc (out inc : CopyCount) :
    (ProxyStage.select out inc).held .inc = none ∨ (∀ r, inc.phase ≠ .returned r) ∧
      (ProxyStage.select out inc).held .inc = some inc.pending := by
  rcases select_cases out inc with hsel | ⟨hrunning, hsel⟩ <;> rw [hsel]
  · exact .inl rfl
  · exact .inr ⟨hrunning.2, rfl⟩

theorem ofBridge_cases (b : Bridge) :
    ClientStage.ofBridge b = .ended ∨
      (∀ r, b.phase ≠ .returned r) ∧ ClientStage.ofBridge b = .bridging b := by
  unfold ClientStage.ofBridge
  split
  · exact .inl rfl
  · next hrunning => exact .inr ⟨hrunning, rfl⟩

theorem held_ofBridge (b : Bridge) :
    (ClientStage.ofBridge b).held .out = none ∧ (ClientStage.ofBridge b).held .inc = none ∨
      (∀ r, b.phase ≠ .returned r) ∧
        (ClientStage.ofBridge b).held .out = some (b.pending .a) ∧
          (ClientStage.ofBridge b).held .inc = some (b.pending .b) := by
  rcases ofBridge_cases b with hend | ⟨hrunning, hend⟩ <;> rw [hend]
  · exact .inl ⟨rfl, rfl⟩
  · exact .inr ⟨hrunning, rfl, rfl⟩

section Steps

variable {target : String} {s t : State} {e : Event} {source sent : List UInt8}

/-- A loop that has not returned goes on relaying; one that has may have lost what it
held. -/
theorem relayed_copy {c c' : CopyCount} {a : CopyCount.Act} {held : Option (List UInt8)}
    (h : Relayed (some c.pending) source sent) (hs : CopyCount.Step c a c')
    (hheld : held = none ∨ (∀ r, c'.phase ≠ .returned r) ∧ held = some c'.pending) :
    Relayed held (source ++ a.taken) (sent ++ a.given) := by
  rcases hheld with rfl | ⟨hrunning, rfl⟩
  · exact h.stop_move (CopyCount.given_prefix hs)
  · have hok : a ≠ .writeFails := fun heq => by
      obtain ⟨r, hr⟩ := CopyCount.returned_of_writeFails (heq ▸ hs)
      exact hrunning r hr
    exact h.move (CopyCount.pending_step hs hok)

theorem relayed_bridge {b b' : Bridge} {a : Bridge.Act} {idle now : Nat} {x : Side}
    {held : Option (List UInt8)} (h : Relayed (some (b.pending x)) source sent)
    (hs : Bridge.Step idle now b a b')
    (hheld : held = none ∨ (∀ r, b'.phase ≠ .returned r) ∧ held = some (b'.pending x)) :
    Relayed held (source ++ a.taken x) (sent ++ a.given x.other) := by
  rcases hheld with rfl | ⟨hrunning, rfl⟩
  · exact h.stop_move ((List.prefix_append _ _).trans (Bridge.pending_prefix hs x))
  · have hok : ∀ y, a ≠ .writeFails y := fun y heq => by
      subst heq
      cases hs with
      | writeFails _ => exact hrunning _ rfl
    exact h.move (Bridge.pending_step hs hok x)

/-- The loop for the other direction stops or goes on. -/
theorem relayed_still {items : List UInt8} {held : Option (List UInt8)}
    (h : Relayed (some items) source sent) (hheld : held = none ∨ held = some items) :
    Relayed held source sent := by
  rcases hheld with rfl | rfl
  · exact h.stop
  · exact h

/-- The bytes that `read_lp_str` has decoded are the encoding of what it returns. -/
theorem eq_lpStr_of_readTarget {got : List UInt8} {rest : Chunks}
    (hlength : got.length = frameLength got)
    (hread : Protocol.readTarget (⟨[got]⟩ : Chunks) = .ok (target, rest)) :
    Fits target ∧ got = lpStr target := by
  obtain ⟨bs, ⟨hfits, rfl⟩, hgot⟩ := consumes_lpStr (R := Chunks) _ _ _ hread
  simp only [unread_chunks, List.flatten_cons, List.flatten_nil, List.append_nil] at hgot
  refine ⟨hfits, ?_⟩
  have hle : (asBytes target).length < 65536 := Nat.lt_succ_of_le hfits
  have hhead : got.take 2 = toBeBytes (UInt16.ofNat (asBytes target).length) := by
    rw [hgot, lpStr, List.append_assoc]
    exact List.take_left' (length_toBeBytes _)
  have hframe : (lpStr target).length = 2 + (asBytes target).length := by
    rw [lpStr, List.length_append, length_toBeBytes]
  have hall := congrArg List.length hgot
  rw [List.length_append, hframe] at hall
  have hshort : ¬ got.length < 2 := by omega
  rw [frameLength, if_neg hshort, hhead, fromBeBytes_toBeBytes, UInt16.toNat_ofNat_of_lt' hle]
    at hlength
  have hnil : rest.pieces.flatten = [] := List.eq_nil_of_length_eq_zero (by omega)
  rw [hgot, hnil, List.append_nil]

theorem relaying_step (h : Relaying target s) (hs : Step s e t) : Relaying target t := by
  obtain ⟨hproxyOut, hproxyInc, hclientOut, hclientInc, hfits, hundialed, hreading⟩ := h
  cases hs with
  | visitorSends | visitorReceives | serviceSends | serviceReceives =>
    exact ⟨hproxyOut, hproxyInc, hclientOut, hclientInc, hfits, hundialed, hreading⟩
  | @sendTarget n rest res hstage =>
    rw [hstage] at hproxyOut hproxyInc
    refine ⟨?_, hproxyInc, hclientOut, hclientInc, hfits, hundialed, hreading⟩
    have hmove : rest ++ [] = rest.take n ++ rest.drop n := by
      rw [List.append_nil, List.take_append_drop]
    have hsent := Relayed.move hproxyOut hmove
    rwa [List.append_nil] at hsent
  | targetSent hstage =>
    rw [hstage] at hproxyOut hproxyInc
    exact ⟨hproxyOut, hproxyInc, hclientOut, hclientInc, hfits, hundialed, hreading⟩
  | @copyOut out inc out' a hstage hcopy htaken =>
    rw [hstage] at hproxyOut hproxyInc
    refine ⟨?_, relayed_still hproxyInc ?_, hclientOut, hclientInc, hfits, hundialed, hreading⟩
    · show Relayed _ (lpStr target ++ (s.visitorOut.receive a.taken.length).received) _
      rw [Pipe.received_receive_length htaken, ← List.append_assoc]
      exact relayed_copy hproxyOut hcopy (held_select_out out' inc)
    · exact (held_select_inc out' inc).imp_right And.right
  | @copyInc out inc inc' a hstage hcopy htaken =>
    rw [hstage] at hproxyOut hproxyInc
    refine ⟨relayed_still hproxyOut ?_, ?_, hclientOut, hclientInc, hfits, hundialed, hreading⟩
    · exact (held_select_out out inc').imp_right And.right
    · show Relayed _ (s.streamInc.receive a.taken.length).received _
      rw [Pipe.received_receive_length htaken]
      exact relayed_copy hproxyInc hcopy (held_select_inc out inc')
  | proxyEnds =>
    exact ⟨hproxyOut.stop, hproxyInc.stop, hclientOut, hclientInc, hfits, hundialed, hreading⟩
  | @readTarget bytes got hstage _ htaken =>
    have hnone := hreading got hstage
    rw [hstage] at hclientOut hclientInc
    refine ⟨hproxyOut, hproxyInc, ?_, hclientInc, hfits,
      fun _ => ⟨(hundialed hnone).1, trivial⟩, fun _ _ => hnone⟩
    show Relayed _ (s.streamOut.receive bytes.length).received _
    rw [Pipe.received_receive_length htaken]
    have hmoved := Relayed.move hclientOut (show got ++ bytes = [] ++ (got ++ bytes) from rfl)
    rwa [List.append_nil] at hmoved
  | @targetRead got target' rest hstage hlength hread =>
    obtain ⟨hfits', hgot⟩ := eq_lpStr_of_readTarget hlength hread
    have hnone := hreading got hstage
    have hsent := (hundialed hnone).1
    have hframe : s.frame = [] := by rw [State.frame, hnone]
    rw [hstage] at hclientOut hclientInc
    refine ⟨hproxyOut, hproxyInc, ?_, hclientInc, fun t ht => ?_, nofun, nofun⟩
    · have hall : [] ++ [] ++ got = s.streamOut.received := by
        rw [← hclientOut, hframe, hsent]
      show lpStr target' ++ s.serviceOut.sent ++ [] = s.streamOut.received
      rw [hsent, ← hall, hgot, List.append_nil, List.append_nil]
      rfl
    · cases ht
      exact hfits'
  | connected now hstage =>
    rw [hstage] at hclientOut hclientInc
    refine ⟨hproxyOut, hproxyInc, hclientOut, hclientInc, hfits, fun hnone => ?_, nofun⟩
    have hwaiting := (hundialed hnone).2
    rw [hstage] at hwaiting
    exact hwaiting.elim
  | @bridge now b b' a hstage hact htakenOut htakenInc =>
    rw [hstage] at hclientOut hclientInc
    refine ⟨hproxyOut, hproxyInc, ?_, ?_, hfits, fun hnone => ?_, fun got hgot => ?_⟩
    · show Relayed _ (s.streamOut.receive (a.taken .a).length).received
        (s.frame ++ (s.serviceOut.sent ++ a.given .b))
      rw [Pipe.received_receive_length htakenOut, ← List.append_assoc]
      exact relayed_bridge (x := .a) hclientOut hact
        ((held_ofBridge b').imp And.left (And.imp_right And.left))
    · show Relayed _ (s.serviceInc.receive (a.taken .b).length).received _
      rw [Pipe.received_receive_length htakenInc]
      exact relayed_bridge (x := .b) hclientInc hact
        ((held_ofBridge b').imp And.right (And.imp_right And.right))
    · have hwaiting := (hundialed hnone).2
      rw [hstage] at hwaiting
      exact hwaiting.elim
    · rcases ofBridge_cases b' with hend | ⟨_, hend⟩ <;> cases hend.symm.trans hgot
  | clientEnds =>
    exact ⟨hproxyOut, hproxyInc, hclientOut.stop, hclientInc.stop, hfits,
      fun hnone => ⟨(hundialed hnone).1, trivial⟩, nofun⟩

end Steps

/-! ## What the two ends know -/

/-- What the client took off the stream is the target's frame and then what the service
was sent, which is what the server read from the visitor. -/
theorem frame_prefix {target : String} {s : State} (h : Relaying target s) :
    s.frame ++ s.serviceOut.sent <+: lpStr target ++ s.visitorOut.received :=
  (h.clientOut.isPrefix.trans s.streamOut.ordered).trans h.proxyOut.isPrefix

/-- Whatever is sent, in whatever pieces and order, and whenever somebody stops: the
client dials the target and nothing else, the service receives a prefix of what the
visitor sent and the visitor one of what the service sent. -/
theorem byte_exact {target : String} (fits : Fits target) {s : State}
    (reached : Reachable Step (fun s₀ => s₀ = init target) s) :
    (∀ t, s.dialed = some t → t = target) ∧
    s.serviceOut.received <+: s.visitorOut.sent ∧
    s.visitorInc.received <+: s.serviceInc.sent := by
  have h : Relaying target s :=
    reached.invariant (fun _ heq => heq ▸ relaying_init fits) fun _ _ _ hs hstep =>
      relaying_step hs hstep
  have hinc : s.visitorInc.received <+: s.serviceInc.sent :=
    calc s.visitorInc.received
      _ <+: s.visitorInc.sent := s.visitorInc.ordered
      _ <+: s.streamInc.received := h.proxyInc.isPrefix
      _ <+: s.streamInc.sent := s.streamInc.ordered
      _ <+: s.serviceInc.received := h.clientInc.isPrefix
      _ <+: s.serviceInc.sent := s.serviceInc.ordered
  obtain ⟨rest, hrest⟩ := frame_prefix h
  cases hdialed : s.dialed with
  | none =>
    have hnil : s.serviceOut.received = [] :=
      List.prefix_nil.mp ((h.undialed hdialed).1 ▸ s.serviceOut.ordered)
    exact ⟨nofun, hnil ▸ List.nil_prefix, hinc⟩
  | some t =>
    have hframe : s.frame = lpStr t := by rw [State.frame, hdialed]
    rw [hframe, List.append_assoc] at hrest
    obtain ⟨rfl, hsent⟩ := lpStr_unique (h.fits t hdialed) fits hrest
    refine ⟨fun t' ht' => (Option.some.inj ht').symm, ?_, hinc⟩
    calc s.serviceOut.received
      _ <+: s.serviceOut.sent := s.serviceOut.ordered
      _ <+: s.visitorOut.received := ⟨rest, hsent⟩
      _ <+: s.visitorOut.sent := s.visitorOut.ordered

/-- A request of two bytes and an answer of one, the target sent and read in two pieces. -/
theorem byte_exact_exchange :
    ∃ s, Reachable Step (fun s₀ => s₀ = init "h:80") s ∧ s.serviceOut.received = [71, 10] ∧
      s.visitorInc.received = [50] ∧ (∀ t, s.dialed = some t → t = "h:80") ∧
      s.serviceOut.received <+: s.visitorOut.sent ∧
      s.visitorInc.received <+: s.serviceInc.sent := by
  have fits : Fits "h:80" := by decide
  have hemitted : (writeTarget "h:80").emitted = (.ok (), lpStr "h:80") :=
    (writes_target fits).emitted_eq
  obtain ⟨rest, hread, -⟩ := reads_lpStr (R := Chunks) fits ⟨[lpStr "h:80"]⟩ [] rfl
  have start : Reachable Step (fun s₀ => s₀ = init "h:80") (init "h:80") := .init rfl
  have sent := ((start.step (.sendTarget 3 rfl)).step (.sendTarget 3 rfl)).step
    (.targetSent (by rw [hemitted]; rfl))
  have asked := (sent.step (.readTarget [0] rfl (by decide) ⟨_, rfl⟩)).step
    (.readTarget [4] rfl (by decide) ⟨_, rfl⟩)
  have dialed := ((asked.step (.readTarget [104, 58, 56, 48] rfl (by decide) ⟨_, rfl⟩)).step
    (.targetRead (t := "h:80") rfl rfl hread)).step (.connected 0 rfl)
  have request := ((dialed.step (.visitorSends [71, 10])).step
    (.copyOut (a := .read [71, 10]) rfl (.read rfl nofun (by decide)) ⟨_, rfl⟩)).step
    (.copyOut rfl (.writeRest (k := 2) rfl (by decide) rfl) List.nil_prefix)
  have served := ((request.step (.bridge 0 (a := .read .a [71, 10]) rfl
    (.read rfl nofun (by decide)) ⟨_, rfl⟩ List.nil_prefix)).step (.bridge 0 rfl
    (.writeRest (k := 2) rfl (by decide) rfl) List.nil_prefix List.nil_prefix)).step
    (.serviceReceives 2)
  have answer := ((served.step (.serviceSends [50])).step (.bridge 0 (a := .read .b [50]) rfl
    (.read rfl nofun (by decide)) List.nil_prefix ⟨_, rfl⟩)).step
    (.bridge 0 rfl (.writeRest (k := 1) rfl (by decide) rfl) List.nil_prefix List.nil_prefix)
  have answered := ((answer.step (.copyInc (a := .read [50]) rfl (.read rfl nofun (by decide))
    ⟨_, rfl⟩)).step (.copyInc rfl (.writeRest (k := 1) rfl (by decide) rfl) List.nil_prefix)).step
    (.visitorReceives 1)
  exact ⟨_, answered, rfl, rfl, byte_exact fits answered⟩

end MiniMask.EndToEnd
