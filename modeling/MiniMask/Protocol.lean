import MiniMask.Lib.Framing

/-!
# The wire protocol (`tunnel/protocol.rs`)

A client announces itself with a handshake, the server answers with a status, and
on every yamux stream the server first sends the address to dial. All strings
are UTF-8 behind a big-endian 16-bit length.
-/

namespace MiniMask.Protocol

open Framing Framing.ByteReader

/-! ## Constants, errors and primitive encodings -/

/-- `MAGIC`, the bytes of `MMSK`. -/
def magic : List UInt8 := [0x4d, 0x4d, 0x53, 0x4b]

def protoVersion : UInt8 := 1

def statusOk : UInt8 := 1

def statusFail : UInt8 := 0

/-- `u16::MAX`, the largest length of a string on the wire. -/
def u16Max : Nat := 65535

/-- What the functions of the protocol fail with. `earlyEof` is the error of
`read_exact` on a stream that ends; the others are raised by the code itself. -/
inductive ProtocolError
  | earlyEof
  | invalidMagic
  | unsupportedVersion (ver : UInt8)
  | invalidUtf8
  | stringTooLong (bytes : Nat)
deriving DecidableEq, Repr

/-- `str::as_bytes`. -/
def asBytes (s : String) : List UInt8 := s.toByteArray.data.toList

/-- `String::from_utf8`. -/
def fromUtf8 (buf : List UInt8) : Option String := String.fromUTF8? buf.toByteArray

/-- `u16::to_be_bytes`. -/
def toBeBytes (n : UInt16) : List UInt8 := [UInt8.ofNat (n.toNat / 256), UInt8.ofNat n.toNat]

/-- `u16::from_be_bytes`, on a buffer of two bytes. -/
def fromBeBytes : List UInt8 → UInt16
  | [hi, lo] => UInt16.ofNat (hi.toNat * 256 + lo.toNat)
  | _ => 0

theorem toByteArray_asBytes (s : String) : (asBytes s).toByteArray = s.toByteArray := by
  apply ByteArray.ext
  simp [asBytes]

theorem fromUtf8_asBytes (s : String) : fromUtf8 (asBytes s) = some s := by
  unfold fromUtf8 String.fromUTF8?
  rw [toByteArray_asBytes, dif_pos s.isValidUTF8]
  rfl

theorem asBytes_of_fromUtf8 {buf : List UInt8} {s : String} (h : fromUtf8 buf = some s) :
    asBytes s = buf := by
  unfold fromUtf8 String.fromUTF8? at h
  split at h
  · cases h
    simp [asBytes, String.fromUTF8]
  · cases h

theorem length_toBeBytes (n : UInt16) : (toBeBytes n).length = 2 := rfl

theorem fromBeBytes_toBeBytes (n : UInt16) : fromBeBytes (toBeBytes n) = n := by
  have hn : n.toNat < 65536 := n.toNat_lt
  apply UInt16.toNat.inj
  simp only [fromBeBytes, toBeBytes, UInt8.toNat_ofNat', UInt16.toNat_ofNat']
  omega

theorem toBeBytes_fromBeBytes {buf : List UInt8} (h : buf.length = 2) :
    toBeBytes (fromBeBytes buf) = buf := by
  match buf, h with
  | [hi, lo], _ =>
    have hhi : hi.toNat < 256 := hi.toNat_lt
    have hlo : lo.toNat < 256 := lo.toNat_lt
    simp only [fromBeBytes, toBeBytes, UInt16.toNat_ofNat', List.cons.injEq, and_true]
    constructor
    · apply UInt8.toNat.inj
      rw [UInt8.toNat_ofNat']
      omega
    · apply UInt8.toNat.inj
      rw [UInt8.toNat_ofNat']
      omega

/-! ## Writers -/

def writeLpStr (s : String) : ByteWriter ProtocolError Unit :=
  let b := asBytes s
  if b.length > u16Max then throw (.stringTooLong b.length)
  else do
    let len := UInt16.ofNat b.length
    ByteWriter.writeAll (toBeBytes len)
    ByteWriter.writeAll b

def writeHandshake (clientId token : String) : ByteWriter ProtocolError Unit := do
  ByteWriter.writeAll magic
  ByteWriter.writeAll [protoVersion]
  writeLpStr clientId
  writeLpStr token
  ByteWriter.flush

def writeStatus (ok : Bool) (msg : String) : ByteWriter ProtocolError Unit := do
  ByteWriter.writeAll [if ok then statusOk else statusFail]
  writeLpStr msg
  ByteWriter.flush

def writeTarget (target : String) : ByteWriter ProtocolError Unit := do
  writeLpStr target
  ByteWriter.flush

/-! ## Readers -/

section Readers

variable {R : Type} [ByteSource R]

def readLpStr : ByteReader R ProtocolError String := do
  let lenB ← exactly .earlyEof 2
  let len := (fromBeBytes lenB).toNat
  let buf ← exactly .earlyEof len
  ofOption .invalidUtf8 (fromUtf8 buf)

def readHandshake : ByteReader R ProtocolError (String × String) := do
  let m ← exactly .earlyEof 4
  ensure (m = magic) .invalidMagic
  let ver ← exactly .earlyEof 1
  ensure (ver = [protoVersion]) (.unsupportedVersion (ver.headD 0))
  let clientId ← readLpStr
  let token ← readLpStr
  pure (clientId, token)

def readStatus : ByteReader R ProtocolError (Bool × String) := do
  let s ← exactly .earlyEof 1
  let msg ← readLpStr
  pure (s.headD 0 == statusOk, msg)

def readTarget : ByteReader R ProtocolError String := readLpStr

end Readers

/-! ## Length-prefixed strings -/

/-- The encoding of a string that fits. -/
def lpStr (s : String) : List UInt8 := toBeBytes (UInt16.ofNat (asBytes s).length) ++ asBytes s

/-- The string's length fits in 16 bits. -/
def Fits (s : String) : Prop := (asBytes s).length ≤ u16Max

instance (s : String) : Decidable (Fits s) := inferInstanceAs (Decidable (_ ≤ _))

theorem writes_lpStr {s : String} (h : Fits s) : Writes (writeLpStr s) (lpStr s) := by
  unfold writeLpStr
  rw [if_neg (Nat.not_lt.mpr h)]
  exact (Writes.writeAll _).bind (Writes.writeAll _)

theorem lpStr_tooLong {s : String} (h : ¬ Fits s) :
    FailsAfter (writeLpStr s) (.stringTooLong (asBytes s).length) [] := fun out => by
  unfold writeLpStr
  rw [if_pos (Nat.lt_of_not_le h), List.append_nil]
  rfl

section Readers

variable {R : Type} [ByteSource R]

theorem reads_lpStr {s : String} (h : Fits s) : Reads (R := R) readLpStr (lpStr s) s := by
  have hlen : (asBytes s).length =
      (fromBeBytes (toBeBytes (UInt16.ofNat (asBytes s).length))).toNat := by
    rw [fromBeBytes_toBeBytes]
    exact (UInt16.toNat_ofNat_of_lt' (Nat.lt_succ_of_le h)).symm
  have hbuf : Reads (R := R) (exactly ProtocolError.earlyEof _ >>= fun buf =>
      ofOption ProtocolError.invalidUtf8 (fromUtf8 buf)) (asBytes s ++ []) s :=
    (Reads.exactly _ hlen).bind (Reads.ofOption _ (fromUtf8_asBytes s))
  rw [List.append_nil] at hbuf
  exact (Reads.exactly _ (length_toBeBytes _)).bind hbuf

theorem consumes_lpStr :
    Consumes (R := R) readLpStr fun s bs => Fits s ∧ bs = lpStr s := by
  have parts := (Consumes.exactly (R := R) ProtocolError.earlyEof 2).bind fun lenB =>
    (Consumes.exactly (R := R) ProtocolError.earlyEof (fromBeBytes lenB).toNat).bind fun buf =>
      Consumes.ofOption (R := R) ProtocolError.invalidUtf8 (fromUtf8 buf)
  refine parts.mono ?_
  rintro s bs ⟨_, lenB, _, ⟨rfl, hlenB⟩, ⟨_, buf, _, ⟨rfl, hbuf⟩, ⟨hs, rfl⟩, rfl⟩, rfl⟩
  have hbytes : asBytes s = buf := asBytes_of_fromUtf8 hs
  have hlt : (fromBeBytes lenB).toNat < 65536 := (fromBeBytes lenB).toNat_lt
  constructor
  · simp only [Fits, hbytes, hbuf, u16Max]
    omega
  · simp only [lpStr, hbytes, hbuf, UInt16.ofNat_toNat, toBeBytes_fromBeBytes hlenB,
      List.append_nil]

end Readers

/-! ## Messages -/

/-- A message of the protocol with its contents. -/
inductive Message
  | handshake (clientId token : String)
  | status (ok : Bool) (msg : String)
  | target (target : String)
deriving DecidableEq, Repr

/-- Which of the three readers a peer calls next. -/
inductive MessageKind
  | handshake
  | status
  | target
deriving DecidableEq, Repr

def Message.kind : Message → MessageKind
  | .handshake _ _ => .handshake
  | .status _ _ => .status
  | .target _ => .target

def Message.write : Message → ByteWriter ProtocolError Unit
  | .handshake clientId token => writeHandshake clientId token
  | .status ok msg => writeStatus ok msg
  | .target t => writeTarget t

def MessageKind.read {R : Type} [ByteSource R] : MessageKind → ByteReader R ProtocolError Message
  | .handshake => readHandshake >>= fun x => pure (.handshake x.1 x.2)
  | .status => readStatus >>= fun x => pure (.status x.1 x.2)
  | .target => readTarget >>= fun x => pure (.target x)

/-- All strings of the message fit in 16 bits of length. -/
def Message.Fits : Message → Prop
  | .handshake clientId token => Protocol.Fits clientId ∧ Protocol.Fits token
  | .status _ msg => Protocol.Fits msg
  | .target t => Protocol.Fits t

/-- The encoding of a handshake whose strings fit. -/
def handshakeBytes (clientId token : String) : List UInt8 :=
  magic ++ ([protoVersion] ++ (lpStr clientId ++ lpStr token))

/-- The encoding of a message whose strings fit. -/
def Message.bytes : Message → List UInt8
  | .handshake clientId token => handshakeBytes clientId token
  | .status ok msg => [if ok then statusOk else statusFail] ++ lpStr msg
  | .target t => lpStr t

theorem writes_handshake {clientId token : String} (hc : Fits clientId) (ht : Fits token) :
    Writes (writeHandshake clientId token) (handshakeBytes clientId token) := by
  rw [handshakeBytes, ← List.append_nil (lpStr token)]
  refine (Writes.writeAll magic).bind ?_
  refine (Writes.writeAll [protoVersion]).bind ?_
  refine (writes_lpStr hc).bind ?_
  exact (writes_lpStr ht).bind Writes.flush

theorem writes_status {ok : Bool} {msg : String} (h : Fits msg) :
    Writes (writeStatus ok msg) ([if ok then statusOk else statusFail] ++ lpStr msg) := by
  rw [← List.append_nil (lpStr msg)]
  refine (Writes.writeAll _).bind ?_
  exact (writes_lpStr h).bind Writes.flush

theorem writes_target {t : String} (h : Fits t) : Writes (writeTarget t) (lpStr t) := by
  rw [← List.append_nil (lpStr t)]
  exact (writes_lpStr h).bind Writes.flush

theorem Message.writes {m : Message} (h : m.Fits) : Writes m.write m.bytes := by
  cases m with
  | handshake clientId token => exact writes_handshake h.1 h.2
  | status ok msg => exact writes_status h
  | target t => exact writes_target h

section Readers

variable {R : Type} [ByteSource R]

theorem reads_handshake {clientId token : String} (hc : Fits clientId) (ht : Fits token) :
    Reads (R := R) readHandshake (handshakeBytes clientId token) (clientId, token) := by
  refine (Reads.exactly (R := R) _ rfl).bind ?_
  refine Reads.ensure_bind rfl ?_
  refine (Reads.exactly (R := R) _ rfl).bind ?_
  refine Reads.ensure_bind rfl ?_
  exact (reads_lpStr hc).bind ((reads_lpStr ht).map _)

theorem reads_status {ok : Bool} {msg : String} (h : Fits msg) :
    Reads (R := R) readStatus ([if ok then statusOk else statusFail] ++ lpStr msg) (ok, msg) := by
  have hok : ([if ok then statusOk else statusFail].headD 0 == statusOk) = ok := by
    cases ok <;> rfl
  refine (Reads.exactly (R := R) _ rfl).bind ?_
  rw [hok]
  exact (reads_lpStr h).map _

theorem Message.reads {m : Message} (h : m.Fits) : Reads (R := R) m.kind.read m.bytes m := by
  cases m with
  | handshake clientId token => exact (reads_handshake h.1 h.2).map _
  | status ok msg => exact (reads_status h).map _
  | target t => exact (reads_lpStr h).map _

/-- `readHandshake` takes exactly the encoding of the handshake it returns. -/
theorem consumes_handshake :
    Consumes (R := R) readHandshake fun x bs =>
      (Fits x.1 ∧ Fits x.2) ∧ bs = handshakeBytes x.1 x.2 := by
  have parts := (Consumes.exactly (R := R) ProtocolError.earlyEof 4).bind fun m =>
    (Consumes.ensure (R := R) (m = magic) ProtocolError.invalidMagic).bind fun _ =>
    (Consumes.exactly (R := R) ProtocolError.earlyEof 1).bind fun ver =>
    (Consumes.ensure (R := R) (ver = [protoVersion])
      (ProtocolError.unsupportedVersion (ver.headD 0))).bind fun _ =>
    (consumes_lpStr (R := R)).bind fun clientId =>
    (consumes_lpStr (R := R)).bind fun token =>
      Consumes.pure (R := R) (ε := ProtocolError) (clientId, token)
  refine parts.mono ?_
  rintro x bs ⟨m, _, _, ⟨rfl, -⟩, ⟨-, _, _, ⟨rfl, rfl⟩, ⟨ver, _, _, ⟨rfl, -⟩, ⟨-, _, _, ⟨rfl, rfl⟩,
    ⟨clientId, _, _, ⟨hc, rfl⟩, ⟨token, _, _, ⟨ht, rfl⟩, ⟨rfl, rfl⟩, rfl⟩, rfl⟩, rfl⟩, rfl⟩, rfl⟩,
    rfl⟩
  exact ⟨⟨hc, ht⟩, by simp [handshakeBytes]⟩

end Readers

/-! ## Round trip -/

/-- Read one message of each kind, in order. -/
def readMessages {R : Type} [ByteSource R] (kinds : List MessageKind) :
    ByteReader R ProtocolError (List Message) :=
  kinds.mapM MessageKind.read

/-- Writing a message that fits succeeds, and emits its encoding. -/
theorem Message.emitted_of_fits {m : Message} (h : m.Fits) :
    m.write.emitted = (.ok (), m.bytes) :=
  (m.writes h).emitted_eq

/-- **Round trip and framing.** Messages whose strings fit are all written, and
the readers of their kinds, called in order, return the same messages and leave
exactly the bytes behind them, however the transport cuts the stream. -/
theorem wire_roundtrip (msgs : List Message) (fits : ∀ m ∈ msgs, m.Fits)
    (trailing : List UInt8) :
    (∀ m ∈ msgs, m.write.emitted.1 = .ok ()) ∧
    ∀ source : Chunks,
      source.pieces.flatten = (msgs.flatMap fun m => m.write.emitted.2) ++ trailing →
      ∃ rest : Chunks, readMessages (msgs.map Message.kind) source = .ok (msgs, rest) ∧
        rest.pieces.flatten = trailing := by
  refine ⟨fun m hm => by rw [Message.emitted_of_fits (fits m hm)], fun source hsource => ?_⟩
  have hbytes : (msgs.flatMap fun m => m.write.emitted.2) = msgs.flatMap Message.bytes :=
    List.flatMap_congr fun m hm => by rw [Message.emitted_of_fits (fits m hm)]
  rw [hbytes] at hsource
  exact Reads.mapM msgs (fun m hm => Message.reads (fits m hm)) source trailing hsource

/-- A handshake, a status and a target, with an empty and a two-byte string,
delivered byte by byte in front of two bytes that are not read. -/
theorem wire_roundtrip_bytewise :
    let msgs : List Message :=
      [.handshake "cli" "", .status true "é", .target "127.0.0.1:80"]
    ∃ rest : Chunks,
      readMessages (msgs.map Message.kind)
        ⟨((msgs.flatMap fun m : Message => m.write.emitted.2) ++ [7, 0]).map fun b => [b]⟩ =
          .ok (msgs, rest) ∧ rest.pieces.flatten = [7, 0] := by
  intro msgs
  refine (wire_roundtrip msgs ?_ [7, 0]).2 _ ?_
  · simp only [msgs, List.forall_mem_cons, Message.Fits]
    exact ⟨⟨by decide, by decide⟩, by decide, by decide, by simp⟩
  · exact List.flatMap_singleton' _

/-! ## The handshake grammar -/

/-- What `writeHandshake` returns and emits, on all arguments. -/
theorem emitted_handshake (clientId token : String) :
    (writeHandshake clientId token).emitted =
      if Fits clientId then
        if Fits token then (.ok (), handshakeBytes clientId token)
        else (.error (.stringTooLong (asBytes token).length),
          magic ++ [protoVersion] ++ lpStr clientId)
      else (.error (.stringTooLong (asBytes clientId).length), magic ++ [protoVersion]) := by
  split
  · next hc =>
    split
    · next ht => exact (writes_handshake hc ht).emitted_eq
    · next ht =>
      have h : FailsAfter (writeHandshake clientId token) (.stringTooLong (asBytes token).length)
          (magic ++ ([protoVersion] ++ (lpStr clientId ++ []))) := by
        refine .later (Writes.writeAll magic) ?_
        refine .later (Writes.writeAll [protoVersion]) ?_
        exact .later (writes_lpStr hc) (.here (lpStr_tooLong ht))
      simpa using h.emitted_eq
  · next hc =>
    have h : FailsAfter (writeHandshake clientId token) (.stringTooLong (asBytes clientId).length)
        (magic ++ ([protoVersion] ++ [])) := by
      refine .later (Writes.writeAll magic) ?_
      exact .later (Writes.writeAll [protoVersion]) (.here (lpStr_tooLong hc))
    simpa using h.emitted_eq

theorem handshake_emitted_ok {clientId token : String} {enc : List UInt8} :
    (writeHandshake clientId token).emitted = (.ok (), enc) ↔
      (Fits clientId ∧ Fits token) ∧ enc = handshakeBytes clientId token := by
  rw [emitted_handshake]
  by_cases hc : Fits clientId
  · by_cases ht : Fits token
    · simp [hc, ht, eq_comm]
    · simp [hc, ht]
  · simp [hc]

theorem readHandshake_ok_iff {source : Chunks} {clientId token : String} {rest : List UInt8} :
    (∃ r : Chunks, readHandshake source = .ok ((clientId, token), r) ∧ r.pieces.flatten = rest) ↔
      (Fits clientId ∧ Fits token) ∧
        source.pieces.flatten = handshakeBytes clientId token ++ rest := by
  constructor
  · rintro ⟨r, hr, rfl⟩
    obtain ⟨_, ⟨hfits, rfl⟩, hu⟩ := consumes_handshake source _ r hr
    exact ⟨hfits, hu⟩
  · rintro ⟨⟨hc, ht⟩, hu⟩
    exact reads_handshake hc ht source rest hu

/-- Two handshakes at the front of the same bytes are the same handshake. -/
theorem handshakeBytes_unique {clientId token clientId' token' : String} {rest rest' : List UInt8}
    (h : Fits clientId ∧ Fits token) (h' : Fits clientId' ∧ Fits token')
    (heq : handshakeBytes clientId token ++ rest = handshakeBytes clientId' token' ++ rest') :
    (clientId, token) = (clientId', token') ∧ rest = rest' := by
  let source : Chunks := ⟨[handshakeBytes clientId token ++ rest]⟩
  have hsource : ByteSource.unread source = handshakeBytes clientId token ++ rest := by
    simp [source]
  exact Reads.unique (reads_handshake h.1 h.2) (reads_handshake h'.1 h'.2) hsource
    (hsource.trans heq)

theorem lpStr_unique {s s' : String} {rest rest' : List UInt8} (h : Fits s) (h' : Fits s')
    (heq : lpStr s ++ rest = lpStr s' ++ rest') : s = s' ∧ rest = rest' := by
  let source : Chunks := ⟨[lpStr s ++ rest]⟩
  have hsource : ByteSource.unread source = lpStr s ++ rest := by simp [source]
  exact Reads.unique (reads_lpStr h) (reads_lpStr h') hsource (hsource.trans heq)

example : lpStr "né" ++ lpStr "" = [0, 3, 110, 195, 169, 0, 0] := by decide

/-- The bytes a failing `writeHandshake` has emitted begin with no handshake. -/
theorem emitted_partial {clientId token clientId' token' : String} {e : ProtocolError}
    {emitted rest : List UInt8}
    (h : (writeHandshake clientId token).emitted = (.error e, emitted))
    (h' : Fits clientId' ∧ Fits token') : emitted ≠ handshakeBytes clientId' token' ++ rest := by
  rintro rfl
  rw [emitted_handshake] at h
  by_cases hc : Fits clientId
  · by_cases ht : Fits token
    · simp [hc, ht] at h
    · -- The string behind the version is read from both sides; nothing is left for the token.
      simp only [hc, ht, if_true, if_false, Prod.mk.injEq] at h
      have hstr : lpStr clientId ++ [] = lpStr clientId' ++ (lpStr token' ++ rest) := by
        simpa [handshakeBytes] using h.2
      have hnil := (lpStr_unique hc h'.1 hstr).2
      simp [lpStr, toBeBytes] at hnil
  · simp only [hc, if_false, Prod.mk.injEq] at h
    have hlen := congrArg List.length h.2
    simp [handshakeBytes, lpStr, toBeBytes, magic] at hlen

/-- **`read_handshake` accepts exactly the grammar.** On the bytes received before
the end of the stream, in any fragmentation:

* it returns `(clientId, token)` and leaves `rest` if and only if the bytes are
  what `write_handshake` emits for `(clientId, token)`, followed by `rest`;
* these three are determined by the bytes;
* on all other bytes it fails;
* in particular on every strict prefix of a handshake,
* and on what a failing `write_handshake` has emitted. -/
theorem readHandshake_exact (source : Chunks) :
    (∀ clientId token rest,
      (∃ r : Chunks, readHandshake source = .ok ((clientId, token), r) ∧
        r.pieces.flatten = rest) ↔
      ∃ enc, (writeHandshake clientId token).emitted = (.ok (), enc) ∧
        source.pieces.flatten = enc ++ rest) ∧
    (∀ clientId token enc rest clientId' token' enc' rest',
      (writeHandshake clientId token).emitted = (.ok (), enc) →
      (writeHandshake clientId' token').emitted = (.ok (), enc') →
      source.pieces.flatten = enc ++ rest → source.pieces.flatten = enc' ++ rest' →
      (clientId, token) = (clientId', token') ∧ rest = rest') ∧
    ((¬ ∃ clientId token enc rest, (writeHandshake clientId token).emitted = (.ok (), enc) ∧
        source.pieces.flatten = enc ++ rest) →
      ∃ e, readHandshake source = .error e) ∧
    (∀ clientId token enc, (writeHandshake clientId token).emitted = (.ok (), enc) →
      source.pieces.flatten <+: enc → source.pieces.flatten ≠ enc →
      ∃ e, readHandshake source = .error e) ∧
    (∀ clientId token e emitted, (writeHandshake clientId token).emitted = (.error e, emitted) →
      source.pieces.flatten = emitted → ∃ e', readHandshake source = .error e') := by
  -- A result that is not an error is a handshake in front of the bytes.
  have fails : (∀ (x : String × String) rest, (Fits x.1 ∧ Fits x.2) →
      source.pieces.flatten ≠ handshakeBytes x.1 x.2 ++ rest) →
      ∃ e, readHandshake source = .error e := by
    intro hnone
    cases hread : readHandshake source with
    | error e => exact ⟨e, rfl⟩
    | ok y =>
      obtain ⟨x, r⟩ := y
      obtain ⟨hfits, hu⟩ := readHandshake_ok_iff.mp ⟨r, hread, rfl⟩
      exact absurd hu (hnone x _ hfits)
  refine ⟨?_, ?_, ?_, ?_, ?_⟩
  · intro clientId token rest
    rw [readHandshake_ok_iff]
    constructor
    · rintro ⟨hfits, hu⟩
      exact ⟨_, handshake_emitted_ok.mpr ⟨hfits, rfl⟩, hu⟩
    · rintro ⟨enc, henc, hu⟩
      obtain ⟨hfits, rfl⟩ := handshake_emitted_ok.mp henc
      exact ⟨hfits, hu⟩
  · intro clientId token enc rest clientId' token' enc' rest' henc henc' hu hu'
    obtain ⟨hfits, rfl⟩ := handshake_emitted_ok.mp henc
    obtain ⟨hfits', rfl⟩ := handshake_emitted_ok.mp henc'
    exact handshakeBytes_unique hfits hfits' (hu.symm.trans hu')
  · intro hnone
    refine fails fun x rest hfits hu => hnone ?_
    exact ⟨x.1, x.2, _, rest, handshake_emitted_ok.mpr ⟨hfits, rfl⟩, hu⟩
  · rintro clientId token enc henc ⟨missing, hmissing⟩ hne
    obtain ⟨hfits, rfl⟩ := handshake_emitted_ok.mp henc
    refine fails fun x rest hx hu => hne ?_
    have heq : handshakeBytes clientId token ++ [] =
        handshakeBytes x.1 x.2 ++ (rest ++ missing) := by
      rw [List.append_nil, ← hmissing, hu, List.append_assoc]
    have hnil := (handshakeBytes_unique hfits hx heq).2
    rw [← hmissing, (List.append_eq_nil_iff.mp hnil.symm).2, List.append_nil]
  · rintro clientId token e emitted hemitted hu
    exact fails fun x rest hx hux => emitted_partial hemitted hx (hu.symm.trans hux)

end MiniMask.Protocol
