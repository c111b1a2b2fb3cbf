/-!
# Parsing socket addresses

The notation of `SocketAddr` in Rust's standard library (`core::net`): an IPv4
address and a port, `10.0.0.1:80`, or an IPv6 address between brackets with an
optional scope id and a port, `[fe80::1%3]:80`.

The parser of the library reads bytes. All it accepts is ASCII, so reading
characters accepts the same texts. A parser that fails leaves its text as it was,
so `<|>` tries its second argument at the same place.

* `readNumber_zeros`: zeros in front of a port change nothing, however many.
* `parseSocketAddr_v4`: an IPv4 address followed by a port is accepted.
-/

namespace NetAddr

abbrev Parser := StateT (List Char) Option

/-! ## Numbers -/

/-- `char::to_digit`. -/
def toDigit (radix : Nat) (c : Char) : Option Nat :=
  let d :=
    if '0' ≤ c ∧ c ≤ '9' then c.toNat - '0'.toNat
    else if 'a' ≤ c ∧ c ≤ 'z' then c.toNat - 'a'.toNat + 10
    else if 'A' ≤ c ∧ c ≤ 'Z' then c.toNat - 'A'.toNat + 10
    else radix
  if d < radix then some d else none

/-- The digits at the front of the text, and the text behind them. -/
def takeDigits (radix : Nat) : List Char → List Nat × List Char
  | [] => ([], [])
  | c :: text =>
    match toDigit radix c with
    | some d => (d :: (takeDigits radix text).1, (takeDigits radix text).2)
    | none => ([], c :: text)

def digitsValue (radix : Nat) (digits : List Nat) : Nat :=
  digits.foldl (fun result digit => result * radix + digit) 0

/-- `read_number`, for a type with the values below `bound`. -/
def readNumber (bound radix : Nat) (maxDigits : Option Nat) (allowZeroPrefix : Bool) :
    Parser (Fin bound) := fun text =>
  let digits := (takeDigits radix text).1
  if digits = [] then none
  else if maxDigits.any fun max => max < digits.length then none
  else if allowZeroPrefix = false ∧ digits.head? = some 0 ∧ 1 < digits.length then none
  else if h : digitsValue radix digits < bound then
    some (⟨digitsValue radix digits, h⟩, (takeDigits radix text).2)
  else none

def readGivenChar (target : Char) : Parser Unit
  | [] => none
  | c :: text => if c = target then some ((), text) else none

/-- `read_separator`: the separator stands in front of every item but the first. -/
def readSeparator (sep : Char) (first : Bool) : Parser Unit :=
  if first then pure () else readGivenChar sep

/-! ## Addresses -/

abbrev Octet := Fin 256

abbrev Segment := Fin 65536

structure Ipv4Addr where
  octets : Vector Octet 4
deriving DecidableEq

structure Ipv6Addr where
  segments : List Segment
  length_segments : segments.length = 8
deriving DecidableEq

inductive SocketAddr
  | v4 (ip : Ipv4Addr) (port : Fin 65536)
  | v6 (ip : Ipv6Addr) (port : Fin 65536) (scopeId : Fin 4294967296)
deriving DecidableEq

def readOctet : Parser Octet := readNumber 256 10 (some 3) false

def readIpv4Addr : Parser Ipv4Addr := do
  let a ← readOctet
  readGivenChar '.'
  let b ← readOctet
  readGivenChar '.'
  let c ← readOctet
  readGivenChar '.'
  let d ← readOctet
  pure ⟨#v[a, b, c, d]⟩

/-- `u16::from_be_bytes`. -/
def fromBeBytes (high low : Octet) : Segment := ⟨high.val * 256 + low.val, by omega⟩

/-- The two groups that an IPv4 address embedded in an IPv6 address stands for. -/
def Ipv4Addr.groups (ip : Ipv4Addr) : List Segment :=
  [fromBeBytes ip.octets[0] ip.octets[1], fromBeBytes ip.octets[2] ip.octets[3]]

/-- `read_groups`: at most `limit` groups, the last two possibly written as an IPv4
address, in which case the flag is set. It never fails. -/
def readGroups : (limit : Nat) → (first : Bool) →
    Parser ({ groups : List Segment // groups.length ≤ limit } × Bool)
  | 0, _ => pure (⟨[], Nat.le_refl 0⟩, false)
  | limit + 1, first =>
    (do
      if h : 1 ≤ limit then
        readSeparator ':' first
        let ip ← readIpv4Addr
        pure (⟨ip.groups, Nat.succ_le_succ h⟩, true)
      else failure) <|>
    (do
      readSeparator ':' first
      let group ← readNumber 65536 16 (some 4) true
      let (rest, ipv4) ← readGroups limit false
      pure (⟨group :: rest.val, Nat.succ_le_succ rest.property⟩, ipv4)) <|>
    pure (⟨[], Nat.zero_le _⟩, false)

def readIpv6Addr : Parser Ipv6Addr := do
  let (head, headIpv4) ← readGroups 8 true
  if h : head.val.length = 8 then pure ⟨head.val, h⟩
  else if headIpv4 then failure
  else
    readGivenChar ':'
    readGivenChar ':'
    let (tail, _) ← readGroups (8 - (head.val.length + 1)) true
    let zeros := List.replicate (8 - head.val.length - tail.val.length) (0 : Segment)
    pure ⟨head.val ++ zeros ++ tail.val, by
      have hhead := head.property
      have htail := tail.property
      simp only [zeros, List.length_append, List.length_replicate]
      omega⟩

def readPort : Parser (Fin 65536) := do
  readGivenChar ':'
  readNumber 65536 10 none true

def readScopeId : Parser (Fin 4294967296) := do
  readGivenChar '%'
  readNumber 4294967296 10 none true

def readSocketAddrV4 : Parser SocketAddr := do
  let ip ← readIpv4Addr
  let port ← readPort
  pure (.v4 ip port)

def readSocketAddrV6 : Parser SocketAddr := do
  readGivenChar '['
  let ip ← readIpv6Addr
  let scopeId ← readScopeId <|> pure 0
  readGivenChar ']'
  let port ← readPort
  pure (.v6 ip port scopeId)

/-- `SocketAddr::from_str`: the whole text is one address. -/
def parseSocketAddr (s : String) : Option SocketAddr :=
  match (readSocketAddrV4 <|> readSocketAddrV6) s.toList with
  | some (addr, []) => some addr
  | _ => none

def isSocketAddr (s : String) : Bool := (parseSocketAddr s).isSome

example : isSocketAddr "[fe80::1:127.0.0.1%3]:080" = true := by decide +kernel
example : isSocketAddr "127.0.0.01:80" = false := by decide +kernel
example : isSocketAddr "[1:2:3:4:5:6:7::]:65536" = false := by decide +kernel

/-! ## Leading zeros -/

section LeadingZeros

variable {radix bound n : Nat} {text : List Char}

theorem toDigit_zero (h : 0 < radix) : toDigit radix '0' = some 0 := if_pos h

theorem takeDigits_zeros (h : 0 < radix) :
    takeDigits radix (List.replicate n '0' ++ text) =
      (List.replicate n 0 ++ (takeDigits radix text).1, (takeDigits radix text).2) := by
  induction n with
  | zero => rfl
  | succ n ih => simp only [List.replicate_succ, List.cons_append, takeDigits, toDigit_zero h, ih]

theorem digitsValue_zeros (digits : List Nat) :
    digitsValue radix (List.replicate n 0 ++ digits) = digitsValue radix digits := by
  induction n with
  | zero => rfl
  | succ n ih =>
    rw [List.replicate_succ, List.cons_append, ← ih]
    simp [digitsValue]

/-- A number of any length may have any number of zeros in front of it. -/
theorem readNumber_zeros (hradix : 0 < radix) (htext : (takeDigits radix text).1 ≠ []) :
    readNumber bound radix none true (List.replicate n '0' ++ text) =
      readNumber bound radix none true text := by
  have hdigits : List.replicate n 0 ++ (takeDigits radix text).1 ≠ [] :=
    List.append_ne_nil_of_right_ne_nil _ htext
  simp only [readNumber, takeDigits_zeros hradix, digitsValue_zeros, if_neg htext, if_neg hdigits,
    Option.any_none, Bool.true_eq_false, false_and, if_false]

end LeadingZeros

/-- A text that is an IPv4 address up to its colon, and a port behind it. -/
theorem parseSocketAddr_v4 {s : String} {host port : List Char} {ip : Ipv4Addr} {p : Fin 65536}
    (htext : s.toList = host ++ ':' :: port)
    (hhost : readIpv4Addr (host ++ ':' :: port) = some (ip, ':' :: port))
    (hport : readNumber 65536 10 none true port = some (p, [])) :
    parseSocketAddr s = some (.v4 ip p) := by
  have hread : readPort (':' :: port) = some (p, []) := hport
  have hv4 : readSocketAddrV4 (host ++ ':' :: port) = some (.v4 ip p, []) := by
    show (readIpv4Addr (host ++ ':' :: port)).bind _ = _
    rw [hhost]
    show (readPort (':' :: port)).bind _ = _
    rw [hread]
    rfl
  have horElse : (readSocketAddrV4 <|> readSocketAddrV6) (host ++ ':' :: port) =
      some (.v4 ip p, []) := by
    show (readSocketAddrV4 (host ++ ':' :: port) <|> _) = _
    rw [hv4]
    rfl
  unfold parseSocketAddr
  rw [htext, horElse]

end NetAddr
