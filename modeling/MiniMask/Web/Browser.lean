import MiniMask.Web.Authority

/-!
# The cookie on its way (`web/auth.rs`, `set_auth_cookie`, `get_cookie`)

A browser keeps of a `Set-Cookie` line what stands before the first semicolon, and sends it
back on one line with the other cookies it has for the host.

`cookie_roundtrip`: whatever the other cookies are, as long as they are ASCII, what `login`
set comes back as the token and is good until the token expires.
-/

namespace MiniMask.Web

open Protocol (asBytes)

/-! ## A browser -/

def space : UInt8 := 32

def cookiePair (setCookie : List UInt8) : List UInt8 := setCookie.takeWhile (· != semicolon)

/-- The `Cookie` line for the pairs that the browser has. -/
def cookieLine (pairs : List (List UInt8)) : List UInt8 := [semicolon, space].intercalate pairs

/-- The parts that `get_cookie` sees: all but the first begin with a space. -/
def cookieParts : List (List UInt8) → List (List UInt8)
  | [] => []
  | pair :: pairs => pair :: pairs.map (space :: ·)

/-- A pair that can stand on the line. -/
structure Legible (pair : List UInt8) : Prop where
  visible : pair.all isVisibleAscii = true
  whole : semicolon ∉ pair

/-- The bytes of base64url, and the dot. -/
def isTokenByte (b : UInt8) : Bool :=
  (48 ≤ b && b ≤ 57) || (65 ≤ b && b ≤ 90) || (97 ≤ b && b ≤ 122) || b == 45 || b == 95 || b == 46

section Parts

variable {pair : List UInt8} {pairs : List (List UInt8)} {name : List UInt8}

theorem cookieLine_eq (pairs : List (List UInt8)) :
    cookieLine pairs = [semicolon].intercalate (cookieParts pairs) := by
  cases pairs with
  | nil => rfl
  | cons pair pairs =>
    induction pairs generalizing pair with
    | nil => rfl
    | cons next pairs ih =>
      have hrest := ih next
      rw [cookieLine, cookieParts] at hrest
      rw [cookieLine, List.intercalate_cons_cons, cookieParts, List.map_cons,
        List.intercalate_cons_cons, List.intercalate_cons_cons_left, hrest,
        List.append_assoc, List.append_assoc]
      rfl

theorem partValue_space (name pair : List UInt8) :
    partValue name (space :: pair) = partValue name pair := rfl

theorem findSome?_cookieParts (name : List UInt8) (pairs : List (List UInt8)) :
    (cookieParts pairs).findSome? (partValue name) = pairs.findSome? (partValue name) := by
  cases pairs with
  | nil => rfl
  | cons pair pairs =>
    rw [cookieParts, List.findSome?_cons, List.findSome?_cons, List.findSome?_map]
    simp only [Function.comp_def, partValue_space]

theorem whole_cookieParts (h : ∀ pair ∈ pairs, Legible pair) :
    ∀ part ∈ cookieParts pairs, semicolon ∉ part := by
  intro part hpart
  cases pairs with
  | nil => cases hpart
  | cons pair pairs =>
    rcases List.mem_cons.mp hpart with rfl | hpart
    · exact (h _ List.mem_cons_self).whole
    · obtain ⟨rest, hrest, rfl⟩ := List.mem_map.mp hpart
      intro hmem
      rcases List.mem_cons.mp hmem with hspace | hmem
      · cases hspace
      · exact (h rest (List.mem_cons_of_mem _ hrest)).whole hmem

theorem visible_cookieLine (h : ∀ pair ∈ pairs, Legible pair) :
    (cookieLine pairs).all isVisibleAscii = true := by
  unfold cookieLine
  induction pairs with
  | nil => rfl
  | cons pair pairs ih =>
    have hpair := (h pair List.mem_cons_self).visible
    have hpairs := ih fun p hp => h p (List.mem_cons_of_mem _ hp)
    cases pairs with
    | nil =>
      rw [List.intercalate_singleton]
      exact hpair
    | cons next pairs =>
      rw [List.intercalate_cons_cons, List.all_append, List.all_append, hpair, hpairs]
      rfl

/-- What `get_cookie` finds on the line of a browser. -/
theorem getCookie_cookieLine {http : Http} {headers : HeaderMap} {line : HeaderValue}
    (hget : http.get headers "cookie" = some line) (hline : line.bytes = cookieLine pairs)
    (hne : pairs ≠ []) (h : ∀ pair ∈ pairs, Legible pair) :
    getCookie http headers name = pairs.findSome? (partValue name) := by
  have hparts : cookieParts pairs ≠ [] := by
    cases pairs with
    | nil => exact absurd rfl hne
    | cons pair pairs => exact List.cons_ne_nil _ _
  unfold getCookie
  rw [hget, Option.bind_some, http.toStr_visible line (hline ▸ visible_cookieLine h), hline,
    Option.bind_some, cookieLine_eq,
    List.splitOn_intercalate semicolon (whole_cookieParts h) hparts, findSome?_cookieParts]

end Parts

/-! ## The pair of `login` -/

section Pair

variable {token : String} {ttlSecs : Nat} {secure : Bool}

theorem asBytes_append (a b : String) : asBytes (a ++ b) = asBytes a ++ asBytes b := by
  simp [asBytes]

theorem range_of_token {b : UInt8} (h : isTokenByte b = true) :
    45 ≤ b.toNat ∧ b.toNat ≤ 122 ∧ b.toNat ≠ 59 := by
  simp only [isTokenByte, Bool.or_eq_true, Bool.and_eq_true, decide_eq_true_eq, beq_iff_eq,
    UInt8.le_iff_toNat_le, ← UInt8.toNat_inj, UInt8.reduceToNat] at h
  omega

theorem legible_of_token {b : UInt8} (h : isTokenByte b = true) :
    isSpace b = false ∧ isVisibleAscii b = true ∧ b ≠ semicolon := by
  have hrange := range_of_token h
  simp only [isSpace, isVisibleAscii, semicolon, Bool.or_eq_false_iff, Bool.and_eq_false_iff,
    decide_eq_false_iff_not, beq_eq_false_iff_ne, Bool.or_eq_true, Bool.and_eq_true,
    decide_eq_true_eq, ne_eq, UInt8.le_iff_toNat_le, UInt8.lt_iff_toNat_lt, ← UInt8.toNat_inj,
    UInt8.reduceToNat]
  omega

/-- What holds of the bytes of the name, of `=` and of all bytes of tokens holds of the
pair. -/
theorem forall_pair {p : UInt8 → Prop} {text : List UInt8} (hname : ∀ b ∈ cookieName, p b)
    (hequals : p equals) (htext : ∀ b, isTokenByte b = true → p b)
    (h : text.all isTokenByte = true) : ∀ b ∈ cookieName ++ equals :: text, p b := by
  intro b hb
  rcases List.mem_append.mp hb with hb | hb
  · exact hname b hb
  · rcases List.mem_cons.mp hb with rfl | hb
    · exact hequals
    · exact htext b (List.all_eq_true.mp h b hb)

theorem cookiePair_authCookie (htoken : (asBytes token).all isTokenByte = true) :
    cookiePair (asBytes (authCookie token ttlSecs secure)) =
      cookieName ++ equals :: asBytes token := by
  have hname : asBytes "mmk_token=" = cookieName ++ [equals] := by decide +kernel
  have hwhole : ∀ b ∈ cookieName ++ equals :: asBytes token, (b != semicolon) = true := by
    exact forall_pair (by decide +kernel) (by decide)
      (fun b hb => bne_iff_ne.mpr (legible_of_token hb).2.2) htoken
  have hstop : (asBytes "; HttpOnly; Path=/; SameSite=Strict; Max-Age=").head? =
      some semicolon := by decide +kernel
  obtain ⟨rest, hrest⟩ := List.head?_eq_some_iff.mp hstop
  have htext : ∃ rest', asBytes (authCookie token ttlSecs secure) =
      (cookieName ++ equals :: asBytes token) ++ semicolon :: rest' := by
    unfold authCookie
    rw [asBytes_append, asBytes_append, asBytes_append, asBytes_append, hname, hrest]
    simp only [List.append_assoc, List.cons_append, List.nil_append]
    exact ⟨_, rfl⟩
  obtain ⟨rest', htext⟩ := htext
  -- The pair ends where the attributes begin: a token has no semicolon.
  rw [cookiePair, htext, List.takeWhile_append_of_pos hwhole,
    List.takeWhile_cons_of_neg (by decide), List.append_nil]

theorem trim_eq_self {text : List UInt8} (h : ∀ b ∈ text, isSpace b = false) :
    trim text = text := by
  have hstart : text.dropWhile isSpace = text := by
    cases text with
    | nil => rfl
    | cons b text => exact List.dropWhile_cons_of_neg (by simp [h b List.mem_cons_self])
  unfold trim
  rw [hstart, List.rdropWhile_eq_self_iff]
  intro hne
  simp [h _ (List.getLast_mem hne)]

/-- The pair stands for the token. -/
theorem partValue_token {text : List UInt8} (h : text.all isTokenByte = true) :
    partValue cookieName (cookieName ++ equals :: text) = some text := by
  have htrim : trim (cookieName ++ equals :: text) = cookieName ++ equals :: text :=
    trim_eq_self (forall_pair (by decide +kernel) (by decide)
      (fun b hb => (legible_of_token hb).1) h)
  have hname : stripPrefix cookieName (cookieName ++ equals :: text) =
      some (equals :: text) := by
    unfold stripPrefix
    rw [if_pos (List.isPrefixOf_iff_prefix.mpr (List.prefix_append _ _)), List.drop_left]
  unfold partValue
  rw [htrim, hname, Option.bind_some]
  rfl

theorem legible_pair {text : List UInt8} (h : text.all isTokenByte = true) :
    Legible (cookieName ++ equals :: text) := by
  refine ⟨List.all_eq_true.mpr ?_, fun hmem => ?_⟩
  · exact forall_pair (by decide +kernel) (by decide) (fun b hb => (legible_of_token hb).2.1) h
  · exact forall_pair (by decide +kernel) (by decide) (fun b hb => (legible_of_token hb).2.2) h
      semicolon hmem rfl

end Pair

end MiniMask.Web

namespace MiniMask.Access

open Lts Web
open Protocol (asBytes)

variable {env : Env} {s : State}

theorem setCookie_of_loginAnswer {username token : String} {response : LoginResponse}
    {value : HeaderValue} (h : loginAnswer env username token = .loggedIn response)
    (hset : response.setCookie = some value) :
    ∃ ttlSecs, value.bytes = asBytes (authCookie token ttlSecs env.config.server.webTls) := by
  unfold loginAnswer at h
  split at h
  · next ttlSecs _ =>
    cases h
    exact ⟨ttlSecs, env.http.fromStr_bytes _ _ hset⟩
  · cases h

/-- A browser that has logged in sends the token back with its other cookies; the server finds
the token, and takes the request for one of the user of the login until the token expires. -/
theorem cookie_roundtrip {g : Grant} {response : LoginResponse} {value line : HeaderValue}
    {before after : List (List UInt8)} {headers : HeaderMap} {now : Nat}
    (hcfg : env.config.Accepted) (hjwt : env.jwt.Faithful env.config.auth.jwtSecret)
    (h : Reachable (Guarded (Step env) (Unforged env)) Init s) (hg : g ∈ s.grants)
    (htoken : (asBytes g.token).all isTokenByte = true)
    (hanswer : loginAnswer env g.req.username g.token = .loggedIn response)
    (hset : response.setCookie = some value) (hget : env.http.get headers "cookie" = some line)
    (hline : line.bytes = cookieLine (before ++ cookiePair value.bytes :: after))
    (hbefore : ∀ pair ∈ before, Legible pair ∧ partValue cookieName pair = none)
    (hafter : ∀ pair ∈ after, Legible pair) :
    getCookie env.http headers cookieName = some (asBytes g.token) ∧
      authorize env now headers =
        if now ≤ g.time + env.lifetime + leeway then some g.req.username else none := by
  obtain ⟨ttlSecs, hvalue⟩ := setCookie_of_loginAnswer hanswer hset
  have hpair : cookiePair value.bytes = cookieName ++ equals :: asBytes g.token := by
    rw [hvalue, cookiePair_authCookie htoken]
  -- The pairs before this one have other names; what is behind it is not looked at.
  have hcookie : getCookie env.http headers cookieName = some (asBytes g.token) := by
    rw [getCookie_cookieLine hget hline (by simp), List.findSome?_append,
      List.findSome?_eq_none_iff.mpr fun pair hp => (hbefore pair hp).2, Option.none_or,
      List.findSome?_cons, hpair, partValue_token htoken]
    intro pair hp
    rcases List.mem_append.mp hp with hp | hp
    · exact (hbefore pair hp).1
    · rcases List.mem_cons.mp hp with rfl | hp
      · exact hpair ▸ legible_pair htoken
      · exact hafter pair hp
  have hdecode := hjwt _ _ ((sound hcfg hjwt h).grants g hg).signed
  refine ⟨hcookie, ?_⟩
  unfold authorize requireAuth Jwt.verify
  rw [hcookie, Option.bind_some, hdecode, Option.bind_some]
  dsimp only
  split
  · next hlate => exact (if_neg (by omega)).symm
  · next hfresh => exact (if_pos (by omega)).symm

/-- The `Set-Cookie` line of the example's login. -/
def exampleCookie : HeaderValue where
  bytes := asBytes (authCookie exampleToken 86400 false)
  valid := by decide +kernel

/-- What a browser with a cookie of another application sends. -/
def exampleLine : HeaderValue where
  bytes := cookieLine ([asBytes "theme=dark"] ++ cookiePair exampleCookie.bytes :: [])
  valid := by decide +kernel

/-- The user is known until the end of the day, with the cookie of another application beside
the token. -/
theorem cookie_roundtrip_theme :
    getCookie exampleEnv.http [("cookie", exampleLine)] cookieName = some (asBytes exampleToken) ∧
      authorize exampleEnv 1750086400 [("cookie", exampleLine)] = some "admin" := by
  obtain ⟨s, hs⟩ := logged_in
  have hanswer : loginAnswer exampleEnv "admin" exampleToken =
      .loggedIn { username := "admin", setCookie := some exampleCookie } := by decide +kernel
  have htheme : Legible (asBytes "theme=dark") ∧
      partValue cookieName (asBytes "theme=dark") = none :=
    ⟨⟨by decide +kernel, by decide +kernel⟩, by decide +kernel⟩
  have hget : exampleEnv.http.get [("cookie", exampleLine)] "cookie" = some exampleLine := rfl
  have hline : exampleLine.bytes =
      cookieLine ([asBytes "theme=dark"] ++ cookiePair exampleCookie.bytes :: []) := rfl
  have hauth : _ ∧ authorize exampleEnv 1750086400 [("cookie", exampleLine)] = _ :=
    cookie_roundtrip (g := exampleGrant) accepted_example faithful_example hs.reachable
      (hs.grants ▸ List.mem_singleton_self _) (by decide +kernel) hanswer rfl hget hline
      (fun pair hp => List.mem_singleton.mp hp ▸ htheme) nofun
  refine ⟨hauth.1, hauth.2.trans ?_⟩
  decide

end MiniMask.Access
