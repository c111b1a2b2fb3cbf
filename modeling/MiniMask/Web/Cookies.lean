import Mathlib.Data.List.DropRight
import MiniMask.Protocol

/-!
# The cookie of a request (`web/auth.rs`, `get_cookie`, `require_auth`)

A browser sends its cookies in one `Cookie` line or in several, next to cookies of other
applications on the same host. `get_cookie` looks at the first line only, and at nothing in
it unless every byte of the line is visible ASCII.

`getCookie_exact`: a cookie that is there once is found, and one that is not there is not,
exactly if the part that has it is on the first line and this line is visible ASCII.
`foreign_cookie` is the other case.
-/

namespace MiniMask.Web

open Protocol

/-! ## Headers -/

/-- What `HeaderValue` may hold. -/
def isHeaderByte (b : UInt8) : Bool := (32 ≤ b && b != 127) || b == 9

/-- `is_visible_ascii` of the crate `http`. -/
def isVisibleAscii (b : UInt8) : Bool := (32 ≤ b && b < 127) || b == 9

structure HeaderValue where
  bytes : List UInt8
  valid : bytes.all isHeaderByte = true
deriving DecidableEq

/-- The lines in the order in which they came, with their names in lower case. -/
abbrev HeaderMap := List (String × HeaderValue)

/-- The values of a name, in the order of their lines. -/
def valuesOf (headers : HeaderMap) (name : String) : List HeaderValue :=
  (headers.filter fun line => line.1 == name).map (·.2)

/-- What the server calls of the crate `http`, with what that documents: `HeaderMap::get` has
the first of the values of a name, `to_str` fails where a byte is not visible ASCII, and the
value that `from_str` makes has the bytes of its text. -/
structure Http where
  get : HeaderMap → String → Option HeaderValue
  toStr : HeaderValue → Option (List UInt8)
  fromStr : String → Option HeaderValue
  get_first : ∀ headers name, get headers name = (valuesOf headers name).head?
  toStr_visible : ∀ v, v.bytes.all isVisibleAscii = true → toStr v = some v.bytes
  toStr_fails : ∀ v, v.bytes.all isVisibleAscii = false → toStr v = none
  fromStr_bytes : ∀ text v, fromStr text = some v → v.bytes = asBytes text

/-! ## Parts -/

/-- The ASCII characters that `str::trim` removes. -/
def isSpace (b : UInt8) : Bool := (9 ≤ b && b ≤ 13) || b == 32

def trim (text : List UInt8) : List UInt8 := (text.dropWhile isSpace).rdropWhile isSpace

def stripPrefix (start text : List UInt8) : Option (List UInt8) :=
  if start.isPrefixOf text then some (text.drop start.length) else none

def semicolon : UInt8 := 59

def equals : UInt8 := 61

/-- The value of a part, if it has the form `name=value`. -/
def partValue (name part : List UInt8) : Option (List UInt8) :=
  (stripPrefix name (trim part)).bind (stripPrefix [equals])

/-! ## `get_cookie` and `require_auth` -/

section Requests

variable (http : Http)

def getCookie (headers : HeaderMap) (name : List UInt8) : Option (List UInt8) :=
  (http.get headers "cookie").bind fun header =>
    (http.toStr header).bind fun text => (text.splitOn semicolon).findSome? (partValue name)

/-- `COOKIE_NAME`. -/
def cookieName : List UInt8 := asBytes "mmk_token"

/-- `require_auth` hands on the user name, or answers that the request is not authorized.
`verifyJwt` gives the `sub` of a token that is valid now. -/
def requireAuth (verifyJwt : List UInt8 → String → Option String) (jwtSecret : String)
    (headers : HeaderMap) : Option String :=
  (getCookie http headers cookieName).bind fun token => verifyJwt token jwtSecret

end Requests

/-! ## The cookies of a request -/

/-- The lines of the cookies. -/
def cookieLines (headers : HeaderMap) : List HeaderValue := valuesOf headers "cookie"

/-- The visible values that a line has for `name`, one for each part of the form
`name=value`. -/
def HeaderValue.values (name : List UInt8) (line : HeaderValue) : List (List UInt8) :=
  (line.bytes.splitOn semicolon).filterMap fun part =>
    (partValue name part).filter fun v => v.all isVisibleAscii

/-- All values that the request has for `name`. -/
def cookies (headers : HeaderMap) (name : List UInt8) : List (List UInt8) :=
  (cookieLines headers).flatMap (HeaderValue.values name)

/-- A cookie that is there once is found, and one that is not there is not. -/
structure Finds (http : Http) (headers : HeaderMap) (name : List UInt8) : Prop where
  found : ∀ v, cookies headers name = [v] → getCookie http headers name = some v
  absent : cookies headers name = [] → getCookie http headers name = none

/-- If there is one such part, it is on the first line, and this line is visible ASCII. -/
def OnFirstLine (headers : HeaderMap) (name : List UInt8) : Prop :=
  ∀ v, cookies headers name = [v] → ∃ line, (cookieLines headers).head? = some line ∧
    line.bytes.all isVisibleAscii = true ∧ line.values name = [v]

/-! ## What a part can hold -/

section Parts

variable {b sep : UInt8} {name part text start v : List UInt8}

theorem mem_of_mem_splitOn (hpart : part ∈ text.splitOn sep) (hb : b ∈ part) : b ∈ text := by
  induction text generalizing part with
  | nil =>
    rw [List.splitOn_nil, List.mem_singleton] at hpart
    rw [hpart] at hb
    exact hb
  | cons c text ih =>
    rw [List.splitOn_cons_eq_if_modifyHead] at hpart
    split at hpart
    · rcases List.mem_cons.mp hpart with rfl | hpart
      · cases hb
      · exact List.mem_cons_of_mem _ (ih hpart hb)
    · obtain ⟨first, rest, hsplit⟩ :=
        List.exists_cons_of_ne_nil (List.splitOn_ne_nil sep text)
      rw [hsplit, List.modifyHead_cons] at hpart
      rcases List.mem_cons.mp hpart with rfl | hpart
      · rcases List.mem_cons.mp hb with rfl | hb
        · exact List.mem_cons_self
        · exact List.mem_cons_of_mem _ (ih (hsplit ▸ List.mem_cons_self) hb)
      · exact List.mem_cons_of_mem _ (ih (hsplit ▸ List.mem_cons_of_mem _ hpart) hb)

theorem mem_of_mem_trim (hb : b ∈ trim text) : b ∈ text :=
  (List.dropWhile_sublist _).subset ((List.rdropWhile_prefix _ _).subset hb)

theorem mem_of_stripPrefix (h : stripPrefix start text = some v) (hb : b ∈ v) : b ∈ text := by
  unfold stripPrefix at h
  split at h
  · cases h
    exact List.mem_of_mem_drop hb
  · cases h

theorem mem_of_partValue (h : partValue name part = some v) (hb : b ∈ v) : b ∈ part := by
  obtain ⟨rest, hrest, hv⟩ := Option.bind_eq_some_iff.mp h
  exact mem_of_mem_trim (mem_of_stripPrefix hrest (mem_of_stripPrefix hv hb))

/-- On a line of visible ASCII, the values are those that the loop goes through. -/
theorem values_of_visible {line : HeaderValue} (h : line.bytes.all isVisibleAscii = true) :
    line.values name = (line.bytes.splitOn semicolon).filterMap (partValue name) := by
  refine List.filterMap_congr fun part hpart => ?_
  cases hv : partValue name part with
  | none => rfl
  | some v =>
    have hvisible : v.all isVisibleAscii = true := List.all_eq_true.mpr fun b hb =>
      List.all_eq_true.mp h b (mem_of_mem_splitOn hpart (mem_of_partValue hv hb))
    rw [Option.filter_some, if_pos hvisible]

end Parts

/-! ## What `get_cookie` finds -/

section GetCookie

variable {http : Http} {headers : HeaderMap} {name v : List UInt8} {line : HeaderValue}
  {rest : List HeaderValue}

theorem getCookie_nil (h : cookieLines headers = []) : getCookie http headers name = none := by
  unfold getCookie
  rw [http.get_first, show valuesOf headers "cookie" = [] from h]
  rfl

/-- The first line decides. -/
theorem getCookie_cons (h : cookieLines headers = line :: rest) :
    getCookie http headers name =
      if line.bytes.all isVisibleAscii then (line.values name).head? else none := by
  unfold getCookie
  rw [http.get_first, show valuesOf headers "cookie" = line :: rest from h, List.head?_cons,
    Option.bind_some]
  split
  · next hvisible =>
    rw [http.toStr_visible line hvisible, Option.bind_some, values_of_visible hvisible,
      List.head?_filterMap]
  · next hother => rw [http.toStr_fails line (Bool.eq_false_iff.mpr hother), Option.bind_none]

theorem cookies_cons (h : cookieLines headers = line :: rest) :
    cookies headers name = line.values name ++ rest.flatMap (HeaderValue.values name) := by
  unfold cookies
  rw [h, List.flatMap_cons]

/-- What is not there is not found, on whatever lines. -/
theorem getCookie_absent (h : cookies headers name = []) :
    getCookie http headers name = none := by
  cases hlines : cookieLines headers with
  | nil => exact getCookie_nil hlines
  | cons line rest =>
    rw [cookies_cons hlines] at h
    rw [getCookie_cons hlines, (List.append_eq_nil_iff.mp h).1]
    exact ite_self _

/-- What is there once is found if and only if the first line shows it. -/
theorem getCookie_once (h : cookies headers name = [v]) :
    getCookie http headers name = some v ↔ ∃ line, (cookieLines headers).head? = some line ∧
      line.bytes.all isVisibleAscii = true ∧ line.values name = [v] := by
  cases hlines : cookieLines headers with
  | nil =>
    unfold cookies at h
    rw [hlines] at h
    cases h
  | cons line rest =>
    rw [cookies_cons hlines] at h
    rw [getCookie_cons hlines]
    constructor
    · intro hfound
      split at hfound
      · next hvisible =>
        refine ⟨line, rfl, hvisible, ?_⟩
        cases hvalues : line.values name with
        | nil => rw [hvalues] at hfound; cases hfound
        | cons w ws =>
          -- The value is the only one of all lines, so it is the first of this one.
          rw [hvalues, List.cons_append] at h
          obtain ⟨rfl, hnil⟩ := List.cons.inj h
          rw [(List.append_eq_nil_iff.mp hnil).1]
      · cases hfound
    · rintro ⟨line', hhead, hvisible, hvalues⟩
      cases hhead
      rw [if_pos hvisible, hvalues]
      rfl

/-- `get_cookie` finds a cookie that is there once, and none that is not there, if and only
if the one part that has it is on the first line and this line is visible ASCII. -/
theorem getCookie_exact (http : Http) (headers : HeaderMap) (name : List UInt8) :
    Finds http headers name ↔ OnFirstLine headers name := by
  constructor
  · intro h v hv
    exact (getCookie_once hv).mp (h.found v hv)
  · intro h
    exact ⟨fun v hv => (getCookie_once hv).mpr (h v hv), getCookie_absent⟩

end GetCookie

/-! ## A cookie of another application -/

def exampleHttp : Http where
  get headers name := (valuesOf headers name).head?
  toStr v := if v.bytes.all isVisibleAscii then some v.bytes else none
  fromStr text :=
    if h : (asBytes text).all isHeaderByte = true then some ⟨asBytes text, h⟩ else none
  get_first _ _ := rfl
  toStr_visible _ h := if_pos h
  toStr_fails _ h := if_neg (by rw [h]; exact Bool.false_ne_true)
  fromStr_bytes text v h := by
    split at h
    · cases h
      rfl
    · cases h

/-- `mmk_token=abc; city=Zürich`, as a browser sends it. -/
def foreignLine : HeaderValue where
  bytes := [109, 109, 107, 95, 116, 111, 107, 101, 110, 61, 97, 98, 99, 59, 32, 99, 105, 116, 121,
    61, 90, 195, 188, 114, 105, 99, 104]
  valid := by decide

/-- The token is there once, and a cookie beside it that is not ASCII hides it. -/
theorem foreign_cookie :
    cookies [("cookie", foreignLine)] cookieName = [[97, 98, 99]] ∧
      getCookie exampleHttp [("cookie", foreignLine)] cookieName = none ∧
      ¬ Finds exampleHttp [("cookie", foreignLine)] cookieName := by
  have honce : cookies [("cookie", foreignLine)] cookieName = [[97, 98, 99]] := by decide
  have hnone : getCookie exampleHttp [("cookie", foreignLine)] cookieName = none := by decide
  refine ⟨honce, hnone, fun h => ?_⟩
  cases hnone.symm.trans (h.found _ honce)

end MiniMask.Web
