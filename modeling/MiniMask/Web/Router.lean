import MiniMask.Lib.Routing
import MiniMask.Protocol

/-!
# The routes (`web/mod.rs`, `build_app`; `web/embed.rs`)

The table of `build_app`. The layer of `require_auth` is around whole routes, so it also
answers for the methods that a route does not have. What no route takes goes to
`serve_embed`.

* `dispatch_run`: the handler that runs is the one of the table, with the user that
  `require_auth` found; the login alone runs without one.
* `dispatch_unauthorized`: which requests are turned away.
* `index_uncached`: a page that may be cached is an asset that is not `index.html`.

What a capture takes is up to the crate `matchit`; it is a parameter.
-/

namespace MiniMask.Web

open Routing
open Protocol (asBytes)

/-! ## The table -/

inductive Method
  | get
  | head
  | post
  | patch
  | delete
  | other (name : String)
deriving DecidableEq, Repr

/-- The functions that answer requests. -/
inductive Handler
  | login
  | me
  | logout
  | listClients
  | createClient
  | updateClient
  | deleteClient
  | regenerateToken
  | listMappings
  | createMapping
  | updateMapping
  | deleteMapping
  | listLogs
  | getStats
  | listSessions
  | getSettings
  | changePassword
  | wsHandler
deriving DecidableEq, Repr

/-- A route: whether the layer of `require_auth` is around it, and its handlers. -/
structure Endpoint where
  layered : Bool
  methods : List (Method × Handler)
deriving DecidableEq, Repr

/-- The handler for a method. `get` answers to `HEAD` as well. -/
def Endpoint.handler (endpoint : Endpoint) (method : Method) : Option Handler :=
  match endpoint.methods.lookup method with
  | some h => some h
  | none => if method = .head then endpoint.methods.lookup .get else none

/-- A path or the text of a route, cut at the slashes. -/
def segments (text : String) : List (List Char) := text.toList.splitOn '/'

/-- A segment of a route: `{id}` is a capture. -/
def segment (text : List Char) : Segment (List Char) :=
  if text.head? = some '\x7b' ∧ text.getLast? = some '\x7d' then .capture else .fixed text

def route (text : String) (endpoint : Endpoint) : Pattern (List Char) × Endpoint :=
  ((segments text).map segment, endpoint)

def publicRoutes : List (Pattern (List Char) × Endpoint) :=
  [route "/api/auth/login" { layered := false, methods := [(.post, .login)] }]

def protectedRoutes : List (Pattern (List Char) × Endpoint) :=
  [ ("/api/auth/me", [(.get, .me)]),
    ("/api/auth/logout", [(.post, .logout)]),
    ("/api/clients", [(.get, .listClients), (.post, .createClient)]),
    ("/api/clients/\x7bid\x7d", [(.patch, .updateClient), (.delete, .deleteClient)]),
    ("/api/clients/\x7bid\x7d/regenerate-token", [(.post, .regenerateToken)]),
    ("/api/mappings", [(.get, .listMappings), (.post, .createMapping)]),
    ("/api/mappings/\x7bid\x7d", [(.patch, .updateMapping), (.delete, .deleteMapping)]),
    ("/api/logs", [(.get, .listLogs)]),
    ("/api/stats", [(.get, .getStats)]),
    ("/api/sessions", [(.get, .listSessions)]),
    ("/api/settings", [(.get, .getSettings)]),
    ("/api/settings/password", [(.post, .changePassword)]),
    ("/api/ws", [(.get, .wsHandler)]) ].map
    fun x => route x.1 { layered := true, methods := x.2 }

def buildApp : List (Pattern (List Char) × Endpoint) := publicRoutes ++ protectedRoutes

/-! ## Dispatch -/

/-- What becomes of a request: a handler runs, with the user that `require_auth` found if
the layer is around it, or an answer is given without one. -/
inductive Dispatch
  | run (h : Handler) (user : Option String) (captures : List (List Char))
  | unauthorized
  | methodNotAllowed
  | fallback
deriving DecidableEq, Repr

def Endpoint.serve (endpoint : Endpoint) (method : Method) (user : Option String)
    (captures : List (List Char)) : Dispatch :=
  match endpoint.handler method with
  | some h => .run h user captures
  | none => .methodNotAllowed

/-- `auth` is what `require_auth` finds. -/
def dispatch (takes : List Char → Bool) (auth : Option String) (method : Method)
    (path : String) : Dispatch :=
  match find takes buildApp (segments path) with
  | none => .fallback
  | some (endpoint, captures) =>
    if endpoint.layered then
      match auth with
      | none => .unauthorized
      | some user => endpoint.serve method (some user) captures
    else endpoint.serve method none captures

/-! ## What gets through -/

section Dispatch

variable {takes : List Char → Bool} {auth user : Option String} {method : Method}
  {path : String} {h : Handler} {captures : List (List Char)} {endpoint : Endpoint}

/-- No path is taken by two routes; `Router::merge` would panic. -/
theorem buildApp_apart : Apart buildApp := by decide +kernel

theorem login_of_public : ∀ x ∈ buildApp, x.2.layered = false →
    x.2.methods = [(.post, .login)] := by decide +kernel

theorem not_login_of_layered : ∀ x ∈ buildApp, x.2.layered = true →
    ∀ y ∈ x.2.methods, y.2 ≠ .login := by decide +kernel

theorem mem_of_lookup (hlookup : endpoint.methods.lookup method = some h) :
    (method, h) ∈ endpoint.methods := by
  obtain ⟨pre, post, heq, -⟩ := List.lookup_eq_some_iff.mp hlookup
  rw [heq]
  exact List.mem_append_right _ List.mem_cons_self

theorem mem_of_handler (hhandler : endpoint.handler method = some h) :
    ∃ m, (m, h) ∈ endpoint.methods := by
  unfold Endpoint.handler at hhandler
  split at hhandler
  · next hlookup =>
    cases hhandler
    exact ⟨_, mem_of_lookup hlookup⟩
  · split at hhandler
    · exact ⟨_, mem_of_lookup hhandler⟩
    · cases hhandler

theorem run_of_serve {user' : Option String} {captures' : List (List Char)}
    (hserve : endpoint.serve method user captures = .run h user' captures') :
    endpoint.handler method = some h ∧ user' = user ∧ captures' = captures := by
  unfold Endpoint.serve at hserve
  split at hserve
  · next hhandler =>
    cases hserve
    exact ⟨hhandler, rfl, rfl⟩
  · cases hserve

theorem serve_ne_unauthorized : endpoint.serve method user captures ≠ .unauthorized := by
  unfold Endpoint.serve
  split <;> nofun

/-- A handler that runs is the one of the only route that takes the path. Around every route
but that of the login is the layer, which has found the user. -/
theorem dispatch_run (hrun : dispatch takes auth method path = .run h user captures) :
    ∃ p endpoint, (p, endpoint) ∈ buildApp ∧ capture takes p (segments path) = some captures ∧
      endpoint.handler method = some h ∧
      ((h = .login ∧ user = none) ∨ (h ≠ .login ∧ user = auth ∧ auth.isSome = true)) := by
  unfold dispatch at hrun
  split at hrun
  · cases hrun
  · next endpoint captures' hfind =>
    obtain ⟨p, hmem, hcapture⟩ := mem_of_find hfind
    refine ⟨p, endpoint, hmem, ?_⟩
    cases hlayer : endpoint.layered with
    | false =>
      rw [if_neg (by simp [hlayer])] at hrun
      obtain ⟨hhandler, rfl, rfl⟩ := run_of_serve hrun
      obtain ⟨m, hm⟩ := mem_of_handler hhandler
      -- The login is all that there is outside the layer.
      rw [login_of_public _ hmem hlayer, List.mem_singleton] at hm
      exact ⟨hcapture, hhandler, .inl ⟨(Prod.mk.inj hm).2, rfl⟩⟩
    | true =>
      rw [if_pos hlayer] at hrun
      split at hrun
      · cases hrun
      · obtain ⟨hhandler, rfl, rfl⟩ := run_of_serve hrun
        obtain ⟨m, hm⟩ := mem_of_handler hhandler
        exact ⟨hcapture, hhandler, .inr ⟨not_login_of_layered _ hmem hlayer _ hm, rfl, rfl⟩⟩

/-- The layer turns away the requests for its routes, whatever their method, in which it
finds no user. -/
theorem dispatch_unauthorized : dispatch takes auth method path = .unauthorized ↔
    auth = none ∧ ∃ x ∈ buildApp, x.2.layered = true ∧
      (capture takes x.1 (segments path)).isSome = true := by
  constructor
  · intro hrun
    unfold dispatch at hrun
    split at hrun
    · cases hrun
    · next endpoint captures hfind =>
      obtain ⟨p, hmem, hcapture⟩ := mem_of_find hfind
      split at hrun
      · next hlayer =>
        split at hrun
        · exact ⟨rfl, _, hmem, hlayer, Option.isSome_of_eq_some hcapture⟩
        · exact absurd hrun serve_ne_unauthorized
      · exact absurd hrun serve_ne_unauthorized
  · rintro ⟨rfl, ⟨p, endpoint⟩, hmem, hlayer, hsome⟩
    obtain ⟨captures, hcapture⟩ := Option.isSome_iff_exists.mp hsome
    unfold dispatch
    -- No other route takes the path, so this is the one that is found.
    rw [(find_iff buildApp_apart).mpr ⟨p, hmem, hcapture⟩]
    exact if_pos hlayer

end Dispatch

/-! ## The single-page application -/

/-- An answer of `serve_embed`. -/
structure Page where
  status : Nat
  body : List UInt8
  contentType : Option String
  cacheControl : Option String
deriving DecidableEq, Repr

def Page.notFound : Page where
  status := 404
  body := asBytes "not found"
  contentType := some "text/plain; charset=utf-8"
  cacheControl := none

section Embed

variable (asset : String → Option (List UInt8)) (mime : String → String)

def makeResponse (data : List UInt8) (pathForMime : String) : Page where
  status := 200
  body := data
  contentType := some (mime pathForMime)
  cacheControl :=
    if pathForMime = "index.html" then some "no-cache, no-store, must-revalidate" else none

/-- `asset` has the files of `web-ui/dist`, and `mime` their types. -/
def serveEmbed (full : String) : Page :=
  if "/api/".toList.isPrefixOf full.toList then .notFound
  else
    let reqPath := String.ofList (full.toList.dropWhile (· == '/'))
    let lookup := if reqPath = "" then "index.html" else reqPath
    match asset lookup with
    | some data => makeResponse mime data lookup
    | none =>
      match asset "index.html" with
      | some data => makeResponse mime data "index.html"
      | none => .notFound

variable {asset mime} {full : String}

theorem uncached_of_makeResponse {data : List UInt8} {name : String}
    (h : (makeResponse mime data name).cacheControl = none) : name ≠ "index.html" := by
  rintro rfl
  cases h

/-- A page that may be cached is an asset under its own name, and is not `index.html`. -/
theorem index_uncached (hstatus : (serveEmbed asset mime full).status = 200)
    (hcache : (serveEmbed asset mime full).cacheControl = none) :
    ∃ name, name ≠ "index.html" ∧ asset name = some (serveEmbed asset mime full).body := by
  unfold serveEmbed at *
  split at hstatus
  · cases hstatus
  · next hapi =>
    rw [if_neg hapi] at hcache ⊢
    dsimp only at hstatus hcache ⊢
    split at hstatus
    · next data hdata =>
      rw [hdata] at hcache
      exact ⟨_, uncached_of_makeResponse hcache, hdata⟩
    -- A path without an asset is answered with `index.html`, as the router of the page has it.
    · next hmiss =>
      rw [hmiss] at hcache
      dsimp only at hcache
      split at hstatus
      · next data hdata =>
        rw [hdata] at hcache
        exact absurd rfl (uncached_of_makeResponse hcache)
      · cases hstatus

end Embed

end MiniMask.Web
