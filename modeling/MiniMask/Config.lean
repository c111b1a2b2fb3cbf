import Mathlib.Algebra.Order.Ring.Nat

/-!
# The configuration (`config.rs`)

The settings that the rest of the model reads, and the check that they pass at a start.
-/

namespace MiniMask

structure ServerConfig where
  tunnelBind : String
  webBind : String
  dataDir : String
  tunnelTls : Bool
  webTls : Bool
deriving DecidableEq, Repr

structure AuthConfig where
  adminUsername : String
  jwtSecret : String
  tokenTtlHours : Nat
deriving DecidableEq, Repr

structure SecurityConfig where
  maxClients : Nat
  maxConnsPerClient : Nat
deriving DecidableEq, Repr

structure AuditConfig where
  logFile : String
  maxSizeMb : Nat
deriving DecidableEq, Repr

structure Config where
  server : ServerConfig
  auth : AuthConfig
  security : SecurityConfig
  audit : AuditConfig
deriving DecidableEq, Repr

def Config.validate (cfg : Config) : Except String Unit :=
  if cfg.server.tunnelBind = "" then .error "server.tunnel_bind must not be empty"
  else if cfg.server.webBind = "" then .error "server.web_bind must not be empty"
  else if cfg.auth.adminUsername = "" then .error "auth.admin_username must not be empty"
  else if cfg.auth.tokenTtlHours = 0 then .error "auth.token_ttl_hours must be > 0"
  else .ok ()

/-- `load_or_create` accepts the configuration. An integer in TOML is an `i64`. -/
structure Config.Accepted (cfg : Config) : Prop where
  valid : cfg.validate = .ok ()
  ttl_lt : cfg.auth.tokenTtlHours < 2 ^ 63

end MiniMask
