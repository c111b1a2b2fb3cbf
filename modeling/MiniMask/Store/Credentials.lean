import MiniMask.Store.Crashes
import MiniMask.Store.Tokens

/-!
# Credentials

What `verify_token` reads of the clients, what the operations do to it, and where the digests
come from: with tokens and ids that are drawn once, a digest is on the client for which its
token was drawn (`Sourced.owner`), so that a client authenticates with the token whose digest it
has and with no other.
-/

namespace MiniMask

open AtomicFile
open FailedSaves (Reply)

/-! ## Credentials -/

/-- What `verify_token` reads of a client. -/
structure Credential where
  id : String
  digest : String
  enabled : Bool
deriving DecidableEq, Repr

def Client.credential (c : Client) : Credential :=
  { id := c.id, digest := c.tokenHash, enabled := c.enabled }

/-- The client and the token that the operation draws. -/
def ClientOp.grant : ClientOp → Option (String × String)
  | .addClient _ token id _ => some (id, token)
  | .regenerateToken id token => some (id, token)
  | _ => none

/-- The operation takes its token from `c`. -/
def ClientOp.Replaces (c : String) : ClientOp → Prop
  | .deleteClient id => id = c
  | .regenerateToken id _ => id = c
  | _ => False

/-- What the operation does to the credentials. -/
def ClientOp.onCredentials (sha256HexWithPepper : String → String → String) (pepper : String) :
    ClientOp → List Credential → List Credential
  | .addClient _ token id _, creds =>
    creds ++ [{ id, digest := sha256HexWithPepper token pepper, enabled := true }]
  | .deleteClient id, creds => creds.filter fun k => k.id != id
  | .setClientEnabled id enabled, creds =>
    updateFirst (fun k => k.id == id) (fun k => { k with enabled }) creds
  | .regenerateToken id token, creds =>
    updateFirst (fun k => k.id == id)
      (fun k => { k with digest := sha256HexWithPepper token pepper }) creds
  | _, creds => creds

def authenticate (digest : String) (creds : List Credential) : Option (String × Bool) :=
  (creds.find? fun k => k.digest == digest && k.enabled).map fun k => (k.id, k.enabled)

section Credentials

variable {hash : String → String → String} {pepper : String} {creds : List Credential}
  {op : ClientOp} {k : Credential}

theorem verifyToken_eq (s : ClientStore) (token : String) :
    s.verifyToken hash token pepper =
      authenticate (hash token pepper) (s.list.map Client.credential) := by
  rw [authenticate, List.find?_map, Option.map_map]
  rfl

/-- An update of the first client found is one of the first credential found. -/
theorem map_updateFirst_credential {id : String} {f : Client → Client}
    {g : Credential → Credential} (hfg : ∀ c, (f c).credential = g c.credential)
    (l : List Client) :
    (updateFirst (fun c => c.id == id) f l).map Client.credential =
      updateFirst (fun k => k.id == id) g (l.map Client.credential) := by
  induction l with
  | nil => rfl
  | cons c l ih =>
    have hid : (c.credential.id == id) = (c.id == id) := rfl
    cases hc : c.id == id with
    | true => simp only [updateFirst, List.map_cons, hid, hc, if_true, hfg]
    | false => simp only [updateFirst, List.map_cons, hid, hc, Bool.false_eq_true, if_false, ih]

/-- An operation does to the credentials what it does to the clients. -/
theorem credentials_applied (list : List Client) (op : ClientOp) :
    (Crash.applied hash pepper list op).map Client.credential =
      op.onCredentials hash pepper (list.map Client.credential) := by
  let s : ClientStore := { list, file := { main := none, tmp := none } }
  cases op with
  | addClient name token id now =>
    have hlist := s.addClient_list .done hash name pepper token id now
    exact (congrArg (List.map Client.credential) hlist).trans List.map_append
  | deleteClient id =>
    refine (congrArg (List.map Client.credential) (s.deleteClient_list .done id)).trans ?_
    exact (List.filter_map (f := Client.credential) (p := fun k => k.id != id)).symm
  | setClientEnabled id enabled =>
    refine (congrArg (List.map Client.credential)
      (s.setClientEnabled_list .done id enabled)).trans ?_
    exact map_updateFirst_credential (fun _ => rfl) _
  | regenerateToken id token =>
    refine (congrArg (List.map Client.credential)
      (s.regenerateToken_list .done hash id pepper token)).trans ?_
    exact map_updateFirst_credential (fun _ => rfl) _
  | addMapping clientId name remotePort localAddr id now =>
    rcases s.addMapping_cases .done clientId name remotePort localAddr id now with heq | ⟨_, heq⟩
    · exact congrArg (fun r => r.2.list.map Client.credential) heq
    · refine (congrArg (fun r => r.2.list.map Client.credential) heq).trans ?_
      rw [ClientStore.persistThen_list]
      exact map_updateFirst _ fun _ => rfl
  | deleteMapping id =>
    refine (congrArg (List.map Client.credential) (s.deleteMapping_list .done id)).trans ?_
    exact List.map_map.trans (List.map_congr_left fun _ _ => rfl)
  | setMappingEnabled id enabled =>
    refine (congrArg (List.map Client.credential)
      (s.setMappingEnabled_list .done id enabled)).trans ?_
    exact List.map_map.trans (List.map_congr_left fun _ _ => rfl)

/-- A credential comes from the operation or was there, and only `setClientEnabled` turns one
on or off. -/
theorem mem_onCredentials (h : k ∈ op.onCredentials hash pepper creds) :
    (∃ token, op.grant = some (k.id, token) ∧ k.digest = hash token pepper) ∨
      ∃ old ∈ creds, old.id = k.id ∧ old.digest = k.digest ∧
        (old.enabled = k.enabled ∨ op = .setClientEnabled k.id k.enabled) := by
  cases op with
  | addClient name token id now =>
    rcases List.mem_append.mp h with h | h
    · exact .inr ⟨k, h, rfl, rfl, .inl rfl⟩
    · cases List.mem_singleton.mp h
      exact .inl ⟨token, rfl, rfl⟩
  | deleteClient id => exact .inr ⟨k, (List.mem_filter.mp h).1, rfl, rfl, .inl rfl⟩
  | setClientEnabled id enabled =>
    rcases mem_updateFirst h with h | ⟨old, hold, hid, rfl⟩
    · exact .inr ⟨k, h, rfl, rfl, .inl rfl⟩
    · exact .inr ⟨old, hold, rfl, rfl, .inr (by rw [← eq_of_beq hid])⟩
  | regenerateToken id token =>
    rcases mem_updateFirst h with h | ⟨old, hold, hid, rfl⟩
    · exact .inr ⟨k, h, rfl, rfl, .inl rfl⟩
    · exact .inl ⟨token, by rw [ClientOp.grant, ← eq_of_beq hid], rfl⟩
  | addMapping => exact .inr ⟨k, h, rfl, rfl, .inl rfl⟩
  | deleteMapping => exact .inr ⟨k, h, rfl, rfl, .inl rfl⟩
  | setMappingEnabled => exact .inr ⟨k, h, rfl, rfl, .inl rfl⟩

/-- A client keeps its digest until the operation that replaces it. -/
theorem onCredentials_keeps {c digest : String} (hkeep : ¬ op.Replaces c)
    (h : ∃ k ∈ creds, k.id = c ∧ k.digest = digest) :
    ∃ k ∈ op.onCredentials hash pepper creds, k.id = c ∧ k.digest = digest := by
  obtain ⟨k, hk, rfl, rfl⟩ := h
  cases op with
  | addClient name token id now => exact ⟨k, List.mem_append_left _ hk, rfl, rfl⟩
  | deleteClient id =>
    have hne : k.id ≠ id := fun heq => hkeep heq.symm
    exact ⟨k, List.mem_filter.mpr ⟨hk, bne_iff_ne.mpr hne⟩, rfl, rfl⟩
  | setClientEnabled id enabled =>
    rcases mem_updateFirst_of_mem hk with hk | ⟨_, hk⟩
    · exact ⟨k, hk, rfl, rfl⟩
    · exact ⟨_, hk, rfl, rfl⟩
  | regenerateToken id token =>
    rcases mem_updateFirst_of_mem hk with hk | ⟨hid, _⟩
    · exact ⟨k, hk, rfl, rfl⟩
    · exact absurd (eq_of_beq hid).symm hkeep
  | addMapping => exact ⟨k, hk, rfl, rfl⟩
  | deleteMapping => exact ⟨k, hk, rfl, rfl⟩
  | setMappingEnabled => exact ⟨k, hk, rfl, rfl⟩

/-- The clients are those that were there and the one that the operation creates. -/
theorem ids_onCredentials : ((op.onCredentials hash pepper creds).map (·.id)).Sublist
    (creds.map (·.id) ++ op.drawnClient.toList) := by
  have hkeep : (creds.map (·.id)).Sublist (creds.map (·.id) ++ op.drawnClient.toList) :=
    List.sublist_append_left ..
  cases op with
  | addClient name token id now => exact sublist_of_eq List.map_append
  | deleteClient id => exact (List.filter_sublist.map _).trans hkeep
  | setClientEnabled id enabled =>
    exact (sublist_of_eq (map_updateFirst (f := fun k : Credential => { k with enabled }) _
      fun _ => rfl)).trans hkeep
  | regenerateToken id token =>
    exact (sublist_of_eq (map_updateFirst
      (f := fun k : Credential => { k with digest := hash token pepper }) _
      fun _ => rfl)).trans hkeep
  | addMapping => exact hkeep
  | deleteMapping => exact hkeep
  | setMappingEnabled => exact hkeep

end Credentials

namespace Credentials

/-- Tokens and client ids are drawn once, and no pepper makes two tokens the same. -/
structure Fresh (sha256HexWithPepper : String → String → String) (ops : List ClientOp) : Prop where
  tokens : (ops.filterMap ClientOp.drawnToken).Nodup
  clients : (ops.filterMap ClientOp.drawnClient).Nodup
  injective : ∀ pepper, ∀ u ∈ ops.filterMap ClientOp.drawnToken,
    ∀ v ∈ ops.filterMap ClientOp.drawnToken,
    sha256HexWithPepper u pepper = sha256HexWithPepper v pepper → u = v

/-! ## Where the digests come from -/

/-- The tokens that were drawn, each with its client. -/
def grants (ops : List ClientOp) : List (String × String) := ops.filterMap ClientOp.grant

/-- Client ids are distinct, and each digest is that of a token drawn for the client. -/
structure Sourced (sha256HexWithPepper : String → String → String) (pepper : String)
    (ops : List ClientOp) (creds : List Credential) : Prop where
  ids : (creds.map (·.id)).Nodup
  created : ∀ id ∈ creds.map (·.id), id ∈ ops.filterMap ClientOp.drawnClient
  digest : ∀ k ∈ creds, ∃ token, (k.id, token) ∈ grants ops ∧
    k.digest = sha256HexWithPepper token pepper

section Sourced

variable {hash : String → String → String} {v : String} {ops more : List ClientOp}
  {creds : List Credential} {op : ClientOp} {c c' token : String}

theorem sourced_nil : Sourced hash v ops [] := ⟨List.nodup_nil, nofun, nofun⟩

theorem Sourced.mono (h : Sourced hash v ops creds) : Sourced hash v (ops ++ more) creds := by
  refine ⟨h.ids, fun id hid => ?_, fun k hk => ?_⟩
  · rw [List.filterMap_append]
    exact List.mem_append_left _ (h.created id hid)
  · obtain ⟨token, hgrant, hdigest⟩ := h.digest k hk
    refine ⟨token, ?_, hdigest⟩
    rw [grants, List.filterMap_append]
    exact List.mem_append_left _ hgrant

theorem sourced_onCredentials (h : Sourced hash v ops creds)
    (hfresh : ((ops ++ [op]).filterMap ClientOp.drawnClient).Nodup) :
    Sourced hash v (ops ++ [op]) (op.onCredentials hash v creds) := by
  have hdrawn : (ops ++ [op]).filterMap ClientOp.drawnClient =
      ops.filterMap ClientOp.drawnClient ++ op.drawnClient.toList := by
    rw [List.filterMap_append, List.filterMap_cons, List.filterMap_nil]
    cases op.drawnClient <;> rfl
  rw [hdrawn] at hfresh
  have hall : creds.map (·.id) ++ op.drawnClient.toList ⊆
      ops.filterMap ClientOp.drawnClient ++ op.drawnClient.toList := fun id hid =>
    List.mem_append.mpr ((List.mem_append.mp hid).imp_left (h.created id))
  refine ⟨List.Nodup.sublist ids_onCredentials ?_, fun id hid => ?_, fun k hk => ?_⟩
  · refine List.nodup_append.mpr ⟨h.ids, (List.nodup_append.mp hfresh).2.1, fun a ha => ?_⟩
    exact (List.nodup_append.mp hfresh).2.2 a (h.created a ha)
  · rw [hdrawn]
    exact hall (ids_onCredentials.subset hid)
  · rw [grants, List.filterMap_append]
    -- A digest was there before, or is of the token that is drawn now.
    rcases mem_onCredentials hk with ⟨token, hgrant, hdigest⟩ | ⟨old, hold, hid, hdigest, _⟩
    · refine ⟨token, List.mem_append_right _ ?_, hdigest⟩
      exact List.mem_filterMap.mpr ⟨op, List.mem_singleton_self op, hgrant⟩
    · obtain ⟨token, hgrant, heq⟩ := h.digest old hold
      exact ⟨token, List.mem_append_left _ (hid ▸ hgrant), hdigest.symm.trans heq⟩

theorem drawnToken_eq (op : ClientOp) : op.drawnToken = op.grant.map (·.2) := by
  cases op <;> rfl

theorem drawn_of_grant (h : (c, token) ∈ grants ops) :
    token ∈ ops.filterMap ClientOp.drawnToken := by
  obtain ⟨op, hop, hgrant⟩ := List.mem_filterMap.mp h
  exact List.mem_filterMap.mpr ⟨op, hop, by rw [drawnToken_eq, hgrant]; rfl⟩

theorem Fresh.first (h : Fresh hash (ops ++ more)) : Fresh hash ops := by
  obtain ⟨htokens, hclients, hinjective⟩ := h
  rw [List.filterMap_append] at htokens hclients hinjective
  exact ⟨(List.nodup_append.mp htokens).1, (List.nodup_append.mp hclients).1,
    fun pepper u hu v hv =>
      hinjective pepper u (List.mem_append_left _ hu) v (List.mem_append_left _ hv)⟩

/-- A token is drawn for one client. -/
theorem Fresh.owner (h : Fresh hash ops) (hc : (c, token) ∈ grants ops)
    (hc' : (c', token) ∈ grants ops) : c = c' := by
  have htokens : ops.filterMap ClientOp.drawnToken = (grants ops).map (·.2) := by
    rw [grants, List.map_filterMap, funext drawnToken_eq]
  have hnodup := h.tokens
  rw [htokens] at hnodup
  exact congrArg Prod.fst (List.inj_on_of_nodup_map hnodup hc hc' rfl)

/-- The digest of a token is only on the client that it was drawn for. -/
theorem Sourced.owner (h : Sourced hash v ops creds) (hfresh : Fresh hash ops)
    (hgrant : (c, token) ∈ grants ops) {k : Credential} (hk : k ∈ creds)
    (hdigest : k.digest = hash token v) : k.id = c := by
  obtain ⟨u, hu, heq⟩ := h.digest k hk
  have hsame : u = token := hfresh.injective v u (drawn_of_grant hu) token (drawn_of_grant hgrant)
    (heq.symm.trans hdigest)
  exact hfresh.owner (hsame ▸ hu) hgrant

/-- A client that has the digest of a token authenticates with it, if it is enabled. -/
theorem authenticate_of_held (h : Sourced hash v ops creds) (hfresh : Fresh hash ops)
    (hgrant : (c, token) ∈ grants ops)
    (hheld : ∃ k ∈ creds, k.id = c ∧ k.digest = hash token v) :
    authenticate (hash token v) creds =
      if creds.any (fun k => k.id == c && k.enabled) then some (c, true) else none := by
  obtain ⟨k, hk, rfl, hdigest⟩ := hheld
  -- Only one client has the digest, so the search fails when that one is off.
  cases hfound : creds.find? fun k => k.digest == hash token v && k.enabled with
  | none =>
    have hoff : ¬ (creds.any fun k' => k'.id == k.id && k'.enabled) = true := by
      intro hany
      obtain ⟨k', hk', hon⟩ := List.any_eq_true.mp hany
      rw [Bool.and_eq_true, beq_iff_eq] at hon
      have hsame : k' = k := List.inj_on_of_nodup_map h.ids hk' hk hon.1
      have hnot := List.find?_eq_none.mp hfound k hk
      rw [Bool.and_eq_true, beq_iff_eq] at hnot
      exact hnot ⟨hdigest, hsame ▸ hon.2⟩
    rw [authenticate, hfound, if_neg hoff]
    rfl
  | some k' =>
    have hmem := List.mem_of_find?_eq_some hfound
    have hmatch := List.find?_some hfound
    rw [Bool.and_eq_true, beq_iff_eq] at hmatch
    have hid := h.owner hfresh hgrant hmem hmatch.1
    have hany : (creds.any fun k' => k'.id == k.id && k'.enabled) = true :=
      List.any_eq_true.mpr ⟨k', hmem, by rw [hid, hmatch.2, beq_self_eq_true]; rfl⟩
    rw [authenticate, hfound, if_pos hany, Option.map_some, hid, hmatch.2]

theorem authenticate_of_gone (h : ∀ k ∈ creds, k.digest ≠ hash token v) :
    authenticate (hash token v) creds = none := by
  have hnone : (creds.find? fun k => k.digest == hash token v && k.enabled) = none := by
    refine List.find?_eq_none.mpr fun k hk hmatch => h k hk ?_
    rw [Bool.and_eq_true, beq_iff_eq] at hmatch
    exact hmatch.1
  rw [authenticate, hnone]
  rfl

/-- The operation that replaces the token of a client takes its digest out. -/
theorem gone_of_replaces (h : Sourced hash v ops creds) (hfresh : Fresh hash ops)
    (hgrant : (c, token) ∈ grants ops) (hreplaces : op.Replaces c) (hop : op ∈ ops)
    (hother : op.drawnToken ≠ some token) :
    ∀ k ∈ op.onCredentials hash v creds, k.digest ≠ hash token v := by
  intro k hk hdigest
  cases op with
  | deleteClient id =>
    obtain ⟨hmem, hne⟩ := List.mem_filter.mp hk
    have hid := h.owner hfresh hgrant hmem hdigest
    exact (bne_iff_ne.mp hne) (hid.trans hreplaces.symm)
  | regenerateToken id u =>
    have hnew : hash u v ≠ hash token v := fun heq => hother <| congrArg some <|
      hfresh.injective v u (List.mem_filterMap.mpr ⟨_, hop, rfl⟩) token (drawn_of_grant hgrant) heq
    rcases mem_updateFirst hk with hmem | ⟨old, _, _, rfl⟩
    -- There is one client with the id, so it is the one that was updated.
    · have hid := h.owner hfresh hgrant hmem hdigest
      obtain ⟨old, _, rfl⟩ := mem_updateFirst_key h.ids hk (hid.trans hreplaces.symm)
      exact hnew hdigest
    · exact hnew hdigest
  | addClient => exact hreplaces
  | setClientEnabled => exact hreplaces
  | addMapping => exact hreplaces
  | deleteMapping => exact hreplaces
  | setMappingEnabled => exact hreplaces

/-- A digest that is on no client comes back with its token only. -/
theorem gone_onCredentials (h : ∀ k ∈ creds, k.digest ≠ hash token v)
    (hother : ∀ u, op.drawnToken = some u → hash u v ≠ hash token v) :
    ∀ k ∈ op.onCredentials hash v creds, k.digest ≠ hash token v := by
  intro k hk
  rcases mem_onCredentials hk with ⟨u, hgrant, hdigest⟩ | ⟨old, hold, _, hdigest, _⟩
  · rw [hdigest]
    exact hother u (by rw [drawnToken_eq, hgrant]; rfl)
  · rw [← hdigest]
    exact h old hold

end Sourced

end Credentials

end MiniMask
