import MiniMask.Lib.Transition
import MiniMask.Store.Operations

/-!
# Tokens over whole runs

A client's record holds the digest of the token that was handed out for it last
(`Faithful`): the two operations that make a token put its digest there, and the
others keep every digest. With that, and tokens that are drawn once, a token
authenticates exactly as the client whose last token it is.
-/

namespace MiniMask

open AtomicFile
open FailedSaves (Reply)

/-- The token that the operation draws. -/
def ClientOp.drawnToken : ClientOp → Option String
  | .addClient _ token _ _ => some token
  | .regenerateToken _ token => some token
  | _ => none

/-- The client id that the operation draws. -/
def ClientOp.drawnClient : ClientOp → Option String
  | .addClient _ _ id _ => some id
  | _ => none

namespace TokenRun

/-! ## Histories -/

abbrev Trace := List (ClientStore × ClientOp × ClientStore)

/-- Operations whose saves succeed. -/
def Step (sha256HexWithPepper : String → String → String) (pepper : String) (s : ClientStore)
    (op : ClientOp) (t : ClientStore) : Prop :=
  t = (s.exec sha256HexWithPepper pepper op .done).2

/-- The client and the token of an answer that has a token. -/
def handedOut : ClientOp → Except Error Reply → Option (String × String)
  | .addClient _ _ _ _, .ok (.created c token) => some (c.id, token)
  | .regenerateToken id _, .ok (.token (some token)) => some (id, token)
  | _, _ => none

/-- All tokens handed out, in order, each with its client. -/
def issued (sha256HexWithPepper : String → String → String) (pepper : String) (tr : Trace) :
    List (String × String) :=
  tr.filterMap fun x => handedOut x.2.1 (x.1.exec sha256HexWithPepper pepper x.2.1 .done).1

def drawnTokens (tr : Trace) : List String := tr.filterMap fun x => x.2.1.drawnToken

def drawnClients (tr : Trace) : List String := tr.filterMap fun x => x.2.1.drawnClient

/-- The token handed out last for `c`. -/
def lastToken (issued : List (String × String)) (c : String) : Option String :=
  (issued.reverse.find? fun x => x.1 == c).map (·.2)

theorem lastToken_append (l : List (String × String)) (c c' t : String) :
    lastToken (l ++ [(c', t)]) c = if c' = c then some t else lastToken l c := by
  by_cases h : c' = c <;> simp [lastToken, h]

theorem lastToken_mem {l : List (String × String)} {c t : String}
    (h : lastToken l c = some t) : (c, t) ∈ l := by
  obtain ⟨x, hfind, rfl⟩ := Option.map_eq_some_iff.mp h
  have hc : x.1 = c := by simpa using List.find?_some hfind
  have hx := List.mem_reverse.mp (List.mem_of_find?_eq_some hfind)
  exact hc ▸ hx

section Histories

variable {hash : String → String → String} {pepper : String} {tr : Trace} {s t : ClientStore}
  {op : ClientOp}

theorem issued_snoc : issued hash pepper (tr ++ [(s, op, t)]) =
    issued hash pepper tr ++ (handedOut op (s.exec hash pepper op .done).1).toList := by
  simp only [issued, List.filterMap_append]
  cases h : handedOut op (s.exec hash pepper op .done).1 <;> simp [h]

/-- A token that is handed out is the one the operation drew. -/
theorem drawn_of_handedOut {x : String × String}
    (h : handedOut op (s.exec hash pepper op .done).1 = some x) : op.drawnToken = some x.2 := by
  cases op with
  | addClient name token id now => cases h; rfl
  | regenerateToken id token =>
    simp only [ClientStore.exec, ClientStore.regenerateToken] at h
    split at h <;> cases h
    rfl
  | deleteClient id => cases h
  | setClientEnabled id enabled => cases h
  | addMapping clientId name remotePort localAddr id now => cases h
  | deleteMapping id => cases h
  | setMappingEnabled id enabled => cases h

theorem issued_sublist (tr : Trace) :
    ((issued hash pepper tr).map (·.2)).Sublist (drawnTokens tr) := by
  induction tr with
  | nil => exact List.Sublist.slnil
  | cons x tr ih =>
    unfold issued drawnTokens at ih ⊢
    rw [List.filterMap_cons, List.filterMap_cons]
    cases h : handedOut x.2.1 (x.1.exec hash pepper x.2.1 .done).1 with
    | none =>
      cases x.2.1.drawnToken with
      | none => exact ih
      | some token => exact ih.cons token
    | some y =>
      rw [drawn_of_handedOut h]
      exact ih.cons_cons y.2

/-- Where tokens are drawn once, no token is handed out for two clients. -/
theorem issued_unique (h : (drawnTokens tr).Nodup) {c c' token : String}
    (hc : (c, token) ∈ issued hash pepper tr) (hc' : (c', token) ∈ issued hash pepper tr) :
    c = c' := by
  have hsub : ((issued hash pepper tr).map (·.2)).Sublist (drawnTokens tr) := issued_sublist tr
  exact congrArg Prod.fst (List.inj_on_of_nodup_map (h.sublist hsub) hc hc' rfl)

end Histories

/-! ## The records follow the tokens -/

/-- Every client in the store was created in the run, and its record holds the
digest of the token handed out for it last. -/
structure Faithful (sha256HexWithPepper : String → String → String) (pepper : String) (tr : Trace)
    (s : ClientStore) : Prop where
  ids : (s.list.map (·.id)).Nodup
  created : ∀ c ∈ s.list, c.id ∈ drawnClients tr
  digest : ∀ c ∈ s.list, ∃ token,
    lastToken (issued sha256HexWithPepper pepper tr) c.id = some token ∧
      c.tokenHash = sha256HexWithPepper token pepper

section Faithful

variable {hash : String → String → String} {pepper : String} {tr : Trace} {s t : ClientStore}

theorem mem_drawnClients_snoc {op : ClientOp} {id : String} :
    id ∈ drawnClients (tr ++ [(s, op, t)]) ↔
      id ∈ drawnClients tr ∨ op.drawnClient = some id := by
  simp only [drawnClients, List.filterMap_append, List.mem_append]
  cases h : op.drawnClient <;> simp [h, eq_comm]

/-- A step that hands nothing out and keeps the digests of the clients it leaves. -/
theorem Faithful.of_kept {op : ClientOp} (h : Faithful hash pepper tr s)
    (hissued : handedOut op (s.exec hash pepper op .done).1 = none)
    (hids : (t.list.map (·.id)).Sublist (s.list.map (·.id)))
    (hkept : ∀ c' ∈ t.list, ∃ c ∈ s.list, c'.id = c.id ∧ c'.tokenHash = c.tokenHash) :
    Faithful hash pepper (tr ++ [(s, op, t)]) t := by
  refine ⟨h.ids.sublist hids, fun c' hc' => ?_, fun c' hc' => ?_⟩
  · obtain ⟨c, hc, hid, _⟩ := hkept c' hc'
    exact mem_drawnClients_snoc.mpr (.inl (hid ▸ h.created c hc))
  · obtain ⟨c, hc, hid, hhash⟩ := hkept c' hc'
    obtain ⟨token, hlast, hdigest⟩ := h.digest c hc
    refine ⟨token, ?_, hhash.trans hdigest⟩
    rw [issued_snoc, hissued, hid]
    simpa using hlast

theorem faithful_addClient {name token id : String} {now : Timestamp}
    (h : Faithful hash pepper tr s) (hnew : id ∉ drawnClients tr) :
    let op := ClientOp.addClient name token id now
    let t := (s.exec hash pepper op .done).2
    Faithful hash pepper (tr ++ [(s, op, t)]) t := by
  intro op t
  have hlist : t.list = s.list ++ [newClient hash pepper name token id now] :=
    ClientStore.addClient_list s .done hash name pepper token id now
  have hissued : issued hash pepper (tr ++ [(s, op, t)]) =
      issued hash pepper tr ++ [(id, token)] := issued_snoc
  refine ⟨?_, ?_, ?_⟩
  · rw [hlist, List.map_append, List.nodup_append]
    refine ⟨h.ids, List.nodup_singleton _, fun a ha b hb hab => hnew ?_⟩
    obtain ⟨c, hc, rfl⟩ := List.mem_map.mp ha
    have hid : c.id = id := hab.trans (List.mem_singleton.mp hb)
    exact hid ▸ h.created c hc
  · rw [hlist]
    intro c hc
    rcases List.mem_append.mp hc with hc | hc
    · exact mem_drawnClients_snoc.mpr (.inl (h.created c hc))
    · cases List.mem_singleton.mp hc
      exact mem_drawnClients_snoc.mpr (.inr rfl)
  · rw [hlist, hissued]
    intro c hc
    rw [lastToken_append]
    rcases List.mem_append.mp hc with hc | hc
    · have hne : id ≠ c.id := fun heq => hnew (heq ▸ h.created c hc)
      rw [if_neg hne]
      exact h.digest c hc
    · cases List.mem_singleton.mp hc
      exact ⟨token, if_pos rfl, rfl⟩

theorem faithful_regenerateToken {id token : String} (h : Faithful hash pepper tr s) :
    let op := ClientOp.regenerateToken id token
    let t := (s.exec hash pepper op .done).2
    Faithful hash pepper (tr ++ [(s, op, t)]) t := by
  intro op t
  cases hfound : s.list.any fun c => c.id == id with
  | false =>
    have ht : s.exec hash pepper op .done = (.ok (.token none), s) := by
      simp [op, ClientStore.exec, ClientStore.regenerateToken, hfound, ClientStore.answer,
        Except.map]
    have hts : t = s := congrArg Prod.snd ht
    rw [hts]
    exact h.of_kept (by rw [ht]; rfl) (List.Sublist.refl _) fun c hc => ⟨c, hc, rfl, rfl⟩
  | true =>
    have hissued : issued hash pepper (tr ++ [(s, op, t)]) =
        issued hash pepper tr ++ [(id, token)] := by
      rw [issued_snoc]
      simp [op, ClientStore.exec, ClientStore.regenerateToken, hfound, ClientStore.answer,
        ClientStore.persistThen, ClientStore.persist, save, handedOut, Except.map]
    have hlist := ClientStore.regenerateToken_list s .done hash id pepper token
    have hids : t.list.map (·.id) = s.list.map (·.id) :=
      ids_regenerateToken s .done hash id pepper token
    refine ⟨hids ▸ h.ids, fun c' hc' => mem_drawnClients_snoc.mpr (.inl ?_), fun c' hc' => ?_⟩
    · have hmem := List.mem_map_of_mem (f := Client.id) hc'
      rw [hids] at hmem
      obtain ⟨c, hc, hid⟩ := List.mem_map.mp hmem
      exact hid ▸ h.created c hc
    · rw [hissued, lastToken_append]
      by_cases hid : id = c'.id
      · rw [if_pos hid]
        obtain ⟨c, _, rfl⟩ := mem_updateFirst_key h.ids (hlist ▸ hc') hid.symm
        exact ⟨token, rfl, rfl⟩
      · rw [if_neg hid]
        rcases mem_updateFirst (hlist ▸ hc') with hc' | ⟨c, _, hp, rfl⟩
        · exact h.digest c' hc'
        · exact absurd (eq_of_beq hp).symm hid

/-- Every operation that succeeds keeps the records faithful. -/
theorem faithful_step {op : ClientOp} (h : Faithful hash pepper tr s)
    (hnew : ∀ id, op.drawnClient = some id → id ∉ drawnClients tr) :
    let t := (s.exec hash pepper op .done).2
    Faithful hash pepper (tr ++ [(s, op, t)]) t := by
  intro t
  cases op with
  | addClient name token id now => exact faithful_addClient h (hnew id rfl)
  | regenerateToken id token => exact faithful_regenerateToken h
  | deleteClient id =>
    refine h.of_kept rfl (ids_deleteClient s .done id) fun c hc => ⟨c, ?_, rfl, rfl⟩
    exact (List.mem_filter.mp (ClientStore.deleteClient_list s .done id ▸ hc)).1
  | setClientEnabled id enabled =>
    refine h.of_kept rfl (sublist_of_eq (ids_setClientEnabled s .done id enabled)) fun c hc => ?_
    rcases mem_updateFirst (ClientStore.setClientEnabled_list s .done id enabled ▸ hc) with
      hc | ⟨old, hold, _, rfl⟩
    · exact ⟨c, hc, rfl, rfl⟩
    · exact ⟨old, hold, rfl, rfl⟩
  | addMapping clientId name remotePort localAddr id now =>
    refine h.of_kept rfl (sublist_of_eq
      (ids_addMapping s .done clientId name remotePort localAddr id now)) fun c hc => ?_
    rcases s.addMapping_cases .done clientId name remotePort localAddr id now with heq | ⟨_, heq⟩
    · have ht : t = s := congrArg Prod.snd heq
      exact ⟨c, ht ▸ hc, rfl, rfl⟩
    · have hlist := congrArg (fun r => r.2.list) heq
      rw [ClientStore.persistThen_list] at hlist
      rcases mem_updateFirst (hlist ▸ hc) with hc | ⟨old, hold, _, rfl⟩
      · exact ⟨c, hc, rfl, rfl⟩
      · exact ⟨old, hold, rfl, rfl⟩
  | deleteMapping id =>
    refine h.of_kept rfl (sublist_of_eq (ids_deleteMapping s .done id)) fun c hc => ?_
    obtain ⟨old, hold, rfl⟩ := List.mem_map.mp (ClientStore.deleteMapping_list s .done id ▸ hc)
    exact ⟨old, hold, rfl, rfl⟩
  | setMappingEnabled id enabled =>
    refine h.of_kept rfl (sublist_of_eq (ids_setMappingEnabled s .done id enabled)) fun c hc => ?_
    obtain ⟨old, hold, rfl⟩ :=
      List.mem_map.mp (ClientStore.setMappingEnabled_list s .done id enabled ▸ hc)
    exact ⟨old, hold, rfl, rfl⟩

theorem faithful_run {s₀ : ClientStore} (empty : s₀.list = [])
    (run : Lts.Run (Step hash pepper) s₀ tr s) (clients : (drawnClients tr).Nodup) :
    Faithful hash pepper tr s := by
  induction run with
  | nil => exact ⟨by simp [empty], by simp [empty], by simp [empty]⟩
  | @snoc tr s t op _ hs ih =>
    cases hs
    have hsplit : drawnClients (tr ++ [(s, op, (s.exec hash pepper op .done).2)]) =
        drawnClients tr ++ op.drawnClient.toList := by
      simp only [drawnClients, List.filterMap_append]
      cases h : op.drawnClient <;> simp [h]
    rw [hsplit, List.nodup_append] at clients
    refine faithful_step (ih clients.1) fun id hid hmem => ?_
    exact clients.2.2 id hmem id (by simp [hid]) rfl

end Faithful

/-! ## Who authenticates -/

/-- `c` is in the store and enabled, and `token` is the one handed out for it last. -/
def Valid (sha256HexWithPepper : String → String → String) (pepper : String) (tr : Trace)
    (s : ClientStore) (c token : String) : Prop :=
  (∃ client ∈ s.list, client.id = c ∧ client.enabled = true) ∧
    lastToken (issued sha256HexWithPepper pepper tr) c = some token

section Verify

variable {hash : String → String → String} {pepper : String} {tr : Trace} {s : ClientStore}
  {token : String}

/-- Digests tell the token apart from all that were drawn. -/
theorem lastToken_of_digest (h : Faithful hash pepper tr s)
    (injective : ∀ u ∈ drawnTokens tr, hash u pepper = hash token pepper → u = token)
    {client : Client} (hc : client ∈ s.list) (hdigest : client.tokenHash = hash token pepper) :
    lastToken (issued hash pepper tr) client.id = some token := by
  obtain ⟨u, hlast, hu⟩ := h.digest client hc
  have hmem : u ∈ (issued hash pepper tr).map (·.2) :=
    List.mem_map_of_mem (f := Prod.snd) (lastToken_mem hlast)
  have hdrawn := (issued_sublist tr).subset hmem
  rw [hlast, injective u hdrawn (hu.symm.trans hdigest)]

theorem valid_of_verifyToken (h : Faithful hash pepper tr s)
    (injective : ∀ u ∈ drawnTokens tr, hash u pepper = hash token pepper → u = token)
    {c : String} {b : Bool} (hverify : s.verifyToken hash token pepper = some (c, b)) :
    b = true ∧ Valid hash pepper tr s c token := by
  obtain ⟨hb, client, hclient, rfl, henabled, hdigest⟩ := ClientStore.verifyToken_client hverify
  exact ⟨hb, ⟨client, hclient, rfl, henabled⟩, lastToken_of_digest h injective hclient hdigest⟩

theorem verifyToken_of_valid (h : Faithful hash pepper tr s)
    (tokens : (drawnTokens tr).Nodup)
    (injective : ∀ u ∈ drawnTokens tr, hash u pepper = hash token pepper → u = token)
    {c : String} (hvalid : Valid hash pepper tr s c token) :
    s.verifyToken hash token pepper = some (c, true) := by
  obtain ⟨⟨client, hclient, rfl, henabled⟩, hlast⟩ := hvalid
  have hdigest : client.tokenHash = hash token pepper := by
    obtain ⟨u, hu, hdigest⟩ := h.digest client hclient
    rw [hlast] at hu
    cases hu
    exact hdigest
  -- the record found has the digest too, so the token is the last of its client as well
  cases hverify : s.verifyToken hash token pepper with
  | none =>
    have hnone := List.find?_eq_none.mp (Option.map_eq_none_iff.mp hverify) client hclient
    simp [hdigest, henabled] at hnone
  | some x =>
    obtain ⟨hb, _, hlast'⟩ := valid_of_verifyToken h injective hverify
    have hid := issued_unique tokens (lastToken_mem hlast') (lastToken_mem hlast)
    rw [← hid, ← hb]

end Verify

/-- **Tokens.** After every run of operations from the empty store whose saves
succeed, with tokens and client ids drawn once and a digest that tells the tokens
apart: a token authenticates as `c` exactly if `c` is in the store and enabled and
the token is the one handed out last for `c`, and otherwise as nobody. -/
theorem token_authentication (sha256HexWithPepper : String → String → String) (pepper : String)
    {s₀ s : ClientStore} {tr : Trace} (empty : s₀.list = [])
    (run : Lts.Run (Step sha256HexWithPepper pepper) s₀ tr s)
    (tokens : (drawnTokens tr).Nodup) (clients : (drawnClients tr).Nodup) (token : String)
    (injective : ∀ u ∈ token :: drawnTokens tr, ∀ v ∈ token :: drawnTokens tr,
      sha256HexWithPepper u pepper = sha256HexWithPepper v pepper → u = v) :
    (∀ c, s.verifyToken sha256HexWithPepper token pepper = some (c, true) ↔
      Valid sha256HexWithPepper pepper tr s c token) ∧
    ((∀ c, ¬ Valid sha256HexWithPepper pepper tr s c token) →
      s.verifyToken sha256HexWithPepper token pepper = none) := by
  have h := faithful_run empty run clients
  have hinj : ∀ u ∈ drawnTokens tr,
      sha256HexWithPepper u pepper = sha256HexWithPepper token pepper → u = token :=
    fun u hu => injective u (List.mem_cons_of_mem _ hu) token List.mem_cons_self
  refine ⟨fun c => ⟨fun hverify => (valid_of_verifyToken h hinj hverify).2,
    verifyToken_of_valid h tokens hinj⟩, fun hnone => ?_⟩
  cases hverify : s.verifyToken sha256HexWithPepper token pepper with
  | none => rfl
  | some x => exact absurd (valid_of_verifyToken h hinj hverify).2 (hnone x.1)

/-- A client is created and its token replaced: the first token no longer works,
the second does. -/
theorem token_authentication_rotated :
    let hash := fun t p : String => t ++ p
    let s₀ : ClientStore := { list := [], file := { main := none, tmp := none } }
    let s₁ := (s₀.exec hash "p" (.addClient "a" "mmk_1" "client_a" 0) .done).2
    let s₂ := (s₁.exec hash "p" (.regenerateToken "client_a" "mmk_2") .done).2
    s₂.verifyToken hash "mmk_1" "p" = none ∧
      s₂.verifyToken hash "mmk_2" "p" = some ("client_a", true) := by
  intro hash s₀ s₁ s₂
  have run : Lts.Run (Step hash "p") s₀ ([] ++ [(s₀, _, s₁)] ++ [(s₁, _, s₂)]) s₂ :=
    .snoc (.snoc .nil rfl) rfl
  have tokens : (drawnTokens ([] ++ [(s₀, .addClient "a" "mmk_1" "client_a" 0, s₁)] ++
      [(s₁, .regenerateToken "client_a" "mmk_2", s₂)])).Nodup := by decide
  constructor
  · refine (token_authentication hash "p" rfl run tokens (by decide) "mmk_1" (by decide)).2 ?_
    rintro c ⟨⟨client, hclient, rfl, _⟩, hlast⟩
    have hid : client.id = "client_a" := by
      cases List.mem_singleton.mp hclient
      rfl
    rw [hid] at hlast
    revert hlast
    decide
  · refine ((token_authentication hash "p" rfl run tokens (by decide) "mmk_2" (by decide)).1
      "client_a").mpr ⟨⟨_, List.mem_cons_self, rfl, rfl⟩, by decide⟩

end TokenRun

end MiniMask
