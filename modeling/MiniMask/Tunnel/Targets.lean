import Mathlib.Data.String.Basic
import MiniMask.Lib.NetAddr
import MiniMask.Protocol
import MiniMask.Tunnel.Steps

/-!
# The targets of accepted mappings (`web/routes.rs`, `tunnel/protocol.rs`)

`create_mapping` accepts a local address that parses as a socket address and stores
the text as it came. Every visitor of the mapping has that text written to a yamux
stream as its target, behind a length of 16 bits. The parser has no bound on the
length of a text: a port may have any number of zeros in front of it.

* `accepted_tunnels_exact`: an accepted mapping can be tunnelled exactly when its
  address is at most 65535 bytes long.
* `padded_port_refused`: `127.0.0.1:0…080` with 65536 zeros is accepted, and
  `write_target` fails on it.
-/

namespace MiniMask.Tunnel

open Protocol Framing

/-! ## Writing and reading a target -/

/-- `write_target` succeeds, and `read_target` returns the same text from what it
wrote and takes no byte more, however the stream is cut. -/
def Tunnels (target : String) : Prop :=
  (writeTarget target).emitted.1 = .ok () ∧
  ∀ (source : Chunks) (trailing : List UInt8),
    source.pieces.flatten = (writeTarget target).emitted.2 ++ trailing →
    ∃ rest : Chunks, readTarget source = .ok (target, rest) ∧ rest.pieces.flatten = trailing

/-- A target that does not fit is refused before anything is written. -/
theorem emitted_tooLong {target : String} (h : ¬ Fits target) :
    (writeTarget target).emitted = (.error (.stringTooLong (asBytes target).length), []) :=
  (FailsAfter.here (lpStr_tooLong h)).emitted_eq

theorem tunnels_iff (target : String) : Tunnels target ↔ (asBytes target).length ≤ u16Max := by
  constructor
  · -- `write_lp_str` compares the length before it writes anything.
    intro h
    by_contra hlong
    have hwrite := h.1
    rw [emitted_tooLong hlong] at hwrite
    cases hwrite
  · intro hfits
    have hemitted := (writes_target hfits).emitted_eq
    refine ⟨by rw [hemitted], fun source trailing hsource => ?_⟩
    rw [hemitted] at hsource
    exact reads_lpStr hfits source trailing hsource

/-! ## Accepted mappings -/

section Accepted

variable {env : Env} {clients stored : ClientStore} {clientId name localAddr id : String}
  {remotePort : UInt16} {now : Timestamp} {io : AtomicFile.Outcome} {stage : AdminStage}

/-- A request that passes the checks of `create_mapping` is accepted when its port is
free and its client is there. -/
theorem handle_accepts (env : Env) (clients : ClientStore) (clientId name : String)
    (remotePort : UInt16) (localAddr id : String) (now : Timestamp) (hname : trim name ≠ "")
    (hport : remotePort ≠ 0) (haddr : env.isSocketAddr localAddr = true)
    (hfree : clients.remotePortTaken remotePort none = false)
    (hclient : (clients.list.any fun c => c.id == clientId) = true) :
    ∃ stored, handle env clients (.createMapping clientId name remotePort localAddr id now) .done =
      (.go (.adding { client := clientId
                      todo := [newMapping (trim name) remotePort localAddr id now]
                      stage := .idle } false), stored) := by
  simp only [handle, hname, hport, haddr, ClientStore.addMapping, hfree, hclient, if_true, if_false,
    Bool.true_eq_false, Bool.false_eq_true]
  exact ⟨_, rfl⟩

/-- A request that `create_mapping` does not answer with an error has its mapping in
the store of its client. -/
theorem accepted_stored
    (h : handle env clients (.createMapping clientId name remotePort localAddr id now) io =
      (.go stage, stored)) :
    let m := newMapping (trim name) remotePort localAddr id now
    stage = .adding { client := clientId, todo := [m], stage := .idle } false ∧
      ∃ c ∈ stored.list, c.id = clientId ∧ m ∈ c.mappings := by
  intro m
  obtain ⟨_, hgoes⟩ := handle_go (congrArg Prod.fst h)
  cases hgoes with
  | createMapping =>
    refine ⟨rfl, ?_⟩
    obtain ⟨_, _, _, _, _, _, heq, _, hany, hlist⟩ := handle_adding (congrArg Prod.fst h)
    cases heq
    obtain ⟨pre, c, post, _, hc, hupdate⟩ := updateFirst_split hany
    rw [h, hupdate] at hlist
    refine ⟨{ c with mappings := c.mappings ++ [m] }, ?_, by simpa using hc, ?_⟩
    · rw [hlist]
      exact List.mem_append_right _ List.mem_cons_self
    · exact List.mem_append_right _ (List.mem_singleton_self m)

/-- **Accepted mappings.** A `create_mapping` request that passes its checks and is
saved stores the address of the request, and that address can be tunnelled exactly
when its text is at most 65535 bytes long. -/
theorem accepted_tunnels_exact
    (h : handle env clients (.createMapping clientId name remotePort localAddr id now) io =
      (.go stage, stored)) :
    ∃ m, stage = .adding { client := clientId, todo := [m], stage := .idle } false ∧
      (∃ c ∈ stored.list, c.id = clientId ∧ m ∈ c.mappings) ∧ m.localAddr = localAddr ∧
      (Tunnels m.localAddr ↔ (asBytes m.localAddr).length ≤ u16Max) := by
  obtain ⟨hstage, hstored⟩ := accepted_stored h
  exact ⟨_, hstage, hstored, rfl, tunnels_iff _⟩

end Accepted

/-- The client of the example gets a second mapping. -/
theorem accepted_tunnels_exact_ssh :
    let env := { exampleEnv with isSocketAddr := NetAddr.isSocketAddr }
    ∃ stored, ∃ m ∈ [newMapping "ssh" 9001 "127.0.0.1:22" "map_ssh" 7],
      handle env exampleStore
        (.createMapping "cli_home" "ssh" 9001 "127.0.0.1:22" "map_ssh" 7) .done =
          (.go (.adding { client := "cli_home", todo := [m], stage := .idle } false), stored) ∧
      (∃ c ∈ stored.list, c.id = "cli_home" ∧ m ∈ c.mappings) ∧ Tunnels m.localAddr := by
  intro env
  obtain ⟨stored, haccepted⟩ := handle_accepts env exampleStore "cli_home" "ssh" 9001
    "127.0.0.1:22" "map_ssh" 7 (by decide) (by decide) (by decide +kernel) (by decide) (by decide)
  obtain ⟨m, hstage, hstored, haddr, hiff⟩ := accepted_tunnels_exact haccepted
  cases hstage
  exact ⟨stored, _, List.mem_singleton_self _, haccepted, hstored, hiff.mpr (by decide)⟩

/-! ## Padded ports -/

/-- The address `127.0.0.1:80` with `n` zeros in front of the port. -/
def paddedAddr (n : Nat) : String := "127.0.0.1:" ++ String.ofList (List.replicate n '0') ++ "80"

theorem toList_padded (n : Nat) :
    (paddedAddr n).toList = "127.0.0.1".toList ++ ':' :: (List.replicate n '0' ++ ['8', '0']) := by
  unfold paddedAddr
  simp only [String.toList_append, String.toList_ofList, List.append_assoc]
  rfl

theorem isSocketAddr_padded (n : Nat) : NetAddr.isSocketAddr (paddedAddr n) = true := by
  have hplain : NetAddr.readNumber 65536 10 none true ['8', '0'] = some (80, []) := by
    decide +kernel
  have hport := (NetAddr.readNumber_zeros (n := n) (by decide) (by decide)).trans hplain
  have hparse := NetAddr.parseSocketAddr_v4 (toList_padded n) rfl hport
  rw [NetAddr.isSocketAddr, hparse]
  rfl

theorem length_asBytes (s : String) : (asBytes s).length = s.utf8ByteSize := by
  rw [← String.size_toByteArray]
  exact Array.length_toList

theorem length_padded (n : Nat) : n ≤ (asBytes (paddedAddr n)).length := by
  have hzeros : (String.ofList (List.replicate n '0')).utf8ByteSize = n := by
    rw [String.utf8ByteSize_ofList]
    induction n with
    | zero => rfl
    | succ n ih =>
      rw [List.replicate_succ, String.utf8Len_cons, ih]
      rfl
  unfold paddedAddr
  rw [length_asBytes, String.utf8ByteSize_append, String.utf8ByteSize_append, hzeros]
  exact Nat.le_add_right_of_le (Nat.le_add_left n _)

/-- With any number of zeros the mapping is accepted; with more than 65535 its target
cannot be written. -/
theorem accepts_padded (n : Nat) (h : u16Max < n) :
    let env := { exampleEnv with isSocketAddr := NetAddr.isSocketAddr }
    ∃ stored, ∃ m ∈ [newMapping "ssh" 9001 (paddedAddr n) "map_ssh" 7],
      handle env exampleStore
        (.createMapping "cli_home" "ssh" 9001 (paddedAddr n) "map_ssh" 7) .done =
          (.go (.adding { client := "cli_home", todo := [m], stage := .idle } false), stored) ∧
      (∃ c ∈ stored.list, c.id = "cli_home" ∧ m ∈ c.mappings) ∧ ¬ Tunnels m.localAddr := by
  intro env
  have haddr : NetAddr.isSocketAddr (paddedAddr n) = true := isSocketAddr_padded n
  obtain ⟨stored, haccepted⟩ := handle_accepts env exampleStore "cli_home" "ssh" 9001
    (paddedAddr n) "map_ssh" 7 (by decide) (by decide) haddr (by decide) (by decide)
  refine ⟨stored, _, List.mem_singleton_self _, haccepted, (accepted_stored haccepted).2, ?_⟩
  rw [tunnels_iff]
  exact Nat.not_le.mpr (Nat.lt_of_lt_of_le h (length_padded n))

/-- A mapping to `127.0.0.1:80` whose port has 65536 zeros in front of it is accepted,
and its target cannot be written. -/
theorem padded_port_refused :
    let env := { exampleEnv with isSocketAddr := NetAddr.isSocketAddr }
    ∃ stored, ∃ m ∈ [newMapping "ssh" 9001 (paddedAddr 65536) "map_ssh" 7],
      handle env exampleStore
        (.createMapping "cli_home" "ssh" 9001 (paddedAddr 65536) "map_ssh" 7) .done =
          (.go (.adding { client := "cli_home", todo := [m], stage := .idle } false), stored) ∧
      (∃ c ∈ stored.list, c.id = "cli_home" ∧ m ∈ c.mappings) ∧ ¬ Tunnels m.localAddr :=
  accepts_padded 65536 (by decide)

end MiniMask.Tunnel
