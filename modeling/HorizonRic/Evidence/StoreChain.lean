import HorizonRic.Evidence.Store
import HorizonRic.Library.HashChain

/-!
Verification refines the abstract hash chains: `verify` returns -1 exactly when
every row is readable, stores the hex text of a digest and extends the chain of
its tenant.
-/
namespace HorizonRic.Evidence

open Py Json HashChain

/-- A row of the evidence, as its chain sees it: tenant, canonical JSON and digest. -/
abbrev ChainRow := HashChain.Row String String Digest

section
variable (env : Platform)

/-- The digest of a row after the digest `d`. -/
def chainStep (d : Digest) (payload : String) : Digest := env.sha256 (d.bytes ++ utf8 payload)

theorem chain_hex (d : Digest) (payload : String) :
    chain env (.str d.hex) payload = .ok (chainStep env d payload).hex := by
  rw [chain, fromHex_hex]
  rfl

/-- The row is readable, and stores a digest in hexadecimal. -/
def Views (outcome : Outcome) (row : ChainRow) : Prop :=
  ∃ r, outcome = .ok (r, .str row.hash.hex) ∧ tenantOf r = row.key ∧
    canonicalJson env r = .ok row.payload

theorem eqStr_iff (v : Value) (s : String) : v.eqStr s = true ↔ v = .str s := by
  cases v <;> simp [Value.eqStr]

theorem update_hex (prev : String → Digest) (key : String) (d : Digest) :
    Function.update (fun t => Value.str (prev t).hex) key (.str d.hex) =
      fun t => .str (Function.update prev key d t).hex := by
  funext t
  by_cases same : t = key
  · subst same
    rw [Function.update_self, Function.update_self]
  · rw [Function.update_of_ne same, Function.update_of_ne same]

/-- A verified row is a view of a chain row, and the rest is verified after it. -/
theorem verifyFrom_cons {i : Nat} {prev : String → Digest} {outcome : Outcome}
    {rest : List Outcome}
    (verified : verifyFrom env i (fun t => .str (prev t).hex) (outcome :: rest) = .ok (-1)) :
    ∃ row, Views env outcome row ∧ row.hash = chainStep env (prev row.key) row.payload ∧
      verifyFrom env (i + 1) (fun t => .str (Function.update prev row.key row.hash t).hex) rest =
        .ok (-1) := by
  cases outcome with
  | error e => cases verified
  | ok pair =>
    obtain ⟨r, stored⟩ := pair
    obtain ⟨payload, text, more⟩ := bind_eq_ok verified
    rw [chain_hex, ok_bind] at more
    split at more
    · rename_i matches'
      have hash := (eqStr_iff _ _).mp matches'
      subst hash
      rw [update_hex] at more
      exact ⟨⟨tenantOf r, payload, chainStep env (prev (tenantOf r)) payload⟩,
        ⟨r, rfl, rfl, text⟩, rfl, more⟩
    · cases more

theorem verifyFrom_iff (i : Nat) (prev : String → Digest) (outcomes : List Outcome) :
    verifyFrom env i (fun t => .str (prev t).hex) outcomes = .ok (-1) ↔
      ∃ rows, List.Forall₂ (Views env) outcomes rows ∧ Linked (chainStep env) prev rows := by
  constructor
  · intro verified
    induction outcomes generalizing i prev with
    | nil => exact ⟨[], .nil, trivial⟩
    | cons outcome rest ih =>
      obtain ⟨row, views, hash, later⟩ := verifyFrom_cons env verified
      obtain ⟨rows, all, linked⟩ := ih _ _ later
      exact ⟨row :: rows, .cons views all, hash, linked⟩
  · rintro ⟨rows, all, linked⟩
    induction all generalizing i prev with
    | nil => rfl
    | cons views _ ih =>
      obtain ⟨r, rfl, key, text⟩ := views
      obtain ⟨hash, later⟩ := linked
      rw [verifyFrom, text, ok_bind, key, chain_hex, ok_bind, ← hash,
        if_pos ((eqStr_iff _ _).mpr rfl), update_hex]
      exact ih _ _ later

theorem verifyFrom_returns (i : Nat) (prev : String → Digest) {outcomes : List Outcome}
    {rows : List ChainRow} (all : List.Forall₂ (Views env) outcomes rows) :
    ∃ index, verifyFrom env i (fun t => .str (prev t).hex) outcomes = .ok index := by
  induction all generalizing i prev with
  | nil => exact ⟨-1, rfl⟩
  | cons views _ ih =>
    obtain ⟨r, rfl, key, text⟩ := views
    rw [verifyFrom, text, ok_bind, key, chain_hex, ok_bind]
    split
    · rename_i row _ _ _ matches'
      rw [update_hex]
      exact ih _ _
    · exact ⟨_, rfl⟩

theorem zero_start : (fun _ : String => Value.str zeroHashHex) =
    fun t => .str ((fun _ : String => Digest.zero) t).hex := by
  funext t
  rw [zero_hex]

namespace EvidenceStore

/-- The rows of a store that verifies: their tenants, canonical JSON and digests. -/
theorem verify_iff (scope : Option String) (s : EvidenceStore) :
    s.verify env scope = .ok (-1) ↔
      ∃ rows, List.Forall₂ (Views env) (s.iter env scope) rows ∧
        Intact (chainStep env) Digest.zero rows := by
  rw [verify, zero_start, verifyFrom_iff]
  rfl

theorem verify_returns {scope : Option String} {s : EvidenceStore} {rows : List ChainRow}
    (all : List.Forall₂ (Views env) (s.iter env scope) rows) :
    ∃ index, s.verify env scope = .ok index := by
  rw [verify, zero_start]
  exact verifyFrom_returns env 0 _ all

end EvidenceStore

/-- `verify_tenant` walks the chain of its tenant only. -/
theorem verifyTenantFrom_iff (tenant : String) (idx : Nat) (start : Digest)
    {outcomes : List Outcome} {rows : List ChainRow}
    (all : List.Forall₂ (Views env) outcomes rows) :
    verifyTenantFrom env tenant idx (.str start.hex) outcomes = .ok (-1) ↔
      ChainFrom (chainStep env) start (rowsOf tenant rows) := by
  induction all generalizing idx start with
  | nil => exact ⟨fun _ => trivial, fun _ => rfl⟩
  | @cons outcome row _ rows views _ ih =>
    obtain ⟨r, rfl, key, text⟩ := views
    by_cases same : row.key = tenant
    · subst same
      rw [verifyTenantFrom, if_pos key, text, ok_bind, chain_hex, ok_bind, rowsOf_cons_self,
        ChainFrom]
      split
      · rename_i matches'
        have hash : row.hash = chainStep env start row.payload :=
          hex_injective (Value.str.inj ((eqStr_iff _ _).mp matches'))
        rw [ih]
        exact ⟨fun later => ⟨hash, later⟩, And.right⟩
      · rename_i differs
        constructor
        · intro returned
          cases returned
        · rintro ⟨hash, _⟩
          exact absurd ((eqStr_iff _ _).mpr (by rw [hash])) differs
    · rw [verifyTenantFrom, if_neg (fun h => same (key.symm.trans h)), rowsOf_cons_ne same]
      exact ih _ _

namespace EvidenceStore

theorem verifyTenant_of_intact {scope : Option String} {s : EvidenceStore} {rows : List ChainRow}
    (all : List.Forall₂ (Views env) (s.iter env scope) rows)
    (intact : Intact (chainStep env) Digest.zero rows) (tenant : String) :
    s.verifyTenant env scope tenant = .ok (-1) := by
  rw [verifyTenant, ← zero_hex, verifyTenantFrom_iff env tenant 0 Digest.zero all]
  exact chainFrom_rowsOf (chainStep env) intact tenant

end EvidenceStore

/-! Collisions. -/

/-- The messages that `verify` hashes on these rows. -/
def messagesFrom (prev : String → Value) : List Outcome → List Bytes
  | .ok (r, stored) :: rest =>
    let later := messagesFrom (Function.update prev (tenantOf r) stored) rest
    match prev (tenantOf r), canonicalJson env r with
    | .str hex, .ok payload =>
      match fromHex hex with
      | .ok bytes => (bytes ++ utf8 payload) :: later
      | .error _ => later
    | _, _ => later
  | _ => []

def EvidenceStore.messages (s : EvidenceStore) : List Bytes :=
  messagesFrom env (fun _ => .str zeroHashHex) (s.iter env none)

/-- SHA-256 has no collision among these messages, and gives none of them the zero hash. -/
structure NoCollision (messages : Set Bytes) : Prop where
  injective : Set.InjOn env.sha256 messages
  nonzero : ∀ m ∈ messages, env.sha256 m ≠ Digest.zero

theorem NoCollision.subset {messages fewer : Set Bytes} (free : NoCollision env messages)
    (subset : ∀ m ∈ fewer, m ∈ messages) : NoCollision env fewer where
  injective := free.injective.mono subset
  nonzero m member := free.nonzero m (subset m member)

/-- The message of a link. -/
def linkMessage (link : Digest × String) : Bytes := link.1.bytes ++ utf8 link.2

theorem linkMessage_injective {a b : Digest × String} (same : linkMessage a = linkMessage b) :
    a = b := by
  have parts := List.append_inj same (a.1.size.trans b.1.size.symm)
  exact Prod.ext (Digest.ext parts.1) (utf8_injective parts.2)

theorem messagesFrom_eq {prev : String → Digest} {outcomes : List Outcome} {rows : List ChainRow}
    (all : List.Forall₂ (Views env) outcomes rows) :
    messagesFrom env (fun t => .str (prev t).hex) outcomes =
      (links prev rows).map linkMessage := by
  induction all generalizing prev with
  | nil => rfl
  | cons views _ ih =>
    obtain ⟨r, rfl, key, text⟩ := views
    rw [messagesFrom, key]
    simp only [text, fromHex_hex, update_hex, ih]
    rfl

theorem EvidenceStore.messages_eq {s : EvidenceStore} {rows : List ChainRow}
    (all : List.Forall₂ (Views env) (s.iter env none) rows) :
    s.messages env = (hashedOf Digest.zero rows).map linkMessage := by
  rw [messages, zero_start, messagesFrom_eq env all]
  rfl

/-- No collision among messages is no collision among the links they come from. -/
theorem collisionFree_links {messages : Set Bytes} (free : NoCollision env messages) :
    CollisionFree (chainStep env) Digest.zero {link | linkMessage link ∈ messages} where
  injective _ ha _ hb same := linkMessage_injective (free.injective ha hb same)
  nonzero _ ha := free.nonzero _ ha

theorem hashed_of_subset {s : EvidenceStore} {rows : List ChainRow} {messages : Set Bytes}
    (all : List.Forall₂ (Views env) (s.iter env none) rows)
    (subset : ∀ m ∈ s.messages env, m ∈ messages) :
    ∀ link ∈ hashedOf Digest.zero rows, link ∈ {link | linkMessage link ∈ messages} := by
  intro link member
  apply subset _
  rw [EvidenceStore.messages_eq env all]
  exact List.mem_map_of_mem member

end
end HorizonRic.Evidence
