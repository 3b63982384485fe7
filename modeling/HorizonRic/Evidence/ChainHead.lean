import HorizonRic.Evidence.StoreChain
import HorizonRic.Evidence.Append

/-!
The last hash of a tenant commits to the tenant's records: two stores that
verify and agree on it hold the same canonical JSON, and a store whose parsed
rows were edited, reordered, duplicated or thinned out does not verify.
-/
namespace HorizonRic.Evidence

open Py Json HashChain

/-- A parsed row: the record and the stored hash. -/
abbrev ParsedRow := DecisionRecord × Value

def tenantRows (tenant : String) (rows : List ParsedRow) : List ParsedRow :=
  rows.filter fun row => decide (tenantOf row.1 = tenant)

section
variable (env : Platform)

namespace EvidenceStore

/-- The rows that iteration outside any scope yields. -/
def parsed (s : EvidenceStore) : List ParsedRow := (s.iter env none).filterMap Except.toOption

/-- The hash of the tenant's last row. -/
def lastRowHash (tenant : String) (s : EvidenceStore) : Option Value :=
  ((tenantRows tenant (s.parsed env)).getLast?).map Prod.snd

/-- The canonical JSON of the tenant's records, in order. -/
def canonicalRecords (tenant : String) (s : EvidenceStore) : List (Except PyErr String) :=
  (tenantRows tenant (s.parsed env)).map fun row => canonicalJson env row.1

end EvidenceStore

/-- What an attacker does to the parsed rows while every stored hash stays as it is. -/
inductive Tampered : List ParsedRow → List ParsedRow → Prop
  | edited {rows rows' : List ParsedRow} (hashes : rows'.map Prod.snd = rows.map Prod.snd)
      (readable : ∀ row ∈ rows', ∃ text, canonicalJson env row.1 = .ok text)
      (changed : rows'.map (fun row => canonicalJson env row.1) ≠
        rows.map fun row => canonicalJson env row.1) : Tampered rows rows'
  | reordered {rows rows' : List ParsedRow} (perm : rows'.Perm rows) (tenant : String)
      (moved : tenantRows tenant rows' ≠ tenantRows tenant rows) : Tampered rows rows'
  | duplicated {rows rows' : List ParsedRow} {row : ParsedRow} (member : row ∈ rows)
      (perm : rows'.Perm (row :: rows)) : Tampered rows rows'
  | deleted {before after : List ParsedRow} {row later : ParsedRow} (member : later ∈ after)
      (tenant : tenantOf later.1 = tenantOf row.1) :
      Tampered (before ++ row :: after) (before ++ after)

/-! Parsed rows as chain rows. -/

/-- The digest that a stored hash spells. -/
def digestOf (v : Value) : Digest :=
  match v with
  | .str hex =>
    match fromHex hex with
    | .ok bytes => if size : bytes.length = 32 then ⟨bytes, size⟩ else .zero
    | .error _ => .zero
  | _ => .zero

def viewOf (row : ParsedRow) : ChainRow where
  key := tenantOf row.1
  payload :=
    match canonicalJson env row.1 with
    | .ok text => text
    | .error _ => ""
  hash := digestOf row.2

/-- The record has a canonical JSON, and the stored hash is a digest in hexadecimal. -/
structure Viewable (row : ParsedRow) : Prop where
  text : ∃ text, canonicalJson env row.1 = .ok text
  hex : ∃ d : Digest, row.2 = .str d.hex

theorem digestOf_hex (d : Digest) : digestOf (.str d.hex) = d := by
  simp only [digestOf, fromHex_hex, d.size, dif_pos]

theorem views_iff (outcome : Outcome) (crow : ChainRow) :
    Views env outcome crow ↔
      ∃ row, outcome = .ok row ∧ Viewable env row ∧ crow = viewOf env row := by
  constructor
  · rintro ⟨r, rfl, key, text⟩
    refine ⟨_, rfl, ⟨⟨_, text⟩, ⟨_, rfl⟩⟩, ?_⟩
    rw [viewOf, digestOf_hex]
    simp only [text, key]
  · rintro ⟨⟨r, stored⟩, rfl, ⟨⟨text, canonical⟩, ⟨d, hex⟩⟩, rfl⟩
    cases hex
    refine ⟨r, ?_, rfl, ?_⟩
    · rw [viewOf, digestOf_hex]
    · simp only [viewOf, canonical]

theorem forall₂_views_iff (outcomes : List Outcome) (crows : List ChainRow) :
    List.Forall₂ (Views env) outcomes crows ↔
      ∃ rows : List ParsedRow, outcomes = rows.map Except.ok ∧
        (∀ row ∈ rows, Viewable env row) ∧ crows = rows.map (viewOf env) := by
  constructor
  · intro all
    induction all with
    | nil => exact ⟨[], rfl, fun _ member => absurd member List.not_mem_nil, rfl⟩
    | cons views _ ih =>
      obtain ⟨row, rfl, viewable, rfl⟩ := (views_iff env _ _).mp views
      obtain ⟨rows, rfl, each, rfl⟩ := ih
      refine ⟨row :: rows, rfl, fun other member => ?_, rfl⟩
      rcases List.mem_cons.mp member with rfl | later
      · exact viewable
      · exact each other later
  · rintro ⟨rows, rfl, each, rfl⟩
    induction rows with
    | nil => exact .nil
    | cons row rows ih =>
      have head := (views_iff env (.ok row) (viewOf env row)).mpr
        ⟨row, rfl, each row List.mem_cons_self, rfl⟩
      exact .cons head (ih fun other later => each other (List.mem_cons_of_mem _ later))

theorem filterMap_toOption (rows : List ParsedRow) :
    (rows.map (Except.ok : ParsedRow → Outcome)).filterMap Except.toOption = rows := by
  induction rows with
  | nil => rfl
  | cons row rows ih => simpa [Except.toOption] using ih

theorem rowsOf_viewOf (tenant : String) (rows : List ParsedRow) :
    rowsOf tenant (rows.map (viewOf env)) = (tenantRows tenant rows).map (viewOf env) := by
  rw [rowsOf, tenantRows, List.filter_map]
  rfl

/-- A store verifies exactly when its rows can be read and form intact chains. -/
theorem EvidenceStore.verify_parsed (s : EvidenceStore) :
    s.verify env none = .ok (-1) ↔
      s.iter env none = (s.parsed env).map Except.ok ∧ (∀ row ∈ s.parsed env, Viewable env row) ∧
        Intact (chainStep env) Digest.zero ((s.parsed env).map (viewOf env)) := by
  rw [s.verify_iff env none]
  constructor
  · rintro ⟨crows, all, intact⟩
    obtain ⟨rows, outcomes, each, rfl⟩ := (forall₂_views_iff env _ _).mp all
    have same : s.parsed env = rows := by
      rw [parsed, outcomes, filterMap_toOption]
    rw [same]
    exact ⟨outcomes, each, intact⟩
  · rintro ⟨outcomes, each, intact⟩
    exact ⟨_, (forall₂_views_iff env _ _).mpr ⟨_, outcomes, each, rfl⟩, intact⟩

theorem EvidenceStore.views_parsed {s : EvidenceStore}
    (outcomes : s.iter env none = (s.parsed env).map Except.ok)
    (each : ∀ row ∈ s.parsed env, Viewable env row) :
    List.Forall₂ (Views env) (s.iter env none) ((s.parsed env).map (viewOf env)) :=
  (forall₂_views_iff env _ _).mpr ⟨_, outcomes, each, rfl⟩

theorem hash_of_viewable {row : ParsedRow} (viewable : Viewable env row) :
    row.2 = .str (viewOf env row).hash.hex := by
  obtain ⟨d, hex⟩ := viewable.hex
  rw [viewOf, hex, digestOf_hex]

theorem canonical_of_viewable {row : ParsedRow} (viewable : Viewable env row) :
    canonicalJson env row.1 = .ok (viewOf env row).payload := by
  obtain ⟨text, canonical⟩ := viewable.text
  simp only [viewOf, canonical]

theorem viewOf_hash_eq {row row' : ParsedRow} (same : row.2 = row'.2) :
    (viewOf env row).hash = (viewOf env row').hash := congrArg digestOf same

section
variable {rows rows' : List ParsedRow}

theorem map_canonical (each : ∀ row ∈ rows, Viewable env row) :
    rows.map (fun row => canonicalJson env row.1) =
      ((rows.map (viewOf env)).map Row.payload).map Except.ok := by
  rw [List.map_map, List.map_map]
  exact List.map_congr_left fun row member => canonical_of_viewable env (each row member)

theorem tenantRows_subset {tenant : String} {row : ParsedRow}
    (member : row ∈ tenantRows tenant rows) : row ∈ rows := List.mem_of_mem_filter member

/-- The stored hash of the last row of a tenant is the head of its chain. -/
theorem heads_viewOf (each : ∀ row ∈ rows, Viewable env row) (tenant : String) :
    ((tenantRows tenant rows).getLast?).map Prod.snd =
      ((rowsOf tenant (rows.map (viewOf env))).getLast?).map fun r => Value.str r.hash.hex := by
  rw [rowsOf_viewOf, List.getLast?_map, Option.map_map]
  cases last : (tenantRows tenant rows).getLast? with
  | none => rfl
  | some row =>
    have member : row ∈ rows := tenantRows_subset (List.mem_of_getLast? last)
    exact congrArg some (hash_of_viewable env (each row member))

variable {hashed : Set (Digest × String)} (each : ∀ row ∈ rows, Viewable env row)
  (each' : ∀ row ∈ rows', Viewable env row)
  (intact : Intact (chainStep env) Digest.zero (rows.map (viewOf env)))
  (intact' : Intact (chainStep env) Digest.zero (rows'.map (viewOf env)))
  (free : CollisionFree (chainStep env) Digest.zero hashed)
  (hashes : ∀ a ∈ hashedOf Digest.zero (rows.map (viewOf env)), a ∈ hashed)
  (hashes' : ∀ a ∈ hashedOf Digest.zero (rows'.map (viewOf env)), a ∈ hashed)

include each each' intact intact' free hashes hashes'

/-- Equal last hashes of a tenant, equal canonical records. -/
theorem canonical_of_lastHash {tenant : String}
    (same : ((tenantRows tenant rows).getLast?).map Prod.snd =
      ((tenantRows tenant rows').getLast?).map Prod.snd) :
    (tenantRows tenant rows).map (fun row => canonicalJson env row.1) =
      (tenantRows tenant rows').map fun row => canonicalJson env row.1 := by
  have heads : heads (fun _ => Digest.zero) (rows.map (viewOf env)) tenant =
      heads (fun _ => Digest.zero) (rows'.map (viewOf env)) tenant := by
    rw [heads_viewOf env each, heads_viewOf env each'] at same
    rw [heads_eq_getLast, heads_eq_getLast]
    cases last : (rowsOf tenant (rows.map (viewOf env))).getLast? <;>
      cases last' : (rowsOf tenant (rows'.map (viewOf env))).getLast? <;>
        simp_all
    exact hex_injective same
  have payloads := payloads_eq_of_head intact intact' free hashes hashes' heads
  rw [map_canonical env fun row member => each row (tenantRows_subset member),
    map_canonical env fun row member => each' row (tenantRows_subset member), ← rowsOf_viewOf,
    ← rowsOf_viewOf]
  exact congrArg (List.map Except.ok) payloads

/-- No tampering leaves the chains intact: one case for each kind. -/
theorem not_tampered : ¬Tampered env rows rows' := by
  intro tampered
  cases tampered with
  | edited hashesKept _ changed =>
    apply changed
    have lengths : rows'.length = rows.length := by
      simpa using congrArg List.length hashesKept
    refine List.ext_getElem (by simpa using lengths) fun i hi' hi => ?_
    rw [List.length_map] at hi hi'
    have stored : rows'[i].2 = rows[i].2 := by
      have at_i := congrArg (fun hs => hs[i]?) hashesKept
      simpa [hi, hi'] using at_i
    have payload := payload_eq_of_hash intact' intact free hashes' hashes
      (List.mem_map_of_mem (List.getElem_mem hi')) (List.mem_map_of_mem (List.getElem_mem hi))
      (viewOf_hash_eq env stored)
    rw [List.getElem_map, List.getElem_map, canonical_of_viewable env (each' _ (List.getElem_mem hi')),
      canonical_of_viewable env (each _ (List.getElem_mem hi)), payload]
  | reordered perm tenant moved =>
    apply moved
    have views := rowsOf_eq_of_perm intact intact' free hashes hashes' (perm.map (viewOf env)) tenant
    rw [rowsOf_viewOf, rowsOf_viewOf] at views
    have nodup : ((tenantRows tenant rows).map (viewOf env)).Nodup := by
      have distinct := folds_nodup free _ (visited_hashed intact hashes tenant)
      rw [← rowsOf_hashes intact tenant, rowsOf_viewOf] at distinct
      exact distinct.of_map _
    exact eq_of_perm_of_map_eq (viewOf env) (perm.filter _) nodup views
  | duplicated member perm =>
    exact not_duplicated intact intact' free hashes hashes' (List.mem_map_of_mem member)
      (perm.map (viewOf env))
  | @deleted before after row later member tenant =>
    have split : (before ++ row :: after).map (viewOf env) =
        before.map (viewOf env) ++ viewOf env row :: after.map (viewOf env) := by
      rw [List.map_append, List.map_cons]
    have next : ∃ s ∈ after.map (viewOf env), s.key = (viewOf env row).key :=
      ⟨viewOf env later, List.mem_map_of_mem member, tenant⟩
    exact not_deleted intact intact' free hashes hashes' split next List.map_append

end

theorem viewable_of_tampered {rows rows' : List ParsedRow}
    (each : ∀ row ∈ rows, Viewable env row) (tampered : Tampered env rows rows') :
    ∀ row ∈ rows', Viewable env row := by
  cases tampered with
  | edited hashes readable _ =>
    intro row member
    refine ⟨readable row member, ?_⟩
    have stored : row.2 ∈ rows.map Prod.snd := hashes ▸ List.mem_map_of_mem member
    obtain ⟨old, among, same⟩ := List.mem_map.mp stored
    rw [← same]
    exact (each old among).hex
  | reordered perm _ _ => exact fun row member => each row (perm.subset member)
  | duplicated member perm =>
    intro row inside
    rcases List.mem_cons.mp (perm.subset inside) with rfl | old
    · exact each _ member
    · exact each row old
  | deleted _ _ =>
    intro row inside
    apply each row
    rcases List.mem_append.mp inside with early | late
    · exact List.mem_append_left _ early
    · exact List.mem_append_right _ (List.mem_cons_of_mem _ late)

/-- Two stores that verify and agree on a tenant's last hash hold the same canonical
    records of it, and tampering with the rows of a store that verifies is detected. -/
theorem chain_head_commits (s s' : EvidenceStore)
    (free : NoCollision env {m | m ∈ s.messages env ∨ m ∈ s'.messages env})
    (intact : s.verify env none = .ok (-1)) :
    (s'.verify env none = .ok (-1) → ∀ tenant,
      s.lastRowHash env tenant = s'.lastRowHash env tenant →
        s.canonicalRecords env tenant = s'.canonicalRecords env tenant) ∧
    (∀ rows', s'.iter env none = rows'.map Except.ok → Tampered env (s.parsed env) rows' →
      ∃ index, s'.verify env none = .ok index ∧ index ≠ -1) := by
  obtain ⟨outcomes, each, chained⟩ := (s.verify_parsed env).mp intact
  have hashes := hashed_of_subset env (s.views_parsed env outcomes each)
    (fun m inside => show m ∈ {m | m ∈ s.messages env ∨ m ∈ s'.messages env} from Or.inl inside)
  constructor
  · intro intact' tenant same
    obtain ⟨outcomes', each', chained'⟩ := (s'.verify_parsed env).mp intact'
    have hashes' := hashed_of_subset env (s'.views_parsed env outcomes' each')
      (fun m inside => show m ∈ {m | m ∈ s.messages env ∨ m ∈ s'.messages env} from Or.inr inside)
    exact canonical_of_lastHash env each each' chained chained' (collisionFree_links env free)
      hashes hashes' same
  · intro rows' outcomes' tampered
    have same : s'.parsed env = rows' := by
      rw [EvidenceStore.parsed, outcomes', filterMap_toOption]
    subst same
    have each' := viewable_of_tampered env each tampered
    obtain ⟨index, returned⟩ := s'.verify_returns env (s'.views_parsed env outcomes' each')
    refine ⟨index, returned, ?_⟩
    rintro rfl
    obtain ⟨_, _, chained'⟩ := (s'.verify_parsed env).mp returned
    have hashes' := hashed_of_subset env (s'.views_parsed env outcomes' each')
      (fun m inside => show m ∈ {m | m ∈ s.messages env ∨ m ∈ s'.messages env} from Or.inr inside)
    exact not_tampered env each each' chained chained' (collisionFree_links env free) hashes
      hashes' tampered

end

def samplePayload : String :=
  String.ofList (print sampleInterpreter compact
    (sortKeys (sampleRecord (.fin 0) "d-1" (some "alpha")).modelDump))

def sampleDigest : Digest := chainStep samplePlatform Digest.zero samplePayload

def sampleRow : DecisionRow := ⟨"d-1", "alpha", samplePayload, sampleDigest.bytes⟩

theorem sample_canonical : canonicalJson samplePlatform
    (sampleRecord (.fin 0) "d-1" (some "alpha")) = .ok samplePayload :=
  dumps_readable sampleInterpreter compact (sample_readable sample_zero _ _)

theorem sampleRow_views :
    Views samplePlatform (rowOutcome samplePlatform sampleRow)
      ⟨"alpha", samplePayload, sampleDigest⟩ := by
  have readable := sample_readable sample_zero "d-1" (some "alpha")
  have scanned := sample_scansJson _ (readable_sortKeys sampleInterpreter readable)
  obtain ⟨r', back, tenant, _, same⟩ := validate_settles samplePydantic sampleCoercions
    (r := sampleRecord (.fin 0) "d-1" (some "alpha")) rfl rfl
  refine ⟨r', rowOutcome_eq samplePlatform scanned back, ?_, ?_⟩
  · rw [tenantOf, tenant]
    rfl
  · exact (canonicalJson_congr samplePlatform same).trans sample_canonical

theorem sample_sha256 (b : UInt8) (payload : String) :
    (samplePlatform.sha256 (List.replicate 32 b ++ utf8 payload)).bytes =
      List.replicate 32 (UInt8.ofNat (b.toNat % 255 + 1)) := rfl

theorem sample_noCollision : NoCollision samplePlatform
    {m | m = Digest.zero.bytes ++ utf8 samplePayload ∨
      m = sampleDigest.bytes ++ utf8 samplePayload} := by
  have first : (samplePlatform.sha256 (Digest.zero.bytes ++ utf8 samplePayload)).bytes =
      List.replicate 32 1 := sample_sha256 0 samplePayload
  have second : (samplePlatform.sha256 (sampleDigest.bytes ++ utf8 samplePayload)).bytes =
      List.replicate 32 2 := by
    have digest : sampleDigest.bytes = List.replicate 32 1 := first
    rw [digest]
    exact sample_sha256 1 samplePayload
  have differ : samplePlatform.sha256 (Digest.zero.bytes ++ utf8 samplePayload) ≠
      samplePlatform.sha256 (sampleDigest.bytes ++ utf8 samplePayload) := by
    intro same
    have bytes := congrArg Digest.bytes same
    rw [first, second] at bytes
    exact absurd bytes (by decide)
  constructor
  · rintro a (rfl | rfl) b (rfl | rfl) same
    · rfl
    · exact absurd same differ
    · exact absurd same.symm differ
    · rfl
  · rintro m (rfl | rfl) same
    · have bytes := congrArg Digest.bytes same
      rw [first] at bytes
      exact absurd bytes (by decide)
    · have bytes := congrArg Digest.bytes same
      rw [second] at bytes
      exact absurd bytes (by decide)

theorem messages_sample {s : EvidenceStore} {crows : List ChainRow}
    (views : List.Forall₂ (Views samplePlatform) (s.iter samplePlatform none) crows)
    (among : ∀ a ∈ hashedOf Digest.zero crows,
      linkMessage a = Digest.zero.bytes ++ utf8 samplePayload ∨
        linkMessage a = sampleDigest.bytes ++ utf8 samplePayload) :
    ∀ m ∈ s.messages samplePlatform, m = Digest.zero.bytes ++ utf8 samplePayload ∨
      m = sampleDigest.bytes ++ utf8 samplePayload := by
  intro m member
  rw [EvidenceStore.messages_eq samplePlatform views] at member
  obtain ⟨a, inside, rfl⟩ := List.mem_map.mp member
  exact among a inside

/-- A table whose only row is stored twice does not verify. -/
theorem chain_head_commits_duplicate :
    ∃ index, (EvidenceStore.sqlite [sampleRow, sampleRow]).verify samplePlatform none =
      .ok index ∧ index ≠ -1 := by
  let single : EvidenceStore := .sqlite [sampleRow]
  let twice : EvidenceStore := .sqlite [sampleRow, sampleRow]
  have views : List.Forall₂ (Views samplePlatform) (single.iter samplePlatform none) _ :=
    .cons sampleRow_views .nil
  have views' : List.Forall₂ (Views samplePlatform) (twice.iter samplePlatform none) _ :=
    .cons sampleRow_views (.cons sampleRow_views .nil)
  have intact : single.verify samplePlatform none = .ok (-1) :=
    (single.verify_iff samplePlatform none).mpr ⟨_, views, rfl, trivial⟩
  have once := messages_sample views (by
    intro a member
    rw [List.mem_singleton.mp member]
    exact .inl rfl)
  have again := messages_sample views' (by
    intro a member
    rcases List.mem_cons.mp member with first | rest
    · rw [first]
      exact .inl rfl
    · rw [List.mem_singleton.mp rest]
      exact .inr rfl)
  have free : NoCollision samplePlatform
      {m | m ∈ single.messages samplePlatform ∨ m ∈ twice.messages samplePlatform} := by
    refine sample_noCollision.subset samplePlatform fun m among => ?_
    exact among.elim (once m) (again m)
  obtain ⟨r, row, _, _⟩ := sampleRow_views
  refine (chain_head_commits samplePlatform single twice free intact).2
    [(r, .str sampleDigest.hex), (r, .str sampleDigest.hex)] ?_ ?_
  · have rows : twice.iter samplePlatform none =
        [rowOutcome samplePlatform sampleRow, rowOutcome samplePlatform sampleRow] := rfl
    rw [rows, row]
    rfl
  · have rows : single.iter samplePlatform none = [rowOutcome samplePlatform sampleRow] := rfl
    have parsed : single.parsed samplePlatform = [(r, .str sampleDigest.hex)] := by
      rw [EvidenceStore.parsed, rows, row]
      rfl
    rw [parsed]
    exact .duplicated List.mem_cons_self (List.Perm.refl _)

end HorizonRic.Evidence
