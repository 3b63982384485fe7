import HorizonRic.Evidence.LinearChains

/-!
The JSONL file and the SQLite table as two representations of one log of
appended records. Appends return the hashes of the log on either backend;
iteration and verification agree once every record of the log reads back.
-/
namespace HorizonRic.Evidence

open Py Json HashChain

/-- What the appends so far persisted, and the digests they returned. -/
abbrev EvidenceLog := List (DecisionRecord × Digest)

section
variable (env : Platform)

def payloadOf (r : DecisionRecord) : String := ((canonicalJson env r).toOption).getD ""

def logRow (entry : DecisionRecord × Digest) : ChainRow :=
  ⟨tenantOf entry.1, payloadOf env entry.1, entry.2⟩

def logHead (log : EvidenceLog) (tenant : String) : Digest :=
  heads (fun _ => Digest.zero) (log.map (logRow env)) tenant

/-- An append to the log: the digest after the tenant's last one. -/
def logAppend (a : AppendRequest) (log : EvidenceLog) : Except PyErr (EvidenceLog × String) := do
  let payload ← canonicalJson env a.persisted
  let digest := chainStep env (logHead env log (tenantOf a.persisted)) payload
  .ok (log ++ [(a.persisted, digest)], digest.hex)

/-- One append after another; an exception leaves what is stored. -/
def appendEach (append : AppendRequest → σ → Except PyErr (σ × String)) :
    List AppendRequest → σ → σ × List (Except PyErr String)
  | [], s => (s, [])
  | a :: rest, s =>
    match append a s with
    | .ok (s', hash) => ((appendEach append rest s').1, .ok hash :: (appendEach append rest s').2)
    | .error e => ((appendEach append rest s).1, .error e :: (appendEach append rest s).2)

def appendAll (requests : List AppendRequest) (s : EvidenceStore) :
    EvidenceStore × List (Except PyErr String) :=
  appendEach (fun a s => s.append env a.scope a.record) requests s

def logAll (requests : List AppendRequest) (log : EvidenceLog) :
    EvidenceLog × List (Except PyErr String) :=
  appendEach (logAppend env) requests log

/-- The appends that returned: what each persisted, and its hash. -/
def accepted (requests : List AppendRequest) (results : List (Except PyErr String)) :
    List (DecisionRecord × String) :=
  (requests.zip results).filterMap fun (a, result) =>
    match result with
    | .ok hash => some (a.persisted, hash)
    | .error _ => none

/-- What a scope iterates of one entry. -/
def Backend.added (backend : Backend) (entry : DecisionRecord × Digest) :
    Option String → List Outcome :=
  match backend with
  | .jsonl => lineAdded env entry.1 entry.2.hex
  | .sqlite => rowAdded env
      ⟨entry.1.decisionId, tenantOf entry.1, payloadOf env entry.1, entry.2.bytes⟩

/-- The store holds the log. -/
structure Represents (backend : Backend) (s : EvidenceStore) (log : EvidenceLog) : Prop where
  iter : ∀ scope, s.iter env scope = log.flatMap fun entry => backend.added env entry scope
  lastHash : ∀ tenant, s.lastHash env tenant = .ok (.str (logHead env log tenant).hex)
  room : Room (log.map fun entry => entry.1.decisionId) backend s

theorem represents_empty (backend : Backend) : Represents env backend backend.empty [] where
  iter _ := by cases backend <;> rfl
  lastHash := (consistent_empty env backend).lastHash
  room := (consistent_empty env backend).room

theorem payloadOf_ok {r : DecisionRecord} {payload : String}
    (canonical : canonicalJson env r = .ok payload) : payloadOf env r = payload := by
  rw [payloadOf, canonical]
  rfl

variable {env} {backend : Backend} {s : EvidenceStore} {log : EvidenceLog}

theorem write_represents (represents : Represents env backend s log) {r : DecisionRecord}
    {payload : String} (held : HeldRecord env r) (canonical : canonicalJson env r = .ok payload)
    (fresh : r.decisionId ∉ log.map fun entry => entry.1.decisionId) (d : Digest) :
    ∃ s', s.write env r payload d.hex = .ok s' ∧
      Writes env backend s s' (log.map fun entry => entry.1.decisionId) (tenantOf r) d.hex
        r.decisionId (backend.added env (r, d)) := by
  have room := represents.room
  cases backend with
  | jsonl =>
    cases s with
    | jsonl content => exact write_jsonl env room held canonical d.hex
    | sqlite table => exact room.elim
  | sqlite =>
    cases s with
    | jsonl content => exact room.elim
    | sqlite table =>
      have written := write_sqlite env room fresh payload d
      rw [Backend.added, payloadOf_ok env canonical]
      exact written

/-- An append that the record allows extends the log on either backend. -/
theorem append_represents (represents : Represents env backend s log) {a : AppendRequest}
    {payload : String} (held : HeldRecord env a.persisted)
    (canonical : canonicalJson env a.persisted = .ok payload)
    (fresh : a.persisted.decisionId ∉ log.map fun entry => entry.1.decisionId) :
    ∃ s' d, d = chainStep env (logHead env log (tenantOf a.persisted)) payload ∧
      s.append env a.scope a.record = .ok (s', Digest.hex d) ∧
      Represents env backend s' (log ++ [(a.persisted, d)]) := by
  let d := chainStep env (logHead env log (tenantOf a.persisted)) payload
  obtain ⟨s', written, effect⟩ := write_represents represents held canonical fresh d
  have computed : chain env (.str (logHead env log (tenantOf a.persisted)).hex) payload =
      .ok d.hex := chain_hex env _ payload
  have row : logRow env (a.persisted, d) = ⟨tenantOf a.persisted, payload, d⟩ := by
    rw [logRow, payloadOf_ok env canonical]
  refine ⟨s', d, rfl, ?_, ?_, ?_, ?_⟩
  · have read := represents.lastHash (tenantOf (stamp a.scope a.record))
    have canonical' : canonicalJson env (stamp a.scope a.record) = .ok payload := canonical
    have computed' : chain env (.str (logHead env log
        (tenantOf (stamp a.scope a.record))).hex) payload = .ok d.hex := computed
    have written' : s.write env (stamp a.scope a.record) payload d.hex = .ok s' := written
    simp only [EvidenceStore.append, CriticalSection.Call.atomic, EvidenceStore.appendCall, read,
      canonical', ok_bind, computed', written']
  · intro scope
    rw [effect.iter scope, represents.iter scope, List.flatMap_append, List.flatMap_singleton]
  · intro tenant
    rw [effect.lastHash tenant _ (represents.lastHash tenant), logHead, logHead, List.map_append,
      List.map_cons, List.map_nil, row, heads_append, heads, heads]
    by_cases mine : tenantOf a.persisted = tenant
    · subst mine
      rw [if_pos rfl, Function.update_self]
    · rw [if_neg mine, Function.update_of_ne (Ne.symm mine)]
  · rw [List.map_append]
    exact effect.room

/-- A record that cannot be serialised is refused, and nothing changes. -/
theorem append_refused (represents : Represents env backend s log) {a : AppendRequest} {e : PyErr}
    (canonical : canonicalJson env a.persisted = .error e) :
    s.append env a.scope a.record = .error e := by
  have read := represents.lastHash (tenantOf (stamp a.scope a.record))
  have canonical' : canonicalJson env (stamp a.scope a.record) = .error e := canonical
  simp only [EvidenceStore.append, CriticalSection.Call.atomic, EvidenceStore.appendCall, read,
    canonical']
  rfl

/-- The appends return what the log returns, and the store holds the log: by induction on
    the requests. -/
theorem appendAll_represents (represents : Represents env backend s log)
    {requests : List AppendRequest} (held : ∀ a ∈ requests, HeldRecord env a.persisted)
    (distinct : (requests.map fun a => a.persisted.decisionId).Nodup)
    (fresh : ∀ a ∈ requests, a.persisted.decisionId ∉ log.map fun entry => entry.1.decisionId) :
    (appendAll env requests s).2 = (logAll env requests log).2 ∧
      Represents env backend (appendAll env requests s).1 (logAll env requests log).1 := by
  induction requests generalizing s log with
  | nil => exact ⟨rfl, represents⟩
  | cons a rest ih =>
    obtain ⟨apart, restDistinct⟩ := List.nodup_cons.mp distinct
    have restHeld := fun b member => held b (List.mem_cons_of_mem a member)
    simp only [appendAll, logAll, appendEach, logAppend]
    cases canonical : canonicalJson env a.persisted with
    | error e =>
      obtain ⟨results, last⟩ := ih represents restHeld restDistinct
        fun b member => fresh b (List.mem_cons_of_mem a member)
      rw [append_refused represents canonical]
      exact ⟨congrArg _ results, last⟩
    | ok payload =>
      obtain ⟨s', d, digest, appended, represents'⟩ := append_represents represents
        (held a List.mem_cons_self) canonical (fresh a List.mem_cons_self)
      obtain ⟨results, last⟩ := ih represents' restHeld restDistinct fun b member => by
        rw [List.map_append, List.mem_append, not_or]
        refine ⟨fresh b (List.mem_cons_of_mem a member), fun same => apart ?_⟩
        rw [List.map_cons, List.map_nil, List.mem_singleton] at same
        exact List.mem_map.mpr ⟨b, member, same⟩
      rw [appended]
      simp only [ok_bind]
      rw [← digest]
      exact ⟨congrArg _ results, last⟩

/-! What the log holds. -/

/-- The entries that a list of appends adds to the log. -/
structure LogGrows (env : Platform) (requests : List AppendRequest) (log new : EvidenceLog) :
    Prop where
  entries : (logAll env requests log).1 = log ++ new
  returned : accepted requests (logAll env requests log).2 = new.map fun e => (e.1, e.2.hex)
  intact : Intact (chainStep env) Digest.zero ((log ++ new).map (logRow env))
  given : ∀ entry ∈ new, ∃ a ∈ requests, entry.1 = a.persisted ∧
    canonicalJson env entry.1 = .ok (payloadOf env entry.1)
  taken : ∀ a ∈ requests, ∀ payload, canonicalJson env a.persisted = .ok payload →
    ∃ entry ∈ new, entry.1 = a.persisted

theorem logAll_grows (requests : List AppendRequest) {log : EvidenceLog}
    (intact : Intact (chainStep env) Digest.zero (log.map (logRow env))) :
    ∃ new, LogGrows env requests log new := by
  induction requests generalizing log with
  | nil => exact ⟨[], by simp [logAll, appendEach], rfl, by simpa using intact, by simp, by simp⟩
  | cons a rest ih =>
    cases canonical : canonicalJson env a.persisted with
    | error e =>
      obtain ⟨new, grows⟩ := ih intact
      have step : logAll env (a :: rest) log =
          ((logAll env rest log).1, .error e :: (logAll env rest log).2) := by
        rw [logAll, appendEach, logAppend, canonical]
        rfl
      refine ⟨new, by rw [step, grows.entries], ?_, grows.intact, ?_, ?_⟩
      · rw [step]
        exact grows.returned
      · intro entry member
        obtain ⟨b, among, facts⟩ := grows.given entry member
        exact ⟨b, List.mem_cons_of_mem a among, facts⟩
      · intro b member payload text
        rcases List.mem_cons.mp member with rfl | later
        · rw [canonical] at text
          cases text
        · exact grows.taken b later payload text
    | ok payload =>
      let d := chainStep env (logHead env log (tenantOf a.persisted)) payload
      have row : logRow env (a.persisted, d) = ⟨tenantOf a.persisted, payload, d⟩ := by
        rw [logRow, payloadOf_ok env canonical]
      have longer : Intact (chainStep env) Digest.zero
          ((log ++ [(a.persisted, d)]).map (logRow env)) := by
        rw [List.map_append, List.map_cons, List.map_nil, row, Intact, linked_append]
        exact ⟨intact, rfl, trivial⟩
      obtain ⟨new, grows⟩ := ih longer
      have step : logAll env (a :: rest) log = ((logAll env rest (log ++ [(a.persisted, d)])).1,
          .ok d.hex :: (logAll env rest (log ++ [(a.persisted, d)])).2) := by
        rw [logAll, appendEach, logAppend, canonical]
        rfl
      refine ⟨(a.persisted, d) :: new, ?_, ?_, ?_, ?_, ?_⟩
      · rw [step, grows.entries]
        simp
      · rw [step]
        exact congrArg _ grows.returned
      · have intact' := grows.intact
        rw [List.append_assoc] at intact'
        exact intact'
      · intro entry member
        rcases List.mem_cons.mp member with rfl | later
        · refine ⟨a, List.mem_cons_self, rfl, ?_⟩
          rw [payloadOf_ok env canonical]
          exact canonical
        · obtain ⟨b, among, facts⟩ := grows.given entry later
          exact ⟨b, List.mem_cons_of_mem a among, facts⟩
      · intro b member payload' text
        rcases List.mem_cons.mp member with rfl | later
        · exact ⟨_, List.mem_cons_self, rfl⟩
        · obtain ⟨entry, among, same⟩ := grows.taken b later payload' text
          exact ⟨entry, List.mem_cons_of_mem _ among, same⟩

/-! Reading the log back. -/

/-- The row that every scope of either backend reads for the entry. -/
structure ReadsBack (env : Platform) (entry : DecisionRecord × Digest) (row : ParsedRow) :
    Prop where
  hash : row.2 = .str entry.2.hex
  same : SameRecord row.1 entry.1
  added : ∀ backend : Backend,
    backend.added env entry = plainAdded (tenantOf entry.1) (.ok row)

/-- Validation from Python objects and from JSON text agree on what a record dumps to. -/
def ValidatorsAgree (p : Pydantic) : Prop :=
  ∀ r : DecisionRecord, r.valid p = true →
    validate p p.python (sortKeys r.modelDump) = validate p p.json (sortKeys r.modelDump)

theorem scan_payload (scans : ScansJson env) {r : DecisionRecord} (held : HeldRecord env r)
    (canonical : canonicalJson env r = .ok (payloadOf env r)) :
    env.pydantic.scanJson (payloadOf env r) = some (sortKeys r.modelDump) := by
  obtain ⟨readable, text⟩ := canonicalJson_readable env held canonical
  rw [text]
  exact scans _ (readable_sortKeys env.py readable)

theorem readsBack_of_finite (scans : ScansJson env) (agree : ValidatorsAgree env.pydantic)
    {entry : DecisionRecord × Digest} (valid : entry.1.valid env.pydantic = true)
    (held : HeldRecord env entry.1)
    (canonical : canonicalJson env entry.1 = .ok (payloadOf env entry.1))
    (finite : entry.1.finite = true) : ∃ row, ReadsBack env entry row := by
  obtain ⟨r, back, tenant, id, same⟩ :=
    validate_settles env.pydantic env.pydantic.python valid finite
  refine ⟨(r, .str entry.2.hex), rfl, ⟨tenant, id, same⟩, fun backend => ?_⟩
  cases backend with
  | jsonl => exact lineAdded_of_back env back entry.2.hex
  | sqlite =>
    rw [agree entry.1 valid] at back
    exact rowAdded_of_back env
      (show env.pydantic.scanJson (DecisionRow.payloadJson ⟨entry.1.decisionId,
        tenantOf entry.1, payloadOf env entry.1, entry.2.bytes⟩) = _ from
          scan_payload scans held canonical) back

theorem rows_of_log {log : EvidenceLog} (each : ∀ entry ∈ log, ∃ row, ReadsBack env entry row) :
    ∃ rows, List.Forall₂ (ReadsBack env) log rows := by
  induction log with
  | nil => exact ⟨[], .nil⟩
  | cons entry rest ih =>
    obtain ⟨row, reads⟩ := each entry List.mem_cons_self
    obtain ⟨rows, all⟩ := ih fun other member => each other (List.mem_cons_of_mem _ member)
    exact ⟨row :: rows, .cons reads all⟩

theorem iter_of_rows {rows : List ParsedRow} (all : List.Forall₂ (ReadsBack env) log rows)
    (backend : Backend) (scope : Option String) :
    (log.flatMap fun entry => backend.added env entry scope) =
      (scopedRows scope rows).map Except.ok := by
  induction all with
  | nil => rfl
  | @cons entry row _ _ reads _ ih =>
    rw [List.flatMap_cons, ih, reads.added backend, plainAdded, scopedRows, scopedRows,
      List.filter_cons, reads.same.tenantOf_eq]
    cases inScope scope (.str (tenantOf entry.1)) <;> rfl

theorem viewOf_rows {rows : List ParsedRow} (all : List.Forall₂ (ReadsBack env) log rows)
    (written : ∀ entry ∈ log, canonicalJson env entry.1 = .ok (payloadOf env entry.1)) :
    rows.map (viewOf env) = log.map (logRow env) ∧ ∀ row ∈ rows, Viewable env row := by
  induction all with
  | nil => exact ⟨rfl, by simp⟩
  | @cons entry row _ _ reads _ ih =>
    obtain ⟨views, viewable⟩ := ih fun other member => written other (List.mem_cons_of_mem _ member)
    have canonical : canonicalJson env row.1 = .ok (payloadOf env entry.1) :=
      (canonicalJson_congr env reads.same.json).trans (written entry List.mem_cons_self)
    have head : viewOf env row = logRow env entry := by
      rw [viewOf, logRow, reads.hash, digestOf_hex, reads.same.tenantOf_eq]
      simp only [canonical]
    refine ⟨by rw [List.map_cons, List.map_cons, head, views], fun other member => ?_⟩
    rcases List.mem_cons.mp member with rfl | later
    · exact ⟨⟨_, canonical⟩, ⟨_, reads.hash⟩⟩
    · exact viewable other later

theorem consistent_of_represents (represents : Represents env backend s log)
    {rows : List ParsedRow} (all : List.Forall₂ (ReadsBack env) log rows)
    (written : ∀ entry ∈ log, canonicalJson env entry.1 = .ok (payloadOf env entry.1))
    (intact : Intact (chainStep env) Digest.zero (log.map (logRow env))) :
    Consistent env backend s (log.map fun entry => entry.1.decisionId) rows := by
  obtain ⟨views, viewable⟩ := viewOf_rows all written
  refine ⟨fun scope => ?_, fun tenant => ?_, viewable, by rw [views]; exact intact,
    represents.room⟩
  · rw [represents.iter scope, iter_of_rows all]
  · rw [represents.lastHash tenant, logHead, views]

theorem intact_nil : Intact (chainStep env) Digest.zero (([] : EvidenceLog).map (logRow env)) :=
  trivial

/-- A record whose row every scope reads has finite floats. -/
theorem finite_of_readable (represents : Represents env .jsonl s log) {rows : List ParsedRow}
    (iterates : s.iter env none = rows.map Except.ok) {entry : DecisionRecord × Digest}
    (member : entry ∈ log) (valid : entry.1.valid env.pydantic = true) :
    entry.1.finite = true := by
  have outcomes := represents.iter none
  rw [iterates] at outcomes
  cases back : validate env.pydantic env.pydantic.python (sortKeys entry.1.modelDump) with
  | some r => exact finite_of_validate env.pydantic env.pydantic.python valid back
  | none =>
    have lost : (.error .validationError : Outcome) ∈ rows.map Except.ok := by
      rw [outcomes, List.mem_flatMap]
      refine ⟨entry, member, ?_⟩
      rw [Backend.added, lineAdded, back]
      exact List.mem_cons_self
    obtain ⟨row, _, impossible⟩ := List.mem_map.mp lost
    cases impossible

/-- Both backends from empty stores: the same hashes, the same rows in append order, in each
    scope the rows of its tenant, and verification inside a scope as of its tenant outside. -/
structure Interchangeable (env : Platform) (requests : List AppendRequest) : Prop where
  hashes : (appendAll env requests Backend.jsonl.empty).2 =
    (appendAll env requests Backend.sqlite.empty).2
  rows : ∃ rows : List ParsedRow,
    List.Forall₂ (fun given row => row.2 = .str given.2 ∧ SameRecord row.1 given.1)
      (accepted requests (appendAll env requests Backend.jsonl.empty).2) rows ∧
    ∀ backend : Backend,
      (appendAll env requests backend.empty).1.iter env none = rows.map Except.ok ∧
      ∀ tenant, (appendAll env requests backend.empty).1.iter env (some tenant) =
        (tenantRows tenant rows).map Except.ok
  verify : ∀ (backend : Backend) (tenant : String),
    (appendAll env requests backend.empty).1.verify env (some tenant) =
      (appendAll env requests backend.empty).1.verifyTenant env none tenant

end

section
variable {env : Platform} {requests : List AppendRequest}
  (valid : ∀ a ∈ requests, a.record.valid env.pydantic = true)
  (held : ∀ a ∈ requests, HeldRecord env a.persisted)
  (distinct : (requests.map fun a => a.record.decisionId).Nodup)

theorem persisted_valid {a : AppendRequest} (given : a.record.valid env.pydantic = true) :
    a.persisted.valid env.pydantic = true := by
  rw [AppendRequest.persisted, stamp]
  split <;> exact given

theorem persisted_finite (a : AppendRequest) : a.persisted.finite = a.record.finite := by
  rw [AppendRequest.persisted, stamp]
  split <;> rfl

include held distinct

theorem appendAll_log (backend : Backend) :
    (appendAll env requests backend.empty).2 = (logAll env requests []).2 ∧
      Represents env backend (appendAll env requests backend.empty).1
        (logAll env requests []).1 := by
  refine appendAll_represents (represents_empty env backend) held ?_ (by simp)
  have ids : (requests.map fun a => a.persisted.decisionId) =
      requests.map fun a => a.record.decisionId :=
    List.map_congr_left fun a _ => stamp_decisionId a.scope a.record
  rw [ids]
  exact distinct

include valid

theorem interchangeable_of_finite (scans : ScansJson env) (agree : ValidatorsAgree env.pydantic)
    (finite : ∀ a ∈ requests, a.persisted.modelDump.digitsOk = true → a.record.finite = true) :
    Interchangeable env requests := by
  obtain ⟨new, grows⟩ := logAll_grows requests intact_nil
  have log : (logAll env requests []).1 = new := grows.entries
  have written : ∀ entry ∈ new, canonicalJson env entry.1 = .ok (payloadOf env entry.1) :=
    fun entry member => (grows.given entry member).choose_spec.2.2
  have each : ∀ entry ∈ new, ∃ row, ReadsBack env entry row := by
    intro entry member
    obtain ⟨a, among, same, canonical⟩ := grows.given entry member
    have digits : a.persisted.modelDump.digitsOk = true := by
      rw [same, canonicalJson, dumps] at canonical
      split at canonical
      · assumption
      · cases canonical
    refine readsBack_of_finite scans agree ?_ ?_ canonical ?_
    · rw [same]
      exact persisted_valid (valid a among)
    · rw [same]
      exact held a among
    · rw [same, persisted_finite]
      exact finite a among digits
  obtain ⟨rows, all⟩ := rows_of_log each
  have consistent : ∀ backend : Backend, Consistent env backend
      (appendAll env requests backend.empty).1 (new.map fun entry => entry.1.decisionId) rows := by
    intro backend
    have represents := (appendAll_log held distinct backend).2
    rw [log] at represents
    exact consistent_of_represents represents all written grows.intact
  refine ⟨?_, ⟨rows, ?_, fun backend => ⟨?_, fun tenant => ?_⟩⟩, fun backend tenant => ?_⟩
  · rw [(appendAll_log held distinct .jsonl).1, (appendAll_log held distinct .sqlite).1]
  · rw [(appendAll_log held distinct .jsonl).1, grows.returned, List.forall₂_map_left_iff]
    exact all.imp fun entry row reads => ⟨reads.hash, reads.same⟩
  · exact (consistent backend).iter_unscoped
  · rw [(consistent backend).iter, scopedRows_some]
  · have inside := (EvidenceStore.verify_iff env (some tenant) _).mpr
      ⟨_, (consistent backend).scoped_views env (some tenant),
        (consistent backend).scoped_intact env (some tenant)⟩
    have outside := EvidenceStore.verifyTenant_of_intact env
      ((consistent backend).scoped_views env none) ((consistent backend).scoped_intact env none)
      tenant
    rw [inside, outside]

theorem finite_of_interchangeable (same : Interchangeable env requests) :
    ∀ a ∈ requests, a.persisted.modelDump.digitsOk = true → a.record.finite = true := by
  intro a among digits
  obtain ⟨new, grows⟩ := logAll_grows requests intact_nil
  have log : (logAll env requests []).1 = new := grows.entries
  obtain ⟨rows, _, iterates⟩ := same.rows
  have represents := (appendAll_log held distinct .jsonl).2
  rw [log] at represents
  have canonical : ∃ payload, canonicalJson env a.persisted = .ok payload := by
    rw [canonicalJson, dumps, if_pos digits]
    exact ⟨_, rfl⟩
  obtain ⟨payload, canonical⟩ := canonical
  obtain ⟨entry, member, persisted⟩ := grows.taken a among payload canonical
  have finite := finite_of_readable represents (iterates .jsonl).1 member (by
    rw [persisted]
    exact persisted_valid (valid a among))
  rw [persisted, persisted_finite] at finite
  exact finite

end

/-- The backends are interchangeable exactly for records with finite floats, among those
    that can be serialised. -/
theorem interchangeable_iff (env : Platform) (scans : ScansJson env)
    (agree : ValidatorsAgree env.pydantic) (requests : List AppendRequest)
    (valid : ∀ a ∈ requests, a.record.valid env.pydantic = true)
    (held : ∀ a ∈ requests, HeldRecord env a.persisted)
    (distinct : (requests.map fun a => a.record.decisionId).Nodup) :
    Interchangeable env requests ↔
      ∀ a ∈ requests, a.persisted.modelDump.digitsOk = true → a.record.finite = true := by
  constructor
  · exact finite_of_interchangeable valid held distinct
  · exact interchangeable_of_finite valid held distinct scans agree

/-- A record of alpha with this energy, and one of beta. -/
def twoTenants (energy : Number) : List AppendRequest :=
  [⟨sampleRecord energy "d-1" (some "alpha"), none⟩, ⟨sampleRecord (.fin 0) "d-2" none, some "beta"⟩]

theorem twoTenants_valid (energy : Number) (nonneg : energy = .fin 0 ∨ energy = .inf false) :
    ∀ a ∈ twoTenants energy, a.record.valid samplePydantic = true := by
  intro a member
  rcases nonneg with rfl | rfl
  · rcases List.mem_pair.mp member with rfl | rfl <;> rfl
  · rcases List.mem_pair.mp member with rfl | rfl <;> rfl

theorem twoTenants_held {energy : Number} (given : Readable sampleInterpreter (jsonFloat energy)) :
    ∀ a ∈ twoTenants energy, HeldRecord samplePlatform a.persisted := by
  intro a member
  rcases List.mem_pair.mp member with rfl | rfl
  · exact fun _ => sample_readable given "d-1" (some "alpha")
  · exact fun _ => sample_readable sample_zero "d-2" (some "beta")

theorem twoTenants_distinct (energy : Number) :
    ((twoTenants energy).map fun a => a.record.decisionId).Nodup := by
  change ["d-1", "d-2"].Nodup
  decide

theorem interchangeable_two : Interchangeable samplePlatform (twoTenants (.fin 0)) := by
  refine (interchangeable_iff samplePlatform sample_scansJson (fun _ _ => rfl) _
    (twoTenants_valid _ (Or.inl rfl)) (twoTenants_held sample_zero)
    (twoTenants_distinct _)).mpr ?_
  intro a member _
  rcases List.mem_pair.mp member with rfl | rfl <;> rfl

theorem logAll_two {a b : AppendRequest} {first second : String}
    (canonical : canonicalJson env a.persisted = .ok first)
    (canonical' : canonicalJson env b.persisted = .ok second) :
    ∃ d d', (logAll env [a, b] []).1 = [(a.persisted, d), (b.persisted, d')] := by
  rw [logAll, appendEach, logAppend, canonical]
  simp only [ok_bind, appendEach, logAppend, canonical']
  exact ⟨_, _, rfl⟩

/-- A record of alpha with an infinite energy: inside the scope of beta the file raises
    before beta's row, and the table yields it. -/
theorem infinite_energy_diverges :
    ¬ Interchangeable samplePlatform (twoTenants (.inf false)) ∧
      ∃ row : ParsedRow,
        (appendAll samplePlatform (twoTenants (.inf false)) Backend.jsonl.empty).1.iter
          samplePlatform (some "beta") = [.error .validationError, .ok row] ∧
        (appendAll samplePlatform (twoTenants (.inf false)) Backend.sqlite.empty).1.iter
          samplePlatform (some "beta") = [.ok row] := by
  have given : Readable sampleInterpreter (jsonFloat (.inf false)) := trivial
  have valid := twoTenants_valid (.inf false) (Or.inr rfl)
  have held := twoTenants_held given
  have distinct := twoTenants_distinct (.inf false)
  constructor
  · intro same
    have finite := finite_of_interchangeable valid held distinct same _ List.mem_cons_self
      (by decide)
    cases finite
  · have alpha := dumps_readable sampleInterpreter compact
      (sample_readable given "d-1" (some "alpha"))
    have beta := dumps_readable sampleInterpreter compact
      (sample_readable sample_zero "d-2" (some "beta"))
    obtain ⟨d, d', log⟩ : ∃ d d', (logAll samplePlatform (twoTenants (.inf false)) []).1 =
        [(sampleRecord (.inf false) "d-1" (some "alpha"), d),
          (sampleRecord (.fin 0) "d-2" (some "beta"), d')] :=
      logAll_two alpha beta
    have canonical : canonicalJson samplePlatform (sampleRecord (.fin 0) "d-2" (some "beta")) =
        .ok (payloadOf samplePlatform (sampleRecord (.fin 0) "d-2" (some "beta"))) := by
      rw [payloadOf_ok samplePlatform beta]
      exact beta
    have stored : ∀ backend : Backend,
        (appendAll samplePlatform (twoTenants (.inf false)) backend.empty).1.iter samplePlatform
          (some "beta") = backend.added samplePlatform
            (sampleRecord (.inf false) "d-1" (some "alpha"), d) (some "beta") ++
          backend.added samplePlatform
            (sampleRecord (.fin 0) "d-2" (some "beta"), d') (some "beta") := by
      intro backend
      have represents := (appendAll_log held distinct backend).2
      rw [log] at represents
      rw [represents.iter]
      simp
    have unreadable : validate samplePydantic sampleCoercions
        (sortKeys (sampleRecord (.inf false) "d-1" (some "alpha")).modelDump) = none := by
      rw [Option.eq_none_iff_forall_not_mem]
      intro r back
      have finite := finite_of_validate samplePydantic sampleCoercions
        (valid _ List.mem_cons_self) back
      cases finite
    obtain ⟨row, reads⟩ : ∃ row, ReadsBack samplePlatform
        (sampleRecord (.fin 0) "d-2" (some "beta"), d') row :=
      readsBack_of_finite sample_scansJson (fun _ _ => rfl) rfl
        (fun _ => sample_readable sample_zero "d-2" (some "beta")) canonical rfl
    refine ⟨row, ?_, ?_⟩
    · rw [stored .jsonl, reads.added .jsonl]
      have bad : Backend.added samplePlatform .jsonl
          (sampleRecord (.inf false) "d-1" (some "alpha"), d) (some "beta") =
            [.error .validationError] := by
        simp only [Backend.added, lineAdded]
        rw [show validate samplePlatform.pydantic samplePlatform.pydantic.python _ = none from
          unreadable]
      rw [bad]
      rfl
    · rw [stored .sqlite, reads.added .sqlite]
      rfl

end HorizonRic.Evidence
