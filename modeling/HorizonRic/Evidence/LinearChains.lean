import HorizonRic.Evidence.Append
import HorizonRic.Evidence.ChainHead

/-!
Evidence chains stay linear under concurrent appends. Under the append lock any
interleaving is a serial run; one append keeps a store consistent, so every run
leaves a store whose chains are intact and that holds one row for each append.
-/
namespace HorizonRic.Evidence

open Py Json HashChain

inductive Backend where
  | jsonl
  | sqlite
  deriving DecidableEq

def Backend.empty : Backend → EvidenceStore
  | .jsonl => .jsonl []
  | .sqlite => .sqlite []

/-- The rows that iteration inside a scope yields. -/
def scopedRows (scope : Option String) (rows : List ParsedRow) : List ParsedRow :=
  rows.filter fun row => inScope scope (.str (tenantOf row.1))

section
variable (env : Platform)

/-- The JSON form of the record validates again to an equal record, on the read path of
    the backend. -/
def Revalidates : Backend → DecisionRecord → Prop
  | .jsonl, r => (∃ payload, canonicalJson env r = .ok payload) ∧
      ∃ r', validate env.pydantic env.pydantic.python (sortKeys r.modelDump) = some r' ∧
        SameRecord r' r
  | .sqlite, r => ∃ payload v r', canonicalJson env r = .ok payload ∧
      env.pydantic.scanJson payload = some v ∧
      validate env.pydantic env.pydantic.json v = some r' ∧ SameRecord r' r

theorem revalidates_of_finite (scans : ScansJson env) (backend : Backend) {r : DecisionRecord}
    (valid : r.valid env.pydantic = true) (finite : r.finite = true)
    (readable : Readable env.py r.modelDump) : Revalidates env backend r := by
  have canonical := dumps_readable env.py compact readable
  cases backend with
  | jsonl =>
    obtain ⟨r', back, tenant, id, same⟩ :=
      validate_settles env.pydantic env.pydantic.python valid finite
    exact ⟨⟨_, canonical⟩, r', back, ⟨tenant, id, same⟩⟩
  | sqlite =>
    obtain ⟨r', back, tenant, id, same⟩ :=
      validate_settles env.pydantic env.pydantic.json valid finite
    have scanned := scans _ (readable_sortKeys env.py readable)
    exact ⟨_, _, r', canonical, scanned, back, ⟨tenant, id, same⟩⟩

/-- Room for another row: the file ends with a newline, or the table holds these ids. -/
def Room (ids : List String) : Backend → EvidenceStore → Prop
  | .jsonl, .jsonl content =>
    (content = [] ∨ ∃ body, content = body ++ ['\n']) ∧ '\r' ∉ content
  | .sqlite, .sqlite table => table.map DecisionRow.decisionId = ids
  | _, _ => False

/-- The store holds these rows, every chain is intact, and a label names its own chain. -/
structure Consistent (backend : Backend) (s : EvidenceStore) (ids : List String)
    (rows : List ParsedRow) : Prop where
  iter : ∀ scope, s.iter env scope = (scopedRows scope rows).map Except.ok
  lastHash : ∀ tenant, s.lastHash env tenant =
    .ok (.str (heads (fun _ => Digest.zero) (rows.map (viewOf env)) tenant).hex)
  viewable : ∀ row ∈ rows, Viewable env row
  intact : Intact (chainStep env) Digest.zero (rows.map (viewOf env))
  room : Room ids backend s

theorem consistent_empty (backend : Backend) : Consistent env backend backend.empty [] [] where
  iter _ := by cases backend <;> rfl
  lastHash _ := by
    cases backend <;> exact congrArg (fun s => Except.ok (Value.str s)) zero_hex.symm
  viewable _ member := nomatch member
  intact := trivial
  room := by
    cases backend
    · exact ⟨Or.inl rfl, List.not_mem_nil⟩
    · rfl

/-- The effect of writing one row: what each scope iterates after it, and the last hash. -/
structure Writes (backend : Backend) (s s' : EvidenceStore) (ids : List String)
    (tenant hash id : String) (added : Option String → List Outcome) : Prop where
  iter : ∀ scope, s'.iter env scope = s.iter env scope ++ added scope
  lastHash : ∀ other v, s.lastHash env other = .ok v →
    s'.lastHash env other = .ok (if tenant = other then .str hash else v)
  room : Room (ids ++ [id]) backend s'

/-- What a scope iterates of a line: it validates before it looks at the scope. -/
def lineAdded (r : DecisionRecord) (hash : String) (scope : Option String) : List Outcome :=
  match validate env.pydantic env.pydantic.python (sortKeys r.modelDump) with
  | none => [.error .validationError]
  | some r' => if inScope scope (.str (tenantOf r)) then [.ok (r', .str hash)] else []

/-- What a scope iterates of a table row: the query selects it before it is validated. -/
def rowAdded (row : DecisionRow) (scope : Option String) : List Outcome :=
  if inScope scope (.str row.tenantId) then [rowOutcome env row] else []

/-- What a scope iterates of a row that gives `outcome`. -/
def plainAdded (tenant : String) (outcome : Outcome) (scope : Option String) : List Outcome :=
  if inScope scope (.str tenant) then [outcome] else []

theorem lineAdded_of_back {r r' : DecisionRecord}
    (back : validate env.pydantic env.pydantic.python (sortKeys r.modelDump) = some r')
    (hash : String) : lineAdded env r hash = plainAdded (tenantOf r) (.ok (r', .str hash)) := by
  funext scope
  simp only [lineAdded, back, plainAdded]

theorem rowAdded_of_back {row : DecisionRow} {v : Value} {r' : DecisionRecord}
    (scanned : env.pydantic.scanJson row.payloadJson = some v)
    (back : validate env.pydantic env.pydantic.json v = some r') :
    rowAdded env row = plainAdded row.tenantId (.ok (r', .str (bytesHex row.chainHash))) := by
  funext scope
  simp only [rowAdded, rowOutcome_eq env scanned back, plainAdded]

theorem lastPartial_of_complete {content : List Char}
    (complete : content = [] ∨ ∃ body, content = body ++ ['\n']) : lastPartial content = [] := by
  rcases complete with rfl | ⟨body, rfl⟩
  · rfl
  · simp [lastPartial]

theorem write_jsonl {content : List Char} {ids : List String} {r : DecisionRecord}
    {payload : String} (room : Room ids .jsonl (.jsonl content)) (held : HeldRecord env r)
    (canonical : canonicalJson env r = .ok payload) (hash : String) :
    ∃ s', (EvidenceStore.jsonl content).write env r payload hash = .ok s' ∧
      Writes env .jsonl (.jsonl content) s' ids (tenantOf r) hash r.decisionId
        (lineAdded env r hash) := by
  obtain ⟨complete, noReturn⟩ := room
  obtain ⟨readable, _⟩ := canonicalJson_readable env held canonical
  obtain ⟨oneLine, plain⟩ := lineText_plain env readable (tenantOf r) hash
  have nonempty := tenantOf_ne_empty r
  have unchanged : universalNewlines content = content := universalNewlines_id noReturn
  have closed : lastPartial content = [] := lastPartial_of_complete complete
  have before : linesOf content = fileLines (terminated content) := by
    rw [linesOf_eq, unchanged, closed]
    exact List.append_nil _
  have after : linesOf (content ++ (lineText env (tenantOf r) hash r ++ ['\n'])) =
      linesOf content ++ [lineText env (tenantOf r) hash r ++ ['\n']] := by
    rw [linesOf_snoc content (lineText_ne_nil env _ _ _) oneLine plain, unchanged, closed, before]
    rfl
  refine ⟨_, by rw [EvidenceStore.write, recordLine_eq env held canonical]; rfl, ?_, ?_, ?_⟩
  · intro scope
    have blank : ∀ c ∈ ([] : List Char), isStrSpace c = true := by simp
    have outcome := lineOutcome_lineText env readable nonempty hash scope blank
    rw [List.nil_append] at outcome
    rw [EvidenceStore.iter, after, List.filterMap_append, EvidenceStore.iter]
    apply congrArg _
    rw [List.filterMap_cons, outcome, lineAdded]
    cases validate env.pydantic env.pydantic.python (sortKeys r.modelDump) with
    | none => rfl
    | some r' => cases inScope scope (.str (tenantOf r)) <;> rfl
  · intro other v found
    rw [EvidenceStore.lastHash] at found
    rw [EvidenceStore.lastHash, after, lastHashOfLines_append, found, ok_bind,
      lastHash_lineText env readable nonempty]
  · refine ⟨Or.inr ⟨content ++ lineText env (tenantOf r) hash r, by simp⟩, ?_⟩
    simp [noReturn, plain]

theorem lastHashOfRows_append (tenant : String) (table : List DecisionRow) (row : DecisionRow) :
    lastHashOfRows tenant (table ++ [row]) =
      if row.tenantId = tenant then .str (bytesHex row.chainHash)
      else lastHashOfRows tenant table := by
  rw [lastHashOfRows, List.filter_append]
  by_cases same : row.tenantId = tenant
  · simp [same]
  · simp [same, lastHashOfRows]

theorem write_sqlite {table : List DecisionRow} {ids : List String} {r : DecisionRecord}
    (room : Room ids .sqlite (.sqlite table)) (fresh : r.decisionId ∉ ids) (payload : String)
    (d : Digest) :
    ∃ s', (EvidenceStore.sqlite table).write env r payload d.hex = .ok s' ∧
      Writes env .sqlite (.sqlite table) s' ids (tenantOf r) d.hex r.decisionId
        (rowAdded env ⟨r.decisionId, tenantOf r, payload, d.bytes⟩) := by
  have ids' : table.map DecisionRow.decisionId = ids := room
  have unused : table.any (fun row => row.decisionId == r.decisionId) = false := by
    rw [List.any_eq_false]
    intro row member used
    apply fresh
    rw [← ids', ← eq_of_beq used]
    exact List.mem_map_of_mem member
  refine ⟨.sqlite (table ++ [⟨r.decisionId, tenantOf r, payload, d.bytes⟩]), ?_, ?_, ?_, ?_⟩
  · rw [EvidenceStore.write, unused, fromHex_hex]
    rfl
  · intro scope
    have visible : rowInScope scope ⟨r.decisionId, tenantOf r, payload, d.bytes⟩ =
        inScope scope (.str (tenantOf r)) := by
      cases scope <;> rfl
    rw [EvidenceStore.iter, List.filter_append, List.map_append, EvidenceStore.iter]
    apply congrArg _
    rw [List.filter_cons, visible, rowAdded]
    cases inScope scope (.str (tenantOf r)) <;> rfl
  · intro other w found
    have value : lastHashOfRows other table = w := Except.ok.inj found
    rw [EvidenceStore.lastHash, lastHashOfRows_append, value]
    rfl
  · change (table ++ [_]).map DecisionRow.decisionId = ids ++ [r.decisionId]
    rw [List.map_append, ids']
    rfl

theorem write_row {backend : Backend} {s : EvidenceStore} {ids : List String}
    {r : DecisionRecord} (room : Room ids backend s) (held : HeldRecord env r)
    (revalidates : Revalidates env backend r) (fresh : backend = .sqlite → r.decisionId ∉ ids) :
    ∃ payload r', canonicalJson env r = .ok payload ∧ SameRecord r' r ∧
      ∀ d : Digest, ∃ s', s.write env r payload d.hex = .ok s' ∧
        Writes env backend s s' ids (tenantOf r) d.hex r.decisionId
          (plainAdded (tenantOf r) (.ok (r', .str d.hex))) := by
  cases backend with
  | jsonl =>
    obtain ⟨⟨payload, canonical⟩, r', back, same⟩ := revalidates
    cases s with
    | jsonl content =>
      refine ⟨payload, r', canonical, same, fun d => ?_⟩
      rw [← lineAdded_of_back env back]
      exact write_jsonl env room held canonical d.hex
    | sqlite table => exact room.elim
  | sqlite =>
    obtain ⟨payload, v, r', canonical, scanned, back, same⟩ := revalidates
    cases s with
    | jsonl content => exact room.elim
    | sqlite table =>
      refine ⟨payload, r', canonical, same, fun d => ?_⟩
      let row : DecisionRow := ⟨r.decisionId, tenantOf r, payload, d.bytes⟩
      have scanned' : env.pydantic.scanJson row.payloadJson = some v := scanned
      have added : rowAdded env row = plainAdded (tenantOf r) (.ok (r', .str d.hex)) :=
        rowAdded_of_back env scanned' back
      rw [← added]
      exact write_sqlite env room (fresh rfl) payload d

theorem scopedRows_append (scope : Option String) (rows : List ParsedRow) (row : ParsedRow) :
    scopedRows scope (rows ++ [row]) = scopedRows scope rows ++
      if inScope scope (.str (tenantOf row.1)) then [row] else [] := by
  rw [scopedRows, List.filter_append, List.filter_cons, List.filter_nil]
  rfl

/-- One append to a consistent store returns, adds one row, and leaves a consistent store. -/
theorem append_consistent {backend : Backend} {s : EvidenceStore} {ids : List String}
    {rows : List ParsedRow} (consistent : Consistent env backend s ids rows)
    {scope : Option String} {record : DecisionRecord}
    (held : HeldRecord env (stamp scope record))
    (revalidates : Revalidates env backend (stamp scope record))
    (fresh : backend = .sqlite → (stamp scope record).decisionId ∉ ids) :
    ∃ s' d r', s.append env scope record = .ok (s', Digest.hex d) ∧
      SameRecord r' (stamp scope record) ∧
      Consistent env backend s' (ids ++ [(stamp scope record).decisionId])
        (rows ++ [(r', .str d.hex)]) := by
  obtain ⟨payload, r', canonical, same, writes⟩ :=
    write_row env consistent.room held revalidates fresh
  let head := heads (fun _ => Digest.zero) (rows.map (viewOf env)) (tenantOf (stamp scope record))
  let d := chainStep env head payload
  obtain ⟨s', written, effect⟩ := writes d
  have canonical' : canonicalJson env r' = .ok payload :=
    (canonicalJson_congr env same.json).trans canonical
  have view : viewOf env (r', .str d.hex) = ⟨tenantOf (stamp scope record), payload, d⟩ := by
    rw [viewOf, digestOf_hex, same.tenantOf_eq]
    simp only [canonical']
  have read : s.lastHash env (tenantOf (stamp scope record)) = .ok (.str head.hex) :=
    consistent.lastHash _
  have computed : chain env (.str head.hex) payload = .ok d.hex := chain_hex env head payload
  refine ⟨s', d, r', ?_, same, ?_, ?_, ?_, ?_, effect.room⟩
  · simp only [EvidenceStore.append, CriticalSection.Call.atomic, EvidenceStore.appendCall, read,
      canonical, ok_bind, computed, written]
  · intro scope'
    rw [effect.iter scope', consistent.iter scope', scopedRows_append, List.map_append, plainAdded]
    dsimp only
    rw [same.tenantOf_eq]
    cases inScope scope' (.str (tenantOf (stamp scope record))) <;> rfl
  · intro tenant
    rw [effect.lastHash tenant _ (consistent.lastHash tenant), List.map_append, List.map_cons,
      List.map_nil, view, heads_append, heads, heads]
    by_cases mine : tenantOf (stamp scope record) = tenant
    · subst mine
      rw [if_pos rfl, Function.update_self]
    · rw [if_neg mine, Function.update_of_ne (Ne.symm mine)]
  · intro row member
    rcases List.mem_append.mp member with old | new
    · exact consistent.viewable row old
    · rw [List.mem_singleton.mp new]
      exact ⟨⟨payload, canonical'⟩, ⟨d, rfl⟩⟩
  · rw [List.map_append, List.map_cons, List.map_nil, view, Intact, linked_append]
    exact ⟨consistent.intact, rfl, trivial⟩

/-! What a consistent store shows. -/

section
variable {backend : Backend} {s : EvidenceStore} {ids : List String} {rows : List ParsedRow}
  (consistent : Consistent env backend s ids rows)
include consistent

theorem Consistent.iter_unscoped : s.iter env none = rows.map Except.ok := by
  rw [consistent.iter none, scopedRows]
  simp [inScope]

theorem Consistent.scoped_views (scope : Option String) :
    List.Forall₂ (Views env) (s.iter env scope) ((scopedRows scope rows).map (viewOf env)) := by
  refine (forall₂_views_iff env _ _).mpr ⟨_, consistent.iter scope, fun row member => ?_, rfl⟩
  exact consistent.viewable row (List.mem_of_mem_filter member)

omit consistent in
theorem scopedRows_some (tenant : String) (rows : List ParsedRow) :
    scopedRows (some tenant) rows = tenantRows tenant rows := by
  rw [scopedRows, tenantRows]
  refine List.filter_congr fun row _ => ?_
  rw [inScope, Value.eqStr, Bool.eq_iff_iff, beq_iff_eq, decide_eq_true_eq]

theorem Consistent.scoped_intact (scope : Option String) :
    Intact (chainStep env) Digest.zero ((scopedRows scope rows).map (viewOf env)) := by
  cases scope with
  | none =>
    have all : scopedRows none rows = rows := by simp [scopedRows, inScope]
    rw [all]
    exact consistent.intact
  | some tenant =>
    rw [scopedRows_some, ← rowsOf_viewOf]
    exact linked_rowsOf (chainStep env) consistent.intact tenant

end
theorem tenant_chain {backend : Backend} {s : EvidenceStore} {ids : List String}
    {rows : List ParsedRow} (consistent : Consistent env backend s ids rows) (tenant : String) :
    ChainFrom (chainStep env) Digest.zero ((tenantRows tenant rows).map (viewOf env)) := by
  rw [← rowsOf_viewOf]
  exact chainFrom_rowsOf (chainStep env) consistent.intact tenant

/-- Without collisions the predecessors of a tenant's rows, the zero hash first, differ. -/
theorem tenant_hashes_nodup {backend : Backend} {s : EvidenceStore} {ids : List String}
    {rows : List ParsedRow} (consistent : Consistent env backend s ids rows)
    (free : NoCollision env {m | m ∈ s.messages env}) (tenant : String) :
    (Digest.zero :: (tenantRows tenant rows).map fun row => digestOf row.2).Nodup := by
  have views := (forall₂_views_iff env _ _).mpr
    ⟨rows, consistent.iter_unscoped, consistent.viewable, rfl⟩
  have hashed := hashed_of_subset env views
    (fun m inside => show m ∈ {m | m ∈ s.messages env} from inside)
  have visited := visited_hashed consistent.intact hashed tenant
  have collisionFree := collisionFree_links env free
  have hashes : (tenantRows tenant rows).map (fun row => digestOf row.2) =
      folds (chainStep env) Digest.zero (payloads tenant (rows.map (viewOf env))) := by
    rw [← rowsOf_hashes consistent.intact tenant, rowsOf_viewOf, List.map_map]
    rfl
  rw [hashes, List.nodup_cons]
  exact ⟨folds_ne_start collisionFree visited, folds_nodup collisionFree _ visited⟩

/-! Runs. -/

/-- One call of `append`, and the tenant scope of the thread that makes it. -/
structure AppendRequest where
  record : DecisionRecord
  scope : Option String

/-- The record that the call persists. -/
def AppendRequest.persisted (a : AppendRequest) : DecisionRecord := stamp a.scope a.record

theorem stamp_decisionId (scope : Option String) (r : DecisionRecord) :
    (stamp scope r).decisionId = r.decisionId := by
  unfold stamp
  split <;> rfl

variable {ι : Type} (requests : ι → AppendRequest)

def appendCalls (i : ι) : CriticalSection.Call EvidenceStore PyErr Value (String × String) String :=
  EvidenceStore.appendCall env (requests i).scope (requests i).record

/-- The row that a call contributed: it stores the returned hash and the call's record. -/
def RowOf (entry : ι × Except PyErr String) (row : ParsedRow) : Prop :=
  ∃ d : Digest, entry.2 = .ok d.hex ∧ row.2 = .str d.hex ∧
    SameRecord row.1 (requests entry.1).persisted

variable {requests} {backend : Backend}
  (held : ∀ i, HeldRecord env (requests i).persisted)
  (revalidates : ∀ i, Revalidates env backend (requests i).persisted)
  (distinct : backend = .sqlite → ∀ i j,
    (requests i).record.decisionId = (requests j).record.decisionId → i = j)
include held revalidates distinct

/-- Serial appends to an empty store: by induction on the run. -/
theorem serial_consistent {history : List (ι × Except PyErr String)} {s : EvidenceStore}
    (serial : CriticalSection.Serial (appendCalls env requests) backend.empty history s)
    (nodup : (history.map Prod.fst).Nodup) :
    ∃ rows, Consistent env backend s
        (history.map fun entry => (requests entry.1).persisted.decisionId) rows ∧
      List.Forall₂ (RowOf requests) history rows := by
  have unused : ∀ {history : List (ι × Except PyErr String)} {i : ι},
      i ∉ history.map Prod.fst → backend = .sqlite → (requests i).persisted.decisionId ∉
        history.map fun entry => (requests entry.1).persisted.decisionId := by
    intro history i fresh sqlite member
    obtain ⟨entry, among, same⟩ := List.mem_map.mp member
    rw [AppendRequest.persisted, AppendRequest.persisted, stamp_decisionId, stamp_decisionId]
      at same
    rw [← distinct sqlite _ _ same] at fresh
    exact fresh (List.mem_map_of_mem among)
  induction serial with
  | nil => exact ⟨[], consistent_empty env backend, .nil⟩
  | @returned history s i s' r _ runs ih =>
    rw [List.map_append, List.map_singleton, ← List.concat_eq_append, List.nodup_concat] at nodup
    obtain ⟨fresh, before⟩ := nodup
    obtain ⟨rows, consistent, all⟩ := ih before
    obtain ⟨s'', d, r', appended, same, consistent'⟩ :=
      append_consistent env consistent (held i) (revalidates i) (unused fresh)
    have outcome : (Except.ok (s', r) : Except PyErr _) = .ok (s'', d.hex) := runs.symm.trans appended
    cases outcome
    refine ⟨rows ++ [(r', .str d.hex)], ?_, ?_⟩
    · rw [List.map_append]
      exact consistent'
    · exact List.rel_append all (.cons ⟨d, rfl, rfl, same⟩ .nil)
  | @raised history s i e _ runs ih =>
    rw [List.map_append, List.map_singleton, ← List.concat_eq_append, List.nodup_concat] at nodup
    obtain ⟨fresh, before⟩ := nodup
    obtain ⟨rows, consistent, all⟩ := ih before
    obtain ⟨s'', d, r', appended, _⟩ :=
      append_consistent env consistent (held i) (revalidates i) (unused fresh)
    have outcome : (Except.error e : Except PyErr (EvidenceStore × String)) = .ok (s'', d.hex) :=
      runs.symm.trans appended
    cases outcome

/-- Concurrent appends leave intact chains with one row for each call, whatever the
    interleaving of their steps under the append lock. -/
theorem appends_linear [DecidableEq ι]
    {st : CriticalSection.State ι EvidenceStore PyErr Value (String × String) String}
    (reach : Relation.ReflTransGen (CriticalSection.Step (appendCalls env requests))
      (CriticalSection.start backend.empty) st) (finished : st.Finished) :
    (∀ scope, st.shared.verify env scope = .ok (-1)) ∧
    (∀ scope tenant, st.shared.verifyTenant env scope tenant = .ok (-1)) ∧
    ∃ order rows, order.Nodup ∧ (∀ i, i ∈ order) ∧
      (∀ scope, st.shared.iter env scope = (scopedRows scope rows).map Except.ok) ∧
      List.Forall₂ (fun i row => ∃ hash, st.phase i = .done hash ∧ row.2 = .str hash ∧
        SameRecord row.1 (requests i).persisted) order rows ∧
      ∀ tenant,
        ChainFrom (chainStep env) Digest.zero ((tenantRows tenant rows).map (viewOf env)) ∧
        (NoCollision env {m | m ∈ st.shared.messages env} →
          (Digest.zero :: (tenantRows tenant rows).map fun row => digestOf row.2).Nodup) := by
  obtain ⟨history, serial, nodup, outcomes⟩ := CriticalSection.serial_of_finished reach finished
  obtain ⟨rows, consistent, all⟩ := serial_consistent env held revalidates distinct serial nodup
  have recorded : ∀ i, i ∈ history.map Prod.fst := by
    intro i
    rcases finished i with ⟨r, phase⟩ | ⟨e, phase⟩
    · exact List.mem_map_of_mem ((outcomes i).1 r phase)
    · exact List.mem_map_of_mem ((outcomes i).2 e phase)
  have unique : ∀ a ∈ history, ∀ b ∈ history, a.1 = b.1 → a = b :=
    List.inj_on_of_nodup_map nodup
  have phases : ∀ entry ∈ history, ∀ hash, entry.2 = .ok hash → st.phase entry.1 = .done hash := by
    intro entry member hash returned
    rcases finished entry.1 with ⟨r, phase⟩ | ⟨e, phase⟩
    · have same := unique entry member _ ((outcomes entry.1).1 r phase) rfl
      rw [same] at returned
      cases returned
      exact phase
    · have same := unique entry member _ ((outcomes entry.1).2 e phase) rfl
      rw [same] at returned
      cases returned
  refine ⟨fun scope => ?_, fun scope tenant => ?_, history.map Prod.fst, rows, nodup, recorded,
    consistent.iter, ?_, fun tenant => ⟨tenant_chain env consistent tenant, fun free =>
      tenant_hashes_nodup env consistent free tenant⟩⟩
  · exact (st.shared.verify_iff env scope).mpr
      ⟨_, consistent.scoped_views env scope, consistent.scoped_intact env scope⟩
  · exact EvidenceStore.verifyTenant_of_intact env (consistent.scoped_views env scope)
      (consistent.scoped_intact env scope) tenant
  · rw [List.forall₂_map_left_iff]
    refine forall₂_of_mem all fun entry member row rowOf => ?_
    obtain ⟨d, returned, stored, same⟩ := rowOf
    exact ⟨d.hex, phases entry member d.hex returned, stored, same⟩

end

/-- One call stamped by its scope, and one with a tenant of its own. -/
def sampleRequests : Bool → AppendRequest
  | false => ⟨sampleRecord (.fin 0) "d-1" none, some "alpha"⟩
  | true => ⟨sampleRecord (.fin 0) "d-2" (some "beta"), none⟩

theorem sampleRequests_persisted (i : Bool) : ∃ id tenant,
    (sampleRequests i).persisted = sampleRecord (.fin 0) id tenant := by
  cases i
  · exact ⟨"d-1", some "alpha", rfl⟩
  · exact ⟨"d-2", some "beta", rfl⟩

theorem sampleRequests_held (i : Bool) : HeldRecord samplePlatform (sampleRequests i).persisted := by
  obtain ⟨id, tenant, same⟩ := sampleRequests_persisted i
  rw [same]
  exact fun _ => sample_readable sample_zero id tenant

theorem sampleRequests_revalidate (backend : Backend) (i : Bool) :
    Revalidates samplePlatform backend (sampleRequests i).persisted := by
  obtain ⟨id, tenant, same⟩ := sampleRequests_persisted i
  rw [same]
  exact revalidates_of_finite samplePlatform sample_scansJson backend rfl rfl
    (sample_readable sample_zero id tenant)

theorem sampleRequests_distinct (i j : Bool)
    (same : (sampleRequests i).record.decisionId = (sampleRequests j).record.decisionId) :
    i = j := by
  revert same
  cases i <;> cases j <;> decide

theorem sampleRequests_run (backend : Backend) :
    ∃ st, Relation.ReflTransGen (CriticalSection.Step (appendCalls samplePlatform sampleRequests))
      (CriticalSection.start backend.empty) st ∧ st.Finished := by
  obtain ⟨s, d, r, first, _, consistent⟩ := append_consistent samplePlatform
    (consistent_empty samplePlatform backend) (sampleRequests_held false)
    (sampleRequests_revalidate backend false) (fun _ => List.not_mem_nil)
  obtain ⟨s', d', r', second, _, _⟩ := append_consistent samplePlatform consistent
    (sampleRequests_held true) (sampleRequests_revalidate backend true) (fun _ => by decide)
  let calls := appendCalls samplePlatform sampleRequests
  let initial : CriticalSection.State Bool EvidenceStore PyErr Value (String × String) String :=
    CriticalSection.start backend.empty
  have one := CriticalSection.run_call calls initial false rfl rfl first
  have two := CriticalSection.run_call calls
    ⟨s, none, Function.update initial.phase false (.done d.hex)⟩ true rfl rfl second
  refine ⟨_, one.trans two, fun i => Or.inl ?_⟩
  cases i
  · exact ⟨d.hex, rfl⟩
  · exact ⟨d'.hex, rfl⟩

theorem appends_linear_two :
    ∃ st, Relation.ReflTransGen (CriticalSection.Step (appendCalls samplePlatform sampleRequests))
      (CriticalSection.start Backend.sqlite.empty) st ∧
      st.shared.verify samplePlatform none = .ok (-1) ∧
      st.shared.verify samplePlatform (some "alpha") = .ok (-1) ∧
      st.shared.verifyTenant samplePlatform none "beta" = .ok (-1) := by
  obtain ⟨st, reach, finished⟩ := sampleRequests_run .sqlite
  obtain ⟨verified, tenants, _⟩ := appends_linear samplePlatform sampleRequests_held
    (sampleRequests_revalidate .sqlite) (fun _ => sampleRequests_distinct) reach finished
  exact ⟨st, reach, verified none, verified (some "alpha"), tenants none "beta"⟩

end HorizonRic.Evidence
