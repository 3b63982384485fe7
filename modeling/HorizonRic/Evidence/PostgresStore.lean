import HorizonRic.Evidence.LinearChains
import HorizonRic.Library.KeyedTransactions

/-!
`PostgresEvidenceStore.append` as a transaction under READ COMMITTED: the advisory
lock of the tenant, a read of the tenant's last committed hash, an insert that draws
the next `id`, and a commit or a rollback. A store object guards its connection with
`self._lock`. The table is kept in the order of the commits, which is not the order
of the ids; readers order by `id`.
-/
namespace HorizonRic.Evidence

open Py Json KeyedTransactions

/-- A row of `evidence_records`. `record` is the text that is cast to JSONB. -/
structure EvidenceRow where
  id : Nat
  tenantId : String
  ts : String
  decisionId : String
  record : String
  hash : String

def advisoryClass : Int := 0x48524943

/-- `WHERE tenant_id = %s`. -/
def tenantRecords (tenant : String) (table : List EvidenceRow) : List EvidenceRow :=
  table.filter fun row => row.tenantId == tenant

/-- `ORDER BY id ASC`. -/
def orderById (table : List EvidenceRow) : List EvidenceRow :=
  table.mergeSort fun a b => decide (a.id ≤ b.id)

/-- `ORDER BY id DESC`. -/
def orderByIdDesc (table : List EvidenceRow) : List EvidenceRow :=
  table.mergeSort fun a b => decide (b.id ≤ a.id)

/-- The last hash of the tenant, as a statement reads it from the committed rows. -/
def lastRecordHash (tenant : String) (table : List EvidenceRow) : String :=
  match (orderByIdDesc (tenantRecords tenant table)).head? with
  | some row => row.hash
  | none => zeroHashHex

/-- One call of `append` on a store object, with the tenant scope of its thread. -/
structure StoreAppend (δ : Type) where
  store : δ
  request : AppendRequest

def StoreAppend.record {δ : Type} (a : StoreAppend δ) : DecisionRecord := a.request.persisted

/-- The row that the call inserts, for its payload and hash. -/
def StoreAppend.row {δ : Type} (a : StoreAppend δ) (inserted : String × String) (id : Nat) :
    EvidenceRow where
  id := id
  tenantId := tenantOf a.record
  ts := a.record.timestamp
  decisionId := a.record.decisionId
  record := inserted.1
  hash := inserted.2

abbrev PostgresCall (δ : Type) :=
  Call δ (Int × Int) (List EvidenceRow) PyErr String String (String × String) String

abbrev PostgresState (ι δ : Type) :=
  State ι δ (Int × Int) (List EvidenceRow) String String (String × String) String

section
variable (env : Platform) (hashtext : String → Int) {ι δ : Type}

/-- `append`: the payload before `self._lock`, then one transaction. -/
def postgresAppend (a : StoreAppend δ) : PostgresCall δ where
  session := a.store
  prepare := canonicalJson env a.record
  lock := (advisoryClass, hashtext (tenantOf a.record))
  read table := lastRecordHash (tenantOf a.record) table
  compute payload prev := do
    let hash ← chain env (.str prev) payload
    .ok (payload, hash)
  write inserted id table := table ++ [a.row inserted id]
  result inserted := inserted.2

def postgresAppends (requests : ι → StoreAppend δ) (i : ι) : PostgresCall δ :=
  postgresAppend env hashtext (requests i)

/-- Every row's hash is `_chain` of the hash before it and of what the row records. -/
def ChainedFrom : String → List EvidenceRow → Prop
  | _, [] => True
  | prev, row :: rest => chain env (.str prev) row.record = .ok row.hash ∧ ChainedFrom row.hash rest

/-- The row that a committed call has in the table, with the hash it returned. -/
structure WroteRow (requests : ι → StoreAppend δ) (st : PostgresState ι δ) (i : ι)
    (row : EvidenceRow) : Prop where
  returned : (st.phase i).result? = some row.hash
  record : canonicalJson env (requests i).record = .ok row.record
  tenant : row.tenantId = tenantOf (requests i).record
  ts : row.ts = (requests i).record.timestamp
  decision : row.decisionId = (requests i).record.decisionId

/-- One chain for each tenant in the order of the ids; one row for each committed call,
    and no others. -/
structure ChainsNeverFork (requests : ι → StoreAppend δ) (st : PostgresState ι δ) : Prop where
  linear : ∀ tenant, ChainedFrom env zeroHashHex (orderById (tenantRecords tenant st.shared))
  ids : (st.shared.map EvidenceRow.id).Nodup
  oneRow : ∃ authors : List ι, authors.Nodup ∧
    (∀ i, i ∈ authors ↔ ∃ hash, (st.phase i).result? = some hash) ∧
    List.Forall₂ (WroteRow env requests st) authors st.shared

/-! Rows whose ids increase. -/

def Increasing (rows : List EvidenceRow) : Prop := rows.Pairwise fun a b => a.id < b.id

theorem orderById_increasing {rows : List EvidenceRow} (increasing : Increasing rows) :
    orderById rows = rows := by
  apply List.mergeSort_of_pairwise
  apply increasing.imp
  intro a b less
  simp only [decide_eq_true_eq]
  omega

theorem orderByIdDesc_increasing {rows : List EvidenceRow} (increasing : Increasing rows) :
    orderByIdDesc rows = rows.reverse := by
  have sorted : (orderByIdDesc rows).Pairwise fun a b => decide (b.id ≤ a.id) := by
    apply List.pairwise_mergeSort
    · intro a b c
      simp only [decide_eq_true_eq]
      omega
    · intro a b
      simp only [Bool.or_eq_true, decide_eq_true_eq]
      omega
  have reversed : rows.reverse.Pairwise fun a b => decide (b.id ≤ a.id) := by
    rw [List.pairwise_reverse]
    apply increasing.imp
    intro a b less
    simp only [decide_eq_true_eq]
    omega
  have perm : List.Perm (orderByIdDesc rows) rows.reverse :=
    (List.mergeSort_perm rows _).trans (List.reverse_perm rows).symm
  -- rows with one id are the same row, since the ids increase
  have same : ∀ a ∈ rows, ∀ b ∈ rows, a.id = b.id → a = b := by
    have nodup : (rows.map EvidenceRow.id).Nodup :=
      List.pairwise_map.mpr (increasing.imp fun less => Nat.ne_of_lt less)
    exact List.inj_on_of_nodup_map nodup
  apply perm.eq_of_pairwise _ sorted reversed
  intro a b first second le ge
  simp only [decide_eq_true_eq] at le ge
  refine same a ((List.mergeSort_perm rows _).mem_iff.mp first) b (List.mem_reverse.mp second) ?_
  omega

theorem lastRecordHash_increasing {tenant : String} {table : List EvidenceRow}
    (increasing : Increasing (tenantRecords tenant table)) :
    lastRecordHash tenant table =
      ((tenantRecords tenant table).getLast?.map EvidenceRow.hash).getD zeroHashHex := by
  rw [lastRecordHash, orderByIdDesc_increasing increasing, List.head?_reverse]
  cases (tenantRecords tenant table).getLast? <;> rfl

theorem chainedFrom_append {prev : String} {rows : List EvidenceRow} {row : EvidenceRow} :
    ChainedFrom env prev (rows ++ [row]) ↔ ChainedFrom env prev rows ∧
      chain env (.str ((rows.getLast?.map EvidenceRow.hash).getD prev)) row.record =
        .ok row.hash := by
  induction rows generalizing prev with
  | nil => simp [ChainedFrom]
  | cons first rest ih =>
    rw [List.cons_append, ChainedFrom, ChainedFrom, ih, List.getLast?_cons, and_assoc]
    cases rest.getLast? <;> simp

/-! Serial runs. -/

variable {env hashtext} {requests : ι → StoreAppend δ} {history : List (Commit ι (String × String))}
  {table : List EvidenceRow}

def committedRow (requests : ι → StoreAppend δ) (c : Commit ι (String × String)) : EvidenceRow :=
  (requests c.call).row c.wrote c.ticket

theorem tenantRecords_append (tenant : String) (table : List EvidenceRow) (row : EvidenceRow) :
    tenantRecords tenant (table ++ [row]) =
      if row.tenantId = tenant then tenantRecords tenant table ++ [row]
      else tenantRecords tenant table := by
  rw [tenantRecords, List.filter_append, List.filter_singleton]
  by_cases same : row.tenantId = tenant
  · rw [if_pos same, same, beq_self_eq_true]
    rfl
  · rw [if_neg same, beq_eq_false_iff_ne.mpr same]
    exact List.append_nil _

/-- Calls under different locks have different tenants. -/
theorem postgresAppends_independent : Independent (postgresAppends env hashtext requests) := by
  intro i j apart inserted id table
  have tenants : tenantOf (requests j).record ≠ tenantOf (requests i).record := by
    intro same
    apply apart
    simp only [postgresAppends, postgresAppend, same]
  simp only [postgresAppends, postgresAppend, lastRecordHash, tenantRecords_append, StoreAppend.row,
    if_neg tenants]

theorem table_of_serial
    (serial : Serial (postgresAppends env hashtext requests) [] history table) :
    table = history.map (committedRow requests) := by
  induction serial with
  | nil => rfl
  | snoc _ c _ ih =>
    rw [List.map_append, ← ih]
    rfl

theorem increasing_of_ordered (tenant : String)
    (serial : Serial (postgresAppends env hashtext requests) [] history table)
    (ordered : history.Pairwise fun c c' =>
      (postgresAppends env hashtext requests c.call).lock =
        (postgresAppends env hashtext requests c'.call).lock → c.ticket < c'.ticket) :
    Increasing (tenantRecords tenant table) := by
  rw [table_of_serial serial, tenantRecords, Increasing, List.pairwise_filter, List.pairwise_map]
  apply ordered.imp
  intro c c' less mine mine'
  have first : tenantOf (requests c.call).record = tenant := eq_of_beq mine
  have second : tenantOf (requests c'.call).record = tenant := eq_of_beq mine'
  apply less
  simp only [postgresAppends, postgresAppend, first, second]

/-- Each commit extends the chain of its tenant: by induction on the commits. -/
theorem chained_of_serial (tenant : String)
    (serial : Serial (postgresAppends env hashtext requests) [] history table)
    (ordered : history.Pairwise fun c c' =>
      (postgresAppends env hashtext requests c.call).lock =
        (postgresAppends env hashtext requests c'.call).lock → c.ticket < c'.ticket) :
    ChainedFrom env zeroHashHex (tenantRecords tenant table) := by
  induction serial with
  | nil => trivial
  | @snoc history table before c runs ih =>
    have earlier := (List.pairwise_append.mp ordered).1
    have increasing := increasing_of_ordered tenant before earlier
    obtain ⟨payload, _, computes⟩ := runs
    change ChainedFrom env zeroHashHex
      (tenantRecords tenant (table ++ [committedRow requests c]))
    rw [tenantRecords_append]
    by_cases mine : (committedRow requests c).tenantId = tenant
    · rw [if_pos mine, chainedFrom_append]
      refine ⟨ih earlier, ?_⟩
      have read : (postgresAppends env hashtext requests c.call).read table =
          lastRecordHash tenant table := congrArg (fun t => lastRecordHash t table) mine
      rw [read, lastRecordHash_increasing increasing] at computes
      obtain ⟨hash, chained, wrote⟩ := Py.bind_eq_ok computes
      have wrote := Except.ok.inj wrote
      have row : committedRow requests c = (requests c.call).row (payload, hash) c.ticket := by
        rw [committedRow, ← wrote]
      rw [row]
      exact chained
    · rw [if_neg mine]
      exact ih earlier

theorem wroteRow_of_invariant {st : PostgresState ι δ}
    (inv : Invariant (postgresAppends env hashtext requests) [] st history)
    {c : Commit ι (String × String)} (member : c ∈ history) :
    WroteRow env requests st c.call (committedRow requests c) where
  returned := (inv.committed_iff c.call _).mpr ⟨c, member, rfl, rfl⟩
  record := by
    obtain ⟨table, payload, canonical, computes⟩ := inv.serial.runs_of_mem member
    obtain ⟨hash, _, wrote⟩ := Py.bind_eq_ok computes
    have wrote : (payload, hash) = c.wrote := Except.ok.inj wrote
    have record : (committedRow requests c).record = payload := by
      rw [committedRow, StoreAppend.row, ← wrote]
    rw [record]
    exact canonical
  tenant := rfl
  ts := rfl
  decision := rfl

end

/-- However the appends of any number of connections interleave, and whichever of them
    fail before their commit. -/
theorem postgres_chains_never_fork (env : Platform) (hashtext : String → Int) {ι δ : Type}
    [DecidableEq ι] [DecidableEq δ] (requests : ι → StoreAppend δ) (st : PostgresState ι δ)
    (reach : Relation.ReflTransGen (Step (postgresAppends env hashtext requests)) (start []) st) :
    ChainsNeverFork env requests st := by
  obtain ⟨history, inv⟩ := invariant_reachable postgresAppends_independent reach
  have table := table_of_serial inv.serial
  refine ⟨fun tenant => ?_, ?_, history.map Commit.call, inv.once, fun i => ?_, ?_⟩
  · rw [orderById_increasing (increasing_of_ordered tenant inv.serial inv.ordered)]
    exact chained_of_serial tenant inv.serial inv.ordered
  · rw [table, List.map_map]
    exact inv.tickets
  · constructor
    · intro member
      obtain ⟨c, among, rfl⟩ := List.mem_map.mp member
      exact ⟨_, (inv.committed_iff c.call _).mpr ⟨c, among, rfl, rfl⟩⟩
    · rintro ⟨hash, returned⟩
      obtain ⟨c, among, rfl, _⟩ := (inv.committed_iff i hash).mp returned
      exact List.mem_map_of_mem among
  · rw [table, List.forall₂_map_left_iff, List.forall₂_map_right_iff, List.forall₂_same]
    exact fun c member => wroteRow_of_invariant inv member

/-- Two connections append for one tenant; the first has returned. -/
theorem postgres_chains_never_fork_sample :
    ∃ (requests : Bool → StoreAppend Bool) (st : PostgresState Bool Bool) (hash : String),
      st.phase true = .returned hash ∧ ChainsNeverFork samplePlatform requests st := by
  let requests : Bool → StoreAppend Bool := fun i =>
    ⟨i, sampleRecord (.fin 0) (if i then "d-1" else "d-2") (some "alpha"), none⟩
  obtain ⟨payload, canonical⟩ :
      ∃ payload, canonicalJson samplePlatform (requests true).record = .ok payload :=
    ⟨_, dumps_readable sampleInterpreter compact
      (sample_readable sample_zero "d-1" (some "alpha"))⟩
  have runs : (postgresAppends samplePlatform (fun _ => 0) requests true).runs []
      (payload, (chainStep samplePlatform Digest.zero payload).hex) := by
    refine ⟨payload, canonical, ?_⟩
    have read : (postgresAppends samplePlatform (fun _ => 0) requests true).read [] =
        Digest.zero.hex := by
      rw [zero_hex]
      exact (lastRecordHash_increasing List.Pairwise.nil : lastRecordHash _ [] = zeroHashHex)
    rw [read]
    change (chain samplePlatform (.str Digest.zero.hex) payload >>= _) = _
    rw [chain_hex, ok_bind]
  obtain ⟨st, reach, returned, _⟩ := run_alone _ [] true runs
  exact ⟨requests, st, _, returned,
    postgres_chains_never_fork samplePlatform (fun _ => 0) requests st reach⟩

end HorizonRic.Evidence
