import HorizonRic.Evidence.AppendRoundTrip
import HorizonRic.Evidence.JsonbMarks

/-!
`PostgresEvidenceStore` verifies what it wrote, and iterates it, exactly when every
record survives the JSONB column: the hash is taken over the canonical JSON before the
column, and recomputed from what the column gives back.
-/
namespace HorizonRic.Evidence

open Py Json HashChain

section
variable (env : Platform) (column : JsonbColumn)

/-- A row as its tenant's chain sees it. -/
def rowView (row : EvidenceRow) : ChainRow :=
  ⟨row.tenantId, row.record, digestOf (.str row.hash)⟩

/-- The row that a call wrote. -/
structure WroteCall (call : SignedAppend × String) (row : EvidenceRow) : Prop where
  tenant : row.tenantId = tenantOf call.1.persisted.record
  record : canonicalSigned env call.1.persisted = .ok row.record
  hash : row.hash = call.2
  cast : ∃ v, column.load row.record = .ok v

/-- One chain for each tenant, and one row for each call. -/
structure Recorded (calls : List (SignedAppend × String)) (table : List EvidenceRow) : Prop where
  increasing : Increasing table
  wrote : List.Forall₂ (WroteCall env column) calls table
  hashes : ∀ row ∈ table, ∃ d : Digest, row.hash = d.hex
  intact : Intact (chainStep env) Digest.zero (table.map rowView)

variable {env column} {calls : List (SignedAppend × String)} {table : List EvidenceRow}

theorem rowsOf_rowView (tenant : String) (table : List EvidenceRow) :
    rowsOf tenant (table.map rowView) = (tenantRecords tenant table).map rowView := by
  rw [rowsOf, tenantRecords, List.filter_map]
  rfl

/-- The hash that `append` reads is the head of the tenant's chain. -/
theorem Recorded.lastHash (recorded : Recorded env column calls table) (tenant : String) :
    lastRecordHash tenant table =
      (heads (fun _ => Digest.zero) (table.map rowView) tenant).hex := by
  have increasing : Increasing (tenantRecords tenant table) :=
    recorded.increasing.sublist List.filter_sublist
  rw [lastRecordHash_increasing increasing, heads_eq_getLast, rowsOf_rowView, List.getLast?_map]
  cases found : (tenantRecords tenant table).getLast? with
  | none => exact zero_hex.symm
  | some row =>
    have member := (List.mem_filter.mp (List.mem_of_getLast? found)).1
    obtain ⟨d, hash⟩ := recorded.hashes row member
    simp only [Option.map_some, Option.getD_some, rowView, hash, digestOf_hex]

theorem appendRow_cases {a : SignedAppend} {id : Nat} {table' : List EvidenceRow} {hash : String}
    (returned : appendRow env column a id table = .ok (table', hash)) :
    ∃ payload v, canonicalSigned env a.persisted = .ok payload ∧
      chain env (.str (lastRecordHash (tenantOf a.persisted.record) table)) payload = .ok hash ∧
      column.load payload = .ok v ∧
      table' = table ++ [⟨id, tenantOf a.persisted.record, a.persisted.record.timestamp,
        a.persisted.record.decisionId, payload, hash⟩] := by
  obtain ⟨payload, canonical, more⟩ := bind_eq_ok returned
  obtain ⟨hash', chained, more⟩ := bind_eq_ok more
  obtain ⟨v, loaded, done⟩ := bind_eq_ok more
  cases done
  exact ⟨payload, v, canonical, chained, loaded, rfl⟩

theorem appendRow_eq {a : SignedAppend} (id : Nat) {payload hash : String} {v : Value}
    (canonical : canonicalSigned env a.persisted = .ok payload)
    (chained : chain env (.str (lastRecordHash (tenantOf a.persisted.record) table)) payload =
      .ok hash) (loaded : column.load payload = .ok v) :
    appendRow env column a id table = .ok (table ++ [⟨id, tenantOf a.persisted.record,
      a.persisted.record.timestamp, a.persisted.record.decisionId, payload, hash⟩], hash) := by
  rw [appendRow, canonical, ok_bind, chained, ok_bind, loaded]
  rfl

/-- One append extends the chain of its tenant. -/
theorem Recorded.append (recorded : Recorded env column calls table) {a : SignedAppend} {id : Nat}
    {table' : List EvidenceRow} {hash : String} (later : ∀ row ∈ table, row.id < id)
    (returned : appendRow env column a id table = .ok (table', hash)) :
    Recorded env column (calls ++ [(a, hash)]) table' := by
  obtain ⟨payload, v, canonical, chained, loaded, rfl⟩ := appendRow_cases returned
  rw [recorded.lastHash, chain_hex] at chained
  have digest := (Except.ok.inj chained).symm
  refine ⟨?_, ?_, ?_, ?_⟩
  · refine List.pairwise_append.mpr ⟨recorded.increasing, List.pairwise_singleton _ _, ?_⟩
    intro row member row' new
    rw [List.mem_singleton.mp new]
    exact later row member
  · exact List.rel_append recorded.wrote (.cons ⟨rfl, canonical, rfl, v, loaded⟩ .nil)
  · intro row member
    rcases List.mem_append.mp member with old | new
    · exact recorded.hashes row old
    · rw [List.mem_singleton.mp new]
      exact ⟨_, digest⟩
  · rw [List.map_append, Intact, linked_append]
    refine ⟨recorded.intact, ?_, trivial⟩
    rw [rowView, digest, digestOf_hex]

theorem recorded_of_run (run : Appended env column calls table) :
    Recorded env column calls table := by
  induction run with
  | empty =>
    exact ⟨List.Pairwise.nil, .nil, fun _ member => absurd member List.not_mem_nil, trivial⟩
  | append _ later returned ih => exact ih.append later returned

end

/-! One row. -/

section
variable {env : Platform} {column : JsonbColumn}

theorem canonicalSigned_readable {s : SignedRecord} {payload : String}
    (held : HeldRecord env s.record) (canonical : canonicalSigned env s = .ok payload) :
    Readable env.py s.record.modelDump ∧ payload =
      String.ofList (printSigned env.py s.negative (sortKeys s.record.modelDump)) := by
  unfold canonicalSigned at canonical
  split at canonical
  · rename_i digits
    exact ⟨held digits, (Except.ok.inj canonical).symm⟩
  · cases canonical

/-- A row comes back as the record that validation makes of what the column gives. -/
def RowBack (env : Platform) (column : JsonbColumn) (s : SignedRecord) (row : EvidenceRow) : Prop :=
  ∃ r, recordOutcome env column row = .ok (r, .str row.hash) ∧
    canonicalJson env r = canonicalSigned env s

variable {round : ℚ → Number} (documented : DocumentedFloats env round)
  {s : SignedRecord} {row : EvidenceRow} {loaded : Value}
  (valid : s.record.valid env.pydantic = true) (held : HeldRecord env s.record)
  (normalises : column.Normalises env s) (canonical : canonicalSigned env s = .ok row.record)
  (cast : column.load row.record = .ok loaded)
include documented held normalises canonical cast

theorem recordOutcome_iff (r : DecisionRecord) :
    recordOutcome env column row = .ok (r, .str row.hash) ↔
      validate env.pydantic env.pydantic.python (jsonbTransport env column s.record.modelDump) =
        some r := by
  have readable := (canonicalSigned_readable held canonical).1
  have given := normalises _ _ canonical cast
  rw [value_eq_transport column documented readable] at given
  rw [recordOutcome, cast, ok_bind, given, modelValidate]
  cases validate env.pydantic env.pydantic.python
      (jsonbTransport env column s.record.modelDump) with
  | none =>
    constructor
    · intro returned
      cases returned
    · intro found
      cases found
  | some r' =>
    constructor
    · intro returned
      cases returned
      rfl
    · intro found
      cases found
      rfl

include valid

/-- The text that is hashed again has lost a mark for each float that did not survive. -/
theorem survives_of_rowBack (back : RowBack env column s row) : SurvivesJsonb s := by
  obtain ⟨r, outcome, same⟩ := back
  obtain ⟨readable, payload⟩ := canonicalSigned_readable held canonical
  have read := (recordOutcome_iff documented held normalises canonical cast r).mp outcome
  have t := transport_jsonb env column
  have finite := finite_of_validate_stored env.pydantic t valid read
  obtain ⟨r', read', recordBack⟩ := validate_stored env.pydantic t valid finite
  obtain rfl : r' = r := Option.some.inj (read'.symm.trans read)
  have again : marks env.py r'.modelDump =
      (printSigned env.py s.negative (sortKeys s.record.modelDump)).countP marked := by
    have text := same.trans canonical
    rw [canonicalJson, dumps] at text
    split at text
    · have texts := Except.ok.inj text
      rw [payload, String.ofList_inj] at texts
      rw [← marks_sortKeys, marks, texts]
    · cases text
  have written := marks_sortKeys env.py s.record.modelDump
  obtain ⟨fewer, small⟩ := record_lighter column documented readable recordBack
  obtain ⟨more, plain⟩ := signs_show documented.zero (sortKeys s.record.modelDump) s.negative
  rw [← marks] at more plain
  exact ⟨finite, plain (by omega), small (by omega)⟩

theorem rowBack_of_survives (survives : SurvivesJsonb s) :
    ∃ r, recordOutcome env column row = .ok (r, .str row.hash) ∧
      canonicalJson env r = .ok row.record ∧ tenantOf r = tenantOf s.record := by
  obtain ⟨readable, payload⟩ := canonicalSigned_readable held canonical
  have t := transport_jsonb env column
  obtain ⟨r, read, back⟩ := validate_stored env.pydantic t valid survives.finite
  have same : sortKeys r.modelDump = sortKeys s.record.modelDump := back.same fun d member =>
    keeps_of_small column documented (readable_freeForm readable d member)
      (survives.small d member)
  refine ⟨r, (recordOutcome_iff documented held normalises canonical cast r).mpr read, ?_, ?_⟩
  · rw [canonicalJson_congr env same, payload, printSigned_unsigned _ _ survives.unsigned]
    exact dumps_readable env.py compact readable
  · rw [tenantOf, tenantOf, back.tenantId]

end

/-! The whole table. -/

section
variable {env : Platform} {column : JsonbColumn} {calls : List (SignedAppend × String)}
  {table : List EvidenceRow}

theorem fetchRows_none (recorded : Recorded env column calls table) :
    fetchRows none table = table := orderById_increasing recorded.increasing

theorem fetchRows_some (recorded : Recorded env column calls table) (tenant : String) :
    fetchRows (some tenant) table = tenantRecords tenant table :=
  orderById_increasing (recorded.increasing.sublist List.filter_sublist)

/-- Rows that come back with their canonical JSON verify, in every scope. -/
theorem Recorded.verified (recorded : Recorded env column calls table)
    (views : ∀ row ∈ table, Views env (recordOutcome env column row) (rowView row))
    (scope : Option String) : postgresVerify env column scope table = .ok (-1) := by
  have verified : ∀ rows : List EvidenceRow, (∀ row ∈ rows, row ∈ table) →
      Intact (chainStep env) Digest.zero (rows.map rowView) →
      verifyFrom env 0 (fun _ => .str zeroHashHex) (rows.map (recordOutcome env column)) =
        .ok (-1) := by
    intro rows subset intact
    rw [zero_start, verifyFrom_iff]
    refine ⟨rows.map rowView, ?_, intact⟩
    rw [List.forall₂_map_left_iff, List.forall₂_map_right_iff, List.forall₂_same]
    exact fun row member => views row (subset row member)
  rw [postgresVerify, postgresIter]
  cases scope with
  | none =>
    rw [fetchRows_none recorded]
    exact verified table (fun _ member => member) recorded.intact
  | some tenant =>
    rw [fetchRows_some recorded]
    refine verified (tenantRecords tenant table)
      (fun _ member => (List.mem_filter.mp member).1) ?_
    rw [← rowsOf_rowView]
    exact linked_rowsOf _ recorded.intact tenant

end

section
variable {env : Platform} {column : JsonbColumn} {round : ℚ → Number}
  (documented : DocumentedFloats env round) {calls : List (SignedAppend × String)}
  {table : List EvidenceRow} (recorded : Recorded env column calls table)
  (valid : ∀ call ∈ calls, call.1.signed.record.valid env.pydantic = true)
  (held : ∀ call ∈ calls, HeldRecord env call.1.persisted.record)
  (normalises : ∀ call ∈ calls, column.Normalises env call.1.persisted)
include documented recorded valid held normalises

theorem survives_of_verifies (verifies : VerifiesWhatItWrote env column calls table)
    {call : SignedAppend × String} (member : call ∈ calls) : SurvivesJsonb call.1.persisted := by
  have records := verifies.records
  rw [postgresIter, fetchRows_none recorded, List.forall₂_map_right_iff] at records
  obtain ⟨row, _, wrote, r, outcome, same⟩ := exists_of_forall₂
    (List.Forall₂.mp (fun _ _ wrote back => And.intro wrote back) recorded.wrote records) member
  obtain ⟨_, cast⟩ := wrote.cast
  rw [← wrote.hash] at outcome
  have stamped := (stamp_valid env.pydantic call.1.scope _).trans (valid call member)
  exact survives_of_rowBack documented stamped (held call member) (normalises call member)
    wrote.record cast ⟨r, outcome, same⟩

theorem verifies_of_survives (survive : ∀ call ∈ calls, SurvivesJsonb call.1.persisted) :
    VerifiesWhatItWrote env column calls table := by
  have each := forall₂_of_mem recorded.wrote fun call member row wrote =>
    And.intro wrote (have ⟨_, cast⟩ := wrote.cast
      rowBack_of_survives documented ((stamp_valid env.pydantic _ _).trans (valid call member))
        (held call member) (normalises call member) wrote.record cast (survive call member))
  refine ⟨recorded.verified fun row member => ?_, ?_⟩
  · obtain ⟨call, _, wrote, r, outcome, canonical, tenant⟩ := exists_of_forall₂ each.flip member
    obtain ⟨d, hash⟩ := recorded.hashes row member
    rw [hash] at outcome
    refine ⟨r, ?_, tenant.trans wrote.tenant.symm, canonical⟩
    rw [outcome, rowView, hash, digestOf_hex]
  · rw [postgresIter, fetchRows_none recorded, List.forall₂_map_right_iff]
    refine each.imp fun call row back => ?_
    obtain ⟨wrote, r, outcome, canonical, _⟩ := back
    rw [wrote.hash] at outcome
    exact ⟨r, outcome, canonical.trans wrote.record.symm⟩

end

/-! A record without negative zeros. -/

def SignedRecord.plain (r : DecisionRecord) : SignedRecord := ⟨r, fun _ => false⟩

theorem unsigned_plain (v : Value) : unsigned (fun _ => false) v = true := by
  induction v using Value.nested_induction with
  | float x => simp [unsigned]
  | list xs ih =>
    have elements : ∀ i, unsignedElements (fun _ => false) i xs = true := by
      induction xs with
      | nil => exact fun _ => rfl
      | cons x xs more =>
        intro i
        rw [unsignedElements, more (fun y later => ih y (List.mem_cons_of_mem _ later)) (i + 1),
          Bool.and_true]
        exact ih x List.mem_cons_self
    exact elements 0
  | dict items ih =>
    rw [unsigned]
    induction items with
    | nil => rfl
    | cons item items more =>
      rw [unsignedMembers, more fun item later => ih item (List.mem_cons_of_mem _ later),
        Bool.and_true]
      exact ih item List.mem_cons_self
  | _ => rfl

theorem canonicalSigned_plain (env : Platform) (r : DecisionRecord) :
    canonicalSigned env (.plain r) = canonicalJson env r := by
  rw [canonicalSigned, canonicalJson, dumps, SignedRecord.plain,
    printSigned_unsigned _ _ (unsigned_plain _)]

/-- Such an append is a transaction of the store, whose cast accepts what it inserts. -/
theorem appendRow_runs {env : Platform} {column : JsonbColumn} {δ : Type}
    (hashtext : String → Int) (store : δ) (request : AppendRequest) {id : Nat}
    {table table' : List EvidenceRow} {hash : String}
    (returned : appendRow env column ⟨.plain request.record, request.scope⟩ id table =
      .ok (table', hash)) :
    ∃ inserted, (postgresAppend env hashtext ⟨store, request⟩).runs table inserted ∧
      (postgresAppend env hashtext ⟨store, request⟩).write inserted id table = table' ∧
      (postgresAppend env hashtext ⟨store, request⟩).result inserted = hash := by
  obtain ⟨payload, v, canonical, chained, _, rfl⟩ := appendRow_cases returned
  refine ⟨(payload, hash), ⟨payload, ?_, ?_⟩, rfl, rfl⟩
  · exact (canonicalSigned_plain env request.persisted).symm.trans canonical
  · exact (congrArg (· >>= _) chained).trans rfl

/-- The store verifies what it wrote exactly when every record survives the JSONB column. -/
theorem postgres_verifies_iff (env : Platform) (column : JsonbColumn) {round : ℚ → Number}
    (documented : DocumentedFloats env round) {calls : List (SignedAppend × String)}
    {table : List EvidenceRow} (run : Appended env column calls table)
    (valid : ∀ call ∈ calls, call.1.signed.record.valid env.pydantic = true)
    (held : ∀ call ∈ calls, HeldRecord env call.1.persisted.record)
    (normalises : ∀ call ∈ calls, column.Normalises env call.1.persisted) :
    VerifiesWhatItWrote env column calls table ↔
      ∀ call ∈ calls, SurvivesJsonb call.1.persisted := by
  have recorded := recorded_of_run run
  constructor
  · intro verifies call member
    exact survives_of_verifies documented recorded valid held normalises verifies member
  · exact verifies_of_survives documented recorded valid held normalises

/-! A column that reads JSON, on a platform whose floats are exact decimals. -/

def decimalInterpreter : Interpreter where
  floatOfStr s := some (.fin (tokenDecimal s.toList).value)
  intOfStr _ := none
  floatRepr x := if x = .fin (10 ^ 16) then "1e+16" else "0.0"
  strRepr s := s
  log10 _ := 0

def floatOfInt : Value → Option Number
  | .int n => some (.fin n)
  | _ => none

def decimalPlatform : Platform where
  py := decimalInterpreter
  pydantic := { samplePydantic with python := { sampleCoercions with float := floatOfInt } }
  sha256 := samplePlatform.sha256

def readingColumn : JsonbColumn where
  load text := do
    let v ← loads decimalInterpreter text.toList
    .ok (storedValue (jsonbFloat decimalInterpreter) id v)
  order := id
  order_perm _ := List.Perm.refl _

theorem decimal_zero : FloatReadable decimalInterpreter 0 where
  token := ⟨[], ['0'], ['.', '0'], [], by decide, Or.inl rfl, Or.inl rfl,
    Or.inr ⟨'0', [], rfl, List.forall_mem_singleton.mpr rfl⟩, Or.inl rfl, by simp⟩
  back := by decide +kernel

theorem decimal_large : FloatReadable decimalInterpreter (10 ^ 16) where
  token := ⟨[], ['1'], [], ['e', '+', '1', '6'], by decide, Or.inl rfl,
    Or.inr ⟨'1', [], rfl, by decide, List.forall_mem_singleton.mpr rfl⟩, Or.inl rfl,
    Or.inr ⟨'e', ['+'], '1', ['6'], rfl, Or.inl rfl, Or.inr (Or.inl rfl),
      List.forall_mem_cons.mpr ⟨rfl, List.forall_mem_singleton.mpr rfl⟩⟩, by simp⟩
  back := by decide +kernel

theorem decimal_documented : DocumentedFloats decimalPlatform Number.fin where
  text cs _ := by
    change some (Number.fin (tokenDecimal (String.ofList cs).toList).value) = _
    rw [String.toList_ofList]
  int n q same := by
    cases same
    rfl
  zero := by decide
  whole q readable := by
    by_cases large : q = 10 ^ 16
    · subst large
      decide
    · have text : decimalInterpreter.floatRepr (.fin q) = "0.0" := by
        simp [decimalInterpreter, large]
      have zero : decimalInterpreter.floatOfStr "0.0" = some (.fin 0) := by decide +kernel
      have back : decimalInterpreter.floatOfStr (decimalInterpreter.floatRepr (.fin q)) =
          some (.fin q) := readable.back
      rw [text, zero] at back
      cases back
      decide

/-- The column does what JSONB does with the text of a record without negative zeros. -/
theorem reading_normalises {r : DecisionRecord} (readable : Readable decimalInterpreter r.modelDump) :
    readingColumn.Normalises decimalPlatform (.plain r) := by
  intro payload v canonical loaded
  rw [canonicalSigned_plain] at canonical
  have read := loads_dumps decimalInterpreter compact_plain readable canonical
  obtain ⟨w, parsed, done⟩ := bind_eq_ok loaded
  rw [read] at parsed
  cases parsed
  exact (Except.ok.inj done).symm

theorem reading_appended {r : DecisionRecord}
    (readable : Readable decimalInterpreter (stamp none r).modelDump) :
    ∃ hash table, Appended decimalPlatform readingColumn [(⟨.plain r, none⟩, hash)] table := by
  have canonical := dumps_readable decimalInterpreter compact readable
  have parsed := loads_dumps decimalInterpreter compact_plain readable canonical
  have signed := (canonicalSigned_plain decimalPlatform (stamp none r)).trans canonical
  have increasing : Increasing (tenantRecords (tenantOf (stamp none r)) []) := List.Pairwise.nil
  have empty : lastRecordHash (tenantOf (stamp none r)) [] = Digest.zero.hex :=
    (lastRecordHash_increasing increasing).trans zero_hex.symm
  have chained := chain_hex decimalPlatform Digest.zero
    (String.ofList (print decimalInterpreter compact (sortKeys (stamp none r).modelDump)))
  rw [← empty] at chained
  have loaded := congrArg (fun loaded => loaded >>= fun v =>
    Except.ok (storedValue (jsonbFloat decimalInterpreter) id v)) parsed
  exact ⟨_, _, Appended.append .empty (List.forall_mem_nil _)
    (appendRow_eq (a := ⟨.plain r, none⟩) 0 signed chained loaded)⟩

/-- A record whose energy field holds 10 ^ 16. -/
theorem postgres_verifies_sample : ∃ hash table,
    VerifiesWhatItWrote decimalPlatform readingColumn
      [(⟨.plain (sampleRecord (.fin (10 ^ 16)) "d-1" (some "alpha")), none⟩, hash)] table := by
  have given : Readable decimalInterpreter (jsonFloat (.fin (10 ^ 16))) := decimal_large
  have readable : Readable decimalInterpreter
      (sampleRecord (.fin (10 ^ 16)) "d-1" (some "alpha")).modelDump := by
    apply sample_readable_action decimal_zero given
    simp [jsonAny, jsonAnyItems, Readable, ReadableItems]
  have valid : (sampleRecord (.fin (10 ^ 16)) "d-1" (some "alpha")).valid
      decimalPlatform.pydantic = true := by decide
  have finite : (sampleRecord (.fin (10 ^ 16)) "d-1" (some "alpha")).finite = true := by
    decide
  obtain ⟨hash, table, run⟩ :=
    reading_appended (r := sampleRecord (.fin (10 ^ 16)) "d-1" (some "alpha")) readable
  refine ⟨hash, table, (postgres_verifies_iff decimalPlatform readingColumn decimal_documented run
    ?_ ?_ ?_).mpr ?_⟩
  · exact List.forall_mem_singleton.mpr valid
  · exact List.forall_mem_singleton.mpr fun _ => readable
  · exact List.forall_mem_singleton.mpr (reading_normalises readable)
  · refine List.forall_mem_singleton.mpr ⟨finite, unsigned_plain _, ?_⟩
    exact List.forall_mem_singleton.mpr rfl

/-- A record whose chosen action holds 10 ^ 16. -/
def wideRecord : DecisionRecord :=
  { sampleRecord (.fin 0) "d-1" (some "alpha") with
    chosenAction := [("bandwidth_hz", .float (.fin (10 ^ 16)))] }

/-- It is valid and appended to an empty table, the column does what JSONB does, and the record
    does not come back with its canonical JSON. -/
theorem wide_action_lost : wideRecord.valid decimalPlatform.pydantic = true ∧
    readingColumn.Normalises decimalPlatform (.plain wideRecord) ∧
    ∃ hash table, Appended decimalPlatform readingColumn [(⟨.plain wideRecord, none⟩, hash)] table ∧
      ¬VerifiesWhatItWrote decimalPlatform readingColumn [(⟨.plain wideRecord, none⟩, hash)]
        table := by
  have readable : Readable decimalInterpreter wideRecord.modelDump := by
    have zero : Readable decimalInterpreter (jsonFloat (.fin 0)) := decimal_zero
    apply sample_readable_action zero zero
    simp only [jsonAny, jsonAnyItems, Readable, ReadableItems]
    exact ⟨by simp, decimal_large, trivial⟩
  have valid : wideRecord.valid decimalPlatform.pydantic = true := by decide
  obtain ⟨hash, table, run⟩ := reading_appended (r := wideRecord) readable
  refine ⟨valid, reading_normalises readable, hash, table, run, fun verifies => ?_⟩
  have survives := survives_of_verifies decimal_documented (recorded_of_run run)
    (List.forall_mem_singleton.mpr valid) (List.forall_mem_singleton.mpr fun _ => readable)
    (List.forall_mem_singleton.mpr (reading_normalises readable)) verifies
    (List.mem_singleton.mpr rfl)
  have small : belowExponent (.dict wideRecord.chosenAction) = true :=
    survives.small _ List.mem_cons_self
  revert small
  decide

end HorizonRic.Evidence
