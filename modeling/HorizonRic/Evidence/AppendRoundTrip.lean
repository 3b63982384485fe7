import HorizonRic.Evidence.Append
import HorizonRic.Evidence.ChainHead

/-!
The append/read round trip. On a store that verifies, an appended record comes
back last and the store still verifies exactly when the floats that the schema
requires are finite, the last hash filed under the record's tenant is the one of
the tenant's last record, and the file does not end inside a line.
-/
namespace HorizonRic.Evidence

open Py Json HashChain

section
variable (env : Platform)

/-- Iteration yields the old rows and then the appended record, with its canonical JSON and
    the returned hash, and the store verifies. -/
def RoundTrip (s s' : EvidenceStore) (r : DecisionRecord) (hash : String) : Prop :=
  ∃ r', s'.iter env none = s.iter env none ++ [.ok (r', .str hash)] ∧
    r'.tenantId = r.tenantId ∧ canonicalJson env r' = canonicalJson env r ∧
    s'.verify env none = .ok (-1)

/-- The text after the last newline of a file is blank. -/
def EvidenceStore.Terminated : EvidenceStore → Prop
  | .jsonl content => strip (lastPartial (universalNewlines content)) = []
  | .sqlite _ => True

/-- The hash of the tenant's last record, or the zero hash. -/
def EvidenceStore.headOf (tenant : String) (s : EvidenceStore) : Digest :=
  digestOf ((s.lastRowHash env tenant).getD (.str zeroHashHex))

/-- A stored hash spells these bytes. -/
def Spells (v : Value) (d : Digest) : Prop := ∃ hex, v = .str hex ∧ fromHex hex = .ok d.bytes

/-- `_last_hash_for_tenant` finds the hash of the last row whose record belongs to the tenant. -/
def EvidenceStore.Filed (tenant : String) (s : EvidenceStore) : Prop :=
  ∃ v, s.lastHash env tenant = .ok v ∧ Spells v (s.headOf env tenant)

/-- The message that `append` hashes. -/
def EvidenceStore.appendMessages (scope : Option String) (record : DecisionRecord)
    (s : EvidenceStore) : Set Bytes :=
  {m | ∃ hex bytes payload, s.lastHash env (tenantOf (stamp scope record)) = .ok (.str hex) ∧
    fromHex hex = .ok bytes ∧ canonicalJson env (stamp scope record) = .ok payload ∧
    m = bytes ++ utf8 payload}

theorem stamp_valid (p : Pydantic) (scope : Option String) (r : DecisionRecord) :
    (stamp scope r).valid p = r.valid p := by
  unfold stamp
  split <;> rfl

theorem stamp_finite (scope : Option String) (r : DecisionRecord) :
    (stamp scope r).finite = r.finite := by
  unfold stamp
  split <;> rfl

/-- What an `append` that returns has done. -/
theorem append_cases {scope : Option String} {record : DecisionRecord} {s s' : EvidenceStore}
    {hash : String} (appended : s.append env scope record = .ok (s', hash)) :
    ∃ hex bytes payload, s.lastHash env (tenantOf (stamp scope record)) = .ok (.str hex) ∧
      fromHex hex = .ok bytes ∧ canonicalJson env (stamp scope record) = .ok payload ∧
      hash = (env.sha256 (bytes ++ utf8 payload)).hex ∧
      s.write env (stamp scope record) payload hash = .ok s' := by
  unfold EvidenceStore.append CriticalSection.Call.atomic EvidenceStore.appendCall at appended
  dsimp only at appended
  cases read : s.lastHash env (tenantOf (stamp scope record)) with
  | error e =>
    rw [read] at appended
    cases appended
  | ok v =>
    cases canonical : canonicalJson env (stamp scope record) with
    | error e =>
      rw [read, canonical] at appended
      cases appended
    | ok payload =>
      rw [read, canonical] at appended
      simp only [ok_bind] at appended
      cases chained : chain env v payload with
      | error e =>
        rw [chained] at appended
        cases appended
      | ok h =>
        rw [chained] at appended
        simp only [ok_bind] at appended
        cases written : s.write env (stamp scope record) payload h with
        | error e =>
          rw [written] at appended
          cases appended
        | ok store =>
          rw [written] at appended
          cases appended
          cases v with
          | str hex =>
            obtain ⟨bytes, read', result⟩ := bind_eq_ok chained
            cases result
            exact ⟨hex, bytes, payload, rfl, read', rfl, rfl, written⟩
          | _ => cases chained

theorem append_eq {scope : Option String} {record : DecisionRecord} {s s' : EvidenceStore}
    {d : Digest} {payload : String}
    (read : s.lastHash env (tenantOf (stamp scope record)) = .ok (.str d.hex))
    (canonical : canonicalJson env (stamp scope record) = .ok payload)
    (written : s.write env (stamp scope record) payload (chainStep env d payload).hex = .ok s') :
    s.append env scope record = .ok (s', (chainStep env d payload).hex) := by
  unfold EvidenceStore.append CriticalSection.Call.atomic EvidenceStore.appendCall
  dsimp only
  rw [read, canonical]
  simp only [ok_bind, chain, fromHex_hex]
  rw [chainStep] at written ⊢
  rw [written]

/-! What iteration sees of the written row. -/

theorem lineOutcome_blank {line : List Char} (blank : strip line = []) :
    lineOutcome env none line = none := by
  rw [lineOutcome, readLine, if_pos blank]

/-- Outside any scope no line is skipped but a blank one. -/
theorem lineOutcome_solid {line : List Char} (solid : strip line ≠ []) :
    ∃ outcome, lineOutcome env none line = some outcome := by
  rw [lineOutcome, readLine, if_neg solid]
  cases loads env.py (strip line) with
  | error e => exact ⟨_, rfl⟩
  | ok obj =>
    rw [ok_bind]
    rcases readObject_cases env obj with ⟨e, read⟩ | ⟨row, read⟩
    · rw [read]
      exact ⟨_, rfl⟩
    · rw [read]
      exact ⟨_, rfl⟩

/-- Reading a written record back through the coercions `c`. -/
def readBack (c : Coercions) (r : DecisionRecord) (hash : String) : Outcome :=
  match validate env.pydantic c (sortKeys r.modelDump) with
  | none => .error .validationError
  | some r' => .ok (r', .str hash)

variable {r : DecisionRecord} {payload hash : String}

theorem iter_jsonl {content : List Char} (held : HeldRecord env r)
    (canonical : canonicalJson env r = .ok payload) {s' : EvidenceStore}
    (written : (EvidenceStore.jsonl content).write env r payload hash = .ok s') :
    ((EvidenceStore.jsonl content).Terminated → s'.iter env none =
      (EvidenceStore.jsonl content).iter env none ++ [readBack env env.pydantic.python r hash]) ∧
    (¬(EvidenceStore.jsonl content).Terminated →
      (s'.iter env none).length = ((EvidenceStore.jsonl content).iter env none).length) := by
  obtain ⟨readable, _⟩ := canonicalJson_readable env held canonical
  obtain ⟨oneLine, noReturn⟩ := lineText_plain env readable (tenantOf r) hash
  rw [EvidenceStore.write, recordLine_eq env held canonical, ok_bind] at written
  cases written
  have lines := linesOf_snoc content (lineText_ne_nil env (tenantOf r) hash r) oneLine noReturn
  simp only [EvidenceStore.Terminated, EvidenceStore.iter, lines, linesOf_eq content,
    List.filterMap_append, List.append_assoc]
  have part := lastPartial_no_newline (universalNewlines content)
  constructor
  · intro blank
    have allBlank := (strip_eq_nil_iff _).mp blank
    have skipped : (fileLines (lastPartial (universalNewlines content))).filterMap
        (lineOutcome env none) = [] := by
      by_cases nothing : lastPartial (universalNewlines content) = []
      · rw [nothing]
        rfl
      · rw [fileLines_open part nothing, List.filterMap_cons, lineOutcome_blank env blank]
        rfl
    have outcome := lineOutcome_lineText env readable (tenantOf_ne_empty r) hash none allBlank
    rw [skipped, List.nil_append, List.filterMap_cons, outcome, readBack]
    cases validate env.pydantic env.pydantic.python (sortKeys r.modelDump) <;> rfl
  · intro open'
    have nonempty : lastPartial (universalNewlines content) ≠ [] := by
      intro nothing
      rw [nothing] at open'
      exact open' rfl
    have merged : strip (lastPartial (universalNewlines content) ++
        (lineText env (tenantOf r) hash r ++ ['\n'])) ≠ [] := by
      intro blank
      have brace := (strip_eq_nil_iff _).mp blank '\x7b' (by simp [lineText, print])
      exact absurd brace (by decide)
    obtain ⟨old, oldRow⟩ := lineOutcome_solid env open'
    obtain ⟨new, newRow⟩ := lineOutcome_solid env merged
    rw [fileLines_open part nonempty, List.filterMap_cons, List.filterMap_cons, oldRow, newRow]
    simp

theorem iter_sqlite (scans : ScansJson env) {table : List DecisionRow} {d : Digest}
    (held : HeldRecord env r) (canonical : canonicalJson env r = .ok payload)
    {s' : EvidenceStore}
    (written : (EvidenceStore.sqlite table).write env r payload d.hex = .ok s') :
    s'.iter env none =
      (EvidenceStore.sqlite table).iter env none ++ [readBack env env.pydantic.json r d.hex] := by
  obtain ⟨readable, text⟩ := canonicalJson_readable env held canonical
  have scanned := scans _ (readable_sortKeys env.py readable)
  rw [← text] at scanned
  rw [EvidenceStore.write] at written
  split at written
  · cases written
  · rw [fromHex_hex, ok_bind] at written
    cases written
    have visible : ∀ rows : List DecisionRow, rows.filter (rowInScope none) = rows := by
      intro rows
      simp [rowInScope]
    rw [EvidenceStore.iter, EvidenceStore.iter, visible, visible, List.map_append, List.map_cons,
      List.map_nil]
    apply congrArg (fun outcome => _ ++ [outcome])
    simp only [rowOutcome, readBack, scanned]
    cases validate env.pydantic env.pydantic.json (sortKeys r.modelDump) <;> rfl

/-- Either store: the row is read back on its own, or merged into an open last line. -/
theorem iter_written (scans : ScansJson env) {s s' : EvidenceStore} {d : Digest}
    (held : HeldRecord env r) (canonical : canonicalJson env r = .ok payload)
    (written : s.write env r payload d.hex = .ok s') :
    (s.Terminated → ∃ c, s'.iter env none = s.iter env none ++ [readBack env c r d.hex]) ∧
    (¬s.Terminated → (s'.iter env none).length = (s.iter env none).length) := by
  cases s with
  | jsonl content =>
    obtain ⟨closed, open'⟩ := iter_jsonl env held canonical written
    exact ⟨fun h => ⟨_, closed h⟩, open'⟩
  | sqlite table =>
    exact ⟨fun _ => ⟨_, iter_sqlite env scans held canonical written⟩, fun h => absurd trivial h⟩

/-! Verification after the append. -/

theorem headOf_eq {s : EvidenceStore} (each : ∀ row ∈ s.parsed env, Viewable env row)
    (tenant : String) :
    s.headOf env tenant =
      heads (fun _ => Digest.zero) ((s.parsed env).map (viewOf env)) tenant := by
  rw [EvidenceStore.headOf, EvidenceStore.lastRowHash, heads_viewOf env each, heads_eq_getLast]
  cases (rowsOf tenant ((s.parsed env).map (viewOf env))).getLast? with
  | none =>
    rw [Option.map_none, Option.getD_none, ← zero_hex, digestOf_hex]
    rfl
  | some row =>
    rw [Option.map_some, Option.getD_some, digestOf_hex]
    rfl

/-- A store with one more row verifies exactly when the row extends its tenant's chain. -/
theorem verify_snoc {s s' : EvidenceStore} (intact : s.verify env none = .ok (-1))
    {r' : DecisionRecord} {d : Digest}
    (rows : s'.iter env none = s.iter env none ++ [.ok (r', .str d.hex)])
    (canonical : canonicalJson env r' = .ok payload) :
    s'.verify env none = .ok (-1) ↔
      d = chainStep env (s.headOf env (tenantOf r')) payload := by
  obtain ⟨outcomes, each, chained⟩ := (s.verify_parsed env).mp intact
  have parsed : s'.parsed env = s.parsed env ++ [(r', .str d.hex)] := by
    rw [EvidenceStore.parsed, rows, List.filterMap_append]
    rfl
  have view : viewOf env (r', .str d.hex) = ⟨tenantOf r', payload, d⟩ := by
    rw [viewOf, digestOf_hex]
    simp only [canonical]
  rw [s'.verify_parsed env, parsed, headOf_eq env each, List.map_append, List.map_append, Intact,
    linked_append]
  constructor
  · rintro ⟨_, _, _, last, _⟩
    rw [view] at last
    exact last
  · intro last
    refine ⟨?_, ?_, chained, ?_, trivial⟩
    · rw [rows, outcomes]
      rfl
    · intro row member
      rcases List.mem_append.mp member with old | new
      · exact each row old
      · rw [List.mem_singleton.mp new]
        exact ⟨⟨payload, canonical⟩, ⟨d, rfl⟩⟩
    · rw [view]
      exact last

theorem message_snoc {s s' : EvidenceStore} (intact : s.verify env none = .ok (-1))
    {r' : DecisionRecord} {d : Digest}
    (rows : s'.iter env none = s.iter env none ++ [.ok (r', .str d.hex)])
    (canonical : canonicalJson env r' = .ok payload) :
    (s.headOf env (tenantOf r')).bytes ++ utf8 payload ∈ s'.messages env := by
  obtain ⟨outcomes, each, _⟩ := (s.verify_parsed env).mp intact
  have last : Viewable env (r', .str d.hex) := ⟨⟨payload, canonical⟩, ⟨d, rfl⟩⟩
  have views : List.Forall₂ (Views env) (s'.iter env none)
      ((s.parsed env ++ [(r', Value.str d.hex)]).map (viewOf env)) := by
    refine (forall₂_views_iff env _ _).mpr ⟨_, ?_, fun row member => ?_, rfl⟩
    · rw [rows, outcomes, List.map_append]
      rfl
    · rcases List.mem_append.mp member with old | new
      · exact each row old
      · rw [List.mem_singleton.mp new]
        exact last
  have view : viewOf env (r', .str d.hex) = ⟨tenantOf r', payload, d⟩ := by
    rw [viewOf, digestOf_hex]
    simp only [canonical]
  rw [EvidenceStore.messages_eq env views, hashedOf, List.map_append, List.map_cons, List.map_nil,
    view, links_append, headOf_eq env each]
  refine List.mem_map.mpr ⟨(_, payload), List.mem_append_right _ List.mem_cons_self, rfl⟩

/-- A record that comes back has finite floats and was not merged into an open line. -/
theorem roundTrip_readable (scans : ScansJson env) {s s' : EvidenceStore} {d : Digest}
    (valid : r.valid env.pydantic = true) (held : HeldRecord env r)
    (canonical : canonicalJson env r = .ok payload)
    (written : s.write env r payload d.hex = .ok s')
    (trip : RoundTrip env s s' r d.hex) : r.finite = true ∧ s.Terminated := by
  obtain ⟨closed, open'⟩ := iter_written env scans held canonical written
  obtain ⟨r', rows, _⟩ := trip
  have terminated : s.Terminated := by
    by_contra notTerminated
    have lengths := open' notTerminated
    rw [rows, List.length_append] at lengths
    simp at lengths
  obtain ⟨c, rows'⟩ := closed terminated
  have outcome := (List.cons.inj (List.append_cancel_left (rows.symm.trans rows'))).1
  unfold readBack at outcome
  split at outcome
  · cases outcome
  · rename_i found
    exact ⟨finite_of_validate env.pydantic c valid found, terminated⟩

end

/-! Appending the sample record to an empty file. -/

def sampleAppended (energy : Number) (payload : String) : List Char :=
  lineText samplePlatform "alpha" (chainStep samplePlatform Digest.zero payload).hex
    (sampleRecord energy "d-1" (some "alpha")) ++ ['\n']

section
variable {energy : Number} (given : Readable sampleInterpreter (jsonFloat energy)) {payload : String}
  (canonical : canonicalJson samplePlatform (sampleRecord energy "d-1" (some "alpha")) =
    .ok payload)
include given canonical

theorem sample_written :
    (EvidenceStore.jsonl []).write samplePlatform (sampleRecord energy "d-1" (some "alpha"))
      payload (chainStep samplePlatform Digest.zero payload).hex =
        .ok (.jsonl (sampleAppended energy payload)) := by
  have held : HeldRecord samplePlatform (sampleRecord energy "d-1" (some "alpha")) :=
    fun _ => sample_readable given _ _
  have line := recordLine_eq samplePlatform held canonical "alpha"
    (chainStep samplePlatform Digest.zero payload).hex
  have tenant : tenantOf (sampleRecord energy "d-1" (some "alpha")) = "alpha" := rfl
  rw [EvidenceStore.write, tenant, line]
  rfl

theorem sample_appended :
    (EvidenceStore.jsonl []).append samplePlatform none
      (sampleRecord energy "d-1" (some "alpha")) = .ok (.jsonl (sampleAppended energy payload),
        (chainStep samplePlatform Digest.zero payload).hex) := by
  refine append_eq samplePlatform ?_ canonical (sample_written given canonical)
  rw [zero_hex]
  rfl

end

/-- The record comes back, and the store verifies, exactly when its required floats are
    finite, its predecessor is filed under its tenant and the file ends with a whole line. -/
theorem append_roundTrip_iff (env : Platform) (scans : ScansJson env) {s s' : EvidenceStore}
    (intact : s.verify env none = .ok (-1)) {scope : Option String} {record : DecisionRecord}
    (valid : record.valid env.pydantic = true) (held : HeldRecord env (stamp scope record))
    {hash : String} (appended : s.append env scope record = .ok (s', hash))
    (free : NoCollision env
      {m | m ∈ s'.messages env ∨ m ∈ s.appendMessages env scope record}) :
    RoundTrip env s s' (stamp scope record) hash ↔
      record.finite = true ∧ s.Filed env (tenantOf (stamp scope record)) ∧ s.Terminated := by
  obtain ⟨hex, bytes, payload, read, readHex, canonical, rfl, written⟩ := append_cases env appended
  have valid' : (stamp scope record).valid env.pydantic = true := by rw [stamp_valid, valid]
  constructor
  · intro trip
    obtain ⟨finite, terminated⟩ := roundTrip_readable env scans valid' held canonical written trip
    obtain ⟨r', rows, tenant, canonical', verified⟩ := trip
    rw [canonical] at canonical'
    rw [stamp_finite] at finite
    refine ⟨finite, ⟨.str hex, read, hex, rfl, ?_⟩, terminated⟩
    have sameTenant : tenantOf r' = tenantOf (stamp scope record) := by
      rw [tenantOf, tenant, tenantOf]
    have digest := (verify_snoc env intact rows canonical').mp verified
    have inStore := message_snoc env intact rows canonical'
    rw [sameTenant] at digest inStore
    have among : bytes ++ utf8 payload ∈ s.appendMessages env scope record :=
      ⟨hex, bytes, payload, read, readHex, canonical, rfl⟩
    have messages := free.injective (Or.inr among) (Or.inl inStore) digest
    rw [readHex, List.append_cancel_right messages]
  · rintro ⟨finite, ⟨v, filed, hex', spelled, headHex⟩, terminated⟩
    rw [read] at filed
    cases filed
    cases spelled
    rw [readHex] at headHex
    have headBytes : bytes = (s.headOf env (tenantOf (stamp scope record))).bytes :=
      Except.ok.inj headHex
    obtain ⟨c, rows⟩ := (iter_written env scans held canonical written).1 terminated
    have finite' : (stamp scope record).finite = true := by rw [stamp_finite, finite]
    obtain ⟨r', back, tenant, _, same⟩ := validate_settles env.pydantic c valid' finite'
    rw [readBack, back] at rows
    have canonical' : canonicalJson env r' = .ok payload :=
      (canonicalJson_congr env same).trans canonical
    have sameTenant : tenantOf r' = tenantOf (stamp scope record) := by
      rw [tenantOf, tenant, tenantOf]
    refine ⟨r', rows, tenant, canonical'.trans canonical.symm, ?_⟩
    rw [verify_snoc env intact rows canonical', sameTenant, chainStep, headBytes]

/-- A record with finite floats, appended to an empty file. -/
theorem append_roundTrip_sample :
    RoundTrip samplePlatform (.jsonl []) (.jsonl (sampleAppended (.fin 0) samplePayload))
      (sampleRecord (.fin 0) "d-1" (some "alpha")) sampleDigest.hex := by
  have held : HeldRecord samplePlatform (sampleRecord (.fin 0) "d-1" (some "alpha")) :=
    fun _ => sample_readable sample_zero _ _
  have stamped : HeldRecord samplePlatform
      (stamp none (sampleRecord (.fin 0) "d-1" (some "alpha"))) := held
  have intact : (EvidenceStore.jsonl []).verify samplePlatform none = .ok (-1) := rfl
  obtain ⟨r, back, tenant, _, same⟩ := validate_settles samplePydantic sampleCoercions
    (r := sampleRecord (.fin 0) "d-1" (some "alpha")) rfl rfl
  have rows := (iter_jsonl samplePlatform held sample_canonical
    (sample_written sample_zero sample_canonical)).1 rfl
  have views : List.Forall₂ (Views samplePlatform)
      ((EvidenceStore.jsonl (sampleAppended (.fin 0) samplePayload)).iter samplePlatform none)
      [⟨"alpha", samplePayload, sampleDigest⟩] := by
    have back' : validate samplePlatform.pydantic samplePlatform.pydantic.python _ = _ := back
    rw [rows, readBack, back']
    refine .cons ⟨r, rfl, ?_, (canonicalJson_congr samplePlatform same).trans sample_canonical⟩ .nil
    rw [tenantOf, tenant]
    rfl
  have free : NoCollision samplePlatform {m |
      m ∈ (EvidenceStore.jsonl (sampleAppended (.fin 0) samplePayload)).messages samplePlatform ∨
      m ∈ (EvidenceStore.jsonl []).appendMessages samplePlatform none
        (sampleRecord (.fin 0) "d-1" (some "alpha"))} := by
    refine sample_noCollision.subset samplePlatform fun m among => Or.inl ?_
    rcases among with stored | ⟨hex, bytes, payload, read, readHex, canonical, rfl⟩
    · rw [EvidenceStore.messages_eq samplePlatform views] at stored
      exact List.mem_singleton.mp stored
    · have start : zeroHashHex = hex := Value.str.inj (Except.ok.inj read)
      rw [← start, ← zero_hex, fromHex_hex] at readHex
      have text := Except.ok.inj (sample_canonical.symm.trans canonical)
      rw [← Except.ok.inj readHex, text]
  refine (append_roundTrip_iff samplePlatform sample_scansJson intact rfl stamped
    (sample_appended sample_zero sample_canonical) free).mpr ⟨rfl, ?_, rfl⟩
  refine ⟨_, rfl, _, rfl, ?_⟩
  rw [← zero_hex, fromHex_hex]
  rfl

/-- A record whose energy is infinite is valid and appended, and does not come back. -/
theorem append_not_roundTrip :
    (sampleRecord (.inf false) "d-1" (some "alpha")).valid samplePydantic = true ∧
    (EvidenceStore.jsonl []).verify samplePlatform none = .ok (-1) ∧
    ∃ s' hash, (EvidenceStore.jsonl []).append samplePlatform none
        (sampleRecord (.inf false) "d-1" (some "alpha")) = .ok (s', hash) ∧
      ¬RoundTrip samplePlatform (.jsonl []) s' (sampleRecord (.inf false) "d-1" (some "alpha"))
        hash := by
  have given : Readable sampleInterpreter (jsonFloat (.inf false)) := trivial
  have canonical := dumps_readable sampleInterpreter compact
    (sample_readable given "d-1" (some "alpha"))
  refine ⟨rfl, rfl, _, _, sample_appended given canonical, fun trip => ?_⟩
  obtain ⟨finite, _⟩ := roundTrip_readable samplePlatform sample_scansJson rfl
    (fun _ => sample_readable given _ _) canonical (sample_written given canonical) trip
  cases finite

end HorizonRic.Evidence
