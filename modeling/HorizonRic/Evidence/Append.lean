import HorizonRic.Evidence.Store

/-!
What one `append` does to either store: the row that iteration sees afterwards,
and the last hash of every tenant.
-/
namespace HorizonRic.Evidence

open Py Json

/-- Equal records, up to the order of keys and to what JSON keeps of a float. -/
structure SameRecord (a b : DecisionRecord) : Prop where
  tenant : a.tenantId = b.tenantId
  id : a.decisionId = b.decisionId
  json : sortKeys a.modelDump = sortKeys b.modelDump

theorem SameRecord.tenantOf_eq {a b : DecisionRecord} (same : SameRecord a b) :
    tenantOf a = tenantOf b := by
  rw [tenantOf, tenantOf, same.tenant]

theorem tenantOf_ne_empty (r : DecisionRecord) : tenantOf r ≠ "" := by
  unfold tenantOf
  split
  · split
    · decide
    · assumption
  · decide

section
variable (env : Platform)

theorem canonicalJson_congr {a b : DecisionRecord}
    (same : sortKeys a.modelDump = sortKeys b.modelDump) :
    canonicalJson env a = canonicalJson env b := by
  rw [canonicalJson, canonicalJson, dumps, dumps, ← digitsOk_sortKeys a.modelDump,
    ← digitsOk_sortKeys b.modelDump, same]

/-- The JSON of the record can be read again, as far as it can be written. -/
def HeldRecord (r : DecisionRecord) : Prop := Held env.py r.modelDump

/-- Pydantic's JSON scanner reads what `json.dumps` writes. -/
def ScansJson : Prop :=
  ∀ v, Readable env.py v →
    env.pydantic.scanJson (String.ofList (print env.py compact v)) = some v

variable {r : DecisionRecord} {payload : String}

theorem canonicalJson_readable (held : HeldRecord env r)
    (canonical : canonicalJson env r = .ok payload) :
    Readable env.py r.modelDump ∧
      payload = String.ofList (print env.py compact (sortKeys r.modelDump)) := by
  rw [canonicalJson, dumps] at canonical
  split at canonical
  · rename_i digits
    exact ⟨held digits, (Except.ok.inj canonical).symm⟩
  · cases canonical

/-! The JSONL line. -/

def lineObject (tenant hash : String) (record : Value) : Dict Value :=
  [("hash", .str hash), ("tenant_id", .str tenant), ("record", record)]

def lineText (tenant hash : String) (r : DecisionRecord) : List Char :=
  print env.py spaced (.dict (sortItems (lineObject tenant hash (sortKeys r.modelDump))))

theorem lineObject_keys (tenant hash : String) (record : Value) :
    ((lineObject tenant hash record).map Prod.fst).Nodup := by
  simp [lineObject]

theorem lineObject_readable (readable : Readable env.py r.modelDump) (tenant hash : String) :
    Readable env.py (.dict (lineObject tenant hash (sortKeys r.modelDump))) := by
  rw [readable_dict]
  refine ⟨lineObject_keys _ _ _, ?_⟩
  have record := readable_sortKeys env.py readable
  simp [lineObject, Readable, record]

theorem lineText_readable (readable : Readable env.py r.modelDump) (tenant hash : String) :
    Readable env.py (.dict (sortItems (lineObject tenant hash (sortKeys r.modelDump)))) := by
  rw [← sortKeys_dict]
  exact readable_sortKeys env.py (lineObject_readable env readable tenant hash)

theorem recordLine_eq (held : HeldRecord env r) (canonical : canonicalJson env r = .ok payload)
    (tenant hash : String) :
    recordLine env tenant payload hash = .ok (lineText env tenant hash r) := by
  obtain ⟨readable, text⟩ := canonicalJson_readable env held canonical
  have loaded := loads_dumps env.py compact_plain readable canonical
  have dumped := dumps_readable env.py spaced (lineObject_readable env readable tenant hash)
  rw [recordLine, loaded, ok_bind]
  rw [lineObject] at dumped
  rw [dumped, ok_bind, String.toList_ofList, sortKeys_dict]
  rfl

theorem lineText_plain (readable : Readable env.py r.modelDump) (tenant hash : String) :
    '\n' ∉ lineText env tenant hash r ∧ '\r' ∉ lineText env tenant hash r := by
  have printable := print_printable env.py spaced_printable
    (lineText_readable env readable tenant hash)
  exact ⟨fun member => (printable_not_newline (printable _ member)).1 rfl,
    fun member => (printable_not_newline (printable _ member)).2 rfl⟩

theorem newline_space : ∀ c ∈ ['\n'], isStrSpace c = true :=
  List.forall_mem_singleton.mpr rfl

theorem strip_lineText (tenant hash : String) (r : DecisionRecord) {before : List Char}
    (blank : ∀ c ∈ before, isStrSpace c = true) :
    strip (before ++ (lineText env tenant hash r ++ ['\n'])) = lineText env tenant hash r :=
  strip_print_dict env.py spaced _ blank newline_space

theorem lineText_ne_nil (tenant hash : String) (r : DecisionRecord) :
    lineText env tenant hash r ≠ [] := List.cons_ne_nil _ _

theorem line_get (tenant hash : String) (record : Value) :
    Dict.get? "hash" (sortItems (lineObject tenant hash record)) = some (.str hash) ∧
      Dict.get? "tenant_id" (sortItems (lineObject tenant hash record)) = some (.str tenant) ∧
      Dict.get? "record" (sortItems (lineObject tenant hash record)) = some (sortKeys record) := by
  have nodup := lineObject_keys tenant hash record
  refine ⟨?_, ?_, ?_⟩
  · rw [get?_sortItems nodup]; rfl
  · rw [get?_sortItems nodup]; rfl
  · rw [get?_sortItems nodup]; rfl

theorem truthy_str {s : String} (nonempty : s ≠ "") : (Value.str s).truthy = true := by
  simpa [Value.truthy] using nonempty

/-- What iteration makes of the line: the record that validation returns, in its scope. -/
theorem lineOutcome_lineText (readable : Readable env.py r.modelDump) {tenant : String}
    (nonempty : tenant ≠ "") (hash : String) (scope : Option String) {before : List Char}
    (blank : ∀ c ∈ before, isStrSpace c = true) :
    lineOutcome env scope (before ++ (lineText env tenant hash r ++ ['\n'])) =
      match validate env.pydantic env.pydantic.python (sortKeys r.modelDump) with
      | none => some (.error .validationError)
      | some r' =>
        if inScope scope (.str tenant) then some (.ok (r', .str hash)) else none := by
  obtain ⟨hashGet, tenantGet, recordGet⟩ := line_get tenant hash (sortKeys r.modelDump)
  have loaded := loads_print env.py spaced_plain (lineText_readable env readable tenant hash)
  rw [sortKeys_idem] at recordGet
  rw [lineOutcome, readLine, strip_lineText env tenant hash r blank,
    if_neg (lineText_ne_nil env tenant hash r), lineText, loaded, ok_bind, readObject, subscript,
    recordGet]
  simp only [ok_bind, modelValidate]
  cases validate env.pydantic env.pydantic.python (sortKeys r.modelDump) with
  | none => rfl
  | some r' =>
    simp only [ok_bind, getKey, Dict.getD, tenantGet, Option.getD_some, rowLabel,
      truthy_str nonempty, if_true, subscript, hashGet]
    cases inScope scope (.str tenant) <;> rfl

/-- What the search for the last hash makes of the line. -/
theorem lastHash_lineText (readable : Readable env.py r.modelDump) {tenant : String}
    (nonempty : tenant ≠ "") (hash other : String) (last : Value) :
    lastHashOfLines env other last [lineText env tenant hash r ++ ['\n']] =
      .ok (if tenant = other then .str hash else last) := by
  obtain ⟨hashGet, tenantGet, _⟩ := line_get tenant hash (sortKeys r.modelDump)
  have space : ∀ c ∈ ['\n'], isSpace c = true := List.forall_mem_singleton.mpr rfl
  have loaded := loads_print_space env.py spaced_plain
    (lineText_readable env readable tenant hash) space
  have solid : strip (lineText env tenant hash r ++ ['\n']) ≠ [] := by
    have empty : ∀ c ∈ ([] : List Char), isStrSpace c = true := by simp
    have stripped := strip_lineText env tenant hash r empty
    rw [List.nil_append] at stripped
    rw [stripped]
    exact lineText_ne_nil env tenant hash r
  rw [lastHashOfLines, if_neg solid, lineText, loaded, ok_bind]
  simp only [lineTenant, getKey, Dict.getD, tenantGet, Option.getD_some, ok_bind,
    truthy_str nonempty, if_true, Value.eqStr, subscript, hashGet, lastHashOfLines]
  by_cases same : tenant = other
  · simp [same]
  · simp [same]

theorem lastHashOfLines_append (tenant : String) (last : Value) (lines more : List (List Char)) :
    lastHashOfLines env tenant last (lines ++ more) =
      (lastHashOfLines env tenant last lines >>= fun l => lastHashOfLines env tenant l more) := by
  induction lines generalizing last with
  | nil => rfl
  | cons line rest ih =>
    simp only [List.cons_append, lastHashOfLines]
    split
    · exact ih last
    · cases loads env.py line with
      | error e => rfl
      | ok obj =>
        simp only [ok_bind]
        cases lineTenant obj with
        | error e => rfl
        | ok label =>
          simp only [ok_bind]
          split
          · cases subscript obj "hash" with
            | error e => rfl
            | ok stored => exact ih stored
          · exact ih last

/-! Rows. -/

theorem readObject_not_skipped (obj : Value) : readObject env none obj ≠ .ok none := by
  intro skipped
  obtain ⟨record, _, more⟩ := bind_eq_ok skipped
  obtain ⟨r, _, more⟩ := bind_eq_ok more
  obtain ⟨given, _, more⟩ := bind_eq_ok more
  have visible : inScope none (rowLabel given r) = true := rfl
  rw [visible, if_pos rfl] at more
  obtain ⟨stored, _, done⟩ := bind_eq_ok more
  cases done

theorem readObject_cases (obj : Value) :
    (∃ e, readObject env none obj = .error e) ∨
      ∃ row, readObject env none obj = .ok (some row) := by
  cases read : readObject env none obj with
  | error e => exact Or.inl ⟨e, rfl⟩
  | ok given =>
    cases given with
    | none => exact absurd read (readObject_not_skipped env obj)
    | some row => exact Or.inr ⟨row, rfl⟩

theorem rowOutcome_eq {row : DecisionRow} {v : Value} {r : DecisionRecord}
    (scanned : env.pydantic.scanJson row.payloadJson = some v)
    (back : validate env.pydantic env.pydantic.json v = some r) :
    rowOutcome env row = .ok (r, .str (bytesHex row.chainHash)) := by
  simp only [rowOutcome, scanned, back]

/-! The file. -/

theorem linesOf_eq (content : List Char) :
    linesOf content = fileLines (terminated (universalNewlines content)) ++
      fileLines (lastPartial (universalNewlines content)) := by
  rw [linesOf, ← fileLines_append (terminated_cases _), terminated_append_lastPartial]

/-- Appending a line to the file: it continues what the last newline left open. -/
theorem linesOf_snoc (content : List Char) {line : List Char} (nonempty : line ≠ [])
    (oneLine : '\n' ∉ line) (noReturn : '\r' ∉ line) :
    linesOf (content ++ (line ++ ['\n'])) =
      fileLines (terminated (universalNewlines content)) ++
        [lastPartial (universalNewlines content) ++ (line ++ ['\n'])] := by
  have part := lastPartial_no_newline (universalNewlines content)
  have whole : '\n' ∉ lastPartial (universalNewlines content) ++ line := by
    simp [part, oneLine]
  rw [linesOf, universalNewlines_line content nonempty oneLine noReturn,
    ← terminated_append_lastPartial (universalNewlines content), List.append_assoc,
    fileLines_append (terminated_cases _), ← List.append_assoc (lastPartial _),
    fileLines_line whole]
  rw [terminated_append_lastPartial]
  simp

end

/-! A small platform: its only finite float is zero, and the digest of a message repeats
one byte that depends on the first byte of the message. -/

def sampleInterpreter : Interpreter where
  floatOfStr s := if s = "0.0" then some (.fin 0) else none
  intOfStr _ := none
  floatRepr _ := "0.0"
  strRepr s := s
  log10 _ := 0

def sampleCoercions : Coercions where
  float _ := none
  int _ := none
  bool _ := none
  datetime _ := none

def samplePydantic : Pydantic where
  python := sampleCoercions
  json := sampleCoercions
  nanInRange := false
  isoOfText := some
  scanJson text := (loads sampleInterpreter text.toList).toOption

def samplePlatform : Platform where
  py := sampleInterpreter
  pydantic := samplePydantic
  sha256 m := ⟨List.replicate 32 (UInt8.ofNat ((m.headD 0).toNat % 255 + 1)),
    List.length_replicate⟩

/-- A record that takes `energy` for its predicted energy. -/
def sampleRecord (energy : Number) (decisionId : String) (tenantId : Option String) :
    DecisionRecord where
  decisionId := decisionId
  timestamp := "2026-01-01T00:00:00Z"
  rappInstanceId := "rapp-1"
  tenantId := tenantId
  stateHash := "00"
  chosenAction := [("dry_run", .bool true)]
  predictedOutcomeChosen :=
    { slaRisk30s := .fin 0, slaRisk1min := .fin 0, slaRisk5min := .fin 0, energyKwh := energy }
  rejectedAlternatives := []
  modelVersions := ⟨"enc", "risk", "dyna", "pol", "shield", "1.0"⟩

theorem sample_floatReadable : FloatReadable sampleInterpreter 0 where
  token := ⟨[], ['0'], ['.', '0'], [], by decide, Or.inl rfl, Or.inl rfl,
    Or.inr ⟨'0', [], rfl, List.forall_mem_singleton.mpr rfl⟩, Or.inl rfl, by simp⟩
  back := by decide

theorem sample_zero : Readable sampleInterpreter (jsonFloat (.fin 0)) := sample_floatReadable

theorem sample_floatsReadable : FloatsReadable sampleInterpreter := by
  intro s q found
  simp only [sampleInterpreter] at found
  split at found
  · cases found
    exact sample_floatReadable
  · cases found

theorem sample_scansJson : ScansJson samplePlatform := by
  intro v readable
  have loaded := loads_print sampleInterpreter compact_plain readable
  change (loads sampleInterpreter _).toOption = some v
  rw [String.toList_ofList]
  exact congrArg Except.toOption loaded

theorem versions_readable {py : Interpreter} (m : ModelVersions) : Readable py m.dump := by
  rw [ModelVersions.dump, readable_dict]
  refine ⟨versions_keys _, ?_⟩
  simp [ModelVersions.items, Readable]

theorem texts_readable {py : Interpreter} (texts : List String) :
    Readable py (jsonTexts texts) := by
  rw [jsonTexts, readable_list, List.forall_mem_map]
  intro text _
  trivial

theorem outcome_readable {py : Interpreter} {o : PredictedOutcome} (noLoads : o.gatewayLoads = [])
    (floats : Readable py (jsonFloat o.slaRisk30s) ∧ Readable py (jsonFloat o.slaRisk1min) ∧
      Readable py (jsonFloat o.slaRisk5min) ∧ Readable py (jsonFloat o.ntnCapacityUsed) ∧
      Readable py (jsonFloat o.energyKwh)) : Readable py o.dump := by
  obtain ⟨risk30s, risk1min, risk5min, capacity, energy⟩ := floats
  rw [PredictedOutcome.dump, readable_dict]
  refine ⟨outcome_keys _, ?_⟩
  simp only [PredictedOutcome.items, List.forall_mem_cons]
  refine ⟨risk30s, risk1min, risk5min, ?_, capacity, energy, texts_readable _, ?_⟩
  · rw [noLoads]
    exact ⟨List.nodup_nil, trivial⟩
  · exact List.forall_mem_nil _

/-- The sample record with any free-form action. -/
theorem sample_readable_action {py : Interpreter} (zero : Readable py (jsonFloat (.fin 0)))
    {energy : Number} (given : Readable py (jsonFloat energy)) {action : Dict Value}
    (free : Readable py (jsonAny (.dict action))) (decisionId : String) (tenantId : Option String) :
    Readable py
      { sampleRecord energy decisionId tenantId with chosenAction := action }.modelDump := by
  have outcome : Readable py
      (sampleRecord energy decisionId tenantId).predictedOutcomeChosen.dump :=
    outcome_readable rfl ⟨zero, zero, zero, zero, given⟩
  have tenant : Readable py (jsonOption Value.str tenantId) := by
    cases tenantId <;> trivial
  rw [DecisionRecord.modelDump, readable_dict]
  refine ⟨record_keys _, ?_⟩
  simp only [DecisionRecord.items, List.forall_mem_cons]
  refine ⟨trivial, trivial, trivial, tenant, trivial, trivial, free, outcome, trivial, trivial,
    versions_readable _, trivial, trivial, trivial, trivial, trivial, trivial, trivial, ?_⟩
  exact List.forall_mem_nil _

theorem sample_readable {energy : Number} (given : Readable sampleInterpreter (jsonFloat energy))
    (decisionId : String) (tenantId : Option String) :
    Readable sampleInterpreter (sampleRecord energy decisionId tenantId).modelDump := by
  apply sample_readable_action sample_zero given
  simp [jsonAny, jsonAnyItems, Readable, ReadableItems]

end HorizonRic.Evidence
