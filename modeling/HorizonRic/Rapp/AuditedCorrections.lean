import HorizonRic.Rapp.StatusPolling

/-!
Where the Shield's corrections end up. The guard refuses corrections with an empty audit
field and compares nothing; it is the pipeline that writes the field, and the record, from
the corrections of the certificate, one entry for each.
-/
namespace HorizonRic.Rapp

open Py Io Evidence Policy

/-- The audit entry holds the correction as the Shield made it. -/
structure Carries (entry : Dict Value) (c : ConstraintViolation) : Prop where
  constraintId : Dict.get? "constraint_id" entry = some (.str c.constraintId)
  severity : Dict.get? "severity" entry = some (.str c.severity)
  margin : Dict.get? "margin_dB" entry =
    some (match c.marginDB with | some x => .float x | none => .null)
  message : Dict.get? "message" entry = some (.str c.message)

def Occurs (audit : List (Dict Value)) (c : ConstraintViolation) : Prop :=
  ∃ entry ∈ audit, Carries entry c

/-- The correction of the record, read back as the Shield made it. -/
def violationOf (c : ConstraintCorrection) : ConstraintViolation :=
  ⟨c.constraintId, c.severity.literal, c.marginDb, c.message⟩

theorem carries_dump (c : ConstraintCorrection) : Carries (correctionDump c) (violationOf c) :=
  ⟨rfl, rfl, rfl, rfl⟩

theorem correctionOf_kept {v : ConstraintViolation} {c : ConstraintCorrection}
    (built : correctionOf v = .ok c) : violationOf c = v := by
  rw [correctionOf] at built
  split at built
  · rename_i severity found
    cases built
    have same := List.find?_some found
    rw [Value.eqStr, beq_iff_eq] at same
    rw [violationOf, ← same]
  · cases built

theorem corrections_kept {violations : List ConstraintViolation}
    {corrections : List ConstraintCorrection}
    (built : violations.mapM correctionOf = .ok corrections) :
    corrections.map violationOf = violations := by
  rw [mapM_eq_ok_iff] at built
  induction built with
  | nil => rfl
  | cons first _ ih => rw [List.map_cons, correctionOf_kept first, ih]

/-- Every row that is new carries these corrections. -/
def RowsCarry (corrections : List ConstraintCorrection) (before after : Ledger) : Prop :=
  ∀ row ∈ after.rows, row ∈ before.rows ∨ row.constraintCorrections = corrections

namespace RowsCarry
variable {corrections : List ConstraintCorrection} {l l' l'' : Ledger}

theorem of_rows (same : l'.rows = l.rows) : RowsCarry corrections l l' := by
  intro row member
  exact Or.inl (same ▸ member)

theorem trans (first : RowsCarry corrections l l') (second : RowsCarry corrections l' l'') :
    RowsCarry corrections l l'' := by
  intro row member
  rcases second row member with old | own
  · exact first row old
  · exact Or.inr own

theorem snoc {scope : Option String} {record : DecisionRecord}
    (added : l'.rows = l.rows ++ [stamp scope record])
    (own : record.constraintCorrections = corrections) : RowsCarry corrections l l' := by
  intro row member
  rw [added, List.mem_append, List.mem_singleton] at member
  rcases member with old | rfl
  · exact Or.inl old
  · right
    rw [← own, stamp]
    split <;> rfl

theorem append {store : EvidenceSink} {record : DecisionRecord}
    (own : record.constraintCorrections = corrections) (l : Ledger) :
    RowsCarry corrections l (store.append record l).2 := by
  rcases append_rows store record l with same | added
  · exact of_rows same
  · exact snoc added own

end RowsCarry

namespace DecisionPipeline
variable (pl : DecisionPipeline) (m : Moment) (event : TelemetryEvent) {d : Decision}

/-- An append of the decision's record under some flags. -/
theorem appended_carry {record : DecisionRecord} {l l' : Ledger} {outcome : Except PyErr Unit}
    (h : pl.store.append record l = (outcome, l'))
    (own : record.constraintCorrections = d.record.constraintCorrections) :
    RowsCarry d.record.constraintCorrections l l' := by
  have carried := @RowsCarry.append _ pl.store _ own l
  rwa [h] at carried

theorem emitFailed_carry (status : Option Int) (l : Ledger) :
    RowsCarry d.record.constraintCorrections l (pl.emitFailed m event d status l).2 := by
  rw [emitFailed]
  split
  · rename_i appended
    exact appended_carry pl appended rfl
  · rename_i appended
    exact appended_carry pl appended rfl

theorem emit_carry (l : Ledger) :
    RowsCarry d.record.constraintCorrections l (pl.emit m event d l).2 := by
  rw [emit]
  cases sent : pl.a1.emitPolicy pl.store d.policyType d.payload m.policyId d.record
      d.certificate l with
  | mk answer after =>
    rcases emitPolicy_rows sent with ⟨⟨policyId, status⟩, rfl, row⟩ | ⟨e, rfl, same⟩
    · dsimp only
      rw [(accepted_cases pl m event policyId status false after).1]
      exact .snoc row rfl
    · refine (RowsCarry.of_rows same).trans ?_
      cases e with
      | evidencePersist policyId status =>
        dsimp only
        rw [(accepted_cases pl m event policyId status true _).1]
        exact .append rfl after
      | httpError status => exact emitFailed_carry pl m event status after
      | circuitBreakerError => exact emitFailed_carry pl m event none after
      | other err => exact .append rfl after

theorem dispatch_carry (l : Ledger) :
    RowsCarry d.record.constraintCorrections l (pl.dispatch m event d l).2 := by
  rw [dispatch]
  split
  · rw [refuse]
    dsimp only
    split
    · rename_i appended
      exact appended_carry pl appended rfl
    · rename_i appended
      exact appended_carry pl appended rfl
  · split
    · rw [suppress]
      split
      · rename_i appended
        exact appended_carry pl appended rfl
      · rename_i appended
        exact appended_carry pl appended rfl
    · exact emit_carry pl m event l

/-- The field the guards see and the record, both from the corrections of the certificate. -/
theorem decide_corrections (decided : pl.decide m event = .ok d) :
    d.record.constraintCorrections.map violationOf = d.certificate.corrections ∧
      d.chainFailures = runGuardChain pl.env.py (some d.certificate) true m.elapsedMs
        (d.record.constraintCorrections.map correctionDump) pl.cfg.decisionBudgetMs := by
  obtain ⟨hash, _, decided⟩ := bind_eq_ok decided
  obtain ⟨r, _, decided⟩ := bind_eq_ok decided
  obtain ⟨payload, _, decided⟩ := bind_eq_ok decided
  obtain ⟨alternatives, _, decided⟩ := bind_eq_ok decided
  obtain ⟨disposition, _, decided⟩ := bind_eq_ok decided
  obtain ⟨corrections, built, decided⟩ := bind_eq_ok decided
  obtain ⟨safeTx, _, decided⟩ := bind_eq_ok decided
  obtain ⟨outcome, _, decided⟩ := bind_eq_ok decided
  cases decided
  exact ⟨corrections_kept built, rfl⟩

end DecisionPipeline

/-- A chain without failures has an audit field wherever there are corrections; and the
    pipeline fills that field, and the rows of the decision, with every correction of the
    certificate as it is and in order. -/
theorem corrections_audited :
    (∀ (py : Interpreter) (certificate : SafetyCertificate) (head : Bool)
      (elapsedMs policyPeriodMs : Number) (audit : List (Dict Value)),
      runGuardChain py (some certificate) head elapsedMs audit policyPeriodMs = [] →
        certificate.corrections = [] ∨ audit ≠ []) ∧
    ∀ (pl : DecisionPipeline) (m : Moment) (event : TelemetryEvent) (l : Ledger) (d : Decision),
      pl.decide m event = .ok d →
        (∃ audit, d.chainFailures = runGuardChain pl.env.py (some d.certificate) true m.elapsedMs
            audit pl.cfg.decisionBudgetMs ∧
          List.Forall₂ Carries audit d.certificate.corrections ∧
          ∀ c ∈ d.certificate.corrections, Occurs audit c) ∧
        ∀ row ∈ (pl.processEvent m event l).2.rows, row ∈ l.rows ∨
          row.constraintCorrections.map violationOf = d.certificate.corrections := by
  refine ⟨fun py _ _ _ _ _ passed => audited_of_chain py passed, ?_⟩
  intro pl m event l d decided
  obtain ⟨kept, guarded⟩ := DecisionPipeline.decide_corrections pl m event decided
  have each : List.Forall₂ Carries (d.record.constraintCorrections.map correctionDump)
      d.certificate.corrections := by
    rw [← kept, List.forall₂_map_left_iff, List.forall₂_map_right_iff, List.forall₂_same]
    intro c _
    exact carries_dump c
  refine ⟨⟨_, guarded, each, ?_⟩, ?_⟩
  · intro c member
    rw [← kept] at member
    obtain ⟨own, among, rfl⟩ := List.mem_map.mp member
    exact ⟨_, List.mem_map_of_mem among, carries_dump own⟩
  · intro row member
    rw [DecisionPipeline.processEvent, decided] at member
    rcases DecisionPipeline.dispatch_carry pl m event l row member with old | own
    · exact Or.inl old
    · exact Or.inr (by rw [own, kept])

/-- A certified action whose power the Shield has reduced by 4 dB. -/
def reducedCertificate : SafetyCertificate where
  decisionId := "d-2"
  issuedAt := "2026-01-01T00:00:00Z"
  loopTier := "non_rt"
  block := "unknown"
  actionProposed := []
  actionSafe := []
  invariants := []
  corrections := [⟨"max_eirp", "hard", some (.fin (-4)), "Tx power reduced by 4.00 dB"⟩]
  violatedIds := []
  projected := true
  fallbackUsed := false
  fallbackTo := .null
  safe := true
  emitBlocked := false
  rngSeed := none
  modelProvenance := none
  signature := none
  signingKeyFingerprint := none

def foreignAudit : List (Dict Value) := [[("constraint_id", .str "other")]]

theorem foreignAudit_clean :
    runGuardChain plainInterpreter (some reducedCertificate) true (.fin 5) foreignAudit (.fin 100) =
      [] := by
  rw [runGuardChain, List.filterMap_eq_nil_iff]
  intro failure member
  simp only [List.mem_cons, List.not_mem_nil, or_false] at member
  rcases member with rfl | rfl | rfl | rfl
  · rfl
  · rfl
  · simp [guardDecisionWithinA1Budget]
    norm_num
  · rfl

/-- An audit field with an entry about something else passes the chain. -/
theorem foreignEntry_passes :
    runGuardChain plainInterpreter (some reducedCertificate) true (.fin 5) foreignAudit (.fin 100) =
        [] ∧
      ∃ c ∈ reducedCertificate.corrections, ¬ Occurs foreignAudit c := by
  refine ⟨foreignAudit_clean, _, List.mem_cons_self, ?_⟩
  rintro ⟨entry, member, carries⟩
  rw [List.mem_singleton.mp member] at carries
  have other := carries.severity
  cases other

theorem sample_decided : ∃ d, samplePipeline.decide sampleMoment sampleEvent = .ok d := by
  have live := sample_live
  rw [DecisionPipeline.liveId] at live
  cases decided : samplePipeline.decide sampleMoment sampleEvent with
  | error e =>
    rw [decided] at live
    cases live
  | ok d => exact ⟨d, rfl⟩

theorem corrections_audited_sample :
    (runGuardChain plainInterpreter (some reducedCertificate) true (.fin 5) foreignAudit
        (.fin 100) = [] ∧ (reducedCertificate.corrections = [] ∨ foreignAudit ≠ [])) ∧
      ∃ d, samplePipeline.decide sampleMoment sampleEvent = .ok d ∧
        ∀ row ∈ (samplePipeline.processEvent sampleMoment sampleEvent {}).2.rows,
          row ∈ ({} : Ledger).rows ∨
            row.constraintCorrections.map violationOf = d.certificate.corrections := by
  refine ⟨⟨foreignAudit_clean, corrections_audited.1 _ _ _ _ _ _ foreignAudit_clean⟩, ?_⟩
  obtain ⟨d, decided⟩ := sample_decided
  exact ⟨d, decided, (corrections_audited.2 _ _ _ {} d decided).2⟩

end HorizonRic.Rapp
