import HorizonRic.Library.TwoRuns
import HorizonRic.Shield.Feasibility

/-!
Self-reports of a neural receiver. Two actions that differ only in their
predicted error rate run through the Shield side by side; what a certified
neural receiver rests on is the measurement of the context.
-/
namespace HorizonRic
open Py

section
variable (py : Interpreter)

/-- A value that converts to a rate between zero and one. -/
def IsRate (v : Value) : Prop := ∃ q : ℚ, v.toFloat py = .ok (.fin q) ∧ 0 ≤ q ∧ q ≤ 1

/-- The actions differ at most in their predicted error rates. -/
structure SelfReportOnly (a b : Action) : Prop where
  others : ∀ key, key ≠ "predicted_tbler" → Dict.get? key a = Dict.get? key b
  reports : Dict.get? "predicted_tbler" a = Dict.get? "predicted_tbler" b ∨
    ∃ v w, Dict.get? "predicted_tbler" a = some v ∧ Dict.get? "predicted_tbler" b = some w ∧
      IsRate py v ∧ IsRate py w

namespace SelfReportOnly
variable {py} {a b : Action}

theorem alike (h : SelfReportOnly py a b) : AlikeExcept ["predicted_tbler"] a b :=
  fun key other => Or.inl (h.others key (by simpa using other))

theorem getD (h : SelfReportOnly py a b) {key : String} (other : key ≠ "predicted_tbler")
    (default : Value) : a.getD key default = b.getD key default := by
  rw [Dict.getD, Dict.getD, h.others key other]

theorem floatField (h : SelfReportOnly py a b) {key : String} (other : key ≠ "predicted_tbler")
    (default : Value) : floatField py a key default = HorizonRic.floatField py b key default := by
  rw [HorizonRic.floatField, HorizonRic.floatField, h.getD other]

theorem isBlocked (h : SelfReportOnly py a b) : isBlocked a = HorizonRic.isBlocked b := by
  rw [HorizonRic.isBlocked, HorizonRic.isBlocked, h.getD (by decide)]

theorem set (h : SelfReportOnly py a b) (key : String) (v : Value) :
    SelfReportOnly py (a.set key v) (b.set key v) := by
  constructor
  · intro other ne
    by_cases same : key = other
    · subst same
      simp
    · rw [Dict.get?_set_ne _ _ same, Dict.get?_set_ne _ _ same, h.others other ne]
  · by_cases same : key = "predicted_tbler"
    · subst same
      left
      simp
    · simp only [Dict.get?_set_ne _ _ same]
      exact h.reports

theorem block (h : SelfReportOnly py a b) : SelfReportOnly py (block a) (HorizonRic.block b) :=
  h.set _ _

/-- Each run writes a rate of its own. -/
theorem setRates (h : SelfReportOnly py a b) {v w : Value} (hv : IsRate py v) (hw : IsRate py w) :
    SelfReportOnly py (a.set "predicted_tbler" v) (b.set "predicted_tbler" w) := by
  constructor
  · intro other ne
    rw [Dict.get?_set_ne _ _ ne.symm, Dict.get?_set_ne _ _ ne.symm, h.others other ne]
  · exact Or.inr ⟨v, w, by simp, by simp, hv, hw⟩

/-- The predicted rate converts in both runs, or comes out the same. -/
theorem predicted (h : SelfReportOnly py a b) (default : Value) :
    BothRuns (fun x y => x = y ∨ IsRate py (.float x) ∧ IsRate py (.float y))
      ((a.getD "predicted_tbler" default).toFloat py)
      ((b.getD "predicted_tbler" default).toFloat py) := by
  rcases h.reports with same | ⟨v, w, hv, hw, ⟨p, hp, pBounds⟩, q, hq, qBounds⟩
  · rw [Dict.getD, Dict.getD, same]
    exact (BothRuns.of_eq rfl).mono fun _ _ => Or.inl
  · rw [Dict.getD, Dict.getD, hv, hw, Option.getD_some, Option.getD_some, hp, hq]
    exact .ok (Or.inr ⟨⟨p, rfl, pBounds⟩, q, rfl, qBounds⟩)

end SelfReportOnly

/-- Checks that say the same; their details may differ. -/
def SameCheck (c c' : InvariantCheck) : Prop :=
  c.invariantId = c'.invariantId ∧ c.satisfied = c'.satisfied

def SameProjection (x y : Action × List ConstraintViolation) : Prop := SelfReportOnly py x.1 y.1

/-- The invariant treats actions that differ in their self-reports alike. -/
structure Invariant.IgnoresReports (inv : Invariant) : Prop where
  evaluate : ∀ {a b} ctx, SelfReportOnly py a b →
    BothRuns SameCheck (inv.evaluate a ctx) (inv.evaluate b ctx)
  project : ∀ {a b} ctx, SelfReportOnly py a b →
    BothRuns (SameProjection py) (inv.project a ctx) (inv.project b ctx)

theorem sameCheck_of_eq {x y : Except PyErr InvariantCheck} (same : x = y) :
    BothRuns SameCheck x y :=
  (BothRuns.of_eq same).mono fun _ _ h => by
    subst h
    exact ⟨rfl, rfl⟩

theorem NumericSanity.problems_reports {a b : Action} (h : SelfReportOnly py a b) :
    problems py a = problems py b := by
  refine problems_congr py h.alike fun ok message range => ?_
  rcases h.reports with same | ⟨v, w, hv, hw, ⟨p, hp, pBounds⟩, q, hq, qBounds⟩
  · exact optional_congr py (Or.inl same) ok message
  · have rateP : numberSatisfies py v ok = true :=
      (numberSatisfies_iff py v ok).mpr ⟨p, hp, by simpa [range] using pBounds⟩
    have rateQ : numberSatisfies py w ok = true :=
      (numberSatisfies_iff py w ok).mpr ⟨q, hq, by simpa [range] using qBounds⟩
    simp [optional, required, Dict.has, Dict.getD, hv, hw, rateP, rateQ]

theorem NumericSanity.ignoresReports : (NumericSanity.invariant py).IgnoresReports py where
  evaluate ctx h := by
    apply sameCheck_of_eq
    simp only [invariant, NumericSanity.evaluate, problems_reports py h]
  project ctx h := by
    simp only [invariant, NumericSanity.project, problems_reports py h]
    split
    · exact .ok h
    · exact .ok h.block

theorem SpectralMask.ignoresReports (mask : SpectralMask) :
    (SpectralMask.invariant py mask).IgnoresReports py where
  evaluate ctx h :=
    sameCheck_of_eq (InvariantClass.evaluate_congr py (.spectralMask mask) h.alike ctx
      (by simp) (by simp))
  project ctx h := by
    simp only [invariant, SpectralMask.project, h.floatField (show "bandwidth_hz" ≠ _ by decide),
      h.floatField (show "frequency_hz" ≠ _ by decide)]
    refine BothRuns.bind (BothRuns.of_eq rfl) fun bw _ same => ?_
    subst same
    refine BothRuns.ite rfl (.ok h.block) ?_
    refine BothRuns.bind (BothRuns.of_eq rfl) fun f _ same => ?_
    subst same
    exact BothRuns.ite rfl (.ok h) (.ok (h.set _ _))

theorem MaxEirp.ignoresReports (cap : MaxEirp) :
    (MaxEirp.invariant py cap).IgnoresReports py where
  evaluate ctx h :=
    sameCheck_of_eq (InvariantClass.evaluate_congr py (.maxEirp cap) h.alike ctx
      (by simp) (by simp))
  project ctx h := by
    simp only [invariant, MaxEirp.project, MaxEirp.eirp_congr py h.alike,
      h.floatField (show "tx_power_dBm" ≠ _ by decide)]
    refine BothRuns.bind (BothRuns.of_eq rfl) fun e _ same => ?_
    subst same
    refine BothRuns.ite rfl ?_ (.ok h)
    refine BothRuns.bind (BothRuns.of_eq rfl) fun tx _ same => ?_
    subst same
    exact .ok (h.set _ _)

theorem PfdCeiling.ignoresReports (cap : PfdCeiling) :
    (PfdCeiling.invariant py cap).IgnoresReports py where
  evaluate ctx h :=
    sameCheck_of_eq (InvariantClass.evaluate_congr py (.pfdCeiling cap) h.alike ctx
      (by simp) (by simp))
  project ctx h := by
    simp only [invariant, PfdCeiling.project, PfdCeiling.applies_congr h.alike,
      PfdCeiling.computePfd_congr py h.alike, h.floatField (show "tx_power_dBm" ≠ _ by decide)]
    refine BothRuns.ite rfl ?_ (.ok h)
    refine BothRuns.bind (BothRuns.of_eq rfl) fun pfd _ same => ?_
    subst same
    refine BothRuns.ite rfl ?_ (.ok h)
    refine BothRuns.bind (BothRuns.of_eq rfl) fun tx _ same => ?_
    subst same
    exact .ok (h.set _ _)

theorem NeuralRxEnvelope.evaluate_reports {env : NeuralRxEnvelope}
    (measured : env.requireMeasurement = true) {a b : Action} (ctx : Context)
    (h : SelfReportOnly py a b) :
    BothRuns SameCheck (env.evaluate py a ctx) (env.evaluate py b ctx) := by
  have block := h.getD (show "block" ≠ "predicted_tbler" by decide)
  have baseline := h.floatField (show "baseline_tbler" ≠ "predicted_tbler" by decide)
  have confidence := h.floatField (show "demap_confidence" ≠ "predicted_tbler" by decide)
  simp only [evaluate, applies, block, baseline, grade, confidence, measured, if_true]
  refine BothRuns.bind (BothRuns.of_eq rfl) fun neural _ same => ?_
  subst same
  refine BothRuns.ite rfl ?_ (.ok ⟨rfl, rfl⟩)
  refine BothRuns.bind (BothRuns.of_eq rfl) fun base _ same => ?_
  subst same
  refine BothRuns.bind (h.predicted zero) fun own own' _ => ?_
  cases ctx.getD "measured_tbler" .null with
  | null => exact .ok ⟨rfl, rfl⟩
  | _ => exact sameCheck_of_eq rfl

/-- Without a baseline each run keeps its own prediction. -/
theorem NeuralRxEnvelope.fallback_rate {a b : Action} (h : SelfReportOnly py a b) :
    BothRuns (fun x y => x = y ∨ IsRate py (.float x) ∧ IsRate py (.float y))
      (floatField py a "baseline_tbler" (a.getD "predicted_tbler" zero))
      (floatField py b "baseline_tbler" (b.getD "predicted_tbler" zero)) := by
  have same := h.others "baseline_tbler" (by decide)
  simp only [floatField, Dict.getD, same]
  cases Dict.get? "baseline_tbler" b with
  | none => exact h.predicted zero
  | some v => exact (BothRuns.of_eq rfl).mono fun _ _ => Or.inl

theorem NeuralRxEnvelope.ignoresReports {env : NeuralRxEnvelope}
    (measured : env.requireMeasurement = true) :
    (NeuralRxEnvelope.invariant py env).IgnoresReports py where
  evaluate ctx h := evaluate_reports py measured ctx h
  project ctx h := by
    simp only [invariant, project]
    refine BothRuns.bind (evaluate_reports py measured ctx h) fun c c' same => ?_
    refine BothRuns.ite same.2 (.ok h) ?_
    refine BothRuns.bind (fallback_rate py h) fun x y rate => ?_
    refine .ok ?_
    have fallen := (h.set "block" (.str env.fallbackBlock)).set fallbackKey (.str env.fallbackBlock)
    rcases rate with rfl | ⟨rateX, rateY⟩
    · exact fallen.set _ _
    · exact fallen.setRates rateX rateY

theorem ConstellationLegality.fallBack_reports (legal : ConstellationLegality) {a b : Action}
    (h : SelfReportOnly py a b) : SelfReportOnly py (legal.fallBack a) (legal.fallBack b) :=
  (h.set _ _).set _ _

theorem ConstellationLegality.snapOrder_reports (legal : ConstellationLegality) {a b : Action}
    (h : SelfReportOnly py a b) :
    BothRuns (SameProjection py) (legal.snapOrder py a) (legal.snapOrder py b) := by
  simp only [snapOrder, order_congr py h.alike]
  refine BothRuns.bind (BothRuns.of_eq rfl) fun order _ same => ?_
  subst same
  split
  · exact .ok h
  · refine BothRuns.bind (BothRuns.of_eq rfl) fun text _ _ => ?_
    exact .ok (fallBack_reports py legal (h.set _ _))

theorem ConstellationLegality.clipPapr_reports (legal : ConstellationLegality) {a b : Action}
    (h : SelfReportOnly py a b) :
    BothRuns (SameProjection py) (legal.clipPapr py a) (legal.clipPapr py b) := by
  simp only [clipPapr, h.floatField (show "papr_dB" ≠ _ by decide)]
  refine BothRuns.bind (BothRuns.of_eq rfl) fun papr _ same => ?_
  subst same
  exact BothRuns.ite rfl (.ok (fallBack_reports py legal (h.set _ _))) (.ok h)

theorem ConstellationLegality.ignoresReports (legal : ConstellationLegality) :
    (ConstellationLegality.invariant py legal).IgnoresReports py where
  evaluate ctx h :=
    sameCheck_of_eq (InvariantClass.evaluate_congr py (.constellationLegality legal) h.alike ctx
      (by simp) (by simp))
  project ctx h := by
    simp only [invariant, project, applies_congr py h.alike]
    refine BothRuns.bind (BothRuns.of_eq rfl) fun applied _ same => ?_
    subst same
    refine BothRuns.ite rfl ?_ (.ok h)
    refine BothRuns.bind (snapOrder_reports py legal h) fun snapped snapped' related => ?_
    exact BothRuns.bind (clipPapr_reports py legal related) fun _ _ last => .ok last

theorem LawfulIntercept.ignoresReports (li : LIConstraint) :
    (LawfulIntercept.invariant py li).IgnoresReports py where
  evaluate ctx h :=
    sameCheck_of_eq (InvariantClass.evaluate_congr py (.lawfulIntercept li) h.alike ctx
      (by simp) (by simp))
  project ctx h := by
    simp only [invariant, LIConstraint.project,
      h.getD (show "affected_ue_ids" ≠ "predicted_tbler" by decide)]
    refine BothRuns.ite rfl (.ok h) ?_
    refine BothRuns.bind (BothRuns.of_eq rfl) fun ues _ same => ?_
    subst same
    simp only [LIConstraint.stripProtected]
    split
    · have stripped := h.set "affected_ue_ids"
        (.list ((sortedStrings (ues \ (ues ∩ li.protectedUnion))).map .str))
      dsimp only
      rw [li.checkFeasibility_congr py stripped.alike]
      exact BothRuns.bind (BothRuns.of_eq rfl) fun _ _ _ => .ok stripped
    · dsimp only
      rw [li.checkFeasibility_congr py h.alike]
      exact BothRuns.bind (BothRuns.of_eq rfl) fun _ _ _ => .ok h

/-- No floor, and no neural receiver that may be graded on its own word. -/
def InvariantClass.Measured : InvariantClass → Prop
  | .protectedSliceFloor _ => False
  | .neuralRxEnvelope env => env.requireMeasurement = true
  | _ => True

theorem InvariantClass.ignoresReports {k : InvariantClass} (measured : k.Measured) :
    (k.invariant py).IgnoresReports py := by
  cases k with
  | numericSanity => exact NumericSanity.ignoresReports py
  | spectralMask mask => exact SpectralMask.ignoresReports py mask
  | maxEirp cap => exact MaxEirp.ignoresReports py cap
  | protectedSliceFloor slice => cases measured
  | pfdCeiling cap => exact PfdCeiling.ignoresReports py cap
  | neuralRxEnvelope env => exact NeuralRxEnvelope.ignoresReports py measured
  | constellationLegality legal => exact ConstellationLegality.ignoresReports py legal
  | lawfulIntercept li => exact LawfulIntercept.ignoresReports py li

theorem terrestrial_measured (p : TerrestrialParams) : ∀ k ∈ p.chain, k.Measured := by
  unfold TerrestrialParams.chain
  cases p.liConstraint <;>
    simp [InvariantClass.ofIntercept, InvariantClass.Measured, neuralRx]

theorem ntn_measured (p : NtnParams) : ∀ k ∈ p.chain, k.Measured := by
  unfold NtnParams.chain
  cases p.liConstraint <;>
    simp [InvariantClass.ofIntercept, InvariantClass.Measured, neuralRx]

variable {py} {invs : List Invariant} {ctx : Context} {a b : Action}

theorem checkOne_reports {inv : Invariant} (ignores : inv.IgnoresReports py)
    (h : SelfReportOnly py a b) :
    BothRuns SameCheck (checkOne inv a ctx) (checkOne inv b ctx) := by
  have graded := ignores.evaluate ctx h
  unfold checkOne
  generalize inv.evaluate a ctx = x at graded ⊢
  generalize inv.evaluate b ctx = y at graded ⊢
  cases graded with
  | ok same => exact .ok same
  | error e => exact sameCheck_of_eq rfl

theorem checkAll_reports (ignores : ∀ inv ∈ invs, inv.IgnoresReports py)
    (h : SelfReportOnly py a b) :
    BothRuns (List.Forall₂ SameCheck) (checkAll a ctx invs) (checkAll b ctx invs) := by
  induction invs with
  | nil => exact .ok .nil
  | cons inv rest ih =>
    refine BothRuns.bind (checkOne_reports (ignores inv List.mem_cons_self) h) fun c c' head => ?_
    refine BothRuns.bind (ih fun other member => ignores other (List.mem_cons_of_mem _ member))
      fun cs cs' tail => ?_
    exact .ok (.cons head tail)

theorem sameChecks_all {cs cs' : List InvariantCheck} (h : List.Forall₂ SameCheck cs cs') :
    cs.all InvariantCheck.satisfied = cs'.all InvariantCheck.satisfied := by
  induction h with
  | nil => rfl
  | cons head _ ih => rw [List.all_cons, List.all_cons, head.2, ih]

theorem sameChecks_violated {cs cs' : List InvariantCheck} (h : List.Forall₂ SameCheck cs cs') :
    (cs.filter fun c => !c.satisfied).map InvariantCheck.invariantId =
      (cs'.filter fun c => !c.satisfied).map InvariantCheck.invariantId := by
  induction h with
  | nil => rfl
  | @cons c c' _ _ head _ ih =>
    obtain ⟨id, sat⟩ := head
    rw [List.filter_cons, List.filter_cons, sat]
    split
    · rw [List.map_cons, List.map_cons, id, ih]
    · exact ih

theorem projectAll_reports (ignores : ∀ inv ∈ invs, inv.IgnoresReports py)
    (h : SelfReportOnly py a b) :
    BothRuns (SameProjection py) (projectAll ctx invs a) (projectAll ctx invs b) := by
  induction invs generalizing a b with
  | nil => exact .ok h
  | cons inv rest ih =>
    have restIgnores := fun other member => ignores other (List.mem_cons_of_mem inv member)
    have moved := (ignores inv List.mem_cons_self).project ctx h
    simp only [projectAll]
    generalize inv.project a ctx = x at moved ⊢
    generalize inv.project b ctx = y at moved ⊢
    cases moved with
    | ok related =>
      refine BothRuns.ite related.isBlocked (.ok related) ?_
      exact BothRuns.bind (ih restIgnores related) fun _ _ last => .ok last
    | error e => exact BothRuns.ite rfl (.ok h.block) (.error e)

/-- Two loop states on the way of two such runs. -/
structure SameLoop (py : Interpreter) (s t : LoopState) : Prop where
  safe : SelfReportOnly py s.safe t.safe
  projected : s.projected = t.projected

theorem projectLoop_reports {shield : Shield}
    (ignores : ∀ inv ∈ shield.invariants, inv.IgnoresReports py) (passes : Nat) {s t : LoopState}
    (h : SameLoop py s t) :
    BothRuns (SameLoop py) (shield.projectLoop ctx passes s) (shield.projectLoop ctx passes t) := by
  induction passes generalizing s t with
  | zero => exact .ok h
  | succ passes ih =>
    refine BothRuns.bind (checkAll_reports ignores h.safe) fun cs cs' checks => ?_
    refine BothRuns.ite (sameChecks_all checks) (.ok h) ?_
    refine BothRuns.bind (projectAll_reports ignores h.safe) fun x y swept => ?_
    exact BothRuns.ite swept.isBlocked (.ok ⟨swept, rfl⟩) (ih ⟨swept, rfl⟩)

/-- What a caller acts on: the verdict, the fallback, and the radio fields. -/
structure SameDecision (d d' : ShieldDisposition) : Prop where
  safe : d.certificate.safe = d'.certificate.safe
  emitBlocked : d.certificate.emitBlocked = d'.certificate.emitBlocked
  projected : d.certificate.projected = d'.certificate.projected
  violatedIds : d.certificate.violatedIds = d'.certificate.violatedIds
  fallbackTo : d.certificate.fallbackTo = d'.certificate.fallbackTo
  block : Dict.get? "block" d.safeAction = Dict.get? "block" d'.safeAction
  frequency : Dict.get? "frequency_hz" d.safeAction = Dict.get? "frequency_hz" d'.safeAction
  txPower : Dict.get? "tx_power_dBm" d.safeAction = Dict.get? "tx_power_dBm" d'.safeAction

theorem certify_reports {shield : Shield}
    (ignores : ∀ inv ∈ shield.invariants, inv.IgnoresReports py) {s t : LoopState}
    (h : SameLoop py s t) (args : DisposeArgs) (text : String) :
    BothRuns SameDecision (shield.certify py a ctx args text s)
      (shield.certify py b ctx args text t) := by
  refine BothRuns.bind (checkAll_reports ignores h.safe) fun cs cs' checks => ?_
  simp only [sameChecks_violated checks, h.safe.isBlocked, h.projected]
  have final : ∀ c : Bool, SelfReportOnly py (if c then block s.safe else s.safe)
      (if c then block t.safe else t.safe) := by
    intro c
    cases c with
    | true => exact h.safe.block
    | false => exact h.safe
  have related := final ((isBlocked t.safe || !((cs'.filter fun c => !c.satisfied).map
    InvariantCheck.invariantId).isEmpty) && !isBlocked t.safe)
  simp only [Shield.blockChangedToClassical,
    related.getD (show "block" ≠ "predicted_tbler" by decide),
    related.getD (show fallbackKey ≠ "predicted_tbler" by decide)]
  refine BothRuns.bind (BothRuns.of_eq rfl) fun changed _ same => ?_
  exact .ok ⟨rfl, rfl, rfl, rfl, rfl, related.others _ (by decide), related.others _ (by decide),
    related.others _ (by decide)⟩

theorem dispose_reports {shield : Shield}
    (ignores : ∀ inv ∈ shield.invariants, inv.IgnoresReports py) (h : SelfReportOnly py a b)
    (context : Option Context) (args : DisposeArgs) :
    BothRuns SameDecision (shield.dispose py a context args)
      (shield.dispose py b context args) := by
  have text : Shield.blockText py a = Shield.blockText py b := by
    rw [Shield.blockText, Shield.blockText, h.getD (by decide)]
  rw [Shield.dispose, Shield.dispose, text]
  refine BothRuns.bind (BothRuns.of_eq rfl) fun text _ same => ?_
  subst same
  refine BothRuns.bind (projectLoop_reports ignores _ ⟨h, rfl⟩) fun s t loop => ?_
  exact certify_reports ignores loop args text

end

/-- The block of the action names a neural receiver. -/
def NeuralBlock (py : Interpreter) (action : Action) : Prop :=
  NeuralRxEnvelope.applies py action = .ok true

/-- How many decibels the measured rate is worse than the baseline, as the envelope
    weighs them: both rates are raised by `eps` first. -/
def degradationDB (py : Interpreter) (base measured : ℚ) : ℚ :=
  -(10 * py.log10 ((base + NeuralRxEnvelope.eps) / (measured + NeuralRxEnvelope.eps)))

section
variable {py : Interpreter} {action : Action} {ctx : Context} {env : NeuralRxEnvelope}

theorem log10_fin {q : ℚ} {x : Number} (h : mathLog10 py (.fin q) = .ok x) :
    x = .fin (py.log10 q) := by
  simp only [mathLog10] at h
  split at h <;> cases h
  rfl

/-- A neural receiver that holds its envelope was graded on the measured rate. -/
theorem graded_of_neural (required : env.requireMeasurement = true)
    (neural : NeuralBlock py action) (h : Holds action ctx (NeuralRxEnvelope.invariant py env)) :
    ∃ base value c, ctx.getD "measured_tbler" .null ≠ .null ∧
      floatField py action "baseline_tbler" zero = .ok base ∧
      (ctx.getD "measured_tbler" .null).toFloat py = .ok value ∧
      env.grade py action base value "measured CRC/HARQ" = .ok c ∧ c.satisfied = true := by
  obtain ⟨c, hc, sat⟩ := h
  obtain ⟨applied, happlied, hc⟩ := bind_eq_ok hc
  rw [neural] at happlied
  cases happlied
  obtain ⟨base, hbase, hc⟩ := bind_eq_ok hc
  obtain ⟨selfReported, _, hc⟩ := bind_eq_ok hc
  cases telemetry : ctx.getD "measured_tbler" .null with
  | null =>
    rw [telemetry] at hc
    simp only [required, if_true] at hc
    cases hc
    cases sat
  | _ =>
    rw [telemetry] at hc
    obtain ⟨value, hvalue, graded⟩ := bind_eq_ok hc
    exact ⟨base, value, c, by simp, hbase, hvalue, graded, sat⟩

/-- A certified neural receiver was measured within the tolerance. -/
theorem degradation_of_neural (required : env.requireMeasurement = true) {v : Value}
    {measured base : ℚ} (telemetry : Dict.get? "measured_tbler" ctx = some v)
    (rate : v.toFloat py = .ok (.fin measured))
    (baseline : floatField py action "baseline_tbler" zero = .ok (.fin base))
    (neural : NeuralBlock py action) (h : Holds action ctx (NeuralRxEnvelope.invariant py env)) :
    Number.lt env.toleranceDB (.fin (degradationDB py base measured)) = false := by
  obtain ⟨base', value, c, _, hbase, hvalue, graded, sat⟩ := graded_of_neural required neural h
  rw [baseline] at hbase
  cases hbase
  rw [Dict.getD, telemetry, Option.getD_some, rate] at hvalue
  cases hvalue
  obtain ⟨ratio, hratio, graded⟩ := bind_eq_ok graded
  obtain ⟨log, hlog, graded⟩ := bind_eq_ok graded
  obtain ⟨confidence, _, graded⟩ := bind_eq_ok graded
  cases graded
  obtain ⟨margin, _⟩ := (Bool.and_eq_true _ _).mp sat
  have logOf : log = .fin (py.log10
      ((base + NeuralRxEnvelope.eps) / (measured + NeuralRxEnvelope.eps))) := by
    simp only [Number.fin_add, Number.div] at hratio
    split at hratio
    · cases hratio
    · cases hratio
      exact log10_fin hlog
  subst logOf
  cases tolerance : env.toleranceDB with
  | nan => rfl
  | inf negative =>
    rw [tolerance] at margin
    cases negative with
    | true => cases margin
    | false => rfl
  | fin t =>
    rw [tolerance] at margin
    simp only [Number.fin_mul, Number.fin_add, Number.le_fin, decide_eq_true_eq] at margin
    simp only [Number.lt_fin, decide_eq_false_iff_not, not_lt, degradationDB]
    linarith

end

/-- Self-reports decide nothing, and a neural receiver is certified only on a
    measurement within the tolerance. -/
structure ReportsBuyNothing (py : Interpreter) (shield : Shield) (toleranceDB : Number)
    (context : Option Context) (args : DisposeArgs) : Prop where
  sameDecision : ∀ a b v w, (∀ key, key ≠ "predicted_tbler" → Dict.get? key a = Dict.get? key b) →
    Dict.get? "predicted_tbler" a = some v → Dict.get? "predicted_tbler" b = some w →
    IsRate py v → IsRate py w →
      BothRuns SameDecision (shield.dispose py a context args) (shield.dispose py b context args)
  unmeasured : (contextOf context).getD "measured_tbler" .null = .null →
    ∀ action d, shield.dispose py action context args = .ok d → d.certificate.safe = true →
      ¬ NeuralBlock py d.safeAction
  degraded : ∀ v measured base, Dict.get? "measured_tbler" (contextOf context) = some v →
    v.toFloat py = .ok (.fin measured) →
    ∀ action, floatField py action "baseline_tbler" zero = .ok (.fin base) →
      Number.lt toleranceDB (.fin (degradationDB py base measured)) = true →
        ∀ d, shield.dispose py action context args = .ok d → d.certificate.safe = true →
          ¬ NeuralBlock py d.safeAction

theorem reportsBuyNothing {py : Interpreter} {shield : Shield} {chain : List InvariantClass}
    (own : OwnChain py shield chain) (measured : ∀ k ∈ chain, k.Measured) {toleranceDB : Number}
    (neural : .neuralRxEnvelope (neuralRx toleranceDB) ∈ chain) (context : Option Context)
    (args : DisposeArgs) : ReportsBuyNothing py shield toleranceDB context args := by
  have envelope : ∀ {action : Action} {d : ShieldDisposition},
      shield.dispose py action context args = .ok d → d.certificate.safe = true →
        Holds d.safeAction (contextOf context)
          (NeuralRxEnvelope.invariant py (neuralRx toleranceDB)) := by
    intro action d h safe
    rcases (Shield.dispose_verdict h).2 with ⟨_, _, holds⟩ | ⟨refused, _⟩
    · apply holds
      rw [own.invariants]
      exact List.mem_map.mpr ⟨_, neural, rfl⟩
    · rw [safe] at refused
      cases refused
  constructor
  · intro a b v w others hv hw rateV rateW
    have ignores : ∀ inv ∈ shield.invariants, inv.IgnoresReports py := by
      intro inv member
      rw [own.invariants] at member
      obtain ⟨k, among, rfl⟩ := List.mem_map.mp member
      exact InvariantClass.ignoresReports py (measured k among)
    exact dispose_reports ignores ⟨others, Or.inr ⟨v, w, hv, hw, rateV, rateW⟩⟩ context args
  · intro absent action d h safe block
    obtain ⟨_, _, _, present, _⟩ := graded_of_neural rfl block (envelope h safe)
    exact present absent
  · intro v rate base telemetry hrate action baseline worse d h safe block
    -- the baseline of the certified action is the proposed one
    have kept := (Shield.dispose_writes own.safe h).getD
      (show "baseline_tbler" ∉ writtenKeys by decide) zero
    have baseline' : floatField py d.safeAction "baseline_tbler" zero = .ok (.fin base) := by
      rw [floatField, kept]
      exact baseline
    have within := degradation_of_neural rfl telemetry hrate baseline' block (envelope h safe)
    rw [neuralRx] at within
    rw [worse] at within
    cases within

/-- Neural self-reports under both default shields. -/
theorem selfReports_buy_nothing (py : Interpreter) (context : Option Context)
    (args : DisposeArgs) :
    (∀ p : TerrestrialParams,
      ReportsBuyNothing py (defaultTerrestrialShield py p) p.neuralRxToleranceDB context args) ∧
    (∀ p : NtnParams,
      ReportsBuyNothing py (defaultNtnShield py p) p.neuralRxToleranceDB context args) := by
  constructor
  · intro p
    exact reportsBuyNothing ⟨terrestrial_invariants py p, terrestrial_noFloor p⟩
      (terrestrial_measured p) (by simp [TerrestrialParams.chain]) context args
  · intro p
    exact reportsBuyNothing ⟨ntn_invariants py p, ntn_noFloor p⟩
      (ntn_measured p) (by simp [NtnParams.chain]) context args

/-- Logarithms of the ratios that very small rates give. -/
def rateInterpreter : Interpreter where
  floatOfStr _ := none
  intOfStr _ := none
  floatRepr _ := ""
  strRepr s := s
  log10 q := if q = 10 then 1 else if q = 1001 / 1010 then -38873 / 10 ^ 7 else 0

def neuralAction : Action :=
  [("block", .str "neural_rx_v2"), ("baseline_tbler", .float (.fin (1 / 10 ^ 12)))] ++ carrierAction

def neuralContext : Context := [("measured_tbler", .float (.fin (1 / 10 ^ 11)))]

/-- A measured rate ten times the baseline, 10 dB worse, is certified under a tolerance
    of 1 dB when both rates are far below `eps`. -/
theorem tenfold_rate_certified :
    Number.lt (testbedParams (.fin 6000000000)).neuralRxToleranceDB
        (.fin (10 * rateInterpreter.log10 ((1 / 10 ^ 11) / (1 / 10 ^ 12)))) = true ∧
      ∃ d, (defaultTerrestrialShield rateInterpreter (testbedParams (.fin 6000000000))).dispose
          rateInterpreter neuralAction (some neuralContext) plainArgs = .ok d ∧
        d.certificate.safe = true ∧ NeuralBlock rateInterpreter d.safeAction := by
  constructor
  · decide +kernel
  · obtain ⟨d, hd, safe, same, _⟩ := Shield.dispose_of_holds
      (defaultTerrestrialShield rateInterpreter (testbedParams (.fin 6000000000)))
      rateInterpreter neuralAction (some neuralContext) plainArgs (by decide)
      (by decide +kernel) (by decide)
    refine ⟨d, hd, safe, ?_⟩
    rw [same, NeuralBlock]
    decide

end HorizonRic
