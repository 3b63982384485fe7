import HorizonRic.Shield.Sweep

/-!
The AI-PHY envelopes settle what the radio projections leave, and no projection
undoes a check before it: one sweep settles every proposal.
-/
namespace HorizonRic
open Py

section
variable {py : Interpreter} {limits : List Number} {start action : Action} {f tx c : ℚ}
  {ctx : Context}

/-- Telemetry of the block error rate is absent, or a finite number that is not negative. -/
def Measured (py : Interpreter) (ctx : Context) : Prop :=
  ctx.getD "measured_tbler" .null = .null ∨
    ∃ q : ℚ, (ctx.getD "measured_tbler" .null).toFloat py = .ok (.fin q) ∧ 0 ≤ q

namespace NeuralRxEnvelope

theorem grade_isOk (env : NeuralRxEnvelope) {base measured confidence : ℚ} (basePos : 0 ≤ base)
    (measuredPos : 0 ≤ measured)
    (reported : floatField py action "demap_confidence" (.float (.fin 1)) = .ok (.fin confidence))
    (src : String) : ∃ check, env.grade py action (.fin base) (.fin measured) src = .ok check := by
  have small : (0 : ℚ) < eps := by norm_num [eps]
  have divisor : measured + eps ≠ 0 := by linarith
  have ratio : 0 < (base + eps) / (measured + eps) := div_pos (by linarith) (by linarith)
  simp only [grade, Number.fin_add, Number.div, divisor, if_false, ok_bind, mathLog10, ratio,
    if_true, reported]
  exact ⟨_, rfl⟩

theorem rate {key : String} {q : ℚ}
    (member : key ∈ ["predicted_tbler", "baseline_tbler", "demap_confidence"])
    (ok : NumericSanity.demand key q = true) : 0 ≤ q ∧ q ≤ 1 := by
  simp only [List.mem_cons, List.not_mem_nil, or_false] at member
  rcases member with rfl | rfl | rfl <;> simpa [NumericSanity.demand] using ok

/-- In the domain the envelope is graded without an exception. -/
theorem evaluate_isOk (env : NeuralRxEnvelope) (swept : Swept py limits start f tx c action)
    (measured : Measured py ctx) : ∃ check, env.evaluate py action ctx = .ok check := by
  obtain ⟨text, prints⟩ := block_prints py swept.printable ""
  obtain ⟨base, readBase, baseOk⟩ := swept.domain.optionalNumber "baseline_tbler"
    (by decide) (show zero.toFloat py = .ok (.fin 0) from rfl) (by decide)
  obtain ⟨self, readSelf, selfOk⟩ := swept.domain.optionalNumber "predicted_tbler"
    (by decide) (show zero.toFloat py = .ok (.fin 0) from rfl) (by decide)
  obtain ⟨confidence, readConfidence, _⟩ := swept.domain.optionalNumber "demap_confidence"
    (by decide) (show (Value.float (.fin 1)).toFloat py = .ok (.fin 1) from rfl) (by decide)
  have basePos := (rate (by decide) baseOk).1
  have selfPos := (rate (by decide) selfOk).1
  simp only [evaluate, applies, prints, ok_bind, readBase, readSelf]
  split
  · split
    · split
      · exact ⟨_, rfl⟩
      · exact env.grade_isOk basePos selfPos readConfidence _
    · rename_i telemetry
      rcases measured with absent | ⟨q, read, positive⟩
      · exact absurd absent telemetry
      · rw [read, ok_bind]
        exact env.grade_isOk basePos positive readConfidence _
  · exact ⟨_, rfl⟩

theorem predicted_fits {q : ℚ} (ok : 0 ≤ q ∧ q ≤ 1) :
    NumericSanity.numberSatisfies py (.float (.fin q)) (NumericSanity.demand "predicted_tbler") =
      true := by
  simp [NumericSanity.numberSatisfies, NumericSanity.number, Value.toFloat, NumericSanity.demand,
    ok.1, ok.2]

theorem fallBack_swept (env : NeuralRxEnvelope) (swept : Swept py limits start f tx c action)
    {q : ℚ} (ok : 0 ≤ q ∧ q ≤ 1) :
    Swept py limits start f tx c (env.fallBack action (.fin q)) := by
  have texts := (swept.setText env.fallbackBlock (Or.inl rfl)).setText env.fallbackBlock (Or.inr rfl)
  apply texts.set "predicted_tbler"
  · decide
  · exact fun _ => predicted_fits ok
  · exact fun order => absurd order (by decide)
  · exact fun block => absurd block (by decide)

theorem holds_of_other {env : NeuralRxEnvelope} {text : String}
    (prints : (action.getD "block" (.str "")).toStr py = .ok text)
    (other : startsWith text "neural_rx" = false) :
    Holds action ctx (NeuralRxEnvelope.invariant py env) := by
  refine ⟨⟨id, true, none, "n/a", "not a neural-RX decision"⟩, ?_, rfl⟩
  simp only [invariant, evaluate, applies, prints, ok_bind, other, Bool.false_eq_true, if_false]

theorem block_of_fallBack (env : NeuralRxEnvelope) (q : ℚ) :
    ((env.fallBack action (.fin q)).getD "block" (.str "")).toStr py = .ok env.fallbackBlock := by
  rw [fallBack, Dict.getD_set_ne _ _ _ (by decide), Dict.getD_set_ne _ _ _ (by decide),
    Dict.getD_set_self]
  rfl

theorem settles {env : NeuralRxEnvelope} (measured : Measured py ctx)
    (classical : startsWith env.fallbackBlock "neural_rx" = false) :
    (NeuralRxEnvelope.invariant py env).Settles (Swept py limits start f tx c) ctx := by
  intro action swept
  obtain ⟨check, evaluated⟩ := env.evaluate_isOk swept measured
  by_cases satisfied : check.satisfied = true
  · refine ⟨action, [], ?_, swept, ⟨check, evaluated, satisfied⟩⟩
    simp only [invariant, project, evaluated, ok_bind, satisfied, if_true]
  · obtain ⟨predicted, readPredicted, predictedOk⟩ := swept.domain.optionalNumber "predicted_tbler"
      (by decide) (show zero.toFloat py = .ok (.fin 0) from rfl) (by decide)
    obtain ⟨q, readBase, baseOk⟩ := swept.domain.optionalNumber "baseline_tbler" (by decide)
      (show (action.getD "predicted_tbler" zero).toFloat py = .ok (.fin predicted) from
        readPredicted) (by simpa [NumericSanity.demand] using predictedOk)
    refine ⟨env.fallBack action (.fin q),
      [⟨id, "hard", check.margin, env.fallbackMessage ctx⟩], ?_,
      env.fallBack_swept swept (rate (by decide) baseOk),
      holds_of_other (env.block_of_fallBack q) classical⟩
    simp only [invariant, project, evaluated, ok_bind, satisfied, Bool.false_eq_true, if_false,
      readBase]
    rfl

end NeuralRxEnvelope

namespace ConstellationLegality
variable {legal : ConstellationLegality}

/-- A constellation order in the domain converts, and prints. -/
theorem order_read (swept : Swept py limits start f tx c action) :
    ∃ n, orderField py action = .ok n ∧ intDigitsOk n = true ∧
      (action.has "constellation_order" = false → n = 0) := by
  have range := floatOverflow_le_intStrLimit
  have low : 256 < floatOverflow := lt_floatOverflow (by decide)
  cases present : Dict.get? "constellation_order" action with
  | none =>
    refine ⟨0, ?_, ?_, fun _ => rfl⟩
    · rw [orderField, Dict.getD, present]
      rfl
    · rw [intDigitsOk, decide_eq_true_eq]
      change 0 < intStrLimit
      omega
  | some v =>
    have has : action.has "constellation_order" = true := (Dict.has_iff _ _).mpr ⟨v, present⟩
    have number := swept.order v present
    have meets := swept.domain.optional "constellation_order" (by decide) has
    obtain ⟨q, read, ok⟩ := (NumericSanity.numberSatisfies_iff py _ _).mp meets
    rw [Dict.getD, present, Option.getD_some] at read
    have field : orderField py action = v.toInt py := by
      rw [orderField, Dict.getD, present]
      rfl
    rw [field, has]
    have small : ∀ n : Int, n.natAbs < floatOverflow → intDigitsOk n = true := by
      intro n less
      rw [intDigitsOk, decide_eq_true_eq]
      omega
    cases v with
    | bool b =>
      refine ⟨_, rfl, small _ ?_, by simp⟩
      cases b
      · change 0 < floatOverflow
        omega
      · change 1 < floatOverflow
        omega
    | int n =>
      refine ⟨n, rfl, small n ?_, by simp⟩
      rw [Value.toFloat] at read
      split at read
      · assumption
      · cases read
    | float x =>
      cases read
      have positive : 0 < q := by
        simp [NumericSanity.demand] at ok
        exact ok.1
      refine ⟨⌊q⌋, ?_, small _ ?_, by simp⟩
      · rw [Value.toInt, Number.toInt, if_neg (not_lt.mpr positive.le)]
      · have bound : |q| < floatOverflow := number
        rw [abs_of_pos positive] at bound
        have floor := (Int.floor_le q).trans_lt bound
        have nonneg : 0 ≤ ⌊q⌋ := Int.floor_nonneg.mpr positive.le
        have cast : ⌊q⌋ < (floatOverflow : Int) := by exact_mod_cast floor
        omega
    | null => exact number.elim
    | str s => exact number.elim
    | list xs => exact number.elim
    | dict entries => exact number.elim

theorem snap_mem (n : Int) : snap n ∈ allowedOrders := by
  have sub : ∀ m ∈ legalLe n, m ∈ allowedOrders := by
    intro m member
    simp only [legalLe] at member
    split at member
    · rw [List.mem_singleton.mp member]
      decide
    · exact List.mem_of_mem_filter member
  rw [snap]
  cases largest : (legalLe n).max? with
  | none => decide
  | some m => exact sub m (List.max?_mem largest)

theorem order_fits {n : Int} (allowed : n ∈ allowedOrders) :
    NumericSanity.numberSatisfies py (.int n) (NumericSanity.demand "constellation_order") =
      true := by
  have low : 256 < floatOverflow := lt_floatOverflow (by decide)
  have range : 0 < n ∧ n.natAbs < floatOverflow := by
    simp only [allowedOrders, List.mem_cons, List.not_mem_nil, or_false] at allowed
    omega
  simp [NumericSanity.numberSatisfies, NumericSanity.number, Value.toFloat, NumericSanity.demand,
    Number.isInteger, range.1, range.2]

theorem fallBack_swept (swept : Swept py limits start f tx c action) :
    Swept py limits start f tx c (legal.fallBack action) :=
  (swept.setText legal.fallbackBlock (Or.inl rfl)).setText legal.fallbackBlock (Or.inr rfl)

theorem fallBack_get? {key : String} (block : "block" ≠ key) (fallback : fallbackKey ≠ key) :
    Dict.get? key (legal.fallBack action) = Dict.get? key action := by
  rw [fallBack, Dict.get?_set_ne _ _ fallback, Dict.get?_set_ne _ _ block]

theorem applies_of_has (present : action.has "constellation_order" = true) :
    applies py action = .ok true := by
  rw [applies, if_pos present]

/-- A legal order and a PAPR under the bound. -/
theorem holds_of {n : Int} {papr : ℚ} (present : action.has "constellation_order" = true)
    (order : orderField py action = .ok n) (allowed : n ∈ allowedOrders)
    (read : floatField py action "papr_dB" zero = .ok (.fin papr))
    (within : Number.le (.fin papr) legal.maxPaprDB = true) :
    Holds action ctx (ConstellationLegality.invariant py legal) := by
  have digits : intDigitsOk n = true := by
    have low : 256 < floatOverflow := lt_floatOverflow (by decide)
    have range := floatOverflow_le_intStrLimit
    rw [intDigitsOk, decide_eq_true_eq]
    simp only [allowedOrders, List.mem_cons, List.not_mem_nil, or_false] at allowed
    omega
  have margin : Number.le (.fin 0) (legal.maxPaprDB - .fin papr) = true := by
    rw [Number.zero_le_sub_fin]
    exact within
  simp only [Holds, invariant, evaluate, applies_of_has present, ok_bind, order, read, intStr,
    digits, if_true, allowed, margin, decide_true, Bool.and_self]
  exact ⟨_, rfl, rfl⟩

theorem snapOrder_settles (legal : ConstellationLegality)
    (swept : Swept py limits start f tx c action) :
    ∃ next corr n, legal.snapOrder py action = .ok (next, corr) ∧
      Swept py limits start f tx c next ∧ next.has "constellation_order" = true ∧
      orderField py next = .ok n ∧ n ∈ allowedOrders := by
  obtain ⟨n, order, digits, missing⟩ := order_read swept
  by_cases allowed : n ∈ allowedOrders
  · refine ⟨action, [], n, ?_, swept, ?_, order, allowed⟩
    · simp only [snapOrder, order, ok_bind, allowed, if_true]
    · -- an absent order reads as 0, which is not allowed
      cases present : action.has "constellation_order" with
      | true => rfl
      | false =>
        rw [missing present] at allowed
        exact absurd allowed (by decide)
  · have snapped := swept.set "constellation_order" (.int (snap n)) (by decide)
      (fun _ => order_fits (snap_mem n)) (fun _ => trivial) (fun block => absurd block (by decide))
    have read : Dict.get? "constellation_order"
        (legal.fallBack (action.set "constellation_order" (.int (snap n)))) =
          some (.int (snap n)) := by
      rw [fallBack_get? (by decide) (by decide), Dict.get?_set_self]
    obtain ⟨corr, moved⟩ : ∃ corr, legal.snapOrder py action =
        .ok (legal.fallBack (action.set "constellation_order" (.int (snap n))), corr) := by
      simp only [snapOrder, order, ok_bind, allowed, if_false, intStr, digits, if_true]
      exact ⟨_, rfl⟩
    refine ⟨_, corr, snap n, moved, fallBack_swept snapped, ?_, ?_, snap_mem n⟩
    · rw [Dict.has, read]
      rfl
    · rw [orderField, Dict.getD, read]
      rfl

/-- A ceiling that is not negative holds, or is a number that is exceeded. -/
theorem within_or_exceeded {ceiling : Number} (bound : Number.le (.fin 0) ceiling = true) (q : ℚ) :
    (Number.lt ceiling (.fin q) = false ∧ Number.le (.fin q) ceiling = true) ∨
      ∃ m : ℚ, ceiling = .fin m ∧ 0 ≤ m ∧ Number.lt ceiling (.fin q) = true := by
  cases ceiling with
  | nan => cases bound
  | inf negative =>
    cases negative with
    | true => cases bound
    | false => exact Or.inl ⟨rfl, rfl⟩
  | fin m =>
    by_cases exceeded : m < q
    · exact Or.inr ⟨m, rfl, of_decide_eq_true bound, decide_eq_true exceeded⟩
    · exact Or.inl ⟨decide_eq_false exceeded, decide_eq_true (not_lt.mp exceeded)⟩

theorem clipPapr_settles (legal : ConstellationLegality) (ctx : Context)
    (swept : Swept py limits start f tx c action) {n : Int}
    (bound : Number.le (.fin 0) legal.maxPaprDB = true)
    (present : action.has "constellation_order" = true)
    (order : orderField py action = .ok n) (allowed : n ∈ allowedOrders) :
    ∃ next corr, legal.clipPapr py action = .ok (next, corr) ∧
      Swept py limits start f tx c next ∧
      Holds next ctx (ConstellationLegality.invariant py legal) := by
  obtain ⟨papr, read, _⟩ := swept.domain.optionalNumber "papr_dB" (by decide)
    (show zero.toFloat py = .ok (.fin 0) from rfl) (by decide)
  rcases within_or_exceeded bound papr with ⟨exceeds, within⟩ | ⟨m, ceiling, nonneg, exceeds⟩
  · refine ⟨action, [], ?_, swept, holds_of present order allowed read within⟩
    simp only [clipPapr, read, ok_bind, exceeds, Bool.false_eq_true, if_false]
  · have clipped := swept.set "papr_dB" (.float legal.maxPaprDB) (by decide)
      (fun _ => by
        simp [ceiling, NumericSanity.numberSatisfies, NumericSanity.number, Value.toFloat,
          NumericSanity.demand, nonneg])
      (fun order => absurd order (by decide)) (fun block => absurd block (by decide))
    have kept : Dict.get? "constellation_order"
        (legal.fallBack (action.set "papr_dB" (.float legal.maxPaprDB))) =
          Dict.get? "constellation_order" action := by
      rw [fallBack_get? (by decide) (by decide), Dict.get?_set_ne _ _ (by decide)]
    have papr' : floatField py (legal.fallBack (action.set "papr_dB" (.float legal.maxPaprDB)))
        "papr_dB" zero = .ok (.fin m) := by
      rw [floatField, Dict.getD, fallBack_get? (by decide) (by decide), Dict.get?_set_self, ceiling]
      rfl
    obtain ⟨corr, moved⟩ : ∃ corr, legal.clipPapr py action =
        .ok (legal.fallBack (action.set "papr_dB" (.float legal.maxPaprDB)), corr) := by
      simp only [clipPapr, read, ok_bind, exceeds, if_true]
      exact ⟨_, rfl⟩
    refine ⟨_, corr, moved, fallBack_swept clipped, holds_of ?_ ?_ allowed papr' ?_⟩
    · rw [has_of_get? kept]
      exact present
    · rw [orderField, getD_of_get? kept]
      exact order
    · rw [ceiling, Number.le_fin]
      exact decide_eq_true (le_refl m)

theorem settles (bound : Number.le (.fin 0) legal.maxPaprDB = true) :
    (ConstellationLegality.invariant py legal).Settles (Swept py limits start f tx c) ctx := by
  intro action swept
  obtain ⟨text, prints⟩ := block_prints py swept.printable ""
  obtain ⟨applied, answers⟩ : ∃ applied, applies py action = .ok applied := by
    rw [applies]
    split
    · exact ⟨_, rfl⟩
    · rw [prints, ok_bind]
      exact ⟨_, rfl⟩
  cases applied with
  | false =>
    refine ⟨action, [], ?_, swept, ⟨id, true, none, "n/a", "no constellation in decision"⟩, ?_, rfl⟩
    · simp only [invariant, project, answers, ok_bind, Bool.false_eq_true, if_false]
    · simp only [invariant, evaluate, answers, ok_bind, Bool.false_eq_true, if_false]
  | true =>
    obtain ⟨mid, midCorr, n, snapped, midSwept, present, order, allowed⟩ :=
      legal.snapOrder_settles swept
    obtain ⟨next, corr, clipped, last, holds⟩ :=
      legal.clipPapr_settles ctx midSwept bound present order allowed
    refine ⟨next, midCorr ++ corr, ?_, last, holds⟩
    simp only [invariant, project, answers, ok_bind, if_true, snapped, clipped]

end ConstellationLegality

/-! No projection undoes a check before it. -/

variable {mask : SpectralMask} {bw gain satGain slant : ℚ} {P : Action → Prop} {inv : Invariant}

theorem spares_domain (settles : inv.Settles (Swept py limits start f tx c) ctx) :
    inv.Spares (Swept py limits start f tx c) ctx (NumericSanity.invariant py) := by
  intro action next corr swept projected _
  obtain ⟨next', corr', projected', kept, _⟩ := settles action swept
  rw [projected] at projected'
  cases projected'
  exact (NumericSanity.holds_iff py).mpr kept.domain

theorem spares_frame {keys : List String} (writes : inv.Respects (Dict.SameOutside keys))
    (k : InvariantClass) (apart : ∀ key ∈ k.reads, key ∉ keys) :
    inv.Spares P ctx (k.invariant py) := by
  intro action next corr _ projected holds
  exact k.holds_frame py holds (writes _ _ _ _ projected) apart

theorem PowerOnly.sameOutside {next : Action} (h : PowerOnly action next) :
    Dict.SameOutside ["tx_power_dBm"] action next := by
  rcases h with rfl | ⟨tx, rfl⟩
  · exact .refl _ _
  · exact (Dict.SameOutside.refl _ _).set List.mem_cons_self _

theorem eirp_writes (cap : MaxEirp) :
    (MaxEirp.invariant py cap).Respects (Dict.SameOutside ["tx_power_dBm"]) := by
  intro action ctx next corr projected
  exact (MaxEirp.project_cases py cap ctx projected).sameOutside

theorem pfd_writes (cap : PfdCeiling) :
    (PfdCeiling.invariant py cap).Respects (Dict.SameOutside ["tx_power_dBm"]) := by
  intro action ctx next corr projected
  exact (PfdCeiling.project_cases py cap ctx projected).sameOutside

theorem neural_writes (env : NeuralRxEnvelope) : (NeuralRxEnvelope.invariant py env).Respects
    (Dict.SameOutside ["block", fallbackKey, "predicted_tbler"]) := by
  intro action ctx next corr projected
  rcases NeuralRxEnvelope.project_cases py env ctx projected with ⟨rfl, _⟩ | ⟨predicted, rfl⟩
  · exact .refl _ _
  · exact (((Dict.SameOutside.refl _ _).set (by simp) _).set (by simp) _).set (by simp) _

theorem repaired_writes {legal : ConstellationLegality} {next : Action}
    (h : legal.Repaired action next) :
    Dict.SameOutside ["constellation_order", "papr_dB", "block", fallbackKey] action next := by
  rcases h with rfl | ⟨key, value, field, rfl⟩
  · exact .refl _ _
  · have member : key ∈ ["constellation_order", "papr_dB", "block", fallbackKey] := by
      rcases field with rfl | rfl <;> simp
    exact (((Dict.SameOutside.refl _ _).set member _).set (by simp) _).set (by simp) _

theorem constellation_writes (legal : ConstellationLegality) :
    (ConstellationLegality.invariant py legal).Respects
      (Dict.SameOutside ["constellation_order", "papr_dB", "block", fallbackKey]) := by
  intro action ctx next corr projected
  obtain ⟨snapped, first, second⟩ := ConstellationLegality.project_cases py legal ctx projected
  exact (repaired_writes first).trans (repaired_writes second)

/-- A lower power meets the EIRP ceiling that a higher one met. -/
theorem pfd_spares_eirp (proposed : Proposed py mask start f bw tx gain)
    (downlink : PfdCeiling.applies start = true → Downlink py start satGain slant bw)
    {cap : MaxEirp} {density : PfdCeiling} (real : PfdCeiling.applies start = true →
      density.maxPfd ≠ .nan ∧ density.maxPfd ≠ .inf true) :
    (PfdCeiling.invariant py density).Spares (Swept py limits start f tx c) ctx
      (MaxEirp.invariant py cap) := by
  intro action next corr swept projected holds
  cases applied : PfdCeiling.applies start with
  | false =>
    have skipped : PfdCeiling.applies action = false := by
      rw [PfdCeiling.applies, swept.kept.getD (by decide)]
      exact applied
    simp only [PfdCeiling.invariant, PfdCeiling.project, skipped, Bool.false_eq_true,
      if_false] at projected
    cases projected
    exact holds
  | true =>
    obtain ⟨t, power, _⟩ := swept.power
    have antenna : floatField py action "antenna_gain_dBi" zero = .ok (.fin gain) := by
      rw [swept.read (by decide)]
      exact proposed.antenna
    have link := downlink applied
    have computed := link.computePfd swept.kept power
    rcases PfdCeiling.project_eq py ctx (link.applies swept.kept) power computed rfl
      (real applied) with ⟨same, _⟩ | ⟨q, corr', _, less, _, lowered⟩
    · rw [show (PfdCeiling.invariant py density).project action ctx = _ from same] at projected
      cases projected
      exact holds
    · rw [show (PfdCeiling.invariant py density).project action ctx = _ from lowered] at projected
      cases projected
      have antenna' : floatField py (action.set "tx_power_dBm" (.float (.fin q)))
          "antenna_gain_dBi" zero = .ok (.fin gain) := by
        rw [floatField_set_ne (by decide)]
        exact antenna
      rw [MaxEirp.holds_iff py (floatField_set_self _) antenna']
      refine Number.le_trans ?_ ((MaxEirp.holds_iff py power antenna).mp holds)
      rw [Number.le_fin, decide_eq_true_eq]
      linarith

/-- A repaired constellation runs on a classical block. -/
theorem constellation_spares_neural {legal : ConstellationLegality} {env : NeuralRxEnvelope}
    (classical : startsWith legal.fallbackBlock "neural_rx" = false) :
    (ConstellationLegality.invariant py legal).Spares P ctx
      (NeuralRxEnvelope.invariant py env) := by
  have repaired : ∀ {a b : Action}, legal.Repaired a b →
      Holds a ctx (NeuralRxEnvelope.invariant py env) →
        Holds b ctx (NeuralRxEnvelope.invariant py env) := by
    rintro a b (rfl | ⟨key, value, _, rfl⟩) holds
    · exact holds
    · refine NeuralRxEnvelope.holds_of_other ?_ classical
      rw [ConstellationLegality.fallBack, Dict.getD_set_ne _ _ _ (by decide), Dict.getD_set_self]
      rfl
  intro action next corr _ projected holds
  obtain ⟨snapped, first, second⟩ := ConstellationLegality.project_cases py legal ctx projected
  exact repaired second (repaired first holds)

end

end HorizonRic
