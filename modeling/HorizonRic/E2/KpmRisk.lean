import HorizonRic.Python.JsonCanonical
import HorizonRic.Python.Rounding

/-!
`e2/kpm_bridge.py`: the risk of a KPM report, the greatest of its clamped contributions.
The clamp leaves a NaN as it is, so a mapped metric that is NaN breaks the bound.
-/
namespace HorizonRic.KpmBridge

open Py

def delayBudgetMs : ℚ := 50
def throughputFloorKbps : ℚ := 10000
def volumeReferenceKbit : ℚ := 100000
def riskFloor : Number := .fin (1 / 20)

def clamp01 (v : Number) : Number := Number.min (Number.max v (.fin 0)) (.fin 1)

section
variable (r : Rounding)

/-- A load, a delay or a volume against its reference. -/
def loadRisk (reference : ℚ) (v : Number) : Number := clamp01 (r.divBy v reference)

def prbRisk : Number → Number := loadRisk r 100
def delayRisk : Number → Number := loadRisk r delayBudgetMs
def volumeRisk : Number → Number := loadRisk r volumeReferenceKbit

def throughputRisk (v : Number) : Number :=
  clamp01 (r.sub (.fin 1) (r.divBy v throughputFloorKbps))

/-- The mapped metrics, in the order of their contributions. -/
def riskMapping : List (String × (Number → Number)) :=
  [("RRU.PrbTotDl", prbRisk r), ("DRB.RlcSduDelayDl", delayRisk r),
    ("DRB.UEThpDl", throughputRisk r), ("DRB.PdcpSduVolumeDL", volumeRisk r),
    ("DRB.RlcSduTransmittedVolumeDL", volumeRisk r)]

def riskContributions (measurements : Dict Number) : Dict Number :=
  (riskMapping r).filterMap fun (name, risk) =>
    (Dict.get? name measurements).map fun v => (name, risk v)

/-- `max` by the contribution: a later one wins only when it is greater. -/
def dominant (first : String × Number) (rest : Dict Number) : String × Number :=
  rest.foldl (fun best entry => if Number.lt best.2 entry.2 then entry else best) first

/-- The risk, the metric it comes from, and the contributions. -/
structure SlaRisk where
  risk : Number
  metric : Option String
  contributions : Dict Number

def deriveSlaRisk (measurements : Dict Number) : SlaRisk :=
  match riskContributions r measurements with
  | [] => ⟨riskFloor, none, []⟩
  | first :: rest =>
    let metric := dominant first rest
    ⟨metric.2, some metric.1, first :: rest⟩

end

/-! The clamp. -/

/-- Within the bounds, and known. -/
def InUnit (v : Number) : Prop := ∃ q : ℚ, v = .fin q ∧ 0 ≤ q ∧ q ≤ 1

theorem InUnit.bounds {v : Number} (inside : InUnit v) :
    Number.le (.fin 0) v = true ∧ Number.le v (.fin 1) = true := by
  obtain ⟨q, rfl, low, high⟩ := inside
  exact ⟨decide_eq_true low, decide_eq_true high⟩

theorem clamp01_fin (q : ℚ) : clamp01 (.fin q) = .fin (min (max q 0) 1) := by
  rw [clamp01, Number.max_fin, Number.min_fin]

theorem clamp01_inUnit {v : Number} (known : v ≠ .nan) : InUnit (clamp01 v) := by
  cases v with
  | nan => exact absurd rfl known
  | inf negative =>
    cases negative with
    | true => exact ⟨min 0 1, Number.min_fin 0 1, by norm_num, by norm_num⟩
    | false => exact ⟨1, rfl, zero_le_one, le_rfl⟩
  | fin q =>
    exact ⟨_, clamp01_fin q, le_min (le_max_right q 0) zero_le_one, min_le_right _ _⟩

theorem clamp01_mono {x y : Number} (le : Number.le x y = true) :
    Number.le (clamp01 x) (clamp01 y) = true := by
  have unknown : ∀ z : Number, Number.le z .nan ≠ true := by simp
  have knownLeft : x ≠ .nan := by
    rintro rfl
    cases le
  have knownRight : y ≠ .nan := by
    rintro rfl
    exact unknown x le
  obtain ⟨p, clampedLeft, lowLeft, highLeft⟩ := clamp01_inUnit knownLeft
  obtain ⟨q, clampedRight, lowRight, highRight⟩ := clamp01_inUnit knownRight
  by_cases bottom : x = .inf true
  · have least : clamp01 (.inf true) = .fin (min 0 1) := Number.min_fin 0 1
    rw [bottom, least, clampedRight]
    exact decide_eq_true ((min_le_left 0 1).trans lowRight)
  · by_cases top : y = .inf false
    · have greatest : clamp01 (.inf false) = .fin 1 := rfl
      rw [top, greatest, clampedLeft]
      exact decide_eq_true highLeft
    · obtain ⟨a, b, rfl, rfl⟩ := Number.fin_of_le le bottom top
      rw [clamp01_fin, clamp01_fin]
      exact decide_eq_true (min_le_min (max_le_max (of_decide_eq_true le) le_rfl) le_rfl)

/-! The contributions. -/

section
variable {r : Rounding}

/-- A metric gets worse: a load, a delay or a volume grows, or the throughput falls. -/
def Worse (metric : String) (v v' : Number) : Prop :=
  if metric = "DRB.UEThpDl" then Number.le v' v = true else Number.le v v' = true

theorem mapped_known {name : String} {risk : Number → Number}
    (mapped : (name, risk) ∈ riskMapping r) {v : Number} (known : v ≠ .nan) : InUnit (risk v) := by
  have quotient : ∀ reference, r.divBy v reference ≠ .nan := Rounding.divBy_ne_nan known
  simp only [riskMapping, List.mem_cons, List.not_mem_nil, or_false, Prod.mk.injEq] at mapped
  rcases mapped with ⟨rfl, rfl⟩ | ⟨rfl, rfl⟩ | ⟨rfl, rfl⟩ | ⟨rfl, rfl⟩ | ⟨rfl, rfl⟩
  · exact clamp01_inUnit (quotient _)
  · exact clamp01_inUnit (quotient _)
  · exact clamp01_inUnit (Rounding.fin_sub_ne_nan 1 (quotient _))
  · exact clamp01_inUnit (quotient _)
  · exact clamp01_inUnit (quotient _)

theorem mapped_nan {name : String} {risk : Number → Number}
    (mapped : (name, risk) ∈ riskMapping r) : risk .nan = .nan := by
  simp only [riskMapping, List.mem_cons, List.not_mem_nil, or_false, Prod.mk.injEq] at mapped
  rcases mapped with ⟨rfl, rfl⟩ | ⟨rfl, rfl⟩ | ⟨rfl, rfl⟩ | ⟨rfl, rfl⟩ | ⟨rfl, rfl⟩ <;> rfl

theorem loadRisk_mono {reference : ℚ} (positive : 0 < reference) {v v' : Number}
    (le : Number.le v v' = true) :
    Number.le (loadRisk r reference v) (loadRisk r reference v') = true :=
  clamp01_mono (Rounding.divBy_mono positive le)

theorem throughputRisk_anti {v v' : Number} (le : Number.le v' v = true) :
    Number.le (throughputRisk r v) (throughputRisk r v') = true :=
  clamp01_mono (Rounding.fin_sub_anti 1
    (Rounding.divBy_mono (by norm_num [throughputFloorKbps]) le))

theorem mapped_worse {name : String} {risk : Number → Number}
    (mapped : (name, risk) ∈ riskMapping r) {v v' : Number} (worse : Worse name v v') :
    Number.le (risk v) (risk v') = true := by
  simp only [riskMapping, List.mem_cons, List.not_mem_nil, or_false, Prod.mk.injEq] at mapped
  rcases mapped with ⟨rfl, rfl⟩ | ⟨rfl, rfl⟩ | ⟨rfl, rfl⟩ | ⟨rfl, rfl⟩ | ⟨rfl, rfl⟩
  · exact loadRisk_mono (by norm_num) worse
  · exact loadRisk_mono (by norm_num [delayBudgetMs]) worse
  · exact throughputRisk_anti worse
  · exact loadRisk_mono (by norm_num [volumeReferenceKbit]) worse
  · exact loadRisk_mono (by norm_num [volumeReferenceKbit]) worse

theorem mem_riskContributions {measurements : Dict Number} {entry : String × Number} :
    entry ∈ riskContributions r measurements ↔ ∃ risk v, (entry.1, risk) ∈ riskMapping r ∧
      Dict.get? entry.1 measurements = some v ∧ entry.2 = risk v := by
  rw [riskContributions, List.mem_filterMap]
  constructor
  · rintro ⟨⟨name, risk⟩, mapped, some_⟩
    obtain ⟨v, found, rfl⟩ := Option.map_eq_some_iff.mp some_
    exact ⟨risk, v, mapped, found, rfl⟩
  · rintro ⟨risk, v, mapped, found, value⟩
    refine ⟨(entry.1, risk), mapped, ?_⟩
    dsimp only
    rw [found, Option.map_some, ← value]

/-! The greatest contribution. -/

/-- One step of `max`: the greater of two contributions, the earlier one when they are equal. -/
theorem greater_spec {first next : String × Number} (firstKnown : InUnit first.2)
    (nextKnown : InUnit next.2) {best : String × Number}
    (chosen : best = if Number.lt first.2 next.2 then next else first) :
    (best = first ∨ best = next) ∧ Number.le first.2 best.2 = true ∧
      Number.le next.2 best.2 = true := by
  obtain ⟨p, firstValue, _⟩ := firstKnown
  obtain ⟨q, nextValue, _⟩ := nextKnown
  have exceeds : Number.lt first.2 next.2 = true ↔ p < q := by
    rw [firstValue, nextValue, Number.lt_fin, decide_eq_true_iff]
  by_cases greater : p < q
  · rw [if_pos (exceeds.mpr greater)] at chosen
    subst chosen
    refine ⟨Or.inr rfl, Number.le_of_lt (exceeds.mpr greater), ?_⟩
    rw [nextValue]
    exact decide_eq_true le_rfl
  · rw [if_neg (exceeds.not.mpr greater)] at chosen
    subst chosen
    rw [firstValue, nextValue]
    exact ⟨Or.inl rfl, decide_eq_true le_rfl, decide_eq_true (not_lt.mp greater)⟩

theorem dominant_spec {first : String × Number} {rest : Dict Number}
    (known : ∀ entry ∈ first :: rest, InUnit entry.2) :
    dominant first rest ∈ first :: rest ∧
      ∀ entry ∈ first :: rest, Number.le entry.2 (dominant first rest).2 = true := by
  induction rest generalizing first with
  | nil =>
    refine ⟨List.mem_cons_self, fun entry member => ?_⟩
    obtain rfl := List.mem_singleton.mp member
    obtain ⟨q, value, _⟩ := known entry List.mem_cons_self
    rw [dominant, List.foldl_nil, value]
    exact decide_eq_true le_rfl
  | cons next rest ih =>
    have nextIn : next ∈ first :: next :: rest := List.mem_cons_of_mem _ List.mem_cons_self
    obtain ⟨best, chosen⟩ : ∃ best, best = if Number.lt first.2 next.2 then next else first :=
      ⟨_, rfl⟩
    have unfolded : dominant first (next :: rest) = dominant best rest := by
      rw [chosen]
      rfl
    obtain ⟨which, overFirst, overNext⟩ :=
      greater_spec (known first List.mem_cons_self) (known next nextIn) chosen
    have bestIn : best ∈ first :: next :: rest := by
      rcases which with rfl | rfl
      · exact List.mem_cons_self
      · exact nextIn
    have bestKnown : ∀ entry ∈ best :: rest, InUnit entry.2 := by
      intro entry member
      rcases List.mem_cons.mp member with rfl | among
      · exact known _ bestIn
      · exact known entry (List.mem_cons_of_mem _ (List.mem_cons_of_mem _ among))
    obtain ⟨inside, greatest⟩ := ih bestKnown
    have top := greatest best List.mem_cons_self
    rw [unfolded]
    constructor
    · rcases List.mem_cons.mp inside with same | among
      · rw [same]
        exact bestIn
      · exact List.mem_cons_of_mem _ (List.mem_cons_of_mem _ among)
    · intro entry member
      rcases List.mem_cons.mp member with rfl | among
      · exact Number.le_trans overFirst top
      · rcases List.mem_cons.mp among with rfl | among
        · exact Number.le_trans overNext top
        · exact greatest entry (List.mem_cons_of_mem _ among)

/-! The risk. -/

variable {measurements : Dict Number}

/-- No mapped metric is NaN. -/
def Known (r : Rounding) (measurements : Dict Number) : Prop :=
  ∀ metric ∈ (riskMapping r).map Prod.fst, Dict.get? metric measurements ≠ some .nan

theorem Known.inUnit (known : Known r measurements) :
    ∀ entry ∈ riskContributions r measurements, InUnit entry.2 := by
  intro entry member
  obtain ⟨risk, v, mapped, found, value⟩ := mem_riskContributions.mp member
  rw [value]
  refine mapped_known mapped ?_
  rintro rfl
  exact known entry.1 (List.mem_map_of_mem mapped) found

/-- The risk of a report without a mapped metric, and of any other one. -/
theorem deriveSlaRisk_cases (known : Known r measurements) :
    riskContributions r measurements = [] ∧ deriveSlaRisk r measurements = ⟨riskFloor, none, []⟩ ∨
      (∃ entry ∈ riskContributions r measurements,
        (deriveSlaRisk r measurements).risk = entry.2) ∧
      (deriveSlaRisk r measurements).contributions = riskContributions r measurements ∧
      ∀ entry ∈ riskContributions r measurements,
        Number.le entry.2 (deriveSlaRisk r measurements).risk = true := by
  have inUnit := known.inUnit
  rw [deriveSlaRisk]
  cases listed : riskContributions r measurements with
  | nil => exact Or.inl ⟨rfl, rfl⟩
  | cons first rest =>
    rw [listed] at inUnit
    obtain ⟨inside, greatest⟩ := dominant_spec inUnit
    exact Or.inr ⟨⟨_, inside, rfl⟩, rfl, greatest⟩

theorem known_set (known : Known r measurements) {metric : String} {v v' : Number}
    (worse : Worse metric v v') : Known r (Dict.set metric v' measurements) := by
  have known' : v' ≠ .nan := by
    rintro rfl
    unfold Worse at worse
    split at worse
    · cases worse
    · simp at worse
  intro other mapped
  by_cases same : other = metric
  · subst same
    rw [Dict.get?_set_self]
    exact fun impossible => known' (Option.some.inj impossible)
  · rw [Dict.get?_set_ne _ _ (Ne.symm same)]
    exact known other mapped

/-- Every contribution has one that is not smaller once a metric has got worse. -/
theorem contribution_worse {metric : String} {v v' : Number}
    (present : Dict.get? metric measurements = some v) (worse : Worse metric v v')
    (known : Known r measurements) {entry : String × Number}
    (member : entry ∈ riskContributions r measurements) :
    ∃ entry' ∈ riskContributions r (Dict.set metric v' measurements),
      Number.le entry.2 entry'.2 = true := by
  obtain ⟨risk, old, mapped, found, value⟩ := mem_riskContributions.mp member
  by_cases same : entry.1 = metric
  · refine ⟨(entry.1, risk v'), mem_riskContributions.mpr ⟨risk, v', mapped, ?_, rfl⟩, ?_⟩
    · dsimp only
      rw [same, Dict.get?_set_self]
    · rw [same, present] at found
      cases found
      rw [value]
      exact mapped_worse mapped (same ▸ worse)
  · refine ⟨entry, mem_riskContributions.mpr ⟨risk, old, mapped, ?_, value⟩, ?_⟩
    · rw [Dict.get?_set_ne _ _ (Ne.symm same)]
      exact found
    · obtain ⟨q, fin, _⟩ := known.inUnit entry member
      rw [fin]
      exact decide_eq_true le_rfl

theorem risk_worse (known : Known r measurements) {metric : String}
    (mapped : metric ∈ (riskMapping r).map Prod.fst) {v v' : Number}
    (present : Dict.get? metric measurements = some v) (worse : Worse metric v v') :
    Number.le (deriveSlaRisk r measurements).risk
      (deriveSlaRisk r (Dict.set metric v' measurements)).risk = true := by
  rcases deriveSlaRisk_cases known with ⟨empty, _⟩ | ⟨⟨entry, member, risk⟩, _, _⟩
  · obtain ⟨pair, listed, rfl⟩ := List.mem_map.mp mapped
    have contributes : (pair.1, pair.2 v) ∈ riskContributions r measurements :=
      mem_riskContributions.mpr ⟨pair.2, v, listed, present, rfl⟩
    rw [empty] at contributes
    cases contributes
  · obtain ⟨entry', member', le⟩ := contribution_worse present worse known member
    rcases deriveSlaRisk_cases (known_set known worse) with ⟨empty, _⟩ | ⟨_, _, greatest⟩
    · rw [empty] at member'
      cases member'
    · rw [risk]
      exact Number.le_trans le (greatest entry' member')

/-- The risk is a bounded worst signal. -/
structure WorstSignal (r : Rounding) (measurements : Dict Number) : Prop where
  bounded : Number.le (.fin 0) (deriveSlaRisk r measurements).risk = true ∧
    Number.le (deriveSlaRisk r measurements).risk (.fin 1) = true
  worst : ∀ entry ∈ (deriveSlaRisk r measurements).contributions,
    Number.le entry.2 (deriveSlaRisk r measurements).risk = true
  orderFree : ∀ reordered, measurements.Perm reordered →
    deriveSlaRisk r reordered = deriveSlaRisk r measurements
  monotone : ∀ metric ∈ (riskMapping r).map Prod.fst, ∀ v v',
    Dict.get? metric measurements = some v → Worse metric v v' →
      Number.le (deriveSlaRisk r measurements).risk
        (deriveSlaRisk r (Dict.set metric v' measurements)).risk = true

theorem deriveSlaRisk_perm (distinct : (measurements.map Prod.fst).Nodup)
    {reordered : Dict Number} (perm : measurements.Perm reordered) :
    deriveSlaRisk r reordered = deriveSlaRisk r measurements := by
  have same : riskContributions r reordered = riskContributions r measurements := by
    rw [riskContributions, riskContributions]
    simp only [Dict.get?_perm perm distinct]
  rw [deriveSlaRisk, deriveSlaRisk, same]

/-- A NaN is among the contributions, and nothing is at least a NaN. -/
theorem known_of_worst (worst : ∀ entry ∈ (deriveSlaRisk r measurements).contributions,
    Number.le entry.2 (deriveSlaRisk r measurements).risk = true) : Known r measurements := by
  intro metric mapped unknown
  obtain ⟨⟨name, risk⟩, listed, rfl⟩ := List.mem_map.mp mapped
  have contributes : (name, Number.nan) ∈ riskContributions r measurements :=
    mem_riskContributions.mpr ⟨risk, .nan, listed, unknown, (mapped_nan listed).symm⟩
  have reported : (deriveSlaRisk r measurements).contributions =
      riskContributions r measurements := by
    rw [deriveSlaRisk]
    cases riskContributions r measurements with
    | nil => rfl
    | cons first rest => rfl
  cases worst (name, .nan) (reported ▸ contributes)

end

/-- The risk of a report is a bounded worst signal exactly when no mapped metric is NaN. -/
theorem worstSignal_iff (r : Rounding) (measurements : Dict Number)
    (distinct : (measurements.map Prod.fst).Nodup) :
    WorstSignal r measurements ↔ Known r measurements := by
  constructor
  · exact fun signal => known_of_worst signal.worst
  · intro known
    have orderFree := fun reordered (perm : measurements.Perm reordered) =>
      deriveSlaRisk_perm (r := r) distinct perm
    have monotone := fun metric (mapped : metric ∈ (riskMapping r).map Prod.fst) v v'
      (present : Dict.get? metric measurements = some v) (worse : Worse metric v v') =>
        risk_worse known mapped present worse
    rcases deriveSlaRisk_cases known with ⟨_, floor⟩ | ⟨⟨entry, member, risk⟩, reported, greatest⟩
    · refine ⟨?_, ?_, orderFree, monotone⟩
      · rw [floor]
        exact ⟨decide_eq_true (by norm_num), decide_eq_true (by norm_num)⟩
      · rw [floor]
        intro entry impossible
        cases impossible
    · refine ⟨?_, ?_, orderFree, monotone⟩
      · rw [risk]
        exact (known.inUnit entry member).bounds
      · rw [reported]
        exact greatest

/-- Full load, and a throughput without a limit. -/
theorem worstSignal_sample :
    WorstSignal .exact [("RRU.PrbTotDl", .fin 100), ("DRB.UEThpDl", .inf false)] := by
  refine (worstSignal_iff .exact _ (by decide)).mpr ?_
  intro metric mapped
  simp only [riskMapping, List.map_cons, List.map_nil, List.mem_cons, List.not_mem_nil,
    or_false] at mapped
  rcases mapped with rfl | rfl | rfl | rfl | rfl <;> decide

/-- A NaN load is reported as the risk. -/
theorem nan_risk :
    (deriveSlaRisk .exact [("RRU.PrbTotDl", .nan)]).risk = .nan ∧
      ¬WorstSignal .exact [("RRU.PrbTotDl", .nan)] := by
  have risk : (deriveSlaRisk .exact [("RRU.PrbTotDl", .nan)]).risk = .nan := rfl
  refine ⟨risk, fun signal => ?_⟩
  have low := signal.bounded.1
  rw [risk] at low
  simp at low

end HorizonRic.KpmBridge
