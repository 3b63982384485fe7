import HorizonRic.Shield.Settling
import HorizonRic.Shield.Feasibility

/-!
One sweep of the radio projections. Every action in the numeric domain whose
carrier fits the band stays in that domain: the centre is clipped to the nearest
legal one, and the power is lowered to the limits that it exceeds.
-/
namespace HorizonRic
open Py

/-- A Python number: a flag, an integer, or a float in the range of doubles. -/
def IsNumber : Value → Prop
  | .bool _ | .int _ => True
  | .float (.fin q) => |q| < floatOverflow
  | .float _ => True
  | _ => False

def numberKeys : List String :=
  ["frequency_hz", "bandwidth_hz", "tx_power_dBm", "antenna_gain_dBi", "sat_antenna_gain_dBi",
    "predicted_tbler", "baseline_tbler", "demap_confidence", "papr_dB", "constellation_order",
    "slant_range_m"]

/-- What a settled action may differ in. -/
def settledKeys : List String :=
  ["frequency_hz", "tx_power_dBm", "block", "predicted_tbler", "constellation_order", "papr_dB",
    fallbackKey]

namespace NumericSanity

/-- The domain of the number under each key. -/
def demand (key : String) (q : ℚ) : Bool :=
  if key ∈ ["frequency_hz", "bandwidth_hz", "slant_range_m"] then decide (0 < q)
  else if key ∈ ["predicted_tbler", "baseline_tbler", "demap_confidence"] then
    decide (0 ≤ q) && decide (q ≤ 1)
  else if key = "papr_dB" then decide (0 ≤ q)
  else if key = "constellation_order" then decide (0 < q) && (Number.fin q).isInteger
  else true

def optionalKeys : List String :=
  ["antenna_gain_dBi", "sat_antenna_gain_dBi", "predicted_tbler", "baseline_tbler",
    "demap_confidence", "papr_dB", "constellation_order"]

section
variable (py : Interpreter)

def Meets (action : Action) (key : String) : Prop :=
  numberSatisfies py (action.getD key .null) (demand key) = true

/-- `problems` finds nothing, key by key. -/
structure Domain (action : Action) : Prop where
  required : ∀ key ∈ ["frequency_hz", "bandwidth_hz", "tx_power_dBm"], Meets py action key
  optional : ∀ key ∈ optionalKeys, action.has key = true → Meets py action key
  slant : (action.getD "ntn" (.bool false)).truthy = true → Meets py action "slant_range_m"

variable {action : Action}

theorem problemUnless_iff (ok : Bool) (message : String) :
    problemUnless ok message = [] ↔ ok = true := by
  cases ok <;> simp [problemUnless]

theorem required_iff (key message : String) (ok : ℚ → Bool) :
    required py action key ok message = [] ↔
      numberSatisfies py (action.getD key .null) ok = true :=
  problemUnless_iff _ _

theorem optional_iff (key message : String) (ok : ℚ → Bool) :
    optional py action key ok message = [] ↔
      (action.has key = true → numberSatisfies py (action.getD key .null) ok = true) := by
  rw [optional]
  split
  · rename_i present
    rw [required_iff]
    simp [present]
  · rename_i absent
    simp [absent]

theorem problems_iff : problems py action = [] ↔ Domain py action := by
  have slant : (if (action.getD "ntn" (.bool false)).truthy then
      required py action "slant_range_m" (fun q => decide (0 < q))
        "slant_range_m must be finite and > 0 for NTN" else []) = [] ↔
      ((action.getD "ntn" (.bool false)).truthy = true → Meets py action "slant_range_m") := by
    split
    · rename_i ntn
      rw [required_iff]
      simp only [ntn, true_imp_iff]
      rfl
    · rename_i terrestrial
      simp [terrestrial]
  simp only [problems, List.append_eq_nil_iff, List.flatMap_cons, List.flatMap_nil, required_iff,
    optional_iff, slant, and_true]
  constructor
  · rintro ⟨⟨⟨⟨⟨⟨⟨f, bw⟩, tx⟩, gain, satGain⟩, predicted, baseline, confidence⟩, papr⟩, order⟩, range⟩
    refine ⟨?_, ?_, range⟩
    · intro key member
      simp only [List.mem_cons, List.not_mem_nil, or_false] at member
      rcases member with rfl | rfl | rfl
      · exact f
      · exact bw
      · exact tx
    · intro key member
      simp only [optionalKeys, List.mem_cons, List.not_mem_nil, or_false] at member
      rcases member with rfl | rfl | rfl | rfl | rfl | rfl | rfl
      · exact gain
      · exact satGain
      · exact predicted
      · exact baseline
      · exact confidence
      · exact papr
      · exact order
  · intro domain
    have may := fun key member => domain.optional key member
    exact ⟨⟨⟨⟨⟨⟨⟨domain.required _ (by simp), domain.required _ (by simp)⟩,
      domain.required _ (by simp)⟩, may _ (by simp [optionalKeys]), may _ (by simp [optionalKeys])⟩,
      may _ (by simp [optionalKeys]), may _ (by simp [optionalKeys]), may _ (by simp [optionalKeys])⟩,
      may _ (by simp [optionalKeys])⟩, may _ (by simp [optionalKeys])⟩, domain.slant⟩

/-- Writing a number in the domain of its key, or anything under a key without one. -/
theorem Domain.set {key : String} {v : Value} (domain : Domain py action) (flag : key ≠ "ntn")
    (fits : key ∈ numberKeys → numberSatisfies py v (demand key) = true) :
    Domain py (action.set key v) := by
  have meets : ∀ other ∈ numberKeys, (other ≠ key → Meets py action other) →
      Meets py (action.set key v) other := by
    intro other member before
    by_cases same : other = key
    · subst same
      rw [Meets, Dict.getD_set_self]
      exact fits member
    · rw [Meets, Dict.getD_set_ne _ _ _ (Ne.symm same)]
      exact before same
  refine ⟨fun other member => ?_, fun other member present => ?_, fun ntn => ?_⟩
  · refine meets other ?_ fun _ => domain.required other member
    simp only [List.mem_cons, List.not_mem_nil, or_false] at member
    rcases member with rfl | rfl | rfl <;> simp [numberKeys]
  · refine meets other ?_ fun ne => domain.optional other member ?_
    · simp only [optionalKeys, List.mem_cons, List.not_mem_nil, or_false] at member
      rcases member with rfl | rfl | rfl | rfl | rfl | rfl | rfl <;> simp [numberKeys]
    · rwa [Dict.has, Dict.get?_set_ne _ _ (Ne.symm ne)] at present
  · rw [Dict.getD_set_ne _ _ _ flag] at ntn
    exact meets _ (by simp [numberKeys]) fun _ => domain.slant ntn

end
end NumericSanity

/-! The legal centres of a carrier. -/

namespace SpectralMask
variable (mask : SpectralMask)

/-- The carrier of this width around the centre lies in the usable band. -/
def LegalCentre (bw g : ℚ) : Prop :=
  Number.le mask.usableLo (.fin (g - bw / 2)) = true ∧
    Number.le (.fin (g + bw / 2)) mask.usableHi = true

/-- A usable band of positive width at non-negative frequencies, which the carrier fits. -/
structure Usable (bw : ℚ) : Prop where
  nonneg : Number.le (.fin 0) mask.usableLo = true
  positive : Number.lt mask.usableLo mask.usableHi = true
  fits : Number.le (.fin bw) (mask.usableHi - mask.usableLo) = true

/-- The legal centre nearest to the requested one. -/
structure Nearest (bw f c : ℚ) : Prop where
  legal : mask.LegalCentre bw c
  least : ∀ g, mask.LegalCentre bw g → |c - f| ≤ |g - f|

def clip (bw f : ℚ) : Number :=
  Number.min (Number.max (.fin f) (mask.usableLo + (Number.fin bw).divBy 2))
    (mask.usableHi - (Number.fin bw).divBy 2)

variable {mask} {bw f c : ℚ}

theorem Nearest.eq_of_legal (nearest : mask.Nearest bw f c) (legal : mask.LegalCentre bw f) :
    c = f := by
  have close := nearest.least f legal
  rw [sub_self, abs_zero] at close
  have same := abs_eq_zero.mp (le_antisymm close (abs_nonneg _))
  linarith

theorem nearest_self (legal : mask.LegalCentre bw f) : mask.Nearest bw f f where
  legal := legal
  least g _ := by
    rw [sub_self, abs_zero]
    exact abs_nonneg _

/-- A finite lower edge, and an upper edge that is finite or infinite. -/
theorem Usable.edges (usable : mask.Usable bw) :
    ∃ lo : ℚ, 0 ≤ lo ∧ mask.usableLo = .fin lo ∧
      ((∃ hi : ℚ, mask.usableHi = .fin hi ∧ bw ≤ hi - lo) ∨ mask.usableHi = .inf false) := by
  obtain ⟨nonneg, positive, fits⟩ := usable
  cases lower : mask.usableLo with
  | nan => rw [lower] at nonneg; cases nonneg
  | inf negative =>
    rw [lower] at nonneg positive
    cases negative with
    | true => cases nonneg
    | false => cases upper : mask.usableHi <;> rw [upper] at positive <;> simp [Number.lt] at positive
  | fin lo =>
    rw [lower] at nonneg positive fits
    refine ⟨lo, of_decide_eq_true nonneg, rfl, ?_⟩
    cases upper : mask.usableHi with
    | nan => rw [upper] at positive; cases positive
    | inf negative =>
      rw [upper] at positive
      cases negative with
      | true => cases positive
      | false => exact Or.inr rfl
    | fin hi =>
      rw [upper, Number.fin_sub] at fits
      exact Or.inl ⟨hi, rfl, of_decide_eq_true fits⟩

theorem raise_near {f a g : ℚ} (above : a ≤ g) : |max f a - f| ≤ |g - f| := by
  rcases le_total f a with le | ge
  · rw [max_eq_right le, abs_of_nonneg (by linarith), abs_of_nonneg (by linarith)]
    linarith
  · rw [max_eq_left ge, sub_self, abs_zero]
    exact abs_nonneg _

theorem clamp_near {f a b g : ℚ} (above : a ≤ g) (below : g ≤ b) :
    |min (max f a) b - f| ≤ |g - f| := by
  rcases le_total f a with le | ge
  · have first : max f a = a := max_eq_right le
    rw [first, min_eq_left (above.trans below), ← first]
    exact raise_near above
  · rw [max_eq_left ge]
    rcases le_total f b with inside | beyond
    · rw [min_eq_left inside, sub_self, abs_zero]
      exact abs_nonneg _
    · rw [min_eq_right beyond, abs_of_nonpos (by linarith), abs_of_nonpos (by linarith)]
      linarith

theorem clip_nearest (usable : mask.Usable bw) (f : ℚ) :
    ∃ c, mask.clip bw f = .fin c ∧ mask.Nearest bw f c := by
  obtain ⟨lo, _, lower, upper⟩ := usable.edges
  have lowest : Number.max (.fin f) (mask.usableLo + (Number.fin bw).divBy 2) =
      .fin (max f (lo + bw / 2)) := by
    rw [lower, Number.divBy_fin, Number.fin_add, Number.max_fin]
  rcases upper with ⟨hi, upper, fits⟩ | upper
  · refine ⟨min (max f (lo + bw / 2)) (hi - bw / 2), ?_, ⟨?_, ?_⟩, ?_⟩
    · rw [clip, lowest, upper, Number.divBy_fin, Number.fin_sub, Number.min_fin]
    · rw [lower, Number.le_fin, decide_eq_true_eq]
      have := le_min (le_max_right f (lo + bw / 2)) (show lo + bw / 2 ≤ hi - bw / 2 by linarith)
      linarith
    · rw [upper, Number.le_fin, decide_eq_true_eq]
      have := min_le_right (max f (lo + bw / 2)) (hi - bw / 2)
      linarith
    · rintro g ⟨above, below⟩
      rw [lower, Number.le_fin, decide_eq_true_eq] at above
      rw [upper, Number.le_fin, decide_eq_true_eq] at below
      exact clamp_near (by linarith) (by linarith)
  · refine ⟨max f (lo + bw / 2), ?_, ⟨?_, ?_⟩, ?_⟩
    · rw [clip, lowest, upper]
      rfl
    · rw [lower, Number.le_fin, decide_eq_true_eq]
      have := le_max_right f (lo + bw / 2)
      linarith
    · rw [upper]
      rfl
    · rintro g ⟨above, _⟩
      rw [lower, Number.le_fin, decide_eq_true_eq] at above
      exact raise_near (by linarith)

end SpectralMask

/-! What the checks say of the numbers that they read. -/

section
variable (py : Interpreter) {action : Action} {ctx : Context}

theorem SpectralMask.holds_iff {mask : SpectralMask} {f bw : ℚ} (known : mask.usableHi ≠ .nan)
    (frequency : floatField py action "frequency_hz" zero = .ok (.fin f))
    (bandwidth : floatField py action "bandwidth_hz" zero = .ok (.fin bw)) :
    Holds action ctx (SpectralMask.invariant py mask) ↔ mask.LegalCentre bw f := by
  have upper : mask.usableHi - .fin (f + bw / 2) ≠ .nan := by
    cases bound : mask.usableHi with
    | nan => exact absurd bound known
    | inf negative => exact fun impossible => nomatch impossible
    | fin hi => exact fun impossible => nomatch impossible
  simp only [Holds, SpectralMask.invariant, SpectralMask.evaluate, SpectralMask.edges, frequency,
    bandwidth, ok_bind, Number.divBy_fin, Number.fin_sub, Number.fin_add, Except.ok.injEq,
    exists_eq_left', Number.zero_le_min_iff, Number.zero_le_fin_sub, Number.zero_le_sub_fin, upper,
    false_or, SpectralMask.LegalCentre]

theorem MaxEirp.holds_iff {cap : MaxEirp} {t gain : ℚ}
    (power : floatField py action "tx_power_dBm" zero = .ok (.fin t))
    (antenna : floatField py action "antenna_gain_dBi" zero = .ok (.fin gain)) :
    Holds action ctx (MaxEirp.invariant py cap) ↔
      Number.le (.fin (t + gain)) cap.maxEirpDBm = true := by
  simp only [Holds, MaxEirp.invariant, MaxEirp.evaluate, MaxEirp.eirp, power, antenna, ok_bind,
    Number.fin_add, Except.ok.injEq, exists_eq_left', Number.zero_le_sub_fin]

theorem PfdCeiling.holds_iff {cap : PfdCeiling} {pfd : ℚ}
    (applied : PfdCeiling.applies action = true)
    (density : PfdCeiling.computePfd py action = .ok (.fin pfd)) :
    Holds action ctx (PfdCeiling.invariant py cap) ↔ Number.le (.fin pfd) cap.maxPfd = true := by
  simp only [Holds, PfdCeiling.invariant, PfdCeiling.evaluate, applied, if_true, density, ok_bind,
    Except.ok.injEq, exists_eq_left', Number.zero_le_sub_fin]

theorem PfdCeiling.holds_of_terrestrial {cap : PfdCeiling}
    (terrestrial : PfdCeiling.applies action = false) :
    Holds action ctx (PfdCeiling.invariant py cap) := by
  refine ⟨⟨PfdCeiling.id, true, none, "n/a", "not an NTN downlink decision"⟩, ?_, rfl⟩
  simp only [PfdCeiling.invariant, PfdCeiling.evaluate, terrestrial, Bool.false_eq_true, if_false]

theorem NumericSanity.holds_iff :
    Holds action ctx (NumericSanity.invariant py) ↔ NumericSanity.Domain py action := by
  rw [← NumericSanity.problems_iff, ← List.isEmpty_iff]
  simp only [Holds, NumericSanity.invariant, NumericSanity.evaluate, Except.ok.injEq,
    exists_eq_left']

/-! The numbers of an action in the domain. -/

namespace NumericSanity.Domain
variable {py}

theorem number {key : String} {default : Value} (meets : Meets py action key) :
    ∃ q, floatField py action key default = .ok (.fin q) ∧ demand key q = true := by
  obtain ⟨q, read, ok⟩ := (numberSatisfies_iff py _ _).mp meets
  exact ⟨q, floatField_of_required py read default, ok⟩

theorem optionalNumber (domain : Domain py action) (key : String) (member : key ∈ optionalKeys)
    {default : Value} {q : ℚ} (given : default.toFloat py = .ok (.fin q))
    (fits : demand key q = true) :
    ∃ q, floatField py action key default = .ok (.fin q) ∧ demand key q = true := by
  cases present : Dict.get? key action with
  | none =>
    refine ⟨q, ?_, fits⟩
    rw [floatField, Dict.getD, present]
    exact given
  | some v => exact number (domain.optional key member ((Dict.has_iff _ _).mpr ⟨v, present⟩))

end NumericSanity.Domain

/-- PFD of a downlink of no power, in the linear formula. -/
def PfdCeiling.densityAtZero (satGain slant bw : ℚ) : ℚ :=
  satGain - 30 - 10 * py.log10 (4 * mathPi * max slant 1 * max slant 1) -
    10 * py.log10 (max (bw / 10 ^ 6) (1 / 10 ^ 6))

theorem PfdCeiling.computePfd_eq {t satGain slant bw : ℚ}
    (power : floatField py action "tx_power_dBm" zero = .ok (.fin t))
    (antenna : floatField py action "sat_antenna_gain_dBi" zero = .ok (.fin satGain))
    (range : floatField py action "slant_range_m" (.float (.fin 550000)) = .ok (.fin slant))
    (bandwidth : floatField py action "bandwidth_hz" (.float (.fin (10 ^ 6))) = .ok (.fin bw)) :
    PfdCeiling.computePfd py action = .ok (.fin (t + densityAtZero py satGain slant bw)) := by
  have spread : 0 < 4 * mathPi * max slant 1 * max slant 1 := by
    have pi : (0 : ℚ) < mathPi := by norm_num [mathPi]
    have far : (0 : ℚ) < max slant 1 := lt_max_of_lt_right one_pos
    positivity
  have width : (0 : ℚ) < max (bw / 10 ^ 6) (1 / 10 ^ 6) := lt_max_of_lt_right (by norm_num)
  simp only [computePfd, power, antenna, range, bandwidth, ok_bind, Number.fin_add, Number.fin_sub,
    Number.max_fin, Number.fin_mul, Number.divBy_fin, mathLog10, spread, width, if_true]
  congr 2
  unfold densityAtZero
  ring

/-! What the projections write. -/

theorem SpectralMask.project_eq (ctx : Context) {mask : SpectralMask} {g bw c : ℚ}
    (usable : mask.Usable bw)
    (frequency : floatField py action "frequency_hz" zero = .ok (.fin g))
    (bandwidth : floatField py action "bandwidth_hz" zero = .ok (.fin bw))
    (clipped : mask.clip bw g = .fin c) :
    ∃ corr, SpectralMask.project py mask action ctx =
      .ok (if c = g then action else action.set "frequency_hz" (.float (.fin c)), corr) := by
  have narrow : Number.lt (mask.usableHi - mask.usableLo) (.fin bw) = false := by
    have fits := usable.fits
    cases width : mask.usableHi - mask.usableLo with
    | nan => rfl
    | inf negative =>
      rw [width] at fits
      cases negative with
      | true => cases fits
      | false => rfl
    | fin w =>
      rw [width, Number.le_fin, decide_eq_true_eq] at fits
      simpa using fits
  rw [clip] at clipped
  simp only [project, bandwidth, frequency, ok_bind, narrow, Bool.false_eq_true, if_false, clipped]
  by_cases same : c = g
  · subst same
    have equal : Number.eq (.fin c) (.fin c) = true := by simp [Number.eq]
    rw [if_pos equal, if_pos rfl]
    exact ⟨_, rfl⟩
  · have differs : ¬ Number.eq (.fin c) (.fin g) = true := by
      simp only [Number.eq, Number.le_fin, Bool.and_eq_true, decide_eq_true_eq]
      intro both
      exact same (le_antisymm both.1 both.2)
    rw [if_neg differs, if_neg same]
    exact ⟨_, rfl⟩

/-- The power after a limit: the limit where it is exceeded. -/
theorem overage_cases (t : ℚ) {limit : Number} {offset : ℚ} {ceiling : Number}
    (shifted : limit = ceiling - .fin offset) (real : ceiling ≠ .nan ∧ ceiling ≠ .inf true) :
    (Number.lt (.fin 0) (.fin (t + offset) - ceiling) = false ∧
        Number.le (.fin (t + offset)) ceiling = true) ∨
      ∃ q, limit = .fin q ∧ q < t ∧ ceiling = .fin (q + offset) ∧
        Number.lt (.fin 0) (.fin (t + offset) - ceiling) = true ∧
        .fin t - (.fin (t + offset) - ceiling) = .fin q := by
  cases ceiling with
  | nan => exact absurd rfl real.1
  | inf negative =>
    cases negative with
    | true => exact absurd rfl real.2
    | false => exact Or.inl ⟨rfl, rfl⟩
  | fin bound =>
    rw [Number.fin_sub] at shifted
    rw [Number.fin_sub, Number.lt_fin, Number.le_fin]
    by_cases within : t + offset ≤ bound
    · left
      constructor
      · rw [decide_eq_false_iff_not]
        linarith
      · exact decide_eq_true within
    · right
      refine ⟨bound - offset, shifted, by linarith, by rw [sub_add_cancel], ?_, ?_⟩
      · rw [decide_eq_true_eq]
        linarith
      · rw [Number.fin_sub]
        congr 1
        ring

theorem MaxEirp.project_eq (ctx : Context) {cap : MaxEirp} {t gain : ℚ} {limit : Number}
    (power : floatField py action "tx_power_dBm" zero = .ok (.fin t))
    (antenna : floatField py action "antenna_gain_dBi" zero = .ok (.fin gain))
    (shifted : limit = cap.maxEirpDBm - .fin gain)
    (real : cap.maxEirpDBm ≠ .nan ∧ cap.maxEirpDBm ≠ .inf true) :
    (MaxEirp.project py cap action ctx = .ok (action, []) ∧
        Number.le (.fin (t + gain)) cap.maxEirpDBm = true) ∨
      ∃ q corr, limit = .fin q ∧ q < t ∧ cap.maxEirpDBm = .fin (q + gain) ∧
        MaxEirp.project py cap action ctx =
          .ok (action.set "tx_power_dBm" (.float (.fin q)), corr) := by
  rcases overage_cases t shifted real with
    ⟨none, within⟩ | ⟨q, atLimit, less, bound, exceeds, lowered⟩
  · left
    refine ⟨?_, within⟩
    simp only [project, eirp, power, antenna, ok_bind, Number.fin_add, none, Bool.false_eq_true,
      if_false]
  · right
    obtain ⟨corr, projected⟩ : ∃ corr, MaxEirp.project py cap action ctx =
        .ok (action.set "tx_power_dBm" (.float (.fin q)), corr) := by
      simp only [project, eirp, power, antenna, ok_bind, Number.fin_add, exceeds, if_true, lowered]
      exact ⟨_, rfl⟩
    exact ⟨q, corr, atLimit, less, bound, projected⟩

theorem PfdCeiling.project_eq (ctx : Context) {cap : PfdCeiling} {t density : ℚ} {limit : Number}
    (applied : PfdCeiling.applies action = true)
    (power : floatField py action "tx_power_dBm" zero = .ok (.fin t))
    (computed : PfdCeiling.computePfd py action = .ok (.fin (t + density)))
    (shifted : limit = cap.maxPfd - .fin density)
    (real : cap.maxPfd ≠ .nan ∧ cap.maxPfd ≠ .inf true) :
    (PfdCeiling.project py cap action ctx = .ok (action, []) ∧
        Number.le (.fin (t + density)) cap.maxPfd = true) ∨
      ∃ q corr, limit = .fin q ∧ q < t ∧ cap.maxPfd = .fin (q + density) ∧
        PfdCeiling.project py cap action ctx =
          .ok (action.set "tx_power_dBm" (.float (.fin q)), corr) := by
  rcases overage_cases t shifted real with
    ⟨none, within⟩ | ⟨q, atLimit, less, bound, exceeds, lowered⟩
  · left
    refine ⟨?_, within⟩
    simp only [project, applied, if_true, computed, ok_bind, none, Bool.false_eq_true, if_false]
  · right
    obtain ⟨corr, projected⟩ : ∃ corr, PfdCeiling.project py cap action ctx =
        .ok (action.set "tx_power_dBm" (.float (.fin q)), corr) := by
      simp only [project, applied, if_true, computed, power, ok_bind, exceeds, lowered]
      exact ⟨_, rfl⟩
    exact ⟨q, corr, atLimit, less, bound, projected⟩

end

/-! Actions on the way from a proposal to its settled form. -/

/-- A proposal in the numeric domain whose carrier fits the usable band. -/
structure Proposed (py : Interpreter) (mask : SpectralMask) (start : Action) (f bw tx gain : ℚ) :
    Prop where
  domain : NumericSanity.Domain py start
  order : ∀ v, Dict.get? "constellation_order" start = some v → IsNumber v
  printable : (start.getD "block" .null).digitsOk = true
  unblocked : Dict.get? emitBlockedKey start = none
  frequency : floatField py start "frequency_hz" zero = .ok (.fin f)
  bandwidth : floatField py start "bandwidth_hz" zero = .ok (.fin bw)
  power : floatField py start "tx_power_dBm" zero = .ok (.fin tx)
  antenna : floatField py start "antenna_gain_dBi" zero = .ok (.fin gain)
  usable : mask.Usable bw

/-- An action between the proposal and its settled form: the centre is the requested or
    the clipped one, the power is the requested one or at a limit below it. -/
structure Swept (py : Interpreter) (limits : List Number) (start : Action) (f tx c : ℚ)
    (action : Action) : Prop where
  domain : NumericSanity.Domain py action
  order : ∀ v, Dict.get? "constellation_order" action = some v → IsNumber v
  printable : (action.getD "block" .null).digitsOk = true
  kept : Dict.SameOutside settledKeys start action
  frequency : ∃ g, floatField py action "frequency_hz" zero = .ok (.fin g) ∧ (g = f ∨ g = c)
  power : ∃ t, floatField py action "tx_power_dBm" zero = .ok (.fin t) ∧ t ≤ tx ∧
    (t = tx ∨ .fin t ∈ limits)

section
variable {py : Interpreter} {mask : SpectralMask} {limits : List Number} {start action : Action}
  {f bw tx gain c : ℚ} {ctx : Context}

theorem Proposed.swept (proposed : Proposed py mask start f bw tx gain) :
    Swept py limits start f tx c start where
  domain := proposed.domain
  order := proposed.order
  printable := proposed.printable
  kept := .refl _ _
  frequency := ⟨f, proposed.frequency, Or.inl rfl⟩
  power := ⟨tx, proposed.power, le_refl _, Or.inl rfl⟩

theorem floatField_set_self {key : String} {x : Number} (default : Value) :
    floatField py (action.set key (.float x)) key default = .ok x := by
  rw [floatField, Dict.getD_set_self]
  rfl

theorem floatField_set_ne {key other : String} {v : Value} (ne : other ≠ key) (default : Value) :
    floatField py (action.set other v) key default = floatField py action key default := by
  rw [floatField, Dict.getD_set_ne _ _ _ ne]
  rfl

namespace Swept

theorem free (proposed : Proposed py mask start f bw tx gain)
    (swept : Swept py limits start f tx c action) : isBlocked action = false := by
  have absent := swept.kept emitBlockedKey (by decide)
  rw [isBlocked, Dict.getD, absent, proposed.unblocked]
  rfl

theorem read (swept : Swept py limits start f tx c action) {key : String}
    (outside : key ∉ settledKeys) (default : Value) :
    floatField py action key default = floatField py start key default := by
  rw [floatField, swept.kept.getD outside]
  rfl

/-- Writing neither the centre nor the power. -/
theorem set (swept : Swept py limits start f tx c action) (key : String) (v : Value)
    (member : key ∈ ["block", "predicted_tbler", "constellation_order", "papr_dB", fallbackKey])
    (fits : key ∈ numberKeys →
      NumericSanity.numberSatisfies py v (NumericSanity.demand key) = true)
    (order : key = "constellation_order" → IsNumber v)
    (block : key = "block" → v.digitsOk = true) :
    Swept py limits start f tx c (action.set key v) := by
  have settled : key ∈ settledKeys ∧ key ≠ "ntn" ∧ key ≠ "frequency_hz" ∧ key ≠ "tx_power_dBm" := by
    simp only [List.mem_cons, List.not_mem_nil, or_false] at member
    rcases member with rfl | rfl | rfl | rfl | rfl <;> decide
  obtain ⟨among, flag, frequency, power⟩ := settled
  refine ⟨swept.domain.set py flag fits, ?_, ?_, swept.kept.set among v, ?_, ?_⟩
  · intro w present
    by_cases same : key = "constellation_order"
    · subst same
      rw [Dict.get?_set_self] at present
      cases present
      exact order rfl
    · rw [Dict.get?_set_ne _ _ same] at present
      exact swept.order w present
  · by_cases same : key = "block"
    · subst same
      rw [Dict.getD_set_self]
      exact block rfl
    · rw [Dict.getD_set_ne _ _ _ same]
      exact swept.printable
  · obtain ⟨g, read, facts⟩ := swept.frequency
    exact ⟨g, by rw [floatField_set_ne frequency]; exact read, facts⟩
  · obtain ⟨t, read, facts⟩ := swept.power
    exact ⟨t, by rw [floatField_set_ne power]; exact read, facts⟩

theorem setText (swept : Swept py limits start f tx c action) {key : String} (s : String)
    (member : key = "block" ∨ key = fallbackKey) :
    Swept py limits start f tx c (action.set key (.str s)) := by
  have apart : key ∉ numberKeys ∧ key ≠ "constellation_order" := by
    rcases member with rfl | rfl <;> decide
  apply swept.set key
  · rcases member with rfl | rfl <;> decide
  · exact fun number => absurd number apart.1
  · exact fun order => absurd order apart.2
  · exact fun _ => rfl

theorem setFrequency (swept : Swept py limits start f tx c action) (positive : 0 < c) :
    Swept py limits start f tx c (action.set "frequency_hz" (.float (.fin c))) where
  domain := swept.domain.set py (by decide) fun _ => by
    simp [NumericSanity.numberSatisfies, NumericSanity.number, Value.toFloat, NumericSanity.demand,
      positive]
  order v present := by
    rw [Dict.get?_set_ne _ _ (by decide)] at present
    exact swept.order v present
  printable := by
    rw [Dict.getD_set_ne _ _ _ (by decide)]
    exact swept.printable
  kept := swept.kept.set (by decide) _
  frequency := ⟨c, floatField_set_self _, Or.inr rfl⟩
  power := by
    obtain ⟨t, read, facts⟩ := swept.power
    exact ⟨t, by rw [floatField_set_ne (by decide)]; exact read, facts⟩

theorem setPower (swept : Swept py limits start f tx c action) {q : ℚ} (below : q ≤ tx)
    (limit : .fin q ∈ limits) :
    Swept py limits start f tx c (action.set "tx_power_dBm" (.float (.fin q))) where
  domain := swept.domain.set py (by decide) fun _ => by
    simp [NumericSanity.numberSatisfies, NumericSanity.number, Value.toFloat, NumericSanity.demand]
  order v present := by
    rw [Dict.get?_set_ne _ _ (by decide)] at present
    exact swept.order v present
  printable := by
    rw [Dict.getD_set_ne _ _ _ (by decide)]
    exact swept.printable
  kept := swept.kept.set (by decide) _
  frequency := by
    obtain ⟨g, read, facts⟩ := swept.frequency
    exact ⟨g, by rw [floatField_set_ne (by decide)]; exact read, facts⟩
  power := ⟨q, floatField_set_self _, below, Or.inr limit⟩

end Swept

/-! Each projection settles its own check. -/

theorem domain_settles :
    (NumericSanity.invariant py).Settles (Swept py limits start f tx c) ctx := by
  intro action swept
  have none := (NumericSanity.problems_iff py).mpr swept.domain
  exact ⟨action, [], NumericSanity.project_sane py ctx none, swept,
    (NumericSanity.holds_iff py).mpr swept.domain⟩

/-- The clipped centre is positive. -/
theorem centre_pos (usable : mask.Usable bw) (width : 0 < bw) (legal : mask.LegalCentre bw c) :
    0 < c := by
  obtain ⟨lo, nonneg, lower, _⟩ := usable.edges
  have above := legal.1
  rw [lower, Number.le_fin, decide_eq_true_eq] at above
  linarith

theorem Proposed.bandwidth_pos (proposed : Proposed py mask start f bw tx gain) : 0 < bw := by
  obtain ⟨q, read, positive⟩ :=
    NumericSanity.Domain.number (proposed.domain.required "bandwidth_hz" (by simp))
  have same := read.symm.trans proposed.bandwidth
  cases same
  simpa [NumericSanity.demand] using positive

theorem Proposed.known (proposed : Proposed py mask start f bw tx gain) :
    mask.usableHi ≠ .nan := by
  obtain ⟨lo, _, _, ⟨hi, upper, _⟩ | upper⟩ := proposed.usable.edges
  · rw [upper]
    exact fun impossible => nomatch impossible
  · rw [upper]
    exact fun impossible => nomatch impossible

theorem mask_settles (proposed : Proposed py mask start f bw tx gain)
    (clipped : mask.clip bw f = .fin c) (nearest : mask.Nearest bw f c) :
    (SpectralMask.invariant py mask).Settles (Swept py limits start f tx c) ctx := by
  intro action swept
  obtain ⟨g, frequency, requested⟩ := swept.frequency
  have bandwidth : floatField py action "bandwidth_hz" zero = .ok (.fin bw) := by
    rw [swept.read (by decide)]
    exact proposed.bandwidth
  -- a second clip of the clipped centre changes nothing
  have again : mask.clip bw g = .fin c := by
    rcases requested with rfl | rfl
    · exact clipped
    · obtain ⟨c', clipped', nearest'⟩ := SpectralMask.clip_nearest proposed.usable g
      rw [clipped', nearest'.eq_of_legal nearest.legal]
  obtain ⟨corr, projected⟩ :=
    SpectralMask.project_eq py ctx proposed.usable frequency bandwidth again
  have positive := centre_pos proposed.usable proposed.bandwidth_pos nearest.legal
  refine ⟨_, corr, projected, ?_, ?_⟩
  · split
    · exact swept
    · exact swept.setFrequency positive
  · split
    · rename_i same
      rw [SpectralMask.holds_iff py proposed.known frequency bandwidth, ← same]
      exact nearest.legal
    · rw [SpectralMask.holds_iff py proposed.known (floatField_set_self _)
        (by rw [floatField_set_ne (by decide)]; exact bandwidth)]
      exact nearest.legal

theorem eirp_settles (proposed : Proposed py mask start f bw tx gain) {cap : MaxEirp}
    (real : cap.maxEirpDBm ≠ .nan ∧ cap.maxEirpDBm ≠ .inf true)
    (member : cap.maxEirpDBm - .fin gain ∈ limits) :
    (MaxEirp.invariant py cap).Settles (Swept py limits start f tx c) ctx := by
  intro action swept
  obtain ⟨t, power, below, _⟩ := swept.power
  have antenna : floatField py action "antenna_gain_dBi" zero = .ok (.fin gain) := by
    rw [swept.read (by decide)]
    exact proposed.antenna
  rcases MaxEirp.project_eq py ctx power antenna rfl real with
    ⟨projected, within⟩ | ⟨q, corr, limit, less, bound, projected⟩
  · exact ⟨action, [], projected, swept, (MaxEirp.holds_iff py power antenna).mpr within⟩
  · refine ⟨_, corr, projected, swept.setPower (less.le.trans below) (limit ▸ member), ?_⟩
    rw [MaxEirp.holds_iff py (floatField_set_self _)
      (by rw [floatField_set_ne (by decide)]; exact antenna), bound, Number.le_fin]
    exact decide_eq_true (le_refl _)

/-- Where the density of a downlink is read from. -/
structure Downlink (py : Interpreter) (start : Action) (satGain slant bw : ℚ) : Prop where
  applied : PfdCeiling.applies start = true
  antenna : floatField py start "sat_antenna_gain_dBi" zero = .ok (.fin satGain)
  range : floatField py start "slant_range_m" (.float (.fin 550000)) = .ok (.fin slant)
  bandwidth : floatField py start "bandwidth_hz" (.float (.fin (10 ^ 6))) = .ok (.fin bw)

variable {satGain slant : ℚ}

/-- The density at any power and centre. -/
theorem Downlink.computePfd (downlink : Downlink py start satGain slant bw)
    (kept : Dict.SameOutside settledKeys start action) {t : ℚ}
    (power : floatField py action "tx_power_dBm" zero = .ok (.fin t)) :
    PfdCeiling.computePfd py action =
      .ok (.fin (t + PfdCeiling.densityAtZero py satGain slant bw)) := by
  have read : ∀ key default, key ∉ settledKeys →
      floatField py action key default = floatField py start key default := by
    intro key default outside
    rw [floatField, kept.getD outside]
    rfl
  apply PfdCeiling.computePfd_eq py power
  · rw [read _ _ (by decide)]
    exact downlink.antenna
  · rw [read _ _ (by decide)]
    exact downlink.range
  · rw [read _ _ (by decide)]
    exact downlink.bandwidth

theorem Downlink.applies (downlink : Downlink py start satGain slant bw)
    (kept : Dict.SameOutside settledKeys start action) : PfdCeiling.applies action = true := by
  rw [PfdCeiling.applies, kept.getD (by decide)]
  exact downlink.applied

theorem pfd_settles (downlink : Downlink py start satGain slant bw) {cap : PfdCeiling}
    (real : cap.maxPfd ≠ .nan ∧ cap.maxPfd ≠ .inf true)
    (member : cap.maxPfd - .fin (PfdCeiling.densityAtZero py satGain slant bw) ∈ limits) :
    (PfdCeiling.invariant py cap).Settles (Swept py limits start f tx c) ctx := by
  intro action swept
  obtain ⟨t, power, below, _⟩ := swept.power
  have applied := downlink.applies swept.kept
  have computed := downlink.computePfd swept.kept power
  rcases PfdCeiling.project_eq py ctx applied power computed rfl real with
    ⟨projected, within⟩ | ⟨q, corr, limit, less, bound, projected⟩
  · exact ⟨action, [], projected, swept, (PfdCeiling.holds_iff py applied computed).mpr within⟩
  · have lowered := swept.setPower (less.le.trans below) (limit ▸ member)
    refine ⟨_, corr, projected, lowered, ?_⟩
    rw [PfdCeiling.holds_iff py (downlink.applies lowered.kept)
      (downlink.computePfd lowered.kept (floatField_set_self _)), bound, Number.le_fin]
    exact decide_eq_true (le_refl _)

theorem pfd_settles_terrestrial (terrestrial : PfdCeiling.applies start = false)
    (cap : PfdCeiling) :
    (PfdCeiling.invariant py cap).Settles (Swept py limits start f tx c) ctx := by
  intro action swept
  have applied : PfdCeiling.applies action = false := by
    rw [PfdCeiling.applies, swept.kept.getD (by decide)]
    exact terrestrial
  refine ⟨action, [], ?_, swept, PfdCeiling.holds_of_terrestrial py applied⟩
  simp only [PfdCeiling.invariant, PfdCeiling.project, applied, Bool.false_eq_true, if_false]

end
end HorizonRic
