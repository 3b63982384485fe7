import HorizonRic.Spectrum.LocalTraining

/-!
`spectrum/attacks.py`: updates that are crafted from those of the honest clients, inside
their spread or along a direction that the aggregator still admits.
-/
namespace HorizonRic.Spectrum
open Py

section
variable (np : Float64)

/-- Along the clients; without a client there is one entry, and it is NaN. -/
def axisMean (mat : List (List Number)) : List Number :=
  if mat = [] then [.nan] else (Erasure.columns mat).map np.mean

def std (xs : List Number) : Number :=
  let mu := np.mean xs
  np.sqrt (np.mean (xs.map fun x => np.mul (np.sub x mu) (np.sub x mu)))

def axisStd (mat : List (List Number)) : List Number :=
  if mat = [] then [.nan] else (Erasure.columns mat).map (std np)

def population (benignUpdates : List (List Number)) : Except PyErr (List (List Number)) :=
  if benignUpdates = [] then .ok [] else RobustAggregation.stack benignUpdates

/-! The deviation of a little that is enough. -/

/-- `num / den` of floats. -/
def quotient (num den : Number) : Except PyErr Number := np.round <$> Number.div num den

/-- A polynomial, its highest coefficient first. -/
def horner (coefficients : List ℚ) (x : Number) : Number :=
  match coefficients with
  | [] => .fin 0
  | first :: rest => rest.foldl (fun value c => np.add (np.mul value x) (.fin c)) (.fin first)

def centralNumerator : List ℚ :=
  [-39.69683028665376, 220.9460984245205, -275.9285104469687, 138.3577518672690,
    -30.66479806614716, 2.506628277459239]

def centralDenominator : List ℚ :=
  [-54.47609879822406, 161.5858368580409, -155.6989798598866, 66.80131188771972,
    -13.28068155288572, 1]

def tailNumerator : List ℚ :=
  [-0.007784894002430293, -0.3223964580411365, -2.400758277161838, -2.549732539343734,
    4.374664141464968, 2.938163982698783]

def tailDenominator : List ℚ :=
  [0.007784695709041462, 0.3224671290700398, 2.445134137142996, 3.754408661907416, 1]

/-- `math.sqrt`. -/
def mathSqrt (x : Number) : Except PyErr Number :=
  if Number.lt x (.fin 0) then .error .valueError else .ok (np.sqrt x)

variable (log : Number → Number)

/-- The quantile of the standard normal distribution. -/
def phiInv (p : Number) : Except PyErr Number := do
  let p := Number.min (Number.max p (.fin 1e-12)) (np.sub (.fin 1) (.fin 1e-12))
  let plow := Number.fin 0.02425
  let phigh := np.sub (.fin 1) plow
  if Number.lt p plow then do
    let q ← mathSqrt np (np.mul (.fin (-2)) (log p))
    quotient np (horner np tailNumerator q) (horner np tailDenominator q)
  else if Number.lt phigh p then do
    let q ← mathSqrt np (np.mul (.fin (-2)) (log (np.sub (.fin 1) p)))
    quotient np (-horner np tailNumerator q) (horner np tailDenominator q)
  else
    let q := np.sub p (.fin 0.5)
    let r := np.mul q q
    quotient np (np.mul (horner np centralNumerator r) q) (horner np centralDenominator r)

/-- Enough honest clients must stand behind the malicious ones. -/
def alieZ (nTotal nMalicious : ℕ) : Except PyErr Number := do
  let n : Int := nTotal
  let m : Int := nMalicious
  let s := n / 2 + 1 - m
  let arg := np.round (.fin ((n - m - s : ℤ) / (max (n - m) 1 : ℤ)))
  let arg := Number.min (Number.max arg (.fin 1e-6)) (np.sub (.fin 1) (.fin 1e-6))
  phiInv np log arg

def alieAttack (benignUpdates : List (List Number)) (nMalicious : ℕ) (z : Option Number) :
    Except PyErr (List (List Number)) := do
  let mat ← population benignUpdates
  let z ← match z with
    | some z => Except.ok z
    | none => alieZ np log (mat.length + nMalicious) nMalicious
  let mal := List.zipWith (fun mu sigma => np.sub mu (np.mul z sigma)) (axisMean np mat)
    (axisStd np mat)
  .ok (List.replicate nMalicious mal)

end

/-! Against the sign of the mean. -/

/-- `np.sign`. -/
def sign : Number → Number
  | .nan => .nan
  | .inf negative => .fin (if negative then -1 else 1)
  | .fin q => .fin (if q < 0 then -1 else if q = 0 then 0 else 1)

/-- The direction of one coordinate; none of them is zero. -/
def against (mu : Number) : Number :=
  let direction := -sign mu
  if direction = .fin 0 then .fin (-1) else direction

section
variable (np : Float64)

/-- Without a client the mean is a scalar, into which no direction can be written. -/
def directions (mat : List (List Number)) : Except PyErr (List Number) :=
  if mat = [] then .error .typeError else .ok ((axisMean np mat).map against)

def malPoint (mu direction : List Number) (lam : Number) : List Number :=
  List.zipWith (fun m d => np.add m (np.mul lam d)) mu direction

/-- Whether Krum picks one of the malicious points, which stand after the honest updates. -/
def admits (mat : List (List Number)) (point : List Number) (nMalicious : ℕ) :
    Except PyErr Bool :=
  if 2 * nMalicious + 2 < mat.length + nMalicious then do
    let res ← Erasure.krum np (mat ++ List.replicate nMalicious point) nMalicious
    .ok (decide (mat.length ≤ res.selectedIndex))
  else .ok false

def halved (lam : Number) : Number := np.round (lam.divBy 2)

/-- The magnitude is halved until the attack is admitted, at most so many times. -/
def searchLambda (mat : List (List Number)) (mu direction : List Number) (nMalicious : ℕ) :
    ℕ → Number → Except PyErr Number
  | 0, lam => .ok lam
  | steps + 1, lam => do
    let admitted ← admits np mat (malPoint np mu direction lam) nMalicious
    if admitted then .ok lam
    else searchLambda mat mu direction nMalicious steps (halved np lam)

def fangAttackKrum (benignUpdates : List (List Number)) (nMalicious : ℕ)
    (lambdaInit : Number) (nSteps : ℕ) : Except PyErr (List (List Number)) := do
  let mat ← population benignUpdates
  let direction ← directions np mat
  let mu := axisMean np mat
  let lam ← searchLambda np mat mu direction nMalicious nSteps lambdaInit
  .ok (List.replicate nMalicious (malPoint np mu direction lam))

def fangAttackMedian (benignUpdates : List (List Number)) (nMalicious : ℕ) (lam : Number) :
    Except PyErr (List (List Number)) := do
  let mat ← population benignUpdates
  let direction ← directions np mat
  let sigma := (axisStd np mat).map fun s => np.add s (.fin 1e-9)
  let shift := List.zipWith (fun s d => np.mul (np.mul lam s) d) sigma direction
  .ok (List.replicate nMalicious (List.zipWith np.add (axisMean np mat) shift))

end

/-! The search stops at the first magnitude that Krum admits. -/

section
variable {np : Float64}

theorem length_axisMean {mat : List (List Number)} {d : ℕ} (some_ : mat ≠ [])
    (dimension : ∀ u ∈ mat, u.length = d) : (axisMean np mat).length = d := by
  cases mat with
  | nil => contradiction
  | cons first rest =>
    rw [axisMean, if_neg some_, Erasure.columns, List.length_map, List.length_map,
      List.length_range, List.headD_cons]
    exact dimension first List.mem_cons_self

theorem admits_total {mat : List (List Number)} {d : ℕ} (some_ : mat ≠ [])
    (dimension : ∀ u ∈ mat, u.length = d) {point : List Number} (fits : point.length = d)
    (nMalicious : ℕ) : ∃ admitted, admits np mat point nMalicious = .ok admitted := by
  unfold admits
  split
  · rename_i enough
    have filled : mat ++ List.replicate nMalicious point ≠ [] := by simp [some_]
    have same : ∀ u ∈ mat ++ List.replicate nMalicious point, u.length = d := by
      intro u member
      rcases List.mem_append.mp member with honest | crafted
      · exact dimension u honest
      · rw [List.eq_of_mem_replicate crafted, fits]
    rw [Erasure.krum, RobustAggregation.stack_ok filled same, ok_bind]
    dsimp only
    rw [if_neg (by simp; omega)]
    exact ⟨_, rfl⟩
  · exact ⟨false, rfl⟩

/-- After so many halvings. -/
def magnitude (np : Float64) (lambdaInit : Number) (k : ℕ) : Number := (halved np)^[k] lambdaInit

/-- The magnitude after `k` halvings is the one that is returned. -/
structure FirstAdmitted (np : Float64) (test : Number → Except PyErr Bool) (lambdaInit : Number) (steps k : ℕ) :
    Prop where
  within : k ≤ steps
  refused : ∀ j < k, test (magnitude np lambdaInit j) = .ok false
  admitted : k < steps → test (magnitude np lambdaInit k) = .ok true

theorem searchLambda_first {mat : List (List Number)} {mu direction : List Number}
    {nMalicious : ℕ}
    (total : ∀ lam, ∃ admitted,
      admits np mat (malPoint np mu direction lam) nMalicious = .ok admitted)
    (steps : ℕ) (lam : Number) :
    ∃ k, searchLambda np mat mu direction nMalicious steps lam = .ok (magnitude np lam k) ∧
      FirstAdmitted np (fun lam => admits np mat (malPoint np mu direction lam) nMalicious)
        lam steps k := by
  induction steps generalizing lam with
  | zero => exact ⟨0, rfl, le_rfl, by omega, by omega⟩
  | succ steps ih =>
    obtain ⟨admitted, tested⟩ := total lam
    rw [searchLambda, tested, ok_bind]
    cases admitted with
    | true => exact ⟨0, rfl, by omega, by omega, fun _ => tested⟩
    | false =>
      obtain ⟨k, found, within, refused, last⟩ := ih (halved np lam)
      refine ⟨k + 1, found, by omega, ?_, fun more => last (by omega)⟩
      intro j before
      cases j with
      | zero => exact tested
      | succ j => exact refused j (by omega)

theorem FirstAdmitted.of_exists {test : Number → Except PyErr Bool} {lambdaInit : Number}
    {steps k : ℕ} (first : FirstAdmitted np test lambdaInit steps k)
    (some_ : ∃ j < steps, test (magnitude np lambdaInit j) = .ok true) :
    test (magnitude np lambdaInit k) = .ok true := by
  obtain ⟨j, inside, admitted⟩ := some_
  apply first.admitted
  by_contra late
  have refused := first.refused j (by omega)
  rw [admitted] at refused
  cases refused

end

/-- The point of one magnitude. -/
def fangPoint (np : Float64) (mat : List (List Number)) : Number → List Number :=
  malPoint np (axisMean np mat) ((axisMean np mat).map against)

/-- The attack on Krum always returns its points, identical and as many as asked for. They are
    admitted as soon as one of the magnitudes tried is, and then at the greatest of these. -/
theorem fangAttackKrum_admitted (np : Float64) (benignUpdates : List (List Number)) (d : ℕ)
    (some_ : benignUpdates ≠ []) (dimension : ∀ u ∈ benignUpdates, u.length = d)
    (nMalicious : ℕ) (lambdaInit : Number) (nSteps : ℕ) :
    ∃ k, fangAttackKrum np benignUpdates nMalicious lambdaInit nSteps =
        .ok (List.replicate nMalicious (fangPoint np benignUpdates (magnitude np lambdaInit k))) ∧
      FirstAdmitted np (fun lam => admits np benignUpdates (fangPoint np benignUpdates lam)
        nMalicious) lambdaInit nSteps k ∧
      ((∃ j < nSteps, admits np benignUpdates
          (fangPoint np benignUpdates (magnitude np lambdaInit j)) nMalicious = .ok true) →
        admits np benignUpdates (fangPoint np benignUpdates (magnitude np lambdaInit k))
          nMalicious = .ok true) := by
  have width : (axisMean np benignUpdates).length = d := length_axisMean some_ dimension
  have fits : ∀ lam, (fangPoint np benignUpdates lam).length = d := by
    intro lam
    rw [fangPoint, malPoint, List.length_zipWith, List.length_map, width, min_self]
  obtain ⟨k, found, first⟩ := searchLambda_first
    (fun lam => admits_total some_ dimension (fits lam) nMalicious) nSteps lambdaInit
  refine ⟨k, ?_, first, first.of_exists⟩
  rw [fangAttackKrum, population, if_neg some_, RobustAggregation.stack_ok some_ dimension, ok_bind,
    directions, if_neg some_, ok_bind]
  dsimp only
  rw [found, ok_bind]
  rfl

/-- Four cells around one point. -/
def closeUpdates : List (List Number) :=
  [[.fin 1, .fin 2], [.fin 1, .fin 3], [.fin 2, .fin 2], [.fin 2, .fin 3]]

theorem closeUpdates_admitted :
    admits exactFloat64 closeUpdates (fangPoint exactFloat64 closeUpdates (.fin 10)) 1 =
        .ok false ∧
      ∃ k, fangAttackKrum exactFloat64 closeUpdates 1 (.fin 10) 25 =
          .ok [fangPoint exactFloat64 closeUpdates (magnitude exactFloat64 (.fin 10) k)] ∧
        admits exactFloat64 closeUpdates
          (fangPoint exactFloat64 closeUpdates (magnitude exactFloat64 (.fin 10) k)) 1 =
            .ok true := by
  obtain ⟨k, crafted, _, admitted⟩ := fangAttackKrum_admitted exactFloat64 closeUpdates 2
    (by decide) (by decide) 1 (.fin 10) 25
  refine ⟨by decide +kernel, k, crafted, admitted ⟨5, by decide, by decide +kernel⟩⟩

end HorizonRic.Spectrum
