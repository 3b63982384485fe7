import HorizonRic.Python.Numpy
import HorizonRic.Python.Raises
import HorizonRic.Federated.Certificates
import HorizonRic.Federated.RobustAggregation

/-!
`federated/erasure.py` on float64 tables: Q-learning replayed over transition logs, the
aggregators of `federated/robust.py`, and the erasure of a subject with its certificate.
-/
namespace HorizonRic.Erasure

open Py Provenance Federated RobustAggregation

structure Transition where
  state : Int
  action : Int
  reward : Number
  nextState : Int
  subjectId : String

structure QLearnConfig where
  alpha : Number := .fin 0.15
  gamma : Number := .fin 0.90

abbrev QTable := List (List Number)

/-- `1 << n_channels`. -/
def nStates (nChannels : Int) : Except PyErr ℕ :=
  if nChannels < 0 then .error .valueError else .ok (2 ^ nChannels.toNat)

def nActions (nChannels : Int) : ℕ := (nChannels + 1).toNat

/-- An index into an axis; from -1 down it counts from the end. -/
def axisIndex (size : ℕ) (i : Int) : Except PyErr ℕ :=
  if 0 ≤ i ∧ i < size then .ok i.toNat
  else if -size ≤ i ∧ i < 0 then .ok (i + size).toNat
  else .error .indexError

/-- `d[key]`. -/
def item (d : Dict β) (key : String) : Except PyErr β :=
  match Dict.get? key d with
  | some value => .ok value
  | none => .error .keyError

section
variable (np : Float64)

def replay (cfg : QLearnConfig) (q : QTable) (t : Transition) : Except PyErr QTable := do
  let next ← axisIndex q.length t.nextState
  let bestNext ← Float64.max (q.getD next [])
  let state ← axisIndex q.length t.state
  let row := q.getD state []
  let action ← axisIndex row.length t.action
  let old := row.getD action .nan
  let error := np.sub (np.add t.reward (np.mul cfg.gamma bestNext)) old
  .ok (q.set state (row.set action (np.add old (np.mul cfg.alpha error))))

def trainQFromTransitions (transitions : List Transition) (ns na : ℕ) (cfg : QLearnConfig) :
    Except PyErr QTable :=
  transitions.foldlM (replay np cfg) (List.replicate ns (List.replicate na (.fin 0)))

def eraseSubject (transitions : List Transition) (subjectId : String) (ns na : ℕ)
    (cfg : QLearnConfig) : Except PyErr QTable :=
  trainQFromTransitions np (transitions.filter (·.subjectId ≠ subjectId)) ns na cfg

/-! The aggregators. -/

/-- The values of each coordinate. -/
def columns (mat : List (List Number)) : List (List Number) :=
  (List.range (mat.headD []).length).map fun j => mat.map (·.getD j .nan)

def fedavg (updates : List (List Number)) : Except PyErr (List Number) := do
  let mat ← stack updates
  .ok ((columns mat).map np.mean)

def coordinateMedian (updates : List (List Number)) : Except PyErr (List Number) := do
  let mat ← stack updates
  .ok ((columns mat).map np.median)

def trimmedMean (updates : List (List Number)) (beta : ℕ) : Except PyErr (List Number) := do
  let mat ← stack updates
  let n := mat.length
  if n ≤ 2 * beta then .error .valueError
  else
    .ok ((columns mat).map fun column =>
      np.mean (((Float64.sort column).take (n - beta)).drop beta))

def squaredDistance (u v : List Number) : Number :=
  np.sum (List.zipWith (fun a b => np.mul (np.sub a b) (np.sub a b)) u v)

def krum (updates : List (List Number)) (f : ℕ) : Except PyErr (KrumResult Number) := do
  let mat ← stack updates
  let n := mat.length
  if n ≤ 2 * f + 2 then .error .valueError
  else
    let m := n - f - 2
    let scores := mat.map fun row =>
      let dists := Float64.sort (mat.map (squaredDistance np row))
      np.sum ((dists.take (m + 1)).drop 1)
    let selected := Float64.argmin scores
    .ok { aggregate := mat.getD selected [], selectedIndex := selected, scores := scores }

/-! Without rounding Krum is the one of the exact arithmetic. -/

theorem stack_fin (updates : List (List ℚ)) :
    stack (updates.map (List.map Number.fin)) =
      (stack updates).map (List.map (List.map Number.fin)) := by
  cases updates with
  | nil => rfl
  | cons first rest =>
    have same : ((rest.map (List.map Number.fin)).all fun row =>
        decide (row.length = (first.map Number.fin).length)) =
          rest.all fun row => decide (row.length = first.length) := by
      rw [List.all_map]
      exact congrArg rest.all (funext fun row => by simp)
    rw [List.map_cons, stack, same, stack]
    split <;> rfl

theorem squaredDistance_fin (u v : List ℚ) :
    squaredDistance exactFloat64 (u.map Number.fin) (v.map Number.fin) = .fin (sqDist u v) := by
  have square : ∀ a b : ℚ, exactFloat64.mul (exactFloat64.sub (.fin a) (.fin b))
      (exactFloat64.sub (.fin a) (.fin b)) = .fin ((a - b) ^ 2) := by
    intro a b
    change (Number.fin a - .fin b) * (Number.fin a - .fin b) = _
    rw [Number.fin_sub, Number.fin_mul, pow_two]
  rw [squaredDistance, List.zipWith_map, sqDist, ← exact_sum, List.map_zipWith]
  simp only [square]

theorem krum_fin (updates : List (List ℚ)) (f : ℕ) :
    krum exactFloat64 (updates.map (List.map Number.fin)) f =
      (RobustAggregation.krum updates f).map fun r =>
        ⟨r.aggregate.map Number.fin, r.selectedIndex, r.scores.map Number.fin⟩ := by
  rw [krum, RobustAggregation.krum, stack_fin]
  cases stack updates with
  | error e => rfl
  | ok mat =>
    change (if (mat.map (List.map Number.fin)).length ≤ 2 * f + 2 then _ else _) =
      Except.map _ (if (mat.length : ℤ) ≤ 2 * f + 2 then _ else _)
    rw [List.length_map]
    by_cases few : mat.length ≤ 2 * f + 2
    · rw [if_pos few, if_pos (by omega)]
      rfl
    · rw [if_neg few, if_neg (by omega)]
      have range : ((mat.length : ℤ) - f - 2 + 1).toNat = mat.length - f - 2 + 1 := by omega
      have distances : ∀ row : List ℚ, (mat.map (List.map Number.fin)).map
          (squaredDistance exactFloat64 (row.map Number.fin)) =
            (mat.map (sqDist row)).map Number.fin := by
        intro row
        rw [List.map_map, List.map_map]
        exact List.map_congr_left fun other _ => squaredDistance_fin row other
      have scores : (mat.map (List.map Number.fin)).map (fun row => exactFloat64.sum
          (((Float64.sort ((mat.map (List.map Number.fin)).map
            (squaredDistance exactFloat64 row))).take (mat.length - f - 2 + 1)).drop 1)) =
          ((mat.map fun row => mat.map (sqDist row)).map (score (mat.length - f - 2))).map
            Number.fin := by
        simp only [List.map_map]
        apply List.map_congr_left
        intro row _
        simp only [Function.comp]
        rw [← List.map_map, distances, sort_fin, ← List.map_take, ← List.map_drop, exact_sum, score, range]
      have row : ∀ i : ℕ, (mat.map (List.map Number.fin)).getD i [] =
          (mat.getD i []).map Number.fin := by
        intro i
        rw [List.getD_eq_getElem?_getD, List.getElem?_map, List.getD_eq_getElem?_getD]
        cases mat[i]? <;> rfl
      simp only [scores, argmin_fin, row]
      rfl

/-- `flat.reshape((ns, na))`. -/
def reshape (ns na : ℕ) (flat : List Number) : Except PyErr QTable :=
  if flat.length = ns * na then
    .ok ((List.range ns).map fun i => (flat.drop (i * na)).take na)
  else .error .valueError

/-- The configuration of a federation. -/
structure Federation where
  nChannels : Int := 6
  cfg : QLearnConfig := {}
  method : String := "fedavg"
  f : Int := 0

namespace Federation
variable (fed : Federation)

/-- `_agg`. -/
def agg (ns na : ℕ) (localQs : List QTable) : Except PyErr QTable := do
  let flats := localQs.map List.flatten
  let flat ←
    if fed.method = "fedavg" then fedavg np flats
    else if fed.method = "median" then coordinateMedian np flats
    else if fed.method = "trimmed_mean" then trimmedMean np flats (max 1 fed.f).toNat
    else if fed.method = "krum" then KrumResult.aggregate <$> krum np flats (max 0 fed.f).toNat
    else .error .valueError
  reshape ns na flat

def tobytes (q : QTable) : Bytes := q.flatten.flatMap np.bytes

end Federation
end

/-- The logs of the clients. -/
abbrev ClientLogs := Dict (List Transition)

section
variable (py : Interpreter) (np : Float64) {rsa : RsaPss} (fed : Federation)

/-- The local model of a client, from its log. -/
def Federation.trainClient (ns na : ℕ) (clientLogs : ClientLogs) (cid : String) :
    Except PyErr QTable := do
  let log ← item clientLogs cid
  trainQFromTransitions np log ns na fed.cfg

def Federation.federatedEraseSubject (clientLogs : ClientLogs) (targetClient subjectId : String)
    (signer : Signer rsa) (clock : Clock) :
    Except PyErr (QTable × QTable × ErasureCertificate) := do
  let ns ← nStates fed.nChannels
  let na := nActions fed.nChannels
  let ids := sortedIds (clientLogs.map Prod.fst)
  let localBefore ← ids.mapM fun cid => do
    let q ← fed.trainClient np ns na clientLogs cid
    .ok (cid, q)
  let globalBefore ← fed.agg np ns na (← ids.mapM (item localBefore))
  let log ← item clientLogs targetClient
  let erased ← eraseSubject np log subjectId ns na fed.cfg
  let localAfter := Dict.set targetClient erased localBefore
  let globalAfter ← fed.agg np ns na (← ids.mapM (item localAfter))
  let goldLocals ← ids.mapM fun cid => do
    let log ← item clientLogs cid
    trainQFromTransitions np
      (log.filter fun t => !(cid = targetClient && t.subjectId = subjectId)) ns na fed.cfg
  let gold ← fed.agg np ns na goldLocals
  let distance := np.norm (List.zipWith np.sub globalAfter.flatten gold.flatten)
  let nErased := log.countP (·.subjectId = subjectId)
  let certificate ← certifyErasure py (Federation.tobytes np globalBefore)
    (Federation.tobytes np globalAfter) distance nErased subjectId targetClient fed.method
    signer clock
  .ok (globalBefore, globalAfter, certificate)

/-- The global model that clients train from scratch on their logs. -/
def Federation.train (clientLogs : ClientLogs) : Except PyErr QTable := do
  let ns ← nStates fed.nChannels
  let na := nActions fed.nChannels
  let ids := sortedIds (clientLogs.map Prod.fst)
  let locals ← ids.mapM (fed.trainClient np ns na clientLogs)
  fed.agg np ns na locals

end

/-- The logs without the subject's transitions at the target client. -/
def withoutSubject (targetClient subjectId : String) (clientLogs : ClientLogs) : ClientLogs :=
  clientLogs.map fun (cid, log) =>
    (cid, if cid = targetClient then log.filter (·.subjectId ≠ subjectId) else log)

end HorizonRic.Erasure
