import HorizonRic.Runtime.CalibrationError
import Mathlib.Data.Rat.Floor

/-!
`runtime/shadow_executor.py` in exact arithmetic: the log of shadow decisions, and the
recommendation that rests on the two calibration errors.
-/
namespace HorizonRic.ShadowExecutor
open Py

variable {K Stamp : Type} [Field K] [LinearOrder K]

structure ShadowDecision (K Stamp : Type) where
  timestamp : Stamp
  activePred : K
  candidatePred : K
  divergenceScore : K
  actualOutcome : Option K := none

structure Executor (K Stamp : Type) where
  minSamples : Int
  divergenceWarn : K
  divergenceReject : K
  log : List (ShadowDecision K Stamp) := []

/-- `active` and `candidate` are what the two predictors return or raise. Nothing that the
    sink does with the decision changes the executor. -/
def step (ex : Executor K Stamp) (timestamp : Stamp) (active candidate : Except PyErr K) :
    Except PyErr (ShadowDecision K Stamp) × Executor K Stamp :=
  let decided : Except PyErr (ShadowDecision K Stamp) := do
    let a ← active
    let c ← candidate
    .ok { timestamp, activePred := a, candidatePred := c, divergenceScore := |a - c| }
  match decided with
  | .error e => (.error e, ex)
  | .ok decision => (.ok decision, { ex with log := ex.log ++ [decision] })

def annotateOutcomes (ex : Executor K Stamp) (outcomes : List K) : Executor K Stamp :=
  let n := min outcomes.length ex.log.length
  { ex with log := (List.range n).foldl (fun log i =>
      log.modify i fun old => { old with actualOutcome := outcomes[i]? }) ex.log }

/-! Runs of the executor. -/

inductive Call (K Stamp : Type) where
  | step (timestamp : Stamp) (active candidate : Except PyErr K)
  | annotate (outcomes : List K)

def call (ex : Executor K Stamp) : Call K Stamp → Executor K Stamp
  | .step timestamp active candidate => (step ex timestamp active candidate).2
  | .annotate outcomes => annotateOutcomes ex outcomes

/-- What the predictors return and what is observed lies from 0 to 1. -/
def Call.InUnit : Call K Stamp → Prop
  | .step _ active candidate =>
    (∀ a, active = .ok a → a ∈ Set.Icc 0 1) ∧ ∀ c, candidate = .ok c → c ∈ Set.Icc 0 1
  | .annotate outcomes => ∀ o ∈ outcomes, o ∈ Set.Icc 0 1

structure ShadowDecision.InUnit (e : ShadowDecision K Stamp) : Prop where
  active : e.activePred ∈ Set.Icc 0 1
  candidate : e.candidatePred ∈ Set.Icc 0 1
  outcome : ∀ o ∈ e.actualOutcome, o ∈ Set.Icc 0 1

def LogInUnit (ex : Executor K Stamp) : Prop := ∀ e ∈ ex.log, e.InUnit

theorem step_keeps {ex : Executor K Stamp} {timestamp : Stamp} {active candidate : Except PyErr K}
    (logged : LogInUnit ex) (fits : (Call.step timestamp active candidate).InUnit) :
    LogInUnit (step ex timestamp active candidate).2 := by
  cases active with
  | error e => exact logged
  | ok a =>
    cases candidate with
    | error e => exact logged
    | ok c =>
      intro e member
      rcases List.mem_append.mp member with old | new
      · exact logged e old
      · rw [List.mem_singleton.mp new]
        exact ⟨fits.1 a rfl, fits.2 c rfl, by simp⟩

/-- The loop over the log writes only outcomes that were given. -/
theorem annotate_run {outcomes : List K} (fits : ∀ o ∈ outcomes, o ∈ Set.Icc 0 1)
    {log : List (ShadowDecision K Stamp)} (logged : ∀ e ∈ log, e.InUnit) (indices : List ℕ) :
    ∀ e ∈ indices.foldl (fun log i =>
      log.modify i fun old => { old with actualOutcome := outcomes[i]? }) log, e.InUnit := by
  induction indices generalizing log with
  | nil => exact logged
  | cons i rest ih =>
    rw [List.foldl_cons]
    apply ih
    intro e member
    obtain ⟨k, here⟩ := List.mem_iff_getElem?.mp member
    rw [List.getElem?_modify] at here
    obtain ⟨old, found, changed⟩ := Option.map_eq_some_iff.mp here
    have kept := logged old (List.mem_of_getElem? found)
    split at changed
    · subst changed
      exact ⟨kept.active, kept.candidate, fun o given => fits o (List.mem_of_getElem? given)⟩
    · subst changed
      exact kept

theorem run_keeps {calls : List (Call K Stamp)} (fits : ∀ c ∈ calls, c.InUnit)
    {ex : Executor K Stamp} (logged : LogInUnit ex) : LogInUnit (calls.foldl call ex) := by
  induction calls generalizing ex with
  | nil => exact logged
  | cons c rest ih =>
    have first := fits c List.mem_cons_self
    rw [List.foldl_cons]
    apply ih fun other member => fits other (List.mem_cons_of_mem c member)
    cases c with
    | step timestamp active candidate => exact step_keeps logged first
    | annotate outcomes => exact annotate_run first logged _

/-! The gate. -/

variable [FloorRing K]

def eceDelta (ex : Executor K Stamp) : Except PyErr (Option K) :=
  let entries := ex.log.filter fun e => e.actualOutcome.isSome
  if entries = [] then .ok none
  else do
    let activePreds := entries.map fun e => e.activePred
    let candPreds := entries.map fun e => e.candidatePred
    let outs := entries.filterMap fun e => e.actualOutcome
    let candidate ← ece candPreds outs 10
    let active ← ece activePreds outs 10
    .ok (some (candidate - active))

inductive Recommendation where
  | promote
  | reject
  | insufficientData
  deriving DecidableEq

def recommendation (ex : Executor K Stamp) : Except PyErr Recommendation :=
  if (ex.log.length : Int) < ex.minSamples then .ok .insufficientData
  else do
    let meanDiv ← mean (ex.log.map fun e => e.divergenceScore)
    if ex.divergenceReject ≤ meanDiv then .ok .reject
    else do
      let ed ← eceDelta ex
      if ed.any (fun delta => 1 / 20 < delta) then .ok .reject
      else if meanDiv < ex.divergenceWarn then .ok .promote
      else .ok .reject

theorem promoted_within {ex : Executor K Stamp} {d : K}
    (delta : eceDelta ex = .ok (some d)) (promoted : recommendation ex = .ok .promote) :
    d ≤ 1 / 20 := by
  unfold recommendation at promoted
  split at promoted
  · cases promoted
  · obtain ⟨meanDiv, _, promoted⟩ := bind_eq_ok promoted
    split at promoted
    · cases promoted
    · rw [delta, ok_bind, Option.any_some] at promoted
      split at promoted
      · cases promoted
      · rename_i accepted
        simpa using accepted

variable [IsStrictOrderedRing K]

theorem eceDelta_within {ex : Executor K Stamp} (logged : LogInUnit ex) :
    ∃ delta, eceDelta ex = .ok delta ∧ ∀ d ∈ delta, -1 ≤ d ∧ d ≤ 1 := by
  have each : ∀ e ∈ ex.log.filter fun e => e.actualOutcome.isSome, e.InUnit :=
    fun e member => logged e (List.mem_filter.mp member).1
  unfold eceDelta
  dsimp only
  generalize (ex.log.filter fun e => e.actualOutcome.isSome) = entries at each
  by_cases empty : entries = []
  · exact ⟨none, if_pos empty, by simp⟩
  · have outs : ∀ o ∈ entries.filterMap fun e => e.actualOutcome, o ∈ Set.Icc 0 1 := by
      intro o member
      obtain ⟨e, inside, given⟩ := List.mem_filterMap.mp member
      exact (each e inside).outcome o given
    have cands : ∀ p ∈ entries.map fun e => e.candidatePred, p ∈ Set.Icc 0 1 := by
      intro p member
      obtain ⟨e, inside, rfl⟩ := List.mem_map.mp member
      exact (each e inside).candidate
    have actives : ∀ p ∈ entries.map fun e => e.activePred, p ∈ Set.Icc 0 1 := by
      intro p member
      obtain ⟨e, inside, rfl⟩ := List.mem_map.mp member
      exact (each e inside).active
    obtain ⟨candidate, candRan, low, high⟩ := ece_unit (by decide : (1 : Int) ≤ 10) cands outs
    obtain ⟨active, activeRan, low', high'⟩ := ece_unit (by decide : (1 : Int) ≤ 10) actives outs
    refine ⟨some (candidate - active), ?_, ?_⟩
    · rw [if_neg empty, candRan, ok_bind, activeRan, ok_bind]
    · intro d same
      cases same
      constructor <;> linarith

/-- The calibration error lies between the gap of the means and the mean gap, whatever the
    bins, and does not depend on the order of the samples. So what the gate compares lies
    from -1 to 1 after every run. -/
theorem ece_calibrated :
    (∀ (nBins : Int) (preds outcomes : List K), 1 ≤ nBins → preds.length = outcomes.length →
      (∀ p ∈ preds, p ∈ Set.Icc 0 1) → (∀ o ∈ outcomes, o ∈ Set.Icc 0 1) →
      ∃ e, ece preds outcomes nBins = .ok e ∧
        |preds.sum / preds.length - outcomes.sum / outcomes.length| ≤ e ∧
        e ≤ ((preds.zip outcomes).map fun pair => |pair.1 - pair.2|).sum / preds.length ∧
        0 ≤ e ∧ e ≤ 1 ∧
        ∀ preds' outcomes', preds'.length = outcomes'.length →
          (preds'.zip outcomes').Perm (preds.zip outcomes) → ece preds' outcomes' nBins = .ok e) ∧
    ∀ (minSamples : Int) (divergenceWarn divergenceReject : K) (calls : List (Call K Stamp)),
      (∀ c ∈ calls, c.InUnit) →
      let ex := calls.foldl call { minSamples, divergenceWarn, divergenceReject }
      ∃ delta, eceDelta ex = .ok delta ∧ ∀ d ∈ delta, (-1 ≤ d ∧ d ≤ 1) ∧
        (recommendation ex = .ok .promote → d ≤ 1 / 20) := by
  constructor
  · intro nBins preds outcomes some_ same predicted observed
    have nonneg : ∀ p ∈ preds, 0 ≤ p := fun p member => (predicted p member).1
    have value := @ece_eq K _ _ _ _ nBins preds outcomes some_ nonneg
    have low := mean_gap_le some_ nonneg same
    have high := @le_mean_gaps K _ _ _ _ nBins preds outcomes some_ nonneg
    have most := high.trans (mean_gaps_le_one predicted observed)
    refine ⟨_, value, low, high, (abs_nonneg _).trans low, most, ?_⟩
    intro preds' outcomes' same' reordered
    rw [ece_perm some_ nonneg same same' reordered, value]
  · intro minSamples divergenceWarn divergenceReject calls fits ex
    have start : LogInUnit ({ minSamples, divergenceWarn, divergenceReject } : Executor K Stamp) :=
      by simp [LogInUnit]
    obtain ⟨delta, found, within⟩ := eceDelta_within (run_keeps fits start)
    refine ⟨delta, found, fun d same => ⟨within d same, fun promoted => ?_⟩⟩
    cases same
    exact promoted_within found promoted

/-- The prediction 1 falls into the last of two bins. -/
theorem sampleLog_calibrated :
    (∃ e, ece [0, 1 / 4, 1] [0, 1, 1] 2 = .ok e ∧ |(5 / 4 : ℚ) / 3 - 2 / 3| ≤ e ∧ e ≤ 1) ∧
    ∃ delta : Option ℚ, eceDelta ([.step 0 (.ok 1) (.ok (1 / 2)), .annotate [1]].foldl call
      { minSamples := 1, divergenceWarn := 1 / 10, divergenceReject := 3 / 10 } :
        Executor ℚ ℕ) = .ok delta ∧ ∀ d ∈ delta, -1 ≤ d ∧ d ≤ 1 := by
  constructor
  · obtain ⟨e, value, low, _, _, high, _⟩ := (@ece_calibrated ℚ ℕ _ _ _ _).1 2
      [0, 1 / 4, 1] [0, 1, 1] (by decide) rfl (by decide +kernel) (by decide +kernel)
    refine ⟨e, value, ?_, high⟩
    norm_num at low ⊢
    exact low
  · obtain ⟨delta, value, within⟩ := (@ece_calibrated ℚ ℕ _ _ _ _).2 1 (1 / 10) (3 / 10)
      [.step 0 (.ok 1) (.ok (1 / 2)), .annotate [1]] (by
        intro c member
        simp only [List.mem_cons, List.not_mem_nil, or_false] at member
        rcases member with rfl | rfl
        · constructor
          · rintro a ⟨⟩
            norm_num
          · rintro c ⟨⟩
            norm_num
        · intro o member
          rw [List.mem_singleton.mp member]
          norm_num)
    exact ⟨delta, value, fun d same => (within d same).1⟩

end HorizonRic.ShadowExecutor
