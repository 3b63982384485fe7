import HorizonRic.Shield.Soundness

/-!
The power flux density mask of the NTN shield. The ceiling is enforced on every
action that says it is an NTN downlink, whatever its other fields hold; one that
does not say so is graded as a terrestrial carrier.
-/
namespace HorizonRic
open Py

theorem applies_dispose {py : Interpreter} {p : NtnParams} {action : Action}
    {context : Option Context} {args : DisposeArgs} {d : ShieldDisposition}
    (h : (defaultNtnShield py p).dispose py action context args = .ok d) :
    PfdCeiling.applies d.safeAction = PfdCeiling.applies action := by
  have writes := Shield.dispose_writes (ntn_chain py p).safe h
  unfold PfdCeiling.applies
  rw [writes.getD (by decide)]

theorem dispose_pfd_within (py : Interpreter) (p : NtnParams) (action : Action)
    (context : Option Context) (args : DisposeArgs) (d : ShieldDisposition)
    (h : (defaultNtnShield py p).dispose py action context args = .ok d)
    (ntn : PfdCeiling.applies action = true) (safe : d.certificate.safe = true) :
    PfdWithin py p.maxPfd d.safeAction := by
  rcases (Shield.dispose_verdict h).2 with ⟨_, _, chain⟩ | ⟨notSafe, _⟩
  · have applies : PfdCeiling.applies d.safeAction = true := by rw [applies_dispose h, ntn]
    have holds := chain (PfdCeiling.invariant py ⟨p.maxPfd⟩) (by simp [defaultNtnShield])
    exact pfd_of_holds py holds applies
  · rw [safe] at notSafe
    cases notSafe

/-- The logarithms of a 550 km link of 1 MHz. -/
def linkInterpreter : Interpreter where
  floatOfStr _ := none
  intOfStr _ := none
  floatRepr _ := ""
  strRepr s := s
  log10 q := if q = 1 then 0 else 12579935243010583 / 10 ^ 15

def ntnParams : NtnParams where
  bandLoHz := .fin 10700000000
  bandHiHz := .fin 12700000000
  maxEirpDBm := .fin 33
  maxPfd := .fin (-146)
  liConstraint := none
  neuralRxToleranceDB := .fin 1

/-- A satellite downlink of 1 MHz at 11 GHz. -/
def downlink (gain : ℚ) : Action :=
  [("frequency_hz", .float (.fin 11000000000)), ("bandwidth_hz", .float (.fin 1000000)),
    ("tx_power_dBm", .float (.fin 0)), ("sat_antenna_gain_dBi", .float (.fin gain)),
    ("slant_range_m", .float (.fin 550000))]

def ntnDownlink (gain : ℚ) : Action := ("ntn", .bool true) :: downlink gain

theorem dispose_pfd_within_downlink :
    ∃ d, (defaultNtnShield linkInterpreter ntnParams).dispose linkInterpreter (ntnDownlink 0)
        none plainArgs = .ok d ∧
      d.certificate.safe = true ∧ PfdWithin linkInterpreter ntnParams.maxPfd d.safeAction := by
  obtain ⟨d, hd, safe, _⟩ := Shield.dispose_of_holds
    (defaultNtnShield linkInterpreter ntnParams) linkInterpreter (ntnDownlink 0) none plainArgs
    (by decide) (by decide +kernel) (by decide)
  exact ⟨d, hd, safe, dispose_pfd_within _ ntnParams _ _ _ d hd (by decide) safe⟩

/-- Without the `ntn` flag a 40 dBi downlink is certified well above the mask. -/
theorem downlink_unflagged_above_mask :
    ∃ d, (defaultNtnShield linkInterpreter ntnParams).dispose linkInterpreter (downlink 40)
        none plainArgs = .ok d ∧
      d.certificate.safe = true ∧
      ¬ PfdWithin linkInterpreter ntnParams.maxPfd d.safeAction := by
  obtain ⟨d, hd, safe, same, _⟩ := Shield.dispose_of_holds
    (defaultNtnShield linkInterpreter ntnParams) linkInterpreter (downlink 40) none plainArgs
    (by decide) (by decide +kernel) (by decide)
  refine ⟨d, hd, safe, ?_⟩
  rintro ⟨pfd, hpfd, within⟩
  rw [same] at hpfd
  have pfdOf : PfdCeiling.computePfd linkInterpreter (downlink 40) =
      .ok (.fin (-(115799352430105830 : ℚ) / 10 ^ 15)) := by
    decide +kernel
  rw [pfdOf] at hpfd
  cases hpfd
  revert within
  decide +kernel

end HorizonRic
