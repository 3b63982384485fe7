import HorizonRic.Python.Rounding
import HorizonRic.Shield.Sweep

/-!
The checks of the spectral mask and of the EIRP ceiling with the rounding of their
sums. Without rounding they are the checks of the two invariants.
-/
namespace HorizonRic
open Py

variable (py : Interpreter) (r : Rounding)

namespace SpectralMask
variable (mask : SpectralMask)

def roundedEdges (action : Action) : Except PyErr (Number × Number) := do
  let f ← floatField py action "frequency_hz" zero
  let bw ← floatField py action "bandwidth_hz" zero
  .ok (r.sub f (r.divBy bw 2), r.add f (r.divBy bw 2))

def roundedMegahertz (x : Number) : String := fmtFixed 3 (r.divBy x (10 ^ 6))

def roundedMargin (lo hi : Number) : Number :=
  Number.min (r.sub lo (r.add mask.bandLoHz mask.guardBandHz))
    (r.sub (r.sub mask.bandHiHz mask.guardBandHz) hi)

def roundedEvaluate (action : Action) (_context : Context) : Except PyErr InvariantCheck := do
  let (lo, hi) ← roundedEdges py r action
  let margin := roundedMargin r mask lo hi
  let loText := roundedMegahertz r lo
  let hiText := roundedMegahertz r hi
  let bandLo := roundedMegahertz r mask.bandLoHz
  let bandHi := roundedMegahertz r mask.bandHiHz
  let guardText := roundedMegahertz r mask.guardBandHz
  .ok ⟨id, Number.le (.fin 0) margin, some margin, "Hz",
    s!"occupied [{loText},{hiText}] MHz vs band [{bandLo},{bandHi}] MHz (guard {guardText} MHz)"⟩

/-- The invariant with the rounded check. -/
def roundedInvariant : Invariant := ⟨id, roundedEvaluate py r mask, project py mask⟩

theorem roundedInvariant_exact : roundedInvariant py .exact mask = invariant py mask := by
  have same : roundedEvaluate py .exact mask = evaluate py mask := by
    funext action ctx
    simp only [roundedEvaluate, roundedEdges, roundedMargin, roundedMegahertz, evaluate, edges,
      usableLo, usableHi, megahertz, Rounding.add_exact, Rounding.sub_exact, Rounding.divBy_exact]
  rw [roundedInvariant, invariant, same]

theorem roundedInvariant_checkable : (roundedInvariant py r mask).Checkable := fun _ _ =>
  .bind (.bind (floatField_raises py _ _ _) fun _ => .bind (floatField_raises py _ _ _) fun _ =>
    .ok _) fun ⟨_, _⟩ => .ok _

variable {py r mask}

/-- Within the usable channel, at both edges. -/
theorem roundedMargin_iff {bandLo bandHi : ℚ} {low high : Number}
    (usableLo : r.add mask.bandLoHz mask.guardBandHz = .fin bandLo)
    (usableHi : r.sub mask.bandHiHz mask.guardBandHz = .fin bandHi) (known : high ≠ .nan) :
    Number.le (.fin 0) (roundedMargin r mask low high) = true ↔
      Number.le (.fin bandLo) low = true ∧ Number.le high (.fin bandHi) = true := by
  have margin : r.sub (.fin bandHi) high ≠ .nan := Rounding.fin_sub_ne_nan bandHi known
  rw [roundedMargin, usableLo, usableHi, Number.zero_le_min_iff, Rounding.zero_le_sub_fin,
    Rounding.zero_le_fin_sub, or_iff_right margin]

theorem rounded_holds_iff {action : Action} {ctx : Context} {f bw : Number}
    (frequency : floatField py action "frequency_hz" zero = .ok f)
    (bandwidth : floatField py action "bandwidth_hz" zero = .ok bw) :
    Holds action ctx (roundedInvariant py r mask) ↔
      Number.le (.fin 0)
        (roundedMargin r mask (r.sub f (r.divBy bw 2)) (r.add f (r.divBy bw 2))) = true := by
  rw [HorizonRic.holds_iff]
  simp only [roundedInvariant, roundedEvaluate, roundedEdges, frequency, bandwidth, ok_bind]

end SpectralMask

namespace MaxEirp
variable (cap : MaxEirp)

def roundedEirp (action : Action) : Except PyErr Number := do
  let tx ← floatField py action "tx_power_dBm" zero
  let gain ← floatField py action "antenna_gain_dBi" zero
  .ok (r.add tx gain)

def roundedEvaluate (action : Action) (_context : Context) : Except PyErr InvariantCheck := do
  let e ← roundedEirp py r action
  let margin := r.sub cap.maxEirpDBm e
  let eirpText := fmtFixed 2 e
  let ceiling := fmtFixed 2 cap.maxEirpDBm
  .ok ⟨id, Number.le (.fin 0) margin, some margin, "dB",
    s!"EIRP {eirpText} dBm vs ceiling {ceiling} dBm"⟩

def roundedInvariant : Invariant := ⟨id, roundedEvaluate py r cap, project py cap⟩

theorem roundedInvariant_exact : roundedInvariant py .exact cap = invariant py cap := by
  have same : roundedEvaluate py .exact cap = evaluate py cap := by
    funext action ctx
    simp only [roundedEvaluate, roundedEirp, evaluate, eirp, Rounding.add_exact,
      Rounding.sub_exact]
  rw [roundedInvariant, invariant, same]

theorem roundedInvariant_checkable : (roundedInvariant py r cap).Checkable := fun _ _ =>
  .bind (.bind (floatField_raises py _ _ _) fun _ => .bind (floatField_raises py _ _ _) fun _ =>
    .ok _) fun _ => .ok _

variable {py r cap}

theorem rounded_holds_iff {action : Action} {ctx : Context} {tx gain : Number}
    (power : floatField py action "tx_power_dBm" zero = .ok tx)
    (antenna : floatField py action "antenna_gain_dBi" zero = .ok gain) :
    Holds action ctx (roundedInvariant py r cap) ↔
      Number.le (.fin 0) (r.sub cap.maxEirpDBm (r.add tx gain)) = true := by
  rw [HorizonRic.holds_iff]
  simp only [roundedInvariant, roundedEvaluate, roundedEirp, power, antenna, ok_bind]

end MaxEirp
end HorizonRic
