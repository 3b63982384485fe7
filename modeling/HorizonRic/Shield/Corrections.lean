import HorizonRic.Shield.Soundness

/-!
What a caller of the terrestrial Shield relies on beside the verdict: every
correction is a hard one, and a transmit power given as a float stays a float.
-/
namespace HorizonRic
open Py

/-- Every correction of the invariant's projections is hard. -/
def Invariant.Hard (inv : Invariant) : Prop :=
  ∀ action ctx next corr, inv.project action ctx = .ok (next, corr) →
    ∀ c ∈ corr, c.severity = "hard"

/-- A transmit power that is a float is one afterwards. -/
def TxKept (before after : Action) : Prop :=
  (∃ x, Dict.get? "tx_power_dBm" before = some (.float x)) →
    ∃ x, Dict.get? "tx_power_dBm" after = some (.float x)

theorem TxKept.refl (action : Action) : TxKept action action := fun h => h

theorem TxKept.set_ne (action : Action) {key : String} (value : Value)
    (ne : key ≠ "tx_power_dBm") : TxKept action (action.set key value) := by
  rintro ⟨x, float⟩
  exact ⟨x, by rw [Dict.get?_set_ne _ _ ne, float]⟩

theorem TxKept.trans {a b c : Action} (hab : TxKept a b) (hbc : TxKept b c) : TxKept a c :=
  fun float => hbc (hab float)

theorem frame_txKept : Frame TxKept where
  refl := .refl
  trans := .trans
  block _ := .set_ne _ _ (by decide)

section
variable (py : Interpreter)

theorem NumericSanity.hard : (NumericSanity.invariant py).Hard := by
  intro action ctx next corr h c member
  simp only [invariant, project] at h
  split at h <;> cases h
  · cases member
  · rw [List.mem_singleton.mp member]

theorem NumericSanity.txKept : (NumericSanity.invariant py).Respects TxKept := by
  intro action ctx next corr h
  rcases project_cases py ctx h with ⟨_, rfl, _⟩ | ⟨_, rfl⟩
  · exact .refl _
  · exact frame_txKept.block _

theorem SpectralMask.hard (mask : SpectralMask) : (SpectralMask.invariant py mask).Hard := by
  intro action ctx next corr h c member
  obtain ⟨bw, _, h⟩ := bind_eq_ok h
  split at h
  · cases h
    rw [List.mem_singleton.mp member]
  · obtain ⟨f, _, h⟩ := bind_eq_ok h
    dsimp only at h
    split at h <;> cases h
    · cases member
    · rw [List.mem_singleton.mp member]

theorem SpectralMask.txKept (mask : SpectralMask) :
    (SpectralMask.invariant py mask).Respects TxKept := by
  intro action ctx next corr h
  rcases project_cases py mask ctx h with rfl | ⟨rfl, _⟩ | ⟨f, rfl⟩
  · exact frame_txKept.block _
  · exact .refl _
  · exact .set_ne _ _ (by decide)

theorem MaxEirp.hard (cap : MaxEirp) : (MaxEirp.invariant py cap).Hard := by
  intro action ctx next corr h c member
  obtain ⟨e, _, h⟩ := bind_eq_ok h
  dsimp only at h
  split at h
  · obtain ⟨tx, _, h⟩ := bind_eq_ok h
    cases h
    rw [List.mem_singleton.mp member]
  · cases h
    cases member

theorem MaxEirp.txKept (cap : MaxEirp) : (MaxEirp.invariant py cap).Respects TxKept := by
  intro action ctx next corr h
  rcases project_cases py cap ctx h with rfl | ⟨tx, rfl⟩
  · exact .refl _
  · intro _
    exact ⟨tx, Dict.get?_set_self _ _ _⟩

theorem NeuralRxEnvelope.hard (env : NeuralRxEnvelope) :
    (NeuralRxEnvelope.invariant py env).Hard := by
  intro action ctx next corr h c member
  obtain ⟨check, _, h⟩ := bind_eq_ok h
  split at h
  · cases h
    cases member
  · obtain ⟨predicted, _, h⟩ := bind_eq_ok h
    cases h
    rw [List.mem_singleton.mp member]

theorem NeuralRxEnvelope.txKept (env : NeuralRxEnvelope) :
    (NeuralRxEnvelope.invariant py env).Respects TxKept := by
  intro action ctx next corr h
  rcases project_cases py env ctx h with ⟨rfl, _⟩ | ⟨predicted, rfl⟩
  · exact .refl _
  · refine (TxKept.set_ne _ _ ?_).trans ((TxKept.set_ne _ _ ?_).trans (TxKept.set_ne _ _ ?_)) <;>
      decide

theorem ConstellationLegality.hard (legal : ConstellationLegality) :
    (ConstellationLegality.invariant py legal).Hard := by
  intro action ctx next corr h c member
  obtain ⟨applied, _, h⟩ := bind_eq_ok h
  split at h
  · obtain ⟨⟨snapped, orderCorr⟩, snap, h⟩ := bind_eq_ok h
    obtain ⟨⟨out, paprCorr⟩, clip, h⟩ := bind_eq_ok h
    cases h
    rcases List.mem_append.mp member with order | papr
    · obtain ⟨value, _, snap⟩ := bind_eq_ok snap
      split at snap
      · cases snap
        cases order
      · obtain ⟨text, _, snap⟩ := bind_eq_ok snap
        cases snap
        rw [List.mem_singleton.mp order]
    · obtain ⟨value, _, clip⟩ := bind_eq_ok clip
      split at clip <;> cases clip
      · rw [List.mem_singleton.mp papr]
      · cases papr
  · cases h
    cases member

theorem ConstellationLegality.txKept (legal : ConstellationLegality) :
    (ConstellationLegality.invariant py legal).Respects TxKept := by
  have repaired : ∀ {action next : Action}, legal.Repaired action next → TxKept action next := by
    rintro action next (rfl | ⟨key, value, field, rfl⟩)
    · exact .refl _
    · have other : key ≠ "tx_power_dBm" := by rcases field with rfl | rfl <;> decide
      refine (TxKept.set_ne _ _ other).trans ((TxKept.set_ne _ _ ?_).trans (TxKept.set_ne _ _ ?_)) <;>
        decide
  intro action ctx next corr h
  obtain ⟨snapped, first, second⟩ := project_cases py legal ctx h
  exact (repaired first).trans (repaired second)

end

theorem projectAll_hard {invs : List Invariant} (hard : ∀ inv ∈ invs, inv.Hard) {ctx : Context}
    {action next : Action} {corr : List ConstraintViolation}
    (h : projectAll ctx invs action = .ok (next, corr)) : ∀ c ∈ corr, c.severity = "hard" := by
  induction invs generalizing action next corr with
  | nil =>
    cases h
    simp
  | cons inv rest ih =>
    have restHard := fun other member => hard other (List.mem_cons_of_mem inv member)
    unfold projectAll at h
    split at h
    · rename_i mid midCorr ok
      have first := hard inv List.mem_cons_self _ _ _ _ ok
      split at h
      · cases h
        exact first
      · obtain ⟨⟨last, more⟩, swept, h⟩ := bind_eq_ok h
        cases h
        intro c member
        rcases List.mem_append.mp member with here | later
        · exact first c here
        · exact ih restHard swept c later
    · split at h <;> cases h
      intro c member
      rw [List.mem_singleton.mp member]
      rfl

namespace Shield
variable {shield : Shield}

theorem projectLoop_hard (hard : ∀ inv ∈ shield.invariants, inv.Hard) {ctx : Context}
    {passes : Nat} {s out : LoopState} (start : ∀ c ∈ s.corrections, c.severity = "hard")
    (h : shield.projectLoop ctx passes s = .ok out) :
    ∀ c ∈ out.corrections, c.severity = "hard" := by
  induction passes generalizing s with
  | zero =>
    cases h
    exact start
  | succ passes ih =>
    obtain ⟨checks, _, h⟩ := bind_eq_ok h
    split at h
    · cases h
      exact start
    · obtain ⟨⟨next, corr⟩, swept, h⟩ := bind_eq_ok h
      have both : ∀ c ∈ s.corrections ++ corr, c.severity = "hard" := by
        intro c member
        rcases List.mem_append.mp member with old | new
        · exact start c old
        · exact projectAll_hard hard swept c new
      dsimp only at h
      split at h
      · cases h
        exact both
      · exact ih both h

theorem dispose_hard (hard : ∀ inv ∈ shield.invariants, inv.Hard) {py : Interpreter}
    {action : Action} {context : Option Context} {args : DisposeArgs} {d : ShieldDisposition}
    (h : shield.dispose py action context args = .ok d) :
    ∀ c ∈ d.certificate.corrections, c.severity = "hard" := by
  obtain ⟨text, _, h⟩ := bind_eq_ok h
  obtain ⟨s, loop, h⟩ := bind_eq_ok h
  obtain ⟨checks, _, h⟩ := bind_eq_ok h
  obtain ⟨changed, _, h⟩ := bind_eq_ok h
  cases h
  exact projectLoop_hard hard (by simp) loop

end Shield

/-- The terrestrial chain without lawful intercept, as the pipeline builds it. -/
theorem terrestrial_corrections (py : Interpreter) {p : TerrestrialParams}
    (open' : p.liConstraint = none) {action : Action} {context : Option Context}
    {args : DisposeArgs} {d : ShieldDisposition}
    (h : (defaultTerrestrialShield py p).dispose py action context args = .ok d) :
    (∀ c ∈ d.certificate.corrections, c.severity = "hard") ∧ TxKept action d.safeAction := by
  have members : ∀ inv ∈ (defaultTerrestrialShield py p).invariants,
      inv.Hard ∧ inv.Respects TxKept := by
    intro inv member
    simp only [defaultTerrestrialShield, open', liChain, List.append_nil, List.mem_append,
      List.mem_cons, List.not_mem_nil, or_false] at member
    rcases member with rfl | rfl | rfl | rfl | rfl
    · exact ⟨NumericSanity.hard py, NumericSanity.txKept py⟩
    · exact ⟨SpectralMask.hard py _, SpectralMask.txKept py _⟩
    · exact ⟨MaxEirp.hard py _, MaxEirp.txKept py _⟩
    · exact ⟨NeuralRxEnvelope.hard py _, NeuralRxEnvelope.txKept py _⟩
    · exact ⟨ConstellationLegality.hard py _, ConstellationLegality.txKept py _⟩
  exact ⟨Shield.dispose_hard (fun inv member => (members inv member).1) h,
    Shield.dispose_respects frame_txKept (fun inv member => (members inv member).2) h⟩

end HorizonRic
