import HorizonRic.Python.Raises
import HorizonRic.Shield.Shield

/-!
What one projection can do. Each default invariant raises only the classes the
Shield catches, writes only the keys it declares, and leaves the block as it is
or sets it to a text. The loop of `dispose` inherits all three.
-/
namespace HorizonRic
open Py

theorem caught_eq_dataError : caught = isDataError := by
  funext e
  cases e <;> rfl

/-- The keys the radio invariants, or the Shield itself, write. -/
def radioKeys : List String :=
  ["emit_blocked", "frequency_hz", "tx_power_dBm", "block", "shield_fallback_to",
    "predicted_tbler", "constellation_order", "papr_dB"]

def writtenKeys : List String := "affected_ue_ids" :: radioKeys

/-- Every projection of the invariant takes an action to a related one. -/
def Invariant.Respects (inv : Invariant) (R : Action → Action → Prop) : Prop :=
  ∀ action ctx next corr, inv.project action ctx = .ok (next, corr) → R action next

def BlockKept (before after : Action) : Prop :=
  Dict.get? "block" after = Dict.get? "block" before ∨
    ∃ s, Dict.get? "block" after = some (.str s)

structure Invariant.Contained (keys : List String) (inv : Invariant) : Prop where
  evaluateRaises : ∀ action ctx, RaisesOnly isDataError (inv.evaluate action ctx)
  projectRaises : ∀ action ctx, RaisesOnly isDataError (inv.project action ctx)
  writes : inv.Respects (Dict.SameOutside keys)
  blockKept : inv.Respects BlockKept

theorem BlockKept.refl (action : Action) : BlockKept action action := Or.inl rfl

theorem BlockKept.set_ne (action : Action) {key : String} (value : Value) (ne : key ≠ "block") :
    BlockKept action (action.set key value) :=
  Or.inl (Dict.get?_set_ne action value ne)

theorem BlockKept.trans {a b c : Action} (hab : BlockKept a b) (hbc : BlockKept b c) :
    BlockKept a c := by
  rcases hbc with same | text
  · rcases hab with same' | ⟨s, text⟩
    · exact Or.inl (same.trans same')
    · exact Or.inr ⟨s, same.trans text⟩
  · exact Or.inr text

theorem isBlocked_block (action : Action) : isBlocked (block action) = true := by
  rw [isBlocked, block, Dict.getD_set_self]
  rfl

theorem block_writes (action : Action) : Dict.SameOutside radioKeys action (block action) :=
  (Dict.SameOutside.refl _ _).set (by decide) _

theorem block_blockKept (action : Action) : BlockKept action (block action) :=
  BlockKept.set_ne action _ (by decide)

section
variable (py : Interpreter)

theorem floatField_raises (action : Action) (key : String) (default : Value) :
    RaisesOnly isDataError (floatField py action key default) :=
  toFloat_raises py _

namespace NumericSanity

/-- A sane action passes unchanged, any other one is blocked. -/
theorem project_cases {action next : Action} (ctx : Context) {corr : List ConstraintViolation}
    (h : project py action ctx = .ok (next, corr)) :
    (problems py action = [] ∧ next = action ∧ corr = []) ∨
      (problems py action ≠ [] ∧ next = block action) := by
  simp only [project] at h
  split at h
  · rename_i sane
    cases h
    exact Or.inl ⟨List.isEmpty_iff.mp sane, rfl, rfl⟩
  · rename_i insane
    cases h
    exact Or.inr ⟨fun empty => insane (List.isEmpty_iff.mpr empty), rfl⟩

theorem project_sane {action : Action} (ctx : Context) (sane : problems py action = []) :
    (invariant py).project action ctx = .ok (action, []) := by
  simp only [invariant, project, sane, List.isEmpty_nil, if_true]

theorem project_insane {action : Action} (ctx : Context) (insane : problems py action ≠ []) :
    ∃ corr, (invariant py).project action ctx = .ok (block action, corr) := by
  have found : (problems py action).isEmpty = false := by simpa using insane
  simp only [invariant, project, found, Bool.false_eq_true, if_false]
  exact ⟨_, rfl⟩

theorem contained : (invariant py).Contained radioKeys where
  evaluateRaises _ _ := .ok _
  projectRaises _ _ := .ite (.ok _) (.ok _)
  writes := by
    intro action ctx next corr h
    rcases project_cases py ctx h with ⟨_, rfl, _⟩ | ⟨_, rfl⟩
    · exact .refl _ _
    · exact block_writes _
  blockKept := by
    intro action ctx next corr h
    rcases project_cases py ctx h with ⟨_, rfl, _⟩ | ⟨_, rfl⟩
    · exact .refl _
    · exact block_blockKept _

end NumericSanity

namespace SpectralMask
variable (mask : SpectralMask)

theorem edges_raises (action : Action) : RaisesOnly isDataError (edges py action) :=
  .bind (floatField_raises py _ _ _) fun _ => .bind (floatField_raises py _ _ _) fun _ => .ok _

/-- A carrier that is too wide is refused; any other one is moved or left. -/
theorem project_cases {action next : Action} (ctx : Context) {corr : List ConstraintViolation}
    (h : project py mask action ctx = .ok (next, corr)) :
    next = block action ∨ (next = action ∧ corr = []) ∨
      ∃ f, next = action.set "frequency_hz" (.float f) := by
  obtain ⟨bw, _, h⟩ := bind_eq_ok h
  split at h
  · cases h
    exact Or.inl rfl
  · obtain ⟨f, _, h⟩ := bind_eq_ok h
    dsimp only at h
    split at h
    · cases h
      exact Or.inr (Or.inl ⟨rfl, rfl⟩)
    · cases h
      exact Or.inr (Or.inr ⟨_, rfl⟩)

theorem contained : (invariant py mask).Contained radioKeys where
  evaluateRaises _ _ := .bind (edges_raises py _) fun ⟨_, _⟩ => .ok _
  projectRaises _ _ :=
    .bind (floatField_raises py _ _ _) fun _ =>
      .ite (.ok _) (.bind (floatField_raises py _ _ _) fun _ => .ite (.ok _) (.ok _))
  writes := by
    intro action ctx next corr h
    rcases project_cases py mask ctx h with rfl | ⟨rfl, _⟩ | ⟨f, rfl⟩
    · exact block_writes _
    · exact .refl _ _
    · exact (Dict.SameOutside.refl _ _).set (by decide) _
  blockKept := by
    intro action ctx next corr h
    rcases project_cases py mask ctx h with rfl | ⟨rfl, _⟩ | ⟨f, rfl⟩
    · exact block_blockKept _
    · exact .refl _
    · exact .set_ne _ _ (by decide)

end SpectralMask

/-- Both power ceilings leave an action or lower its transmit power. -/
def PowerOnly (action next : Action) : Prop :=
  next = action ∨ ∃ tx, next = action.set "tx_power_dBm" (.float tx)

theorem PowerOnly.writes {action next : Action} (h : PowerOnly action next) :
    Dict.SameOutside radioKeys action next := by
  rcases h with rfl | ⟨tx, rfl⟩
  · exact .refl _ _
  · exact (Dict.SameOutside.refl _ _).set (by decide) _

theorem PowerOnly.blockKept {action next : Action} (h : PowerOnly action next) :
    BlockKept action next := by
  rcases h with rfl | ⟨tx, rfl⟩
  · exact .refl _
  · exact .set_ne _ _ (by decide)

namespace MaxEirp
variable (cap : MaxEirp)

theorem eirp_raises (action : Action) : RaisesOnly isDataError (eirp py action) :=
  .bind (floatField_raises py _ _ _) fun _ => .bind (floatField_raises py _ _ _) fun _ => .ok _

theorem project_cases {action next : Action} (ctx : Context) {corr : List ConstraintViolation}
    (h : project py cap action ctx = .ok (next, corr)) : PowerOnly action next := by
  obtain ⟨e, _, h⟩ := bind_eq_ok h
  dsimp only at h
  split at h
  · obtain ⟨tx, _, h⟩ := bind_eq_ok h
    cases h
    exact Or.inr ⟨_, rfl⟩
  · cases h
    exact Or.inl rfl

theorem contained : (invariant py cap).Contained radioKeys where
  evaluateRaises _ _ := .bind (eirp_raises py _) fun _ => .ok _
  projectRaises _ _ :=
    .bind (eirp_raises py _) fun _ =>
      .ite (.bind (floatField_raises py _ _ _) fun _ => .ok _) (.ok _)
  writes _ ctx _ _ h := (project_cases py cap ctx h).writes
  blockKept _ ctx _ _ h := (project_cases py cap ctx h).blockKept

end MaxEirp

namespace PfdCeiling
variable (cap : PfdCeiling)

theorem computePfd_raises (action : Action) : RaisesOnly isDataError (computePfd py action) :=
  .bind (floatField_raises py _ _ _) fun _ => .bind (floatField_raises py _ _ _) fun _ =>
    .bind (floatField_raises py _ _ _) fun _ => .bind (mathLog10_raises py _) fun _ =>
      .bind (floatField_raises py _ _ _) fun _ => .bind (mathLog10_raises py _) fun _ => .ok _

theorem project_cases {action next : Action} (ctx : Context) {corr : List ConstraintViolation}
    (h : project py cap action ctx = .ok (next, corr)) : PowerOnly action next := by
  simp only [project] at h
  split at h
  · obtain ⟨pfd, _, h⟩ := bind_eq_ok h
    split at h
    · obtain ⟨tx, _, h⟩ := bind_eq_ok h
      cases h
      exact Or.inr ⟨_, rfl⟩
    · cases h
      exact Or.inl rfl
  · cases h
    exact Or.inl rfl

theorem contained : (invariant py cap).Contained radioKeys where
  evaluateRaises _ _ := .ite (.bind (computePfd_raises py _) fun _ => .ok _) (.ok _)
  projectRaises _ _ :=
    .ite (.bind (computePfd_raises py _) fun _ =>
      .ite (.bind (floatField_raises py _ _ _) fun _ => .ok _) (.ok _)) (.ok _)
  writes _ ctx _ _ h := (project_cases py cap ctx h).writes
  blockKept _ ctx _ _ h := (project_cases py cap ctx h).blockKept

end PfdCeiling

namespace NeuralRxEnvelope
variable (env : NeuralRxEnvelope)

def fallBack (action : Action) (predicted : Number) : Action :=
  ((action.set "block" (.str env.fallbackBlock)).set fallbackKey
    (.str env.fallbackBlock)).set "predicted_tbler" (.float predicted)

theorem applies_raises (action : Action) : RaisesOnly isDataError (applies py action) :=
  .bind (toStr_raises py _) fun _ => .ok _

theorem grade_raises (action : Action) (base measured : Number) (src : String) :
    RaisesOnly isDataError (env.grade py action base measured src) :=
  .bind (div_raises _ _) fun _ => .bind (mathLog10_raises py _) fun _ =>
    .bind (floatField_raises py _ _ _) fun _ => .ok _

theorem evaluate_raises (action : Action) (ctx : Context) :
    RaisesOnly isDataError (env.evaluate py action ctx) := by
  refine .bind (applies_raises py action) fun applies => ?_
  refine .ite ?_ (.ok _)
  refine .bind (floatField_raises py _ _ _) fun base => ?_
  refine .bind (floatField_raises py _ _ _) fun selfReported => ?_
  split
  · exact .ite (.ok _) (env.grade_raises py _ _ _ _)
  · exact .bind (toFloat_raises py _) fun _ => env.grade_raises py _ _ _ _

theorem project_cases {action next : Action} (ctx : Context) {corr : List ConstraintViolation}
    (h : project py env action ctx = .ok (next, corr)) :
    (next = action ∧ corr = []) ∨ ∃ predicted, next = env.fallBack action predicted := by
  obtain ⟨check, _, h⟩ := bind_eq_ok h
  split at h
  · cases h
    exact Or.inl ⟨rfl, rfl⟩
  · obtain ⟨predicted, _, h⟩ := bind_eq_ok h
    cases h
    exact Or.inr ⟨predicted, rfl⟩

theorem contained : (invariant py env).Contained radioKeys where
  evaluateRaises := env.evaluate_raises py
  projectRaises _ _ :=
    .bind (env.evaluate_raises py _ _) fun _ =>
      .ite (.ok _) (.bind (floatField_raises py _ _ _) fun _ => .ok _)
  writes := by
    intro action ctx next corr h
    rcases project_cases py env ctx h with ⟨rfl, _⟩ | ⟨predicted, rfl⟩
    · exact .refl _ _
    · exact (((Dict.SameOutside.refl _ _).set (by decide) _).set (by decide) _).set
        (by decide) _
  blockKept := by
    intro action ctx next corr h
    rcases project_cases py env ctx h with ⟨rfl, _⟩ | ⟨predicted, rfl⟩
    · exact .refl _
    · right
      refine ⟨env.fallbackBlock, ?_⟩
      rw [fallBack, Dict.get?_set_ne _ _ (by decide), Dict.get?_set_ne _ _ (by decide),
        Dict.get?_set_self]

end NeuralRxEnvelope

namespace ConstellationLegality
variable (legal : ConstellationLegality)

/-- One repair: set a field, then fall back to the classical block. -/
def Repaired (action next : Action) : Prop :=
  next = action ∨ ∃ key value, (key = "constellation_order" ∨ key = "papr_dB") ∧
    next = legal.fallBack (action.set key value)

theorem Repaired.writes {action next : Action} (h : legal.Repaired action next) :
    Dict.SameOutside radioKeys action next := by
  rcases h with rfl | ⟨key, value, field, rfl⟩
  · exact .refl _ _
  · have member : key ∈ radioKeys := by rcases field with rfl | rfl <;> decide
    exact (((Dict.SameOutside.refl _ _).set member _).set (by decide) _).set (by decide) _

theorem Repaired.blockKept {action next : Action} (h : legal.Repaired action next) :
    BlockKept action next := by
  rcases h with rfl | ⟨key, value, _, rfl⟩
  · exact .refl _
  · right
    refine ⟨legal.fallbackBlock, ?_⟩
    rw [fallBack, Dict.get?_set_ne _ _ (by decide), Dict.get?_set_self]

theorem applies_raises (action : Action) : RaisesOnly isDataError (applies py action) := by
  simp only [applies]
  exact .ite (.ok _) (.bind (toStr_raises py _) fun _ => .ok _)

theorem evaluate_raises (action : Action) (ctx : Context) :
    RaisesOnly isDataError (legal.evaluate py action ctx) :=
  .bind (applies_raises py action) fun _ => .ite
    (.bind (toInt_raises py _) fun _ => .bind (floatField_raises py _ _ _) fun _ =>
      .bind (intStr_raises _) fun _ => .ok _) (.ok _)

theorem snapOrder_raises (action : Action) :
    RaisesOnly isDataError (legal.snapOrder py action) :=
  .bind (toInt_raises py _) fun _ => .ite (.ok _) (.bind (intStr_raises _) fun _ => .ok _)

theorem clipPapr_raises (action : Action) :
    RaisesOnly isDataError (legal.clipPapr py action) :=
  .bind (floatField_raises py _ _ _) fun _ => .ite (.ok _) (.ok _)

theorem snapOrder_repaired {action next : Action} {corr : List ConstraintViolation}
    (h : legal.snapOrder py action = .ok (next, corr)) : legal.Repaired action next := by
  obtain ⟨order, _, h⟩ := bind_eq_ok h
  split at h
  · cases h
    exact Or.inl rfl
  · obtain ⟨text, _, h⟩ := bind_eq_ok h
    cases h
    exact Or.inr ⟨_, _, Or.inl rfl, rfl⟩

theorem clipPapr_repaired {action next : Action} {corr : List ConstraintViolation}
    (h : legal.clipPapr py action = .ok (next, corr)) : legal.Repaired action next := by
  obtain ⟨papr, _, h⟩ := bind_eq_ok h
  split at h
  · cases h
    exact Or.inr ⟨_, _, Or.inr rfl, rfl⟩
  · cases h
    exact Or.inl rfl

theorem project_cases {action next : Action} (ctx : Context) {corr : List ConstraintViolation}
    (h : project py legal action ctx = .ok (next, corr)) :
    ∃ snapped, legal.Repaired action snapped ∧ legal.Repaired snapped next := by
  obtain ⟨applied, _, h⟩ := bind_eq_ok h
  split at h
  · obtain ⟨⟨snapped, orderCorr⟩, hsnap, h⟩ := bind_eq_ok h
    obtain ⟨⟨out, paprCorr⟩, hclip, h⟩ := bind_eq_ok h
    cases h
    exact ⟨snapped, legal.snapOrder_repaired py hsnap, legal.clipPapr_repaired py hclip⟩
  · cases h
    exact ⟨action, Or.inl rfl, Or.inl rfl⟩

theorem contained : (invariant py legal).Contained radioKeys where
  evaluateRaises := legal.evaluate_raises py
  projectRaises _ _ :=
    .bind (applies_raises py _) fun _ => .ite
      (.bind (legal.snapOrder_raises py _) fun _ =>
        .bind (legal.clipPapr_raises py _) fun _ => .ok _) (.ok _)
  writes := by
    intro action ctx next corr h
    obtain ⟨snapped, first, second⟩ := project_cases py legal ctx h
    exact (first.writes legal).trans (second.writes legal)
  blockKept := by
    intro action ctx next corr h
    obtain ⟨snapped, first, second⟩ := project_cases py legal ctx h
    exact (first.blockKept legal).trans (second.blockKept legal)

end ConstellationLegality

theorem strSet_raises (xs : List Value) : RaisesOnly isDataError (strSet py xs) := by
  induction xs with
  | nil => exact .ok _
  | cons x xs ih => exact .bind (toStr_raises py x) fun _ => .bind ih fun _ => .ok _

theorem asStrSet_raises (v : Value) : RaisesOnly isDataError (asStrSet py v) := by
  cases v with
  | list xs => exact strSet_raises py xs
  | _ => exact .ok _

theorem inStrSet_raises (v : Value) (allowed : Finset String) :
    RaisesOnly isDataError (inStrSet v allowed) := by
  cases v with
  | list xs => exact .error rfl
  | dict entries => exact .error rfl
  | _ => exact .ok _

namespace LIConstraint
variable (li : LIConstraint)

theorem jxViolations_raises (affectedSlices : Finset String) (targetJx : Value)
    (rule : LIJurisdictionRule) :
    RaisesOnly isDataError (jxViolations py affectedSlices targetJx rule) := by
  simp only [jxViolations]
  refine .ite ?_ (.ok _)
  refine .bind (inStrSet_raises _ _) fun _ => ?_
  exact .ite (.ok _) (.bind (repr_raises py _) fun _ => .ok _)

theorem ruleViolations_raises (affectedUes affectedSlices : Finset String) (targetJx : Value)
    (rules : List LIJurisdictionRule) :
    RaisesOnly isDataError (ruleViolations py affectedUes affectedSlices targetJx rules) := by
  induction rules with
  | nil => exact .ok _
  | cons rule rest ih =>
    exact .bind (jxViolations_raises py _ _ _) fun _ => .bind ih fun _ => .ok _

theorem checkFeasibility_raises (action ctx : Dict Value) :
    RaisesOnly isDataError (li.checkFeasibility py action ctx) := by
  simp only [checkFeasibility]
  refine .ite (.ok _) ?_
  exact .bind (asStrSet_raises py _) fun _ => .bind (asStrSet_raises py _) fun _ =>
    ruleViolations_raises py _ _ _ _

/-- `next` lists the affected UEs of `action` less the protected ones. -/
def Stripped (action next : Action) : Prop :=
  ∃ ues, asStrSet py (action.getD "affected_ue_ids" .null) = .ok ues ∧
    next = action.set "affected_ue_ids"
      (.list ((sortedStrings (ues \ li.protectedUnion)).map .str))

theorem stripProtected_cases (action : Action) (ues : Finset String) :
    (li.stripProtected py action ues).1 = action ∨
      (li.stripProtected py action ues).1 = action.set "affected_ue_ids"
        (.list ((sortedStrings (ues \ li.protectedUnion)).map .str)) := by
  simp only [stripProtected]
  split
  · right
    rw [Finset.sdiff_inter_self_left]
  · exact Or.inl rfl

theorem project_cases {action next : Action} (ctx : Context) {corr : List ConstraintViolation}
    (h : li.project py action ctx = .ok (next, corr)) :
    next = action ∨ li.Stripped py action next := by
  simp only [project] at h
  split at h
  · cases h
    exact Or.inl rfl
  · obtain ⟨ues, hues, h⟩ := bind_eq_ok h
    obtain ⟨violations, _, h⟩ := bind_eq_ok h
    cases h
    rcases li.stripProtected_cases py action ues with same | stripped
    · exact Or.inl same
    · exact Or.inr ⟨ues, hues, stripped⟩

theorem project_raises (action ctx : Dict Value) :
    RaisesOnly isDataError (li.project py action ctx) := by
  simp only [project]
  refine .ite (.ok _) ?_
  exact .bind (asStrSet_raises py _) fun _ => .bind (li.checkFeasibility_raises py _ _) fun _ =>
    .ok _

end LIConstraint

namespace LawfulIntercept

theorem contained (li : LIConstraint) :
    (invariant py li).Contained ["affected_ue_ids"] where
  evaluateRaises _ _ := .bind (li.checkFeasibility_raises py _ _) fun _ => .ok _
  projectRaises := li.project_raises py
  writes := by
    intro action ctx next corr h
    rcases li.project_cases py ctx h with rfl | ⟨ues, _, rfl⟩
    · exact .refl _ _
    · exact (Dict.SameOutside.refl _ _).set (by decide) _
  blockKept := by
    intro action ctx next corr h
    rcases li.project_cases py ctx h with rfl | ⟨ues, _, rfl⟩
    · exact .refl _
    · exact .set_ne _ _ (by decide)

end LawfulIntercept
end
end HorizonRic
