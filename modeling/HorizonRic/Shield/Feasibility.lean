import HorizonRic.Python.Equality
import HorizonRic.Shield.Totality

/-!
The feasibility oracle against enforcement. The projection loop is entered
exactly when the oracle says no; what it writes is recorded as a correction, and
an action it gives back equal to the proposed one was feasible from the start.
-/
namespace HorizonRic
open Py

/-- A projection that records no correction leaves the action. -/
def Invariant.Quiet (inv : Invariant) : Prop :=
  ∀ action ctx next, inv.project action ctx = .ok (next, []) → next = action

/-- What the Shield writes: texts, and numbers or flags under their keys. -/
def Written (key : String) (v : Value) : Prop :=
  (∃ s, v = .str s) ∨ (∃ texts : List String, v = .list (texts.map .str)) ∨
    (key ∈ numericKeys ∧ (v = .bool true ∨ (∃ n, v = .int n) ∨ ∃ x, v = .float x))

def Rewritten (before after : Action) : Prop :=
  ∀ key, Dict.get? key after = Dict.get? key before ∨
    ∃ v, Dict.get? key after = some v ∧ Written key v

namespace Rewritten

theorem refl (a : Action) : Rewritten a a := fun _ => Or.inl rfl

theorem trans {a b c : Action} (hab : Rewritten a b) (hbc : Rewritten b c) : Rewritten a c := by
  intro key
  rcases hbc key with same | written
  · rw [same]
    exact hab key
  · exact Or.inr written

theorem set (a : Action) {key : String} {v : Value} (written : Written key v) :
    Rewritten a (a.set key v) := by
  intro other
  by_cases same : key = other
  · subst same
    exact Or.inr ⟨v, Dict.get?_set_self _ _ _, written⟩
  · exact Or.inl (Dict.get?_set_ne _ _ same)

theorem text (a : Action) (key s : String) : Rewritten a (a.set key (.str s)) :=
  .set a (Or.inl ⟨s, rfl⟩)

theorem number (a : Action) {key : String} (x : Number) (numeric : key ∈ numericKeys) :
    Rewritten a (a.set key (.float x)) :=
  .set a (Or.inr (Or.inr ⟨numeric, Or.inr (Or.inr ⟨x, rfl⟩)⟩))

end Rewritten

theorem frame_rewritten : Frame Rewritten where
  refl := .refl
  trans := .trans
  block a := .set a (Or.inr (Or.inr ⟨by decide, Or.inl rfl⟩))

section
variable (py : Interpreter)

theorem NumericSanity.quiet : (NumericSanity.invariant py).Quiet := by
  intro action ctx next h
  simp only [invariant, project] at h
  split at h <;> cases h
  rfl

theorem SpectralMask.quiet (mask : SpectralMask) : (SpectralMask.invariant py mask).Quiet := by
  intro action ctx next h
  obtain ⟨bw, _, h⟩ := bind_eq_ok h
  split at h
  · cases h
  · obtain ⟨f, _, h⟩ := bind_eq_ok h
    dsimp only at h
    split at h <;> cases h
    rfl

theorem MaxEirp.quiet (cap : MaxEirp) : (MaxEirp.invariant py cap).Quiet := by
  intro action ctx next h
  obtain ⟨e, _, h⟩ := bind_eq_ok h
  dsimp only at h
  split at h
  · obtain ⟨tx, _, h⟩ := bind_eq_ok h
    cases h
  · cases h
    rfl

theorem PfdCeiling.quiet (cap : PfdCeiling) : (PfdCeiling.invariant py cap).Quiet := by
  intro action ctx next h
  simp only [invariant, project] at h
  split at h
  · obtain ⟨pfd, _, h⟩ := bind_eq_ok h
    split at h
    · obtain ⟨tx, _, h⟩ := bind_eq_ok h
      cases h
    · cases h
      rfl
  · cases h
    rfl

theorem NeuralRxEnvelope.quiet (env : NeuralRxEnvelope) :
    (NeuralRxEnvelope.invariant py env).Quiet := by
  intro action ctx next h
  obtain ⟨check, _, h⟩ := bind_eq_ok h
  split at h
  · cases h
    rfl
  · obtain ⟨predicted, _, h⟩ := bind_eq_ok h
    cases h

theorem ConstellationLegality.snapOrder_quiet (legal : ConstellationLegality) {action next : Action}
    (h : legal.snapOrder py action = .ok (next, [])) : next = action := by
  obtain ⟨order, _, h⟩ := bind_eq_ok h
  split at h
  · cases h
    rfl
  · obtain ⟨text, _, h⟩ := bind_eq_ok h
    cases h

theorem ConstellationLegality.clipPapr_quiet (legal : ConstellationLegality) {action next : Action}
    (h : legal.clipPapr py action = .ok (next, [])) : next = action := by
  obtain ⟨papr, _, h⟩ := bind_eq_ok h
  split at h <;> cases h
  rfl

theorem ConstellationLegality.quiet (legal : ConstellationLegality) :
    (ConstellationLegality.invariant py legal).Quiet := by
  intro action ctx next h
  obtain ⟨applied, _, h⟩ := bind_eq_ok h
  split at h
  · obtain ⟨⟨snapped, orderCorr⟩, snap, h⟩ := bind_eq_ok h
    obtain ⟨⟨out, paprCorr⟩, clip, h⟩ := bind_eq_ok h
    obtain ⟨same, none⟩ := Prod.mk.inj (Except.ok.inj h)
    obtain ⟨rfl, rfl⟩ := List.append_eq_nil_iff.mp none
    rw [← same, legal.clipPapr_quiet py clip, legal.snapOrder_quiet py snap]
  · cases h
    rfl

theorem LawfulIntercept.quiet (li : LIConstraint) : (LawfulIntercept.invariant py li).Quiet := by
  intro action ctx next h
  simp only [invariant, LIConstraint.project] at h
  split at h
  · cases h
  · obtain ⟨ues, _, h⟩ := bind_eq_ok h
    obtain ⟨violations, _, h⟩ := bind_eq_ok h
    obtain ⟨same, none⟩ := Prod.mk.inj (Except.ok.inj h)
    have kept := (List.append_eq_nil_iff.mp none).1
    simp only [LIConstraint.stripProtected] at same kept
    split at kept
    · cases kept
    · rename_i clear
      rw [if_neg clear] at same
      exact same.symm

theorem InvariantClass.quiet (k : InvariantClass) (noFloor : k.isFloor = false) :
    (k.invariant py).Quiet := by
  cases k with
  | numericSanity => exact NumericSanity.quiet py
  | spectralMask mask => exact SpectralMask.quiet py mask
  | maxEirp cap => exact MaxEirp.quiet py cap
  | protectedSliceFloor slice => cases noFloor
  | pfdCeiling cap => exact PfdCeiling.quiet py cap
  | neuralRxEnvelope env => exact NeuralRxEnvelope.quiet py env
  | constellationLegality legal => exact ConstellationLegality.quiet py legal
  | lawfulIntercept li => exact LawfulIntercept.quiet py li

theorem PowerOnly.rewritten {action next : Action} (h : PowerOnly action next) :
    Rewritten action next := by
  rcases h with rfl | ⟨tx, rfl⟩
  · exact .refl _
  · exact .number _ tx (by decide)

theorem ConstellationLegality.fallBack_rewritten (legal : ConstellationLegality)
    (action : Action) : Rewritten action (legal.fallBack action) :=
  (Rewritten.text _ _ _).trans (.text _ _ _)

theorem ConstellationLegality.snapOrder_rewritten (legal : ConstellationLegality)
    {action next : Action} {corr : List ConstraintViolation}
    (h : legal.snapOrder py action = .ok (next, corr)) : Rewritten action next := by
  obtain ⟨order, _, h⟩ := bind_eq_ok h
  split at h
  · cases h
    exact .refl _
  · obtain ⟨text, _, h⟩ := bind_eq_ok h
    cases h
    have order : Written "constellation_order" (.int (snap order)) :=
      Or.inr (Or.inr ⟨by decide, Or.inr (Or.inl ⟨_, rfl⟩)⟩)
    exact (Rewritten.set _ order).trans (legal.fallBack_rewritten _)

theorem ConstellationLegality.clipPapr_rewritten (legal : ConstellationLegality)
    {action next : Action} {corr : List ConstraintViolation}
    (h : legal.clipPapr py action = .ok (next, corr)) : Rewritten action next := by
  obtain ⟨papr, _, h⟩ := bind_eq_ok h
  split at h <;> cases h
  · exact (Rewritten.number _ _ (by decide)).trans (legal.fallBack_rewritten _)
  · exact .refl _

theorem InvariantClass.rewritten (k : InvariantClass) (noFloor : k.isFloor = false) :
    (k.invariant py).Respects Rewritten := by
  intro action ctx next corr h
  cases k with
  | numericSanity =>
    rcases NumericSanity.project_cases py ctx h with ⟨_, rfl, _⟩ | ⟨_, rfl⟩
    · exact .refl _
    · exact frame_rewritten.block _
  | spectralMask mask =>
    rcases SpectralMask.project_cases py mask ctx h with rfl | ⟨rfl, _⟩ | ⟨f, rfl⟩
    · exact frame_rewritten.block _
    · exact .refl _
    · exact .number _ f (by decide)
  | maxEirp cap => exact (MaxEirp.project_cases py cap ctx h).rewritten
  | protectedSliceFloor slice => cases noFloor
  | pfdCeiling cap => exact (PfdCeiling.project_cases py cap ctx h).rewritten
  | neuralRxEnvelope env =>
    rcases NeuralRxEnvelope.project_cases py env ctx h with ⟨rfl, _⟩ | ⟨predicted, rfl⟩
    · exact .refl _
    · exact ((Rewritten.text _ _ _).trans (.text _ _ _)).trans (.number _ predicted (by decide))
  | constellationLegality legal =>
    obtain ⟨applied, _, h⟩ := bind_eq_ok h
    split at h
    · obtain ⟨⟨snapped, orderCorr⟩, snap, h⟩ := bind_eq_ok h
      obtain ⟨⟨out, paprCorr⟩, clip, h⟩ := bind_eq_ok h
      cases h
      exact (legal.snapOrder_rewritten py snap).trans (legal.clipPapr_rewritten py clip)
    · cases h
      exact .refl _
  | lawfulIntercept li =>
    rcases li.project_cases py ctx h with rfl | ⟨ues, _, rfl⟩
    · exact .refl _
    · exact .set _ (Or.inr (Or.inl ⟨_, rfl⟩))

theorem NeuralRxEnvelope.evaluate_congr (env : NeuralRxEnvelope) {a b : Action}
    (h : AlikeExcept [] a b) (ctx : Context) : env.evaluate py a ctx = env.evaluate py b ctx := by
  simp only [evaluate, applies, grade, (h "block" (by decide)).getD (by decide),
    (h "baseline_tbler" (by decide)).floatField py, (h "predicted_tbler" (by decide)).floatField py,
    (h "demap_confidence" (by decide)).floatField py]

theorem AlikeExcept.weaken {a b : Action} (h : AlikeExcept [] a b) (keys : List String) :
    AlikeExcept keys a b :=
  fun key _ => h key (List.not_mem_nil)

/-- Actions that read alike are graded alike. -/
theorem InvariantClass.holds_congr (k : InvariantClass) {a b : Action} (h : AlikeExcept [] a b)
    (ctx : Context) : Holds a ctx (k.invariant py) ↔ Holds b ctx (k.invariant py) := by
  have same : (k.invariant py).evaluate a ctx = (k.invariant py).evaluate b ctx := by
    cases k with
    | numericSanity =>
      have problems := NumericSanity.problems_congr py (h.weaken _) fun ok message _ =>
        NumericSanity.optional_congr py (h "predicted_tbler" (by decide)) ok message
      simp only [invariant, NumericSanity.invariant, NumericSanity.evaluate, problems]
    | neuralRxEnvelope env => exact env.evaluate_congr py h ctx
    | spectralMask mask =>
      exact evaluate_congr py _ (h.weaken _) ctx (by simp) (by simp)
    | maxEirp cap => exact evaluate_congr py _ (h.weaken _) ctx (by simp) (by simp)
    | protectedSliceFloor slice => exact evaluate_congr py _ (h.weaken _) ctx (by simp) (by simp)
    | pfdCeiling cap => exact evaluate_congr py _ (h.weaken _) ctx (by simp) (by simp)
    | constellationLegality legal =>
      exact evaluate_congr py _ (h.weaken _) ctx (by simp) (by simp)
    | lawfulIntercept li => exact evaluate_congr py _ (h.weaken _) ctx (by simp) (by simp)
  rw [Holds, Holds, same]

end

theorem toInt_int (n : Int) : (Number.fin n).toInt = .ok n := by
  simp only [Number.toInt]
  split
  · rw [← Int.cast_neg, Int.floor_intCast, neg_neg]
  · rw [Int.floor_intCast]

theorem sameNumber_float {x : Number} {n : Int} (h : Value.floatIs x n = true) :
    SameNumber (.float x) (.int n) := by
  obtain ⟨small, same⟩ := (Bool.and_eq_true _ _).mp h
  obtain rfl := of_decide_eq_true same
  constructor
  · intro py
    simp only [Value.toFloat, if_pos (of_decide_eq_true small)]
  · intro py
    simp only [Value.toInt, toInt_int]
  · rw [Bool.eq_iff_iff]
    simp [Value.truthy]

theorem sameNumber_flag (b : Bool) : SameNumber (.bool b) (.int (if b then 1 else 0)) := by
  have one : 1 < floatOverflow := lt_floatOverflow (by decide)
  have zero : 0 < floatOverflow := by omega
  constructor
  · intro py
    cases b
    · simp [Value.toFloat, zero]
    · simp [Value.toFloat, one]
  · intro py
    rfl
  · cases b <;> rfl

theorem SameNumber.trans {u v w : Value} (huv : SameNumber u v) (hvw : SameNumber v w) :
    SameNumber u w :=
  ⟨fun py => (huv.float py).trans (hvw.float py), fun py => (huv.int py).trans (hvw.int py),
    huv.truthy.trans hvw.truthy⟩

theorem SameNumber.symm {v w : Value} (h : SameNumber v w) : SameNumber w v :=
  ⟨fun py => (h.float py).symm, fun py => (h.int py).symm, h.truthy.symm⟩

theorem sameNumber_integer {w : Value} {n : Int} (h : w.integer = some n) :
    SameNumber w (.int n) := by
  cases w with
  | bool b =>
    cases h
    exact sameNumber_flag b
  | int m =>
    cases h
    exact ⟨fun _ => rfl, fun _ => rfl, rfl⟩
  | _ => cases h

/-- Equal numbers, of whatever types, read the same. -/
theorem sameNumber_of_eq {v w : Value}
    (number : v = .bool true ∨ (∃ n, v = .int n) ∨ ∃ x, v = .float x) (h : v.eq w = true) :
    SameNumber v w := by
  rcases number with rfl | ⟨n, rfl⟩ | ⟨x, rfl⟩
  · cases w with
    | float y => exact (sameNumber_flag true).trans (sameNumber_float h).symm
    | bool b => exact (sameNumber_flag true).trans (sameNumber_integer (beq_iff_eq.mp h)).symm
    | int m => exact (sameNumber_flag true).trans (sameNumber_integer (beq_iff_eq.mp h)).symm
    | _ => cases h
  · cases w with
    | float y => exact (sameNumber_float h).symm
    | bool b => exact (sameNumber_integer (beq_iff_eq.mp h)).symm
    | int m => exact (sameNumber_integer (beq_iff_eq.mp h)).symm
    | _ => cases h
  · cases w with
    | float y =>
      obtain rfl := of_decide_eq_true h
      exact ⟨fun _ => rfl, fun _ => rfl, rfl⟩
    | bool b => exact (sameNumber_float h).trans (sameNumber_flag b).symm
    | int m => exact sameNumber_float h
    | _ => cases h

/-- What the Shield wrote and gives back equal was there in another spelling. -/
theorem alike_of_equal {before after : Action} (rewritten : Rewritten before after)
    (equal : Dict.Equal after before) : AlikeExcept [] after before := by
  intro key _
  rcases rewritten key with same | ⟨v, hv, written⟩
  · exact Or.inl same
  · rcases equal key with same | ⟨v', w, hv', hw, eq⟩
    · exact Or.inl same
    · obtain rfl : v = v' := Option.some.inj (hv.symm.trans hv')
      rcases written with ⟨s, rfl⟩ | ⟨texts, rfl⟩ | ⟨numeric, number⟩
      · left
        rw [hv, hw, Value.eq_str eq]
      · left
        rw [hv, hw, Value.eq_texts eq]
      · exact Or.inr ⟨numeric, v, w, hv, hw, sameNumber_of_eq number eq⟩

theorem projectAll_quiet {invs : List Invariant} (quiet : ∀ inv ∈ invs, inv.Quiet)
    {ctx : Context} {action next : Action} (h : projectAll ctx invs action = .ok (next, [])) :
    next = action := by
  induction invs generalizing action next with
  | nil =>
    cases h
    rfl
  | cons inv rest ih =>
    unfold projectAll at h
    split at h
    · rename_i mid midCorr ok
      split at h
      · cases h
        exact quiet inv List.mem_cons_self _ _ _ ok
      · obtain ⟨⟨last, more⟩, swept, h⟩ := bind_eq_ok h
        obtain ⟨same, none⟩ := Prod.mk.inj (Except.ok.inj h)
        obtain ⟨rfl, rfl⟩ := List.append_eq_nil_iff.mp none
        obtain rfl := quiet inv List.mem_cons_self _ _ _ ok
        rw [← same]
        exact ih (fun other member => quiet other (List.mem_cons_of_mem _ member)) swept
    · split at h <;> cases h

namespace Shield
variable {shield : Shield} {ctx : Context}

theorem projectLoop_quiet (quiet : ∀ inv ∈ shield.invariants, inv.Quiet) {passes : Nat}
    {s out : LoopState} (h : shield.projectLoop ctx passes s = .ok out)
    (none : out.corrections = []) : s.corrections = [] ∧ out.safe = s.safe := by
  induction passes generalizing s with
  | zero =>
    cases h
    exact ⟨none, rfl⟩
  | succ passes ih =>
    obtain ⟨checks, _, h⟩ := bind_eq_ok h
    split at h
    · cases h
      exact ⟨none, rfl⟩
    · obtain ⟨⟨next, corr⟩, swept, h⟩ := bind_eq_ok h
      have step : s.corrections ++ corr = [] ∧ out.safe = next := by
        dsimp only at h
        split at h
        · cases h
          exact ⟨none, rfl⟩
        · exact ih h
      obtain ⟨before, rfl⟩ := List.append_eq_nil_iff.mp step.1
      exact ⟨before, step.2.trans (projectAll_quiet quiet swept)⟩

theorem projectLoop_projected {passes : Nat} {s out : LoopState}
    (h : shield.projectLoop ctx passes s = .ok out) (projected : s.projected = true) :
    out.projected = true := by
  induction passes generalizing s with
  | zero =>
    cases h
    exact projected
  | succ passes ih =>
    obtain ⟨checks, _, h⟩ := bind_eq_ok h
    split at h
    · cases h
      exact projected
    · obtain ⟨⟨next, corr⟩, _, h⟩ := bind_eq_ok h
      dsimp only at h
      split at h
      · cases h
        rfl
      · exact ih h rfl

/-- The loop leaves a feasible action as it is, and marks any other as projected. -/
theorem projectLoop_entered {passes : Nat} {s out : LoopState}
    (h : shield.projectLoop ctx (passes + 1) s = .ok out) :
    ((∀ inv ∈ shield.invariants, Holds s.safe ctx inv) ∧ out = s) ∨
      (¬ (∀ inv ∈ shield.invariants, Holds s.safe ctx inv) ∧ out.projected = true) := by
  obtain ⟨checks, hchecks, h⟩ := bind_eq_ok h
  split at h
  · rename_i sat
    cases h
    exact Or.inl ⟨(checkAll_satisfied_iff hchecks).mp sat, rfl⟩
  · rename_i unsat
    right
    constructor
    · intro holds
      exact unsat ((checkAll_satisfied_iff hchecks).mpr holds)
    · obtain ⟨⟨next, corr⟩, _, h⟩ := bind_eq_ok h
      dsimp only at h
      split at h
      · cases h
        rfl
      · exact projectLoop_projected h rfl

/-- `is_feasible`, `check` and `dispose` agree on whether the action must be corrected. -/
def OracleAgrees (shield : Shield) (py : Interpreter) (action : Action)
    (context : Option Context) (args : DisposeArgs) : Prop :=
  ∃ feasible checks d, shield.isFeasible action context = .ok feasible ∧
    shield.check action context = .ok checks ∧
    shield.dispose py action context args = .ok d ∧
    (feasible = true ↔ d.certificate.projected = false) ∧
    (feasible = true ↔ ∀ c ∈ checks, c.satisfied = true) ∧
    (isBlocked action = false →
      (feasible = true ↔ Dict.Equal d.safeAction action) ∧
      (feasible = true ↔ d.certificate.safe = true ∧ d.certificate.corrections = []))

/-- The parts of a disposition that come from the loop. -/
theorem dispose_loop {py : Interpreter} {action : Action} {context : Option Context}
    {args : DisposeArgs} {d : ShieldDisposition}
    (h : shield.dispose py action context args = .ok d) :
    ∃ s, shield.projectLoop (contextOf context) shield.maxPasses ⟨action, [], false⟩ = .ok s ∧
      d.certificate.projected = s.projected ∧ d.certificate.corrections = s.corrections ∧
      ((d.certificate.safe = true ∧ d.safeAction = s.safe ∧ isBlocked s.safe = false ∧
          ∀ inv ∈ shield.invariants, Holds s.safe (contextOf context) inv) ∨
        (d.certificate.safe = false ∧ isBlocked d.safeAction = true)) := by
  obtain ⟨text, _, h⟩ := bind_eq_ok h
  obtain ⟨s, loop, h⟩ := bind_eq_ok h
  have verdict := (certify_cases h).2
  obtain ⟨checks, _, h⟩ := bind_eq_ok h
  obtain ⟨changed, _, h⟩ := bind_eq_ok h
  refine ⟨s, loop, ?_, ?_, ?_⟩
  · cases h
    rfl
  · cases h
    rfl
  · rcases verdict with certified | ⟨refused, blocked, _⟩
    · exact Or.inl certified
    · exact Or.inr ⟨refused, blocked⟩

end Shield

theorem isBlocked_of_equal {before after : Action} (rewritten : Rewritten before after)
    (equal : Dict.Equal after before) : isBlocked after = isBlocked before :=
  ((alike_of_equal rewritten equal) emitBlockedKey (List.not_mem_nil)).truthy _

/-- A chain of the repository's invariants without a protected slice floor. -/
structure OwnChain (py : Interpreter) (shield : Shield) (chain : List InvariantClass) : Prop where
  invariants : shield.invariants = invariantsOf py chain
  noFloor : ∀ k ∈ chain, k.isFloor = false

namespace OwnChain
variable {py : Interpreter} {shield : Shield} {chain : List InvariantClass}

theorem each (own : OwnChain py shield chain) {inv : Invariant} (member : inv ∈ shield.invariants) :
    ∃ k : InvariantClass, k.isFloor = false ∧ k.invariant py = inv := by
  rw [own.invariants] at member
  obtain ⟨k, among, rfl⟩ := List.mem_map.mp member
  exact ⟨k, own.noFloor k among, rfl⟩

theorem safe (own : OwnChain py shield chain) : shield.Safe := by
  intro inv member
  obtain ⟨k, floor, rfl⟩ := own.each member
  exact k.safe py floor

theorem quiet (own : OwnChain py shield chain) : ∀ inv ∈ shield.invariants, inv.Quiet := by
  intro inv member
  obtain ⟨k, floor, rfl⟩ := own.each member
  exact k.quiet py floor

variable {action : Action} {context : Option Context} {args : DisposeArgs} {d : ShieldDisposition}

theorem rewritten (own : OwnChain py shield chain)
    (h : shield.dispose py action context args = .ok d) : Rewritten action d.safeAction := by
  refine Shield.dispose_respects frame_rewritten ?_ h
  intro inv member
  obtain ⟨k, floor, rfl⟩ := own.each member
  exact k.rewritten py floor

/-- An unblocked action that comes back equal was feasible. -/
theorem holds_of_equal (own : OwnChain py shield chain)
    (h : shield.dispose py action context args = .ok d) (free : isBlocked action = false)
    (equal : Dict.Equal d.safeAction action) :
    ∀ inv ∈ shield.invariants, Holds action (contextOf context) inv := by
  have alike := alike_of_equal (own.rewritten h) equal
  have blocked := isBlocked_of_equal (own.rewritten h) equal
  rcases (Shield.dispose_verdict h).2 with ⟨_, _, holds⟩ | ⟨_, stopped⟩
  · intro inv member
    have final := holds inv member
    obtain ⟨k, _, rfl⟩ := own.each member
    exact (k.holds_congr py alike _).mp final
  · rw [blocked, free] at stopped
    cases stopped

/-- So was one that is certified without a correction. -/
theorem holds_of_uncorrected (own : OwnChain py shield chain)
    (h : shield.dispose py action context args = .ok d) (safe : d.certificate.safe = true)
    (none : d.certificate.corrections = []) :
    ∀ inv ∈ shield.invariants, Holds action (contextOf context) inv := by
  obtain ⟨s, loop, _, corrections, verdict⟩ := Shield.dispose_loop h
  have same := (Shield.projectLoop_quiet own.quiet loop (corrections.symm.trans none)).2
  rcases verdict with ⟨_, _, _, holds⟩ | ⟨refused, _⟩
  · rw [same] at holds
    exact holds
  · rw [safe] at refused
    cases refused

theorem projected_iff (positive : 0 < shield.maxPasses)
    (h : shield.dispose py action context args = .ok d) :
    (∀ inv ∈ shield.invariants, Holds action (contextOf context) inv) ↔
      d.certificate.projected = false := by
  obtain ⟨s, loop, projected, _⟩ := Shield.dispose_loop h
  obtain ⟨n, passes⟩ := Nat.exists_eq_succ_of_ne_zero positive.ne'
  rw [passes] at loop
  rcases Shield.projectLoop_entered loop with ⟨holds, rfl⟩ | ⟨fails, marked⟩
  · exact ⟨fun _ => projected, fun _ => holds⟩
  · constructor
    · exact fun holds => absurd holds fails
    · intro not
      rw [projected, marked] at not
      cases not

theorem uncorrected_of_holds (positive : 0 < shield.maxPasses)
    (h : shield.dispose py action context args = .ok d) (free : isBlocked action = false)
    (holds : ∀ inv ∈ shield.invariants, Holds action (contextOf context) inv) :
    d.safeAction = action ∧ d.certificate.safe = true ∧ d.certificate.corrections = [] := by
  obtain ⟨d', hd', safe, same, _⟩ := Shield.dispose_of_holds shield py action context args
    free holds (printable_of_dispose h)
  rw [h] at hd'
  cases hd'
  refine ⟨same, safe, ?_⟩
  obtain ⟨s, loop, _, corrections, _⟩ := Shield.dispose_loop h
  obtain ⟨n, passes⟩ := Nat.exists_eq_succ_of_ne_zero positive.ne'
  rw [passes] at loop
  rcases Shield.projectLoop_entered loop with ⟨_, rfl⟩ | ⟨fails, _⟩
  · exact corrections
  · exact absurd holds fails

/-- Oracle and enforcement agree exactly on the actions whose block prints. -/
theorem agrees_iff (own : OwnChain py shield chain) (positive : 0 < shield.maxPasses)
    (action : Action) (context : Option Context) (args : DisposeArgs) :
    shield.OracleAgrees py action context args ↔
      (action.getD "block" .null).digitsOk = true := by
  constructor
  · rintro ⟨_, _, d, _, _, hd, _⟩
    exact printable_of_dispose hd
  · intro printable
    have checkable := fun inv member => (own.safe inv member).checkable
    obtain ⟨feasible, hfeasible, oracle⟩ :=
      feasibleAll_isOk checkable action (contextOf context)
    obtain ⟨checks, hchecks⟩ := checkAll_isOk checkable action (contextOf context)
    obtain ⟨d, hd⟩ := Shield.dispose_isOk own.safe py action context args printable
    refine ⟨feasible, checks, d, hfeasible, hchecks, hd, ?_, ?_, fun free => ⟨?_, ?_⟩⟩
    · rw [oracle]
      exact projected_iff positive hd
    · rw [oracle, ← checkAll_satisfied_iff hchecks, List.all_eq_true]
    · rw [oracle]
      constructor
      · intro holds
        rw [(uncorrected_of_holds positive hd free holds).1]
        exact .refl action
      · exact own.holds_of_equal hd free
    · rw [oracle]
      constructor
      · intro holds
        exact (uncorrected_of_holds positive hd free holds).2
      · rintro ⟨safe, none⟩
        exact own.holds_of_uncorrected hd safe none

end OwnChain

/-- The oracle of both factories, with any positive number of passes. -/
theorem isFeasible_agrees_iff (py : Interpreter) (maxPasses : Nat) (positive : 0 < maxPasses)
    (action : Action) (context : Option Context) (args : DisposeArgs) :
    (∀ p : TerrestrialParams,
      Shield.OracleAgrees ⟨(defaultTerrestrialShield py p).invariants, maxPasses⟩ py action context
          args ↔ (action.getD "block" .null).digitsOk = true) ∧
    (∀ p : NtnParams,
      Shield.OracleAgrees ⟨(defaultNtnShield py p).invariants, maxPasses⟩ py action context
          args ↔ (action.getD "block" .null).digitsOk = true) := by
  constructor
  · intro p
    have own : OwnChain py ⟨(defaultTerrestrialShield py p).invariants, maxPasses⟩ p.chain :=
      ⟨terrestrial_invariants py p, terrestrial_noFloor p⟩
    exact own.agrees_iff positive action context args
  · intro p
    have own : OwnChain py ⟨(defaultNtnShield py p).invariants, maxPasses⟩ p.chain :=
      ⟨ntn_invariants py p, ntn_noFloor p⟩
    exact own.agrees_iff positive action context args

theorem isFeasible_agrees_carrier :
    0 < 8 ∧
      (Shield.OracleAgrees
          ⟨(defaultTerrestrialShield plainInterpreter (testbedParams (.fin 6000000000))).invariants,
            8⟩ plainInterpreter carrierAction none plainArgs ↔
        (carrierAction.getD "block" .null).digitsOk = true) :=
  ⟨by decide,
    (isFeasible_agrees_iff plainInterpreter 8 (by decide) carrierAction none plainArgs).1
      (testbedParams (.fin 6000000000))⟩

/-- The oracle answers on a block that `dispose` cannot print. -/
theorem unprintable_disagrees :
    ¬ Shield.OracleAgrees
        ⟨(defaultTerrestrialShield plainInterpreter (testbedParams (.fin 6000000000))).invariants,
          8⟩ plainInterpreter [("block", .int intStrLimit)] none plainArgs := by
  rintro ⟨_, _, d, _, _, hd, _⟩
  have printable := printable_of_dispose hd
  have tooLong : intDigitsOk intStrLimit = false := by
    simp [intDigitsOk]
  simp [Dict.getD, Value.digitsOk, tooLong] at printable

end HorizonRic
