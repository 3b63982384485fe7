import HorizonRic.Shield.Totality

/-!
A second disposition changes nothing. Where the first one certifies, the chain holds
and the loop stops at once. Where it refuses, no check reads the block it has set, and
the first projection of a default chain returns a blocked action as it is.
-/
namespace HorizonRic
open Py

/-- Blocked by the Shield, and not by a truthy value of the proposal. -/
def Refused (action : Action) : Prop := Dict.get? emitBlockedKey action = some (.bool true)

theorem refused_block (action : Action) : Refused (block action) := Dict.get?_set_self _ _ _

theorem Refused.block_eq {action : Action} (refused : Refused action) : block action = action :=
  Dict.set_of_get? refused

def BlockedByShield (before after : Action) : Prop :=
  Dict.get? emitBlockedKey after = Dict.get? emitBlockedKey before ∨ Refused after

namespace BlockedByShield

theorem refl (action : Action) : BlockedByShield action action := Or.inl rfl

theorem set_ne (action : Action) {key : String} (value : Value) (ne : key ≠ emitBlockedKey) :
    BlockedByShield action (action.set key value) :=
  Or.inl (Dict.get?_set_ne action value ne)

theorem trans {a b c : Action} (hab : BlockedByShield a b) (hbc : BlockedByShield b c) :
    BlockedByShield a c := by
  rcases hbc with same | refused
  · rcases hab with same' | refused
    · exact Or.inl (same.trans same')
    · exact Or.inr (same.trans refused)
  · exact Or.inr refused

end BlockedByShield

theorem frame_blockedByShield : Frame BlockedByShield where
  refl := .refl
  trans := .trans
  block action := Or.inr (refused_block action)

section
variable (py : Interpreter)

theorem PowerOnly.blockedByShield {action next : Action} (h : PowerOnly action next) :
    BlockedByShield action next := by
  rcases h with rfl | ⟨tx, rfl⟩
  · exact .refl _
  · exact .set_ne _ _ (by decide)

theorem ConstellationLegality.Repaired.blockedByShield {legal : ConstellationLegality}
    {action next : Action} (h : legal.Repaired action next) : BlockedByShield action next := by
  rcases h with rfl | ⟨key, value, field, rfl⟩
  · exact .refl _
  · have ne : key ≠ emitBlockedKey := by
      rintro rfl
      revert field
      decide
    exact ((BlockedByShield.set_ne _ _ ne).trans (.set_ne _ _ (by decide))).trans
      (.set_ne _ _ (by decide))

theorem InvariantClass.blockedByShield (k : InvariantClass) :
    (k.invariant py).Respects BlockedByShield := by
  intro action ctx next corr h
  cases k with
  | numericSanity =>
    rcases NumericSanity.project_cases py ctx h with ⟨_, rfl, _⟩ | ⟨_, rfl⟩
    · exact .refl _
    · exact frame_blockedByShield.block _
  | spectralMask mask =>
    rcases SpectralMask.project_cases py mask ctx h with rfl | ⟨rfl, _⟩ | ⟨f, rfl⟩
    · exact frame_blockedByShield.block _
    · exact .refl _
    · exact .set_ne _ _ (by decide)
  | maxEirp cap => exact (MaxEirp.project_cases py cap ctx h).blockedByShield
  | protectedSliceFloor slice =>
    rcases slice.project_cases py h with rfl | ⟨entries, rfl⟩
    · exact .refl _
    · exact .set_ne _ _ (by decide)
  | pfdCeiling cap => exact (PfdCeiling.project_cases py cap ctx h).blockedByShield
  | neuralRxEnvelope env =>
    rcases NeuralRxEnvelope.project_cases py env ctx h with ⟨rfl, _⟩ | ⟨predicted, rfl⟩
    · exact .refl _
    · exact ((BlockedByShield.set_ne _ _ (by decide)).trans (.set_ne _ _ (by decide))).trans
        (.set_ne _ _ (by decide))
  | constellationLegality legal =>
    obtain ⟨snapped, first, second⟩ := ConstellationLegality.project_cases py legal ctx h
    exact first.blockedByShield.trans second.blockedByShield
  | lawfulIntercept li =>
    rcases li.project_cases py ctx h with rfl | ⟨ues, _, rfl⟩
    · exact .refl _
    · exact .set_ne _ _ (by decide)

theorem InvariantClass.evaluate_block (k : InvariantClass) (action : Action) (ctx : Context) :
    (k.invariant py).evaluate (block action) ctx = (k.invariant py).evaluate action ctx := by
  apply k.evaluate_reads py
  intro key read
  have ne : emitBlockedKey ≠ key := by
    rintro rfl
    cases k <;> revert read <;> simp [reads, emitBlockedKey, ProtectedSliceFloor.allocKey]
  exact Dict.get?_set_ne action _ ne

/-- No check reads the block. -/
theorem checkAll_block (chain : List InvariantClass) (action : Action) (ctx : Context) :
    checkAll (block action) ctx (invariantsOf py chain) =
      checkAll action ctx (invariantsOf py chain) := by
  induction chain with
  | nil => rfl
  | cons k rest ih =>
    have head : checkOne (k.invariant py) (block action) ctx =
        checkOne (k.invariant py) action ctx := by
      rw [checkOne, checkOne, k.evaluate_block]
    change (checkOne (k.invariant py) (block action) ctx >>= _) = checkOne _ _ _ >>= _
    rw [head]
    change (_ >>= fun c => checkAll (block action) ctx (invariantsOf py rest) >>= _) = _
    rw [ih]
    rfl

end

def idsOf (checks : List InvariantCheck) : List String :=
  (checks.filter fun c => !c.satisfied).map InvariantCheck.invariantId

namespace Shield

/-- How a disposition ends: the state of the loop, and what the certificate says of it. -/
structure Ending (shield : Shield) (action : Action) (ctx : Context) (d : ShieldDisposition)
    (s : LoopState) (checks : List InvariantCheck) : Prop where
  loop : shield.projectLoop ctx shield.maxPasses ⟨action, [], false⟩ = .ok s
  checked : checkAll s.safe ctx shield.invariants = .ok checks
  violatedIds : d.certificate.violatedIds = idsOf checks
  emitBlocked : d.certificate.emitBlocked = (isBlocked s.safe || !(idsOf checks).isEmpty)
  safe : d.certificate.safe = !d.certificate.emitBlocked
  safeAction : d.safeAction =
    if d.certificate.emitBlocked && !isBlocked s.safe then block s.safe else s.safe
  projected : d.certificate.projected = s.projected
  corrections : d.certificate.corrections = s.corrections

variable {shield : Shield} {py : Interpreter} {action : Action} {context : Option Context}
  {args : DisposeArgs} {d : ShieldDisposition}

theorem dispose_ends (h : shield.dispose py action context args = .ok d) :
    ∃ s checks, shield.Ending action (contextOf context) d s checks := by
  obtain ⟨text, _, h⟩ := bind_eq_ok h
  obtain ⟨s, loop, h⟩ := bind_eq_ok h
  obtain ⟨checks, checked, h⟩ := bind_eq_ok h
  obtain ⟨changed, _, h⟩ := bind_eq_ok h
  cases h
  exact ⟨s, checks, loop, checked, rfl, rfl, rfl, rfl, rfl, rfl⟩

/-- On a blocked action a chain headed by the domain check stops after its first projection. -/
theorem projectLoop_blocked {rest : List Invariant}
    (own : shield.invariants = NumericSanity.invariant py :: rest) {ctx : Context}
    {passes : Nat} {s out : LoopState} (blocked : isBlocked s.safe = true)
    (h : shield.projectLoop ctx (passes + 1) s = .ok out) :
    (NumericSanity.problems py s.safe = [] ∧ out.safe = s.safe) ∨
      (NumericSanity.problems py s.safe ≠ [] ∧ out.safe = block s.safe) := by
  obtain ⟨checks, hchecks, h⟩ := bind_eq_ok h
  split at h
  · rename_i allSat
    cases h
    have holds := (checkAll_satisfied_iff hchecks).mp allSat (NumericSanity.invariant py)
      (own ▸ List.mem_cons_self)
    obtain ⟨c, evaluated, satisfied⟩ := holds
    cases evaluated
    exact Or.inl ⟨List.isEmpty_iff.mp satisfied, rfl⟩
  · rw [own] at h
    by_cases sane : NumericSanity.problems py s.safe = []
    · rw [projectAll, NumericSanity.project_sane py ctx sane] at h
      simp only [blocked, if_true, ok_bind] at h
      cases h
      exact Or.inl ⟨sane, rfl⟩
    · obtain ⟨corr, refused⟩ := NumericSanity.project_insane py ctx sane
      rw [projectAll, refused] at h
      simp only [isBlocked_block, if_true, ok_bind] at h
      cases h
      exact Or.inr ⟨sane, rfl⟩

/-- What a disposition leaves: certified, or blocked so that the first projection keeps it. -/
structure Settled (shield : Shield) (py : Interpreter) (ctx : Context) (d : ShieldDisposition)
    (checks : List InvariantCheck) : Prop where
  checked : checkAll d.safeAction ctx shield.invariants = .ok checks
  blocked : isBlocked d.safeAction = d.certificate.emitBlocked
  kept : isBlocked d.safeAction = true →
    NumericSanity.problems py d.safeAction = [] ∨ Refused d.safeAction

theorem settled_of_ending {chain : List InvariantClass}
    (own : shield.invariants = invariantsOf py (.numericSanity :: chain))
    (passes : shield.maxPasses ≠ 0) {ctx : Context} {s : LoopState}
    {checks : List InvariantCheck} (ending : shield.Ending action ctx d s checks) :
    shield.Settled py ctx d checks := by
  obtain ⟨n, hn⟩ := Nat.exists_eq_succ_of_ne_zero passes
  have checkedBlock : checkAll (block s.safe) ctx shield.invariants = .ok checks := by
    rw [own, checkAll_block, ← own]
    exact ending.checked
  have respects : BlockedByShield action s.safe := by
    refine projectLoop_respects frame_blockedByShield ?_ ending.loop
    intro inv member
    rw [own] at member
    obtain ⟨k, _, rfl⟩ := List.mem_map.mp member
    exact k.blockedByShield py
  have safeAction := ending.safeAction
  split at safeAction
  · rename_i residual
    rw [Bool.and_eq_true] at residual
    rw [← safeAction] at checkedBlock
    refine ⟨checkedBlock, ?_, fun _ => Or.inr (safeAction ▸ refused_block s.safe)⟩
    rw [residual.1, safeAction, isBlocked_block]
  · rename_i decided
    have same : isBlocked s.safe = d.certificate.emitBlocked := by
      have verdict := ending.emitBlocked
      cases blocked : isBlocked s.safe with
      | true =>
        rw [verdict, blocked]
        rfl
      | false =>
        rw [blocked] at decided
        simpa using decided
    refine ⟨safeAction ▸ ending.checked, safeAction ▸ same, ?_⟩
    rw [safeAction]
    intro blocked
    rcases respects with unchanged | refused
    · -- the proposal was blocked already
      have proposed : isBlocked action = true := by
        rw [isBlocked, Dict.getD, ← unchanged]
        exact blocked
      have loop := ending.loop
      rw [hn] at loop
      rcases projectLoop_blocked own proposed loop with ⟨sane, still⟩ | ⟨_, refused⟩
      · rw [still]
        exact Or.inl sane
      · rw [refused]
        exact Or.inr (refused_block action)
    · exact Or.inr refused

/-- A certified action passes the chain. -/
theorem holds_of_idsOf {ctx : Context} {checks : List InvariantCheck}
    (checked : checkAll action ctx shield.invariants = .ok checks) (clean : idsOf checks = []) :
    ∀ inv ∈ shield.invariants, Holds action ctx inv := by
  apply holds_of_checkAll checked
  intro c member
  have passed := List.filter_eq_nil_iff.mp (List.map_eq_nil_iff.mp clean) c member
  simpa using passed

/-- The loop leaves a settled action as it is. -/
theorem projectLoop_of_settled {chain : List InvariantClass}
    (own : shield.invariants = invariantsOf py (.numericSanity :: chain))
    (passes : shield.maxPasses ≠ 0) {ctx : Context} {checks : List InvariantCheck}
    (settled : shield.Settled py ctx d checks)
    (certified : d.certificate.emitBlocked = false → idsOf checks = []) {s : LoopState}
    (loop : shield.projectLoop ctx shield.maxPasses ⟨d.safeAction, [], false⟩ = .ok s) :
    s.safe = d.safeAction ∧ (d.certificate.emitBlocked = false → s = ⟨d.safeAction, [], false⟩) := by
  obtain ⟨n, hn⟩ := Nat.exists_eq_succ_of_ne_zero passes
  cases blocked : d.certificate.emitBlocked with
  | false =>
    have holds := holds_of_idsOf settled.checked (certified blocked)
    have stops : shield.projectLoop ctx shield.maxPasses ⟨d.safeAction, [], false⟩ =
        .ok ⟨d.safeAction, [], false⟩ := projectLoop_of_holds holds _
    rw [stops] at loop
    cases loop
    exact ⟨rfl, fun _ => rfl⟩
  | true =>
    refine ⟨?_, fun free => absurd free Bool.true_eq_false_eq_False⟩
    have start : isBlocked d.safeAction = true := settled.blocked.trans blocked
    rw [hn] at loop
    rcases projectLoop_blocked own start loop with ⟨_, still⟩ | ⟨insane, again⟩
    · exact still
    · rcases settled.kept start with sane | refused
      · exact absurd sane insane
      · exact again.trans refused.block_eq

/-- The second disposition of a chain headed by the domain check. -/
theorem dispose_again {chain : List InvariantClass}
    (own : shield.invariants = invariantsOf py (.numericSanity :: chain))
    (passes : shield.maxPasses ≠ 0) (h : shield.dispose py action context args = .ok d)
    {args' : DisposeArgs} {again : ShieldDisposition}
    (h' : shield.dispose py d.safeAction context args' = .ok again) :
    again.safeAction = d.safeAction ∧ again.certificate.safe = d.certificate.safe ∧
      again.certificate.emitBlocked = d.certificate.emitBlocked ∧
      again.certificate.violatedIds = d.certificate.violatedIds ∧
      (d.certificate.safe = true →
        again.certificate.projected = false ∧ again.certificate.corrections = []) := by
  obtain ⟨s, checks, ending⟩ := dispose_ends h
  obtain ⟨s', checks', ending'⟩ := dispose_ends h'
  have settled := settled_of_ending own passes ending
  have certified : d.certificate.emitBlocked = false → idsOf checks = [] := by
    intro free
    have verdict := ending.emitBlocked
    rw [free] at verdict
    have none := (Bool.or_eq_false_iff.mp verdict.symm).2
    simpa using none
  obtain ⟨still, stops⟩ := projectLoop_of_settled own passes settled certified ending'.loop
  have sameChecks : checks' = checks := by
    have checked := ending'.checked
    rw [still, settled.checked] at checked
    cases checked
    rfl
  have sameIds : again.certificate.violatedIds = d.certificate.violatedIds := by
    rw [ending'.violatedIds, ending.violatedIds, sameChecks]
  have sameBlock : again.certificate.emitBlocked = d.certificate.emitBlocked := by
    rw [ending'.emitBlocked, still, sameChecks, settled.blocked]
    cases blocked : d.certificate.emitBlocked with
    | true => rfl
    | false =>
      rw [certified blocked]
      rfl
  refine ⟨?_, ?_, sameBlock, sameIds, ?_⟩
  · rw [ending'.safeAction, still, sameBlock, settled.blocked, Bool.and_not_self]
    rfl
  · rw [ending'.safe, ending.safe, sameBlock]
  · intro safe
    rw [ending.safe] at safe
    rw [ending'.projected, ending'.corrections, stops (by simpa using safe)]
    exact ⟨rfl, rfl⟩

end Shield

theorem terrestrial_headed (py : Interpreter) (p : TerrestrialParams) :
    ∃ chain, (defaultTerrestrialShield py p).invariants =
      invariantsOf py (.numericSanity :: chain) :=
  ⟨_, terrestrial_invariants py p⟩

theorem ntn_headed (py : Interpreter) (p : NtnParams) :
    ∃ chain, (defaultNtnShield py p).invariants = invariantsOf py (.numericSanity :: chain) :=
  ⟨_, ntn_invariants py p⟩

/-- The second of two dispositions of one action: it returns, and nothing changes. -/
def Idempotent (shield : Shield) (py : Interpreter) (context : Option Context)
    (args' : DisposeArgs) (d : ShieldDisposition) : Prop :=
  ∃ again, shield.dispose py d.safeAction context args' = .ok again ∧
    again.safeAction = d.safeAction ∧ again.certificate.safe = d.certificate.safe ∧
    again.certificate.emitBlocked = d.certificate.emitBlocked ∧
    again.certificate.violatedIds = d.certificate.violatedIds ∧
    (d.certificate.safe = true →
      again.certificate.projected = false ∧ again.certificate.corrections = [])

theorem BlockKept.printable {before after : Action} (kept : BlockKept before after)
    (printable : (before.getD "block" .null).digitsOk = true) :
    (after.getD "block" .null).digitsOk = true := by
  rcases kept with same | ⟨s, text⟩
  · rw [getD_of_get? same]
    exact printable
  · rw [Dict.getD, text]
    rfl

theorem idempotent_of_chain {shield : Shield} {py : Interpreter} {li : Option LIConstraint}
    (own : DefaultChain py li shield) {chain : List InvariantClass}
    (headed : shield.invariants = invariantsOf py (.numericSanity :: chain))
    (passes : shield.maxPasses ≠ 0) {action : Action} {context : Option Context}
    {args : DisposeArgs} {d : ShieldDisposition}
    (h : shield.dispose py action context args = .ok d) (args' : DisposeArgs) :
    Idempotent shield py context args' d := by
  have kept : BlockKept action d.safeAction :=
    Shield.dispose_respects frame_blockKept (fun inv member => (own.safe inv member).blockKept) h
  -- the block of the safe action prints, since that of the proposal did
  have printable := kept.printable (printable_of_dispose h)
  obtain ⟨again, h'⟩ := Shield.dispose_isOk own.safe py d.safeAction context args' printable
  exact ⟨again, h', Shield.dispose_again headed passes h h'⟩

/-- Disposing twice is disposing once, for both default shields. -/
theorem dispose_idempotent (py : Interpreter) (action : Action) (context : Option Context)
    (args args' : DisposeArgs) (d : ShieldDisposition) :
    (∀ p : TerrestrialParams,
      (defaultTerrestrialShield py p).dispose py action context args = .ok d →
        Idempotent (defaultTerrestrialShield py p) py context args' d) ∧
    (∀ p : NtnParams, (defaultNtnShield py p).dispose py action context args = .ok d →
      Idempotent (defaultNtnShield py p) py context args' d) := by
  constructor
  · intro p h
    obtain ⟨chain, headed⟩ := terrestrial_headed py p
    exact idempotent_of_chain (terrestrial_chain py p) headed (Nat.succ_ne_zero 7) h args'
  · intro p h
    obtain ⟨chain, headed⟩ := ntn_headed py p
    exact idempotent_of_chain (ntn_chain py p) headed (Nat.succ_ne_zero 7) h args'

theorem dispose_idempotent_carrier :
    ∃ d, (defaultTerrestrialShield plainInterpreter (testbedParams (.fin 3600000000))).dispose
        plainInterpreter carrierAction none plainArgs = .ok d ∧
      Idempotent (defaultTerrestrialShield plainInterpreter (testbedParams (.fin 3600000000)))
        plainInterpreter none plainArgs d := by
  obtain ⟨d, hd⟩ := Shield.dispose_isOk
    (terrestrial_chain plainInterpreter (testbedParams (.fin 3600000000))).safe plainInterpreter
    carrierAction none plainArgs (by decide)
  exact ⟨d, hd, (dispose_idempotent plainInterpreter carrierAction none plainArgs plainArgs d).1
    (testbedParams (.fin 3600000000)) hd⟩

end HorizonRic
