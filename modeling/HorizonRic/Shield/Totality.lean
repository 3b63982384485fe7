import HorizonRic.Shield.InvariantClasses

/-!
Totality of the Shield over any chain of the repository's invariants. Checks and
the feasibility oracle always return. A disposition returns unless its block
cannot be printed, or a sweep brings an allocation that is no mapping before a
protected slice floor.
-/
namespace HorizonRic
open Py
open ProtectedSliceFloor (malformed Readable)

section
variable (py : Interpreter)

/-- The projections before the first floor let the action through to it. -/
def reachesFloor (ctx : Context) : List InvariantClass → Action → Bool
  | [], _ => false
  | .protectedSliceFloor _ :: _, _ => true
  | k :: rest, action =>
    match (k.invariant py).project action ctx with
    | .ok (next, _) => !isBlocked next && reachesFloor ctx rest next
    | .error _ => false

theorem reachesFloor_cons {ctx : Context} {k : InvariantClass} {rest : List InvariantClass}
    (noFloor : k.isFloor = false) (action : Action) :
    reachesFloor py ctx (k :: rest) action =
      match (k.invariant py).project action ctx with
      | .ok (next, _) => !isBlocked next && reachesFloor py ctx rest next
      | .error _ => false := by
  cases k with
  | protectedSliceFloor slice => cases noFloor
  | _ => rfl

theorem InvariantClass.blockKept (k : InvariantClass) : (k.invariant py).Respects BlockKept := by
  cases floor : k.isFloor with
  | false => exact (k.safe py floor).blockKept
  | true =>
    cases k with
    | protectedSliceFloor slice => exact slice.blockKept py
    | _ => cases floor

/-- No other invariant writes the allocation. -/
theorem InvariantClass.malformed_kept {k : InvariantClass} (noFloor : k.isFloor = false)
    {action next : Action} {ctx : Context} {corr : List ConstraintViolation}
    (h : (k.invariant py).project action ctx = .ok (next, corr)) :
    malformed next = malformed action := by
  have same := (k.safe py noFloor).writes _ _ _ _ h ProtectedSliceFloor.allocKey (by decide)
  rw [malformed, malformed, ProtectedSliceFloor.allocation, ProtectedSliceFloor.allocation,
    Dict.getD, Dict.getD, same]

theorem InvariantClass.readable (k : InvariantClass) : (k.invariant py).Respects Readable := by
  intro action ctx next corr h
  cases floor : k.isFloor with
  | false =>
    intro readable
    rw [k.malformed_kept py floor h, readable]
  | true =>
    cases k with
    | protectedSliceFloor slice => exact slice.readable py _ _ _ _ h
    | _ => cases floor

theorem InvariantClass.project_raises (k : InvariantClass) {action : Action}
    (readable : malformed action = false) (ctx : Context) :
    RaisesOnly isDataError ((k.invariant py).project action ctx) := by
  cases floor : k.isFloor with
  | false =>
    obtain ⟨keys, _, contained⟩ := k.safe py floor
    exact contained.projectRaises action ctx
  | true =>
    cases k with
    | protectedSliceFloor slice => exact slice.project_raises py readable ctx
    | _ => cases floor

theorem invariantsOf_respects {R : Action → Action → Prop} (chain : List InvariantClass)
    (each : ∀ k : InvariantClass, (k.invariant py).Respects R) :
    ∀ inv ∈ invariantsOf py chain, inv.Respects R := by
  intro inv member
  obtain ⟨k, _, rfl⟩ := List.mem_map.mp member
  exact each k

/-- A sweep from a readable allocation returns. -/
theorem projectAll_readable (chain : List InvariantClass) (ctx : Context) {action : Action}
    (readable : malformed action = false) :
    ∃ next corr, projectAll ctx (invariantsOf py chain) action = .ok (next, corr) := by
  induction chain generalizing action with
  | nil => exact ⟨action, [], rfl⟩
  | cons k rest ih =>
    simp only [invariantsOf, List.map_cons, projectAll]
    rcases (k.project_raises py readable ctx).cases with ⟨⟨next, corr⟩, ok⟩ | ⟨e, error, data⟩
    · obtain ⟨last, more, swept⟩ := ih (k.readable py _ _ _ _ ok readable)
      simp only [ok]
      split
      · exact ⟨_, _, rfl⟩
      · exact ⟨last, corr ++ more, by rw [← invariantsOf, swept, ok_bind]⟩
    · simp only [error, caught_eq_dataError, data, if_true]
      exact ⟨_, _, rfl⟩

/-- A sweep that comes to a floor with a malformed allocation raises. -/
theorem projectAll_reaches (chain : List InvariantClass) (ctx : Context) {action : Action}
    (bad : malformed action = true) (reaches : reachesFloor py ctx chain action = true) :
    projectAll ctx (invariantsOf py chain) action = .error .attributeError := by
  induction chain generalizing action with
  | nil => cases reaches
  | cons k rest ih =>
    simp only [invariantsOf, List.map_cons, projectAll]
    cases floor : k.isFloor with
    | true =>
      cases k with
      | protectedSliceFloor slice =>
        simp only [InvariantClass.invariant, slice.project_malformed py bad ctx]
        rfl
      | _ => cases floor
    | false =>
      rw [reachesFloor_cons py floor] at reaches
      cases swept : (k.invariant py).project action ctx with
      | error e => rw [swept] at reaches; cases reaches
      | ok out =>
        obtain ⟨next, corr⟩ := out
        rw [swept] at reaches
        obtain ⟨free, later⟩ := (Bool.and_eq_true _ _).mp reaches
        have stillBad : malformed next = true := by rw [k.malformed_kept py floor swept, bad]
        have open' : isBlocked next = false := by simpa using free
        simp only [open', Bool.false_eq_true, if_false]
        rw [← invariantsOf, ih stillBad later]
        rfl

/-- One that does not come to a floor ends blocked, or meets no floor at all. -/
theorem projectAll_avoids (chain : List InvariantClass) (ctx : Context) {action : Action}
    (avoids : reachesFloor py ctx chain action = false) :
    ∃ next corr, projectAll ctx (invariantsOf py chain) action = .ok (next, corr) ∧
      (isBlocked next = true ∨ ∀ k ∈ chain, k.isFloor = false) := by
  induction chain generalizing action with
  | nil => exact ⟨action, [], rfl, Or.inr (by simp)⟩
  | cons k rest ih =>
    simp only [invariantsOf, List.map_cons, projectAll]
    cases floor : k.isFloor with
    | true =>
      cases k with
      | protectedSliceFloor slice => cases avoids
      | _ => cases floor
    | false =>
      rw [reachesFloor_cons py floor] at avoids
      obtain ⟨keys, _, contained⟩ := k.safe py floor
      rcases (contained.projectRaises action ctx).cases with ⟨⟨next, corr⟩, ok⟩ | ⟨e, error, data⟩
      · rw [ok] at avoids
        simp only [ok]
        cases blocked : isBlocked next with
        | true => exact ⟨next, corr, rfl, Or.inl blocked⟩
        | false =>
          have later : reachesFloor py ctx rest next = false := by simpa [blocked] using avoids
          obtain ⟨last, more, swept, ending⟩ := ih later
          refine ⟨last, corr ++ more, ?_, ?_⟩
          · simp only [Bool.false_eq_true, if_false]
            rw [← invariantsOf, swept, ok_bind]
          · rcases ending with blocked | noFloor
            · exact Or.inl blocked
            · right
              intro other member
              rcases List.mem_cons.mp member with rfl | among
              · exact floor
              · exact noFloor other among
      · simp only [error, caught_eq_dataError, data, if_true]
        exact ⟨_, _, rfl, Or.inl (isBlocked_block action)⟩

theorem feasibleAll_isOk {invs : List Invariant} (checkable : ∀ inv ∈ invs, inv.Checkable)
    (action : Action) (ctx : Context) :
    ∃ feasible, Shield.feasibleAll action ctx invs = .ok feasible ∧
      (feasible = true ↔ ∀ inv ∈ invs, Holds action ctx inv) := by
  induction invs with
  | nil => exact ⟨true, rfl, by simp⟩
  | cons inv rest ih =>
    rw [Shield.feasibleAll]
    rcases (checkable inv List.mem_cons_self action ctx).cases with ⟨c, ok⟩ | ⟨e, error, data⟩
    · cases sat : c.satisfied with
      | true =>
        obtain ⟨feasible, hfeasible, spec⟩ :=
          ih fun other member => checkable other (List.mem_cons_of_mem _ member)
        have holds : Holds action ctx inv := ⟨c, ok, sat⟩
        refine ⟨feasible, by simp only [ok, sat, if_true, hfeasible], ?_⟩
        rw [spec, List.forall_mem_cons]
        exact ⟨fun tail => ⟨holds, tail⟩, And.right⟩
      | false =>
        refine ⟨false, by simp only [ok, sat, Bool.false_eq_true, if_false], ?_⟩
        have fails : ¬ Holds action ctx inv := by
          rw [holds_iff, ok]
          simp [sat]
        simp [fails]
    · refine ⟨false, by simp only [error, caught_eq_dataError, data, if_true], ?_⟩
      have fails : ¬ Holds action ctx inv := by
        rw [holds_iff, error]
        simp
      simp [fails]

end

variable {py : Interpreter} {chain : List InvariantClass} {action : Action}

/-- The input on which a sweep raises what the Shield does not catch. -/
def SweepEscapes (py : Interpreter) (chain : List InvariantClass) (maxPasses : Nat)
    (action : Action) (ctx : Context) : Prop :=
  0 < maxPasses ∧ malformed action = true ∧ reachesFloor py ctx chain action = true ∧
    ∃ inv ∈ invariantsOf py chain, ¬ Holds action ctx inv

theorem checkAll_fails {invs : List Invariant} {ctx : Context} {checks : List InvariantCheck}
    (h : checkAll action ctx invs = .ok checks) (fails : ∃ inv ∈ invs, ¬ Holds action ctx inv) :
    checks.all InvariantCheck.satisfied = false := by
  cases sat : checks.all InvariantCheck.satisfied with
  | false => rfl
  | true =>
    obtain ⟨inv, member, not⟩ := fails
    exact absurd ((checkAll_satisfied_iff h).mp sat inv member) not

theorem projectLoop_escapes {maxPasses : Nat} {ctx : Context}
    (escapes : SweepEscapes py chain maxPasses action ctx) (corrections : List ConstraintViolation) :
    Shield.projectLoop ⟨invariantsOf py chain, maxPasses⟩ ctx maxPasses
      ⟨action, corrections, false⟩ = .error .attributeError := by
  obtain ⟨positive, bad, reaches, fails⟩ := escapes
  obtain ⟨n, rfl⟩ := Nat.exists_eq_succ_of_ne_zero positive.ne'
  obtain ⟨checks, hchecks⟩ := checkAll_isOk (invariantsOf_checkable py chain) action ctx
  have violated := checkAll_fails hchecks fails
  rw [Shield.projectLoop, hchecks, ok_bind, if_neg (by simp [violated]),
    projectAll_reaches py chain ctx bad reaches]
  rfl

theorem projectLoop_returns {maxPasses : Nat} {ctx : Context}
    (kept : ¬ SweepEscapes py chain maxPasses action ctx) :
    ∃ out, Shield.projectLoop ⟨invariantsOf py chain, maxPasses⟩ ctx maxPasses
      ⟨action, [], false⟩ = .ok out := by
  have checkable := invariantsOf_checkable py chain
  cases bad : malformed action with
  | false =>
    -- every later allocation is readable too
    refine Shield.projectLoop_isOk_of (P := fun a => malformed a = false) checkable ?_ _ _ bad
    intro a readable
    obtain ⟨next, corr, swept⟩ := projectAll_readable py chain ctx readable
    refine ⟨next, corr, swept, ?_⟩
    exact projectAll_respects ProtectedSliceFloor.frame_readable
      (invariantsOf_respects py chain fun k => k.readable py) swept readable
  | true =>
    cases maxPasses with
    | zero => exact ⟨_, rfl⟩
    | succ n =>
      obtain ⟨checks, hchecks⟩ := checkAll_isOk checkable action ctx
      rw [Shield.projectLoop, hchecks, ok_bind]
      split
      · exact ⟨_, rfl⟩
      · rename_i violated
        have fails : ∃ inv ∈ invariantsOf py chain, ¬ Holds action ctx inv := by
          by_contra all
          push Not at all
          exact violated ((checkAll_satisfied_iff hchecks).mpr all)
        have avoids : reachesFloor py ctx chain action = false := by
          rw [← Bool.not_eq_true]
          intro reaches
          exact kept ⟨n.succ_pos, bad, reaches, fails⟩
        obtain ⟨next, corr, swept, ending⟩ := projectAll_avoids py chain ctx avoids
        rw [swept, ok_bind]
        dsimp only
        split
        · exact ⟨_, rfl⟩
        · rename_i free
          rcases ending with blocked | noFloor
          · exact absurd blocked free
          · have safe : Shield.Safe ⟨invariantsOf py chain, n + 1⟩ := invariantsOf_safe py noFloor
            exact Shield.projectLoop_isOk safe ctx n _

/-- `check`, `is_feasible` and `dispose` return, and a check that raises on the final
    action fails closed. -/
structure FailsClosed (shield : Shield) (py : Interpreter) (action : Action)
    (context : Option Context) (args : DisposeArgs) : Prop where
  check : ∃ checks, shield.check action context = .ok checks
  isFeasible : ∃ feasible, shield.isFeasible action context = .ok feasible
  dispose : ∃ d, shield.dispose py action context args = .ok d ∧
    ∀ inv ∈ shield.invariants, ∀ e,
      inv.evaluate d.safeAction (contextOf context) = .error e →
        d.certificate.safe = false ∧ d.certificate.emitBlocked = true

theorem printable_of_dispose {shield : Shield} {context : Option Context} {args : DisposeArgs}
    {d : ShieldDisposition} (h : shield.dispose py action context args = .ok d) :
    (action.getD "block" .null).digitsOk = true := by
  obtain ⟨text, htext, _⟩ := bind_eq_ok h
  have prints : ∃ s, (action.getD "block" (.str "unknown")).toStr py = .ok s := ⟨text, htext⟩
  rw [toStr_isOk_iff] at prints
  cases present : Dict.get? "block" action with
  | none => simp [Dict.getD, present, Value.digitsOk]
  | some v => simpa [Dict.getD, present] using prints

theorem raised_failsClosed {shield : Shield} {context : Option Context} {args : DisposeArgs}
    {d : ShieldDisposition} (h : shield.dispose py action context args = .ok d)
    {inv : Invariant} (member : inv ∈ shield.invariants) {e : PyErr}
    (raised : inv.evaluate d.safeAction (contextOf context) = .error e) :
    d.certificate.safe = false ∧ d.certificate.emitBlocked = true := by
  obtain ⟨opposite, ⟨_, _, holds⟩ | ⟨refused, _⟩⟩ := Shield.dispose_verdict h
  · obtain ⟨c, ok, _⟩ := holds inv member
    rw [raised] at ok
    cases ok
  · rw [refused] at opposite
    exact ⟨refused, by simpa using opposite.symm⟩

theorem dispose_returns {chain : List InvariantClass} {maxPasses : Nat}
    {context : Option Context}
    (kept : ¬ SweepEscapes py chain maxPasses action (contextOf context))
    (printable : (action.getD "block" .null).digitsOk = true) (args : DisposeArgs) :
    ∃ d, Shield.dispose ⟨invariantsOf py chain, maxPasses⟩ py action context args = .ok d := by
  obtain ⟨s, loop⟩ := projectLoop_returns kept
  have blockKept : BlockKept action s.safe :=
    Shield.projectLoop_respects frame_blockKept
      (invariantsOf_respects py chain fun k => k.blockKept py) loop
  exact Shield.dispose_isOk_of_loop (invariantsOf_checkable py chain) py args loop blockKept printable

/-- When the Shield is total: its block prints, and no sweep escapes. -/
theorem failsClosed_iff (py : Interpreter) (chain : List InvariantClass) (maxPasses : Nat)
    (action : Action) (context : Option Context) (args : DisposeArgs) :
    FailsClosed ⟨invariantsOf py chain, maxPasses⟩ py action context args ↔
      (action.getD "block" .null).digitsOk = true ∧
        ¬ SweepEscapes py chain maxPasses action (contextOf context) := by
  have checkable := invariantsOf_checkable py chain
  constructor
  · rintro ⟨_, _, d, hd, _⟩
    refine ⟨printable_of_dispose hd, fun escapes => ?_⟩
    obtain ⟨text, _, hd⟩ := bind_eq_ok hd
    obtain ⟨s, loop, _⟩ := bind_eq_ok hd
    rw [projectLoop_escapes escapes] at loop
    cases loop
  · rintro ⟨printable, kept⟩
    obtain ⟨d, hd⟩ := dispose_returns kept printable args
    obtain ⟨feasible, hfeasible, _⟩ := feasibleAll_isOk checkable action (contextOf context)
    exact {
      check := checkAll_isOk checkable action (contextOf context)
      isFeasible := ⟨feasible, hfeasible⟩
      dispose := ⟨d, hd, fun inv member e raised => raised_failsClosed hd member raised⟩ }

/-- The class's defaults. -/
def slices : ProtectedSliceFloor := ⟨"safety_critical", .fin (1 / 5)⟩

/-- A list in place of the allocation leaves `dispose` as an AttributeError. -/
theorem listAllocation_escapes :
    ¬ FailsClosed ⟨invariantsOf plainInterpreter [.protectedSliceFloor slices], 8⟩
      plainInterpreter [("prb_allocation", .list [.float (.fin 1)])] none plainArgs := by
  rintro ⟨_, _, d, hd, _⟩
  have escapes : SweepEscapes plainInterpreter [.protectedSliceFloor slices] 8
      [("prb_allocation", .list [.float (.fin 1)])] [] :=
    ⟨by decide, rfl, rfl, _, List.mem_singleton.mpr rfl, by decide +kernel⟩
  obtain ⟨text, _, hd⟩ := bind_eq_ok hd
  obtain ⟨s, loop, _⟩ := bind_eq_ok hd
  rw [contextOf, Option.getD_none, projectLoop_escapes escapes] at loop
  cases loop

end HorizonRic
