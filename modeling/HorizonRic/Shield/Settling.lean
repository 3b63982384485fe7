import HorizonRic.Shield.Loop

/-!
When one sweep of projections settles an action: every projection returns, keeps a
common property of the actions, makes its own check hold, and undoes no check
before it in the chain.
-/
namespace HorizonRic
open Py

/-- From `P` the projection returns, keeps `P`, and its check holds after it. -/
def Invariant.Settles (P : Action → Prop) (ctx : Context) (inv : Invariant) : Prop :=
  ∀ action, P action → ∃ next corr, inv.project action ctx = .ok (next, corr) ∧ P next ∧
    Holds next ctx inv

/-- The projection does not undo the other check. -/
def Invariant.Spares (P : Action → Prop) (ctx : Context) (inv other : Invariant) : Prop :=
  ∀ action next corr, P action → inv.project action ctx = .ok (next, corr) →
    Holds action ctx other → Holds next ctx other

theorem projectAll_settles {P : Action → Prop} {ctx : Context}
    (free : ∀ action, P action → isBlocked action = false) {invs : List Invariant}
    (settles : ∀ inv ∈ invs, inv.Settles P ctx)
    (spares : invs.Pairwise fun earlier later => later.Spares P ctx earlier)
    {action : Action} (start : P action) :
    ∃ next corr, projectAll ctx invs action = .ok (next, corr) ∧ P next ∧
      (∀ inv ∈ invs, Holds next ctx inv) ∧
      ∀ other, (∀ inv ∈ invs, inv.Spares P ctx other) → Holds action ctx other →
        Holds next ctx other := by
  induction invs generalizing action with
  | nil => exact ⟨action, [], rfl, start, by simp, fun _ _ holds => holds⟩
  | cons inv rest ih =>
    obtain ⟨spared, spares⟩ := List.pairwise_cons.mp spares
    obtain ⟨mid, midCorr, projects, kept, holds⟩ := settles inv List.mem_cons_self action start
    obtain ⟨next, corr, swept, last, restHold, stays⟩ :=
      ih (fun other member => settles other (List.mem_cons_of_mem _ member)) spares kept
    refine ⟨next, midCorr ++ corr, ?_, last, ?_, ?_⟩
    · simp only [projectAll, projects, free mid kept, Bool.false_eq_true, if_false, swept, ok_bind]
    · intro other member
      rcases List.mem_cons.mp member with rfl | later
      · exact stays other spared holds
      · exact restHold other later
    · intro other all before
      have first := all inv List.mem_cons_self action mid midCorr start projects before
      exact stays other (fun inv member => all inv (List.mem_cons_of_mem _ member)) first

namespace Shield
variable {shield : Shield} {ctx : Context}

/-- The loop ends at a property of the actions under which the chain settles. -/
theorem projectLoop_settles {P : Action → Prop} (safe : shield.Safe)
    (free : ∀ action, P action → isBlocked action = false)
    (settles : ∀ inv ∈ shield.invariants, inv.Settles P ctx)
    (spares : shield.invariants.Pairwise fun earlier later => later.Spares P ctx earlier)
    {passes : Nat} (positive : passes ≠ 0) {s : LoopState} (start : P s.safe) :
    ∃ out, shield.projectLoop ctx passes s = .ok out ∧ P out.safe ∧
      ∀ inv ∈ shield.invariants, Holds out.safe ctx inv := by
  obtain ⟨n, rfl⟩ := Nat.exists_eq_succ_of_ne_zero positive
  obtain ⟨checks, hchecks⟩ :=
    checkAll_isOk (fun inv member => (safe inv member).checkable) s.safe ctx
  obtain ⟨next, corr, swept, last, holds, _⟩ := projectAll_settles free settles spares start
  rw [projectLoop, hchecks, ok_bind]
  split
  · rename_i allSat
    exact ⟨s, rfl, start, (checkAll_satisfied_iff hchecks).mp allSat⟩
  · rw [swept, ok_bind]
    dsimp only
    rw [free next last, if_neg Bool.false_ne_true, projectLoop_of_holds holds]
    exact ⟨_, rfl, last, holds⟩

theorem dispose_settles {P : Action → Prop} {py : Interpreter} {context : Option Context}
    (safe : shield.Safe) (positive : shield.maxPasses ≠ 0)
    (free : ∀ action, P action → isBlocked action = false)
    (settles : ∀ inv ∈ shield.invariants, inv.Settles P (contextOf context))
    (spares : shield.invariants.Pairwise fun earlier later =>
      later.Spares P (contextOf context) earlier)
    {action : Action} (start : P action) (args : DisposeArgs)
    (printable : (action.getD "block" .null).digitsOk = true) :
    ∃ d, shield.dispose py action context args = .ok d ∧ d.certificate.safe = true ∧
      P d.safeAction ∧ ∀ inv ∈ shield.invariants, Holds d.safeAction (contextOf context) inv := by
  obtain ⟨s, loop, last, holds⟩ :=
    projectLoop_settles safe free settles spares positive
      (show P (LoopState.safe ⟨action, [], false⟩) from start)
  have kept : BlockKept action s.safe :=
    projectLoop_respects frame_blockKept (fun inv member => (safe inv member).blockKept) loop
  obtain ⟨text, htext⟩ := block_prints py printable "unknown"
  obtain ⟨changed, compares⟩ := blockChanged_isOk py kept printable text
  obtain ⟨d, certified, sound, same, _⟩ :=
    certify_of_holds holds (free _ last) compares
  refine ⟨d, ?_, sound, same ▸ last, same ▸ holds⟩
  rw [dispose, blockText, htext, ok_bind, loop, ok_bind]
  exact certified

/-- A first invariant that blocks the action ends the loop with the action as it was. -/
theorem dispose_refused {inv : Invariant} {rest : List Invariant}
    (own : shield.invariants = inv :: rest) (safe : shield.Safe) (passes : shield.maxPasses ≠ 0)
    (py : Interpreter) {action : Action} {context : Option Context} (args : DisposeArgs)
    {corr : List ConstraintViolation} (fails : ¬ Holds action (contextOf context) inv)
    (blocks : inv.project action (contextOf context) = .ok (block action, corr))
    (printable : (action.getD "block" .null).digitsOk = true) :
    ∃ d, shield.dispose py action context args = .ok d ∧ d.safeAction = block action := by
  obtain ⟨n, hn⟩ := Nat.exists_eq_succ_of_ne_zero passes
  obtain ⟨checks, hchecks⟩ :=
    checkAll_isOk (fun inv member => (safe inv member).checkable) action (contextOf context)
  have unsat : ¬ checks.all InvariantCheck.satisfied = true := by
    rw [checkAll_satisfied_iff hchecks]
    intro all
    apply fails
    apply all
    rw [own]
    exact List.mem_cons_self
  have blocked : isBlocked (block action) = true := isBlocked_block action
  have loop : shield.projectLoop (contextOf context) shield.maxPasses ⟨action, [], false⟩ =
      .ok ⟨block action, corr, true⟩ := by
    rw [hn, projectLoop, hchecks, ok_bind, if_neg unsat, own]
    simp only [projectAll, blocks, blocked, if_true, ok_bind, List.nil_append]
  obtain ⟨d, hd⟩ := dispose_isOk safe py action context args printable
  refine ⟨d, hd, ?_⟩
  obtain ⟨text, _, h⟩ := bind_eq_ok hd
  rw [loop, ok_bind] at h
  obtain ⟨_, _, h⟩ := bind_eq_ok h
  obtain ⟨_, _, h⟩ := bind_eq_ok h
  cases h
  simp only [blocked, Bool.not_true, Bool.and_false, Bool.false_eq_true, if_false]

end Shield
end HorizonRic
