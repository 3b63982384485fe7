import HorizonRic.Shield.Containment

/-!
The fix-point loop of `dispose` over a chain of contained invariants. It never
raises, it relates its start to its end by every frame relation the projections
respect, and the verdict is read from a last evaluation of the whole chain.
-/
namespace HorizonRic
open Py

/-- A relation the loop may be run under: it composes, and blocking respects it. -/
structure Frame (R : Action → Action → Prop) : Prop where
  refl : ∀ a, R a a
  trans : ∀ {a b c}, R a b → R b c → R a c
  block : ∀ a, R a (block a)

theorem frame_sameOutside : Frame (Dict.SameOutside writtenKeys) where
  refl := .refl _
  trans := Dict.SameOutside.trans
  block _ := (Dict.SameOutside.refl _ _).set (by decide) _

theorem frame_blockKept : Frame BlockKept where
  refl := .refl
  trans := .trans
  block := block_blockKept

def Invariant.Safe (inv : Invariant) : Prop := ∃ keys, keys ⊆ writtenKeys ∧ inv.Contained keys

theorem Invariant.Safe.writes {inv : Invariant} (safe : inv.Safe) :
    inv.Respects (Dict.SameOutside writtenKeys) := by
  obtain ⟨keys, sub, contained⟩ := safe
  intro action ctx next corr h key outside
  exact contained.writes _ _ _ _ h key fun member => outside (sub member)

theorem Invariant.Safe.blockKept {inv : Invariant} (safe : inv.Safe) :
    inv.Respects BlockKept := by
  obtain ⟨keys, _, contained⟩ := safe
  exact contained.blockKept

/-- Every exception of the invariant's check is one the Shield catches. -/
def Invariant.Checkable (inv : Invariant) : Prop :=
  ∀ action ctx, RaisesOnly isDataError (inv.evaluate action ctx)

theorem Invariant.Safe.checkable {inv : Invariant} (safe : inv.Safe) : inv.Checkable := by
  obtain ⟨keys, _, contained⟩ := safe
  exact contained.evaluateRaises

theorem checkOne_isOk {inv : Invariant} (checkable : inv.Checkable) (action : Action)
    (ctx : Context) : ∃ c, checkOne inv action ctx = .ok c := by
  unfold checkOne
  rcases (checkable action ctx).cases with ⟨c, ok⟩ | ⟨e, error, data⟩
  · exact ⟨c, by rw [ok]⟩
  · exact ⟨malformedCheck inv e, by simp only [error, caught_eq_dataError, data, if_true]⟩

/-- A check is satisfied only when the evaluation returned it. -/
theorem evaluate_of_checkOne {inv : Invariant} {action : Action} {ctx : Context}
    {c : InvariantCheck} (h : checkOne inv action ctx = .ok c) (sat : c.satisfied = true) :
    inv.evaluate action ctx = .ok c := by
  unfold checkOne at h
  split at h
  · rename_i ok
    rw [ok]
    exact h
  · split at h
    · cases h
      cases sat
    · cases h

theorem checkAll_isOk {invs : List Invariant} (checkable : ∀ inv ∈ invs, inv.Checkable)
    (action : Action) (ctx : Context) : ∃ checks, checkAll action ctx invs = .ok checks := by
  induction invs with
  | nil => exact ⟨[], rfl⟩
  | cons inv rest ih =>
    obtain ⟨c, hc⟩ := checkOne_isOk (checkable inv List.mem_cons_self) action ctx
    obtain ⟨cs, hcs⟩ := ih fun other member => checkable other (List.mem_cons_of_mem _ member)
    exact ⟨c :: cs, by rw [checkAll, hc, ok_bind, hcs, ok_bind]⟩

/-- Every invariant of the chain holds of the action. -/
def Holds (action : Action) (ctx : Context) (inv : Invariant) : Prop :=
  ∃ c, inv.evaluate action ctx = .ok c ∧ c.satisfied = true

theorem holds_iff (action : Action) (ctx : Context) (inv : Invariant) :
    Holds action ctx inv ↔
      (match inv.evaluate action ctx with | .ok c => c.satisfied | .error _ => false) = true := by
  unfold Holds
  cases inv.evaluate action ctx with
  | error e => simp
  | ok c => simp

instance (action : Action) (ctx : Context) (inv : Invariant) :
    Decidable (Holds action ctx inv) :=
  decidable_of_iff _ (holds_iff action ctx inv).symm

theorem holds_of_checkAll {invs : List Invariant} {action : Action} {ctx : Context}
    {checks : List InvariantCheck} (h : checkAll action ctx invs = .ok checks)
    (sat : ∀ c ∈ checks, c.satisfied = true) : ∀ inv ∈ invs, Holds action ctx inv := by
  induction invs generalizing checks with
  | nil => simp
  | cons inv rest ih =>
    obtain ⟨c, hc, h⟩ := bind_eq_ok h
    obtain ⟨cs, hcs, h⟩ := bind_eq_ok h
    cases h
    intro other member
    rcases List.mem_cons.mp member with rfl | later
    · have satisfied := sat c List.mem_cons_self
      exact ⟨c, evaluate_of_checkOne hc satisfied, satisfied⟩
    · exact ih hcs (fun c' member' => sat c' (List.mem_cons_of_mem _ member')) other later

theorem checkAll_of_holds {invs : List Invariant} {action : Action} {ctx : Context}
    (holds : ∀ inv ∈ invs, Holds action ctx inv) :
    ∃ checks, checkAll action ctx invs = .ok checks ∧ ∀ c ∈ checks, c.satisfied = true := by
  induction invs with
  | nil => exact ⟨[], rfl, by simp⟩
  | cons inv rest ih =>
    obtain ⟨c, hc, sat⟩ := holds inv List.mem_cons_self
    obtain ⟨cs, hcs, sats⟩ := ih fun other member => holds other (List.mem_cons_of_mem _ member)
    have head : checkOne inv action ctx = .ok c := by rw [checkOne, hc]
    refine ⟨c :: cs, by rw [checkAll, head, ok_bind, hcs, ok_bind], ?_⟩
    intro c' member
    rcases List.mem_cons.mp member with rfl | later
    · exact sat
    · exact sats c' later

theorem checkAll_satisfied_iff {invs : List Invariant} {action : Action} {ctx : Context}
    {checks : List InvariantCheck} (h : checkAll action ctx invs = .ok checks) :
    checks.all InvariantCheck.satisfied = true ↔ ∀ inv ∈ invs, Holds action ctx inv := by
  rw [List.all_eq_true]
  constructor
  · exact holds_of_checkAll h
  · intro holds
    obtain ⟨checks', hchecks', sat⟩ := checkAll_of_holds holds
    rw [h] at hchecks'
    cases hchecks'
    exact sat

theorem projectAll_isOk {invs : List Invariant} (safe : ∀ inv ∈ invs, inv.Safe)
    (ctx : Context) (action : Action) : ∃ out, projectAll ctx invs action = .ok out := by
  induction invs generalizing action with
  | nil => exact ⟨_, rfl⟩
  | cons inv rest ih =>
    obtain ⟨keys, _, contained⟩ := safe inv List.mem_cons_self
    have restSafe := fun other member => safe other (List.mem_cons_of_mem inv member)
    unfold projectAll
    rcases (contained.projectRaises action ctx).cases with ⟨⟨next, corr⟩, ok⟩ | ⟨e, error, data⟩
    · simp only [ok]
      split
      · exact ⟨_, rfl⟩
      · obtain ⟨out, hout⟩ := ih restSafe next
        exact ⟨_, by rw [hout, ok_bind]⟩
    · simp only [error, caught_eq_dataError, data, if_true]
      exact ⟨_, rfl⟩

/-- A sweep stays inside every frame relation its projections respect. -/
theorem projectAll_respects {R : Action → Action → Prop} (frame : Frame R)
    {invs : List Invariant} (respects : ∀ inv ∈ invs, inv.Respects R) {ctx : Context}
    {action next : Action} {corr : List ConstraintViolation}
    (h : projectAll ctx invs action = .ok (next, corr)) : R action next := by
  induction invs generalizing action next corr with
  | nil =>
    cases h
    exact frame.refl _
  | cons inv rest ih =>
    have restRespects := fun other member => respects other (List.mem_cons_of_mem inv member)
    unfold projectAll at h
    split at h
    · rename_i mid midCorr ok
      have first : R action mid := respects inv List.mem_cons_self _ _ _ _ ok
      split at h
      · cases h
        exact first
      · obtain ⟨⟨last, more⟩, hrest, h⟩ := bind_eq_ok h
        cases h
        exact frame.trans first (ih restRespects hrest)
    · split at h
      · cases h
        exact frame.block _
      · cases h

theorem block_prints (py : Interpreter) {action : Action}
    (printable : (action.getD "block" .null).digitsOk = true) (default : String) :
    ∃ text, (action.getD "block" (.str default)).toStr py = .ok text := by
  rw [toStr_isOk_iff]
  cases present : Dict.get? "block" action with
  | none => simp [Dict.getD, present, Value.digitsOk]
  | some v => simpa [Dict.getD, present] using printable

namespace Shield
variable (shield : Shield)

def Safe : Prop := ∀ inv ∈ shield.invariants, inv.Safe

variable {shield}

/-- The loop returns if every sweep does, from actions with a property that sweeps keep. -/
theorem projectLoop_isOk_of {P : Action → Prop} {ctx : Context}
    (checkable : ∀ inv ∈ shield.invariants, inv.Checkable)
    (sweep : ∀ action, P action →
      ∃ next corr, projectAll ctx shield.invariants action = .ok (next, corr) ∧ P next)
    (passes : Nat) (s : LoopState) (start : P s.safe) :
    ∃ out, shield.projectLoop ctx passes s = .ok out := by
  induction passes generalizing s with
  | zero => exact ⟨s, rfl⟩
  | succ passes ih =>
    obtain ⟨checks, hchecks⟩ := checkAll_isOk checkable s.safe ctx
    obtain ⟨next, corr, hnext, kept⟩ := sweep s.safe start
    rw [projectLoop, hchecks, ok_bind]
    split
    · exact ⟨s, rfl⟩
    · rw [hnext, ok_bind]
      dsimp only
      split
      · exact ⟨_, rfl⟩
      · exact ih _ kept

theorem projectLoop_isOk (safe : shield.Safe) (ctx : Context) (passes : Nat) (s : LoopState) :
    ∃ out, shield.projectLoop ctx passes s = .ok out := by
  refine projectLoop_isOk_of (P := fun _ => True)
    (fun inv member => (safe inv member).checkable) ?_ passes s trivial
  intro action _
  obtain ⟨⟨next, corr⟩, ok⟩ := projectAll_isOk safe ctx action
  exact ⟨next, corr, ok, trivial⟩

theorem projectLoop_respects {R : Action → Action → Prop} (frame : Frame R)
    (respects : ∀ inv ∈ shield.invariants, inv.Respects R) {ctx : Context} {passes : Nat}
    {s out : LoopState} (h : shield.projectLoop ctx passes s = .ok out) :
    R s.safe out.safe := by
  induction passes generalizing s with
  | zero =>
    cases h
    exact frame.refl _
  | succ passes ih =>
    obtain ⟨checks, _, h⟩ := bind_eq_ok h
    split at h
    · cases h
      exact frame.refl _
    · obtain ⟨⟨next, corr⟩, hnext, h⟩ := bind_eq_ok h
      have sweep : R s.safe next := projectAll_respects frame respects hnext
      dsimp only at h
      split at h
      · cases h
        exact sweep
      · exact frame.trans sweep (ih h)

/-- What a disposition says about the action the loop ended with. -/
theorem certify_cases {py : Interpreter} {action : Action} {ctx : Context} {args : DisposeArgs}
    {text : String} {s : LoopState} {d : ShieldDisposition}
    (h : shield.certify py action ctx args text s = .ok d) :
    d.certificate.safe = (!d.certificate.emitBlocked) ∧
      ((d.certificate.safe = true ∧ d.safeAction = s.safe ∧ isBlocked s.safe = false ∧
          ∀ inv ∈ shield.invariants, Holds s.safe ctx inv) ∨
        (d.certificate.safe = false ∧ isBlocked d.safeAction = true ∧
          (d.safeAction = s.safe ∨ d.safeAction = block s.safe))) := by
  obtain ⟨checks, hchecks, h⟩ := bind_eq_ok h
  obtain ⟨changed, _, h⟩ := bind_eq_ok h
  cases h
  refine ⟨rfl, ?_⟩
  dsimp only
  cases blocked : isBlocked s.safe with
  | true =>
    right
    simp [blocked]
  | false =>
    cases residual : (checks.filter fun c => !c.satisfied) with
    | cons first rest =>
      right
      simp [isBlocked, block, Value.truthy]
    | nil =>
      left
      have allSat : ∀ c ∈ checks, c.satisfied = true := by
        intro c member
        have := List.filter_eq_nil_iff.mp residual c member
        simpa using this
      exact ⟨rfl, rfl, rfl, holds_of_checkAll hchecks allSat⟩

theorem dispose_respects {R : Action → Action → Prop} (frame : Frame R)
    (respects : ∀ inv ∈ shield.invariants, inv.Respects R) {py : Interpreter}
    {action : Action} {context : Option Context} {args : DisposeArgs} {d : ShieldDisposition}
    (h : shield.dispose py action context args = .ok d) : R action d.safeAction := by
  obtain ⟨text, _, h⟩ := bind_eq_ok h
  obtain ⟨s, hs, h⟩ := bind_eq_ok h
  have loop : R action s.safe := projectLoop_respects frame respects hs
  rcases (certify_cases h).2 with ⟨_, same, _⟩ | ⟨_, _, same | blocked⟩
  · exact same ▸ loop
  · exact same ▸ loop
  · exact blocked ▸ frame.trans loop (frame.block _)

/-- The verdict: safe exactly when not blocked, and then the chain holds. -/
theorem dispose_verdict {py : Interpreter} {action : Action} {context : Option Context}
    {args : DisposeArgs} {d : ShieldDisposition}
    (h : shield.dispose py action context args = .ok d) :
    d.certificate.safe = (!d.certificate.emitBlocked) ∧
      ((d.certificate.safe = true ∧ isBlocked d.safeAction = false ∧
          ∀ inv ∈ shield.invariants, Holds d.safeAction (contextOf context) inv) ∨
        (d.certificate.safe = false ∧ isBlocked d.safeAction = true)) := by
  obtain ⟨text, _, h⟩ := bind_eq_ok h
  obtain ⟨s, _, h⟩ := bind_eq_ok h
  obtain ⟨opposite, verdict⟩ := certify_cases h
  refine ⟨opposite, ?_⟩
  rcases verdict with ⟨safe, same, free, holds⟩ | ⟨refused, blocked, _⟩
  · rw [← same] at free holds
    exact Or.inl ⟨safe, free, holds⟩
  · exact Or.inr ⟨refused, blocked⟩

theorem dispose_writes (safe : shield.Safe) {py : Interpreter} {action : Action}
    {context : Option Context} {args : DisposeArgs} {d : ShieldDisposition}
    (h : shield.dispose py action context args = .ok d) :
    Dict.SameOutside writtenKeys action d.safeAction :=
  dispose_respects frame_sameOutside (fun inv member => (safe inv member).writes) h

/-- The block of the final action prints if the proposed one does. -/
theorem blockChanged_isOk (py : Interpreter) {action safe : Action} (kept : BlockKept action safe)
    (printable : (action.getD "block" .null).digitsOk = true) (text : String) :
    ∃ changed, blockChangedToClassical py safe text = .ok changed := by
  have prints : ∃ now, (safe.getD "block" (.str "")).toStr py = .ok now := by
    rw [toStr_isOk_iff]
    rcases kept with same | ⟨s, text⟩
    · rw [Dict.getD, same, ← Dict.getD, ← toStr_isOk_iff py]
      exact block_prints py printable ""
    · simp [Dict.getD, text, Value.digitsOk]
  obtain ⟨now, hnow⟩ := prints
  unfold blockChangedToClassical
  split
  · exact ⟨false, rfl⟩
  · exact ⟨_, by rw [hnow, ok_bind]⟩

/-- Once the loop returns, the verdict does too if the block prints. -/
theorem dispose_isOk_of_loop (checkable : ∀ inv ∈ shield.invariants, inv.Checkable)
    (py : Interpreter) {action : Action} {context : Option Context} (args : DisposeArgs)
    {s : LoopState}
    (loop : shield.projectLoop (contextOf context) shield.maxPasses ⟨action, [], false⟩ = .ok s)
    (kept : BlockKept action s.safe)
    (printable : (action.getD "block" .null).digitsOk = true) :
    ∃ d, shield.dispose py action context args = .ok d := by
  obtain ⟨text, htext⟩ := block_prints py printable "unknown"
  obtain ⟨checks, hchecks⟩ := checkAll_isOk checkable s.safe (contextOf context)
  rw [dispose, blockText, htext, ok_bind, loop, ok_bind, certify, hchecks, ok_bind]
  dsimp only
  have keptSafe : BlockKept action (if (isBlocked s.safe ||
      !((checks.filter fun c => !c.satisfied).map InvariantCheck.invariantId).isEmpty) &&
        !isBlocked s.safe then block s.safe else s.safe) := by
    split
    · exact kept.trans (block_blockKept _)
    · exact kept
  obtain ⟨changed, hchanged⟩ := blockChanged_isOk py keptSafe printable text
  exact ⟨_, by rw [hchanged, ok_bind]⟩

theorem dispose_isOk (safe : shield.Safe) (py : Interpreter) (action : Action)
    (context : Option Context) (args : DisposeArgs)
    (printable : (action.getD "block" .null).digitsOk = true) :
    ∃ d, shield.dispose py action context args = .ok d := by
  obtain ⟨s, hs⟩ :=
    projectLoop_isOk safe (contextOf context) shield.maxPasses ⟨action, [], false⟩
  have kept : BlockKept action s.safe :=
    projectLoop_respects frame_blockKept (fun inv member => (safe inv member).blockKept) hs
  exact dispose_isOk_of_loop (fun inv member => (safe inv member).checkable) py args hs kept
    printable

theorem projectLoop_of_holds {ctx : Context} {s : LoopState}
    (holds : ∀ inv ∈ shield.invariants, Holds s.safe ctx inv) (passes : Nat) :
    shield.projectLoop ctx passes s = .ok s := by
  cases passes with
  | zero => rfl
  | succ passes =>
    obtain ⟨checks, hchecks, allSat⟩ := checkAll_of_holds holds
    rw [projectLoop, hchecks, ok_bind, if_pos (List.all_eq_true.mpr allSat)]

/-- A settled action is certified as it is. -/
theorem certify_of_holds {py : Interpreter} {action : Action} {ctx : Context}
    {args : DisposeArgs} {text : String} {s : LoopState}
    (holds : ∀ inv ∈ shield.invariants, Holds s.safe ctx inv)
    (free : isBlocked s.safe = false) {changed : Bool}
    (compares : blockChangedToClassical py s.safe text = .ok changed) :
    ∃ d, shield.certify py action ctx args text s = .ok d ∧ d.certificate.safe = true ∧
      d.safeAction = s.safe ∧ d.certificate.projected = s.projected := by
  obtain ⟨checks, hchecks, allSat⟩ := checkAll_of_holds holds
  have residual : checks.filter (fun c => !c.satisfied) = [] := by
    rw [List.filter_eq_nil_iff]
    intro c member
    simp [allSat c member]
  rw [certify, hchecks, ok_bind]
  simp only [residual, free, List.map_nil, List.isEmpty_nil, Bool.not_true, Bool.or_false,
    Bool.false_and, Bool.false_eq_true, if_false, compares, ok_bind]
  exact ⟨_, rfl, rfl, rfl, rfl⟩

/-- On a feasible action whose block prints the loop stops at once and certifies it. -/
theorem dispose_of_holds (shield : Shield) (py : Interpreter) (action : Action)
    (context : Option Context) (args : DisposeArgs) (free : isBlocked action = false)
    (holds : ∀ inv ∈ shield.invariants, Holds action (contextOf context) inv)
    (printable : (action.getD "block" .null).digitsOk = true) :
    ∃ d, shield.dispose py action context args = .ok d ∧ d.certificate.safe = true ∧
      d.safeAction = action ∧ d.certificate.projected = false := by
  have loop : shield.projectLoop (contextOf context) shield.maxPasses ⟨action, [], false⟩ =
      .ok ⟨action, [], false⟩ := projectLoop_of_holds holds _
  obtain ⟨text, htext⟩ := block_prints py printable "unknown"
  obtain ⟨changed, compares⟩ := blockChanged_isOk py (BlockKept.refl action) printable text
  obtain ⟨d, certified, sound, same, projected⟩ :=
    certify_of_holds (s := ⟨action, [], false⟩) holds free compares
  refine ⟨d, ?_, sound, same, projected⟩
  rw [dispose, blockText, htext, ok_bind, loop, ok_bind]
  exact certified

end Shield
end HorizonRic
