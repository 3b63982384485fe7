import HorizonRic.Shield.Soundness

/-!
Lawful-intercept enforcement of the default shields. A certified action leaves
no protected UE and anchors protected slices only in allowed jurisdictions; the
loop writes nothing but the affected UEs of what the constraint reads, and only
by removing the protected ones.
-/
namespace HorizonRic
open Py

section
variable (py : Interpreter)

theorem strSet_map_str (texts : List String) :
    strSet py (texts.map .str) = .ok texts.toFinset := by
  induction texts with
  | nil => rfl
  | cons text rest ih =>
    simp only [List.map_cons, strSet, Value.toStr, ih, ok_bind, List.toFinset_cons]

theorem asStrSet_sorted (s : Finset String) :
    asStrSet py (.list ((sortedStrings s).map .str)) = .ok s := by
  rw [asStrSet, strSet_map_str, sortedStrings, Finset.sort_toFinset]

theorem inStrSet_true {value : Value} {allowed : Finset String}
    (h : inStrSet value allowed = .ok true) : ∃ s, value = .str s ∧ s ∈ allowed := by
  cases value with
  | str s =>
    refine ⟨s, rfl, ?_⟩
    cases member : decide (s ∈ allowed) with
    | true => exact of_decide_eq_true member
    | false =>
      rw [inStrSet, member] at h
      cases h
  | _ => cases h

namespace LIConstraint
variable (li : LIConstraint)

theorem mem_foldl_union (rules : List LIJurisdictionRule) (start : Finset String) (x : String) :
    x ∈ rules.foldl (fun union rule => union ∪ rule.protectedUeIds) start ↔
      x ∈ start ∨ ∃ rule ∈ rules, x ∈ rule.protectedUeIds := by
  induction rules generalizing start with
  | nil => simp
  | cons rule rest ih =>
    rw [List.foldl_cons, ih]
    simp [or_assoc]

theorem mem_protectedUnion (x : String) :
    x ∈ li.protectedUnion ↔ ∃ rule ∈ li.rules, x ∈ rule.protectedUeIds := by
  simp [protectedUnion, mem_foldl_union]

/-- The gate every rule passes: no protected UE, and a jurisdiction for its slices. -/
def RulePassed (ues slices : Finset String) (targetJx : Value) (rule : LIJurisdictionRule) :
    Prop :=
  Disjoint ues rule.protectedUeIds ∧
    ((slices ∩ rule.protectedSliceIds).Nonempty →
      ∃ jurisdiction, targetJx = .str jurisdiction ∧ jurisdiction ∈ rule.allowedJurisdictions)

theorem ueViolations_nil {ues : Finset String} {rule : LIJurisdictionRule}
    (h : ueViolations py ues rule = []) : Disjoint ues rule.protectedUeIds := by
  by_contra overlap
  rw [Finset.disjoint_iff_inter_eq_empty, ← Ne, ← Finset.nonempty_iff_ne_empty] at overlap
  simp only [ueViolations, if_pos overlap] at h
  cases h

theorem jxViolations_nil {slices : Finset String} {targetJx : Value} {rule : LIJurisdictionRule}
    (h : jxViolations py slices targetJx rule = .ok [])
    (hit : (slices ∩ rule.protectedSliceIds).Nonempty) :
    ∃ jurisdiction, targetJx = .str jurisdiction ∧ jurisdiction ∈ rule.allowedJurisdictions := by
  simp only [jxViolations, if_pos hit] at h
  obtain ⟨allowed, hallowed, h⟩ := bind_eq_ok h
  cases allowed with
  | true => exact inStrSet_true hallowed
  | false =>
    obtain ⟨text, _, h⟩ := bind_eq_ok h
    cases h

theorem ruleViolations_nil {ues slices : Finset String} {targetJx : Value}
    {rules : List LIJurisdictionRule}
    (h : ruleViolations py ues slices targetJx rules = .ok []) :
    ∀ rule ∈ rules, RulePassed ues slices targetJx rule := by
  induction rules with
  | nil => simp
  | cons rule rest ih =>
    obtain ⟨jx, hjx, h⟩ := bind_eq_ok h
    obtain ⟨more, hmore, h⟩ := bind_eq_ok h
    have empty := Except.ok.inj h
    simp only [List.append_eq_nil_iff] at empty
    obtain ⟨⟨ueEmpty, rfl⟩, rfl⟩ := empty
    intro other member
    rcases List.mem_cons.mp member with rfl | later
    · exact ⟨ueViolations_nil py ueEmpty, jxViolations_nil py hjx⟩
    · exact ih hmore other later

/-- What the constraint reads in an action it finds no fault with. -/
structure Passed (action : Action) : Prop where
  notFailClosed : ¬(li.failClosed = true ∧ li.rules = [])
  rules : ∃ ues slices, asStrSet py (action.getD "affected_ue_ids" .null) = .ok ues ∧
    asStrSet py (action.getD "affected_slice_ids" .null) = .ok slices ∧
    ∀ rule ∈ li.rules, RulePassed ues slices (action.getD "target_jurisdiction" .null) rule

theorem passed_of_holds {action : Action} {ctx : Context}
    (h : Holds action ctx (LawfulIntercept.invariant py li)) : li.Passed py action := by
  obtain ⟨c, hc, sat⟩ := h
  obtain ⟨violations, hviolations, hc⟩ := bind_eq_ok hc
  cases hc
  have none : violations = [] := List.isEmpty_iff.mp sat
  subst none
  simp only [checkFeasibility] at hviolations
  split at hviolations
  · cases hviolations
  · rename_i armed
    obtain ⟨ues, hues, hviolations⟩ := bind_eq_ok hviolations
    obtain ⟨slices, hslices, hviolations⟩ := bind_eq_ok hviolations
    refine ⟨?_, ues, slices, hues, hslices, ruleViolations_nil py hviolations⟩
    rintro ⟨closed, empty⟩
    apply armed
    simp [closed, empty]

/-- The affected UEs are left, or replaced by those of them that are not protected. -/
def UesStripped (before after : Action) : Prop :=
  Dict.get? "affected_ue_ids" after = Dict.get? "affected_ue_ids" before ∨
    ∃ ues, asStrSet py (before.getD "affected_ue_ids" .null) = .ok ues ∧
      Dict.get? "affected_ue_ids" after =
        some (.list ((sortedStrings (ues \ li.protectedUnion)).map .str))

theorem uesStripped_of_same {before after : Action}
    (writes : Dict.SameOutside radioKeys before after) : li.UesStripped py before after :=
  Or.inl (writes _ (by decide))

/-- Stripping twice removes no more than stripping once. -/
theorem UesStripped.trans {a b c : Action} (hab : li.UesStripped py a b)
    (hbc : li.UesStripped py b c) : li.UesStripped py a c := by
  rcases hbc with same | ⟨ues, hues, rewritten⟩
  · rcases hab with same' | ⟨ues, hues, rewritten⟩
    · exact Or.inl (same.trans same')
    · exact Or.inr ⟨ues, hues, same.trans rewritten⟩
  · rcases hab with same' | ⟨ues', hues', rewritten'⟩
    · refine Or.inr ⟨ues, ?_, rewritten⟩
      rw [← hues, Dict.getD, Dict.getD, same']
    · refine Or.inr ⟨ues', hues', ?_⟩
      rw [Dict.getD, rewritten', Option.getD_some, asStrSet_sorted] at hues
      cases hues
      rw [rewritten, Finset.sdiff_idem]

theorem frame_uesStripped : Frame (li.UesStripped py) where
  refl _ := Or.inl rfl
  trans := UesStripped.trans py li
  block a := li.uesStripped_of_same py ((Dict.SameOutside.refl _ a).set (by decide) _)

theorem gate_uesStripped : (LawfulIntercept.invariant py li).Respects (li.UesStripped py) := by
  intro action ctx next corr h
  rcases li.project_cases py ctx h with rfl | ⟨ues, hues, rfl⟩
  · exact Or.inl rfl
  · exact Or.inr ⟨ues, hues, Dict.get?_set_self _ _ _⟩

theorem chain_uesStripped {shield : Shield} (chain : DefaultChain py (some li) shield) :
    ∀ inv ∈ shield.invariants, inv.Respects (li.UesStripped py) := by
  intro inv member
  rcases chain.members inv member with gate | radio
  · rw [List.mem_singleton.mp gate]
    exact li.gate_uesStripped py
  · intro action ctx next corr h
    exact li.uesStripped_of_same py (radio.writes _ _ _ _ h)

end LIConstraint
end

/-- Enforcement for both factories: what a certified action satisfies, which keys stay,
    and what a rewritten set of affected UEs holds. -/
structure InterceptEnforced (py : Interpreter) (li : LIConstraint) (action : Action)
    (d : ShieldDisposition) : Prop where
  certified : d.certificate.safe = true →
    ∃ ues slices, asStrSet py (d.safeAction.getD "affected_ue_ids" .null) = .ok ues ∧
      asStrSet py (d.safeAction.getD "affected_slice_ids" .null) = .ok slices ∧
      ∀ rule ∈ li.rules, Disjoint ues rule.protectedUeIds ∧
        ((slices ∩ rule.protectedSliceIds).Nonempty →
          ∃ jurisdiction, d.safeAction.getD "target_jurisdiction" .null = .str jurisdiction ∧
            jurisdiction ∈ rule.allowedJurisdictions)
  failClosed : li.failClosed = true → li.rules = [] → d.certificate.safe = false
  slicesKept : Dict.get? "affected_slice_ids" d.safeAction = Dict.get? "affected_slice_ids" action
  targetKept : Dict.get? "target_jurisdiction" d.safeAction =
    Dict.get? "target_jurisdiction" action
  uesRewritten :
    Dict.get? "affected_ue_ids" d.safeAction ≠ Dict.get? "affected_ue_ids" action →
      ∃ old kept, asStrSet py (action.getD "affected_ue_ids" .null) = .ok old ∧
        (∀ ue, ue ∈ kept ↔ ue ∈ old ∧ ∀ rule ∈ li.rules, ue ∉ rule.protectedUeIds) ∧
        Dict.get? "affected_ue_ids" d.safeAction =
          some (.list ((sortedStrings kept).map .str)) ∧
        asStrSet py (d.safeAction.getD "affected_ue_ids" .null) = .ok kept

theorem enforced_of_chain {py : Interpreter} {li : LIConstraint} {shield : Shield}
    (chain : DefaultChain py (some li) shield) {action : Action} {context : Option Context}
    {args : DisposeArgs} {d : ShieldDisposition}
    (h : shield.dispose py action context args = .ok d) : InterceptEnforced py li action d := by
  have passed : d.certificate.safe = true → li.Passed py d.safeAction := by
    intro safe
    rcases (Shield.dispose_verdict h).2 with ⟨_, _, holds⟩ | ⟨notSafe, _⟩
    · have gate := chain.gated (LawfulIntercept.invariant py li) List.mem_cons_self
      exact li.passed_of_holds py (holds _ gate)
    · rw [safe] at notSafe
      cases notSafe
  have writes := Shield.dispose_writes chain.safe h
  have stripped : li.UesStripped py action d.safeAction :=
    Shield.dispose_respects (li.frame_uesStripped py) (li.chain_uesStripped py chain) h
  refine ⟨fun safe => (passed safe).rules, ?_, writes _ (by decide), writes _ (by decide), ?_⟩
  · intro closed empty
    cases safe : d.certificate.safe with
    | false => rfl
    | true => exact absurd ⟨closed, empty⟩ (passed safe).notFailClosed
  · intro changed
    rcases stripped with same | ⟨old, hold, rewritten⟩
    · exact absurd same changed
    · refine ⟨old, old \ li.protectedUnion, hold, ?_, rewritten, ?_⟩
      · intro ue
        simp [li.mem_protectedUnion]
      · rw [Dict.getD, rewritten, Option.getD_some, asStrSet_sorted]

/-- Lawful-intercept enforcement of both default shields. -/
theorem dispose_intercept_enforced (py : Interpreter) (li : LIConstraint) (action : Action)
    (context : Option Context) (args : DisposeArgs) :
    (∀ p : TerrestrialParams, p.liConstraint = some li → ∀ d,
      (defaultTerrestrialShield py p).dispose py action context args = .ok d →
        InterceptEnforced py li action d) ∧
    (∀ p : NtnParams, p.liConstraint = some li → ∀ d,
      (defaultNtnShield py p).dispose py action context args = .ok d →
        InterceptEnforced py li action d) := by
  constructor
  · intro p gate d h
    have chain := terrestrial_chain py p
    rw [gate] at chain
    exact enforced_of_chain chain h
  · intro p gate d h
    have chain := ntn_chain py p
    rw [gate] at chain
    exact enforced_of_chain chain h

def wiretapRule : LIJurisdictionRule := ⟨"warrant-1", {"imsi-1"}, {"slice-7"}, {"SG"}⟩

def wiretap : LIConstraint := ⟨[wiretapRule], true, none, Or.inl rfl⟩

def wiretapParams : TerrestrialParams :=
  { testbedParams (.fin 6000000000) with liConstraint := some wiretap }

def wiretapAction : Action :=
  ("affected_ue_ids", .list [.str "imsi-1", .str "imsi-2"]) :: carrierAction

theorem dispose_intercept_enforced_wiretap :
    ∃ d, (defaultTerrestrialShield plainInterpreter wiretapParams).dispose plainInterpreter
        wiretapAction none plainArgs = .ok d ∧
      InterceptEnforced plainInterpreter wiretap wiretapAction d := by
  obtain ⟨d, hd⟩ := Shield.dispose_isOk (terrestrial_chain plainInterpreter wiretapParams).safe
    plainInterpreter wiretapAction none plainArgs (by decide)
  exact ⟨d, hd, (dispose_intercept_enforced plainInterpreter wiretap wiretapAction none
    plainArgs).1 wiretapParams rfl d hd⟩

end HorizonRic
