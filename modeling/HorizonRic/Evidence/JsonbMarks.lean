import HorizonRic.Evidence.JsonbTransport

/-!
What a JSONB column loses. The text of a float from 10 ^ 16 on, or of a negative zero,
has a mark that the text of what comes back in its place has not; nothing else changes
the marks of a record.
-/
namespace HorizonRic.Evidence

open Py Json

/-! Marked characters. -/

section
variable (py : Interpreter)

/-- The characters of the compact text that no natural number has. -/
def marks (v : Value) : Nat := (print py compact v).countP marked

def keyMarks (k : String) : Nat := (quote k).countP marked

theorem unmarked_separators :
    compact.itemSep.countP marked = 0 ∧ compact.keySep.countP marked = 0 := by decide

theorem marks_elements (xs : List Value) :
    (printElements py compact xs).countP marked = (xs.map (marks py)).sum := by
  induction xs with
  | nil => rfl
  | cons x xs ih =>
    rw [List.map_cons, List.sum_cons, ← ih]
    cases xs with
    | nil => rfl
    | cons y ys =>
      rw [printElements, List.countP_append, List.countP_append, unmarked_separators.1]
      · rfl
      · exact List.cons_ne_nil y ys

theorem marks_members (items : Dict Value) :
    (printMembers py compact items).countP marked =
      (items.map fun item => keyMarks item.1 + marks py item.2).sum := by
  induction items with
  | nil => rfl
  | cons item items ih =>
    obtain ⟨k, x⟩ := item
    rw [List.map_cons, List.sum_cons, ← ih]
    cases items with
    | nil =>
      have text : printMembers py compact [(k, x)] =
          quote k ++ compact.keySep ++ print py compact x := rfl
      rw [text, List.countP_append, List.countP_append, unmarked_separators.2]
      rfl
    | cons y ys =>
      rw [printMembers, List.countP_append, List.countP_append, List.countP_append,
        List.countP_append, unmarked_separators.1, unmarked_separators.2]
      · rfl
      · exact List.cons_ne_nil y ys

theorem marks_list (xs : List Value) : marks py (.list xs) = (xs.map (marks py)).sum := by
  have ends : ([']'] : List Char).countP marked = 0 := by decide
  rw [marks, print, List.countP_cons_of_neg (by decide), List.countP_append, ends, marks_elements]
  omega

theorem marks_dict (items : Dict Value) :
    marks py (.dict items) = (items.map fun item => keyMarks item.1 + marks py item.2).sum := by
  have ends : (['\x7d'] : List Char).countP marked = 0 := by decide
  rw [marks, print, List.countP_cons_of_neg (by decide), List.countP_append, ends, marks_members]
  omega

theorem marks_sortKeys (v : Value) : marks py (sortKeys v) = marks py v := by
  induction v using Value.nested_induction with
  | list xs ih =>
    rw [sortKeys_list, marks_list, marks_list, List.map_map]
    exact congrArg List.sum (List.map_congr_left ih)
  | dict items ih =>
    have perm := (sortItems_perm items).map fun item => keyMarks item.1 + marks py item.2
    rw [sortKeys_dict, marks_dict, marks_dict, perm.sum_eq, List.map_map]
    refine congrArg List.sum (List.map_congr_left fun item member => ?_)
    rw [Function.comp_apply, ih item member]
  | _ => rfl

theorem marks_congr {v w : Value} (same : sortKeys v = sortKeys w) : marks py v = marks py w := by
  rw [← marks_sortKeys, same, marks_sortKeys]

/-! Negative zeros. -/

/-- Signs add marks to a text, unless no zero is negative. -/
def SignsShow (text signed : List Char) (plain : Bool) : Prop :=
  text.countP marked ≤ signed.countP marked ∧
    (signed.countP marked = text.countP marked → plain = true)

variable {py}

theorem signs_elements {xs : List Value} (each : ∀ x ∈ xs, ∀ negative,
      SignsShow (print py compact x) (printSigned py negative x) (unsigned negative x))
    (negative : List String → Bool) (i : Nat) :
    SignsShow (printElements py compact xs) (printSignedElements py negative i xs)
      (unsignedElements negative i xs) := by
  induction xs generalizing i with
  | nil => exact ⟨le_rfl, fun _ => rfl⟩
  | cons x xs ih =>
    obtain ⟨first, firstPlain⟩ := each x List.mem_cons_self (inside negative (toString i))
    cases xs with
    | nil =>
      refine ⟨first, fun same => ?_⟩
      rw [unsignedElements, firstPlain same]
      rfl
    | cons y ys =>
      obtain ⟨rest, restPlain⟩ := ih (fun x later => each x (List.mem_cons_of_mem _ later)) (i + 1)
      have text : printElements py compact (x :: y :: ys) = print py compact x ++ compact.itemSep ++
          printElements py compact (y :: ys) := rfl
      have signed : printSignedElements py negative i (x :: y :: ys) =
          printSigned py (inside negative (toString i)) x ++ compact.itemSep ++
            printSignedElements py negative (i + 1) (y :: ys) := rfl
      rw [SignsShow, text, signed]
      simp only [List.countP_append]
      refine ⟨by omega, fun same => ?_⟩
      rw [unsignedElements, firstPlain (by omega), restPlain (by omega)]
      rfl

theorem signs_members {items : Dict Value} (each : ∀ item ∈ items, ∀ negative,
      SignsShow (print py compact item.2) (printSigned py negative item.2)
        (unsigned negative item.2))
    (negative : List String → Bool) :
    SignsShow (printMembers py compact items) (printSignedMembers py negative items)
      (unsignedMembers negative items) := by
  induction items with
  | nil => exact ⟨le_rfl, fun _ => rfl⟩
  | cons item items ih =>
    obtain ⟨k, x⟩ := item
    obtain ⟨first, firstPlain⟩ := each (k, x) List.mem_cons_self (inside negative k)
    dsimp only at first firstPlain
    cases items with
    | nil =>
      simp only [SignsShow, printMembers, printSignedMembers, List.countP_append]
      refine ⟨by omega, fun same => ?_⟩
      rw [unsignedMembers, firstPlain (by omega)]
      rfl
    | cons y ys =>
      obtain ⟨rest, restPlain⟩ := ih fun item later => each item (List.mem_cons_of_mem _ later)
      have text : printMembers py compact ((k, x) :: y :: ys) = quote k ++ compact.keySep ++
          print py compact x ++ compact.itemSep ++ printMembers py compact (y :: ys) := rfl
      have signed : printSignedMembers py negative ((k, x) :: y :: ys) = quote k ++
          compact.keySep ++ printSigned py (inside negative k) x ++ compact.itemSep ++
            printSignedMembers py negative (y :: ys) := rfl
      rw [SignsShow, text, signed]
      simp only [List.countP_append]
      refine ⟨by omega, fun same => ?_⟩
      rw [unsignedMembers, firstPlain (by omega), restPlain (by omega)]
      rfl

theorem signs_show (zero : py.floatRepr (.fin 0) = "0.0") (v : Value)
    (negative : List String → Bool) :
    SignsShow (print py compact v) (printSigned py negative v) (unsigned negative v) := by
  induction v using Value.nested_induction generalizing negative with
  | float x =>
    rw [SignsShow, printSigned, unsigned, print]
    by_cases minus : x = .fin 0 ∧ negative [] = true
    · obtain ⟨rfl, isNegative⟩ := minus
      have text : (floatText py (.fin 0)).countP marked = 0 := by
        rw [floatText, zero]
        decide
      rw [if_pos ⟨rfl, isNegative⟩, text]
      exact ⟨Nat.zero_le _, fun same => absurd same (by decide)⟩
    · rw [if_neg minus]
      refine ⟨le_rfl, fun _ => ?_⟩
      simpa [imp_iff_not_or] using minus
  | list xs ih =>
    obtain ⟨grows, plain⟩ := signs_elements ih negative 0
    simp only [SignsShow, print, printSigned, unsigned, List.countP_cons, List.countP_append]
    exact ⟨by omega, fun same => plain (by omega)⟩
  | dict items ih =>
    obtain ⟨grows, plain⟩ := signs_members ih negative
    simp only [SignsShow, print, printSigned, unsigned, List.countP_cons, List.countP_append]
    exact ⟨by omega, fun same => plain (by omega)⟩
  | _ => exact ⟨le_rfl, fun _ => rfl⟩

/-- Text without a negative zero is the plain text. -/
theorem printSigned_unsigned (v : Value) (negative : List String → Bool)
    (plain : unsigned negative v = true) : printSigned py negative v = print py compact v := by
  induction v using Value.nested_induction generalizing negative with
  | float x =>
    rw [printSigned, if_neg, print]
    intro minus
    simp [unsigned, minus] at plain
  | list xs ih =>
    have elements : ∀ i, unsignedElements negative i xs = true →
        printSignedElements py negative i xs = printElements py compact xs := by
      clear plain
      induction xs with
      | nil => exact fun _ _ => rfl
      | cons x xs more =>
        intro i plain
        rw [unsignedElements, Bool.and_eq_true] at plain
        have first := ih x List.mem_cons_self _ plain.1
        have rest := more (fun y later => ih y (List.mem_cons_of_mem _ later)) (i + 1) plain.2
        cases xs with
        | nil => exact first
        | cons y ys =>
          change _ ++ _ ++ _ = print py compact x ++ compact.itemSep ++ printElements py compact (y :: ys)
          rw [first, rest]
    rw [printSigned, print, elements 0 plain]
  | dict items ih =>
    have members : unsignedMembers negative items = true →
        printSignedMembers py negative items = printMembers py compact items := by
      clear plain
      induction items with
      | nil => exact fun _ => rfl
      | cons item items more =>
        intro plain
        obtain ⟨k, x⟩ := item
        rw [unsignedMembers, Bool.and_eq_true] at plain
        have first : printSigned py (inside negative k) x = print py compact x :=
          ih (k, x) List.mem_cons_self _ plain.1
        have rest := more (fun y later => ih y (List.mem_cons_of_mem _ later)) plain.2
        cases items with
        | nil =>
          change _ ++ _ ++ _ = quote k ++ compact.keySep ++ print py compact x
          rw [first]
        | cons y ys =>
          change _ ++ _ ++ _ ++ _ ++ _ = quote k ++ compact.keySep ++ print py compact x ++
            compact.itemSep ++ printMembers py compact (y :: ys)
          rw [first, rest]
    rw [printSigned, print, members plain]
  | _ => rfl

end

/-! Free-form mappings. -/

theorem belowExponentElements_iff (xs : List Value) :
    belowExponentElements xs = true ↔ ∀ x ∈ xs, belowExponent x = true := by
  induction xs with
  | nil => simp [belowExponentElements]
  | cons x xs ih => simp [belowExponentElements, ih]

theorem belowExponentMembers_iff (items : Dict Value) :
    belowExponentMembers items = true ↔ ∀ item ∈ items, belowExponent item.2 = true := by
  induction items with
  | nil => simp [belowExponentMembers]
  | cons item items ih => simp [belowExponentMembers, ih]

/-- What `w`, written again, keeps of the `v` that was written: no marks are added, and if all
    are kept then `plain` holds. -/
structure Lighter (py : Interpreter) (v w : Value) (plain : Prop) : Prop where
  le : marks py w ≤ marks py v
  kept : marks py w = marks py v → plain

section
variable {py : Interpreter}

theorem lighter_sum {α β : Type} {xs : List α} {ys : List β} {before : α → Nat}
    {after : β → Nat} {plain : α → Prop}
    (all : List.Forall₂ (fun x y => after y ≤ before x ∧ (after y = before x → plain x)) xs ys) :
    (ys.map after).sum ≤ (xs.map before).sum ∧
      ((ys.map after).sum = (xs.map before).sum → ∀ x ∈ xs, plain x) := by
  induction all with
  | nil => exact ⟨le_rfl, fun _ => List.forall_mem_nil _⟩
  | cons related _ ih =>
    obtain ⟨le, kept⟩ := related
    obtain ⟨les, kepts⟩ := ih
    simp only [List.map_cons, List.sum_cons, List.forall_mem_cons]
    exact ⟨by omega, fun same => ⟨kept (by omega), kepts (by omega)⟩⟩

theorem lighter_list {α : Type} {write : α → Value} {plain : α → Prop} {xs : List α}
    {ws : List Value} (all : List.Forall₂ (fun x w => Lighter py (write x) w (plain x)) xs ws) :
    Lighter py (.list (xs.map write)) (.list ws) (∀ x ∈ xs, plain x) := by
  have sums := lighter_sum (all.imp fun _ _ lighter => And.intro lighter.le lighter.kept)
  constructor
  · rw [marks_list, marks_list, List.map_map]
    exact sums.1
  · rw [marks_list, marks_list, List.map_map]
    exact sums.2

end

section
variable (column : JsonbColumn) (env : Platform)

/-- What comes back of a free-form value, written again. -/
def againAny (v : Value) : Value := jsonAny (jsonbTransport env column (jsonAny v))

theorem againAny_list (xs : List Value) :
    againAny column env (.list xs) = .list (xs.map (againAny column env)) := by
  rw [againAny, jsonAny_list, (transport_jsonb env column).list, jsonAny_list, List.map_map,
    List.map_map]
  rfl

/-- A mapping comes back with its items, in the order of the column. -/
theorem againAny_dict (items : Dict Value) : ∃ again, againAny column env (.dict items) = .dict again ∧
    byKey again = byKey (items.map fun item => (item.1, againAny column env item.2)) := by
  obtain ⟨stored, form, order⟩ :=
    (transport_jsonb env column).dict (items.map fun item => (item.1, jsonAny item.2))
  refine ⟨stored.map fun item => (item.1, jsonAny item.2), ?_, ?_⟩
  · rw [againAny, jsonAny_dict, form, jsonAny_dict]
  · rw [byKey_map, order, ← byKey_map, List.map_map, List.map_map]
    rfl

variable {env} {round : ℚ → Number} (documented : DocumentedFloats env round)
include documented

/-- Small floats come back as they are; from 10 ^ 16 on a float comes back lighter. -/
theorem againAny_back (v : Value) (readable : Readable env.py (jsonAny v)) :
    (belowExponent v = true → sortKeys (againAny column env v) = sortKeys (jsonAny v)) ∧
      Lighter env.py (jsonAny v) (againAny column env v) (belowExponent v = true) := by
  induction v using Value.nested_induction with
  | float x =>
    cases x with
    | fin q =>
      have again : againAny column env (.float (.fin q)) = jsonAny (jsonbFloat env.py (.fin q)) :=
        congrArg jsonAny (readableFloat_eq documented readable)
      rcases jsonbFloat_cases documented readable with ⟨small, same⟩ | ⟨large, n, same, _, fewer⟩
      · rw [again, same]
        exact ⟨fun _ => rfl, ⟨le_rfl, fun _ => decide_eq_true small⟩⟩
      · rw [again, same]
        have lighter : marks env.py (.int n) < marks env.py (.float (.fin q)) := fewer
        refine ⟨fun small => absurd (of_decide_eq_true small) (not_lt.mpr large), ?_, fun kept => ?_⟩
        · exact Nat.le_of_lt lighter
        · exact absurd kept (Nat.ne_of_lt lighter)
    | nan => exact ⟨fun _ => rfl, ⟨le_rfl, fun _ => rfl⟩⟩
    | inf s => exact ⟨fun _ => rfl, ⟨le_rfl, fun _ => rfl⟩⟩
  | list xs ih =>
    rw [jsonAny_list, readable_list, List.forall_mem_map] at readable
    rw [againAny_list, jsonAny_list, sortKeys_list, sortKeys_list, belowExponent,
      belowExponentElements_iff, List.map_map, List.map_map]
    constructor
    · intro small
      refine congrArg Value.list (List.map_congr_left fun x member => ?_)
      exact (ih x member (readable x member)).1 (small x member)
    · have all : List.Forall₂ (fun x x' => Lighter env.py (jsonAny x) (againAny column env x')
          (belowExponent x = true)) xs xs :=
        List.forall₂_same.mpr fun x member => (ih x member (readable x member)).2
      exact lighter_list (List.forall₂_map_right_iff.mpr all)
  | dict items ih =>
    rw [jsonAny_dict, readable_dict] at readable
    have each : ∀ item ∈ items, Readable env.py (jsonAny item.2) := fun item member =>
      readable.2 _ (List.mem_map_of_mem (f := fun item => (item.1, jsonAny item.2)) member)
    obtain ⟨again, form, order⟩ := againAny_dict column env items
    have perm : again.Perm (items.map fun item => (item.1, againAny column env item.2)) :=
      (byKey_perm again).symm.trans (order ▸ byKey_perm _)
    rw [form, jsonAny_dict, belowExponent, belowExponentMembers_iff]
    constructor
    · intro small
      rw [sortKeys_dict, sortKeys_dict, sortItems, sortItems, byKey_map, order, ← byKey_map,
        List.map_map, List.map_map]
      refine congrArg (fun items => Value.dict (byKey items))
        (List.map_congr_left fun item member => ?_)
      exact congrArg (Prod.mk item.1) ((ih item member (each item member)).1 (small item member))
    · have sums := lighter_sum (List.forall₂_same.mpr fun item member =>
        have lighter := (ih item member (each item member)).2
        And.intro (Nat.add_le_add_left lighter.le (keyMarks item.1))
          fun same => lighter.kept (Nat.add_left_cancel same))
      have total := (perm.map fun item => keyMarks item.1 + marks env.py item.2).sum_eq
      rw [List.map_map] at total
      constructor
      · rw [marks_dict, marks_dict, List.map_map, total]
        exact sums.1
      · rw [marks_dict, marks_dict, List.map_map, total]
        exact sums.2
  | _ => exact ⟨fun _ => rfl, ⟨le_rfl, fun _ => rfl⟩⟩

theorem keeps_of_small {d : Dict Value} (readable : Readable env.py (jsonAny (.dict d)))
    (small : belowExponent (.dict d) = true) : Keeps (jsonbTransport env column) d :=
  (againAny_back column documented (.dict d) readable).1 small

theorem freeForm_lighter {d d' : Dict Value} (readable : Readable env.py (jsonAny (.dict d)))
    (back : jsonbTransport env column (jsonAny (.dict d)) = .dict d') :
    Lighter env.py (jsonAny (.dict d)) (jsonAny (.dict d')) (belowExponent (.dict d) = true) := by
  have lighter := (againAny_back column documented (.dict d) readable).2
  rwa [againAny, back] at lighter

end

/-! Records. -/

theorem readable_member {py : Interpreter} {items : Dict Value} (key : String)
    (readable : Readable py (.dict items)) {v : Value} (found : Dict.get? key items = some v) :
    Readable py v :=
  ((readable_dict py items).mp readable).2 _ (Dict.mem_of_get? found)

theorem readable_written {py : Interpreter} {write : α → Value} {xs : List α}
    (readable : Readable py (.list (xs.map write))) : ∀ x ∈ xs, Readable py (write x) :=
  List.forall_mem_map.mp ((readable_list py _).mp readable)

theorem readable_action {py : Interpreter} {a : RejectedAlternative}
    (readable : Readable py a.dump) : Readable py (jsonAny (.dict a.action)) :=
  readable_member "action" readable rfl

theorem readable_freeForm {py : Interpreter} {r : DecisionRecord}
    (readable : Readable py r.modelDump) : ∀ d ∈ r.freeForm, Readable py (jsonAny (.dict d)) := by
  intro d member
  rcases List.mem_cons.mp member with rfl | later
  · exact readable_member "chosen_action" readable rfl
  · rcases List.mem_append.mp later with action | breach
    · obtain ⟨a, among, rfl⟩ := List.mem_map.mp action
      have alternatives := readable_member "rejected_alternatives" readable rfl
      exact readable_action (readable_written alternatives a among)
    · have breaches := readable_member "sla_breach_context" readable rfl
      cases context : r.slaBreachContext with
      | none =>
        rw [context] at breach
        cases breach
      | some ds =>
        rw [context] at breach breaches
        exact readable_written breaches d breach

section
variable {env : Platform} (column : JsonbColumn) {round : ℚ → Number}
  (documented : DocumentedFloats env round)
include documented

theorem alternative_lighter {a a' : RejectedAlternative} (readable : Readable env.py a.dump)
    (back : AlternativeBack (jsonbTransport env column) a a') :
    Lighter env.py a.dump a'.dump (belowExponent (.dict a.action) = true) := by
  have action := freeForm_lighter column documented (readable_action readable) back.action
  have outcome := marks_congr env.py back.outcome
  have text : marks env.py a'.dump + marks env.py (jsonAny (.dict a.action)) =
      marks env.py a.dump + marks env.py (jsonAny (.dict a'.action)) := by
    simp only [RejectedAlternative.dump, marks_dict, RejectedAlternative.items, List.map_cons,
      List.map_nil, List.sum_cons, back.rank, back.reason, back.human, back.seed, outcome]
    omega
  have le := action.le
  exact ⟨by omega, fun same => action.kept (by omega)⟩

theorem breaches_lighter {ds ds' : Option (List (Dict Value))}
    (readable : ∀ d ∈ ds.getD [], Readable env.py (jsonAny (.dict d)))
    (back : BreachesBack (jsonbTransport env column) ds ds') :
    Lighter env.py (jsonOption jsonDicts ds) (jsonOption jsonDicts ds')
      (∀ d ∈ ds.getD [], belowExponent (.dict d) = true) := by
  cases ds with
  | none =>
    cases ds' with
    | none => exact ⟨le_rfl, fun _ => List.forall_mem_nil _⟩
    | some _ => exact back.elim
  | some ds =>
    cases ds' with
    | none => exact back.elim
    | some ds' =>
      exact lighter_list (List.forall₂_map_right_iff.mpr (forall₂_of_mem back fun d member _ =>
        freeForm_lighter column documented (readable d member)))

/-- What comes back for a record has no mark more, and none less only if the floats in its
    free-form mappings are small. -/
theorem record_lighter {r r' : DecisionRecord} (readable : Readable env.py r.modelDump)
    (back : RecordBack (jsonbTransport env column) r r') :
    Lighter env.py r.modelDump r'.modelDump (∀ d ∈ r.freeForm, belowExponent (.dict d) = true) := by
  have freeForm := readable_freeForm readable
  have chosen := freeForm_lighter column documented (freeForm _ List.mem_cons_self)
    back.chosenAction
  have given := readable_member "rejected_alternatives" readable rfl
  have each := forall₂_of_mem back.rejectedAlternatives fun a member _ =>
    alternative_lighter column documented (readable_written given a member)
  have alternatives := lighter_list (List.forall₂_map_right_iff.mpr each)
  have breaches := breaches_lighter column documented
    (fun d member => freeForm d (List.mem_cons_of_mem _ (List.mem_append_right _ member)))
    back.slaBreachContext
  have actual30s := marks_congr env.py back.actualOutcome30s
  have actual1min := marks_congr env.py back.actualOutcome1min
  have actual5min := marks_congr env.py back.actualOutcome5min
  have outcome := marks_congr env.py back.predictedOutcomeChosen
  have corrections := marks_congr env.py back.constraintCorrections
  have text : marks env.py r'.modelDump + marks env.py (jsonAny (.dict r.chosenAction)) +
      marks env.py (.list (r.rejectedAlternatives.map RejectedAlternative.dump)) +
      marks env.py (jsonOption jsonDicts r.slaBreachContext) =
      marks env.py r.modelDump + marks env.py (jsonAny (.dict r'.chosenAction)) +
      marks env.py (.list (r'.rejectedAlternatives.map RejectedAlternative.dump)) +
      marks env.py (jsonOption jsonDicts r'.slaBreachContext) := by
    simp only [DecisionRecord.modelDump, marks_dict, DecisionRecord.items, List.map_cons,
      List.map_nil, List.sum_cons, back.decisionId, back.timestamp, back.rappInstanceId,
      back.tenantId, back.stateHash, back.stateBlobUri, outcome, corrections, back.modelVersions,
      back.randomSeed, actual30s, actual1min, actual5min, back.operatorOverride,
      back.operatorOverrideReason]
    omega
  have chosenLe := chosen.le
  have alternativesLe := alternatives.le
  have breachesLe := breaches.le
  refine ⟨by omega, fun same d member => ?_⟩
  rcases List.mem_cons.mp member with rfl | later
  · exact chosen.kept (by omega)
  · rcases List.mem_append.mp later with action | breach
    · obtain ⟨a, among, rfl⟩ := List.mem_map.mp action
      exact alternatives.kept (by omega) a among
    · exact breaches.kept (by omega) d breach

end
end HorizonRic.Evidence
