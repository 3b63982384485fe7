import HorizonRic.Library.ProRata
import HorizonRic.Shield.Totality

/-!
The protected slice floor reserves PRBs pro rata: on an allocation of finite shares its
projection is `ProRata.reserve`. No projection of a chain changes the total, so a floor
beyond it is refused by every Shield that holds it.
-/
namespace Py

theorem Number.inf_sub_fin (s : Bool) (q : ℚ) : Number.inf s - .fin q = .inf s := rfl

theorem Number.sub_nan (x : Number) : x - .nan = .nan := by cases x <;> rfl

end Py

namespace HorizonRic
open Py ProtectedSliceFloor

abbrev Shares := List (String × ℚ)

def finite (alloc : Shares) : Dict Number := alloc.map fun item => (item.1, .fin item.2)

def allocationOf (alloc : Shares) : Value :=
  .dict (alloc.map fun item => (item.1, .float (.fin item.2)))

/-- The shares an action allocates: one a slice, finite and none negative. -/
structure Allocated (py : Interpreter) (action : Action) (alloc : Shares) : Prop where
  entries : ∃ entries, Dict.get? allocKey action = some (.dict entries) ∧
    floatItems py entries = .ok (finite alloc)
  nonempty : alloc ≠ []
  nodup : (alloc.map Prod.fst).Nodup
  nonneg : ∀ item ∈ alloc, 0 ≤ item.2

section
variable (py : Interpreter)

theorem floatItems_floats (alloc : Dict Number) :
    floatItems py (alloc.map fun item => (item.1, .float item.2)) = .ok alloc := by
  induction alloc with
  | nil => rfl
  | cons item rest ih =>
    rw [List.map_cons, floatItems, ih]
    rfl

theorem floatItems_allocationOf (alloc : Shares) :
    items py (allocationOf alloc) = .ok (finite alloc) := by
  have floats : (alloc.map fun item => (item.1, Value.float (.fin item.2))) =
      (finite alloc).map fun item => (item.1, .float item.2) := by
    rw [finite, List.map_map]
    rfl
  rw [allocationOf, items, floats, floatItems_floats]

theorem toFloat_of_floatItems {entries : List (String × Value)} {alloc : Dict Number}
    (read : floatItems py entries = .ok alloc) (key : String) :
    (Dict.getD entries key zero).toFloat py = .ok (Dict.getD alloc key (.fin 0)) := by
  induction entries generalizing alloc with
  | nil =>
    cases read
    rfl
  | cons item rest ih =>
    obtain ⟨k, v⟩ := item
    obtain ⟨x, hx, read⟩ := bind_eq_ok read
    obtain ⟨more, hmore, read⟩ := bind_eq_ok read
    cases read
    have later := ih hmore
    rw [Dict.getD, Dict.getD] at later ⊢
    rw [Dict.get?_cons, Dict.get?_cons]
    split
    · exact hx
    · exact later

theorem floatItems_ne_nil {entries : List (String × Value)} {alloc : Dict Number}
    (read : floatItems py entries = .ok alloc) (nonempty : alloc ≠ []) : entries ≠ [] := by
  rintro rfl
  cases read
  exact nonempty rfl

theorem getD_finite (alloc : Shares) (key : String) :
    Dict.getD (finite alloc) key (.fin 0) = .fin (ProRata.share key alloc) := by
  induction alloc with
  | nil => rfl
  | cons item rest ih =>
    rw [Dict.getD] at ih ⊢
    rw [finite, List.map_cons, ← finite, Dict.get?_cons, ProRata.share]
    split
    · rfl
    · exact ih

theorem pool_finite (alloc : Shares) : pool (finite alloc) = .fin (ProRata.total alloc) := by
  have sums : ∀ start : ℚ, (finite alloc).foldl (fun total item => total + item.2) (.fin start) =
      .fin (start + ProRata.total alloc) := by
    induction alloc with
    | nil =>
      intro start
      rw [ProRata.total_nil, add_zero]
      rfl
    | cons item rest ih =>
      intro start
      rw [finite, List.map_cons, ← finite, List.foldl_cons, Number.fin_add, ih,
        ProRata.total_cons, add_assoc]
  rw [pool, sums, zero_add]

theorem others_finite (slice : ProtectedSliceFloor) (alloc : Shares) :
    slice.others (finite alloc) = finite (ProRata.others slice.sliceId alloc) := by
  rw [ProtectedSliceFloor.others, finite, List.filter_map, ProRata.others, finite]
  congr 1
  apply List.filter_congr
  intro item _
  by_cases own : item.1 = slice.sliceId <;> simp [own]

theorem reallocated_finite (slice : ProtectedSliceFloor) (others : Shares) (share : ℚ) :
    slice.reallocated (finite others) (.fin share) =
      allocationOf (others ++ [(slice.sliceId, share)]) := by
  rw [reallocated, finite, List.map_map, allocationOf, List.map_append]
  rfl

variable {py} {action : Action} {alloc : Shares}

theorem Allocated.allocation (given : Allocated py action alloc) :
    ∃ entries, ProtectedSliceFloor.allocation action = .dict entries ∧
      (Value.dict entries).truthy = true ∧ floatItems py entries = .ok (finite alloc) := by
  obtain ⟨entries, stored, read⟩ := given.entries
  have nonempty : entries ≠ [] := by
    apply floatItems_ne_nil py read
    rw [finite, Ne, List.map_eq_nil_iff]
    exact given.nonempty
  refine ⟨entries, ?_, ?_, read⟩
  · rw [ProtectedSliceFloor.allocation, Dict.getD, stored]
    rfl
  · simpa [Value.truthy] using nonempty

theorem allocated_set (action : Action) {after : Shares} (nonempty : after ≠ [])
    (nodup : (after.map Prod.fst).Nodup) (nonneg : ∀ item ∈ after, 0 ≤ item.2) :
    Allocated py (action.set allocKey (allocationOf after)) after where
  entries := ⟨_, Dict.get?_set_self _ _ _, floatItems_allocationOf py after⟩
  nonempty := nonempty
  nodup := nodup
  nonneg := nonneg

/-- The margin the check reports. -/
theorem evaluate_allocated (slice : ProtectedSliceFloor) (given : Allocated py action alloc)
    (ctx : Context) : ∃ c, (slice.invariant py).evaluate action ctx = .ok c ∧
      c.satisfied = Number.le (.fin 0) (.fin (ProRata.share slice.sliceId alloc) - slice.floor) := by
  obtain ⟨entries, stored, truthy, read⟩ := given.allocation
  have share : slice.share py action = .ok (.fin (ProRata.share slice.sliceId alloc)) := by
    rw [ProtectedSliceFloor.share, stored, if_pos truthy]
    simp only [rawShare, toFloat_of_floatItems py read, getD_finite]
  simp only [invariant, evaluate, stored, truthy, if_true, share, ok_bind]
  exact ⟨_, rfl, rfl⟩

theorem holds_allocated_iff {sliceId : String} {floor : ℚ} (given : Allocated py action alloc)
    (ctx : Context) :
    Holds action ctx (invariant py ⟨sliceId, .fin floor⟩) ↔ floor ≤ ProRata.share sliceId alloc := by
  obtain ⟨c, evaluated, verdict⟩ := evaluate_allocated ⟨sliceId, .fin floor⟩ given ctx
  simp only [Number.fin_sub, Number.le_fin, sub_nonneg] at verdict
  constructor
  · rintro ⟨c', evaluated', satisfied⟩
    rw [evaluated] at evaluated'
    cases evaluated'
    rw [verdict] at satisfied
    exact of_decide_eq_true satisfied
  · intro enough
    exact ⟨c, evaluated, by rw [verdict, decide_eq_true enough]⟩

theorem zeroed_finite (alloc : Shares) :
    ((finite alloc).map fun item => (item.1, Number.fin 0)) = finite (ProRata.scaled 0 alloc) := by
  rw [finite, List.map_map, ProRata.scaled, finite, List.map_map]
  simp [Function.comp_def]

theorem scaled_finite (alloc : Shares) (c : ℚ) :
    ((finite alloc).map fun item => (item.1, item.2 * .fin c)) =
      finite (ProRata.scaled c alloc) := by
  rw [finite, List.map_map, ProRata.scaled, finite, List.map_map]
  rfl

/-- The projection leaves a compliant action, and writes `ProRata.reserve` into any other. -/
theorem project_allocated (sliceId : String) (floor : ℚ) (given : Allocated py action alloc)
    (ctx : Context) : ∃ corr, (invariant py ⟨sliceId, .fin floor⟩).project action ctx =
        .ok (if floor ≤ ProRata.share sliceId alloc then action
          else action.set allocKey (allocationOf (ProRata.reserve sliceId floor alloc)), corr) ∧
      (floor ≤ ProRata.share sliceId alloc → corr = []) := by
  obtain ⟨entries, stored, truthy, read⟩ := given.allocation
  simp only [invariant, project, stored, truthy, if_true, items, read, ok_bind, restore,
    getD_finite, Number.fin_sub, Number.le_fin, sub_nonpos, decide_eq_true_eq, others_finite,
    pool_finite, Number.lt_fin, zeroed_finite]
  split
  · exact ⟨[], rfl, fun _ => rfl⟩
  · rename_i short
    have lack := not_le.mp short
    have split := ProRata.total_split given.nodup sliceId
    rw [ProRata.reserve_of_lt lack, ProRata.factor]
    split_ifs with unreachable
    · have beyond := (ProRata.pool_lt_iff given.nodup sliceId).mp unreachable
      rw [Number.fin_add, reallocated_finite, min_eq_right beyond.le, split]
      exact ⟨_, rfl, fun enough => absurd enough short⟩
    · have positive : 0 < ProRata.total (ProRata.others sliceId alloc) := by linarith
      have reaches : floor ≤ ProRata.total alloc := by linarith
      rw [scale, Number.lt_fin, if_pos (decide_eq_true positive), Number.fin_sub, Number.div,
        if_neg positive.ne']
      simp only [ok_bind, scaled_finite, reallocated_finite, min_eq_left reaches]
      exact ⟨_, rfl, fun enough => absurd enough short⟩

theorem Allocated.rewritten (given : Allocated py action alloc) {sliceId : String} {floor : ℚ}
    (short : ProRata.share sliceId alloc < floor) :
    Allocated py (action.set allocKey (allocationOf (ProRata.reserve sliceId floor alloc)))
      (ProRata.reserve sliceId floor alloc) := by
  refine allocated_set action ?_ (ProRata.nodup_reserve given.nodup)
    (ProRata.nonneg_reserve given.nonneg)
  rw [ProRata.reserve_of_lt short]
  exact List.append_ne_nil_of_right_ne_nil _ (List.cons_ne_nil _ _)

theorem Allocated.reserved (given : Allocated py action alloc) (sliceId : String) (floor : ℚ) :
    Allocated py (if floor ≤ ProRata.share sliceId alloc then action
        else action.set allocKey (allocationOf (ProRata.reserve sliceId floor alloc)))
      (ProRata.reserve sliceId floor alloc) := by
  split
  · rename_i enough
    rw [ProRata.reserve_of_le enough]
    exact given
  · rename_i short
    exact given.rewritten (not_le.mp short)

/-- An unbounded floor takes all there is. -/
theorem project_unbounded {sliceId : String} (given : Allocated py action alloc) (ctx : Context) :
    ∃ corr, (invariant py ⟨sliceId, .inf false⟩).project action ctx =
      .ok (action.set allocKey
        (allocationOf (ProRata.reserve sliceId (ProRata.total alloc + 1) alloc)), corr) := by
  obtain ⟨entries, stored, truthy, read⟩ := given.allocation
  have beyond : ProRata.total alloc < ProRata.total alloc + 1 := lt_add_one _
  have lack := (ProRata.share_le_total given.nodup given.nonneg sliceId).trans_lt beyond
  have unreachable := (ProRata.pool_lt_iff given.nodup sliceId).mpr beyond
  have split := ProRata.total_split given.nodup sliceId
  simp only [invariant, project, stored, truthy, if_true, items, read, ok_bind, restore,
    getD_finite, others_finite, pool_finite, zeroed_finite, Number.inf_sub_fin]
  rw [ProRata.reserve_of_lt lack, ProRata.factor]
  simp only [unreachable, if_true, min_eq_right beyond.le]
  rw [if_neg (by decide), if_pos (by rfl), Number.fin_add, reallocated_finite, split]
  exact ⟨_, rfl⟩

theorem project_negative {sliceId : String} (given : Allocated py action alloc) (ctx : Context) :
    (invariant py ⟨sliceId, .inf true⟩).project action ctx = .ok (action, []) := by
  obtain ⟨entries, stored, truthy, read⟩ := given.allocation
  simp only [invariant, project, stored, truthy, if_true, items, read, ok_bind, restore,
    getD_finite, Number.inf_sub_fin]
  rw [if_pos (by decide)]

/-- Whatever the shares become, they still sum to the total. -/
def TotalKept (py : Interpreter) (before after : Action) : Prop :=
  ∀ alloc, Allocated py before alloc →
    ∃ alloc', Allocated py after alloc' ∧ ProRata.total alloc' = ProRata.total alloc

theorem TotalKept.of_same {before after : Action}
    (same : Dict.get? allocKey after = Dict.get? allocKey before) : TotalKept py before after := by
  intro alloc given
  exact ⟨alloc, ⟨same ▸ given.entries, given.nonempty, given.nodup, given.nonneg⟩, rfl⟩

theorem frame_totalKept : Frame (TotalKept py) where
  refl _ := .of_same rfl
  trans hab hbc alloc given := by
    obtain ⟨middle, given', same⟩ := hab alloc given
    obtain ⟨last, given'', same'⟩ := hbc middle given'
    exact ⟨last, given'', same'.trans same⟩
  block action := .of_same (Dict.get?_set_ne action _ (by decide))

theorem reserve_totalKept (slice : ProtectedSliceFloor) (number : slice.floor ≠ .nan) :
    (invariant py slice).Respects (TotalKept py) := by
  intro action ctx next corr h alloc given
  obtain ⟨sliceId, floor⟩ := slice
  cases floor with
  | nan => exact absurd rfl number
  | inf negative =>
    cases negative with
    | false =>
      obtain ⟨_, projected⟩ := project_unbounded given ctx
      rw [projected] at h
      cases h
      have lack := (ProRata.share_le_total given.nodup given.nonneg sliceId).trans_lt
        (lt_add_one (ProRata.total alloc))
      exact ⟨_, given.rewritten lack, ProRata.total_reserve given.nodup sliceId _⟩
    | true =>
      rw [project_negative given ctx] at h
      cases h
      exact ⟨alloc, given, rfl⟩
  | fin floor =>
    obtain ⟨_, projected, _⟩ := project_allocated sliceId floor given ctx
    rw [projected] at h
    cases h
    exact ⟨_, given.reserved sliceId floor, ProRata.total_reserve given.nodup sliceId _⟩

/-- Only the floors write the allocation. -/
theorem InvariantClass.respects_of_floor {R : Action → Action → Prop} (k : InvariantClass)
    (same : ∀ {before after}, Dict.get? allocKey after = Dict.get? allocKey before → R before after)
    (floors : ∀ slice, k = .protectedSliceFloor slice →
      (ProtectedSliceFloor.invariant py slice).Respects R) :
    (k.invariant py).Respects R := by
  cases floor : k.isFloor with
  | false =>
    intro action ctx next corr h
    exact same ((k.safe py floor).writes _ _ _ _ h allocKey (by decide))
  | true =>
    cases k with
    | protectedSliceFloor slice => exact floors slice rfl
    | _ => cases floor

theorem InvariantClass.totalKept (k : InvariantClass)
    (number : ∀ slice, k = .protectedSliceFloor slice → slice.floor ≠ .nan) :
    (k.invariant py).Respects (TotalKept py) :=
  k.respects_of_floor .of_same fun slice floor => reserve_totalKept slice (number slice floor)

/-! A floor that is NaN makes shares NaN, and is never met itself. -/

def Allocates (action : Action) : Prop := (ProtectedSliceFloor.allocation action).truthy = true

def AllocatesKept (before after : Action) : Prop := Allocates before → Allocates after

theorem AllocatesKept.of_same {before after : Action}
    (same : Dict.get? allocKey after = Dict.get? allocKey before) : AllocatesKept before after := by
  intro allocates
  rw [Allocates, ProtectedSliceFloor.allocation, getD_of_get? same]
  exact allocates

theorem frame_allocatesKept : Frame AllocatesKept where
  refl _ := id
  trans hab hbc allocates := hbc (hab allocates)
  block action := .of_same (Dict.get?_set_ne action _ (by decide))

theorem allocates_reallocated (slice : ProtectedSliceFloor) (action : Action)
    (others : Dict Number) (share : Number) :
    Allocates (action.set allocKey (slice.reallocated others share)) := by
  rw [Allocates, ProtectedSliceFloor.allocation, Dict.getD_set_self, reallocated]
  simp [Value.truthy]

theorem restore_allocates (slice : ProtectedSliceFloor) :
    (invariant py slice).Respects AllocatesKept := by
  intro action ctx next corr h allocates
  simp only [invariant, project] at h
  rw [if_pos (show (ProtectedSliceFloor.allocation action).truthy = true from allocates)] at h
  obtain ⟨alloc, _, h⟩ := bind_eq_ok h
  simp only [restore] at h
  split at h
  · cases h
    exact allocates
  · split at h
    · cases h
      exact allocates_reallocated slice action _ _
    · obtain ⟨scale, _, h⟩ := bind_eq_ok h
      cases h
      exact allocates_reallocated slice action _ _

theorem InvariantClass.allocatesKept (k : InvariantClass) :
    (k.invariant py).Respects AllocatesKept :=
  k.respects_of_floor .of_same fun slice _ => restore_allocates slice

theorem nanFloor_fails {slice : ProtectedSliceFloor} (nan : slice.floor = .nan)
    (allocates : Allocates action) (ctx : Context) : ¬ Holds action ctx (invariant py slice) := by
  rintro ⟨c, evaluated, satisfied⟩
  simp only [invariant, evaluate] at evaluated
  rw [if_pos (show (ProtectedSliceFloor.allocation action).truthy = true from allocates)]
    at evaluated
  obtain ⟨share, _, evaluated⟩ := bind_eq_ok evaluated
  cases evaluated
  simp only [nan, Number.sub_nan, Number.le_nan_right] at satisfied
  cases satisfied

/-- No chain that holds the floor certifies an allocation below it. -/
theorem floor_refused {sliceId : String} {floor : ℚ} (given : Allocated py action alloc)
    (beyond : ProRata.total alloc < floor) {chain : List InvariantClass}
    (member : .protectedSliceFloor ⟨sliceId, .fin floor⟩ ∈ chain) {maxPasses : Nat}
    {context : Option Context} {args : DisposeArgs} {d : ShieldDisposition}
    (h : Shield.dispose ⟨invariantsOf py chain, maxPasses⟩ py action context args = .ok d) :
    d.certificate.emitBlocked = true ∧ isBlocked d.safeAction = true := by
  obtain ⟨opposite, ⟨_, _, holds⟩ | ⟨refused, blocked⟩⟩ := Shield.dispose_verdict h
  · exfalso
    have held := fun k (among : k ∈ chain) =>
      holds (k.invariant py) (List.mem_map_of_mem among)
    by_cases nanFloor : ∃ slice, InvariantClass.protectedSliceFloor slice ∈ chain ∧
        slice.floor = .nan
    · obtain ⟨slice, among, nan⟩ := nanFloor
      obtain ⟨entries, stored, truthy, _⟩ := given.allocation
      have allocates : Allocates d.safeAction := by
        refine Shield.dispose_respects frame_allocatesKept
          (invariantsOf_respects py chain fun k => k.allocatesKept) h ?_
        rw [Allocates, stored]
        exact truthy
      exact nanFloor_fails nan allocates _ (held _ among)
    · have kept : TotalKept py action d.safeAction := by
        refine Shield.dispose_respects frame_totalKept ?_ h
        intro inv among
        obtain ⟨k, inside, rfl⟩ := List.mem_map.mp among
        refine k.totalKept ?_
        rintro slice rfl nan
        exact nanFloor ⟨slice, inside, nan⟩
      obtain ⟨alloc', given', same⟩ := kept alloc given
      have enough := (holds_allocated_iff given' _).mp (held _ member)
      have most := ProRata.share_le_total given'.nodup given'.nonneg sliceId
      linarith
  · rw [refused] at opposite
    exact ⟨by simpa using opposite.symm, blocked⟩

theorem Allocated.readable (given : Allocated py action alloc) : malformed action = false := by
  obtain ⟨entries, stored, _⟩ := given.allocation
  rw [malformed, stored]

/-- What the projection to a floor makes of an allocation. -/
structure Projected (py : Interpreter) (sliceId : String) (floor : ℚ) (ctx : Context)
    (action next : Action) (alloc after : Shares) (corr : List ConstraintViolation) : Prop where
  allocated : Allocated py next after
  elsewhere : Dict.SameOutside [allocKey] action next
  total : ProRata.total after = ProRata.total alloc
  others : ∃ c, 0 ≤ c ∧ c ≤ 1 ∧ ProRata.others sliceId after =
    (ProRata.others sliceId alloc).map fun item => (item.1, item.2 * c)
  reached : floor ≤ ProRata.total alloc →
    ProRata.share sliceId after = max (ProRata.share sliceId alloc) floor ∧
      Holds next ctx (invariant py ⟨sliceId, .fin floor⟩)
  beyond : ProRata.total alloc < floor →
    ProRata.share sliceId after = ProRata.total alloc ∧
      ¬ Holds next ctx (invariant py ⟨sliceId, .fin floor⟩)
  refused : ProRata.total alloc < floor → ∀ (chain : List InvariantClass) (maxPasses : Nat)
    (context : Option Context) (args : DisposeArgs),
    .protectedSliceFloor ⟨sliceId, .fin floor⟩ ∈ chain →
    (∀ d, Shield.dispose ⟨invariantsOf py chain, maxPasses⟩ py action context args = .ok d →
      d.certificate.emitBlocked = true ∧ isBlocked d.safeAction = true) ∧
    ((action.getD "block" .null).digitsOk = true →
      ∃ d, Shield.dispose ⟨invariantsOf py chain, maxPasses⟩ py action context args = .ok d)
  compliant : floor ≤ ProRata.share sliceId alloc → next = action ∧ corr = []
  again : ∃ more, (invariant py ⟨sliceId, .fin floor⟩).project next ctx = .ok (next, more)

end

/-- The projection to a protected slice floor conserves the allocation, reaches the floor
    wherever the total does, fails closed beyond it, and is idempotent. -/
theorem floor_projected (py : Interpreter) (sliceId : String) (floor : ℚ) {action : Action}
    {alloc : Shares} (given : Allocated py action alloc) (ctx : Context) :
    ∃ next corr after,
      (invariant py ⟨sliceId, .fin floor⟩).project action ctx = .ok (next, corr) ∧
        Projected py sliceId floor ctx action next alloc after corr := by
  obtain ⟨corr, projected, silent⟩ := project_allocated sliceId floor given ctx
  have allocated := given.reserved sliceId floor
  refine ⟨_, corr, ProRata.reserve sliceId floor alloc, projected, ?_⟩
  exact {
    allocated := allocated
    elsewhere := by
      split
      · exact .refl _ _
      · exact (Dict.SameOutside.refl _ _).set (List.mem_singleton_self _) _
    total := ProRata.total_reserve given.nodup sliceId floor
    others := ProRata.others_reserve given.nonneg
    reached := by
      intro reaches
      have share := ProRata.share_reserve sliceId reaches
      refine ⟨share, (holds_allocated_iff allocated ctx).mpr ?_⟩
      rw [share]
      exact le_max_right _ _
    beyond := by
      intro beyond
      have share := ProRata.share_reserve_short given.nodup given.nonneg sliceId beyond
      refine ⟨share, fun holds => ?_⟩
      have enough := (holds_allocated_iff allocated ctx).mp holds
      rw [share] at enough
      exact absurd beyond (not_lt.mpr enough)
    refused := by
      intro beyond chain maxPasses context args member
      refine ⟨fun d hd => floor_refused given beyond member hd, fun printable => ?_⟩
      have readable : ¬ SweepEscapes py chain maxPasses action (contextOf context) := by
        rintro ⟨_, bad, _⟩
        rw [given.readable] at bad
        cases bad
      exact dispose_returns readable printable args
    compliant := by
      intro enough
      exact ⟨if_pos enough, silent enough⟩
    again := by
      obtain ⟨more, again, _⟩ := project_allocated sliceId floor allocated ctx
      rw [again, ProRata.reserve_reserve given.nodup given.nonneg]
      refine ⟨more, ?_⟩
      congr 2
      split
      · rfl
      · rename_i short
        have written : ¬ floor ≤ ProRata.share sliceId alloc := by
          intro enough
          rw [ProRata.reserve_of_le enough] at short
          exact short enough
        rw [if_neg written]
        exact Dict.set_of_get? (Dict.get?_set_self _ _ _) }

/-- 2 % of the PRBs for the slice, of the 100 % there are. -/
def starvedAllocation : Shares :=
  [("safety_critical", 1 / 50), ("embb", 17 / 25), ("best_effort", 3 / 10)]

theorem starved_allocated :
    Allocated plainInterpreter [(allocKey, allocationOf starvedAllocation)] starvedAllocation where
  entries := ⟨_, rfl, floatItems_allocationOf plainInterpreter starvedAllocation⟩
  nonempty := List.cons_ne_nil _ _
  nodup := by decide
  nonneg := by norm_num [starvedAllocation]

theorem floor_projected_starved :
    Allocated plainInterpreter [(allocKey, allocationOf starvedAllocation)] starvedAllocation ∧
      ∃ next corr after, (invariant plainInterpreter slices).project
          [(allocKey, allocationOf starvedAllocation)] [] = .ok (next, corr) ∧
        Projected plainInterpreter "safety_critical" (1 / 5) []
          [(allocKey, allocationOf starvedAllocation)] next starvedAllocation after corr :=
  ⟨starved_allocated,
    floor_projected plainInterpreter "safety_critical" (1 / 5) starved_allocated []⟩

end HorizonRic
