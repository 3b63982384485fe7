import Mathlib.Algebra.Order.Field.Basic
import Mathlib.Algebra.Order.BigOperators.Group.List
import Mathlib.Data.List.Nodup
import Mathlib.Tactic.Ring
import Mathlib.Tactic.Linarith

/-!
A quantity split over labels, and the reservation of a minimum for one of them: what it
lacks is taken from the other labels pro rata, as far as they reach.
-/
namespace ProRata
variable {ι K : Type*}

section
variable [Field K]

def total (alloc : List (ι × K)) : K := (alloc.map Prod.snd).sum

def scaled (factor : K) (alloc : List (ι × K)) : List (ι × K) :=
  alloc.map fun item => (item.1, item.2 * factor)

@[simp] theorem total_nil : total ([] : List (ι × K)) = 0 := rfl

@[simp] theorem total_cons (item : ι × K) (rest : List (ι × K)) :
    total (item :: rest) = item.2 + total rest := List.sum_cons

theorem total_append (a b : List (ι × K)) : total (a ++ b) = total a + total b := by
  rw [total, List.map_append, List.sum_append, total, total]

theorem total_scaled (factor : K) (alloc : List (ι × K)) :
    total (scaled factor alloc) = total alloc * factor := by
  induction alloc with
  | nil => rw [scaled, List.map_nil, total_nil, zero_mul]
  | cons item rest ih =>
    rw [scaled, List.map_cons, ← scaled, total_cons, total_cons, ih, add_mul]

theorem scaled_scaled (a b : K) (alloc : List (ι × K)) :
    scaled b (scaled a alloc) = scaled (a * b) alloc := by
  rw [scaled, scaled, List.map_map, scaled]
  apply List.map_congr_left
  intro item _
  simp only [Function.comp_apply, mul_assoc]

theorem scaled_one (alloc : List (ι × K)) : scaled 1 alloc = alloc := by
  simp only [scaled, mul_one, List.map_id_fun', id]

theorem keys_scaled (factor : K) (alloc : List (ι × K)) :
    (scaled factor alloc).map Prod.fst = alloc.map Prod.fst := by
  rw [scaled, List.map_map]
  rfl

end

variable [DecidableEq ι]

/-- What the label has; a label that is not listed has nothing. -/
def share [Field K] (label : ι) : List (ι × K) → K
  | [] => 0
  | (other, x) :: rest => if other = label then x else share label rest

def others (label : ι) (alloc : List (ι × K)) : List (ι × K) :=
  alloc.filter fun item => item.1 ≠ label

theorem not_mem_others (label : ι) (alloc : List (ι × K)) :
    label ∉ (others label alloc).map Prod.fst := by
  simp [others]

theorem others_eq_self {label : ι} {alloc : List (ι × K)}
    (absent : label ∉ alloc.map Prod.fst) : others label alloc = alloc := by
  rw [others, List.filter_eq_self]
  intro item member
  rw [decide_eq_true_eq]
  rintro rfl
  exact absent (List.mem_map_of_mem member)

section
variable [Field K]

theorem absent_scaled {label : ι} {alloc : List (ι × K)} (c : K) :
    label ∉ (scaled c (others label alloc)).map Prod.fst := by
  rw [keys_scaled]
  exact not_mem_others label alloc

/-- With every label listed once, the label and the others make up the total. -/
theorem total_split {alloc : List (ι × K)} (nodup : (alloc.map Prod.fst).Nodup) (label : ι) :
    total alloc = share label alloc + total (others label alloc) := by
  induction alloc with
  | nil => rw [share, others, List.filter_nil, total_nil, add_zero]
  | cons item rest ih =>
    rw [List.map_cons, List.nodup_cons] at nodup
    by_cases here : item.1 = label
    · have absent : label ∉ rest.map Prod.fst := here ▸ nodup.1
      have own : others label (item :: rest) = rest := by
        rw [others, List.filter_cons_of_neg (by simpa using here), ← others, others_eq_self absent]
      rw [share, if_pos here, own, total_cons]
    · have other : others label (item :: rest) = item :: others label rest := by
        rw [others, List.filter_cons_of_pos (by simpa using here), ← others]
      rw [share, if_neg here, other, total_cons, total_cons, ih nodup.2]
      ring

theorem share_append_self {label : ι} {rest : List (ι × K)}
    (absent : label ∉ rest.map Prod.fst) (x : K) : share label (rest ++ [(label, x)]) = x := by
  induction rest with
  | nil => rw [List.nil_append, share, if_pos rfl]
  | cons item rest ih =>
    rw [List.map_cons, List.mem_cons, not_or] at absent
    rw [List.cons_append, share, if_neg (Ne.symm absent.1), ih absent.2]

end

theorem others_append_self {label : ι} {rest : List (ι × K)}
    (absent : label ∉ rest.map Prod.fst) (x : K) :
    others label (rest ++ [(label, x)]) = rest := by
  rw [others, List.filter_append, ← others, others_eq_self absent]
  simp

section
variable [Field K] [LinearOrder K] [IsStrictOrderedRing K]

omit [DecidableEq ι] in
theorem total_nonneg {alloc : List (ι × K)} (nonneg : ∀ item ∈ alloc, 0 ≤ item.2) :
    0 ≤ total alloc := by
  apply List.sum_nonneg
  intro x member
  obtain ⟨item, among, rfl⟩ := List.mem_map.mp member
  exact nonneg item among

omit [IsStrictOrderedRing K] in
theorem share_nonneg {label : ι} {alloc : List (ι × K)}
    (nonneg : ∀ item ∈ alloc, 0 ≤ item.2) : 0 ≤ share label alloc := by
  induction alloc with
  | nil => exact le_refl 0
  | cons item rest ih =>
    rw [share]
    split
    · exact nonneg item List.mem_cons_self
    · exact ih fun other member => nonneg other (List.mem_cons_of_mem _ member)

/-- What the others keep of each share when the label is to have `floor`. -/
def factor (label : ι) (floor : K) (alloc : List (ι × K)) : K :=
  let pool := total (others label alloc)
  let deficit := floor - share label alloc
  if pool < deficit then 0 else (pool - deficit) / pool

/-- The label is raised to `floor`, or to everything there is. -/
def reserve (label : ι) (floor : K) (alloc : List (ι × K)) : List (ι × K) :=
  if floor ≤ share label alloc then alloc
  else scaled (factor label floor alloc) (others label alloc) ++ [(label, min floor (total alloc))]

variable {label : ι} {floor : K} {alloc : List (ι × K)}

omit [IsStrictOrderedRing K] in
theorem reserve_of_le (enough : floor ≤ share label alloc) :
    reserve label floor alloc = alloc := if_pos enough

omit [IsStrictOrderedRing K] in
theorem reserve_of_lt (short : share label alloc < floor) :
    reserve label floor alloc =
      scaled (factor label floor alloc) (others label alloc) ++
        [(label, min floor (total alloc))] := if_neg (not_le.mpr short)

section
variable (nonneg : ∀ item ∈ alloc, 0 ≤ item.2)
include nonneg

theorem pool_nonneg (label : ι) : 0 ≤ total (others label alloc) := by
  apply total_nonneg
  intro item member
  exact nonneg item (List.mem_of_mem_filter member)

/-- The factor is a proportion. -/
theorem factor_mem (short : share label alloc < floor) :
    0 ≤ factor label floor alloc ∧ factor label floor alloc ≤ 1 := by
  have pool := pool_nonneg nonneg label
  simp only [factor]
  split
  · exact ⟨le_refl 0, zero_le_one⟩
  · rename_i reaches
    have positive : 0 < total (others label alloc) := by linarith
    exact ⟨div_nonneg (by linarith) pool, (div_le_one positive).mpr (by linarith)⟩

theorem nonneg_reserve : ∀ item ∈ reserve label floor alloc, 0 ≤ item.2 := by
  rcases le_or_gt floor (share label alloc) with enough | short
  · rw [reserve_of_le enough]
    exact nonneg
  · obtain ⟨low, _⟩ := factor_mem nonneg short
    have least : 0 ≤ min floor (total alloc) :=
      le_min ((share_nonneg nonneg).trans short.le) (total_nonneg nonneg)
    rw [reserve_of_lt short]
    intro item member
    rcases List.mem_append.mp member with kept | own
    · obtain ⟨old, among, rfl⟩ := List.mem_map.mp kept
      exact mul_nonneg (nonneg old (List.mem_of_mem_filter among)) low
    · rw [List.mem_singleton.mp own]
      exact least

/-- One factor for all the others. -/
theorem others_reserve : ∃ c, 0 ≤ c ∧ c ≤ 1 ∧
    others label (reserve label floor alloc) = scaled c (others label alloc) := by
  rcases le_or_gt floor (share label alloc) with enough | short
  · exact ⟨1, zero_le_one, le_refl 1, by rw [reserve_of_le enough, scaled_one]⟩
  · obtain ⟨low, high⟩ := factor_mem nonneg short
    refine ⟨_, low, high, ?_⟩
    rw [reserve_of_lt short, others_append_self (absent_scaled _)]

end

omit [IsStrictOrderedRing K] in
theorem share_reserve (label : ι) (reaches : floor ≤ total alloc) :
    share label (reserve label floor alloc) = max (share label alloc) floor := by
  rcases le_or_gt floor (share label alloc) with enough | short
  · rw [reserve_of_le enough, max_eq_left enough]
  · rw [reserve_of_lt short, share_append_self (absent_scaled _), min_eq_left reaches,
      max_eq_right short.le]

variable (nodup : (alloc.map Prod.fst).Nodup)
include nodup

theorem pool_lt_iff (label : ι) :
    total (others label alloc) < floor - share label alloc ↔ total alloc < floor := by
  rw [total_split nodup label]
  constructor <;> intro h <;> linarith

omit [IsStrictOrderedRing K] in
theorem nodup_reserve : ((reserve label floor alloc).map Prod.fst).Nodup := by
  rcases le_or_gt floor (share label alloc) with enough | short
  · rw [reserve_of_le enough]
    exact nodup
  · rw [reserve_of_lt short, List.map_append, keys_scaled, List.map_singleton,
      List.nodup_append]
    refine ⟨nodup.sublist (List.filter_sublist.map _), List.nodup_singleton _, ?_⟩
    intro a member b last same
    rw [same, List.mem_singleton.mp last] at member
    exact not_mem_others label alloc member

/-- Nothing is lost, and nothing is made up. -/
theorem total_reserve (label : ι) (floor : K) : total (reserve label floor alloc) = total alloc := by
  rcases le_or_gt floor (share label alloc) with enough | short
  · rw [reserve_of_le enough]
  · have split := total_split nodup label
    rw [reserve_of_lt short, total_append, total_scaled, total_cons, total_nil, add_zero, factor]
    split_ifs with unreachable
    · rw [mul_zero, zero_add, min_eq_right ((pool_lt_iff nodup label).mp unreachable).le]
    · have positive : 0 < total (others label alloc) := by linarith
      have reaches : floor ≤ total alloc := by linarith
      rw [min_eq_left reaches, mul_div_cancel₀ _ positive.ne', split]
      ring

variable (nonneg : ∀ item ∈ alloc, 0 ≤ item.2)
include nonneg

theorem share_le_total (label : ι) : share label alloc ≤ total alloc := by
  rw [total_split nodup label]
  linarith [pool_nonneg nonneg label]

theorem share_reserve_short (label : ι) (beyond : total alloc < floor) :
    share label (reserve label floor alloc) = total alloc := by
  have short := (share_le_total nodup nonneg label).trans_lt beyond
  rw [reserve_of_lt short, share_append_self (absent_scaled _), min_eq_right beyond.le]

theorem reserve_reserve :
    reserve label floor (reserve label floor alloc) = reserve label floor alloc := by
  rcases le_or_gt floor (total alloc) with reaches | beyond
  · apply reserve_of_le
    rw [share_reserve label reaches]
    exact le_max_right _ _
  · have short := (share_le_total nodup nonneg label).trans_lt beyond
    have still := share_reserve_short nodup nonneg label beyond
    have zero : factor label floor alloc = 0 := if_pos ((pool_lt_iff nodup label).mpr beyond)
    have again : factor label floor (reserve label floor alloc) = 0 := by
      apply if_pos
      rw [pool_lt_iff (nodup_reserve nodup), total_reserve nodup label floor]
      exact beyond
    rw [reserve_of_lt (still.trans_lt beyond),
      total_reserve nodup label floor, again, reserve_of_lt short, zero,
      others_append_self (absent_scaled _), scaled_scaled, zero_mul]

end
end ProRata
