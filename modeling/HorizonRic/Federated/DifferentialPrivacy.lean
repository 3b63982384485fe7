import HorizonRic.Federated.RobustAggregation
import HorizonRic.Python.Raises
import Mathlib.Algebra.Order.BigOperators.Group.List
import Mathlib.Algebra.Order.Ring.WithTop

/-!
`federated/dp.py` in exact arithmetic: clipping, the accountant, and the two Gaussian
releases. The noise of a release is the vector that `rng.normal` returns.
-/
namespace HorizonRic.DifferentialPrivacy
open Py RobustAggregation

variable {K : Type*} [Field K] [LinearOrder K]

section
variable (sqrt : K → K)

def l2Clip (update : List K) (clipNorm : K) : Except PyErr (List K) :=
  if clipNorm ≤ 0 then .error .valueError
  else
    let length := norm sqrt update
    if length ≤ clipNorm ∨ length = 0 then .ok update
    else .ok (update.map (· * (clipNorm / length)))

end

/-! The accountant. -/

/-- A mapping from orders to costs. -/
abbrev Costs (K : Type*) := K → Option K

def gaussianRdp (orders : List K) (noiseMultiplier : K) : Except PyErr (Costs K) :=
  if noiseMultiplier ≤ 0 then .error .valueError
  else
    let z2 := noiseMultiplier * noiseMultiplier
    .ok fun a => if a ∈ orders then some (a / (2 * z2)) else none

structure RDPAccountant (K : Type*) where
  orders : List K
  rdp : Costs K
  steps : ℤ

namespace RDPAccountant

/-- A new accountant has no costs. -/
def start (orders : List K) : RDPAccountant K :=
  { orders, rdp := fun a => if a ∈ orders then some 0 else none, steps := 0 }

/-- `self._rdp[a] += count * per[a]` for each order. -/
def charge (per : Costs K) (count : ℤ) : List K → Costs K → Except PyErr (Costs K)
  | [], rdp => .ok rdp
  | a :: orders, rdp =>
    match rdp a, per a with
    | some cost, some more =>
      charge per count orders fun b => if b = a then some (cost + count * more) else rdp b
    | _, _ => .error .keyError

def step (accountant : RDPAccountant K) (noiseMultiplier : K) (count : ℤ) :
    Except PyErr (RDPAccountant K) := do
  let per ← gaussianRdp accountant.orders noiseMultiplier
  let rdp ← charge per count accountant.orders accountant.rdp
  .ok { accountant with rdp := rdp, steps := accountant.steps + count }

variable {per rdp rdp' : Costs K} {count : ℤ}

theorem charge_outside {orders : List K} (charged : charge per count orders rdp = .ok rdp') {b : K}
    (outside : b ∉ orders) : rdp' b = rdp b := by
  induction orders generalizing rdp with
  | nil =>
    cases charged
    rfl
  | cons a orders ih =>
    rw [charge] at charged
    split at charged
    · rename_i cost more _ _
      have other : b ≠ a := by
        rintro rfl
        exact outside List.mem_cons_self
      rw [ih charged (fun later => outside (List.mem_cons_of_mem _ later)), if_neg other]
    · cases charged

theorem charge_inside {orders : List K} (distinct : orders.Nodup)
    (charged : charge per count orders rdp = .ok rdp') {b : K} (inside : b ∈ orders) :
    ∃ cost more, rdp b = some cost ∧ per b = some more ∧ rdp' b = some (cost + count * more) := by
  induction orders generalizing rdp with
  | nil => cases inside
  | cons a orders ih =>
    obtain ⟨fresh, distinct⟩ := List.nodup_cons.mp distinct
    rw [charge] at charged
    split at charged
    · rename_i cost more paid charge
      rcases List.mem_cons.mp inside with rfl | later
      · refine ⟨cost, more, paid, charge, ?_⟩
        rw [charge_outside charged fresh, if_pos rfl]
      · obtain ⟨cost', more', paid', charge', result⟩ := ih distinct charged later
        have other : b ≠ a := fun same => fresh (same ▸ later)
        rw [if_neg other] at paid'
        exact ⟨cost', more', paid', charge', result⟩
    · cases charged

/-- A step adds `count` times `a / (2 z ^ 2)` to the cost of every order `a`. -/
theorem step_costs {accountant next : RDPAccountant K} {z : K}
    (distinct : accountant.orders.Nodup) (stepped : accountant.step z count = .ok next) :
    0 < z ∧ next.orders = accountant.orders ∧ next.steps = accountant.steps + count ∧
      ∀ a ∈ accountant.orders, ∃ cost, accountant.rdp a = some cost ∧
        next.rdp a = some (cost + count * (a / (2 * (z * z)))) := by
  obtain ⟨per, gaussian, stepped⟩ := bind_eq_ok stepped
  obtain ⟨rdp, charged, stepped⟩ := bind_eq_ok stepped
  cases stepped
  rw [gaussianRdp] at gaussian
  split at gaussian
  · cases gaussian
  · rename_i positive
    cases gaussian
    refine ⟨not_le.mp positive, rfl, rfl, fun a member => ?_⟩
    obtain ⟨cost, more, paid, charge, result⟩ := charge_inside distinct charged member
    rw [if_pos member] at charge
    cases charge
    exact ⟨cost, paid, result⟩

/-! Costs as a function: every order has one. -/

/-- What one round at noise multiplier `z` costs at the order `a`. -/
def gaussianCost (z a : K) : K := a / (2 * (z * z))

/-- An accountant that has the given cost for each of its orders. -/
def spent (orders : List K) (cost : K → K) (steps : ℤ) : RDPAccountant K :=
  { orders, rdp := fun a => if a ∈ orders then some (cost a) else none, steps }

/-- What `count` rounds cost; an order that is listed twice is charged twice. -/
def roundCost (orders : List K) (call : K × ℤ) (a : K) : K :=
  (orders.count a : K) * (call.2 * gaussianCost call.1 a)

theorem charge_eq (count : ℤ) {orders : List K} {cost more : K → K}
    (paid : ∀ a ∈ orders, rdp a = some (cost a)) (charges : ∀ a ∈ orders, per a = some (more a)) :
    charge per count orders rdp = .ok fun a =>
      if a ∈ orders then some (cost a + (orders.count a : K) * (count * more a)) else rdp a := by
  induction orders generalizing rdp cost with
  | nil => rfl
  | cons b orders ih =>
    rw [charge, paid b List.mem_cons_self, charges b List.mem_cons_self]
    dsimp only
    have paid' : ∀ a ∈ orders, (fun a => if a = b then some (cost b + count * more b) else rdp a) a =
        some (if a = b then cost b + count * more b else cost a) := by
      intro a member
      dsimp only
      by_cases same : a = b
      · rw [if_pos same, if_pos same]
      · rw [if_neg same, if_neg same, paid a (List.mem_cons_of_mem _ member)]
    rw [ih paid' fun a member => charges a (List.mem_cons_of_mem _ member)]
    refine congrArg Except.ok (funext fun a => ?_)
    by_cases same : a = b
    · subst same
      rw [if_pos List.mem_cons_self, List.count_cons_self]
      by_cases later : a ∈ orders
      · rw [if_pos later, if_pos rfl]
        push_cast
        ring_nf
      · rw [if_neg later, if_pos rfl, List.count_eq_zero_of_not_mem later]
        push_cast
        ring_nf
    · rw [List.count_cons_of_ne (Ne.symm same), if_neg same]
      by_cases later : a ∈ orders
      · rw [if_pos later, if_pos (List.mem_cons_of_mem _ later)]
      · have outside : a ∉ b :: orders := by simp [same, later]
        rw [if_neg later, if_neg outside, if_neg same]

theorem start_eq (orders : List K) : start orders = spent orders (fun _ => 0) 0 := rfl

theorem gaussianRdp_eq (orders : List K) {z : K} (positive : 0 < z) :
    gaussianRdp orders z =
      .ok fun a => if a ∈ orders then some (gaussianCost z a) else none := by
  rw [gaussianRdp, if_neg (not_le.mpr positive)]
  rfl

theorem step_spent (orders : List K) (cost : K → K) (steps : ℤ) {z : K} (positive : 0 < z)
    (count : ℤ) :
    (spent orders cost steps).step z count =
      .ok (spent orders (fun a => cost a + roundCost orders (z, count) a) (steps + count)) := by
  have paid : ∀ a ∈ orders, (spent orders cost steps).rdp a = some (cost a) :=
    fun a member => if_pos member
  have charges : ∀ a ∈ orders,
      (fun a => if a ∈ orders then some (gaussianCost z a) else none) a = some (gaussianCost z a) :=
    fun a member => if_pos member
  have charged := charge_eq count paid charges
  change (gaussianRdp orders z >>= fun per =>
    charge per count orders (spent orders cost steps).rdp >>= fun rdp =>
      .ok (⟨orders, rdp, steps + count⟩ : RDPAccountant K)) = _
  rw [gaussianRdp_eq orders positive, ok_bind, charged, ok_bind]
  refine congrArg (fun rdp => Except.ok (⟨orders, rdp, steps + count⟩ : RDPAccountant K))
    (funext fun a => ?_)
  by_cases member : a ∈ orders
  · simp only [if_pos member]
    rfl
  · simp only [if_neg member, spent]

/-- Calls of `step`, one after the other. -/
def run (accountant : RDPAccountant K) (calls : List (K × ℤ)) : Except PyErr (RDPAccountant K) :=
  calls.foldlM (fun accountant call => accountant.step call.1 call.2) accountant

/-- The costs of the calls add up. -/
theorem run_spent (orders : List K) {calls : List (K × ℤ)} (positive : ∀ call ∈ calls, 0 < call.1)
    (cost : K → K) (steps : ℤ) :
    run (spent orders cost steps) calls =
      .ok (spent orders (fun a => cost a + (calls.map fun call => roundCost orders call a).sum)
        (steps + (calls.map Prod.snd).sum)) := by
  induction calls generalizing cost steps with
  | nil => simp [run, pure, Except.pure]
  | cons call calls ih =>
    rw [run, List.foldlM_cons, step_spent orders cost steps (positive call List.mem_cons_self),
      ok_bind]
    refine (ih (fun other member => positive other (List.mem_cons_of_mem _ member)) _ _).trans ?_
    simp only [List.map_cons, List.sum_cons, add_assoc]

/-! The guarantee. -/

section
variable (log : K → K) (delta : K)

/-- The test of an order against the best one so far, (inf, nan) before the first. -/
def better (best : Option (K × K)) (item : K × K) : Option (K × K) :=
  if item.1 ≤ 1 then best
  else
    let eps := item.2 + log (1 / delta) / (item.1 - 1)
    match best with
    | none => some (eps, item.1)
    | some found => if eps < found.1 then some (eps, item.1) else some found

/-- The least guarantee and its order. -/
def rdpToDpEpsilon (rdp : List (K × K)) : Except PyErr (Option (K × K)) :=
  if ¬(0 < delta ∧ delta < 1) then .error .valueError
  else .ok (rdp.foldl (better log delta) none)

/-- The items of the mapping: its keys are the orders, each of them once. -/
def items (accountant : RDPAccountant K) : List (K × K) :=
  accountant.orders.eraseDups.filterMap fun a => (accountant.rdp a).map fun cost => (a, cost)

/-- `best_eps`: infinite as long as no order has been found. -/
def bestEps : Option (K × K) → WithTop K
  | none => ⊤
  | some best => best.1

def getEpsilon (accountant : RDPAccountant K) : Except PyErr (WithTop K) := do
  let best ← rdpToDpEpsilon log delta accountant.items
  .ok (bestEps best)

/-- The guarantee at one order. -/
def epsilonAt (cost : K → K) (a : K) : WithTop K :=
  if a ≤ 1 then ⊤ else ↑(cost a + log (1 / delta) / (a - 1))

/-- The least guarantee over the orders. -/
def leastEpsilon (orders : List K) (cost : K → K) : WithTop K :=
  orders.foldl (fun least a => min least (epsilonAt log delta cost a)) ⊤

variable {log delta} {cost cost' : K → K}

theorem bestEps_better (best : Option (K × K)) (a : K) :
    bestEps (better log delta best (a, cost a)) =
      min (bestEps best) (epsilonAt log delta cost a) := by
  unfold better epsilonAt
  by_cases low : a ≤ 1
  · simp only [if_pos low, min_top_right]
  · simp only [if_neg low]
    cases best with
    | none => simp only [bestEps, min_top_left]
    | some found =>
      dsimp only
      split
      · rename_i less
        exact (min_eq_right (WithTop.coe_le_coe.mpr less.le)).symm
      · rename_i notLess
        exact (min_eq_left (WithTop.coe_le_coe.mpr (not_lt.mp notLess))).symm

theorem bestEps_foldl (orders : List K) (best : Option (K × K)) :
    bestEps ((orders.map fun a => (a, cost a)).foldl (better log delta) best) =
      orders.foldl (fun least a => min least (epsilonAt log delta cost a)) (bestEps best) := by
  induction orders generalizing best with
  | nil => rfl
  | cons a orders ih => rw [List.map_cons, List.foldl_cons, List.foldl_cons, ih, bestEps_better]

omit [Field K] in
theorem items_spent (orders : List K) (cost : K → K) (steps : ℤ) :
    (spent orders cost steps).items = orders.eraseDups.map fun a => (a, cost a) := by
  rw [items, ← List.filterMap_eq_map]
  refine List.filterMap_congr fun a member => ?_
  have listed : a ∈ orders := List.mem_eraseDups.mp member
  simp only [spent, if_pos listed, Option.map_some, Function.comp_apply]

theorem getEpsilon_spent (orders : List K) (cost : K → K) (steps : ℤ) :
    getEpsilon log delta (spent orders cost steps) =
      if ¬(0 < delta ∧ delta < 1) then .error .valueError
      else .ok (leastEpsilon log delta orders.eraseDups cost) := by
  rw [getEpsilon, rdpToDpEpsilon, items_spent]
  split
  · rfl
  · rw [ok_bind, bestEps_foldl]
    rfl

theorem epsilonAt_mono {a : K} (le : 1 < a → cost a ≤ cost' a) [IsStrictOrderedRing K] :
    epsilonAt log delta cost a ≤ epsilonAt log delta cost' a := by
  unfold epsilonAt
  split
  · exact le_top
  · rename_i high
    have cheaper := le (not_le.mp high)
    exact WithTop.coe_le_coe.mpr (by linarith)

theorem leastEpsilon_mono [IsStrictOrderedRing K] {orders : List K}
    (le : ∀ a ∈ orders, 1 < a → cost a ≤ cost' a) :
    leastEpsilon log delta orders cost ≤ leastEpsilon log delta orders cost' := by
  have running : ∀ (rest : List K) (least least' : WithTop K), (∀ a ∈ rest, a ∈ orders) →
      least ≤ least' →
      rest.foldl (fun least a => min least (epsilonAt log delta cost a)) least ≤
        rest.foldl (fun least a => min least (epsilonAt log delta cost' a)) least' := by
    intro rest
    induction rest with
    | nil => exact fun _ _ _ sofar => sofar
    | cons a rest ih =>
      intro least least' among sofar
      refine ih _ _ (fun b member => among b (List.mem_cons_of_mem _ member)) ?_
      exact min_le_min sofar (epsilonAt_mono (le a (among a List.mem_cons_self)))
  exact running orders ⊤ ⊤ (fun _ member => member) le_rfl

variable (log delta cost) in
theorem leastEpsilon_lt_top {orders : List K} (some_ : ∃ a ∈ orders, 1 < a) :
    leastEpsilon log delta orders cost < ⊤ := by
  have running : ∀ (rest : List K) (least : WithTop K), least < ⊤ ∨ (∃ a ∈ rest, 1 < a) →
      rest.foldl (fun least a => min least (epsilonAt log delta cost a)) least < ⊤ := by
    intro rest
    induction rest with
    | nil =>
      intro least found
      simpa using found
    | cons a rest ih =>
      intro least found
      refine ih _ ?_
      rcases found with finite | ⟨b, member, high⟩
      · exact Or.inl (min_lt_of_left_lt finite)
      · rcases List.mem_cons.mp member with rfl | later
        · refine Or.inl (min_lt_of_right_lt ?_)
          rw [epsilonAt, if_neg (not_le.mpr high)]
          exact WithTop.coe_lt_top _
        · exact Or.inr ⟨b, later, high⟩
  exact running orders ⊤ (Or.inr some_)

end
end RDPAccountant

/-! The configuration. -/

namespace Adjacency

def replaceOne : String := "replace_one"
def addRemove : String := "add_remove"

def multiplier (adjacency : String) : Option K :=
  if adjacency = replaceOne then some 2 else if adjacency = addRemove then some 1 else none

end Adjacency

structure DPConfig (K : Type*) where
  clipNorm : K
  noiseMultiplier : K
  adjacency : String

namespace DPConfig

def sensitivity (cfg : DPConfig K) : Except PyErr K :=
  match Adjacency.multiplier cfg.adjacency with
  | some mult => .ok (mult * cfg.clipNorm)
  | none => .error .valueError

/-- The standard deviation that is passed to `rng.normal`. -/
def sigma (cfg : DPConfig K) : Except PyErr K := do
  let sensitivity ← cfg.sensitivity
  .ok (cfg.noiseMultiplier * sensitivity)

end DPConfig

/-! The releases. -/

section
variable (sqrt : K → K)

/-- One round is charged to the accountant, if there is one. -/
def charged (cfg : DPConfig K) :
    Option (RDPAccountant K) → Except PyErr (Option (RDPAccountant K))
  | none => .ok none
  | some accountant => do
    let next ← accountant.step cfg.noiseMultiplier 1
    .ok (some next)

/-- The clipped updates and their sum. -/
def clippedSum (updates : List (List K)) (cfg : DPConfig K) : Except PyErr (List K) := do
  let flats ← updates.mapM fun update => l2Clip sqrt update cfg.clipNorm
  if flats.length = 0 then .error .valueError
  else
    let mat ← stack flats
    .ok (sumRows (mat.headD []).length mat)

def dpFedavg (updates : List (List K)) (cfg : DPConfig K) (noise : List K)
    (accountant : Option (RDPAccountant K)) :
    Except PyErr (List K × Option (RDPAccountant K)) := do
  let summed ← clippedSum sqrt updates cfg
  let _ ← cfg.sigma
  let accountant ← charged cfg accountant
  .ok ((List.zipWith (· + ·) summed noise).map (· / (updates.length : K)), accountant)

def dpSufficientStatistic (contributions : List (List K)) (cfg : DPConfig K) (noise : List K)
    (accountant : Option (RDPAccountant K)) :
    Except PyErr (List K × Option (RDPAccountant K)) := do
  let summed ← clippedSum sqrt contributions cfg
  let _ ← cfg.sigma
  let accountant ← charged cfg accountant
  .ok (List.zipWith (· + ·) summed noise, accountant)

end
end HorizonRic.DifferentialPrivacy
