import HorizonRic.Federated.DifferentialPrivacy
import HorizonRic.Library.Bisection
import Mathlib.Algebra.BigOperators.Group.List.Basic
import Mathlib.Analysis.SpecialFunctions.Log.Basic

/-!
`solve_noise_multiplier`: doubling until the guarantee is good enough, then bisection.
The guarantee of the accountant falls with the noise and grows with every charge.
-/
namespace HorizonRic.DifferentialPrivacy
open Py Bisection RDPAccountant

section
variable {K : Type*} [Field K] [LinearOrder K] (log : K → K)

/-- `eps_at`. -/
def epsAt (rounds : ℤ) (orders : List K) (delta z : K) : Except PyErr (WithTop K) := do
  let acct ← (start orders).step z rounds
  getEpsilon log delta acct

section
variable (epsAt : K → Except PyErr (WithTop K)) (targetEpsilon : K)

/-- The first loop: `hi` is doubled, up to `1e12`. -/
def raiseHi : ℕ → K → Option (Except PyErr K) :=
  whileLoop
    (fun hi => (epsAt hi).map fun eps => decide ((targetEpsilon : WithTop K) < eps))
    fun hi =>
      let hi := hi * ((2 : ℕ) : K)
      if ((10 ^ 12 : ℕ) : K) < hi then .error .valueError else .ok hi

/-- The second loop: the bracket is halved until it is narrow against its right end. -/
def bisect (tol : K) : ℕ → Bracket K → Option (Except PyErr (Bracket K)) :=
  whileLoop
    (fun b => .ok (decide (tol * max 1 b.hi < b.width)))
    fun b => (epsAt b.mid).map fun eps => b.halve (decide ((targetEpsilon : WithTop K) < eps))

end

/-- `lo` at the start, `1e-9`. -/
def leastNoise : K := ((10 ^ 9 : ℕ) : K)⁻¹

/-- The last value of `hi` that the first loop tests. -/
def mostNoise : K := ((2 : ℕ) : K) ^ 39

def solveNoiseMultiplier (rounds : ℤ) (targetEpsilon delta : K) (orders : List K) (tol : K)
    (fuel : ℕ) : Option (Except PyErr K) :=
  if rounds < 1 then some (.error .valueError)
  else if targetEpsilon ≤ 0 then some (.error .valueError)
  else
    match raiseHi (epsAt log rounds orders delta) targetEpsilon fuel 1 with
    | none => none
    | some (.error e) => some (.error e)
    | some (.ok hi) =>
      (bisect (epsAt log rounds orders delta) targetEpsilon tol fuel ⟨leastNoise, hi⟩).map
        (Except.map Bracket.hi)

end

/-! The loops, for any guarantee that falls with the noise. -/

section
variable {K : Type*} [Field K] [LinearOrder K]

structure Falls (epsAt : K → Except PyErr (WithTop K)) (eps : K → K) : Prop where
  value : ∀ z, 0 < z → epsAt z = .ok (eps z)
  antitone : ∀ x y, 0 < x → x ≤ y → eps y ≤ eps x

/-- What the first loop ends with. -/
def Raised (eps : K → K) (target : K) : Except PyErr K → Prop
  | .ok hi => 1 ≤ hi ∧ eps hi ≤ target ∧ eps mostNoise ≤ target
  | .error e => e = .valueError ∧ target < eps mostNoise

variable [IsStrictOrderedRing K] {at_ : K → Except PyErr (WithTop K)} {eps : K → K} {target : K}

theorem pow_le_mostNoise {k : ℕ} (small : k ≤ 39) : ((2 : ℕ) : K) ^ k ≤ mostNoise :=
  pow_le_pow_right₀ (by norm_num) small

theorem one_le_pow_two (k : ℕ) : (1 : K) ≤ ((2 : ℕ) : K) ^ k := one_le_pow₀ (by norm_num)

/-- Only the value after the last one tested exceeds the limit. -/
theorem limit_lt_iff (k : ℕ) : ((10 ^ 12 : ℕ) : K) < ((2 : ℕ) : K) ^ k ↔ 39 < k := by
  have nat : (10 ^ 12 : ℕ) < 2 ^ k ↔ 39 < k := by
    constructor
    · intro large
      by_contra small
      have bound : 2 ^ k ≤ 2 ^ 39 := Nat.pow_le_pow_right (by norm_num) (by omega)
      omega
    · intro large
      calc 10 ^ 12 < 2 ^ 40 := by norm_num
        _ ≤ 2 ^ k := Nat.pow_le_pow_right (by norm_num) large
  rw [← nat, ← Nat.cast_pow]
  exact Nat.cast_lt

theorem raiseHi_spec (target : K) (falls : Falls at_ eps) :
    ∃ result, Raised eps target result ∧
      ∀ fuel, 39 < fuel → raiseHi at_ target fuel 1 = some result := by
  have start : (1 : K) = ((2 : ℕ) : K) ^ (39 - 39) := by simp
  rw [start]
  refine whileLoop_total (fun rank hi => rank ≤ 39 ∧ hi = ((2 : ℕ) : K) ^ (39 - rank))
    (fun rank hi inv => ?_) ⟨le_rfl, rfl⟩
  obtain ⟨bound, rfl⟩ := inv
  have least := one_le_pow_two (K := K) (39 - rank)
  have positive := zero_lt_one.trans_le least
  have below := falls.antitone _ _ positive (pow_le_mostNoise (K := K) (Nat.sub_le 39 rank))
  have tested : ((at_ (((2 : ℕ) : K) ^ (39 - rank))).map fun found =>
      decide ((target : WithTop K) < found)) =
      .ok (decide (target < eps (((2 : ℕ) : K) ^ (39 - rank)))) := by
    rw [falls.value _ positive]
    simp only [Except.map, WithTop.coe_lt_coe]
  by_cases costly : target < eps (((2 : ℕ) : K) ^ (39 - rank))
  · rw [decide_eq_true costly] at tested
    cases rank with
    | zero =>
      refine .raises .valueError tested ?_ ⟨rfl, costly⟩
      rw [← pow_succ]
      exact if_pos ((limit_lt_iff _).mpr (by omega))
    | succ rank =>
      refine .goesOn _ rank tested ?_ (Nat.lt_succ_self rank) ⟨by omega, rfl⟩
      have next : 39 - rank = 39 - (rank + 1) + 1 := by omega
      rw [next, ← pow_succ]
      exact if_neg ((limit_lt_iff _).not.mpr (by omega))
  · rw [decide_eq_false costly] at tested
    exact .leaves tested ⟨least, not_lt.mp costly, below.trans (not_lt.mp costly)⟩

/-- What the second loop ends with. -/
def Bisected (eps : K → K) (target tol : K) : Except PyErr (Bracket K) → Prop
  | .ok b => Brackets (fun z => target < eps z) leastNoise b ∧ b.width ≤ tol * max 1 b.hi
  | .error _ => False

theorem leastNoise_pos : (0 : K) < leastNoise := by
  rw [leastNoise, inv_pos]
  norm_num

theorem bisect_spec [Archimedean K] (falls : Falls at_ eps) {tol : K} (positive : 0 < tol)
    {b : Bracket K} (inside : Brackets (fun z => target < eps z) leastNoise b) :
    ∃ rank result, Bisected eps target tol result ∧
      ∀ fuel, rank < fuel → bisect at_ target tol fuel b = some result := by
  obtain ⟨rank, narrow⟩ := exists_width_le positive b.width
  refine ⟨rank, whileLoop_total (fun rank (b : Bracket K) =>
    Brackets (fun z => target < eps z) leastNoise b ∧ b.width ≤ tol * ((2 : ℕ) : K) ^ rank)
    (fun rank b inv => ?_) ⟨inside, narrow⟩⟩
  obtain ⟨inside, narrow⟩ := inv
  by_cases wide : tol * max 1 b.hi < b.width
  · have enter : (.ok (decide (tol * max 1 b.hi < b.width)) : Except PyErr Bool) = .ok true := by
      rw [decide_eq_true wide]
    have middle : at_ b.mid = .ok (eps b.mid) :=
      falls.value _ (leastNoise_pos.trans inside.first_lt_mid)
    cases rank with
    | zero =>
      -- a bracket as wide as the tolerance has been left
      have tolerated : tol ≤ tol * max 1 b.hi := le_mul_of_one_le_right positive.le (le_max_left _ _)
      rw [pow_zero, mul_one] at narrow
      exact absurd wide (not_lt.mpr (narrow.trans tolerated))
    | succ rank =>
      refine .goesOn (b.halve (decide (target < eps b.mid))) rank enter ?_ (Nat.lt_succ_self rank)
        ⟨inside.halve decide_eq_true_iff, width_halve_le narrow _⟩
      rw [middle]
      simp only [Except.map, WithTop.coe_lt_coe]
  · have exit : (.ok (decide (tol * max 1 b.hi < b.width)) : Except PyErr Bool) = .ok false := by
      rw [decide_eq_false wide]
    exact .leaves exit ⟨inside, not_lt.mp wide⟩

/-- What the search ends with: a failure when the most noise that is tested does not do, or a
    noise multiplier that does and below which, but for the tolerance, none does. -/
def Solved (eps : K → K) (target tol : K) : Except PyErr K → Prop
  | .error e => e = .valueError ∧ target < eps mostNoise
  | .ok z => eps mostNoise ≤ target ∧ 0 < z ∧ eps z ≤ target ∧
      (target < eps leastNoise → ∀ z', 0 < z' → z' ≤ z - tol * max 1 z → target < eps z')

theorem leastNoise_lt_one : (leastNoise : K) < 1 := by
  rw [leastNoise, inv_lt_one₀ (by norm_num)]
  norm_num

/-- The bracket that the second loop starts from. -/
theorem brackets_raised {hi : K} (one : 1 ≤ hi) (enough : eps hi ≤ target) :
    Brackets (fun z => target < eps z) leastNoise ⟨leastNoise, hi⟩ :=
  ⟨leastNoise_lt_one.trans_le one, le_rfl, id, not_lt.mpr enough⟩

theorem solved_of_bisected {tol : K} {b : Bracket K} (falls : Falls at_ eps)
    (most : eps mostNoise ≤ target) (bisected : Bisected eps target tol (.ok b)) :
    Solved eps target tol (.ok b.hi) := by
  obtain ⟨inside, narrow⟩ := bisected
  refine ⟨most, ?_, not_lt.mp inside.right, fun start z' positive low => ?_⟩
  · exact leastNoise_pos.trans (inside.fromFirst.trans_lt inside.ordered)
  · have outside : z' ≤ b.lo := by
      rw [Bracket.width] at narrow
      linarith
    exact inside.above_of_le start
      (fun x y low le above => above.trans_le (falls.antitone x y low le)) positive outside

theorem solve_spec [Archimedean K] {log : K → K} {rounds : ℤ} {delta tol : K} {orders : List K}
    (falls : Falls (epsAt log rounds orders delta) eps) (some_ : 1 ≤ rounds) (positive : 0 < target)
    (tolerance : 0 < tol) :
    ∃ enough result, Solved eps target tol result ∧ ∀ fuel, enough < fuel →
      solveNoiseMultiplier log rounds target delta orders tol fuel = some result := by
  obtain ⟨result, raised, run⟩ := raiseHi_spec target falls
  cases result with
  | error e =>
    refine ⟨39, .error e, raised, fun fuel enough => ?_⟩
    rw [solveNoiseMultiplier, if_neg (by omega), if_neg (not_le.mpr positive), run fuel enough]
  | ok hi =>
    obtain ⟨one, enough, most⟩ := raised
    obtain ⟨rank, result, bisected, narrowed⟩ :=
      bisect_spec falls tolerance (brackets_raised one enough)
    cases result with
    | error e => exact bisected.elim
    | ok b =>
      refine ⟨max 39 rank, .ok b.hi, solved_of_bisected falls most bisected, fun fuel large => ?_⟩
      rw [solveNoiseMultiplier, if_neg (by omega), if_neg (not_le.mpr positive),
        run fuel ((le_max_left _ _).trans_lt large)]
      dsimp only
      rw [narrowed fuel ((le_max_right _ _).trans_lt large)]
      rfl

end

/-! The accountant. -/

section
variable {K : Type*} [Field K] [LinearOrder K] [IsStrictOrderedRing K] {log : K → K} {delta : K}
  {orders : List K}

theorem gaussianCost_antitone {a x y : K} (high : 1 < a) (positive : 0 < x) (le : x ≤ y) :
    gaussianCost y a ≤ gaussianCost x a := by
  have square : x * x ≤ y * y := mul_self_le_mul_self positive.le le
  have least : 0 < x * x := mul_pos positive positive
  unfold gaussianCost
  exact div_le_div_of_nonneg_left (zero_lt_one.trans high).le (by linarith) (by linarith)

theorem gaussianCost_nonneg {a : K} (high : 1 < a) (z : K) : 0 ≤ gaussianCost z a := by
  have square := mul_self_nonneg z
  unfold gaussianCost
  exact div_nonneg (zero_lt_one.trans high).le (by linarith)

theorem roundCost_nonneg {call : K × ℤ} (counted : 0 ≤ call.2) {a : K} (high : 1 < a) :
    0 ≤ roundCost orders call a :=
  mul_nonneg (Nat.cast_nonneg _)
    (mul_nonneg (Int.cast_nonneg counted) (gaussianCost_nonneg high _))

omit [IsStrictOrderedRing K] in
/-- The accountant of one noise multiplier. -/
theorem epsAt_eq (range : 0 < delta ∧ delta < 1) (rounds : ℤ) {z : K} (positive : 0 < z) :
    epsAt log rounds orders delta z =
      .ok (leastEpsilon log delta orders.eraseDups (roundCost orders (z, rounds))) := by
  rw [epsAt, start_eq, step_spent orders _ _ positive, ok_bind, getEpsilon_spent,
    if_neg (not_not.mpr range)]
  simp only [zero_add]

variable (log) in
theorem epsAt_falls (range : 0 < delta ∧ delta < 1) {rounds : ℤ} (some_ : 1 ≤ rounds)
    (listed : orders ≠ []) (high : ∀ a ∈ orders, 1 < a) :
    ∃ eps, Falls (epsAt log rounds orders delta) eps := by
  have finite : ∀ z, ∃ eps : K,
      leastEpsilon log delta orders.eraseDups (roundCost orders (z, rounds)) = eps := by
    intro z
    obtain ⟨a, member⟩ := List.exists_mem_of_ne_nil _ listed
    have bounded := leastEpsilon_lt_top log delta (roundCost orders (z, rounds))
      ⟨a, List.mem_eraseDups.mpr member, high a member⟩
    exact (WithTop.ne_top_iff_exists.mp bounded.ne).imp fun _ => Eq.symm
  choose eps value using finite
  refine ⟨eps, fun z positive => by rw [epsAt_eq range rounds positive, value],
    fun x y positive le => ?_⟩
  rw [← WithTop.coe_le_coe, ← value, ← value]
  refine leastEpsilon_mono fun a _ above => ?_
  have count : (0 : K) ≤ rounds := by exact_mod_cast (by omega : 0 ≤ rounds)
  exact mul_le_mul_of_nonneg_left
    (mul_le_mul_of_nonneg_left (gaussianCost_antitone above positive le) count) (Nat.cast_nonneg _)

variable (log delta orders) in
/-- `get_epsilon` after calls of `step` on a new accountant. -/
def epsilonAfter (calls : List (K × ℤ)) : Except PyErr (WithTop K) := do
  let accountant ← run (start orders) calls
  getEpsilon log delta accountant

/-- The calls of one round each. -/
def singleSteps (calls : List (K × ℤ)) : List (K × ℤ) :=
  calls.flatMap fun call => List.replicate call.2.toNat (call.1, 1)

omit [IsStrictOrderedRing K] in
theorem epsilonAfter_eq {calls : List (K × ℤ)} (positive : ∀ call ∈ calls, 0 < call.1) :
    epsilonAfter log delta orders calls =
      if ¬(0 < delta ∧ delta < 1) then .error .valueError
      else .ok (leastEpsilon log delta orders.eraseDups
        fun a => (calls.map fun call => roundCost orders call a).sum) := by
  rw [epsilonAfter, start_eq, run_spent orders positive, ok_bind, getEpsilon_spent]
  simp only [zero_add]

theorem roundCost_replicate (orders : List K) {call : K × ℤ} (counted : 0 ≤ call.2) (a : K) :
    ((List.replicate call.2.toNat (call.1, 1)).map fun call => roundCost orders call a).sum =
      roundCost orders call a := by
  have count : ((call.2.toNat : ℕ) : K) = call.2 := by
    exact_mod_cast congrArg (Int.cast : ℤ → K) (Int.toNat_of_nonneg counted)
  rw [List.map_replicate, List.sum_replicate, nsmul_eq_mul, count]
  simp only [roundCost, Int.cast_one, one_mul]
  ring

theorem sum_singleSteps (orders : List K) {calls : List (K × ℤ)}
    (counted : ∀ call ∈ calls, 0 ≤ call.2) (a : K) :
    ((singleSteps calls).map fun call => roundCost orders call a).sum =
      (calls.map fun call => roundCost orders call a).sum := by
  induction calls with
  | nil => rfl
  | cons call calls ih =>
    rw [singleSteps, List.flatMap_cons, List.map_append, List.sum_append,
      roundCost_replicate orders (counted call List.mem_cons_self), List.map_cons, List.sum_cons]
    exact congrArg _ (ih fun other member => counted other (List.mem_cons_of_mem _ member))

omit [IsStrictOrderedRing K] in
theorem epsilonAfter_perm {calls calls' : List (K × ℤ)} (positive : ∀ call ∈ calls, 0 < call.1)
    (same : calls.Perm calls') :
    epsilonAfter log delta orders calls = epsilonAfter log delta orders calls' := by
  rw [epsilonAfter_eq positive,
    epsilonAfter_eq fun call member => positive call (same.mem_iff.mpr member)]
  have sums : ∀ a, (calls.map fun call => roundCost orders call a).sum =
      (calls'.map fun call => roundCost orders call a).sum :=
    fun a => (same.map _).sum_eq
  simp only [sums]

theorem epsilonAfter_singleSteps {calls : List (K × ℤ)} (positive : ∀ call ∈ calls, 0 < call.1)
    (counted : ∀ call ∈ calls, 0 ≤ call.2) :
    epsilonAfter log delta orders (singleSteps calls) = epsilonAfter log delta orders calls := by
  have singles : ∀ call ∈ singleSteps calls, 0 < call.1 := by
    intro call member
    obtain ⟨one, among, repeated⟩ := List.mem_flatMap.mp member
    obtain ⟨_, rfl⟩ := List.mem_replicate.mp repeated
    exact positive one among
  rw [epsilonAfter_eq singles, epsilonAfter_eq positive]
  simp only [sum_singleSteps orders counted]

/-- More calls never lower the guarantee. -/
theorem epsilonAfter_append {calls more : List (K × ℤ)} (range : 0 < delta ∧ delta < 1)
    (positive : ∀ call ∈ calls ++ more, 0 < call.1) (counted : ∀ call ∈ more, 0 ≤ call.2) :
    ∃ eps eps', epsilonAfter log delta orders calls = .ok eps ∧
      epsilonAfter log delta orders (calls ++ more) = .ok eps' ∧ eps ≤ eps' := by
  have first : ∀ call ∈ calls, 0 < call.1 :=
    fun call member => positive call (List.mem_append_left _ member)
  rw [epsilonAfter_eq first, epsilonAfter_eq positive, if_neg (not_not.mpr range),
    if_neg (not_not.mpr range)]
  refine ⟨_, _, rfl, rfl, leastEpsilon_mono fun a _ high => ?_⟩
  rw [List.map_append, List.sum_append]
  refine le_add_of_nonneg_right (List.sum_nonneg fun cost member => ?_)
  obtain ⟨call, among, rfl⟩ := List.mem_map.mp member
  exact roundCost_nonneg (counted call among) high

end

/-- The search ends and is sound and tight, and the accountant's guarantee depends only on
    how many rounds were charged at each noise multiplier and never falls. -/
theorem noiseMultiplier_tight (orders : List ℝ) (delta : ℝ) (range : 0 < delta ∧ delta < 1) :
    (∀ (rounds : ℤ) (targetEpsilon tol : ℝ), 1 ≤ rounds → 0 < targetEpsilon → 0 < tol →
      orders ≠ [] → (∀ a ∈ orders, 1 < a) →
      ∃ eps : ℝ → ℝ, (∀ z, 0 < z → epsAt Real.log rounds orders delta z = .ok (eps z)) ∧
        ∃ enough result,
          (∀ fuel, enough < fuel →
            solveNoiseMultiplier Real.log rounds targetEpsilon delta orders tol fuel =
              some result) ∧
          ((∃ e, result = .error e) ↔ targetEpsilon < eps mostNoise) ∧
          ∀ z, result = .ok z → eps z ≤ targetEpsilon ∧
            (targetEpsilon < eps leastNoise →
              ∀ z', 0 < z' → z' ≤ z - tol * max 1 z → targetEpsilon < eps z')) ∧
    (∀ calls calls' : List (ℝ × ℤ), (∀ call ∈ calls, 0 < call.1) → calls.Perm calls' →
      epsilonAfter Real.log delta orders calls = epsilonAfter Real.log delta orders calls') ∧
    (∀ calls : List (ℝ × ℤ), (∀ call ∈ calls, 0 < call.1) → (∀ call ∈ calls, 0 ≤ call.2) →
      epsilonAfter Real.log delta orders (singleSteps calls) =
        epsilonAfter Real.log delta orders calls) ∧
    ∀ calls more : List (ℝ × ℤ), (∀ call ∈ calls ++ more, 0 < call.1) →
      (∀ call ∈ more, 0 ≤ call.2) →
      ∃ eps eps', epsilonAfter Real.log delta orders calls = .ok eps ∧
        epsilonAfter Real.log delta orders (calls ++ more) = .ok eps' ∧ eps ≤ eps' := by
  refine ⟨fun rounds target tol some_ positive tolerance listed high => ?_,
    fun _ _ => epsilonAfter_perm, fun _ => epsilonAfter_singleSteps,
    fun _ _ => epsilonAfter_append range⟩
  obtain ⟨eps, falls⟩ := epsAt_falls Real.log range some_ listed high
  obtain ⟨enough, result, solved, run⟩ := solve_spec falls some_ positive tolerance
  refine ⟨eps, falls.value, enough, result, run, ?_⟩
  cases result with
  | error e =>
    refine ⟨⟨fun _ => solved.2, fun _ => ⟨e, rfl⟩⟩, fun z returned => ?_⟩
    cases returned
  | ok z =>
    obtain ⟨good, _, sound, tight⟩ := solved
    refine ⟨⟨?_, fun bad => absurd good (not_le.mpr bad)⟩, fun z' returned => ?_⟩
    · rintro ⟨e, raised⟩
      cases raised
    · cases returned
      exact ⟨sound, tight⟩

/-- One round at the order 2 for an epsilon of 2. -/
theorem noiseMultiplier_tight_one :
    ∃ fuel z, solveNoiseMultiplier Real.log 1 2 (1 / 2) [2] (1 / 10) fuel = some (.ok z) := by
  obtain ⟨eps, value, enough, result, run, raises, _⟩ :=
    (noiseMultiplier_tight [2] (1 / 2) ⟨by norm_num, by norm_num⟩).1 1 2 (1 / 10) le_rfl two_pos
      (by norm_num) (by simp) (by simp)
  have positive : (0 : ℝ) < mostNoise := by norm_num [mostNoise]
  have most := value mostNoise positive
  rw [epsAt_eq ⟨by norm_num, by norm_num⟩ 1 positive] at most
  have least : leastEpsilon Real.log (1 / 2) [2] (roundCost [2] ((mostNoise : ℝ), 1)) =
      ((1 / 2 ^ 78 + Real.log 2 : ℝ) : WithTop ℝ) := by
    norm_num [leastEpsilon, epsilonAt, roundCost, gaussianCost, mostNoise]
  have enoughNoise : eps mostNoise = 1 / 2 ^ 78 + Real.log 2 :=
    WithTop.coe_injective ((Except.ok.inj most).symm.trans least)
  have bound : Real.log 2 ≤ 2 - 1 := Real.log_le_sub_one_of_pos two_pos
  refine ⟨enough + 1, ?_⟩
  rw [run (enough + 1) (Nat.lt_succ_self enough)]
  cases result with
  | error e =>
    have above := raises.mp ⟨e, rfl⟩
    rw [enoughNoise] at above
    norm_num at above bound
    linarith
  | ok z => exact ⟨z, rfl⟩

end HorizonRic.DifferentialPrivacy
