import HorizonRic.Python.Number
import HorizonRic.Library.Coordinates
import HorizonRic.Library.Interpolation
import Mathlib.FieldTheory.Finite.Basic
import Mathlib.Data.List.InsertIdx
import Mathlib.Tactic.NormNum.Prime

/-!
Shamir secret sharing over a prime field: the shares are values of a random
polynomial, any threshold of them interpolate the secret, shares add up holder
by holder, and fewer of them fit every secret in exactly one way.
-/
namespace HorizonRic.ShamirSecretSharing
open Py Interpolation Coordinates

/-- What the calls of `secrets.randbelow(prime)` in `split` return. -/
@[ext]
structure Coefficients (prime threshold : ℕ) where
  values : List ℕ
  count : values.length = threshold - 1
  below : ∀ c ∈ values, c < prime

/-- A share: the holder's coordinate and its value. -/
abbrev Share := ℤ × ℤ

section
variable (prime : ℕ)

/-- `pow(a % p, p - 2, p)`. -/
def modInverse (a : ℤ) : ℤ := (a % prime) ^ (prime - 2) % prime

/-- The value at `x`, with the running power of `x`. -/
def evalAt (coeffs : List ℤ) (x : ℤ) : ℤ :=
  (coeffs.foldl (fun acc c => ((acc.1 + c * acc.2) % (prime : ℤ), (acc.2 * x) % (prime : ℤ)))
    ((0, 1) : ℤ × ℤ)).1

/-- One share for every coordinate from 1 on; the coordinate 0 would be the secret. -/
def deal (coeffs : List ℤ) (nShares : ℕ) : List Share :=
  (List.range nShares).map fun i : ℕ => ((i : ℤ) + 1, evalAt prime coeffs ((i : ℤ) + 1))

def coeffList (secret : ℤ) {threshold : ℕ} (random : Coefficients prime threshold) : List ℤ :=
  secret :: random.values.map (Nat.cast : ℕ → ℤ)

def split (secret : ℤ) (nShares threshold : ℕ) (random : Coefficients prime threshold) :
    Except PyErr (List Share) :=
  if ¬(0 ≤ secret ∧ secret < prime) then .error .valueError
  else if threshold < 2 then .error .valueError
  else if nShares < threshold then .error .valueError
  else .ok (deal prime (coeffList prime secret random) nShares)

/-- The Lagrange weight of the share at `xj` among the other shares. -/
def weight (xj : ℤ) (others : List Share) : ℤ :=
  let num := others.foldl (fun num other => num * -other.1 % (prime : ℤ)) 1
  let den := others.foldl (fun den other => den * (xj - other.1) % (prime : ℤ)) 1
  num * modInverse prime den % prime

def reconstruct (shares : List Share) : Except PyErr ℤ :=
  if shares.length < 2 then .error .valueError
  else if ¬(shares.map Prod.fst).Nodup then .error .valueError
  else .ok (shares.zipIdx.foldl (fun secret sh =>
    (secret + sh.1.2 * weight prime sh.1.1 (shares.eraseIdx sh.2)) % (prime : ℤ)) 0)

/-- The holders' sums: every holder adds its share of each secret. -/
def sumShares (nShares : ℕ) (dealt : List (List Share)) : List Share :=
  dealt.foldl (List.zipWith fun held share => (held.1, (held.2 + share.2) % (prime : ℤ)))
    ((List.range nShares).map fun i : ℕ => ((i : ℤ) + 1, 0))

end

/-! Residues. -/

section
variable {p : ℕ} [Fact p.Prime]

theorem prime_pos : (0 : ℤ) < p := by exact_mod_cast (Fact.out (p := p.Prime)).pos

theorem eq_of_cast {a b : ℤ} (ha : 0 ≤ a ∧ a < p) (hb : 0 ≤ b ∧ b < p)
    (same : (a : ZMod p) = b) : a = b := by
  have congruent : a % p = b % p := (ZMod.intCast_eq_intCast_iff a b p).mp same
  rwa [Int.emod_eq_of_lt ha.1 ha.2, Int.emod_eq_of_lt hb.1 hb.2] at congruent

theorem emod_range (a : ℤ) : 0 ≤ a % p ∧ a % p < p :=
  ⟨Int.emod_nonneg _ prime_pos.ne', Int.emod_lt_of_pos _ prime_pos⟩

@[simp] theorem cast_emod (a : ℤ) : ((a % p : ℤ) : ZMod p) = a := ZMod.intCast_mod a p

/-- Fermat: the power is the inverse. -/
theorem cast_modInverse {a : ℤ} (nonzero : (a : ZMod p) ≠ 0) :
    (modInverse p a : ZMod p) = (a : ZMod p)⁻¹ := by
  have two : 2 ≤ p := (Fact.out (p := p.Prime)).two_le
  have fermat := ZMod.pow_card_sub_one_eq_one nonzero
  have exponent : p - 1 = p - 2 + 1 := by omega
  rw [exponent, pow_succ] at fermat
  rw [modInverse, cast_emod, Int.cast_pow, cast_emod]
  exact eq_inv_of_mul_eq_one_left fermat

theorem cast_foldl_mul (others : List Share) (factor : Share → ℤ) :
    ((others.foldl (fun acc other => acc * factor other % (p : ℤ)) 1 : ℤ) : ZMod p) =
      (others.map fun other => (factor other : ZMod p)).prod := by
  have congruent := foldl_mul_emod p (others.map factor) 1
  rw [List.foldl_map, one_mul, ← ZMod.intCast_eq_intCast_iff, Int.cast_list_prod,
    List.map_map] at congruent
  exact congruent

theorem cast_weight {xj : ℤ} {others : List Share}
    (distinct : ∀ other ∈ others, (xj : ZMod p) ≠ other.1) :
    (weight p xj others : ZMod p) =
      (others.map fun other => -(other.1 : ZMod p)).prod *
        (others.map fun other => (xj : ZMod p) - other.1).prod⁻¹ := by
  have den := cast_foldl_mul (p := p) others fun other => xj - other.1
  have num := cast_foldl_mul (p := p) others fun other => -other.1
  simp only [Int.cast_sub, Int.cast_neg] at den num
  have nonzero : (others.map fun other => (xj : ZMod p) - other.1).prod ≠ 0 := by
    rw [Ne, List.prod_eq_zero_iff]
    intro zero
    obtain ⟨other, member, same⟩ := List.mem_map.mp zero
    exact distinct other member (sub_eq_zero.mp same)
  rw [← den] at nonzero ⊢
  rw [weight, cast_emod, Int.cast_mul, num, cast_modInverse nonzero]

/-- The point of a share. -/
def point (sh : Share) : ZMod p × ZMod p := (sh.1, sh.2)

theorem reconstruct_cast {shares : List Share} (two : 2 ≤ shares.length)
    (distinct : ((shares.map (point (p := p))).map Prod.fst).Nodup) :
    ∃ secret, reconstruct p shares = .ok secret ∧ (0 ≤ secret ∧ secret < p) ∧
      (secret : ZMod p) = atZero (shares.map point) := by
  have distinctX : (shares.map Prod.fst).Nodup := by
    rw [List.map_map] at distinct
    have casts : (shares.map Prod.fst).map (fun x : ℤ => (x : ZMod p)) =
        shares.map (Prod.fst ∘ point) := List.map_map
    rw [← casts] at distinct
    exact distinct.of_map _
  let terms := shares.zipIdx.map fun sh => sh.1.2 * weight p sh.1.1 (shares.eraseIdx sh.2)
  have folded : reconstruct p shares =
      .ok (terms.foldl (fun secret term => (secret + term) % (p : ℤ)) 0) := by
    rw [reconstruct, if_neg (by omega), if_neg (not_not.mpr distinctX), List.foldl_map]
  refine ⟨_, folded, ?_, ?_⟩
  · rw [← foldl_add_reduced terms (Int.zero_emod _)]
    exact emod_range _
  · have congruent := foldl_add_emod p terms 0
    rw [zero_add, ← ZMod.intCast_eq_intCast_iff] at congruent
    rw [congruent, Int.cast_list_sum, atZero, List.zipIdx_map, List.map_map, List.map_map]
    refine congrArg List.sum (List.map_congr_left fun sh member => ?_)
    obtain ⟨entry, i⟩ := sh
    have found : shares[i]? = some entry := List.mk_mem_zipIdx_iff_getElem?.mp member
    have others : ∀ other ∈ shares.eraseIdx i, (entry.1 : ZMod p) ≠ other.1 := by
      intro other among same
      obtain ⟨k, ne, foundOther⟩ := List.mem_eraseIdx_iff_getElem?.mp among
      have x : ((shares.map point).map Prod.fst)[i]? = some (entry.1 : ZMod p) := by
        simp [found, point]
      have xOther : ((shares.map point).map Prod.fst)[k]? = some (entry.1 : ZMod p) := by
        simp [foundOther, point, same]
      have inside : i < ((shares.map (point (p := p))).map Prod.fst).length :=
        (List.getElem?_eq_some_iff.mp x).1
      exact ne ((List.getElem?_inj inside distinct).mp (x.trans xOther.symm)).symm
    simp only [Function.comp_apply, Int.cast_mul, cast_weight others, Prod.map, id,
      List.eraseIdx_map, List.map_map]
    rfl

end

/-! Shares of a polynomial. -/

section
variable {p : ℕ} [Fact p.Prime] {t : ℕ}

/-- The polynomial of a list of coefficients. -/
noncomputable def polynomial (coeffs : List ℤ) : Polynomial (ZMod p) :=
  ofCoeffs (coeffs.map (Int.cast : ℤ → ZMod p))

theorem cast_evalAt (coeffs : List ℤ) (x : ℤ) :
    (evalAt p coeffs x : ZMod p) = (polynomial coeffs).eval (x : ZMod p) := by
  have running : ∀ (cs : List ℤ) (acc : ℤ × ℤ),
      ((cs.foldl (fun acc c => ((acc.1 + c * acc.2) % (p : ℤ), (acc.2 * x) % (p : ℤ))) acc).1 :
        ZMod p) = acc.1 + acc.2 * (polynomial cs).eval (x : ZMod p) := by
    intro cs
    induction cs with
    | nil => simp [polynomial, ofCoeffs]
    | cons c cs ih =>
      intro acc
      rw [List.foldl_cons, ih, polynomial, polynomial, List.map_cons, eval_ofCoeffs_cons, cast_emod,
        cast_emod]
      push_cast
      ring
  rw [evalAt, running]
  simp

theorem evalAt_range (c : ℤ) (cs : List ℤ) (x : ℤ) :
    0 ≤ evalAt p (c :: cs) x ∧ evalAt p (c :: cs) x < p := by
  have running : ∀ (cs : List ℤ) (acc : ℤ × ℤ), (0 ≤ acc.1 ∧ acc.1 < p) →
      0 ≤ (cs.foldl (fun acc c =>
        ((acc.1 + c * acc.2) % (p : ℤ), (acc.2 * x) % (p : ℤ))) acc).1 ∧
      (cs.foldl (fun acc c =>
        ((acc.1 + c * acc.2) % (p : ℤ), (acc.2 * x) % (p : ℤ))) acc).1 < p := by
    intro cs
    induction cs with
    | nil => exact fun _ reduced => reduced
    | cons c cs ih => exact fun acc _ => ih _ (emod_range (p := p) _)
  exact running cs _ (emod_range (p := p) _)

theorem degree_coeffList (two : 2 ≤ t) (secret : ℤ) (random : Coefficients p t) :
    (polynomial (p := p) (coeffList p secret random)).degree < t := by
  have low := degree_ofCoeffs_lt ((coeffList p secret random).map (Int.cast : ℤ → ZMod p))
  have length : ((coeffList p secret random).map (Int.cast : ℤ → ZMod p)).length = t := by
    simp only [coeffList, List.map_cons, List.length_cons, List.length_map, random.count]
    omega
  rwa [length] at low

theorem eval_zero_coeffList (secret : ℤ) (random : Coefficients p t) :
    (polynomial (coeffList p secret random)).eval 0 = (secret : ZMod p) :=
  eval_zero_ofCoeffs _ _

/-! Holders: coordinates from 1 to `n`, below the prime. -/

/-- A share of the holder with number `i`, on the polynomial. -/
def Holds (f : Polynomial (ZMod p)) (n : ℕ) (sh : Share) : Prop :=
  ∃ i < n, sh.1 = (i : ℤ) + 1 ∧ f.eval (sh.1 : ZMod p) = (sh.2 : ZMod p)

variable {n : ℕ}

theorem holder_coordinate {f : Polynomial (ZMod p)} {sh : Share} (holds : Holds f n sh) :
    ∃ i ≤ n, sh.1 = (i : ℤ) := by
  obtain ⟨i, bound, numbered, _⟩ := holds
  exact ⟨i + 1, bound, by rw [numbered]; push_cast; rfl⟩

/-- Coordinates of holders differ in the field, and from zero. -/
theorem coordinate_inj (small : n < p) {i j : ℕ} (hi : i ≤ n) (hj : j ≤ n)
    (same : ((i : ℤ) : ZMod p) = ((j : ℤ) : ZMod p)) : i = j := by
  have equal := eq_of_cast (p := p) (a := i) (b := j) (by omega) (by omega) same
  omega

theorem points_distinct (small : n < p) {chosen : List Share}
    (each : ∀ sh ∈ chosen, ∃ i ≤ n, sh.1 = (i : ℤ)) (nodup : (chosen.map Prod.fst).Nodup) :
    ((chosen.map (point (p := p))).map Prod.fst).Nodup := by
  have casts : (chosen.map (point (p := p))).map Prod.fst =
      (chosen.map Prod.fst).map (Int.cast : ℤ → ZMod p) := by
    rw [List.map_map, List.map_map]
    rfl
  rw [casts]
  refine nodup.map_on fun x hx y hy same => ?_
  obtain ⟨a, ha, rfl⟩ := List.mem_map.mp hx
  obtain ⟨b, hb, rfl⟩ := List.mem_map.mp hy
  obtain ⟨i, iBound, xi⟩ := each a ha
  obtain ⟨j, jBound, xj⟩ := each b hb
  rw [xi, xj] at same ⊢
  rw [coordinate_inj small iBound jBound same]

/-- Any holders, as many as coefficients, reconstruct the value at zero. -/
theorem reconstruct_holders (small : n < p) {f : Polynomial (ZMod p)} {chosen : List Share}
    (two : 2 ≤ chosen.length) (low : f.degree < chosen.length)
    (each : ∀ sh ∈ chosen, Holds f n sh) (nodup : (chosen.map Prod.fst).Nodup) {secret : ℤ}
    (range : 0 ≤ secret ∧ secret < p) (value : f.eval 0 = (secret : ZMod p)) :
    reconstruct p chosen = .ok secret := by
  have distinct := points_distinct small
    (fun sh member => holder_coordinate (each sh member)) nodup
  obtain ⟨found, reconstructed, foundRange, cast⟩ := reconstruct_cast two distinct
  have through : ∀ pt ∈ chosen.map (point (p := p)), f.eval pt.1 = pt.2 := by
    intro pt member
    obtain ⟨sh, among, rfl⟩ := List.mem_map.mp member
    obtain ⟨_, _, _, on⟩ := each sh among
    exact on
  have atZero := atZero_eq distinct (by rwa [List.length_map]) through
  rw [reconstructed]
  exact congrArg Except.ok (eq_of_cast foundRange range (by rw [cast, atZero, value]))

theorem coordinates_nodup {holder : ℕ → Share} (numbered : ∀ i, (holder i).1 = (i : ℤ) + 1)
    {chosen : List Share} (nodup : chosen.Nodup) (among : ∀ sh ∈ chosen, sh ∈ tabulate n holder) :
    (chosen.map Prod.fst).Nodup := by
  refine nodup.map_on fun a ha b hb same => ?_
  obtain ⟨i, _, rfl⟩ := List.mem_map.mp (among a ha)
  obtain ⟨j, _, rfl⟩ := List.mem_map.mp (among b hb)
  rw [numbered, numbered] at same
  have equal : i = j := by omega
  rw [equal]

theorem deal_holds {coeffs : List ℤ} {sh : Share} (dealt : sh ∈ deal p coeffs n) :
    Holds (p := p) (polynomial coeffs) n sh := by
  obtain ⟨i, bound, rfl⟩ := List.mem_map.mp dealt
  exact ⟨i, List.mem_range.mp bound, rfl, (cast_evalAt coeffs _).symm⟩

theorem mem_deal_of_eval {c : ℤ} {cs : List ℤ} {sh : Share} {i : ℕ} (bound : i < n)
    (numbered : sh.1 = (i : ℤ) + 1) (range : 0 ≤ sh.2 ∧ sh.2 < p)
    (on : (polynomial (c :: cs)).eval (sh.1 : ZMod p) = (sh.2 : ZMod p)) :
    sh ∈ deal p (c :: cs) n := by
  refine List.mem_map.mpr ⟨i, List.mem_range.mpr bound, ?_⟩
  rw [← numbered]
  refine Prod.ext rfl (eq_of_cast (p := p) (evalAt_range c cs _) range ?_)
  rw [cast_evalAt, on]

omit [Fact p.Prime] in
theorem split_eq {secret : ℤ} (range : 0 ≤ secret ∧ secret < p) (two : 2 ≤ t) (enough : t ≤ n)
    (random : Coefficients p t) :
    split p secret n t random = .ok (deal p (coeffList p secret random) n) := by
  rw [split, if_neg (not_not.mpr range), if_neg (by omega), if_neg (by omega)]

omit [Fact p.Prime] in
/-- Sharing answers only secrets in range, with the values of their polynomial. -/
theorem deal_of_split {secret : ℤ} {random : Coefficients p t} {shares : List Share}
    (answer : split p secret n t random = .ok shares) :
    (0 ≤ secret ∧ secret < p) ∧ shares = deal p (coeffList p secret random) n := by
  rw [split] at answer
  split_ifs at answer with outside low few
  exact ⟨outside, (Except.ok.inj answer).symm⟩

omit [Fact p.Prime] in
theorem deals_of_splits {family : List (ℤ × Coefficients p t)} {dealt : List (List Share)}
    (splits : List.Forall₂ (fun x shares => split p x.1 n t x.2 = .ok shares) family dealt) :
    dealt = family.map fun x => deal p (coeffList p x.1 x.2) n := by
  induction splits with
  | nil => rfl
  | cons answer _ ih => rw [List.map_cons, ← (deal_of_split answer).2, ih]

/-! Fewer holders than coefficients. -/

/-- The random coefficients of a polynomial of low degree. -/
noncomputable def randomOf (f : Polynomial (ZMod p)) : Coefficients p t where
  values := (List.range (t - 1)).map fun i => (f.coeff (i + 1)).val
  count := by simp
  below := by
    intro c member
    obtain ⟨i, _, rfl⟩ := List.mem_map.mp member
    exact ZMod.val_lt _

theorem polynomial_randomOf (two : 2 ≤ t) {f : Polynomial (ZMod p)} (low : f.degree < t)
    {secret : ℤ} (value : f.eval 0 = (secret : ZMod p)) :
    polynomial (coeffList p secret (randomOf (t := t) f)) = f := by
  have coefficients : (coeffList p secret (randomOf (t := t) f)).map (Int.cast : ℤ → ZMod p) =
      (List.range t).map f.coeff := by
    obtain ⟨k, rfl⟩ : ∃ k, t = k + 1 := ⟨t - 1, by omega⟩
    rw [List.range_succ_eq_map, coeffList, List.map_cons, List.map_cons, ← value,
      Polynomial.coeff_zero_eq_eval_zero]
    simp [randomOf]
  rw [polynomial, coefficients, ofCoeffs_coeffs low]

theorem coefficients_unique {secret : ℤ} {random random' : Coefficients p t}
    (same : polynomial (p := p) (coeffList p secret random) =
      polynomial (coeffList p secret random')) : random = random' := by
  have lists := ofCoeffs_injective (by simp [coeffList, random.count, random'.count]) same
  simp only [coeffList, List.map_cons, List.cons.injEq, true_and, List.map_map] at lists
  refine Coefficients.ext (List.ext_getElem (by rw [random.count, random'.count]) fun i hi hi' => ?_)
  have entry := congrArg (fun cs => cs[i]?) lists
  simp only [List.getElem?_map, List.getElem?_eq_getElem hi, List.getElem?_eq_getElem hi',
    Option.map_some, Function.comp_apply, Option.some.injEq] at entry
  have first := random.below _ (List.getElem_mem hi)
  have second := random'.below _ (List.getElem_mem hi')
  have equal := eq_of_cast (p := p) ⟨Int.natCast_nonneg _, by exact_mod_cast first⟩
    ⟨Int.natCast_nonneg _, by exact_mod_cast second⟩ entry
  exact_mod_cast equal

/-- Shares of all but one of the needed holders fit every secret in exactly one way. -/
theorem existsUnique_random (small : n < p) (two : 2 ≤ t) {chosen : List Share}
    (each : ∀ sh ∈ chosen, (0 ≤ sh.2 ∧ sh.2 < p) ∧ ∃ i < n, sh.1 = (i : ℤ) + 1)
    (nodup : (chosen.map Prod.fst).Nodup) (few : chosen.length = t - 1) (candidate : ℤ) :
    ∃! random : Coefficients p t, ∀ sh ∈ chosen, sh ∈ deal p (coeffList p candidate random) n := by
  have points : ((((0 : ZMod p), (candidate : ZMod p)) :: chosen.map point).map Prod.fst).Nodup := by
    have numbered : ∀ sh ∈ ((0, candidate) : Share) :: chosen, ∃ i ≤ n, sh.1 = (i : ℤ) := by
      intro sh member
      rcases List.mem_cons.mp member with rfl | among
      · exact ⟨0, Nat.zero_le n, rfl⟩
      · obtain ⟨_, i, bound, coordinate⟩ := each sh among
        exact ⟨i + 1, bound, by rw [coordinate]; push_cast; rfl⟩
    have distinct : ((((0, candidate) : Share) :: chosen).map Prod.fst).Nodup := by
      refine List.nodup_cons.mpr ⟨fun zero => ?_, nodup⟩
      obtain ⟨sh, among, coordinate⟩ := List.mem_map.mp zero
      obtain ⟨_, i, _, positive⟩ := each sh among
      omega
    simpa [point] using points_distinct small numbered distinct
  obtain ⟨f, ⟨low, through⟩, unique⟩ := existsUnique_through points
  have size : (((0 : ZMod p), (candidate : ZMod p)) :: chosen.map point).length = t := by
    simp [few]
    omega
  rw [size] at low
  have value := through _ List.mem_cons_self
  have recovered := polynomial_randomOf two low value
  refine ⟨randomOf f, fun sh member => ?_, fun random fits => ?_⟩
  · obtain ⟨range, i, bound, numbered⟩ := each sh member
    apply mem_deal_of_eval bound numbered range
    rw [coeffList] at recovered
    rw [recovered]
    exact through _ (List.mem_cons_of_mem _ (List.mem_map_of_mem member))
  · have same : polynomial (coeffList p candidate random) = f := by
      refine unique _ ⟨by rw [size]; exact degree_coeffList two candidate random, fun pt member => ?_⟩
      rcases List.mem_cons.mp member with rfl | among
      · exact eval_zero_coeffList candidate random
      · obtain ⟨sh, chosen, rfl⟩ := List.mem_map.mp among
        obtain ⟨_, _, _, on⟩ := deal_holds (fits sh chosen)
        exact on
    exact coefficients_unique (same.trans recovered.symm)

/-! The holders' sums. -/

/-- The polynomials of a family of secrets, summed. -/
noncomputable def sumPolynomial (family : List (ℤ × Coefficients p t)) : Polynomial (ZMod p) :=
  (family.map fun x => polynomial (coeffList p x.1 x.2)).sum

/-- The summed share of a holder. -/
def summedAt (family : List (ℤ × Coefficients p t)) (i : ℕ) : Share :=
  ((i : ℤ) + 1, (family.map fun x => evalAt p (coeffList p x.1 x.2) ((i : ℤ) + 1)).foldl
    (fun held value => (held + value) % (p : ℤ)) 0)

omit [Fact p.Prime] in
theorem sumShares_eq (family : List (ℤ × Coefficients p t)) :
    sumShares p n (family.map fun x => deal p (coeffList p x.1 x.2) n) =
      tabulate n (summedAt family) := by
  have dealt : (family.map fun x => deal p (coeffList p x.1 x.2) n) =
      (family.map fun x (i : ℕ) =>
        (((i : ℤ) + 1, evalAt p (coeffList p x.1 x.2) ((i : ℤ) + 1)) : Share)).map (tabulate n) := by
    rw [List.map_map]
    rfl
  have columns := foldl_zipWith_tabulate
    (fun held share : Share => (held.1, (held.2 + share.2) % (p : ℤ))) n
    (family.map fun x (i : ℕ) =>
      (((i : ℤ) + 1, evalAt p (coeffList p x.1 x.2) ((i : ℤ) + 1)) : Share))
    fun i => ((i : ℤ) + 1, 0)
  have second : ∀ (shares : List Share) (x y : ℤ),
      shares.foldl (fun held share => (held.1, (held.2 + share.2) % (p : ℤ))) (x, y) =
        (x, (shares.map Prod.snd).foldl (fun held value => (held + value) % (p : ℤ)) y) := by
    intro shares
    induction shares with
    | nil => exact fun _ _ => rfl
    | cons share rest ih => exact fun x y => ih x _
  rw [sumShares, dealt]
  refine columns.trans (tabulate_congr fun i _ => ?_)
  rw [second, List.map_map, List.map_map]
  rfl

theorem cast_summedAt (family : List (ℤ × Coefficients p t)) (i : ℕ) :
    ((summedAt family i).2 : ZMod p) =
      (sumPolynomial family).eval (((i : ℤ) + 1 : ℤ) : ZMod p) := by
  have congruent := foldl_add_emod p
    (family.map fun x => evalAt p (coeffList p x.1 x.2) ((i : ℤ) + 1)) 0
  rw [zero_add, ← ZMod.intCast_eq_intCast_iff] at congruent
  rw [summedAt, congruent, sumPolynomial, Int.cast_list_sum, ← Polynomial.coe_evalRingHom,
    map_list_sum, List.map_map, List.map_map]
  exact congrArg List.sum (List.map_congr_left fun x _ => cast_evalAt _ _)

theorem sumShares_holds {family : List (ℤ × Coefficients p t)} {sh : Share}
    (summed : sh ∈ sumShares p n (family.map fun x => deal p (coeffList p x.1 x.2) n)) :
    Holds (sumPolynomial family) n sh := by
  rw [sumShares_eq] at summed
  obtain ⟨i, bound, rfl⟩ := List.mem_map.mp summed
  exact ⟨i, List.mem_range.mp bound, rfl, (cast_summedAt family i).symm⟩

theorem degree_sumPolynomial (two : 2 ≤ t) (family : List (ℤ × Coefficients p t)) :
    (sumPolynomial family).degree < t := by
  rw [sumPolynomial]
  induction family with
  | nil => simp [bot_lt_iff_ne_bot]
  | cons x rest ih =>
    rw [List.map_cons, List.sum_cons]
    exact (Polynomial.degree_add_le _ _).trans_lt (max_lt (degree_coeffList two x.1 x.2) ih)

theorem eval_zero_sumPolynomial (family : List (ℤ × Coefficients p t)) :
    (sumPolynomial family).eval 0 = (((family.map Prod.fst).sum % p : ℤ) : ZMod p) := by
  rw [cast_emod, sumPolynomial, Int.cast_list_sum, ← Polynomial.coe_evalRingHom, map_list_sum,
    List.map_map, List.map_map]
  exact congrArg List.sum (List.map_congr_left fun x _ => eval_zero_coeffList x.1 x.2)

end

/-- Shamir sharing is correct and additively homomorphic, and fewer shares than the
    threshold fit every secret in exactly one way. -/
theorem shamir_sharing (p t n : ℕ) (prime : p.Prime) (two : 2 ≤ t) (enough : t ≤ n)
    (small : n < p) :
    (∀ (secret : ℤ) (random : Coefficients p t), 0 ≤ secret ∧ secret < p →
      ∃ shares, split p secret n t random = .ok shares ∧
        ∀ chosen : List Share, chosen.Nodup → (∀ sh ∈ chosen, sh ∈ shares) →
          t ≤ chosen.length → reconstruct p chosen = .ok secret) ∧
    (∀ (family : List (ℤ × Coefficients p t)) (dealt : List (List Share)),
      List.Forall₂ (fun x shares => split p x.1 n t x.2 = .ok shares) family dealt →
        ∀ chosen : List Share, chosen.Nodup → (∀ sh ∈ chosen, sh ∈ sumShares p n dealt) →
          t ≤ chosen.length → reconstruct p chosen = .ok ((family.map Prod.fst).sum % p)) ∧
    (∀ (secret : ℤ) (random : Coefficients p t) (shares chosen : List Share),
      split p secret n t random = .ok shares → chosen.Nodup → (∀ sh ∈ chosen, sh ∈ shares) →
        chosen.length = t - 1 → ∀ candidate : ℤ, 0 ≤ candidate ∧ candidate < p →
          ∃! random' : Coefficients p t, ∃ shares', split p candidate n t random' = .ok shares' ∧
            ∀ sh ∈ chosen, sh ∈ shares') := by
  have : Fact p.Prime := ⟨prime⟩
  refine ⟨fun secret random range => ?_, fun family dealt splits chosen nodup among many => ?_,
    fun secret random shares chosen dealt nodup among few candidate range => ?_⟩
  · refine ⟨_, split_eq range two enough random, fun chosen nodup among many => ?_⟩
    have low := degree_coeffList two secret random
    exact reconstruct_holders small (by omega)
      (low.trans_le (by exact_mod_cast many)) (fun sh member => deal_holds (among sh member))
      (coordinates_nodup (fun _ => rfl) nodup among) range (eval_zero_coeffList secret random)
  · obtain rfl := deals_of_splits splits
    have low := degree_sumPolynomial two family
    have named : ∀ sh ∈ chosen, sh ∈ tabulate n (summedAt family) := by
      rw [← sumShares_eq]
      exact among
    exact reconstruct_holders small (by omega) (low.trans_le (by exact_mod_cast many))
      (fun sh member => sumShares_holds (among sh member))
      (coordinates_nodup (fun _ => rfl) nodup named) (emod_range _) (eval_zero_sumPolynomial family)
  · obtain ⟨_, rfl⟩ := deal_of_split dealt
    have each : ∀ sh ∈ chosen, (0 ≤ sh.2 ∧ sh.2 < p) ∧ ∃ i < n, sh.1 = (i : ℤ) + 1 := by
      intro sh member
      obtain ⟨i, bound, rfl⟩ := List.mem_map.mp (among sh member)
      exact ⟨evalAt_range _ _ _, i, List.mem_range.mp bound, rfl⟩
    have distinct := coordinates_nodup (fun _ => rfl) nodup among
    obtain ⟨random', fits, unique⟩ := existsUnique_random small two each distinct few candidate
    refine ⟨random', ⟨_, split_eq range two enough random', fits⟩, fun other fitsOther => ?_⟩
    obtain ⟨shares', answer, inside⟩ := fitsOther
    rw [(deal_of_split answer).2] at inside
    exact unique other inside

/-- Two of three holders of secrets below seven. -/
theorem shamir_sharing_seven :
    ∃ shares, split 7 5 3 2 ⟨[3], rfl, by decide⟩ = .ok shares ∧
      reconstruct 7 (shares.drop 1) = .ok 5 := by
  have prime : Nat.Prime 7 := by norm_num
  obtain ⟨shares, answer, reconstructs⟩ :=
    (shamir_sharing 7 2 3 prime (by decide) (by decide) (by decide)).1 5 ⟨[3], rfl, by decide⟩
      (by decide)
  have dealt : split 7 5 3 2 ⟨[3], rfl, by decide⟩ = .ok [(1, 1), (2, 4), (3, 0)] := by decide
  obtain rfl := Except.ok.inj (answer.symm.trans dealt)
  exact ⟨_, answer, reconstructs _ (by decide) (by decide) (by decide)⟩

end HorizonRic.ShamirSecretSharing
