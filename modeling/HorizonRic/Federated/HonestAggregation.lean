import HorizonRic.Federated.VerifiableSecagg
import Mathlib.Data.ZMod.Basic
import Mathlib.GroupTheory.OrderOfElement
import Mathlib.Tactic.NormNum.Prime

/-!
Honest aggregation is exact and verified. The masks cancel in the sum of both
servers, the sum decodes exactly while it stays within half the field, and its
power of the generator is the product of the commitments.
-/
namespace HorizonRic.VerifiableSecagg
open Py Coordinates

/-- The generator has order `q` modulo `p`. -/
structure ModpGroup.Generates (g : ModpGroup) : Prop where
  large : 1 < g.p
  pos : 0 < g.q
  order : orderOf (generator : ZMod g.p) = g.q

/-- A safe prime and a generator of its subgroup of prime order. -/
structure ModpGroup.Valid (g : ModpGroup) : Prop where
  safe : g.p = 2 * g.q + 1
  primeP : g.p.Prime
  primeQ : g.q.Prime
  order : orderOf (generator : ZMod g.p) = g.q

/-- A client: its update and the bytes its generator draws. -/
structure Client where
  values : List ℚ
  draw : ℕ → ℕ

def Client.quantized (c : Client) (j : ℕ) : ℤ := quantize (c.values.getD j 0)

/-- What the clients quantized in one coordinate, summed. -/
def coordinateSum (clients : List Client) (j : ℕ) : ℤ := (clients.map (·.quantized j)).sum

namespace ModpGroup
variable (g : ModpGroup)

def contribution (c : Client) : ClientContribution := g.splitContribution c.values c.draw

theorem Valid.generates {g : ModpGroup} (valid : g.Valid) : g.Generates :=
  ⟨valid.primeP.one_lt, valid.primeQ.pos, valid.order⟩

/-- The order is odd: 2 has order 4 modulo 5. -/
theorem Valid.odd {g : ModpGroup} (valid : g.Valid) : g.q % 2 = 1 := by
  rcases valid.primeQ.eq_two_or_odd with two | odd
  · exfalso
    have order := valid.order
    obtain ⟨p, q⟩ := g
    have five : p = 5 := by have := valid.safe; simp only at two this; omega
    simp only at two
    subst five two
    have square := pow_orderOf_eq_one (generator : ZMod 5)
    rw [order] at square
    revert square
    decide
  · exact odd

/-- Residues within half the field decode to the integer they stand for. -/
theorem decode_emod (odd : g.q % 2 = 1) {s : ℤ} (bound : 2 * |s| ≤ g.q) :
    g.decode (s % g.q) = (s : ℚ) / quantScale := by
  have half : 2 * s ≤ g.q ∧ -(2 * s) ≤ g.q := by
    constructor
    · linarith [le_abs_self s]
    · linarith [neg_abs_le s]
  simp only [decode, Int.emod_emod]
  by_cases negative : s < 0
  · have wrapped : s % (g.q : ℤ) = s + g.q := by
      rw [← Int.add_emod_right, Int.emod_eq_of_lt (by omega) (by omega)]
    rw [wrapped, if_pos (by omega)]
    simp
  · have plain : s % (g.q : ℤ) = s := Int.emod_eq_of_lt (by omega) (by omega)
    rw [plain, if_neg (by omega)]

theorem powG_eq_of_modEq {g : ModpGroup} (generates : g.Generates) {a b : ℤ} (ha : 0 ≤ a) (hb : 0 ≤ b)
    (same : a ≡ b [ZMOD g.q]) : g.powG a = g.powG b := by
  have nat : a.toNat ≡ b.toNat [MOD orderOf (generator : ZMod g.p)] := by
    rw [generates.order, ← Int.natCast_modEq_iff, Int.toNat_of_nonneg ha, Int.toNat_of_nonneg hb]
    exact same
  have powers : (generator : ZMod g.p) ^ a.toNat = (generator : ZMod g.p) ^ b.toNat :=
    by rw [← pow_mod_orderOf, nat, pow_mod_orderOf]
  have congruent : generator ^ a.toNat ≡ generator ^ b.toNat [ZMOD g.p] := by
    rw [← ZMod.intCast_eq_intCast_iff, Int.cast_pow, Int.cast_pow]
    exact powers
  unfold powG
  exact congruent

theorem powG_sum {exponents : List ℤ} (nonneg : ∀ e ∈ exponents, 0 ≤ e) :
    (exponents.map g.powG).prod ≡ generator ^ exponents.sum.toNat [ZMOD g.p] := by
  induction exponents with
  | nil => exact Int.ModEq.refl _
  | cons e rest ih =>
    have restNonneg : ∀ e ∈ rest, 0 ≤ e := fun e member => nonneg e (List.mem_cons_of_mem _ member)
    have sum : (e + rest.sum).toNat = e.toNat + rest.sum.toNat :=
      Int.toNat_add (nonneg e List.mem_cons_self) (List.sum_nonneg restNonneg)
    simp only [List.map_cons, List.prod_cons, List.sum_cons, sum, pow_add]
    exact (Int.mod_modEq _ _).mul (ih restNonneg)

/-- The product of the commitments of coordinate `j`, each one found. -/
theorem commitProduct_eq {j : ℕ} {commitments : List (List ℤ)} {f : List ℤ → ℤ}
    (found : ∀ row ∈ commitments, row[j]? = some (f row)) (prod : ℤ) :
    g.commitProduct j commitments prod =
      .ok ((commitments.map f).foldl (fun prod c => prod * c % g.p) prod) := by
  induction commitments generalizing prod with
  | nil => rfl
  | cons c rest ih =>
    simp only [commitProduct, found c List.mem_cons_self, List.map_cons, List.foldl_cons]
    exact ih (fun c' member => found c' (List.mem_cons_of_mem _ member)) _

theorem checkSums_true {exponent : ℤ → ℤ} {commitments : List (List ℤ)} {sums : List ℤ}
    {j : ℕ} (matched : ∀ i s, sums[i]? = some s →
      g.commitProduct (j + i) commitments 1 = .ok (g.powG (exponent s))) :
    g.checkSums exponent commitments j sums = .ok true := by
  induction sums generalizing j with
  | nil => rfl
  | cons s rest ih =>
    have first := matched 0 s rfl
    rw [Nat.add_zero] at first
    rw [checkSums, first]
    have later := ih (j := j + 1) (by
      intro i s' found
      have := matched (i + 1) s' found
      rwa [Nat.add_assoc, Nat.add_comm 1 i])
    simpa [bind, Except.bind] using later

/-- Both checks agree on sums that are residues already. -/
theorem checkSums_reduced {commitments : List (List ℤ)} {sums : List ℤ}
    (reduced : ∀ s ∈ sums, s % (g.q : ℤ) = s) (j : ℕ) :
    g.checkSums (· % (g.q : ℤ)) commitments j sums = g.checkSums id commitments j sums := by
  induction sums generalizing j with
  | nil => rfl
  | cons s rest ih =>
    have restReduced := ih fun s member => reduced s (List.mem_cons_of_mem _ member)
    simp only [checkSums, reduced s List.mem_cons_self, restReduced, id]

section
variable {g : ModpGroup} {n : ℕ} {clients : List Client}

theorem shareA_tabulate (g : ModpGroup) (c : Client) :
    (g.contribution c).shareA =
      tabulate c.values.length (fun j => g.randBelow (c.draw j)) := rfl

theorem encoded_tabulate (g : ModpGroup) (c : Client) :
    c.values.map g.encode = tabulate c.values.length (fun j => c.quantized j % g.q) := by
  conv_lhs => rw [eq_tabulate c.values 0, map_tabulate]
  rfl

theorem shareB_tabulate (g : ModpGroup) (c : Client) :
    (g.contribution c).shareB = tabulate c.values.length
      (fun j => (c.quantized j % g.q - g.randBelow (c.draw j)) % g.q) := by
  have masks : (List.range c.values.length).map (fun i => g.randBelow (c.draw i)) =
      tabulate c.values.length (fun i => g.randBelow (c.draw i)) := rfl
  simp only [contribution, splitContribution, encoded_tabulate, masks, zipWith_tabulate]

theorem commitments_tabulate (g : ModpGroup) (c : Client) :
    (g.contribution c).commitments =
      tabulate c.values.length (fun j => g.powG (c.quantized j % g.q)) := by
  simp only [contribution, splitContribution, encoded_tabulate, map_tabulate]

theorem commitment_at (g : ModpGroup) (c : Client) {j : ℕ} (bound : j < c.values.length) :
    (g.contribution c).commitments[j]? = some (g.powG (c.quantized j % g.q)) := by
  rw [commitments_tabulate, getElem?_tabulate _ bound]

theorem serverSum_tabulate (g : ModpGroup) (shares : Client → List ℤ) {f : Client → ℕ → ℤ}
    (tab : ∀ c ∈ clients, shares c = tabulate n (f c)) (nonempty : clients ≠ []) :
    ∃ sum : ℕ → ℤ, g.serverSum (clients.map shares) = .ok (tabulate n sum) ∧
      ∀ j, sum j ≡ (clients.map fun c => f c j).sum [ZMOD g.q] := by
  cases clients with
  | nil => exact absurd rfl nonempty
  | cons first rest =>
    have restTab : rest.map shares = (rest.map f).map (tabulate n) := by
      rw [List.map_map]
      exact List.map_congr_left fun c member => tab c (List.mem_cons_of_mem _ member)
    refine ⟨fun j => ((rest.map f).map fun h => h j).foldl (fun x y => (x + y) % (g.q : ℤ))
      (f first j), ?_, fun j => ?_⟩
    · simp only [List.map_cons, serverSum, tab first List.mem_cons_self, restTab]
      exact congrArg Except.ok (foldl_zipWith_tabulate _ n _ _)
    · have total := foldl_add_emod (g.q : ℤ) ((rest.map f).map fun h => h j) (f first j)
      simpa only [List.map_map, Function.comp_def, List.map_cons, List.sum_cons] using total

/-- The masks cancel: the field sum is the sum of what the clients encoded. -/
theorem fieldSum_honest (g : ModpGroup) (sameLength : ∀ c ∈ clients, c.values.length = n)
    (nonempty : clients ≠ []) :
    g.fieldSum (clients.map g.contribution) =
      .ok (tabulate n (fun j => coordinateSum clients j % g.q)) := by
  obtain ⟨sumA, hA, congA⟩ := serverSum_tabulate g
    (fun c => (g.contribution c).shareA) (fun c member => by
      rw [shareA_tabulate, sameLength c member]) nonempty
  obtain ⟨sumB, hB, congB⟩ := serverSum_tabulate g
    (fun c => (g.contribution c).shareB) (fun c member => by
      rw [shareB_tabulate, sameLength c member]) nonempty
  simp only [fieldSum, List.map_map, Function.comp_def, hA, hB, bind, Except.bind, addShares,
    zipWith_tabulate]
  refine congrArg Except.ok (tabulate_congr fun j _ => ?_)
  have masksCancel : (clients.map fun c => g.randBelow (c.draw j)).sum +
      (clients.map fun c => (c.quantized j % g.q - g.randBelow (c.draw j)) % g.q).sum ≡
        coordinateSum clients j [ZMOD g.q] := by
    rw [← List.sum_map_add]
    apply sum_modEq _ _ fun c _ =>
    calc g.randBelow (c.draw j) + (c.quantized j % g.q - g.randBelow (c.draw j)) % g.q
        ≡ g.randBelow (c.draw j) + (c.quantized j % g.q - g.randBelow (c.draw j)) [ZMOD g.q] :=
          (Int.mod_modEq _ _).add_left _
      _ = c.quantized j % g.q := by ring
      _ ≡ c.quantized j [ZMOD g.q] := Int.mod_modEq _ _
  exact ((congA j).add (congB j)).trans masksCancel

/-- In every coordinate the commitments multiply to the power of the field sum. -/
theorem commitProduct_honest (generates : g.Generates)
    (sameLength : ∀ c ∈ clients, c.values.length = n) {j : ℕ} (bound : j < n) :
    g.commitProduct j (clients.map fun c => (g.contribution c).commitments) 1 =
      .ok (g.powG (coordinateSum clients j % g.q)) := by
  have qPos : (0 : ℤ) < g.q := by exact_mod_cast generates.pos
  have pLarge : (1 : ℤ) < g.p := by exact_mod_cast generates.large
  have nonneg : ∀ e ∈ clients.map (fun c => c.quantized j % (g.q : ℤ)), 0 ≤ e := by
    intro e member
    obtain ⟨c, _, rfl⟩ := List.mem_map.mp member
    exact Int.emod_nonneg _ qPos.ne'
  have exponents : (clients.map fun c => c.quantized j % (g.q : ℤ)).sum ≡
      coordinateSum clients j % g.q [ZMOD g.q] :=
    (sum_modEq _ _ fun c _ => Int.mod_modEq _ _).trans (Int.mod_modEq _ _).symm
  have found : ∀ commitments ∈ clients.map (fun c => (g.contribution c).commitments),
      commitments[j]? = some (commitments.getD j 0) := by
    intro commitments member
    obtain ⟨c, hc, rfl⟩ := List.mem_map.mp member
    rw [List.getD_eq_getElem?_getD, commitment_at g c (by rw [sameLength c hc]; exact bound)]
    rfl
  have each : clients.map ((fun commitments : List ℤ => commitments.getD j 0) ∘
      fun c => (g.contribution c).commitments) =
      (clients.map fun c => c.quantized j % (g.q : ℤ)).map g.powG := by
    rw [List.map_map]
    refine List.map_congr_left fun c hc => ?_
    simp only [Function.comp_apply, List.getD_eq_getElem?_getD]
    rw [commitment_at g c (by rw [sameLength c hc]; exact bound)]
    rfl
  rw [commitProduct_eq g found, List.map_map, each]
  have reduced := foldl_mul_reduced ((clients.map fun c => c.quantized j % (g.q : ℤ)).map g.powG)
    (Int.emod_eq_of_lt (by omega) pLarge)
  have product : ((clients.map fun c => c.quantized j % (g.q : ℤ)).map g.powG).foldl
      (fun prod c => prod * c % g.p) 1 ≡
        generator ^ (clients.map fun c => c.quantized j % (g.q : ℤ)).sum.toNat [ZMOD g.p] := by
    apply (foldl_mul_emod _ _ _).trans
    rw [one_mul]
    exact g.powG_sum nonneg
  apply congrArg Except.ok
  calc _ = g.powG (clients.map fun c => c.quantized j % (g.q : ℤ)).sum := by
        rw [← reduced]
        exact product
    _ = g.powG (coordinateSum clients j % g.q) :=
        powG_eq_of_modEq generates (List.sum_nonneg nonneg) (Int.emod_nonneg _ qPos.ne') exponents

theorem reconstruct_honest (valid : g.Valid) (c : Client)
    (bound : ∀ x ∈ c.values, 2 * |quantize x| ≤ g.q) :
    g.reconstructContribution (g.contribution c) =
      .ok (c.values.map fun x => (quantize x : ℚ) / quantScale) := by
  have lengths : (g.contribution c).shareA.length = (g.contribution c).shareB.length := by
    rw [shareA_tabulate, shareB_tabulate, length_tabulate, length_tabulate]
  have expected : c.values.map (fun x => (quantize x : ℚ) / quantScale) =
      tabulate c.values.length (fun j => (c.quantized j : ℚ) / quantScale) := by
    conv_lhs => rw [eq_tabulate c.values 0, map_tabulate]
    rfl
  rw [reconstructContribution, if_neg (not_not.mpr lengths), shareA_tabulate, shareB_tabulate,
    addShares, zipWith_tabulate, map_tabulate, expected]
  refine congrArg Except.ok (tabulate_congr fun j hj => ?_)
  have unmasked : (g.randBelow (c.draw j) +
      (c.quantized j % g.q - g.randBelow (c.draw j)) % g.q) % g.q = c.quantized j % g.q := by
    rw [Int.add_emod, Int.emod_emod, ← Int.add_emod, add_sub_cancel, Int.emod_emod]
  rw [unmasked]
  have member : c.values.getD j 0 ∈ c.values := by
    rw [List.getD_eq_getElem?_getD, List.getElem?_eq_getElem hj]
    exact List.getElem_mem hj
  exact decode_emod g valid.odd (bound _ member)

end
end ModpGroup

/-- Honest aggregation returns, is verified, decodes the exact sum and mean within half
    the field, gives back every contribution within half the field, and the standalone
    check of the field sums agrees. -/
theorem aggregate_honest (g : ModpGroup) (valid : g.Valid) (n : ℕ) (clients : List Client)
    (nonempty : clients ≠ []) (sameLength : ∀ c ∈ clients, c.values.length = n) :
    ∃ result sums, g.aggregate (clients.map g.contribution) = .ok result ∧
      g.fieldSum (clients.map g.contribution) = .ok sums ∧
      result.verified = true ∧ result.nClients = clients.length ∧
      ((∀ j < n, 2 * |coordinateSum clients j| ≤ g.q) →
        result.sumVector =
          tabulate n (fun j => (coordinateSum clients j : ℚ) / quantScale) ∧
        result.meanVector =
          tabulate n (fun j => (coordinateSum clients j : ℚ) / quantScale / clients.length)) ∧
      (∀ c ∈ clients, (∀ x ∈ c.values, 2 * |quantize x| ≤ g.q) →
        g.reconstructContribution (g.contribution c) =
          .ok (c.values.map fun x => (quantize x : ℚ) / quantScale)) ∧
      g.verifyAgainstCommitments sums
        (clients.map fun c => (g.contribution c).commitments) = .ok result.verified := by
  have sums := ModpGroup.fieldSum_honest g sameLength nonempty
  have verified : g.checkSums id (clients.map fun c => (g.contribution c).commitments) 0
      (tabulate n fun j => coordinateSum clients j % g.q) = .ok true := by
    refine g.checkSums_true fun j s found => ?_
    have bound : j < n := by
      by_contra beyond
      rw [List.getElem?_eq_none (by simp; omega)] at found
      cases found
    rw [getElem?_tabulate _ bound] at found
    cases found
    rw [Nat.zero_add]
    exact ModpGroup.commitProduct_honest valid.generates sameLength bound
  have notEmpty : (clients.map g.contribution).isEmpty = false := by
    simpa using nonempty
  let decoded := (tabulate n fun j => coordinateSum clients j % (g.q : ℤ)).map g.decode
  refine ⟨⟨decoded, decoded.map (· / ((clients.map g.contribution).length : ℚ)), true,
    (clients.map g.contribution).length⟩, _, ?_, sums, ?_⟩
  · have commitments : (clients.map g.contribution).map ClientContribution.commitments =
        clients.map (fun c => (g.contribution c).commitments) := by
      rw [List.map_map]
      rfl
    rw [ModpGroup.aggregate, notEmpty, sums, commitments]
    simp only [Bool.false_eq_true, if_false, bind, Except.bind, verified]
    rfl
  refine ⟨rfl, by simp, fun bounds => ?_, fun c _ bound => ?_, ?_⟩
  · have exactSum : decoded = tabulate n (fun j => (coordinateSum clients j : ℚ) / quantScale) := by
      simp only [decoded, map_tabulate]
      exact tabulate_congr fun j hj => g.decode_emod valid.odd (bounds j hj)
    refine ⟨exactSum, ?_⟩
    dsimp only
    rw [exactSum, map_tabulate, List.length_map]
  · exact ModpGroup.reconstruct_honest valid c bound
  · rw [ModpGroup.verifyAgainstCommitments, g.checkSums_reduced, verified]
    intro s member
    obtain ⟨j, _, rfl⟩ := List.mem_map.mp member
    exact Int.emod_emod _ _

/-- 2 has order 11 modulo 23. -/
def smallGroup : ModpGroup := ⟨23, 11⟩

theorem smallGroup_valid : smallGroup.Valid where
  safe := rfl
  primeP := by norm_num [smallGroup]
  primeQ := by norm_num [smallGroup]
  order := by
    have prime : Fact (Nat.Prime 11) := ⟨by norm_num⟩
    exact orderOf_eq_prime (p := 11) (by decide) (by decide)

/-- Two clients, two coordinates: 1/65536 and -2/65536 meet 3/65536 and 1/65536. -/
def smallClients : List Client :=
  [⟨[1 / 65536, -2 / 65536], fun i => i + 20⟩, ⟨[3 / 65536, 1 / 65536], fun i => 7 * i⟩]

theorem aggregate_honest_small :
    ∃ result, smallGroup.aggregate (smallClients.map smallGroup.contribution) = .ok result ∧
      result.verified = true ∧ result.sumVector = [4 / 65536, -1 / 65536] ∧
      result.meanVector = [2 / 65536, -1 / 131072] := by
  obtain ⟨result, _, returned, _, verified, _, exactSums, _⟩ :=
    aggregate_honest smallGroup smallGroup_valid 2 smallClients (by simp [smallClients])
      (by simp [smallClients])
  obtain ⟨sum, mean⟩ := exactSums (by decide +kernel)
  refine ⟨result, returned, verified, ?_, ?_⟩
  · rw [sum]
    decide +kernel
  · rw [mean]
    decide +kernel

/-- An update beyond half the field wraps: the order itself comes back as zero, in a
    valid group and in the one the module uses. -/
theorem reconstruct_wraps :
    smallGroup.Valid ∧
      smallGroup.reconstructContribution (smallGroup.contribution ⟨[11], fun _ => 0⟩) =
        .ok [0] ∧
      (quantize 11 : ℚ) / quantScale ≠ 0 ∧
      rfc3526.reconstructContribution (rfc3526.contribution ⟨[rfc3526.q], fun _ => 0⟩) =
        .ok [0] ∧
      (quantize rfc3526.q : ℚ) / quantScale ≠ 0 := by
  refine ⟨smallGroup_valid, by decide +kernel, by decide +kernel, by decide +kernel,
    by decide +kernel⟩

end HorizonRic.VerifiableSecagg
