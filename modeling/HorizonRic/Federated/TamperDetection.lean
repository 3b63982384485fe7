import HorizonRic.Federated.HonestAggregation
import HorizonRic.Python.Raises

/-!
What the check of the commitments detects. The loops run over the coordinates
that every presented share has, so an altered share is caught there, and shares
that are cut short lose their coordinates unseen.
-/
namespace HorizonRic.VerifiableSecagg
open Py Coordinates

/-- A client with its own commitments, and the shares that the servers present for it. -/
structure Presented where
  client : Client
  shareA : List ℤ
  shareB : List ℤ

/-- Every presented share has the coordinate. -/
def Shown (presented : List Presented) (j : ℕ) : Prop :=
  ∀ s ∈ presented, j < s.shareA.length ∧ j < s.shareB.length

/-- What the servers present in one coordinate, summed. -/
def presentedSum (presented : List Presented) (j : ℕ) : ℤ :=
  (presented.map fun s => s.shareA.getD j 0 + s.shareB.getD j 0).sum

def committedSum (presented : List Presented) (j : ℕ) : ℤ :=
  coordinateSum (presented.map Presented.client) j

namespace ModpGroup
variable (g : ModpGroup)

def presentedContribution (s : Presented) : ClientContribution :=
  { g.contribution s.client with shareA := s.shareA, shareB := s.shareB }

/-- A verified sum has all `d` coordinates, and each decodes the committed sum. -/
def Faithful (d : ℕ) (presented : List Presented) : Prop :=
  ∀ result, g.aggregate (presented.map g.presentedContribution) = .ok result →
    result.verified = true →
      result.sumVector = tabulate d (fun j => g.decode (committedSum presented j % g.q))

theorem powG_eq_iff {g : ModpGroup} (generates : g.Generates) {a b : ℤ} (ha : 0 ≤ a)
    (hb : 0 ≤ b) : g.powG a = g.powG b ↔ a ≡ b [ZMOD g.q] := by
  refine ⟨fun same => ?_, powG_eq_of_modEq generates ha hb⟩
  have congruent : generator ^ a.toNat ≡ generator ^ b.toNat [ZMOD g.p] := same
  rw [← ZMod.intCast_eq_intCast_iff, Int.cast_pow, Int.cast_pow] at congruent
  have finite : IsOfFinOrder (generator : ZMod g.p) := by
    rw [← orderOf_pos_iff, generates.order]
    exact generates.pos
  have exponents := finite.pow_eq_pow_iff_modEq.mp congruent
  rw [generates.order, ← Int.natCast_modEq_iff, Int.toNat_of_nonneg ha,
    Int.toNat_of_nonneg hb] at exponents
  exact exponents

/-- One server's sum has the coordinates that all its shares have. -/
theorem foldl_addShares (rest : List (List ℤ)) (first : List ℤ) (j : ℕ) :
    (j < (rest.foldl g.addShares first).length ↔
      j < first.length ∧ ∀ s ∈ rest, j < s.length) ∧
    (j < (rest.foldl g.addShares first).length →
      (rest.foldl g.addShares first).getD j 0 ≡
        first.getD j 0 + (rest.map fun s => s.getD j 0).sum [ZMOD g.q]) := by
  induction rest generalizing first with
  | nil => simp [Int.ModEq.refl]
  | cons s rest ih =>
    obtain ⟨shown, congruent⟩ := ih (g.addShares first s)
    have length : (g.addShares first s).length = min first.length s.length := by
      simp [addShares]
    have inFirst : j < (g.addShares first s).length ↔ j < first.length ∧ j < s.length := by
      rw [length, lt_min_iff]
    rw [List.foldl_cons]
    refine ⟨?_, fun inSum => ?_⟩
    · rw [shown, inFirst, List.forall_mem_cons, and_assoc]
    · obtain ⟨inF, inS⟩ := inFirst.mp (shown.mp inSum).1
      have head : (g.addShares first s).getD j 0 =
          (first.getD j 0 + s.getD j 0) % (g.q : ℤ) := by
        simp [addShares, List.getD_eq_getElem?_getD, inF, inS]
      calc (rest.foldl g.addShares (g.addShares first s)).getD j 0
          ≡ (g.addShares first s).getD j 0 + (rest.map fun s => s.getD j 0).sum [ZMOD g.q] :=
            congruent inSum
        _ ≡ first.getD j 0 + s.getD j 0 + (rest.map fun s => s.getD j 0).sum [ZMOD g.q] := by
            rw [head]
            exact (Int.mod_modEq _ _).add_right _
        _ = first.getD j 0 + ((s :: rest).map fun s => s.getD j 0).sum := by
            rw [List.map_cons, List.sum_cons, add_assoc]

theorem serverSum_spec (shares : List (List ℤ)) (nonempty : shares ≠ []) :
    ∃ sum, g.serverSum shares = .ok sum ∧ ∀ j, (j < sum.length ↔ ∀ s ∈ shares, j < s.length) ∧
      (j < sum.length → sum.getD j 0 ≡ (shares.map fun s => s.getD j 0).sum [ZMOD g.q]) := by
  cases shares with
  | nil => exact absurd rfl nonempty
  | cons first rest =>
    refine ⟨_, rfl, fun j => ?_⟩
    rw [List.forall_mem_cons, List.map_cons, List.sum_cons]
    exact g.foldl_addShares rest first j

section
variable {g : ModpGroup} {presented : List Presented} {d : ℕ}

theorem fieldSum_spec (g : ModpGroup) (nonempty : presented ≠ []) :
    ∃ sums, g.fieldSum (presented.map g.presentedContribution) = .ok sums ∧
      (∀ j, j < sums.length ↔ Shown presented j) ∧
      ∀ j, j < sums.length → sums.getD j 0 = presentedSum presented j % g.q := by
  have nonemptyA : presented.map Presented.shareA ≠ [] := by simpa using nonempty
  have nonemptyB : presented.map Presented.shareB ≠ [] := by simpa using nonempty
  obtain ⟨sumA, hA, specA⟩ := g.serverSum_spec _ nonemptyA
  obtain ⟨sumB, hB, specB⟩ := g.serverSum_spec _ nonemptyB
  have length : (g.addShares sumA sumB).length = min sumA.length sumB.length := by
    simp [addShares]
  refine ⟨g.addShares sumA sumB, ?_, fun j => ?_, fun j inSum => ?_⟩
  · rw [fieldSum, List.map_map, List.map_map]
    change (g.serverSum (presented.map Presented.shareA) >>= fun sumA =>
      g.serverSum (presented.map Presented.shareB) >>= fun sumB =>
        .ok (g.addShares sumA sumB)) = _
    rw [hA, hB]
    rfl
  · rw [length, lt_min_iff, (specA j).1, (specB j).1, List.forall_mem_map, List.forall_mem_map,
      Shown]
    exact ⟨fun both s member => ⟨both.1 s member, both.2 s member⟩,
      fun both => ⟨fun s member => (both s member).1, fun s member => (both s member).2⟩⟩
  · rw [length, lt_min_iff] at inSum
    have congA := (specA j).2 inSum.1
    have congB := (specB j).2 inSum.2
    have entry : (g.addShares sumA sumB).getD j 0 =
        (sumA.getD j 0 + sumB.getD j 0) % (g.q : ℤ) := by
      simp [addShares, List.getD_eq_getElem?_getD, inSum]
    rw [List.map_map] at congA congB
    rw [entry, presentedSum, List.sum_map_add]
    exact congA.add congB

theorem checkSums_matched {exponent : ℤ → ℤ} {commitments : List (List ℤ)} {sums : List ℤ}
    {j : ℕ} (passed : g.checkSums exponent commitments j sums = .ok true) :
    ∀ i < sums.length,
      g.commitProduct (j + i) commitments 1 = .ok (g.powG (exponent (sums.getD i 0))) := by
  induction sums generalizing j with
  | nil => simp
  | cons s rest ih =>
    rw [checkSums] at passed
    obtain ⟨prod, product, compared⟩ := bind_eq_ok passed
    split at compared
    · cases compared
    · rename_i same
      intro i bound
      cases i with
      | zero => simpa [not_not.mp same] using product
      | succ i =>
        have later := ih compared i (by simpa using bound)
        rw [Nat.add_assoc, Nat.add_comm 1 i] at later
        simpa using later

theorem commitProduct_beyond (sameLength : ∀ s ∈ presented, s.client.values.length = d)
    (nonempty : presented ≠ []) {j : ℕ} (beyond : d ≤ j) (prod : ℤ) :
    g.commitProduct j (presented.map fun s => (g.contribution s.client).commitments) prod =
      .error .indexError := by
  cases presented with
  | nil => exact absurd rfl nonempty
  | cons s rest =>
    have none : (g.contribution s.client).commitments[j]? = none := by
      rw [commitments_tabulate, List.getElem?_eq_none]
      rw [length_tabulate, sameLength s List.mem_cons_self]
      exact beyond
    rw [List.map_cons, commitProduct, none]

theorem commitProduct_presented (generates : g.Generates)
    (sameLength : ∀ s ∈ presented, s.client.values.length = d) {j : ℕ} (bound : j < d) :
    g.commitProduct j (presented.map fun s => (g.contribution s.client).commitments) 1 =
      .ok (g.powG (committedSum presented j % g.q)) := by
  have clients : ∀ c ∈ presented.map Presented.client, c.values.length = d := by
    simpa using sameLength
  have product := commitProduct_honest generates clients bound
  rw [List.map_map] at product
  exact product

/-- What `aggregate` returns is what the check says of the field sum. -/
theorem aggregate_presented (nonempty : presented ≠ []) {sums : List ℤ}
    (summed : g.fieldSum (presented.map g.presentedContribution) = .ok sums)
    (result : AggregationResult) (verified : result.verified = true) :
    g.aggregate (presented.map g.presentedContribution) = .ok result ↔
      g.checkSums id (presented.map fun s => (g.contribution s.client).commitments) 0 sums =
          .ok true ∧
        result = ⟨sums.map g.decode, (sums.map g.decode).map (· / (presented.length : ℚ)), true,
          presented.length⟩ := by
  have notEmpty : (presented.map g.presentedContribution).isEmpty = false := by
    simpa using nonempty
  have commitments : (presented.map g.presentedContribution).map
      ClientContribution.commitments =
        presented.map fun s => (g.contribution s.client).commitments := by
    rw [List.map_map]
    rfl
  rw [aggregate, notEmpty, summed, commitments, List.length_map]
  simp only [Bool.false_eq_true, if_false, ok_bind]
  cases g.checkSums id (presented.map fun s => (g.contribution s.client).commitments) 0 sums with
  | error e =>
    constructor
    · intro returned
      cases returned
    · rintro ⟨ok, _⟩
      cases ok
  | ok passed =>
    constructor
    · intro returned
      cases returned
      dsimp only at verified
      rw [verified]
      exact ⟨rfl, rfl⟩
    · rintro ⟨ok, rfl⟩
      cases ok
      rfl

/-- The check passes exactly on sums of committed coordinates that agree with the commitments. -/
theorem checkSums_presented_iff (generates : g.Generates) (nonempty : presented ≠ [])
    (sameLength : ∀ s ∈ presented, s.client.values.length = d) {sums : List ℤ}
    (entries : ∀ j, j < sums.length → sums.getD j 0 = presentedSum presented j % g.q) :
    g.checkSums id (presented.map fun s => (g.contribution s.client).commitments) 0 sums =
        .ok true ↔
      sums.length ≤ d ∧ ∀ j < sums.length,
        presentedSum presented j ≡ committedSum presented j [ZMOD g.q] := by
  have qPos : (0 : ℤ) < g.q := by exact_mod_cast generates.pos
  constructor
  · intro passed
    have matched := checkSums_matched passed
    have within : sums.length ≤ d := by
      by_contra long
      have product := matched d (by omega)
      rw [commitProduct_beyond sameLength nonempty (by omega)] at product
      cases product
    refine ⟨within, fun j inSums => ?_⟩
    have product := matched j inSums
    rw [Nat.zero_add, commitProduct_presented generates sameLength (by omega),
      entries j inSums] at product
    have exponents := (powG_eq_iff generates (Int.emod_nonneg _ qPos.ne')
      (Int.emod_nonneg _ qPos.ne')).mp (Except.ok.inj product)
    exact ((Int.mod_modEq _ _).symm.trans exponents.symm).trans (Int.mod_modEq _ _)
  · rintro ⟨within, congruent⟩
    refine g.checkSums_true fun j s found => ?_
    obtain ⟨inSums, entry⟩ := List.getElem?_eq_some_iff.mp found
    have value : s = presentedSum presented j % g.q := by
      rw [← entries j inSums, List.getD_eq_getElem?_getD, found]
      rfl
    rw [Nat.zero_add, commitProduct_presented generates sameLength (by omega), value,
      congruent j inSums]
    rfl

end
end ModpGroup

/-- A verified sum is the committed one, except when shares are cut short and every
    coordinate that is left agrees with the commitments. -/
theorem aggregate_faithful_iff (g : ModpGroup) (generates : g.Generates) (d : ℕ)
    (presented : List Presented) (nonempty : presented ≠ [])
    (sameLength : ∀ s ∈ presented, s.client.values.length = d) :
    g.Faithful d presented ↔ (∀ j < d, Shown presented j) ∨
      ∃ j, Shown presented j ∧
        ¬presentedSum presented j ≡ committedSum presented j [ZMOD g.q] := by
  obtain ⟨sums, summed, shown, entries⟩ := ModpGroup.fieldSum_spec g nonempty
  have checked := fun result => ModpGroup.aggregate_presented nonempty summed result
  rw [ModpGroup.checkSums_presented_iff generates nonempty sameLength entries] at checked
  constructor
  · intro faithful
    by_contra neither
    obtain ⟨cut, agree⟩ := not_or.mp neither
    have congruent : ∀ j < sums.length,
        presentedSum presented j ≡ committedSum presented j [ZMOD g.q] := by
      intro j inSums
      by_contra differ
      exact agree ⟨j, (shown j).mp inSums, differ⟩
    have short : sums.length < d := by
      by_contra long
      refine cut fun j bound => (shown j).mp ?_
      omega
    have all := faithful _ ((checked _ rfl).mpr ⟨⟨short.le, congruent⟩, rfl⟩) rfl
    have lengths := congrArg List.length all
    rw [List.length_map, length_tabulate] at lengths
    omega
  · intro condition result returned verified
    obtain ⟨⟨within, congruent⟩, rfl⟩ := (checked result verified).mp returned
    rcases condition with all | ⟨j, visible, differ⟩
    · have length : sums.length = d := by
        refine le_antisymm within ?_
        by_contra short
        exact absurd ((shown sums.length).mpr (all _ (by omega))) (lt_irrefl _)
      dsimp only
      rw [eq_tabulate sums 0, map_tabulate, length]
      refine tabulate_congr fun j bound => ?_
      rw [entries j (by omega), congruent j (by omega)]
    · exact absurd (congruent j ((shown j).mpr visible)) differ

/-- Two clients of two coordinates, and shares of another splitting of the same sums. -/
def resharedShares : List Presented :=
  [⟨⟨[1 / 65536, -2 / 65536], fun i => i + 20⟩, [9, 10], [3, 10]⟩,
    ⟨⟨[3 / 65536, 1 / 65536], fun i => 7 * i⟩, [0, 7], [3, 5]⟩]

theorem aggregate_faithful_reshared :
    ∃ result, smallGroup.aggregate (resharedShares.map smallGroup.presentedContribution) =
        .ok result ∧ result.verified = true ∧
      result.sumVector =
        tabulate 2 (fun j => smallGroup.decode (committedSum resharedShares j % 11)) := by
  have complete : ∀ j < 2, Shown resharedShares j := by
    intro j bound s member
    simp only [resharedShares, List.mem_cons, List.not_mem_nil, or_false] at member
    rcases member with rfl | rfl
    · exact ⟨bound, bound⟩
    · exact ⟨bound, bound⟩
  have faithful := (aggregate_faithful_iff smallGroup smallGroup_valid.generates 2 resharedShares
    (by simp [resharedShares]) (by simp [resharedShares])).mpr (Or.inl complete)
  have summed : smallGroup.fieldSum (resharedShares.map smallGroup.presentedContribution) =
      .ok [4, 10] := by decide
  have passed : smallGroup.checkSums id
      (resharedShares.map fun s => (smallGroup.contribution s.client).commitments) 0 [4, 10] =
        .ok true := by decide +kernel
  have returned := (ModpGroup.aggregate_presented (by simp [resharedShares]) summed _ rfl).mpr
    ⟨passed, rfl⟩
  exact ⟨_, returned, rfl, faithful _ returned rfl⟩

/-- Emptied shares are verified, and the sum of one committed coordinate has none. -/
theorem aggregate_unfaithful_emptied :
    ∃ result, smallGroup.aggregate
        [smallGroup.presentedContribution ⟨⟨[3 / 65536], fun _ => 0⟩, [], []⟩] = .ok result ∧
      result.verified = true ∧ result.sumVector = [] :=
  ⟨_, rfl, rfl, rfl⟩

end HorizonRic.VerifiableSecagg
