import HorizonRic.Federated.ShamirSecretSharing
import HorizonRic.Python.Raises
import Mathlib.NumberTheory.LucasLehmer

/-!
`federated/secure.py`: the mean of client vectors under secret sharing. Every
coordinate is quantised into the field and split among the holders, who add
what they get; enough of them open the sum, and its representative nearest to
zero is scaled back.
-/
namespace HorizonRic.SecureMean
open Py Interpolation Coordinates ShamirSecretSharing

/-- `(1 << 127) - 1`. -/
def prime : ℕ := 2 ^ 127 - 1

/-- Six decimal digits. -/
def quantScale : ℕ := 1000000

def quantise (x : ℚ) : ℤ := roundHalfEven (x * quantScale) % prime

def dequantise (q : ℤ) (nClients : ℕ) : ℚ :=
  let q := if (prime : ℤ) / 2 < q then q - prime else q
  (q : ℚ) / (quantScale * nClients : ℕ)

/-- `seq[i]`. -/
def item (seq : List α) (i : ℕ) : Except PyErr α :=
  match seq[i]? with
  | some entry => .ok entry
  | none => .error .indexError

section
variable (nShares threshold : ℕ)

/-- Nothing held yet, by holder and element. -/
def emptyShares (length : ℕ) : List (List Share) :=
  (List.range nShares).map fun i : ℕ => (List.range length).map fun _ => ((i : ℤ) + 1, 0)

/-- Every holder adds its share of an element. -/
def hold (elemIdx : ℕ) (summed : List (List Share)) (shares : List Share) : List (List Share) :=
  List.zipWith (fun row share =>
    row.modify elemIdx fun held => (held.1, (held.2 + share.2) % (prime : ℤ))) summed shares

/-- The elements of one client, each with its own random coefficients. -/
def shareVector (random : ℕ → Coefficients prime threshold) (summed : List (List Share))
    (vec : List (ℚ × ℕ)) : Except PyErr (List (List Share)) :=
  vec.foldlM (fun summed entry => do
    let shares ← split prime (quantise entry.1) nShares threshold (random entry.2)
    .ok (hold entry.2 summed shares)) summed

/-- What the holders have once every client has shared its vector. -/
def summedShares (length : ℕ) (random : ℕ → ℕ → Coefficients prime threshold)
    (clientVectors : List (List ℚ)) : Except PyErr (List (List Share)) :=
  clientVectors.zipIdx.foldlM (fun summed client =>
    shareVector nShares threshold (random client.2) summed client.1.zipIdx)
    (emptyShares nShares length)

/-- The holders named open every element. -/
def openMean (holders : List ℕ) (length nClients : ℕ) (summed : List (List Share)) :
    Except PyErr (List ℚ) :=
  (List.range length).mapM fun elemIdx => do
    let pts ← holders.mapM fun h => do
      let row ← item summed h
      item row elemIdx
    let secret ← reconstruct prime pts
    .ok (dequantise secret nClients)

/-- The mean that `holders` open. -/
def secureMeanBy (holders : List ℕ) (random : ℕ → ℕ → Coefficients prime threshold)
    (clientVectors : List (List ℚ)) : Except PyErr (List ℚ) :=
  match clientVectors with
  | [] => .ok []
  | first :: _ =>
    if clientVectors.any fun v => v.length != first.length then .error .valueError
    else do
      let summed ← summedShares nShares threshold first.length random clientVectors
      openMean holders first.length clientVectors.length summed

/-- The first `threshold` holders open the sums. -/
def secureMean (random : ℕ → ℕ → Coefficients prime threshold)
    (clientVectors : List (List ℚ)) : Except PyErr (List ℚ) :=
  secureMeanBy nShares threshold (List.range threshold) random clientVectors

end

/-! The field. -/

theorem prime_prime : prime.Prime :=
  lucas_lehmer_sufficiency 127 (by norm_num) (by norm_num)

instance : Fact prime.Prime := ⟨prime_prime⟩

theorem quantise_range (x : ℚ) : 0 ≤ quantise x ∧ quantise x < prime :=
  emod_range (p := prime) _

/-- The representative nearest to zero of a residue. -/
theorem nearest_of_small {s : ℤ} (small : |s| ≤ prime / 2) :
    (if (prime : ℤ) / 2 < s % prime then s % prime - prime else s % prime) = s := by
  have bounds := abs_le.mp small
  have positive : (0 : ℤ) < prime := prime_pos
  have odd : (prime : ℤ) = 2 * (prime / 2) + 1 := by
    unfold prime
    norm_num
  rcases le_or_gt 0 s with natural | negative
  · rw [Int.emod_eq_of_lt natural (by omega), if_neg (by omega)]
  · have lifted : s % prime = s + prime := by
      rw [← Int.add_emod_right, Int.emod_eq_of_lt (by omega) (by omega)]
    rw [lifted, if_pos (by omega), add_sub_cancel_right]

/-! What the holders have. -/

section
variable {n t length : ℕ}

/-- The shares held, from the value of each holder and element. -/
def grid (n length : ℕ) (held : ℕ → ℕ → ℤ) : List (List Share) :=
  tabulate n fun h => tabulate length fun e => ((h : ℤ) + 1, held h e)

theorem grid_congr {held held' : ℕ → ℕ → ℤ} (same : ∀ h, ∀ e < length, held h e = held' h e) :
    grid n length held = grid n length held' :=
  tabulate_congr fun h _ => tabulate_congr fun e inside => by rw [same h e inside]

/-- What the holder `h` gets of the element `e` of the client's value `x`. -/
def dealt (random : ℕ → Coefficients prime t) (x : ℚ) (e h : ℕ) : ℤ :=
  evalAt prime (coeffList prime (quantise x) (random e)) ((h : ℤ) + 1)

theorem hold_grid (random : ℕ → Coefficients prime t) (held : ℕ → ℕ → ℤ) (x : ℚ) (e : ℕ) :
    hold e (grid n length held) (deal prime (coeffList prime (quantise x) (random e)) n) =
      grid n length fun h k =>
        if k = e then (held h k + dealt random x e h) % prime else held h k := by
  have rows : deal prime (coeffList prime (quantise x) (random e)) n =
      tabulate n fun h => ((h : ℤ) + 1, dealt random x e h) := rfl
  rw [hold, grid, rows, zipWith_tabulate]
  refine tabulate_congr fun h _ => ?_
  rw [modify_tabulate]
  refine tabulate_congr fun k _ => ?_
  by_cases here : k = e
  · simp only [if_pos here]
  · simp only [if_neg here]

/-- One client: the elements from `k` on are added, each in its column. -/
theorem shareVector_grid (two : 2 ≤ t) (enough : t ≤ n) (random : ℕ → Coefficients prime t)
    (vec : List ℚ) (k : ℕ) (held : ℕ → ℕ → ℤ) :
    shareVector n t random (grid n length held) (vec.zipIdx k) =
      .ok (grid n length fun h e =>
        if k ≤ e ∧ e < k + vec.length then
          (held h e + dealt random (vec.getD (e - k) 0) e h) % prime
        else held h e) := by
  induction vec generalizing k held with
  | nil =>
    have unchanged : ∀ e, ¬(k ≤ e ∧ e < k + ([] : List ℚ).length) := by simp
    simp only [List.zipIdx_nil, shareVector, List.foldlM_nil, unchanged, if_false]
    rfl
  | cons x rest ih =>
    rw [List.zipIdx_cons, shareVector, List.foldlM_cons,
      split_eq (quantise_range x) two enough (random k)]
    simp only [ok_bind, hold_grid]
    refine (ih (k + 1) _).trans (congrArg Except.ok (grid_congr fun h e _ => ?_))
    simp only [List.length_cons]
    rcases lt_trichotomy e k with before | rfl | after
    · rw [if_neg (by omega), if_neg (by omega), if_neg (by omega)]
    · rw [if_neg (by omega), if_pos rfl, if_pos (by omega), Nat.sub_self, List.getD_cons_zero]
    · have position : e - k = e - (k + 1) + 1 := by omega
      rw [if_neg (show e ≠ k by omega), position, List.getD_cons_succ]
      exact if_congr (by omega) rfl rfl

/-- The secrets and coefficients of the element `e`, client after client. -/
def family (random : ℕ → ℕ → Coefficients prime t) (clients : List (List ℚ × ℕ)) (e : ℕ) :
    List (ℤ × Coefficients prime t) :=
  clients.map fun client => (quantise (client.1.getD e 0), random client.2 e)

/-- Every client in turn: the columns stay apart. -/
theorem shareVectors_grid (two : 2 ≤ t) (enough : t ≤ n) (random : ℕ → ℕ → Coefficients prime t)
    {clients : List (List ℚ × ℕ)} (equal : ∀ client ∈ clients, client.1.length = length)
    (held : ℕ → ℕ → ℤ) :
    clients.foldlM (fun summed client =>
      shareVector n t (random client.2) summed client.1.zipIdx) (grid n length held) =
      .ok (grid n length fun h e =>
        ((family random clients e).map fun x =>
          evalAt prime (coeffList prime x.1 x.2) ((h : ℤ) + 1)).foldl
            (fun held value => (held + value) % (prime : ℤ)) (held h e)) := by
  induction clients generalizing held with
  | nil => rfl
  | cons client rest ih =>
    have here := equal client List.mem_cons_self
    rw [List.foldlM_cons, shareVector_grid two enough, ok_bind,
      ih (fun other member => equal other (List.mem_cons_of_mem _ member))]
    refine congrArg Except.ok (grid_congr fun h e inside => ?_)
    rw [if_pos (by omega), Nat.sub_zero]
    rfl

theorem summedShares_eq (two : 2 ≤ t) (enough : t ≤ n) (random : ℕ → ℕ → Coefficients prime t)
    {vectors : List (List ℚ)} (equal : ∀ v ∈ vectors, v.length = length) :
    summedShares n t length random vectors =
      .ok (grid n length fun h e => (summedAt (family random vectors.zipIdx e) h).2) := by
  refine shareVectors_grid two enough random (fun client member => ?_) fun _ _ => 0
  exact equal client.1 (List.fst_mem_of_mem_zipIdx member)

/-! Opening. -/

theorem item_tabulate {i k : ℕ} (f : ℕ → α) (inside : i < k) :
    item (tabulate k f) i = .ok (f i) := by
  rw [item, getElem?_tabulate f inside]

/-- Any holders, as many as the threshold, open the sums of the residues. -/
theorem openMean_eq (two : 2 ≤ t) (small : n < prime) {holders : List ℕ}
    (distinct : holders.Nodup) (size : holders.length = t) (inside : ∀ h ∈ holders, h < n)
    (families : ℕ → List (ℤ × Coefficients prime t)) (nClients : ℕ) :
    openMean holders length nClients
        (grid n length fun h e => (summedAt (families e) h).2) =
      .ok (tabulate length fun e =>
        dequantise (((families e).map Prod.fst).sum % prime) nClients) := by
  refine mapM_eq_map fun e member => ?_
  have column : e < length := List.mem_range.mp member
  have points : (holders.mapM fun h => do
      let row ← item (grid n length fun h e => (summedAt (families e) h).2) h
      item row e) = .ok (holders.map (summedAt (families e))) := by
    refine mapM_eq_map fun h member => ?_
    rw [grid, item_tabulate _ (inside h member), ok_bind, item_tabulate _ column]
    rfl
  have length_points : (holders.map (summedAt (families e))).length = t := by
    rw [List.length_map, size]
  have nodup : ((holders.map (summedAt (families e))).map Prod.fst).Nodup := by
    rw [List.map_map]
    refine distinct.map fun a b same => ?_
    have coordinates : (a : ℤ) + 1 = (b : ℤ) + 1 := same
    omega
  have each : ∀ sh ∈ holders.map (summedAt (families e)),
      Holds (sumPolynomial (families e)) n sh := by
    intro sh member
    obtain ⟨h, among, rfl⟩ := List.mem_map.mp member
    exact ⟨h, inside h among, rfl, (cast_summedAt (families e) h).symm⟩
  have low : (sumPolynomial (families e)).degree <
      ((holders.map (summedAt (families e))).length : WithBot ℕ) := by
    rw [length_points]
    exact degree_sumPolynomial two (families e)
  have opened := reconstruct_holders small (by omega) low each nodup (emod_range _)
    (eval_zero_sumPolynomial (families e))
  rw [points, ok_bind, opened, ok_bind]

/-! Rounding. -/

/-- The sum of the rounded values of the element `e`. -/
def roundedSum (vectors : List (List ℚ)) (e : ℕ) : ℤ :=
  (vectors.map fun v => roundHalfEven (v.getD e 0 * quantScale)).sum

/-- The mean of the element `e`. -/
def plainMean (vectors : List (List ℚ)) (e : ℕ) : ℚ :=
  (vectors.map fun v => v.getD e 0).sum / vectors.length

theorem family_sum (random : ℕ → ℕ → Coefficients prime t) (vectors : List (List ℚ)) (e : ℕ) :
    ((family random vectors.zipIdx e).map Prod.fst).sum % (prime : ℤ) =
      roundedSum vectors e % prime := by
  have secrets : (family random vectors.zipIdx e).map Prod.fst =
      vectors.map fun v => quantise (v.getD e 0) := by
    conv_rhs => rw [← List.zipIdx_map_fst 0 vectors]
    simp only [family, List.map_map, Function.comp_def]
  rw [secrets]
  exact sum_modEq prime vectors fun v _ => Int.mod_modEq _ _

theorem dequantise_small {s : ℤ} (small : |s| ≤ prime / 2) (nClients : ℕ) :
    dequantise (s % prime) nClients = (s : ℚ) / (quantScale * nClients : ℕ) := by
  rw [dequantise, nearest_of_small small]

/-- Rounding moves the sum by half a unit for each client at most. -/
theorem abs_roundedSum_sub_le (vectors : List (List ℚ)) (e : ℕ) :
    |(roundedSum vectors e : ℚ) - (vectors.map fun v => v.getD e 0).sum * quantScale| ≤
      (vectors.length : ℚ) / 2 := by
  induction vectors with
  | nil => simp [roundedSum]
  | cons v rest ih =>
    have one := abs_roundHalfEven_sub_le (v.getD e 0 * quantScale)
    simp only [roundedSum, List.map_cons, List.sum_cons, List.length_cons] at ih ⊢
    rw [abs_le] at ih one ⊢
    push_cast at ih ⊢
    constructor <;> linarith [ih.1, ih.2, one.1, one.2]

theorem abs_mean_sub_le {vectors : List (List ℚ)} (some : vectors ≠ []) (e : ℕ) :
    |(roundedSum vectors e : ℚ) / (quantScale * vectors.length : ℕ) - plainMean vectors e| ≤
      1 / 2 / quantScale := by
  have count : (0 : ℚ) < vectors.length := by
    exact_mod_cast List.length_pos_iff.mpr some
  have scale : (0 : ℚ) < quantScale := by
    unfold quantScale
    norm_num
  have moved := abs_roundedSum_sub_le vectors e
  have difference : (roundedSum vectors e : ℚ) / (quantScale * vectors.length : ℕ) -
      plainMean vectors e =
      ((roundedSum vectors e : ℚ) - (vectors.map fun v => v.getD e 0).sum * quantScale) /
        (quantScale * vectors.length) := by
    rw [plainMean]
    push_cast
    field_simp
  rw [difference, abs_div, abs_of_pos (mul_pos scale count), div_le_iff₀ (mul_pos scale count)]
  calc |(roundedSum vectors e : ℚ) - (vectors.map fun v => v.getD e 0).sum * quantScale|
      ≤ (vectors.length : ℚ) / 2 := moved
    _ = 1 / 2 / quantScale * (quantScale * vectors.length) := by
      field_simp

theorem secureMeanBy_eq (two : 2 ≤ t) (enough : t ≤ n) (small : n < prime)
    (random : ℕ → ℕ → Coefficients prime t) {vectors : List (List ℚ)} (some : vectors ≠ [])
    (equal : ∀ v ∈ vectors, v.length = length)
    (fits : ∀ e < length, |roundedSum vectors e| ≤ prime / 2) {holders : List ℕ}
    (distinct : holders.Nodup) (size : holders.length = t) (inside : ∀ h ∈ holders, h < n) :
    secureMeanBy n t holders random vectors =
      .ok (tabulate length fun e =>
        (roundedSum vectors e : ℚ) / (quantScale * vectors.length : ℕ)) := by
  obtain ⟨first, rest, rfl⟩ := List.exists_cons_of_ne_nil some
  have firstLength : first.length = length := equal first List.mem_cons_self
  have same : ((first :: rest).any fun v => v.length != first.length) = false := by
    rw [List.any_eq_false]
    intro v member
    rw [equal v member, firstLength]
    simp
  simp only [secureMeanBy, same, Bool.false_eq_true, if_false]
  rw [firstLength, summedShares_eq two enough random equal, ok_bind,
    openMean_eq two small distinct size inside]
  refine congrArg Except.ok (tabulate_congr fun e column => ?_)
  rw [family_sum, dequantise_small (fits e column)]

end

/-- The mean under secret sharing is the mean of the rounded values, whatever the
    coefficients are and whichever holders open it. -/
theorem secureMean_eq_mean {n t length : ℕ} (two : 2 ≤ t) (enough : t ≤ n) (small : n < prime)
    (random : ℕ → ℕ → Coefficients prime t) {vectors : List (List ℚ)} (some : vectors ≠ [])
    (equal : ∀ v ∈ vectors, v.length = length)
    (fits : ∀ e < length, |roundedSum vectors e| ≤ prime / 2) :
    secureMean n t random vectors =
      .ok (tabulate length fun e =>
        (roundedSum vectors e : ℚ) / (quantScale * vectors.length : ℕ)) ∧
    (∀ e < length,
      |(roundedSum vectors e : ℚ) / (quantScale * vectors.length : ℕ) - plainMean vectors e| ≤
        1 / 2 / quantScale) ∧
    ∀ holders : List ℕ, holders.Nodup → holders.length = t → (∀ h ∈ holders, h < n) →
      secureMeanBy n t holders random vectors = secureMean n t random vectors := by
  have first : secureMean n t random vectors = _ :=
    secureMeanBy_eq two enough small random some equal fits List.nodup_range List.length_range
      fun h member => (List.mem_range.mp member).trans_le enough
  refine ⟨first, fun e _ => abs_mean_sub_le some e, fun holders distinct size inside => ?_⟩
  rw [first]
  exact secureMeanBy_eq two enough small random some equal fits distinct size inside

/-- Two clients of opposite signs, five holders, any three. -/
theorem secureMean_eq_mean_signs :
    let random : ℕ → ℕ → Coefficients prime 3 := fun _ _ => ⟨[5, 7], rfl, by simp [prime]⟩
    secureMean 5 3 random [[1 / 4], [-3 / 4]] = .ok [-1 / 4] ∧
      secureMeanBy 5 3 [4, 0, 2] random [[1 / 4], [-3 / 4]] = .ok [-1 / 4] := by
  intro random
  have quarter : roundHalfEven ((1 / 4 : ℚ) * quantScale) = 250000 := by
    norm_num [roundHalfEven, quantScale]
  have threeQuarters : roundHalfEven ((-3 / 4 : ℚ) * quantScale) = -750000 := by
    norm_num [roundHalfEven, quantScale]
  have sum : roundedSum [[1 / 4], [-3 / 4]] 0 = -500000 := by
    simp only [roundedSum, List.map_cons, List.map_nil, List.getD_cons_zero, quarter,
      threeQuarters]
    norm_num
  have fits : ∀ e < 1, |roundedSum [[1 / 4], [-3 / 4]] e| ≤ prime / 2 := by
    intro e single
    obtain rfl : e = 0 := by omega
    rw [sum]
    norm_num [prime]
  have small : 5 < prime := by norm_num [prime]
  obtain ⟨value, _, others⟩ := secureMean_eq_mean (by decide) (by decide) small random
    (by decide) (by simp) fits
  have opened : secureMean 5 3 random [[1 / 4], [-3 / 4]] = .ok [-1 / 4] := by
    rw [value]
    simp only [tabulate, List.range_one, List.map_cons, List.map_nil, sum]
    norm_num [quantScale]
  exact ⟨opened, (others [4, 0, 2] (by decide) rfl (by decide)).trans opened⟩

end HorizonRic.SecureMean
