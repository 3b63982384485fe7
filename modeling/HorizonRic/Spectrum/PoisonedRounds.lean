import HorizonRic.Federated.SecureMean
import HorizonRic.Spectrum.BoundedValues
import HorizonRic.Spectrum.UpdateAttacks

/-!
The rounds of `spectrum/federated_q.py` and `spectrum/data_poison.py` with clients that
poison them. What a minority uploads never carries the median or the trimmed mean out of
what honest learning is worth, round after round.
-/
namespace HorizonRic.Spectrum
open Py

/-! The rounds. -/

/-- `secure.secure_mean` on floats; `round` refuses what is not finite. -/
def secureMeanQ (np : Float64) (random : ℕ → ℕ → ShamirSecretSharing.Coefficients SecureMean.prime 3)
    (flats : List (List Number)) : Except PyErr (List Number) := do
  let vectors ← flats.mapM (List.mapM fun
    | .nan => Except.error .valueError
    | .inf _ => .error .overflowError
    | .fin q => .ok q)
  let out ← SecureMean.secureMean 5 3 random vectors
  .ok (out.map fun q => np.round (.fin q))

section
variable (np : Float64)
  (random : ℕ → ℕ → ShamirSecretSharing.Coefficients SecureMean.prime 3)

/-- The aggregate, and the index that Krum picks. -/
def aggregateQ (clientQs : List Erasure.QTable) (method : String) (f : ℕ) (secureAgg : Bool) :
    Except PyErr (List Number × Option ℕ) :=
  let flats := clientQs.map List.flatten
  if secureAgg ∧ method = "fedavg" then (·, none) <$> secureMeanQ np random flats
  else if method = "krum" then
    (fun res => (res.aggregate, some res.selectedIndex)) <$> Erasure.krum np flats f
  else if method = "median" then (·, none) <$> Erasure.coordinateMedian np flats
  else if method = "trimmed_mean" then (·, none) <$> Erasure.trimmedMean np flats (max 1 f)
  else if method = "fedavg" then (·, none) <$> Erasure.fedavg np flats
  else .error .valueError

structure FederatedDSAResult where
  globalQ : Erasure.QTable
  method : String
  nClients : Int
  nMalicious : Int
  secureAgg : Bool
  clientShapes : ℕ × ℕ
  selectedIndex : Option ℕ

/-- What a round is called with. -/
structure RoundCall (gen : Generator) where
  nClients : Int
  nMalicious : Int
  dsaCfg : DSAConfig
  qCfg : QLearnConfig
  method : String
  secureAgg : Bool
  seed : Int

/-- What the malicious clients upload, from the global table and those of the honest ones. -/
abbrev Attack := Option Erasure.QTable → List Erasure.QTable → Except PyErr (List Erasure.QTable)

section
variable {gen : Generator} (call : RoundCall gen)

/-- The honest clients train on environments of their own. -/
def honestQs (globalQ : Option Erasure.QTable) : Except PyErr (List Erasure.QTable) :=
  (List.range (call.nClients - call.nMalicious).toNat).mapM fun (c : ℕ) => do
    let seed := call.seed * 1000 + (c : Int) + 1
    let _env ← (DSAEnv.reset call.dsaCfg seed : Except PyErr (DSAEnv gen))
    trainLocalQ gen np call.qCfg call.dsaCfg globalQ seed

/-- Krum and the trimmed mean are told of one malicious client at least. -/
def toldMalicious : ℕ :=
  if call.method = "krum" ∨ call.method = "trimmed_mean" then (max 1 call.nMalicious).toNat
  else call.nMalicious.toNat

def federatedRound (attack : Attack) (globalQ : Option Erasure.QTable) :
    Except PyErr FederatedDSAResult := do
  let ns ← Erasure.nStates call.dsaCfg.nChannels
  let na := Erasure.nActions call.dsaCfg.nChannels
  let honest ← honestQs np call globalQ
  let malicious ← attack globalQ honest
  let (aggFlat, selected) ← aggregateQ np random (honest ++ malicious) call.method
    (toldMalicious call) call.secureAgg
  let newGlobal ← Erasure.reshape ns na aggFlat
  .ok ⟨newGlobal, call.method, call.nClients, call.nMalicious, call.secureAgg, (ns, na), selected⟩

end
end

/-! Sorting orders the special values too: the negative infinity first, NaN last. -/

def rank : Number → ℕ ×ₗ ℚ
  | .inf true => toLex (0, 0)
  | .fin q => toLex (1, q)
  | .inf false => toLex (2, 0)
  | .nan => toLex (3, 0)

theorem rank_le_iff (x y : Number) :
    (Number.le x y || y.isNan) = true ↔ rank x ≤ rank y := by
  cases x with
  | nan => cases y with
    | nan => simp [rank, Number.isNan]
    | inf negative => cases negative <;> simp [rank, Number.isNan, Prod.Lex.toLex_le_toLex]
    | fin q => simp [rank, Number.isNan, Prod.Lex.toLex_le_toLex]
  | inf negative => cases y with
    | nan => cases negative <;> simp [rank, Number.isNan, Prod.Lex.toLex_le_toLex]
    | inf negative' =>
      cases negative <;> cases negative' <;>
        simp [rank, Number.isNan, Number.le, Prod.Lex.toLex_le_toLex]
    | fin q =>
      cases negative <;> simp [rank, Number.isNan, Number.le, Prod.Lex.toLex_le_toLex]
  | fin p => cases y with
    | nan => simp [rank, Number.isNan, Prod.Lex.toLex_le_toLex]
    | inf negative =>
      cases negative <;> simp [rank, Number.isNan, Number.le, Prod.Lex.toLex_le_toLex]
    | fin q => simp [rank, Number.isNan, Prod.Lex.toLex_le_toLex]

theorem map_rank_sort (xs : List Number) :
    (Float64.sort xs).map rank = (xs.map rank).insertionSort (· ≤ ·) := by
  apply List.map_insertionSort
  intro x _ y _
  exact rank_le_iff x y

/-- What lies between two bounded values is bounded. -/
theorem within_of_between {bound : ℚ} {low x high : Number} (least : Within bound low)
    (above : rank low ≤ rank x) (below : rank x ≤ rank high) (most : Within bound high) :
    Within bound x := by
  obtain ⟨p, rfl, small⟩ := least
  obtain ⟨r, rfl, large⟩ := most
  cases x with
  | nan => simp [rank, Prod.Lex.toLex_le_toLex] at below
  | inf negative => cases negative <;> simp [rank, Prod.Lex.toLex_le_toLex] at above below
  | fin q =>
    rw [← rank_le_iff, Number.le_fin] at above below
    simp only [Number.isNan, Bool.or_false, decide_eq_true_eq] at above below
    have bounds := abs_le.mp small
    have bounds' := abs_le.mp large
    exact ⟨q, rfl, abs_le.mpr ⟨by linarith, by linarith⟩⟩

/-- The positions of the last entries. -/
def lastPositions (honest malicious : ℕ) : Finset ℕ := Finset.Ico honest (honest + malicious)

/-- After as many least and greatest entries are left out as there are malicious ones, every
    entry is between two honest ones. -/
theorem middle_within {bound : ℚ} {honest malicious : List Number} {first last : ℕ}
    (each : ∀ x ∈ honest, Within bound x) (low : malicious.length ≤ first)
    (high : last + malicious.length ≤ (honest ++ malicious).length) :
    ∀ x ∈ ((Float64.sort (honest ++ malicious)).take last).drop first, Within bound x := by
  intro x member
  have ranked : rank x ∈ ((((honest ++ malicious).map rank).insertionSort (· ≤ ·)).take last).drop
      first := by
    rw [← map_rank_sort, ← List.map_take, ← List.map_drop]
    exact List.mem_map_of_mem member
  have card : (lastPositions honest.length malicious.length).card = malicious.length := by
    rw [lastPositions, Nat.card_Ico]
    omega
  have low' : (lastPositions honest.length malicious.length).card ≤ first := by
    rw [card]
    exact low
  have high' : last + (lastPositions honest.length malicious.length).card ≤
      ((honest ++ malicious).map rank).length := by
    rw [card, List.length_map]
    exact high
  obtain ⟨⟨i, inside, outside, below⟩, ⟨j, inside', outside', above⟩⟩ :=
    OrderStatistics.bracketed_of_mem_middle low' high' ranked
  have honestAt : ∀ k (short : k < ((honest ++ malicious).map rank).length),
      k ∉ lastPositions honest.length malicious.length →
        ∃ y ∈ honest, ((honest ++ malicious).map rank)[k] = rank y := by
    intro k short notLast
    rw [List.length_map, List.length_append] at short
    have early : k < honest.length := by
      rw [lastPositions, Finset.mem_Ico] at notLast
      omega
    refine ⟨honest[k], List.getElem_mem early, ?_⟩
    rw [List.getElem_map, List.getElem_append_left early]
  obtain ⟨y, among, same⟩ := honestAt i inside outside
  obtain ⟨z, among', same'⟩ := honestAt j inside' outside'
  exact within_of_between (each y among) (same ▸ below) (same' ▸ above) (each z among')

/-! The aggregators under a minority. -/

section
variable {bound : ℚ} {honest malicious : List (List Number)}

/-- Each column is an honest part and a malicious one. -/
theorem columns_split {d : ℕ} (dimension : ∀ u ∈ honest ++ malicious, u.length = d)
    (each : ∀ u ∈ honest, ∀ x ∈ u, Within bound x) {column : List Number}
    (member : column ∈ Erasure.columns (honest ++ malicious)) :
    ∃ j < d, column = honest.map (·.getD j .nan) ++ malicious.map (·.getD j .nan) ∧
      ∀ x ∈ honest.map (·.getD j .nan), Within bound x := by
  obtain ⟨j, inside, rfl⟩ := List.mem_map.mp member
  have short : j < d := by
    cases filled : honest ++ malicious with
    | nil =>
      rw [filled] at inside
      cases List.mem_range.mp inside
    | cons first rest =>
      rw [filled, List.headD_cons] at inside
      rw [← dimension first (filled ▸ List.mem_cons_self)]
      exact List.mem_range.mp inside
  refine ⟨j, short, List.map_append, ?_⟩
  intro x among
  obtain ⟨u, row, rfl⟩ := List.mem_map.mp among
  have width := dimension u (List.mem_append_left malicious row)
  exact each u row _ (mem_getD (width ▸ short) .nan)

theorem trimmedMean_resists (each : ∀ u ∈ honest, ∀ x ∈ u, Within bound x) {beta : ℕ}
    (few : malicious.length ≤ beta) {flat : List Number}
    (aggregated : Erasure.trimmedMean exactFloat64 (honest ++ malicious) beta = .ok flat) :
    ∀ x ∈ flat, Within bound x := by
  unfold Erasure.trimmedMean at aggregated
  obtain ⟨mat, stacked, done⟩ := bind_eq_ok aggregated
  obtain ⟨rfl, _, d, dimension⟩ := stack_matrix stacked
  dsimp only at done
  split at done
  · cases done
  · rename_i enough
    cases done
    intro x member
    obtain ⟨column, among, rfl⟩ := List.mem_map.mp member
    obtain ⟨j, _, rfl, entries⟩ := columns_split dimension each among
    rw [List.length_append] at enough ⊢
    apply mean_within
    · rw [Ne, ← List.length_eq_zero_iff, List.length_drop, List.length_take, length_sort,
        List.length_append, List.length_map, List.length_map]
      omega
    · apply middle_within entries
      · rw [List.length_map]
        exact few
      · rw [List.length_append, List.length_map, List.length_map]
        omega

theorem median_resists {xs ys : List Number} (each : ∀ x ∈ xs, Within bound x)
    (few : ys.length < xs.length) (numbers : ∀ y ∈ ys, y ≠ .nan) :
    Within bound (exactFloat64.median (xs ++ ys)) := by
  have noNan : (Float64.sort (xs ++ ys)).any Number.isNan = false := by
    rw [List.any_eq_false]
    intro x member
    rcases List.mem_append.mp (mem_sort.mp member) with honest | crafted
    · obtain ⟨q, rfl, _⟩ := each x honest
      exact Bool.false_ne_true
    · cases x with
      | nan => exact absurd rfl (numbers _ crafted)
      | inf negative => exact Bool.false_ne_true
      | fin q => exact Bool.false_ne_true
  have cut : ∀ first count : ℕ, ys.length ≤ first → 0 < count →
      first + count + ys.length ≤ (xs ++ ys).length →
      Within bound (exactFloat64.mean (((Float64.sort (xs ++ ys)).drop first).take count)) := by
    intro first count low positive high
    rw [List.take_drop]
    apply mean_within
    · rw [Ne, ← List.length_eq_zero_iff, List.length_drop, List.length_take, length_sort]
      omega
    · exact middle_within each low high
  rw [List.length_append] at cut
  unfold Float64.median
  dsimp only
  rw [if_neg (by rw [noNan]; exact Bool.false_ne_true), List.length_append]
  split
  · exact cut _ _ (by omega) (by omega) (by omega)
  · exact cut _ _ (by omega) (by omega) (by omega)

theorem coordinateMedian_resists (each : ∀ u ∈ honest, ∀ x ∈ u, Within bound x)
    (few : malicious.length < honest.length) (numbers : ∀ u ∈ malicious, ∀ x ∈ u, x ≠ .nan)
    {flat : List Number}
    (aggregated : Erasure.coordinateMedian exactFloat64 (honest ++ malicious) = .ok flat) :
    ∀ x ∈ flat, Within bound x := by
  unfold Erasure.coordinateMedian at aggregated
  obtain ⟨mat, stacked, done⟩ := bind_eq_ok aggregated
  obtain ⟨rfl, _, d, dimension⟩ := stack_matrix stacked
  cases done
  intro x member
  obtain ⟨column, among, rfl⟩ := List.mem_map.mp member
  obtain ⟨j, short, rfl, entries⟩ := columns_split dimension each among
  apply median_resists entries
  · rw [List.length_map, List.length_map]
    exact few
  · intro y crafted
    obtain ⟨u, row, rfl⟩ := List.mem_map.mp crafted
    have width := dimension u (List.mem_append_right honest row)
    exact numbers u row _ (mem_getD (width ▸ short) .nan)

end

/-! Round after round. -/

/-- A round with the clients that poison it. -/
structure PoisonedRound where
  gen : Generator
  call : RoundCall gen
  random : ℕ → ℕ → ShamirSecretSharing.Coefficients SecureMean.prime 3
  attack : Attack

def PoisonedRound.run (np : Float64) (globalQ : Option Erasure.QTable) (round : PoisonedRound) :
    Except PyErr (Option Erasure.QTable) := do
  let result ← federatedRound np round.random round.call round.attack globalQ
  .ok (some result.globalQ)

/-- Each round is warm-started with the global table of the one before. -/
def runPoisonedRounds (np : Float64) (globalQ : Option Erasure.QTable)
    (rounds : List PoisonedRound) : Except PyErr (Option Erasure.QTable) :=
  rounds.foldlM (PoisonedRound.run np) globalQ

def NoNan (q : Erasure.QTable) : Prop := ∀ row ∈ q, ∀ x ∈ row, x ≠ .nan

/-- No more clients poison than the round is told of. The trimmed mean is enough then; the
    median needs an honest majority, and numbers. -/
structure Resisted (bound : ℚ) (round : PoisonedRound) : Prop where
  few : ∀ globalQ honest malicious, round.attack globalQ honest = .ok malicious →
    malicious.length ≤ round.call.nMalicious.toNat
  robust : round.call.method = "trimmed_mean" ∨ round.call.method = "median" ∧
    0 < round.call.nClients ∧ 2 * round.call.nMalicious < round.call.nClients ∧
    ∀ globalQ honest malicious, (∀ q ∈ globalQ, TableWithin bound q) →
      (∀ q ∈ honest, TableWithin bound q) →
      honest.length = (round.call.nClients - round.call.nMalicious).toNat →
      round.attack globalQ honest = .ok malicious → ∀ q ∈ malicious, NoNan q

/-- The honest clients' discount, and rewards of at most this magnitude. -/
def RoundCall.Earns {gen : Generator} (gamma reward : ℚ) (call : RoundCall gen) : Prop :=
  Learns gamma call.qCfg.toQLearnConfig ∧ RewardsWithin reward call.dsaCfg

theorem length_of_mapM {f : α → Except PyErr β} {xs : List α} {ys : List β}
    (mapped : xs.mapM f = .ok ys) : ys.length = xs.length :=
  (mapM_eq_ok_iff.mp mapped).length_eq.symm

section
variable {gamma reward : ℚ} (nonneg : 0 ≤ gamma) (below : gamma < 1) (positive : 0 ≤ reward)
  {globalQ : Option Erasure.QTable}
  (start : ∀ q ∈ globalQ, TableWithin (reward / (1 - gamma)) q)
include nonneg below positive start

theorem honestQs_within {gen : Generator} {call : RoundCall gen} (earns : call.Earns gamma reward)
    {honest : List Erasure.QTable} (trained : honestQs exactFloat64 call globalQ = .ok honest) :
    ∀ q ∈ honest, TableWithin (reward / (1 - gamma)) q := by
  intro q member
  obtain ⟨c, _, client⟩ := source_of_mapM trained member
  obtain ⟨env, _, client⟩ := bind_eq_ok client
  obtain ⟨learns, paid⟩ := earns
  exact trainLocalQ_within nonneg below learns paid start positive client

theorem poisonedRound_within {round : PoisonedRound} (earns : round.call.Earns gamma reward)
    (resisted : Resisted (reward / (1 - gamma)) round) {next : Option Erasure.QTable}
    (ran : round.run exactFloat64 globalQ = .ok next) :
    ∀ q ∈ next, TableWithin (reward / (1 - gamma)) q := by
  unfold PoisonedRound.run at ran
  obtain ⟨result, inner, done⟩ := bind_eq_ok ran
  cases done
  unfold federatedRound at inner
  obtain ⟨ns, _, ran⟩ := bind_eq_ok inner
  obtain ⟨honest, trained, ran⟩ := bind_eq_ok ran
  obtain ⟨malicious, crafted, ran⟩ := bind_eq_ok ran
  obtain ⟨⟨aggFlat, selected⟩, aggregated, ran⟩ := bind_eq_ok ran
  obtain ⟨newGlobal, reshaped, ran⟩ := bind_eq_ok ran
  cases ran
  intro q same
  cases same
  have honestWithin := honestQs_within nonneg below positive start earns trained
  have each : ∀ u ∈ honest.map List.flatten, ∀ x ∈ u, Within (reward / (1 - gamma)) x := by
    intro u member x among
    obtain ⟨table, upload, rfl⟩ := List.mem_map.mp member
    obtain ⟨row, inside, entry⟩ := List.mem_flatten.mp among
    exact honestWithin table upload row inside x entry
  have few := resisted.few globalQ honest malicious crafted
  have count := length_of_mapM trained
  rw [List.length_range] at count
  refine reshape_within ?_ reshaped
  unfold aggregateQ at aggregated
  rw [List.map_append] at aggregated
  rcases resisted.robust with trimmed | ⟨median, some_, majority, numbers⟩
  · rw [trimmed] at aggregated
    dsimp only at aggregated
    rw [if_neg (by simp), if_neg (by simp), if_neg (by simp), if_pos rfl] at aggregated
    obtain ⟨flat, made, same⟩ := map_eq_ok aggregated
    cases same
    apply trimmedMean_resists each _ made
    rw [List.length_map, toldMalicious, if_pos (Or.inr trimmed)]
    omega
  · rw [median] at aggregated
    dsimp only at aggregated
    rw [if_neg (by simp), if_neg (by simp), if_pos rfl] at aggregated
    obtain ⟨flat, made, same⟩ := map_eq_ok aggregated
    cases same
    apply coordinateMedian_resists each _ _ made
    · rw [List.length_map, List.length_map]
      omega
    · intro u member x among
      obtain ⟨table, upload, rfl⟩ := List.mem_map.mp member
      obtain ⟨row, inside, entry⟩ := List.mem_flatten.mp among
      exact numbers globalQ honest malicious start honestWithin count crafted table upload row
        inside x entry

theorem rounds_resisted {rounds : List PoisonedRound}
    (earns : ∀ round ∈ rounds, round.call.Earns gamma reward)
    (resisted : ∀ round ∈ rounds, Resisted (reward / (1 - gamma)) round)
    {final : Option Erasure.QTable}
    (ran : runPoisonedRounds exactFloat64 globalQ rounds = .ok final) :
    ∀ q ∈ final, TableWithin (reward / (1 - gamma)) q := by
  unfold runPoisonedRounds at ran
  induction rounds generalizing globalQ with
  | nil =>
    cases ran
    exact start
  | cons round rest ih =>
    obtain ⟨next, first, ran⟩ := bind_eq_ok ran
    have bounded := poisonedRound_within nonneg below positive start
      (earns round List.mem_cons_self) (resisted round List.mem_cons_self) first
    exact ih bounded (fun later member => earns later (List.mem_cons_of_mem round member))
      (fun later member => resisted later (List.mem_cons_of_mem round member)) ran

end

/-- However a minority poisons a round, knowing the tables of the honest clients and every
    global table so far, no entry of a global table exceeds what the rewards are worth. -/
theorem poisonedRounds_within (gamma reward : ℚ) (nonneg : 0 ≤ gamma) (below : gamma < 1)
    (positive : 0 ≤ reward) (rounds : List PoisonedRound)
    (earns : ∀ round ∈ rounds, round.call.Earns gamma reward)
    (resisted : ∀ round ∈ rounds, Resisted (reward / (1 - gamma)) round)
    (globalQ : Option Erasure.QTable)
    (start : ∀ q ∈ globalQ, TableWithin (reward / (1 - gamma)) q) (final : Option Erasure.QTable)
    (ran : runPoisonedRounds exactFloat64 globalQ rounds = .ok final) :
    ∀ q ∈ final, TableWithin (reward / (1 - gamma)) q :=
  rounds_resisted nonneg below positive start earns resisted ran

def steadyCoefficients (_client _elem : ℕ) :
    ShamirSecretSharing.Coefficients SecureMean.prime 3 := ⟨[5, 7], rfl, by simp [SecureMean.prime]⟩

/-- Two honest cells, and one whose table is of infinities and NaNs. -/
def infiniteRound : PoisonedRound where
  gen := steadyGenerator
  call := ⟨3, 1, { nChannels := 1, nUsers := 1, maxSteps := 2 }, { episodes := 1 }, "trimmed_mean",
    false, 0⟩
  random := steadyCoefficients
  attack := fun _ _ => .ok [[[.inf true, .nan], [.nan, .inf false]]]

theorem infiniteRounds_within : ∃ q,
    runPoisonedRounds exactFloat64 none [infiniteRound, infiniteRound] = .ok (some q) ∧
      TableWithin 10 q := by
  have finished :
      (runPoisonedRounds exactFloat64 none [infiniteRound, infiniteRound]).toOption.join.isSome =
        true := by
    decide +kernel
  have half : Within 1 (.fin (-1 / 2)) := ⟨-1 / 2, rfl, by norm_num [abs_le]⟩
  have earns : infiniteRound.call.Earns (9 / 10) 1 :=
    ⟨⟨0.15, rfl, by norm_num, by norm_num, congrArg Number.fin (by norm_num)⟩,
      ⟨1, rfl, by norm_num⟩, half, ⟨0, rfl, by norm_num⟩, half⟩
  have resisted : Resisted (1 / (1 - 9 / 10)) infiniteRound := by
    refine ⟨?_, Or.inl rfl⟩
    intro globalQ honest malicious crafted
    cases crafted
    decide
  have bounded := poisonedRounds_within (9 / 10) 1 (by norm_num) (by norm_num) (by norm_num)
    [infiniteRound, infiniteRound] (by simpa using earns) (by simpa using resisted) none (by simp)
  cases ran : runPoisonedRounds exactFloat64 none [infiniteRound, infiniteRound] with
  | error e =>
    rw [ran] at finished
    cases finished
  | ok final =>
    cases final with
    | none =>
      rw [ran] at finished
      cases finished
    | some q =>
      have within := bounded _ ran q rfl
      norm_num at within
      exact ⟨q, rfl, within⟩

end HorizonRic.Spectrum
