import HorizonRic.Spectrum.PoisonedRounds

/-!
The attacks that `spectrum/federated_q.py` and `spectrum/data_poison.py` mount on their own
rounds. They upload no more tables than they may and, among honest clients, numbers.
-/
namespace HorizonRic.Spectrum
open Py

/-- The shape of a table; a negative number of channels is refused before it is used. -/
def tableShape (dsaCfg : DSAConfig) : ℕ × ℕ :=
  (2 ^ dsaCfg.nChannels.toNat, Erasure.nActions dsaCfg.nChannels)

section
variable (np : Float64)

/-- The updates that are derived from the honest ones. -/
def craftUpdates (log : Number → Number) (flats : List (List Number)) (nMalicious : ℕ)
    (attack : String) : Except PyErr (List (List Number)) :=
  if attack = "alie" then alieAttack np log flats nMalicious none
  else if attack = "fang_krum" then fangAttackKrum np flats nMalicious (.fin 10) 25
  else if attack = "fang_median" then fangAttackMedian np flats nMalicious (.fin 3)
  else .error .valueError

def buildMaliciousQs (log : Number → Number) (nMalicious : Int) (attack : String)
    (shape : ℕ × ℕ) : Attack := fun _ honestQs =>
  if nMalicious ≤ 0 ∨ attack = "none" then .ok []
  else if attack = "qtable_target" then
    (List.range nMalicious.toNat).mapM fun _ => craftPoisonQ shape 0 (.fin 50)
  else do
    let mal ← craftUpdates np log (honestQs.map List.flatten) nMalicious.toNat attack
    mal.mapM (Erasure.reshape shape.1 shape.2)

def defaultBackdoor : BackdoorSpec := { triggerState := 0, targetChannel := 0 }

section
variable (gen : Generator) (normal : gen.State → Number → ℕ → List Number)

/-- Gaussian noise on the table that was broadcast, and nothing learned. -/
def freeRiderUpdate (globalQ : Option Erasure.QTable) (shape : ℕ × ℕ) (sigma : Number)
    (seed : Int) : Except PyErr Erasure.QTable := do
  let rng ← gen.defaultRng seed
  let base := globalQ.getD (List.replicate shape.1 (List.replicate shape.2 (.fin 0)))
  if base.length ≠ shape.1 ∨ base.any (fun row => row.length ≠ shape.2) then .error .valueError
  else do
    let noise ← Erasure.reshape shape.1 shape.2 (normal rng sigma (shape.1 * shape.2))
    .ok (List.zipWith (List.zipWith np.add) base noise)

/-- One client's table under a data-side attack. -/
def dataPoisonQ (dsaCfg : DSAConfig) (qCfg : QLearnConfig) (globalQ : Option Erasure.QTable)
    (backdoor : Option BackdoorSpec) (attack : String) (cseed : Int) :
    Except PyErr Erasure.QTable :=
  if attack = "reward_poison" then do
    let _env ← (DSAEnv.reset dsaCfg cseed : Except PyErr (DSAEnv gen))
    trainRewardPoisonedQ gen np qCfg dsaCfg globalQ cseed (.fin 1)
  else if attack = "backdoor" then do
    let _env ← (DSAEnv.reset dsaCfg cseed : Except PyErr (DSAEnv gen))
    trainBackdoorQ gen np qCfg dsaCfg globalQ cseed (backdoor.getD defaultBackdoor)
  else if attack = "free_rider" then
    freeRiderUpdate np gen normal globalQ (tableShape dsaCfg) (.fin 1e-3) cseed
  else .error .valueError

def buildDataPoisonQs (dsaCfg : DSAConfig) (qCfg : QLearnConfig)
    (backdoor : Option BackdoorSpec) (attack : String) (nMalicious : Int) (seed : Int) : Attack :=
  fun globalQ _ =>
    if nMalicious ≤ 0 ∨ attack = "none" then .ok []
    else (List.range nMalicious.toNat).mapM fun (m : ℕ) =>
      dataPoisonQ np gen normal dsaCfg qCfg globalQ backdoor attack
        (seed * 1000 + 9000 + (m : Int) + 1)

end

variable (random : ℕ → ℕ → ShamirSecretSharing.Coefficients SecureMean.prime 3)

def federatedDsaRound {gen : Generator} (log : Number → Number) (call : RoundCall gen)
    (attack : String) : PoisonedRound :=
  ⟨gen, call, random, buildMaliciousQs np log call.nMalicious attack (tableShape call.dsaCfg)⟩

/-- The mean is not shared out in secret here. -/
def federatedDsaRoundDataPoison {gen : Generator}
    (normal : gen.State → Number → ℕ → List Number) (call : RoundCall gen)
    (backdoor : Option BackdoorSpec) (attack : String) : PoisonedRound :=
  ⟨gen, { call with secureAgg := false }, random,
    buildDataPoisonQs np gen normal call.dsaCfg call.qCfg backdoor attack call.nMalicious call.seed⟩

end

/-! They upload numbers. -/

def AllFinite (xs : List Number) : Prop := ∀ x ∈ xs, x.isFinite = true

theorem exists_fin {x : Number} (finite : x.isFinite = true) : ∃ q, x = .fin q := by
  cases x with
  | fin q => exact ⟨q, rfl⟩
  | nan => cases finite
  | inf negative => cases finite

theorem Within.finite {bound : ℚ} {x : Number} (within : Within bound x) : x.isFinite = true := by
  obtain ⟨q, rfl, _⟩ := within
  rfl

theorem exact_sub (p q : ℚ) : exactFloat64.sub (.fin p) (.fin q) = .fin (p - q) :=
  Number.fin_sub p q

theorem exact_closed {x y : Number} (left : x.isFinite = true) (right : y.isFinite = true) :
    (exactFloat64.add x y).isFinite = true ∧ (exactFloat64.sub x y).isFinite = true ∧
      (exactFloat64.mul x y).isFinite = true := by
  obtain ⟨p, rfl⟩ := exists_fin left
  obtain ⟨q, rfl⟩ := exists_fin right
  exact ⟨rfl, rfl, rfl⟩

theorem finite_zipWith {f : Number → Number → Number}
    (closed : ∀ x y, x.isFinite = true → y.isFinite = true → (f x y).isFinite = true)
    {xs ys : List Number} (left : AllFinite xs) (right : AllFinite ys) :
    AllFinite (List.zipWith f xs ys) := by
  induction xs generalizing ys with
  | nil =>
    intro z member
    cases member
  | cons x xs ih =>
    cases ys with
    | nil =>
      intro z member
      cases member
    | cons y ys =>
      intro z member
      rcases List.mem_cons.mp member with rfl | later
      · exact closed x y (left x List.mem_cons_self) (right y List.mem_cons_self)
      · exact ih (fun x' among => left x' (List.mem_cons_of_mem x among))
          (fun y' among => right y' (List.mem_cons_of_mem y among)) z later

theorem finite_map {f : Number → Number}
    (closed : ∀ x, x.isFinite = true → (f x).isFinite = true) {xs : List Number}
    (each : AllFinite xs) : AllFinite (xs.map f) := by
  intro y member
  obtain ⟨x, among, rfl⟩ := List.mem_map.mp member
  exact closed x (each x among)

section
variable {bound : ℚ}

theorem std_finite {xs : List Number} (some_ : xs ≠ []) (each : ∀ x ∈ xs, Within bound x) :
    (std exactFloat64 xs).isFinite = true := by
  obtain ⟨qs, rfl, _⟩ := exists_rationals each
  have filled : qs ≠ [] := by simpa using some_
  have squares : (qs.map Number.fin).map (fun x => exactFloat64.mul
      (exactFloat64.sub x (.fin (OrderAggregation.mean qs)))
      (exactFloat64.sub x (.fin (OrderAggregation.mean qs)))) =
        (qs.map fun q => (q - OrderAggregation.mean qs) * (q - OrderAggregation.mean qs)).map
          Number.fin := by
    rw [List.map_map, List.map_map]
    apply List.map_congr_left
    intro q _
    change (Number.fin q - .fin _) * (Number.fin q - .fin _) = _
    rw [Number.fin_sub, Number.fin_mul, Function.comp_apply]
  have nonneg : 0 ≤ OrderAggregation.mean
      (qs.map fun q => (q - OrderAggregation.mean qs) * (q - OrderAggregation.mean qs)) := by
    refine div_nonneg (List.sum_nonneg ?_) (Nat.cast_nonneg _)
    intro x member
    obtain ⟨q, _, rfl⟩ := List.mem_map.mp member
    exact mul_self_nonneg _
  unfold std
  dsimp only
  rw [OrderAggregation.mean_fin filled, squares, OrderAggregation.mean_fin (by simpa using filled)]
  rw [show exactFloat64.sqrt = exactSqrt from rfl, exactSqrt, if_neg (not_lt.mpr nonneg)]
  rfl

theorem axis_finite {mat : List (List Number)} (some_ : mat ≠ []) {d : ℕ}
    (dimension : ∀ u ∈ mat, u.length = d) (each : ∀ u ∈ mat, ∀ x ∈ u, Within bound x) :
    AllFinite (axisMean exactFloat64 mat) ∧ AllFinite (axisStd exactFloat64 mat) := by
  have filled : ∀ column ∈ Erasure.columns mat, column ≠ [] ∧ ∀ x ∈ column, Within bound x := by
    intro column among
    obtain ⟨length, entries⟩ := columns_within dimension each among
    refine ⟨?_, entries⟩
    rintro rfl
    exact some_ (List.eq_nil_of_length_eq_zero length.symm)
  rw [axisMean, axisStd, if_neg some_, if_neg some_]
  constructor
  · intro x member
    obtain ⟨column, among, rfl⟩ := List.mem_map.mp member
    exact (mean_within (filled column among).1 (filled column among).2).finite
  · intro x member
    obtain ⟨column, among, rfl⟩ := List.mem_map.mp member
    exact std_finite (filled column among).1 (filled column among).2

section
/- The logarithm of a positive number is one. -/
variable {log : Number → Number} (logs : ∀ q : ℚ, 0 < q → (log (.fin q)).isFinite = true)

theorem horner_finite (coefficients : List ℚ) {x : Number} (finite : x.isFinite = true) :
    (horner exactFloat64 coefficients x).isFinite = true := by
  have from_ : ∀ (rest : List ℚ) (value : Number), value.isFinite = true →
      (rest.foldl (fun value c => exactFloat64.add (exactFloat64.mul value x) (.fin c))
        value).isFinite = true := by
    intro rest
    induction rest with
    | nil =>
      intro value known
      exact known
    | cons c rest ih =>
      intro value known
      have product := (exact_closed known finite).2.2
      exact ih _ (exact_closed (y := .fin c) product rfl).1
  cases coefficients with
  | nil => rfl
  | cons first rest => exact from_ rest _ rfl

theorem quotient_finite {num den z : Number} (left : num.isFinite = true)
    (right : den.isFinite = true) (divided : quotient exactFloat64 num den = .ok z) :
    z.isFinite = true := by
  obtain ⟨p, rfl⟩ := exists_fin left
  obtain ⟨q, rfl⟩ := exists_fin right
  obtain ⟨out, found, rfl⟩ := map_eq_ok divided
  unfold Number.div at found
  dsimp only at found
  split at found
  · cases found
  · cases found
    rfl

theorem mathSqrt_finite {x z : Number} (finite : x.isFinite = true)
    (root : mathSqrt exactFloat64 x = .ok z) : z.isFinite = true := by
  obtain ⟨q, rfl⟩ := exists_fin finite
  unfold mathSqrt at root
  split at root
  · cases root
  · rename_i nonneg
    cases root
    rw [Number.lt_fin, decide_eq_true_eq] at nonneg
    rw [show exactFloat64.sqrt = exactSqrt from rfl, exactSqrt, if_neg nonneg]
    rfl

include logs

theorem phiInv_finite {p : ℚ} {z : Number} (found : phiInv exactFloat64 log (.fin p) = .ok z) :
    z.isFinite = true := by
  unfold phiInv at found
  rw [Number.max_fin, exact_sub,
    Number.min_fin] at found
  generalize inside : min (max p 1e-12) (1 - 1e-12) = p' at found
  have low : 0 < p' := by
    rw [← inside]
    apply lt_min _ (by norm_num)
    exact lt_of_lt_of_le (by norm_num) (le_max_right p 1e-12)
  have high : 0 < 1 - p' := by
    have least := min_le_right (max p 1e-12) (1 - 1e-12)
    rw [inside] at least
    norm_num at least ⊢
    linarith
  dsimp only at found
  split at found
  · obtain ⟨q, root, found⟩ := bind_eq_ok found
    have finite := mathSqrt_finite (exact_closed rfl (logs p' low)).2.2 root
    exact quotient_finite (horner_finite _ finite) (horner_finite _ finite) found
  · split at found
    · obtain ⟨q, root, found⟩ := bind_eq_ok found
      rw [exact_sub] at root
      have finite := mathSqrt_finite (exact_closed rfl (logs (1 - p') high)).2.2 root
      obtain ⟨top, value⟩ := exists_fin (horner_finite tailNumerator finite)
      rw [value] at found
      exact quotient_finite rfl (horner_finite _ finite) found
    · have centred : (exactFloat64.sub (.fin p') (.fin 0.5)).isFinite = true := rfl
      have square := (exact_closed centred centred).2.2
      have top := (exact_closed (horner_finite centralNumerator square) centred).2.2
      exact quotient_finite top (horner_finite _ square) found

theorem alieZ_finite {nTotal nMalicious : ℕ} {z : Number}
    (found : alieZ exactFloat64 log nTotal nMalicious = .ok z) : z.isFinite = true := by
  unfold alieZ at found
  dsimp only at found
  rw [show exactFloat64.round = id from rfl, id, Number.max_fin,
    exact_sub, Number.min_fin] at found
  exact phiInv_finite logs found

omit logs in
theorem population_matrix {benign mat : List (List Number)} (some_ : benign ≠ [])
    (stacked : population benign = .ok mat) : mat = benign ∧ ∃ d, ∀ u ∈ benign, u.length = d := by
  unfold population at stacked
  rw [if_neg some_] at stacked
  obtain ⟨same, _, d, dimension⟩ := stack_matrix stacked
  exact ⟨same, d, dimension⟩

omit logs in
theorem against_finite {x : Number} (finite : x.isFinite = true) :
    (against x).isFinite = true := by
  obtain ⟨q, rfl⟩ := exists_fin finite
  unfold against
  dsimp only
  split
  · rfl
  · rfl

omit logs in
theorem searchLambda_finite {mat : List (List Number)} {mu direction : List Number}
    {nMalicious steps : ℕ} {lam out : Number} (start : lam.isFinite = true)
    (searched : searchLambda exactFloat64 mat mu direction nMalicious steps lam = .ok out) :
    out.isFinite = true := by
  induction steps generalizing lam with
  | zero =>
    cases searched
    exact start
  | succ steps ih =>
    obtain ⟨admitted, _, searched⟩ := bind_eq_ok searched
    split at searched
    · cases searched
      exact start
    · obtain ⟨q, rfl⟩ := exists_fin start
      exact ih rfl searched

variable {benign mal : List (List Number)} (some_ : benign ≠ [])
  (each : ∀ u ∈ benign, ∀ x ∈ u, Within bound x) {nMalicious : ℕ}
include some_ each

theorem alieAttack_finite
    (crafted : alieAttack exactFloat64 log benign nMalicious none = .ok mal) :
    ∀ u ∈ mal, AllFinite u := by
  obtain ⟨mat, stacked, made⟩ := bind_eq_ok crafted
  obtain ⟨rfl, d, dimension⟩ := population_matrix some_ stacked
  obtain ⟨z, found, done⟩ := bind_eq_ok made
  cases done
  intro u member
  rw [List.eq_of_mem_replicate member]
  obtain ⟨means, stds⟩ := axis_finite some_ dimension each
  have factor := alieZ_finite logs found
  exact finite_zipWith
    (fun x y left right => (exact_closed left (exact_closed factor right).2.2).2.1) means stds

omit logs in
theorem directions_finite {d : ℕ} (dimension : ∀ u ∈ benign, u.length = d)
    {direction : List Number} (directed : directions exactFloat64 benign = .ok direction) :
    AllFinite direction := by
  unfold directions at directed
  rw [if_neg some_] at directed
  cases directed
  exact finite_map (fun x finite => against_finite finite) (axis_finite some_ dimension each).1

omit logs in
theorem fangAttackKrum_finite {lambdaInit : Number} (start : lambdaInit.isFinite = true)
    {nSteps : ℕ}
    (crafted : fangAttackKrum exactFloat64 benign nMalicious lambdaInit nSteps = .ok mal) :
    ∀ u ∈ mal, AllFinite u := by
  obtain ⟨mat, stacked, made⟩ := bind_eq_ok crafted
  obtain ⟨rfl, d, dimension⟩ := population_matrix some_ stacked
  obtain ⟨direction, directed, made⟩ := bind_eq_ok made
  obtain ⟨lam, searched, done⟩ := bind_eq_ok made
  cases done
  intro u member
  rw [List.eq_of_mem_replicate member]
  have means := (axis_finite some_ dimension each).1
  have along := directions_finite some_ each dimension directed
  have found : lam.isFinite = true := searchLambda_finite start searched
  exact finite_zipWith
    (fun x y left right => (exact_closed left (exact_closed found right).2.2).1) means along

omit logs in
theorem fangAttackMedian_finite {lam : Number} (start : lam.isFinite = true)
    (crafted : fangAttackMedian exactFloat64 benign nMalicious lam = .ok mal) :
    ∀ u ∈ mal, AllFinite u := by
  obtain ⟨mat, stacked, made⟩ := bind_eq_ok crafted
  obtain ⟨rfl, d, dimension⟩ := population_matrix some_ stacked
  obtain ⟨direction, directed, done⟩ := bind_eq_ok made
  cases done
  intro u member
  rw [List.eq_of_mem_replicate member]
  obtain ⟨means, stds⟩ := axis_finite some_ dimension each
  have along := directions_finite some_ each dimension directed
  have widened := finite_map (fun x finite => (exact_closed (y := .fin 1e-9) finite rfl).1) stds
  have shift := finite_zipWith
    (fun x y left right => (exact_closed (exact_closed start left).2.2 right).2.2) widened along
  exact finite_zipWith (fun x y left right => (exact_closed left right).1) means shift

end
end

theorem mem_of_reshape {ns na : ℕ} {flat : List Number} {q : Erasure.QTable}
    (reshaped : Erasure.reshape ns na flat = .ok q) : ∀ row ∈ q, ∀ x ∈ row, x ∈ flat := by
  unfold Erasure.reshape at reshaped
  split at reshaped
  · cases reshaped
    intro row member x among
    obtain ⟨i, _, rfl⟩ := List.mem_map.mp member
    exact List.mem_of_mem_drop (List.mem_of_mem_take among)
  · cases reshaped

theorem noNan_of_finite {q : Erasure.QTable} (finite : ∀ row ∈ q, AllFinite row) : NoNan q := by
  intro row member x among
  rintro rfl
  cases finite row member _ among

theorem noNan_of_within {bound : ℚ} {q : Erasure.QTable} (within : TableWithin bound q) :
    NoNan q :=
  noNan_of_finite fun row member x among => (within row member x among).finite

theorem reshaped_noNan {shape : ℕ × ℕ} {mal : List (List Number)} {out : List Erasure.QTable}
    (finite : ∀ u ∈ mal, AllFinite u)
    (reshaped : mal.mapM (Erasure.reshape shape.1 shape.2) = .ok out) : ∀ q ∈ out, NoNan q := by
  intro q member
  obtain ⟨u, among, made⟩ := source_of_mapM reshaped member
  exact noNan_of_finite fun row inside x entry => finite u among x
    (mem_of_reshape made row inside x entry)

theorem noNan_set {q : Erasure.QTable} (numbers : NoNan q) {s : ℕ} {row : List Number}
    (changed : ∀ x ∈ row, x ≠ .nan) : NoNan (q.set s row) := by
  intro other member
  rcases List.mem_or_eq_of_mem_set member with old | rfl
  · exact numbers other old
  · exact changed

/-- A row of zeros with one entry written. -/
theorem zeros_set_noNan {row : List Number} (zeros : ∀ x ∈ row, x = .fin 0) {target : ℕ}
    {value : Number} (number : value ≠ .nan) : ∀ x ∈ row.set target value, x ≠ .nan := by
  intro x member
  rcases List.mem_or_eq_of_mem_set member with old | rfl
  · rw [zeros x old]
    exact Number.noConfusion
  · exact number

theorem craftPoisonQ_noNan {shape : ℕ × ℕ} {target : Int} {magnitude : ℚ} {q : Erasure.QTable}
    (crafted : craftPoisonQ shape target (.fin magnitude) = .ok q) : NoNan q := by
  obtain ⟨i, _, done⟩ := bind_eq_ok crafted
  cases done
  intro row member
  rw [List.eq_of_mem_replicate member]
  exact zeros_set_noNan (fun x => List.eq_of_mem_replicate) Number.noConfusion

theorem stampBackdoor_noNan {q stamped : Erasure.QTable} {spec : BackdoorSpec} (numbers : NoNan q)
    (boost : spec.boost ≠ .nan) (done : stampBackdoor q spec = .ok stamped) : NoNan stamped := by
  obtain ⟨s, _, done⟩ := bind_eq_ok done
  obtain ⟨target, _, done⟩ := bind_eq_ok done
  cases done
  apply noNan_set numbers
  apply zeros_set_noNan _ boost
  intro x member
  obtain ⟨_, _, rfl⟩ := List.mem_map.mp member
  rfl

theorem craftUpdates_length {np : Float64} {log : Number → Number} {flats mal : List (List Number)}
    {nMalicious : ℕ} {attack : String}
    (made : craftUpdates np log flats nMalicious attack = .ok mal) : mal.length = nMalicious := by
  unfold craftUpdates at made
  split at made
  · obtain ⟨_, _, made⟩ := bind_eq_ok made
    obtain ⟨_, _, made⟩ := bind_eq_ok made
    cases made
    exact List.length_replicate
  · split at made
    · obtain ⟨_, _, made⟩ := bind_eq_ok made
      obtain ⟨_, _, made⟩ := bind_eq_ok made
      obtain ⟨_, _, made⟩ := bind_eq_ok made
      cases made
      exact List.length_replicate
    · split at made
      · obtain ⟨_, _, made⟩ := bind_eq_ok made
        obtain ⟨_, _, made⟩ := bind_eq_ok made
        cases made
        exact List.length_replicate
      · cases made

theorem buildMaliciousQs_few {np : Float64} {log : Number → Number} {nMalicious : Int}
    {attack : String} {shape : ℕ × ℕ} (globalQ : Option Erasure.QTable)
    {honest malicious : List Erasure.QTable}
    (built : buildMaliciousQs np log nMalicious attack shape globalQ honest = .ok malicious) :
    malicious.length ≤ nMalicious.toNat := by
  unfold buildMaliciousQs at built
  split at built
  · cases built
    exact Nat.zero_le _
  · split at built
    · rw [length_of_mapM built, List.length_range]
    · obtain ⟨mal, made, reshaped⟩ := bind_eq_ok built
      rw [length_of_mapM reshaped, craftUpdates_length made]

theorem buildDataPoisonQs_few {np : Float64} {gen : Generator}
    {normal : gen.State → Number → ℕ → List Number} {dsaCfg : DSAConfig} {qCfg : QLearnConfig}
    {backdoor : Option BackdoorSpec} {attack : String} {nMalicious seed : Int}
    (globalQ : Option Erasure.QTable) (honest : List Erasure.QTable)
    {malicious : List Erasure.QTable} (built : buildDataPoisonQs np gen normal dsaCfg qCfg backdoor attack nMalicious seed globalQ
      honest = .ok malicious) : malicious.length ≤ nMalicious.toNat := by
  unfold buildDataPoisonQs at built
  split at built
  · cases built
    exact Nat.zero_le _
  · rw [length_of_mapM built, List.length_range]

section
variable {bound : ℚ} {log : Number → Number}
  (logs : ∀ q : ℚ, 0 < q → (log (.fin q)).isFinite = true)
include logs

theorem buildMaliciousQs_noNan {nMalicious : Int} {attack : String} {shape : ℕ × ℕ}
    (globalQ : Option Erasure.QTable) {honest malicious : List Erasure.QTable}
    (some_ : honest ≠ []) (within : ∀ q ∈ honest, TableWithin bound q)
    (built : buildMaliciousQs exactFloat64 log nMalicious attack shape globalQ honest =
      .ok malicious) : ∀ q ∈ malicious, NoNan q := by
  have filled : honest.map List.flatten ≠ [] := by simpa using some_
  have each : ∀ u ∈ honest.map List.flatten, ∀ x ∈ u, Within bound x := by
    intro u member x among
    obtain ⟨table, upload, rfl⟩ := List.mem_map.mp member
    obtain ⟨row, inside, entry⟩ := List.mem_flatten.mp among
    exact within table upload row inside x entry
  unfold buildMaliciousQs at built
  split at built
  · cases built
    intro q member
    cases member
  · split at built
    · intro q member
      obtain ⟨_, _, made⟩ := source_of_mapM built member
      exact craftPoisonQ_noNan made
    · obtain ⟨mal, made, reshaped⟩ := bind_eq_ok built
      refine reshaped_noNan ?_ reshaped
      unfold craftUpdates at made
      split at made
      · exact alieAttack_finite logs filled each made
      · split at made
        · exact fangAttackKrum_finite filled each rfl made
        · split at made
          · exact fangAttackMedian_finite filled each rfl made
          · cases made

end

/-! Data-side attacks learn from rewards of the same size. -/

section
variable {gamma reward : ℚ}

theorem neg_within {bound : ℚ} {x : Number} (within : Within bound x) : Within bound (-x) := by
  obtain ⟨q, rfl, small⟩ := within
  exact ⟨-q, rfl, by rwa [abs_neg]⟩

theorem poisonReward_within {dsaCfg : DSAConfig} (paid : RewardsWithin reward dsaCfg)
    (info : StepInfo) : Within reward (poisonReward dsaCfg info) := by
  obtain ⟨success, collision, idle, puClash⟩ := paid
  unfold poisonReward
  split
  · exact neg_within success
  · split
    · exact neg_within collision
    · split
      · exact neg_within puClash
      · exact idle

theorem freeRiderUpdate_noNan {bound : ℚ} {gen : Generator}
    {normal : gen.State → Number → ℕ → List Number}
    (noise : ∀ rng n, AllFinite (normal rng (.fin 1e-3) n)) {globalQ : Option Erasure.QTable}
    (start : ∀ q ∈ globalQ, TableWithin bound q) {shape : ℕ × ℕ} {seed : Int}
    {q : Erasure.QTable}
    (ridden : freeRiderUpdate exactFloat64 gen normal globalQ shape (.fin 1e-3) seed = .ok q) :
    NoNan q := by
  obtain ⟨rng, _, ridden⟩ := bind_eq_ok ridden
  dsimp only at ridden
  split at ridden
  · cases ridden
  · obtain ⟨drawn, reshaped, done⟩ := bind_eq_ok ridden
    cases done
    have base : ∀ row ∈ globalQ.getD (List.replicate shape.1 (List.replicate shape.2 (.fin 0))),
        AllFinite row := by
      cases globalQ with
      | none =>
        intro row member x among
        rw [Option.getD_none] at member
        rw [List.eq_of_mem_replicate member] at among
        rw [List.eq_of_mem_replicate among]
        rfl
      | some table =>
        intro row member x among
        exact (start table rfl row member x among).finite
    apply noNan_of_finite
    intro row member
    obtain ⟨i, inside, rfl⟩ := List.mem_iff_getElem.mp member
    rw [List.getElem_zipWith]
    apply finite_zipWith fun x y left right => (exact_closed left right).1
    · exact base _ (List.getElem_mem _)
    · intro x among
      exact noise rng _ x (mem_of_reshape reshaped _ (List.getElem_mem _) x among)

variable (nonneg : 0 ≤ gamma) (below : gamma < 1) (positive : 0 ≤ reward)
include nonneg below positive

theorem dataPoisonQ_noNan {gen : Generator} {normal : gen.State → Number → ℕ → List Number}
    (noise : ∀ rng n, AllFinite (normal rng (.fin 1e-3) n)) {dsaCfg : DSAConfig}
    {qCfg : QLearnConfig} (learns : Learns gamma qCfg.toQLearnConfig)
    (paid : RewardsWithin reward dsaCfg) {globalQ : Option Erasure.QTable}
    (start : ∀ q ∈ globalQ, TableWithin (reward / (1 - gamma)) q)
    {backdoor : Option BackdoorSpec} (boost : ∀ spec ∈ backdoor, spec.boost ≠ .nan)
    {attack : String} {cseed : Int} {q : Erasure.QTable}
    (poisoned : dataPoisonQ exactFloat64 gen normal dsaCfg qCfg globalQ backdoor attack cseed =
      .ok q) : NoNan q := by
  unfold dataPoisonQ at poisoned
  split at poisoned
  · obtain ⟨env, _, trained⟩ := bind_eq_ok poisoned
    refine noNan_of_within (trainFrom_within nonneg below learns ?_ paid start positive trained)
    intro rng now info within
    dsimp only
    split
    · exact poisonReward_within paid info
    · exact within
  · split at poisoned
    · obtain ⟨env, _, trained⟩ := bind_eq_ok poisoned
      obtain ⟨benign, learned, stamped⟩ := bind_eq_ok trained
      have within := trainLocalQ_within nonneg below learns paid start positive learned
      refine stampBackdoor_noNan (noNan_of_within within) ?_ stamped
      cases backdoor with
      | none => exact Number.noConfusion
      | some spec => exact boost spec rfl
    · split at poisoned
      · exact freeRiderUpdate_noNan noise start poisoned
      · cases poisoned

end

/-- What a round is called with for its aggregator to leave the malicious clients out. -/
def RoundCall.Minority {gen : Generator} (call : RoundCall gen) : Prop :=
  call.method = "trimmed_mean" ∨
    call.method = "median" ∧ 0 < call.nClients ∧ 2 * call.nMalicious < call.nClients

/-- A round under one of the attacks of the repository. -/
inductive Attacked (np : Float64) (log : Number → Number) (gamma reward : ℚ) :
    PoisonedRound → Prop
  | update {gen : Generator} (random) (call : RoundCall gen) (attack : String)
      (earns : call.Earns gamma reward) (minority : call.Minority) :
      Attacked np log gamma reward (federatedDsaRound np random log call attack)
  | data {gen : Generator} (random) (normal : gen.State → Number → ℕ → List Number)
      (noise : ∀ rng n, AllFinite (normal rng (.fin 1e-3) n)) (call : RoundCall gen)
      (backdoor : Option BackdoorSpec) (boost : ∀ spec ∈ backdoor, spec.boost ≠ .nan)
      (attack : String) (earns : call.Earns gamma reward) (minority : call.Minority) :
      Attacked np log gamma reward
        (federatedDsaRoundDataPoison np random normal call backdoor attack)

section
variable {log : Number → Number} (logs : ∀ q : ℚ, 0 < q → (log (.fin q)).isFinite = true)
  {gamma reward : ℚ} (nonneg : 0 ≤ gamma) (below : gamma < 1) (positive : 0 ≤ reward)
  {round : PoisonedRound}
include logs nonneg below positive

theorem attacked_resisted (attacked : Attacked exactFloat64 log gamma reward round) :
    round.call.Earns gamma reward ∧ Resisted (reward / (1 - gamma)) round := by
  cases attacked with
  | update random call attack earns minority =>
    refine ⟨earns, fun globalQ honest malicious built => buildMaliciousQs_few globalQ built, ?_⟩
    rcases minority with trimmed | ⟨median, some_, majority⟩
    · exact Or.inl trimmed
    · refine Or.inr ⟨median, some_, majority, ?_⟩
      intro globalQ honest malicious _ within count built
      refine buildMaliciousQs_noNan logs globalQ ?_ within built
      rintro rfl
      have clients : (0 : ℕ) = (call.nClients - call.nMalicious).toNat := count
      omega
  | @data gen random normal noise call backdoor boost attack earns minority =>
    refine ⟨earns, fun globalQ honest _ built => buildDataPoisonQs_few globalQ honest built, ?_⟩
    rcases minority with trimmed | ⟨median, some_, majority⟩
    · exact Or.inl trimmed
    · refine Or.inr ⟨median, some_, majority, ?_⟩
      intro globalQ honest malicious start _ _ built q member
      obtain ⟨learns, paid⟩ := earns
      change buildDataPoisonQs exactFloat64 gen normal call.dsaCfg call.qCfg backdoor attack
        call.nMalicious call.seed globalQ honest = _ at built
      unfold buildDataPoisonQs at built
      split at built
      · cases built
        cases member
      · obtain ⟨m, _, poisoned⟩ := source_of_mapM built member
        exact dataPoisonQ_noNan nonneg below positive noise learns paid start boost poisoned

end

def attackedCall : RoundCall steadyGenerator :=
  ⟨4, 1, { nChannels := 1, nUsers := 1, maxSteps := 2 }, { episodes := 1 }, "median", true, 0⟩

/-- Three cells that Fang's attack on the median joins, and then three with one whose rewards
    are inverted. -/
def attackedRounds : List PoisonedRound :=
  [federatedDsaRound exactFloat64 steadyCoefficients (fun _ => .fin 0) attackedCall "fang_median",
    federatedDsaRoundDataPoison exactFloat64 steadyCoefficients
      (fun (_ : Unit) _ n => List.replicate n (.fin 0)) attackedCall none "reward_poison"]

end HorizonRic.Spectrum
