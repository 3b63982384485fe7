import HorizonRic.Federated.TrimmedAggregation
import HorizonRic.Library.Averages
import HorizonRic.Spectrum.DsaWorld
import HorizonRic.Spectrum.LocalTraining

/-!
How large the learned values can become. No update, no aggregator and no round of a
federation leads out of what the rewards are worth when they are paid for ever.
-/
namespace HorizonRic.Spectrum
open Py

/-- A finite number of at most this magnitude. -/
def Within (bound : ℚ) (x : Number) : Prop := ∃ q, x = .fin q ∧ |q| ≤ bound

def TableWithin (bound : ℚ) (q : Erasure.QTable) : Prop := ∀ row ∈ q, ∀ x ∈ row, Within bound x

/-- A learning rate from 0 to 1, and this discount. -/
def Learns (gamma : ℚ) (cfg : Erasure.QLearnConfig) : Prop :=
  ∃ alpha, cfg.alpha = .fin alpha ∧ 0 ≤ alpha ∧ alpha ≤ 1 ∧ cfg.gamma = .fin gamma

def RewardsWithin (bound : ℚ) (dsaCfg : DSAConfig) : Prop :=
  Within bound dsaCfg.rewardSuccess ∧ Within bound dsaCfg.rewardCollision ∧
    Within bound dsaCfg.rewardIdle ∧ Within bound dsaCfg.rewardPuClash

/-! One update. -/

theorem foldl_larger_mem (x : Number) (rest : List Number) :
    rest.foldl Float64.larger x ∈ x :: rest := by
  induction rest generalizing x with
  | nil => exact List.mem_cons_self
  | cons y rest ih =>
    rw [List.foldl_cons]
    rcases List.mem_cons.mp (ih (Float64.larger x y)) with first | later
    · rw [first]
      unfold Float64.larger
      split
      · exact List.mem_cons_self
      · exact List.mem_cons_of_mem x List.mem_cons_self
    · exact List.mem_cons_of_mem x (List.mem_cons_of_mem y later)

theorem max_mem {xs : List Number} {m : Number} (found : Float64.max xs = .ok m) : m ∈ xs := by
  cases xs with
  | nil => cases found
  | cons x rest =>
    cases found
    exact foldl_larger_mem x rest

theorem axisIndex_lt {size k : ℕ} {i : Int} (found : Erasure.axisIndex size i = .ok k) :
    k < size := by
  unfold Erasure.axisIndex at found
  split at found
  · cases found
    omega
  · split at found
    · cases found
      omega
    · cases found

theorem mem_getD {xs : List α} {i : ℕ} (inside : i < xs.length) (d : α) : xs.getD i d ∈ xs := by
  rw [List.getD_eq_getElem?_getD, List.getElem?_eq_getElem inside]
  exact List.getElem_mem inside

theorem tableWithin_set {bound : ℚ} {q : Erasure.QTable} {state action : ℕ} {x : Number}
    (bounded : TableWithin bound q) (inside : state < q.length) (fits : Within bound x) :
    TableWithin bound (q.set state ((q.getD state []).set action x)) := by
  intro row member y among
  rcases List.mem_or_eq_of_mem_set member with old | rfl
  · exact bounded row old y among
  · rcases List.mem_or_eq_of_mem_set among with old | rfl
    · exact bounded _ (mem_getD inside []) y old
    · exact fits

section
variable {gamma reward : ℚ} (nonneg : 0 ≤ gamma) (below : gamma < 1)
include nonneg below

/-- The update of one entry, in exact arithmetic. -/
theorem update_within {cfg : Erasure.QLearnConfig} (learns : Learns gamma cfg)
    {now best old : Number} (paid : Within reward now)
    (next : Within (reward / (1 - gamma)) best) (start : Within (reward / (1 - gamma)) old) :
    Within (reward / (1 - gamma)) (exactFloat64.add old (exactFloat64.mul cfg.alpha
      (exactFloat64.sub (exactFloat64.add now (exactFloat64.mul cfg.gamma best)) old))) := by
  obtain ⟨alpha, rate, low, high, discount⟩ := learns
  obtain ⟨r, rfl, small⟩ := paid
  obtain ⟨b, rfl, bestSmall⟩ := next
  obtain ⟨v, rfl, oldSmall⟩ := start
  refine ⟨v + alpha * (r + gamma * b - v), ?_, ?_⟩
  · rw [rate, discount]
    change Number.fin v + .fin alpha * (Number.fin r + .fin gamma * .fin b - .fin v) = _
    simp only [Number.fin_mul, Number.fin_add, Number.fin_sub]
  · exact Averages.abs_step_le low high oldSmall
      (Averages.abs_discounted_le nonneg below small bestSmall)

theorem replay_within {cfg : Erasure.QLearnConfig} (learns : Learns gamma cfg)
    {q next : Erasure.QTable} {t : Erasure.Transition} (paid : Within reward t.reward)
    (bounded : TableWithin (reward / (1 - gamma)) q)
    (replayed : Erasure.replay exactFloat64 cfg q t = .ok next) :
    TableWithin (reward / (1 - gamma)) next := by
  obtain ⟨following, indexed, replayed⟩ := bind_eq_ok replayed
  obtain ⟨best, found, replayed⟩ := bind_eq_ok replayed
  obtain ⟨state, placed, replayed⟩ := bind_eq_ok replayed
  obtain ⟨action, chosen, replayed⟩ := bind_eq_ok replayed
  cases replayed
  have row : q.getD state [] ∈ q := mem_getD (axisIndex_lt placed) []
  have bestNext := bounded _ (mem_getD (axisIndex_lt indexed) []) best (max_mem found)
  have old := bounded _ row _ (mem_getD (axisIndex_lt chosen) .nan)
  exact tableWithin_set bounded (axisIndex_lt placed)
    (update_within nonneg below learns paid bestNext old)

/-- A log, in whatever order it is replayed. -/
theorem replays_within {cfg : Erasure.QLearnConfig} (learns : Learns gamma cfg)
    {transitions : List Erasure.Transition} (paid : ∀ t ∈ transitions, Within reward t.reward)
    {q learned : Erasure.QTable} (bounded : TableWithin (reward / (1 - gamma)) q)
    (replayed : transitions.foldlM (Erasure.replay exactFloat64 cfg) q = .ok learned) :
    TableWithin (reward / (1 - gamma)) learned := by
  induction transitions generalizing q with
  | nil =>
    cases replayed
    exact bounded
  | cons t rest ih =>
    obtain ⟨next, step, replayed⟩ := bind_eq_ok replayed
    exact ih (fun later member => paid later (List.mem_cons_of_mem t member))
      (replay_within nonneg below learns (paid t List.mem_cons_self) bounded step) replayed

omit nonneg in
theorem zeros_within (positive : 0 ≤ reward) (ns na : ℕ) :
    TableWithin (reward / (1 - gamma)) (List.replicate ns (List.replicate na (.fin 0))) := by
  intro row member x among
  cases List.eq_of_mem_replicate member
  cases List.eq_of_mem_replicate among
  refine ⟨0, rfl, ?_⟩
  rw [abs_zero]
  exact div_nonneg positive (by linarith)

/-! Training on an environment. -/

omit nonneg below in
theorem outcome_within {dsaCfg : DSAConfig} (paid : RewardsWithin reward dsaCfg)
    (puBusy : List Bool) (others : List Int) (action : Int) :
    Within reward (outcome dsaCfg puBusy others action).reward := by
  obtain ⟨success, collision, idle, puClash⟩ := paid
  unfold outcome
  split
  · exact idle
  · split
    · exact puClash
    · split
      · exact collision
      · exact success

omit nonneg below in
theorem step_within {gen : Generator} {env : DSAEnv gen} {action : Int} {next : StepReturn gen}
    (paid : RewardsWithin reward env.cfg) (stepped : env.step action = .ok next) :
    Within reward next.reward := by
  unfold DSAEnv.step at stepped
  split at stepped
  · cases stepped
  · obtain ⟨⟨others, rng⟩, _, stepped⟩ := bind_eq_ok stepped
    cases stepped
    exact outcome_within paid env.busy others action

omit nonneg below in
theorem reset_cfg {gen : Generator} {dsaCfg : DSAConfig} {seed : Int} {env : DSAEnv gen}
    (made : DSAEnv.reset dsaCfg seed = .ok env) : env.cfg = dsaCfg := by
  obtain ⟨rng, _, made⟩ := bind_eq_ok made
  obtain ⟨⟨busy, rng'⟩, _, made⟩ := bind_eq_ok made
  cases made
  rfl

variable {gen : Generator} {cfg : QLearnConfig} (learns : Learns gamma cfg.toQLearnConfig)
include learns

section
/- What is learned from is a reward of the same size, if not the one reported. -/
variable {signal : Signal gen}
  (sized : ∀ rng now info, Within reward now → Within reward (signal rng now info).1)
include sized

theorem trainSlot_within {learner next : Learner gen}
    (paid : RewardsWithin reward learner.env.cfg)
    (bounded : TableWithin (reward / (1 - gamma)) learner.q)
    (trained : trainSlot exactFloat64 signal cfg learner = .ok next) :
    TableWithin (reward / (1 - gamma)) next.q := by
  obtain ⟨⟨action, rng⟩, _, trained⟩ := bind_eq_ok trained
  obtain ⟨step, stepped, trained⟩ := bind_eq_ok trained
  obtain ⟨q, replayed, trained⟩ := bind_eq_ok trained
  cases trained
  exact replay_within nonneg below learns (sized _ _ _ (step_within paid stepped)) bounded replayed

theorem trainEpisode_within {slots : ℕ} {learner ended : Learner gen}
    (paid : RewardsWithin reward learner.env.cfg)
    (bounded : TableWithin (reward / (1 - gamma)) learner.q)
    (trained : trainEpisode exactFloat64 signal cfg slots learner = .ok ended) :
    TableWithin (reward / (1 - gamma)) ended.q := by
  induction slots generalizing learner with
  | zero =>
    cases trained
    exact bounded
  | succ slots ih =>
    rw [trainEpisode] at trained
    split at trained
    · cases trained
      exact bounded
    · obtain ⟨next, slot, trained⟩ := bind_eq_ok trained
      have sameCfg := (trainSlot_slot slot).1
      exact ih (sameCfg ▸ paid)
        (trainSlot_within nonneg below learns sized paid bounded slot) trained

theorem episodes_within {dsaCfg : DSAConfig} (paid : RewardsWithin reward dsaCfg) {seed : Int}
    {episodes : List Int} {learned ended : Erasure.QTable × gen.State}
    (bounded : TableWithin (reward / (1 - gamma)) learned.1)
    (trained : episodes.foldlM (fun learned ep => do
      let env ← DSAEnv.reset dsaCfg (seed + ep + 1)
      let learner ← trainEpisode exactFloat64 signal cfg (episodeSlots dsaCfg)
        ⟨learned.1, learned.2, env, env.obs, false⟩
      .ok (learner.q, learner.rng)) learned = .ok ended) :
    TableWithin (reward / (1 - gamma)) ended.1 := by
  induction episodes generalizing learned with
  | nil =>
    cases trained
    exact bounded
  | cons ep rest ih =>
    obtain ⟨next, episode, trained⟩ := bind_eq_ok trained
    obtain ⟨env, made, episode⟩ := bind_eq_ok episode
    obtain ⟨learner, ran, episode⟩ := bind_eq_ok episode
    cases episode
    have sameCfg := reset_cfg made
    exact ih (trainEpisode_within nonneg below learns sized (sameCfg.symm ▸ paid) bounded ran)
      trained

theorem trainFrom_within {dsaCfg : DSAConfig} (paid : RewardsWithin reward dsaCfg)
    {qInit : Option Erasure.QTable} (start : ∀ q ∈ qInit, TableWithin (reward / (1 - gamma)) q)
    (positive : 0 ≤ reward) {seed : Int} {learned : Erasure.QTable}
    (trained : train exactFloat64 signal cfg dsaCfg qInit seed = .ok learned) :
    TableWithin (reward / (1 - gamma)) learned := by
  obtain ⟨ns, _, trained⟩ := bind_eq_ok trained
  obtain ⟨rng, _, trained⟩ := bind_eq_ok trained
  obtain ⟨⟨q, rng'⟩, episodes, trained⟩ := bind_eq_ok trained
  cases trained
  have initial : TableWithin (reward / (1 - gamma)) (qInit.getD
      (List.replicate ns (List.replicate (Erasure.nActions dsaCfg.nChannels) (.fin 0)))) := by
    cases qInit with
    | none => exact zeros_within below positive ns _
    | some q => exact start q rfl
  exact episodes_within nonneg below learns sized paid initial episodes

end

/-- What the environment reports is what is learned from. -/
def reported (gen : Generator) : Signal gen := fun rng reward _ => (reward, rng)

theorem trainLocalQ_within {dsaCfg : DSAConfig} (paid : RewardsWithin reward dsaCfg)
    {qInit : Option Erasure.QTable} (start : ∀ q ∈ qInit, TableWithin (reward / (1 - gamma)) q)
    (positive : 0 ≤ reward) {seed : Int} {learned : Erasure.QTable}
    (trained : trainLocalQ gen exactFloat64 cfg dsaCfg qInit seed = .ok learned) :
    TableWithin (reward / (1 - gamma)) learned := by
  have sized : ∀ rng now info, Within reward now → Within reward (reported gen rng now info).1 :=
    fun _ _ _ within => within
  exact trainFrom_within nonneg below learns sized paid start positive trained

end

/-! A log whose states and actions are in range is replayed to its end. -/

structure InRange (ns na : ℕ) (t : Erasure.Transition) : Prop where
  state : 0 ≤ t.state ∧ t.state < ns
  action : 0 ≤ t.action ∧ t.action < na
  nextState : 0 ≤ t.nextState ∧ t.nextState < ns

def HasShape (ns na : ℕ) (q : Erasure.QTable) : Prop := q.length = ns ∧ ∀ row ∈ q, row.length = na

theorem replay_shape (np : Float64) (cfg : Erasure.QLearnConfig) {ns na : ℕ} {q : Erasure.QTable}
    {t : Erasure.Transition} (shape : HasShape ns na q) (inRange : InRange ns na t) :
    ∃ next, Erasure.replay np cfg q t = .ok next ∧ HasShape ns na next := by
  obtain ⟨rows, width⟩ := shape
  obtain ⟨state, action, nextState⟩ := inRange
  have following : Erasure.axisIndex q.length t.nextState = .ok t.nextState.toNat :=
    axisIndex_channel nextState.1 (by omega)
  have placed : Erasure.axisIndex q.length t.state = .ok t.state.toNat :=
    axisIndex_channel state.1 (by omega)
  have nextRow := width _ (mem_getD (axisIndex_lt following) [])
  have row := width _ (mem_getD (axisIndex_lt placed) [])
  have chosen : Erasure.axisIndex (q.getD t.state.toNat []).length t.action =
      .ok t.action.toNat := axisIndex_channel action.1 (by omega)
  obtain ⟨best, found⟩ : ∃ best, Float64.max (q.getD t.nextState.toNat []) = .ok best := by
    cases filled : q.getD t.nextState.toNat [] with
    | nil =>
      rw [filled, List.length_nil] at nextRow
      omega
    | cons x rest => exact ⟨_, rfl⟩
  unfold Erasure.replay
  rw [following, ok_bind, found, ok_bind, placed, ok_bind]
  dsimp only
  rw [chosen, ok_bind]
  refine ⟨_, rfl, by rw [List.length_set, rows], ?_⟩
  intro other member
  rcases List.mem_or_eq_of_mem_set member with old | rfl
  · exact width other old
  · rw [List.length_set, row]

theorem replays_shape (np : Float64) (cfg : Erasure.QLearnConfig) {ns na : ℕ}
    {transitions : List Erasure.Transition} (inRange : ∀ t ∈ transitions, InRange ns na t)
    {q : Erasure.QTable} (shape : HasShape ns na q) :
    ∃ learned, transitions.foldlM (Erasure.replay np cfg) q = .ok learned ∧
      HasShape ns na learned := by
  induction transitions generalizing q with
  | nil => exact ⟨q, rfl, shape⟩
  | cons t rest ih =>
    obtain ⟨next, replayed, kept⟩ := replay_shape np cfg shape (inRange t List.mem_cons_self)
    obtain ⟨learned, ran, ended⟩ :=
      ih (fun later member => inRange later (List.mem_cons_of_mem t member)) kept
    refine ⟨learned, ?_, ended⟩
    rw [List.foldlM_cons, replayed]
    exact ran

/-! The aggregators. -/

inductive Aggregator where
  | fedavg
  | coordinateMedian
  | trimmedMean (beta : ℕ)
  | krum (f : ℕ)

def Aggregator.aggregate (np : Float64) (flats : List (List Number)) :
    Aggregator → Except PyErr (List Number)
  | .fedavg => Erasure.fedavg np flats
  | .coordinateMedian => Erasure.coordinateMedian np flats
  | .trimmedMean beta => Erasure.trimmedMean np flats beta
  | .krum f => RobustAggregation.KrumResult.aggregate <$> Erasure.krum np flats f

section
variable {bound : ℚ}

theorem exists_rationals {xs : List Number} (each : ∀ x ∈ xs, Within bound x) :
    ∃ qs : List ℚ, xs = qs.map Number.fin ∧ ∀ q ∈ qs, |q| ≤ bound := by
  induction xs with
  | nil => exact ⟨[], rfl, fun q member => by cases member⟩
  | cons x rest ih =>
    obtain ⟨q, rfl, small⟩ := each x List.mem_cons_self
    obtain ⟨qs, rfl, others⟩ := ih fun y member => each y (List.mem_cons_of_mem _ member)
    refine ⟨q :: qs, rfl, ?_⟩
    intro p member
    rcases List.mem_cons.mp member with rfl | later
    · exact small
    · exact others p later

theorem mean_within {xs : List Number} (some_ : xs ≠ []) (each : ∀ x ∈ xs, Within bound x) :
    Within bound (exactFloat64.mean xs) := by
  obtain ⟨qs, rfl, small⟩ := exists_rationals each
  have filled : qs ≠ [] := by simpa using some_
  exact ⟨_, OrderAggregation.mean_fin filled, Averages.abs_mean_le filled small⟩

theorem mem_sort {xs : List Number} {x : Number} : x ∈ Float64.sort xs ↔ x ∈ xs :=
  List.mem_insertionSort _

theorem length_sort (xs : List Number) : (Float64.sort xs).length = xs.length :=
  List.length_insertionSort _ _

/-- Some consecutive entries of the sorted column. -/
theorem mean_sorted_within {xs : List Number} {first last : ℕ} (filled : first < last)
    (inside : last ≤ xs.length) (each : ∀ x ∈ xs, Within bound x) :
    Within bound (exactFloat64.mean (((Float64.sort xs).take last).drop first)) := by
  apply mean_within
  · rw [Ne, ← List.length_eq_zero_iff, List.length_drop, List.length_take, length_sort]
    omega
  · intro x member
    exact each x (mem_sort.mp (List.mem_of_mem_take (List.mem_of_mem_drop member)))

theorem median_within {xs : List Number} (some_ : xs ≠ []) (each : ∀ x ∈ xs, Within bound x) :
    Within bound (exactFloat64.median xs) := by
  have positive := List.length_pos_iff.mpr some_
  have finite : (Float64.sort xs).any Number.isNan = false := by
    rw [List.any_eq_false]
    intro x member
    obtain ⟨q, rfl, _⟩ := each x (mem_sort.mp member)
    exact Bool.false_ne_true
  unfold Float64.median
  dsimp only
  rw [if_neg (by rw [finite]; exact Bool.false_ne_true)]
  split
  · rw [List.take_drop]
    exact mean_sorted_within (by omega) (by omega) each
  · rw [List.take_drop]
    exact mean_sorted_within (by omega) (by omega) each

/-- Each column of a matrix has one entry of every update. -/
theorem columns_within {mat : List (List Number)} {d : ℕ} (dimension : ∀ u ∈ mat, u.length = d)
    (each : ∀ u ∈ mat, ∀ x ∈ u, Within bound x) {column : List Number}
    (member : column ∈ Erasure.columns mat) :
    column.length = mat.length ∧ ∀ x ∈ column, Within bound x := by
  obtain ⟨j, inside, rfl⟩ := List.mem_map.mp member
  refine ⟨List.length_map _, ?_⟩
  intro x among
  obtain ⟨u, row, rfl⟩ := List.mem_map.mp among
  have width : (mat.headD []).length = d := by
    cases mat with
    | nil => cases row
    | cons first rest => exact dimension first List.mem_cons_self
  have short : j < u.length := by
    rw [dimension u row, ← width]
    exact List.mem_range.mp inside
  exact each u row _ (mem_getD short .nan)

/-- What an aggregator makes of each column is within the bound. -/
theorem aggregated_within {updates : List (List Number)} {f : List Number → Number} {d : ℕ}
    (some_ : updates ≠ []) (dimension : ∀ u ∈ updates, u.length = d)
    (each : ∀ u ∈ updates, ∀ x ∈ u, Within bound x)
    (column : ∀ xs : List Number, xs ≠ [] → xs.length = updates.length →
      (∀ x ∈ xs, Within bound x) → Within bound (f xs)) :
    ∀ x ∈ (Erasure.columns updates).map f, Within bound x := by
  intro x member
  obtain ⟨xs, among, rfl⟩ := List.mem_map.mp member
  obtain ⟨length, entries⟩ := columns_within dimension each among
  have filled : xs ≠ [] := by
    rintro rfl
    exact some_ (List.eq_nil_of_length_eq_zero length.symm)
  exact column xs filled length entries

theorem stack_matrix {updates mat : List (List Number)}
    (stacked : RobustAggregation.stack updates = .ok mat) :
    mat = updates ∧ updates ≠ [] ∧ ∃ d, ∀ u ∈ updates, u.length = d := by
  rcases OrderAggregation.stack_cases updates with ⟨same, d, some_, dimension⟩ | ⟨failed, _⟩
  · rw [same] at stacked
    cases stacked
    exact ⟨rfl, some_, d, dimension⟩
  · rw [failed] at stacked
    cases stacked

/-- Krum's aggregate is one of the updates. -/
theorem krum_selects {flats : List (List Number)} {f : ℕ}
    {result : RobustAggregation.KrumResult Number}
    (chosen : Erasure.krum exactFloat64 flats f = .ok result) :
    ∀ x ∈ result.aggregate, ∃ u ∈ flats, x ∈ u := by
  unfold Erasure.krum at chosen
  obtain ⟨mat, stacked, done⟩ := bind_eq_ok chosen
  obtain ⟨rfl, _, _⟩ := stack_matrix stacked
  dsimp only at done
  split at done
  · cases done
  · cases done
    intro x member
    dsimp only at member
    generalize Float64.argmin _ = selected at member
    rw [List.getD_eq_getElem?_getD] at member
    cases picked : mat[selected]? with
    | none =>
      rw [picked] at member
      cases member
    | some row =>
      rw [picked] at member
      exact ⟨row, List.mem_of_getElem? picked, member⟩

theorem aggregate_within {aggregator : Aggregator} {flats : List (List Number)}
    (each : ∀ u ∈ flats, ∀ x ∈ u, Within bound x) {flat : List Number}
    (aggregated : aggregator.aggregate exactFloat64 flats = .ok flat) :
    ∀ x ∈ flat, Within bound x := by
  cases aggregator with
  | fedavg =>
    unfold Aggregator.aggregate Erasure.fedavg at aggregated
    obtain ⟨mat, stacked, done⟩ := bind_eq_ok aggregated
    obtain ⟨rfl, some_, d, dimension⟩ := stack_matrix stacked
    cases done
    exact aggregated_within some_ dimension each fun _ filled _ => mean_within filled
  | coordinateMedian =>
    unfold Aggregator.aggregate Erasure.coordinateMedian at aggregated
    obtain ⟨mat, stacked, done⟩ := bind_eq_ok aggregated
    obtain ⟨rfl, some_, d, dimension⟩ := stack_matrix stacked
    cases done
    exact aggregated_within some_ dimension each fun _ filled _ => median_within filled
  | trimmedMean beta =>
    unfold Aggregator.aggregate Erasure.trimmedMean at aggregated
    obtain ⟨mat, stacked, done⟩ := bind_eq_ok aggregated
    obtain ⟨rfl, some_, d, dimension⟩ := stack_matrix stacked
    dsimp only at done
    split at done
    · cases done
    · cases done
      apply aggregated_within some_ dimension each
      intro xs _ length entries
      exact mean_sorted_within (by omega) (by omega) entries
  | krum f =>
    obtain ⟨result, chosen, rfl⟩ : ∃ result, Erasure.krum exactFloat64 flats f = .ok result ∧
        result.aggregate = flat := by
      change RobustAggregation.KrumResult.aggregate <$> _ = _ at aggregated
      cases found : Erasure.krum exactFloat64 flats f with
      | error e =>
        rw [found] at aggregated
        cases aggregated
      | ok result =>
        rw [found] at aggregated
        cases aggregated
        exact ⟨result, rfl, rfl⟩
    intro x member
    obtain ⟨u, among, entry⟩ := krum_selects chosen x member
    exact each u among x entry

theorem reshape_within {ns na : ℕ} {flat : List Number} {q : Erasure.QTable}
    (each : ∀ x ∈ flat, Within bound x) (reshaped : Erasure.reshape ns na flat = .ok q) :
    TableWithin bound q := by
  unfold Erasure.reshape at reshaped
  split at reshaped
  · cases reshaped
    intro row member x among
    obtain ⟨i, _, rfl⟩ := List.mem_map.mp member
    exact each x (List.mem_of_mem_drop (List.mem_of_mem_take among))
  · cases reshaped

end

/-! Rounds of a federation. -/

/-- A client trains on its log, or on its environment from the global table. -/
inductive LocalClient where
  | replays (cfg : Erasure.QLearnConfig) (transitions : List Erasure.Transition)
  | explores (gen : Generator) (cfg : QLearnConfig) (dsaCfg : DSAConfig) (seed : Int)

def LocalClient.train (np : Float64) (ns na : ℕ) (globalQ : Option Erasure.QTable) :
    LocalClient → Except PyErr Erasure.QTable
  | .replays cfg transitions => Erasure.trainQFromTransitions np transitions ns na cfg
  | .explores gen cfg dsaCfg seed => trainLocalQ gen np cfg dsaCfg globalQ seed

structure FederatedRound where
  clients : List LocalClient
  aggregator : Aggregator

def FederatedRound.run (np : Float64) (ns na : ℕ) (globalQ : Option Erasure.QTable)
    (round : FederatedRound) : Except PyErr (Option Erasure.QTable) := do
  let tables ← round.clients.mapM (LocalClient.train np ns na globalQ)
  let flat ← round.aggregator.aggregate np (tables.map List.flatten)
  let q ← Erasure.reshape ns na flat
  .ok (some q)

/-- Each round starts from the global table of the one before. -/
def runRounds (np : Float64) (ns na : ℕ) (globalQ : Option Erasure.QTable)
    (rounds : List FederatedRound) : Except PyErr (Option Erasure.QTable) :=
  rounds.foldlM (FederatedRound.run np ns na) globalQ

/-- This discount, and rewards of at most this magnitude. -/
def LocalClient.Earns (gamma reward : ℚ) : LocalClient → Prop
  | .replays cfg transitions => Learns gamma cfg ∧ ∀ t ∈ transitions, Within reward t.reward
  | .explores _ cfg dsaCfg _ => Learns gamma cfg.toQLearnConfig ∧ RewardsWithin reward dsaCfg

section
variable {gamma reward : ℚ} (nonneg : 0 ≤ gamma) (below : gamma < 1) (positive : 0 ≤ reward)
  {ns na : ℕ} {globalQ : Option Erasure.QTable}
  (start : ∀ q ∈ globalQ, TableWithin (reward / (1 - gamma)) q)
include nonneg below positive start

theorem train_within {client : LocalClient} (earns : client.Earns gamma reward)
    {q : Erasure.QTable} (trained : client.train exactFloat64 ns na globalQ = .ok q) :
    TableWithin (reward / (1 - gamma)) q := by
  cases client with
  | replays cfg transitions =>
    obtain ⟨learns, paid⟩ := earns
    exact replays_within nonneg below learns paid (zeros_within below positive ns na) trained
  | explores gen cfg dsaCfg seed =>
    obtain ⟨learns, paid⟩ := earns
    exact trainLocalQ_within nonneg below learns paid start positive trained

theorem round_within {round : FederatedRound}
    (earns : ∀ client ∈ round.clients, client.Earns gamma reward) {next : Option Erasure.QTable}
    (ran : round.run exactFloat64 ns na globalQ = .ok next) :
    ∀ q ∈ next, TableWithin (reward / (1 - gamma)) q := by
  obtain ⟨tables, trained, ran⟩ := bind_eq_ok ran
  obtain ⟨flat, aggregated, ran⟩ := bind_eq_ok ran
  obtain ⟨table, reshaped, ran⟩ := bind_eq_ok ran
  cases ran
  intro q same
  cases same
  have uploads : ∀ table ∈ tables, TableWithin (reward / (1 - gamma)) table := by
    intro table member
    obtain ⟨client, among, upload⟩ := source_of_mapM trained member
    exact train_within nonneg below positive start (earns client among) upload
  refine reshape_within (aggregate_within ?_ aggregated) reshaped
  intro u member x among
  obtain ⟨table, upload, rfl⟩ := List.mem_map.mp member
  obtain ⟨row, inside, entry⟩ := List.mem_flatten.mp among
  exact uploads table upload row inside x entry

theorem rounds_within {rounds : List FederatedRound}
    (earns : ∀ round ∈ rounds, ∀ client ∈ round.clients, client.Earns gamma reward)
    {final : Option Erasure.QTable}
    (ran : runRounds exactFloat64 ns na globalQ rounds = .ok final) :
    ∀ q ∈ final, TableWithin (reward / (1 - gamma)) q := by
  unfold runRounds at ran
  induction rounds generalizing globalQ with
  | nil =>
    cases ran
    exact start
  | cons round rest ih =>
    obtain ⟨next, first, ran⟩ := bind_eq_ok ran
    exact ih (round_within nonneg below positive start (earns round List.mem_cons_self) first)
      (fun later member => earns later (List.mem_cons_of_mem round member)) ran

end

/-- The bound holds for every table that is learned: from a log in any order and from any
    table within it, from an environment, and by any aggregator over any number of rounds.
    A log that stays in range is learned to its end. -/
theorem values_within (gamma reward : ℚ) (nonneg : 0 ≤ gamma) (below : gamma < 1)
    (positive : 0 ≤ reward) (ns na : ℕ) (globalQ : Option Erasure.QTable)
    (start : ∀ q ∈ globalQ, TableWithin (reward / (1 - gamma)) q) :
    (∀ (cfg : Erasure.QLearnConfig) (transitions : List Erasure.Transition) (q : Erasure.QTable),
      Learns gamma cfg → (∀ t ∈ transitions, Within reward t.reward) →
      TableWithin (reward / (1 - gamma)) q →
      (∀ learned, transitions.foldlM (Erasure.replay exactFloat64 cfg) q = .ok learned →
        TableWithin (reward / (1 - gamma)) learned) ∧
      ((∀ t ∈ transitions, InRange ns na t) → HasShape ns na q → ∃ learned,
        transitions.foldlM (Erasure.replay exactFloat64 cfg) q = .ok learned)) ∧
    (∀ client : LocalClient, client.Earns gamma reward → ∀ q,
      client.train exactFloat64 ns na globalQ = .ok q → TableWithin (reward / (1 - gamma)) q) ∧
    ∀ rounds : List FederatedRound,
      (∀ round ∈ rounds, ∀ client ∈ round.clients, client.Earns gamma reward) →
      ∀ final, runRounds exactFloat64 ns na globalQ rounds = .ok final →
        ∀ q ∈ final, TableWithin (reward / (1 - gamma)) q := by
  refine ⟨?_, ?_, ?_⟩
  · intro cfg transitions q learns paid bounded
    refine ⟨?_, ?_⟩
    · intro learned replayed
      exact replays_within nonneg below learns paid bounded replayed
    · intro inRange shape
      obtain ⟨learned, replayed, _⟩ := replays_shape exactFloat64 cfg inRange shape
      exact ⟨learned, replayed⟩
  · intro client earns q trained
    exact train_within nonneg below positive start earns trained
  · intro rounds earns final ran
    exact rounds_within nonneg below positive start earns ran

/-- A log of one success, and a client on one channel, are averaged. -/
def sampleRound : FederatedRound where
  clients := [.replays {} [⟨0, 0, .fin 1, 1, "s"⟩],
    .explores steadyGenerator { episodes := 1 } { nChannels := 1, nUsers := 1, maxSteps := 2 } 0]
  aggregator := .fedavg

theorem sampleRounds_within : ∃ q,
    runRounds exactFloat64 2 2 none [sampleRound, sampleRound] = .ok (some q) ∧
      TableWithin 10 q := by
  have finished :
      (runRounds exactFloat64 2 2 none [sampleRound, sampleRound]).toOption.join.isSome = true := by
    decide +kernel
  have learns : Learns (9 / 10) {} :=
    ⟨0.15, rfl, by norm_num, by norm_num, congrArg Number.fin (by norm_num)⟩
  have one : Within 1 (.fin 1) := ⟨1, rfl, by norm_num⟩
  have half : Within 1 (.fin (-1 / 2)) := ⟨-1 / 2, rfl, by norm_num [abs_le]⟩
  have zero : Within 1 (.fin 0) := ⟨0, rfl, by norm_num⟩
  have earns : ∀ client ∈ sampleRound.clients, client.Earns (9 / 10) 1 := by
    intro client member
    simp only [sampleRound, List.mem_cons, List.not_mem_nil, or_false] at member
    rcases member with rfl | rfl
    · refine ⟨learns, ?_⟩
      intro t among
      cases List.mem_singleton.mp among
      exact one
    · exact ⟨learns, one, half, zero, half⟩
  obtain ⟨_, _, bounded⟩ := values_within (9 / 10) 1 (by norm_num) (by norm_num) (by norm_num) 2 2
    none (by simp)
  cases ran : runRounds exactFloat64 2 2 none [sampleRound, sampleRound] with
  | error e =>
    rw [ran] at finished
    cases finished
  | ok final =>
    cases final with
    | none =>
      rw [ran] at finished
      cases finished
    | some q =>
      have within := bounded [sampleRound, sampleRound]
        (fun round member => by simp at member; subst member; exact earns) _ ran q rfl
      norm_num at within
      exact ⟨q, rfl, within⟩

end HorizonRic.Spectrum
