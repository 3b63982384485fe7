import HorizonRic.Federated.SubjectErasure
import HorizonRic.Library.SharedChannels
import HorizonRic.Spectrum.DsaEnv

/-!
`spectrum/dsa_env.py`: the world in which every user acts from its own action and the
contention is resolved for all of them at once.
-/
namespace HorizonRic.Spectrum
open Py

structure DSAWorld (gen : Generator) where
  cfg : DSAConfig
  seed : Int
  rng : gen.State
  busy : List Bool
  sense : List Bool
  t : Int

structure WorldInfo where
  puBusy : List Bool
  successes : ℕ
  collisions : ℕ
  puClashes : ℕ
  t : Int

structure WorldReturn (gen : Generator) where
  world : DSAWorld gen
  obs : List Int
  rewards : List Number
  done : Bool
  info : WorldInfo

/-- `counts[ch] += 1`. -/
def tally (counts : List ℕ) (ch : Int) : Except PyErr (List ℕ) := do
  let i ← Erasure.axisIndex counts.length ch
  .ok (counts.set i (counts.getD i 0 + 1))

/-- What the loop over the users has found. -/
structure Resolution where
  rewards : List Number
  successes : ℕ := 0
  collisions : ℕ := 0
  puClashes : ℕ := 0

def resolveUser (cfg : DSAConfig) (puBusy : List Bool) (counts : List ℕ) (found : Resolution)
    (user : Int × ℕ) : Except PyErr Resolution :=
  let (a, u) := user
  if cfg.nChannels ≤ a then .ok found
  else do
    let ch ← Erasure.axisIndex puBusy.length a
    if puBusy.getD ch false then
      .ok { found with
        rewards := found.rewards.set u cfg.rewardPuClash
        puClashes := found.puClashes + 1 }
    else
      let i ← Erasure.axisIndex counts.length a
      if 1 < counts.getD i 0 then
        .ok { found with
          rewards := found.rewards.set u cfg.rewardCollision
          collisions := found.collisions + 1 }
      else
        .ok { found with
          rewards := found.rewards.set u cfg.rewardSuccess
          successes := found.successes + 1 }

/-- Both loops of a step. -/
def resolve (cfg : DSAConfig) (puBusy : List Bool) (actions : List Int) :
    Except PyErr Resolution :=
  if cfg.nChannels < 0 then .error .valueError
  else do
    let counts ← (actions.filter (· < cfg.nChannels)).foldlM tally
      (List.replicate cfg.nChannels.toNat 0)
    actions.zipIdx.foldlM (resolveUser cfg puBusy counts)
      { rewards := List.replicate actions.length cfg.rewardIdle }

namespace DSAWorld

/- `np.full(n_users, s, dtype=np.int64)` -/
variable {gen : Generator} (full : Int → ℕ → Except PyErr (List Int)) (world : DSAWorld gen)

def obs : Except PyErr (List Int) := full world.cfg.nUsers (encodeSensing world.sense)

/-- A new world, and what `reset` makes of one. -/
def reset (cfg : DSAConfig) (seed : Int) : Except PyErr (DSAWorld gen × List Int) := do
  let rng ← gen.defaultRng seed
  let (busy, rng) ← chainInitial gen cfg rng
  let (sense, rng) := senseChannels gen cfg busy rng
  let world : DSAWorld gen := ⟨cfg, seed, rng, busy, sense, 0⟩
  let obs ← world.obs full
  .ok (world, obs)

/-- The primary users move on and are sensed again. -/
def advance : DSAWorld gen :=
  let (busy, rng) := chainStep gen world.cfg world.busy world.rng
  let (sense, rng) := senseChannels gen world.cfg busy rng
  { world with rng, busy, sense, t := world.t + 1 }

def step (actions : List Int) : Except PyErr (WorldReturn gen) :=
  if actions.length ≠ world.cfg.nUsers then .error .valueError
  else do
    let puBusy := world.busy
    let found ← resolve world.cfg puBusy actions
    let next := world.advance
    let obs ← next.obs full
    .ok { world := next
          obs := obs
          rewards := found.rewards
          done := decide (world.cfg.maxSteps ≤ next.t)
          info := ⟨puBusy, found.successes, found.collisions, found.puClashes, next.t⟩ }

end DSAWorld

/-! The loops find the verdicts of the slot. -/

/-- The channel of an action; the last action stays idle. -/
def chosen (cfg : DSAConfig) (action : Int) : Option Int :=
  if cfg.nChannels ≤ action then none else some action

def occupiedBy (puBusy : List Bool) (channel : Int) : Bool := puBusy.getD channel.toNat false

def verdictReward (cfg : DSAConfig) : SharedChannels.Verdict → Number
  | .idle => cfg.rewardIdle
  | .blocked => cfg.rewardPuClash
  | .collided => cfg.rewardCollision
  | .alone => cfg.rewardSuccess

def verdictOutcome (cfg : DSAConfig) (v : SharedChannels.Verdict) : Outcome :=
  ⟨verdictReward cfg v, v = .alone, v = .collided, v = .blocked⟩

/-- The verdict on each user. -/
def verdicts (cfg : DSAConfig) (puBusy : List Bool) (actions : List Int) :
    List SharedChannels.Verdict :=
  SharedChannels.verdicts (occupiedBy puBusy) (actions.map (chosen cfg))

def Resolution.note (cfg : DSAConfig) (found : Resolution) (u : ℕ) :
    SharedChannels.Verdict → Resolution
  | .idle => found
  | .blocked =>
    { found with
      rewards := found.rewards.set u cfg.rewardPuClash
      puClashes := found.puClashes + 1 }
  | .collided =>
    { found with
      rewards := found.rewards.set u cfg.rewardCollision
      collisions := found.collisions + 1 }
  | .alone =>
    { found with
      rewards := found.rewards.set u cfg.rewardSuccess
      successes := found.successes + 1 }

section
variable {cfg : DSAConfig} {puBusy : List Bool}

theorem chosen_idle {a : Int} (idle : cfg.nChannels ≤ a) : chosen cfg a = none := if_pos idle

theorem chosen_channel {a : Int} (transmits : a < cfg.nChannels) : chosen cfg a = some a :=
  if_neg (not_le_of_gt transmits)

theorem axisIndex_channel {size : ℕ} {i : Int} (low : 0 ≤ i) (high : i < size) :
    Erasure.axisIndex size i = .ok i.toNat := by
  unfold Erasure.axisIndex
  rw [if_pos ⟨low, high⟩]

/-- After the first loop each channel has its number of users. -/
theorem tally_run {chs : List Int} {counts : List ℕ}
    (inRange : ∀ ch ∈ chs, 0 ≤ ch ∧ ch < counts.length) :
    ∃ tallied, chs.foldlM tally counts = .ok tallied ∧ tallied.length = counts.length ∧
      ∀ i : ℕ, i < counts.length → tallied.getD i 0 = counts.getD i 0 + chs.count (i : Int) := by
  induction chs generalizing counts with
  | nil => exact ⟨counts, rfl, rfl, fun i _ => by simp⟩
  | cons ch rest ih =>
    have ⟨low, high⟩ := inRange ch (by simp)
    have stepped : tally counts ch =
        .ok (counts.set ch.toNat (counts.getD ch.toNat 0 + 1)) := by
      unfold tally
      rw [axisIndex_channel low high]
      rfl
    obtain ⟨tallied, run, sized, counted⟩ :=
      @ih (counts.set ch.toNat (counts.getD ch.toNat 0 + 1))
        (fun c member => by simpa using inRange c (List.mem_cons_of_mem ch member))
    refine ⟨tallied, ?_, by simpa using sized, ?_⟩
    · rw [List.foldlM_cons, stepped]
      exact run
    · intro i small
      rw [counted i (by simpa using small), List.count_cons]
      by_cases same : ch = i
      · subst same
        simp [small]
        omega
      · have other : ch.toNat ≠ i := by omega
        simp [List.getElem?_set_ne other, same]

/-- One user: what the source finds is the verdict. -/
theorem resolveUser_note {choices : List (Option Int)} {counts : List ℕ} {found : Resolution}
    {a : Int} {u : ℕ} (low : 0 ≤ a) (channels : (puBusy.length : Int) = cfg.nChannels)
    (sized : counts.length = puBusy.length)
    (counted : ∀ i : ℕ, i < counts.length → counts.getD i 0 = choices.count (some (i : Int))) :
    resolveUser cfg puBusy counts found (a, u) =
      .ok (found.note cfg u (SharedChannels.among (occupiedBy puBusy) choices (chosen cfg a))) := by
  unfold resolveUser chosen
  dsimp only
  split
  · rfl
  · have small : a < puBusy.length := by omega
    have number := counted a.toNat (by omega)
    rw [Int.toNat_of_nonneg low] at number
    rw [axisIndex_channel low small, axisIndex_channel low (by omega), ok_bind, ok_bind, number]
    have occupied : puBusy.getD a.toNat false = occupiedBy puBusy a := rfl
    unfold SharedChannels.among
    rw [occupied]
    dsimp only
    by_cases held : occupiedBy puBusy a = true
    · rw [if_pos held, if_pos held]
      rfl
    · rw [if_neg held, if_neg held]
      by_cases crowded : 1 < choices.count (some a)
      · rw [if_pos crowded, if_pos crowded]
        rfl
      · rw [if_neg crowded, if_neg crowded]
        rfl

/-- What is noted of one user, before the others' rewards. -/
theorem note_rewards (found : Resolution) (v : SharedChannels.Verdict)
    {earned rest : List Number}
    (rewards : found.rewards = earned ++ cfg.rewardIdle :: rest) :
    found.note cfg earned.length v =
      { rewards := (earned ++ [verdictReward cfg v]) ++ rest
        successes := found.successes + [v].count .alone
        collisions := found.collisions + [v].count .collided
        puClashes := found.puClashes + [v].count .blocked } := by
  obtain ⟨_, successes, collisions, puClashes⟩ := found
  dsimp only at rewards
  subst rewards
  cases v <;> simp [Resolution.note, verdictReward]

/-- After the second loop each user has its reward, and the counters add up the verdicts. -/
theorem resolve_run {counts : List ℕ} {judge : Int → SharedChannels.Verdict} {users : List Int}
    (each : ∀ a ∈ users, ∀ found u,
      resolveUser cfg puBusy counts found (a, u) = .ok (found.note cfg u (judge a)))
    (found : Resolution) (earned : List Number)
    (rewards : found.rewards = earned ++ List.replicate users.length cfg.rewardIdle) :
    (users.zipIdx earned.length).foldlM (resolveUser cfg puBusy counts) found =
      .ok { rewards := earned ++ (users.map judge).map (verdictReward cfg)
            successes := found.successes + (users.map judge).count .alone
            collisions := found.collisions + (users.map judge).count .collided
            puClashes := found.puClashes + (users.map judge).count .blocked } := by
  induction users generalizing found earned with
  | nil =>
    obtain ⟨_, successes, collisions, puClashes⟩ := found
    dsimp only at rewards
    subst rewards
    rfl
  | cons a rest ih =>
    have noted := note_rewards found (judge a) (rewards.trans rfl)
    rw [List.zipIdx_cons, List.foldlM_cons, each a (by simp), ok_bind, noted]
    have later := ih (fun b member => each b (List.mem_cons_of_mem a member))
      { rewards := (earned ++ [verdictReward cfg (judge a)]) ++
          List.replicate rest.length cfg.rewardIdle
        successes := found.successes + [judge a].count .alone
        collisions := found.collisions + [judge a].count .collided
        puClashes := found.puClashes + [judge a].count .blocked }
      (earned ++ [verdictReward cfg (judge a)]) rfl
    rw [List.length_append, List.length_singleton] at later
    rw [later]
    have split : ∀ v, (judge a :: rest.map judge).count v =
        [judge a].count v + (rest.map judge).count v := by
      intro v
      rw [← List.count_append, List.singleton_append]
    simp only [List.map_cons, split, List.append_assoc, List.singleton_append, Nat.add_assoc]

theorem count_filter_chosen (actions : List Int) (i : Int) :
    (actions.filter (· < cfg.nChannels)).count i =
      (actions.map (chosen cfg)).count (some i) := by
  induction actions with
  | nil => rfl
  | cons a rest ih =>
    by_cases idle : cfg.nChannels ≤ a
    · have out : ¬ a < cfg.nChannels := by omega
      simp [chosen, idle, out] at ih ⊢
      exact ih
    · have transmits : a < cfg.nChannels := by omega
      simp only [List.filter_cons, transmits, decide_true, if_true, List.map_cons, chosen, idle,
        if_false, List.count_cons] at ih ⊢
      rw [ih]
      simp

theorem verdicts_map (actions : List Int) : verdicts cfg puBusy actions = actions.map fun a =>
    SharedChannels.among (occupiedBy puBusy) (actions.map (chosen cfg)) (chosen cfg a) :=
  List.map_map

/-- Both loops: the rewards that the verdicts imply, and as many of each as there are. -/
theorem resolve_verdicts {actions : List Int}
    (channels : (puBusy.length : Int) = cfg.nChannels)
    (inRange : ∀ a ∈ actions, 0 ≤ a ∧ a ≤ cfg.nChannels) :
    resolve cfg puBusy actions =
      .ok { rewards := (verdicts cfg puBusy actions).map (verdictReward cfg)
            successes := (verdicts cfg puBusy actions).count .alone
            collisions := (verdicts cfg puBusy actions).count .collided
            puClashes := (verdicts cfg puBusy actions).count .blocked } := by
  have size : cfg.nChannels.toNat = puBusy.length := by omega
  obtain ⟨counts, tallied, sized, counted⟩ := @tally_run
    (actions.filter (· < cfg.nChannels)) (List.replicate cfg.nChannels.toNat 0)
    (fun ch member => by
      obtain ⟨member, small⟩ := List.mem_filter.mp member
      have low := (inRange ch member).1
      simp at small ⊢
      omega)
  rw [List.length_replicate, size] at sized
  have each : ∀ a ∈ actions, ∀ found u, resolveUser cfg puBusy counts found (a, u) =
      .ok (found.note cfg u
        (SharedChannels.among (occupiedBy puBusy) (actions.map (chosen cfg)) (chosen cfg a))) := by
    intro a member found u
    apply resolveUser_note (inRange a member).1 channels sized
    intro i small
    rw [counted i (by rw [List.length_replicate]; omega),
      count_filter_chosen actions, List.getD_eq_getElem?_getD,
      List.getElem?_replicate_of_lt (by omega), Option.getD_some, Nat.zero_add]
  have run := resolve_run each { rewards := List.replicate actions.length cfg.rewardIdle } [] rfl
  unfold resolve
  rw [if_neg (by omega), tallied, ok_bind]
  refine run.trans ?_
  rw [verdicts_map]
  simp only [List.nil_append, Nat.zero_add]

/-- How many users alone on a channel: one at most, and none where it is busy. -/
theorem countP_alone_le (actions : List Int) (channel : Int) :
    ((actions.zip (verdicts cfg puBusy actions)).countP
      fun user => decide (user.1 = channel ∧ user.2 = .alone)) ≤
        if occupiedBy puBusy channel then 0 else 1 := by
  refine le_trans ?_ (SharedChannels.holders_le (occupiedBy puBusy) (actions.map (chosen cfg))
    channel)
  unfold SharedChannels.holders
  rw [verdicts_map, List.zip_eq_zipWith, List.zipWith_map_right, List.zipWith_self,
    List.countP_map, List.countP_map]
  apply List.countP_mono_left
  intro a _ both
  simp only [Function.comp_apply, decide_eq_true_eq] at both ⊢
  obtain ⟨rfl, alone⟩ := both
  refine ⟨?_, alone⟩
  unfold chosen at alone ⊢
  split
  · rename_i idle
    rw [if_pos idle] at alone
    cases alone
  · rfl

theorem verdicts_transmit (actions : List Int) :
    (verdicts cfg puBusy actions).count .alone + (verdicts cfg puBusy actions).count .collided +
      (verdicts cfg puBusy actions).count .blocked = actions.countP (· < cfg.nChannels) := by
  rw [SharedChannels.count_verdicts, verdicts, SharedChannels.countP_verdicts, List.countP_map]
  apply List.countP_congr
  intro a _
  simp only [Function.comp_apply, chosen]
  split
  · simp
    omega
  · simp
    omega

/-- The outcome of the single agent is the verdict on it against the others. -/
theorem outcome_against (a : Int) (others : List Int) :
    outcome cfg puBusy others a = verdictOutcome cfg
      (SharedChannels.against (occupiedBy puBusy) (others.map (chosen cfg)) (chosen cfg a)) := by
  unfold outcome
  by_cases idle : cfg.nChannels ≤ a
  · rw [if_pos idle, chosen_idle idle]
    rfl
  · have picked : chosen cfg a = some a := chosen_channel (lt_of_not_ge idle)
    have shared : 1 < others.count a + 1 ↔ some a ∈ others.map (chosen cfg) := by
      rw [← List.count_pos_iff, ← count_filter_chosen, List.count_filter (by simpa using idle)]
      omega
    have occupied : puBusy.getD a.toNat false = occupiedBy puBusy a := rfl
    rw [if_neg idle, picked, occupied]
    simp only [SharedChannels.against, shared]
    by_cases held : occupiedBy puBusy a = true
    · rw [if_pos held, if_pos held]
      rfl
    · rw [if_neg held, if_neg held]
      by_cases met : some a ∈ others.map (chosen cfg)
      · rw [if_pos met, if_pos met]
        rfl
      · rw [if_neg met, if_neg met]
        rfl

end

/-- Each bit that is read goes above those read before. -/
theorem encode_run (bits : List Bool) {k state : ℕ} (small : state < 2 ^ k) :
    (bits.zipIdx k).foldl (fun state bit => if bit.1 then state ||| 1 <<< bit.2 else state)
      state < 2 ^ (k + bits.length) := by
  induction bits generalizing k state with
  | nil => exact small
  | cons bit rest ih =>
    rw [List.zipIdx_cons, List.foldl_cons, List.length_cons, Nat.add_comm rest.length,
      ← Nat.add_assoc]
    apply ih
    have grown : (2 : ℕ) ^ (k + 1) = 2 ^ k * 2 := Nat.pow_succ 2 k
    have positive := Nat.two_pow_pos k
    split
    · apply Nat.or_lt_two_pow
      · omega
      · rw [Nat.one_shiftLeft]
        dsimp only
        omega
    · omega

theorem encodeSensing_lt (senseBits : List Bool) :
    encodeSensing senseBits < 2 ^ senseBits.length := by
  have run := @encode_run senseBits 0 0 (by omega)
  rwa [Nat.zero_add] at run

theorem DSAWorld.advance_sense_length {gen : Generator} (world : DSAWorld gen) :
    world.advance.sense.length ≤ world.busy.length := by
  simp only [advance, chainStep, senseChannels, List.length_zipWith]
  omega

/-- One slot of the world. Each user has one verdict, and the rewards and the counters are
    those of the verdicts; a channel has one successful user at most, and none where it is
    busy. The agent of an environment that meets the other users' choices fares as it
    would among them. -/
theorem DSAWorld.step_resolves {gen : Generator} (full : Int → ℕ → Except PyErr (List Int))
    (fills : ∀ n s : ℕ, s < 2 ^ 63 → full n s = .ok (List.replicate n s))
    (world : DSAWorld gen) (actions : List Int)
    (channels : (world.busy.length : Int) = world.cfg.nChannels)
    (users : (actions.length : Int) = world.cfg.nUsers)
    (inRange : ∀ a ∈ actions, 0 ≤ a ∧ a ≤ world.cfg.nChannels) :
    let vs := verdicts world.cfg world.busy actions
    vs.length = actions.length ∧
    world.step full actions = (world.advance.obs full).map (fun obs =>
      { world := world.advance
        obs := obs
        rewards := vs.map (verdictReward world.cfg)
        done := decide (world.cfg.maxSteps ≤ world.t + 1)
        info := ⟨world.busy, vs.count .alone, vs.count .collided, vs.count .blocked,
          world.t + 1⟩ }) ∧
    (world.cfg.nChannels ≤ 63 → ∃ obs, world.advance.obs full = .ok obs) ∧
    vs.count .alone + vs.count .collided + vs.count .blocked =
      actions.countP (· < world.cfg.nChannels) ∧
    (∀ channel, ((actions.zip vs).countP fun user =>
      decide (user.1 = channel ∧ user.2 = .alone)) ≤ if occupiedBy world.busy channel then 0 else 1) ∧
    ∀ before a after, actions = before ++ a :: after →
      ∀ {gen' : Generator} (env : DSAEnv gen') (rng : gen'.State), env.cfg = world.cfg →
        env.busy = world.busy → env.backgroundChoices = .ok (before ++ after, rng) →
        ∃ v next, vs[before.length]? = some v ∧ env.step a = .ok next ∧
          next.reward = verdictReward world.cfg v ∧ next.info.success = decide (v = .alone) ∧
          next.info.collision = decide (v = .collided) ∧
          next.info.puClash = decide (v = .blocked) := by
  intro vs
  have size : vs.length = actions.length := by
    rw [show vs = _ from verdicts_map actions, List.length_map]
  refine ⟨size, ?_, ?_, verdicts_transmit actions, countP_alone_le actions, ?_⟩
  · unfold step
    rw [if_neg (by omega)]
    dsimp only
    rw [resolve_verdicts channels inRange]
    change (world.advance.obs full >>= _) = _
    cases world.advance.obs full with
    | error e => rfl
    | ok obs => rfl
  · intro few
    have shorter := world.advance_sense_length
    have packed := encodeSensing_lt world.advance.sense
    have bound : 2 ^ world.advance.sense.length ≤ 2 ^ 63 :=
      Nat.pow_le_pow_right (by omega) (by omega)
    have filled := fills actions.length (encodeSensing world.advance.sense)
      (lt_of_lt_of_le packed bound)
    rw [users] at filled
    exact ⟨_, filled⟩
  · rintro before a after rfl gen' env rng sameCfg sameBusy drawn
    have ⟨low, high⟩ := inRange a (by simp)
    refine ⟨SharedChannels.against (occupiedBy world.busy)
      ((before ++ after).map (chosen world.cfg)) (chosen world.cfg a), ?_⟩
    have judged : vs[before.length]? = some (SharedChannels.against (occupiedBy world.busy)
        ((before ++ after).map (chosen world.cfg)) (chosen world.cfg a)) := by
      rw [show vs = _ from verdicts_map _, List.getElem?_map, List.getElem?_append_right le_rfl]
      simp only [Nat.sub_self, List.getElem?_cons_zero, Option.map_some, List.map_append,
        List.map_cons, SharedChannels.among_eq_against]
    have found := @outcome_against world.cfg world.busy a (before ++ after)
    unfold DSAEnv.step
    rw [if_neg (by rw [sameCfg]; omega), drawn, ok_bind, sameCfg, sameBusy]
    dsimp only
    rw [found]
    exact ⟨_, judged, rfl, rfl, rfl, rfl, rfl⟩

/-- Draws one half every time, and the integer 0. -/
def steadyGenerator : Generator where
  State := Unit
  defaultRng _ := .ok ()
  random s := (.fin (1 / 2), s)
  randomArray n s := (List.replicate n (.fin (1 / 2)), s)
  integers n s := if n ≤ 0 then .error .valueError else .ok (0, s)
  integersArray n k s := if n ≤ 0 then .error .valueError else .ok (List.replicate k 0, s)

def sampleConfig : DSAConfig := { nChannels := 2, nUsers := 3 }

def sampleFull (n : Int) (s : ℕ) : Except PyErr (List Int) :=
  if n < 0 then .error .valueError
  else if 2 ^ 63 ≤ s then .error .overflowError
  else .ok (List.replicate n.toNat s)

/-- Three users on the first of two channels, and the agent that meets two of them there. -/
theorem sampleWorld_step :
    let world : DSAWorld steadyGenerator := ⟨sampleConfig, 0, (), [false, true], [true, false], 0⟩
    let env : DSAEnv steadyGenerator := ⟨sampleConfig, 0, (), [false, true], [true, false], 0⟩
    (∃ next, world.step sampleFull [0, 0, 0] = .ok next ∧ next.info.collisions = 3 ∧
      next.rewards = List.replicate 3 (.fin (-1 / 2))) ∧
    ∃ next, env.step 0 = .ok next ∧ next.reward = .fin (-1 / 2) ∧ next.info.collision = true := by
  intro world env
  have fills : ∀ n s : ℕ, s < 2 ^ 63 → sampleFull n s = .ok (List.replicate n s) := by
    intro n s small
    unfold sampleFull
    rw [if_neg (by omega), if_neg (by omega)]
    rfl
  obtain ⟨_, stepped, returned, _, _, agrees⟩ := DSAWorld.step_resolves sampleFull fills world
    [0, 0, 0] rfl rfl (by decide)
  obtain ⟨obs, packed⟩ := returned (by decide)
  rw [packed] at stepped
  obtain ⟨v, next, judged, same, reward, _, collision, _⟩ :=
    agrees [] 0 [0, 0] rfl env () rfl rfl rfl
  have found : verdicts world.cfg world.busy [0, 0, 0] = [.collided, .collided, .collided] := by
    decide
  rw [found] at stepped judged
  cases judged
  exact ⟨⟨_, stepped, rfl, rfl⟩, next, same, reward, collision⟩

end HorizonRic.Spectrum
