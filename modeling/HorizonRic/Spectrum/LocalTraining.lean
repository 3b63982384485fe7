import HorizonRic.Federated.SubjectErasure
import HorizonRic.Spectrum.DsaEnv

/-!
`spectrum/federated_q.py` and `spectrum/data_poison.py`: tabular Q-learning on a client's
environment, the training that a poisoned reward misleads, and the crafted tables.
-/
namespace HorizonRic.Spectrum
open Py

structure QLearnConfig extends Erasure.QLearnConfig where
  epsilon : Number := .fin (3 / 20)
  episodes : Int := 8

/-- `np.argmax`: the first NaN, or else the first greatest entry. -/
def argmax (xs : List Number) : Except PyErr ℕ :=
  if xs = [] then .error .valueError
  else .ok (xs.findIdx fun x => x.isNan || xs.all fun y => Number.le y x)

def greedyAction (q : Erasure.QTable) (state : ℕ) : Except PyErr ℕ := do
  let row ← Erasure.axisIndex q.length state
  argmax (q.getD row [])

/-- A client in training, at the state it observes. -/
structure Learner (gen : Generator) where
  q : Erasure.QTable
  rng : gen.State
  env : DSAEnv gen
  state : ℕ
  done : Bool

/-- The reward that is learned from what the environment reports. -/
abbrev Signal (gen : Generator) := gen.State → Number → StepInfo → Number × gen.State

section
variable {gen : Generator} (np : Float64) (signal : Signal gen) (cfg : QLearnConfig)

/-- Epsilon-greedy. -/
def chooseAction (learner : Learner gen) : Except PyErr (Int × gen.State) :=
  let (draw, rng) := gen.random learner.rng
  if Number.lt draw cfg.epsilon then
    gen.integers (Erasure.nActions learner.env.cfg.nChannels) rng
  else do
    let action ← greedyAction learner.q learner.state
    .ok (action, rng)

def trainSlot (learner : Learner gen) : Except PyErr (Learner gen) := do
  let (action, rng) ← chooseAction cfg learner
  let next ← learner.env.step action
  let (reward, rng) := signal rng next.reward next.info
  let q ← Erasure.replay np cfg.toQLearnConfig learner.q
    ⟨learner.state, action, reward, next.obs, ""⟩
  .ok ⟨q, rng, next.env, next.obs, next.done⟩

/-- `while not done`, at most so many slots. -/
def trainEpisode : ℕ → Learner gen → Except PyErr (Learner gen)
  | 0, learner => .ok learner
  | slots + 1, learner =>
    if learner.done then .ok learner
    else do
      let learner ← trainSlot np signal cfg learner
      trainEpisode slots learner

/-- The slots of an episode; it has one whatever `max_steps` is. -/
def episodeSlots (dsaCfg : DSAConfig) : ℕ := (max 1 dsaCfg.maxSteps).toNat

def train (dsaCfg : DSAConfig) (qInit : Option Erasure.QTable) (seed : Int) :
    Except PyErr Erasure.QTable := do
  let ns ← Erasure.nStates dsaCfg.nChannels
  let na := Erasure.nActions dsaCfg.nChannels
  let rng ← gen.defaultRng seed
  let q := qInit.getD (List.replicate ns (List.replicate na (.fin 0)))
  let (q, _) ← (List.range cfg.episodes.toNat).foldlM (fun learned ep => do
    let env ← DSAEnv.reset dsaCfg (seed + ep + 1)
    let learner ← trainEpisode np signal cfg (episodeSlots dsaCfg)
      ⟨learned.1, learned.2, env, env.obs, false⟩
    .ok (learner.q, learner.rng)) (q, rng)
  .ok q

end

section
variable (gen : Generator) (np : Float64) (cfg : QLearnConfig) (dsaCfg : DSAConfig)
  (qInit : Option Erasure.QTable) (seed : Int)

def trainLocalQ : Except PyErr Erasure.QTable :=
  train np (fun (rng : gen.State) reward _ => (reward, rng)) cfg dsaCfg qInit seed

/-- The inverted reward. -/
def poisonReward (info : StepInfo) : Number :=
  if info.success then -dsaCfg.rewardSuccess
  else if info.collision then -dsaCfg.rewardCollision
  else if info.puClash then -dsaCfg.rewardPuClash
  else dsaCfg.rewardIdle

def trainRewardPoisonedQ (flipProb : Number) : Except PyErr Erasure.QTable :=
  train np (fun (rng : gen.State) reward info =>
    let (draw, rng) := gen.random rng
    (if Number.lt draw flipProb then poisonReward dsaCfg info else reward, rng))
    cfg dsaCfg qInit seed

structure BackdoorSpec where
  triggerState : Int
  targetChannel : Int
  boost : Number := .fin 50

/-- One row is overwritten. -/
def stampBackdoor (q : Erasure.QTable) (spec : BackdoorSpec) : Except PyErr Erasure.QTable := do
  let s ← Erasure.axisIndex q.length spec.triggerState
  let row := (q.getD s []).map fun _ => Number.fin 0
  let target ← Erasure.axisIndex row.length spec.targetChannel
  .ok (q.set s (row.set target spec.boost))

def trainBackdoorQ (spec : BackdoorSpec) : Except PyErr Erasure.QTable := do
  let benign ← trainLocalQ gen np cfg dsaCfg qInit seed
  stampBackdoor benign spec

/-- A table that holds `magnitude` for one channel and zero elsewhere. -/
def craftPoisonQ (shape : ℕ × ℕ) (targetChannel : Int) (magnitude : Number) :
    Except PyErr Erasure.QTable := do
  let target ← Erasure.axisIndex shape.2 targetChannel
  .ok (List.replicate shape.1 ((List.replicate shape.2 (.fin 0)).set target magnitude))

end

/-! The loop ends by its own test. -/

section
variable {gen : Generator} {np : Float64} {signal : Signal gen} {cfg : QLearnConfig}

theorem trainSlot_slot {learner next : Learner gen}
    (trained : trainSlot np signal cfg learner = .ok next) :
    next.env.cfg = learner.env.cfg ∧ next.env.t = learner.env.t + 1 ∧
      next.done = decide (learner.env.cfg.maxSteps ≤ learner.env.t + 1) := by
  obtain ⟨⟨action, rng⟩, _, trained⟩ := bind_eq_ok trained
  obtain ⟨step, stepped, trained⟩ := bind_eq_ok trained
  obtain ⟨q, _, trained⟩ := bind_eq_ok trained
  cases trained
  exact DSAEnv.step_slot stepped

theorem trainEpisode_done {slots : ℕ} {learner ended : Learner gen}
    (trained : trainEpisode np signal cfg slots learner = .ok ended)
    (enough : learner.done = true ∨
      0 < slots ∧ learner.env.cfg.maxSteps ≤ learner.env.t + slots) : ended.done = true := by
  induction slots generalizing learner with
  | zero =>
    cases trained
    rcases enough with finished | ⟨impossible, _⟩
    · exact finished
    · cases impossible
  | succ slots ih =>
    rw [trainEpisode] at trained
    split at trained
    · rename_i finished
      cases trained
      exact finished
    · rename_i notOver
      obtain ⟨next, slot, trained⟩ := bind_eq_ok trained
      obtain ⟨sameCfg, tick, finished⟩ := trainSlot_slot slot
      have ⟨_, bound⟩ := enough.resolve_left notOver
      refine ih trained ?_
      rw [finished, decide_eq_true_eq, sameCfg, tick]
      push_cast at bound
      omega

/-- An episode runs until the environment reports that it is over. -/
theorem trainEpisode_over {learner ended : Learner gen} (begins : learner.env.t = 0)
    (trained : trainEpisode np signal cfg (episodeSlots learner.env.cfg) learner = .ok ended) :
    ended.done = true := by
  refine trainEpisode_done trained (Or.inr ?_)
  rw [begins, episodeSlots]
  omega

end
end HorizonRic.Spectrum
