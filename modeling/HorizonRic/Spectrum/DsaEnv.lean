import HorizonRic.Python.Raises

/-!
`spectrum/dsa_env.py`: a secondary user and its background on channels whose primary
users come and go. Everything random is drawn from a generator that its seed determines.
-/
namespace HorizonRic.Spectrum
open Py

structure DSAConfig where
  nChannels : Int := 6
  nUsers : Int := 3
  pIdleToBusy : Number := .fin (1 / 5)
  pBusyToIdle : Number := .fin (2 / 5)
  senseError : Number := .fin (1 / 20)
  maxSteps : Int := 200
  rewardSuccess : Number := .fin 1
  rewardCollision : Number := .fin (-1 / 2)
  rewardIdle : Number := .fin 0
  rewardPuClash : Number := .fin (-1 / 2)

/-- `numpy.random`: a draw and the state after it depend on the state before. Integers
    are drawn from 0 up to the bound, which must be positive. -/
structure Generator where
  State : Type
  defaultRng : Int → Except PyErr State
  random : State → Number × State
  randomArray : ℕ → State → List Number × State
  integers : Int → State → Except PyErr (Int × State)
  integersArray : Int → ℕ → State → Except PyErr (List Int × State)

/-- The state id of an idle bit for each channel. -/
def encodeSensing (senseBits : List Bool) : ℕ :=
  senseBits.zipIdx.foldl (fun state bit => if bit.1 then state ||| 1 <<< bit.2 else state) 0

section
variable (gen : Generator) (cfg : DSAConfig)

/-- Which channels are busy, at the stationary probability of the chain. -/
def chainInitial (rng : gen.State) : Except PyErr (List Bool × gen.State) := do
  let pBusy ← Number.div cfg.pIdleToBusy (cfg.pIdleToBusy + cfg.pBusyToIdle)
  if cfg.nChannels < 0 then .error .valueError
  else
    let (rolls, rng) := gen.randomArray cfg.nChannels.toNat rng
    .ok (rolls.map fun roll => Number.lt roll pBusy, rng)

def chainStep (busy : List Bool) (rng : gen.State) : List Bool × gen.State :=
  let (rolls, rng) := gen.randomArray busy.length rng
  (List.zipWith (fun isBusy roll =>
    if isBusy then !Number.lt roll cfg.pBusyToIdle else Number.lt roll cfg.pIdleToBusy)
    busy rolls, rng)

/-- The idle bits, some of them flipped. -/
def senseChannels (puBusy : List Bool) (rng : gen.State) : List Bool × gen.State :=
  let (rolls, rng) := gen.randomArray puBusy.length rng
  (List.zipWith (fun isBusy roll => !isBusy != Number.lt roll cfg.senseError) puBusy rolls, rng)

end

structure DSAEnv (gen : Generator) where
  cfg : DSAConfig
  seed : Int
  rng : gen.State
  busy : List Bool
  sense : List Bool
  t : Int

structure StepInfo where
  puBusy : List Bool
  others : List Int
  success : Bool
  collision : Bool
  puClash : Bool
  t : Int

/-- What an action earns, and why. -/
structure Outcome where
  reward : Number
  success : Bool := false
  collision : Bool := false
  puClash : Bool := false

/-- The last action is to stay idle. -/
def outcome (cfg : DSAConfig) (puBusy : List Bool) (others : List Int) (action : Int) : Outcome :=
  if cfg.nChannels ≤ action then { reward := cfg.rewardIdle }
  else if puBusy.getD action.toNat false then { reward := cfg.rewardPuClash, puClash := true }
  else if 1 < others.count action + 1 then { reward := cfg.rewardCollision, collision := true }
  else { reward := cfg.rewardSuccess, success := true }

structure StepReturn (gen : Generator) where
  env : DSAEnv gen
  obs : ℕ
  reward : Number
  done : Bool
  info : StepInfo

namespace DSAEnv
variable {gen : Generator}

/-- A new environment, and what `reset` makes of one. -/
def reset (cfg : DSAConfig) (seed : Int) : Except PyErr (DSAEnv gen) := do
  let rng ← gen.defaultRng seed
  let (busy, rng) ← chainInitial gen cfg rng
  let (sense, rng) := senseChannels gen cfg busy rng
  .ok ⟨cfg, seed, rng, busy, sense, 0⟩

variable (env : DSAEnv gen)

def obs : ℕ := encodeSensing env.sense

def backgroundChoices : Except PyErr (List Int × gen.State) :=
  let k := env.cfg.nUsers - 1
  if k ≤ 0 then .ok ([], env.rng)
  else gen.integersArray env.cfg.nChannels k.toNat env.rng

def step (action : Int) : Except PyErr (StepReturn gen) :=
  if ¬(0 ≤ action ∧ action ≤ env.cfg.nChannels) then .error .valueError
  else do
    let puBusy := env.busy
    let (others, rng) ← env.backgroundChoices
    let result := outcome env.cfg puBusy others action
    let (busy, rng) := chainStep gen env.cfg puBusy rng
    let (sense, rng) := senseChannels gen env.cfg busy rng
    let t := env.t + 1
    .ok { env := { env with rng, busy, sense, t }
          obs := encodeSensing sense
          reward := result.reward
          done := decide (env.cfg.maxSteps ≤ t)
          info := ⟨puBusy, others, result.success, result.collision, result.puClash, t⟩ }

end DSAEnv

/-- A step takes one slot, and the episode is over when they are used up. -/
theorem DSAEnv.step_slot {gen : Generator} {env : DSAEnv gen} {action : Int}
    {next : StepReturn gen} (stepped : env.step action = .ok next) :
    next.env.cfg = env.cfg ∧ next.env.t = env.t + 1 ∧
      next.done = decide (env.cfg.maxSteps ≤ env.t + 1) := by
  rw [step] at stepped
  split at stepped
  · cases stepped
  · obtain ⟨⟨others, rng⟩, _, stepped⟩ := bind_eq_ok stepped
    cases stepped
    exact ⟨rfl, rfl, rfl⟩

end HorizonRic.Spectrum
