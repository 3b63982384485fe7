import HorizonRic.Spectrum.LocalTraining

/-!
`federated/unlearning.py`: federated training that records its uploads, training again
without the flagged clients, and the cheap replay of the uploads that are kept.
-/
namespace HorizonRic.Unlearning
open Py Spectrum

def honest : String := "honest"
def backdoor : String := "backdoor"
def rewardPoison : String := "reward_poison"
def qtableTarget : String := "qtable_target"

structure ClientSpec where
  clientId : String
  seed : Int
  role : String := honest
  backdoor : Option BackdoorSpec := none

/-- What every client uploaded in one round. -/
structure RoundUploads where
  clientIds : List String
  uploads : List Erasure.QTable

structure FederatedTrace where
  clients : List ClientSpec
  rounds : List RoundUploads
  shape : ℕ × ℕ
  method : String
  dsaCfg : DSAConfig
  qCfg : QLearnConfig
  baseSeed : Int

section
variable (gen : Generator) (np : Float64)

def localUpdate (dsaCfg : DSAConfig) (qCfg : QLearnConfig) (shape : ℕ × ℕ)
    (globalQ : Option Erasure.QTable) (spec : ClientSpec) : Except PyErr Erasure.QTable :=
  if spec.role = qtableTarget then craftPoisonQ shape 0 (.fin 50)
  else do
    let _ ← (DSAEnv.reset dsaCfg spec.seed : Except PyErr (DSAEnv gen))
    if spec.role = honest then trainLocalQ gen np qCfg dsaCfg globalQ spec.seed
    else if spec.role = rewardPoison then
      trainRewardPoisonedQ gen np qCfg dsaCfg globalQ spec.seed (.fin 1)
    else if spec.role = backdoor then
      match spec.backdoor with
      | none => .error .valueError
      | some trigger => trainBackdoorQ gen np qCfg dsaCfg globalQ spec.seed trigger
    else .error .valueError

def aggregate (uploads : List Erasure.QTable) (method : String) (f : Int) :
    Except PyErr (List Number) :=
  let flats := uploads.map List.flatten
  if method = "fedavg" then Erasure.fedavg np flats
  else if method = "median" then Erasure.coordinateMedian np flats
  else if method = "trimmed_mean" then Erasure.trimmedMean np flats (max 1 f).toNat
  else if method = "krum" then
    RobustAggregation.KrumResult.aggregate <$> Erasure.krum np flats (max 0 f).toNat
  else .error .valueError

/-- One round: the uploads, and the table that becomes the global one. -/
def trainRound (clients : List ClientSpec) (method : String) (dsaCfg : DSAConfig)
    (qCfg : QLearnConfig) (shape : ℕ × ℕ) (f : Int) (globalQ : Option Erasure.QTable) :
    Except PyErr (RoundUploads × Erasure.QTable) := do
  let uploads ← clients.mapM (localUpdate gen np dsaCfg qCfg shape globalQ)
  let flat ← aggregate np uploads method f
  let table ← Erasure.reshape shape.1 shape.2 flat
  .ok (⟨clients.map ClientSpec.clientId, uploads⟩, table)

/-- The rounds, each of which starts from the global table of the one before. -/
def trainRounds (round : Option Erasure.QTable → Except PyErr (RoundUploads × Erasure.QTable)) :
    ℕ → Option Erasure.QTable → Except PyErr (List RoundUploads × Option Erasure.QTable)
  | 0, globalQ => .ok ([], globalQ)
  | rounds + 1, globalQ => do
    let (uploads, table) ← round globalQ
    let (later, globalQ) ← trainRounds round rounds (some table)
    .ok (uploads :: later, globalQ)

def runFederatedTraining (clients : List ClientSpec) (rounds : Int) (method : String)
    (dsaCfg : Option DSAConfig) (qCfg : Option QLearnConfig) (nMalicious : Option Int)
    (baseSeed : Int) : Except PyErr (Erasure.QTable × FederatedTrace) := do
  let dsaCfg := dsaCfg.getD {}
  let qCfg := qCfg.getD {}
  let ns ← Erasure.nStates dsaCfg.nChannels
  let shape := (ns, Erasure.nActions dsaCfg.nChannels)
  let f := nMalicious.getD (clients.countP fun c => c.role ≠ honest)
  let (recorded, globalQ) ←
    trainRounds (trainRound gen np clients method dsaCfg qCfg shape f) rounds.toNat none
  match globalQ with
  | none => .error (.other "AssertionError")
  | some globalQ => .ok (globalQ, ⟨clients, recorded, shape, method, dsaCfg, qCfg, baseSeed⟩)

/-- `method or trace.method`. -/
def methodOr (method : Option String) (trace : FederatedTrace) : String :=
  match method with
  | none => trace.method
  | some name => if name = "" then trace.method else name

def kept (clientIds : List String) (items : List Erasure.QTable) (removed : List String) :
    List Erasure.QTable :=
  ((clientIds.zip items).filter fun entry => entry.1 ∉ removed).map Prod.snd

def retrainFromScratch (trace : FederatedTrace) (removed : List String)
    (method : Option String) : Except PyErr Erasure.QTable :=
  let kept := trace.clients.filter fun c => c.clientId ∉ removed
  if kept = [] then .error .valueError
  else do
    let (globalQ, _) ← runFederatedTraining gen np kept trace.rounds.length (methodOr method trace)
      (some trace.dsaCfg) (some trace.qCfg) (some 0) trace.baseSeed
    .ok globalQ

def efficientUnlearn (trace : FederatedTrace) (removed : List String)
    (method : Option String) : Except PyErr Erasure.QTable :=
  match trace.rounds.getLast? with
  | none => .error .indexError
  | some last =>
    let keptUploads := kept last.clientIds last.uploads removed
    if keptUploads = [] then .error .valueError
    else do
      let flat ← aggregate np keptUploads (methodOr method trace) 0
      Erasure.reshape trace.shape.1 trace.shape.2 flat

end

/-! A recorded round. -/

theorem mapM_filter {f : α → Except PyErr β} {xs : List α} {ys : List β}
    (done : xs.mapM f = .ok ys) (p : α → Bool) :
    (xs.filter p).mapM f = .ok (((xs.zip ys).filter fun pair => p pair.1).map Prod.snd) := by
  rw [mapM_eq_ok_iff] at done ⊢
  induction done with
  | nil => exact .nil
  | @cons x y rest later head _ ih =>
    rw [List.zip_cons_cons, List.filter_cons, List.filter_cons]
    by_cases passes : p x = true
    · rw [if_pos passes, if_pos passes]
      exact .cons head ih
    · rw [if_neg passes, if_neg passes]
      exact ih

theorem kept_eq (clients : List ClientSpec) (uploads : List Erasure.QTable)
    (removed : List String) :
    kept (clients.map ClientSpec.clientId) uploads removed =
      ((clients.zip uploads).filter fun pair => pair.1.clientId ∉ removed).map Prod.snd := by
  rw [kept, List.zip_map_left, List.filter_map, List.map_map]
  rfl

section
variable {gen : Generator} {np : Float64} {clients : List ClientSpec} {method : String}
  {dsaCfg : DSAConfig} {qCfg : QLearnConfig} {f : Int} {shape : ℕ × ℕ}

/-- A round is the aggregate of what the clients upload. -/
theorem trainRound_of_uploads {globalQ : Option Erasure.QTable} {uploads : List Erasure.QTable}
    (uploaded : clients.mapM (localUpdate gen np dsaCfg qCfg shape globalQ) = .ok uploads) :
    trainRound gen np clients method dsaCfg qCfg shape f globalQ =
      (aggregate np uploads method f >>= fun flat =>
        Erasure.reshape shape.1 shape.2 flat >>= fun table =>
          .ok (⟨clients.map ClientSpec.clientId, uploads⟩, table)) := by
  rw [trainRound, uploaded, ok_bind]

/-- Training for one round. -/
theorem runFederatedTraining_one {ns : ℕ} (states : Erasure.nStates dsaCfg.nChannels = .ok ns)
    (nMalicious : Option Int) (baseSeed : Int) :
    runFederatedTraining gen np clients 1 method (some dsaCfg) (some qCfg) nMalicious baseSeed =
      (trainRound gen np clients method dsaCfg qCfg (ns, Erasure.nActions dsaCfg.nChannels)
        (nMalicious.getD (clients.countP fun c => c.role ≠ honest)) none >>= fun round =>
          .ok (round.2, ⟨clients, [round.1], (ns, Erasure.nActions dsaCfg.nChannels), method,
            dsaCfg, qCfg, baseSeed⟩)) := by
  simp only [runFederatedTraining, Option.getD_some, states, ok_bind, Int.toNat_one, trainRounds]
  cases trainRound gen np clients method dsaCfg qCfg (ns, Erasure.nActions dsaCfg.nChannels)
    (nMalicious.getD (clients.countP fun c => c.role ≠ honest)) none with
  | error e => rfl
  | ok round => rfl

/-- What a trace of one round says. -/
structure OneRound (gen : Generator) (np : Float64) (clients : List ClientSpec)
    (trace : FederatedTrace) (uploads : List Erasure.QTable) : Prop where
  recorded : trace.clients = clients
  rounds : trace.rounds = [⟨clients.map ClientSpec.clientId, uploads⟩]
  states : Erasure.nStates trace.dsaCfg.nChannels = .ok trace.shape.1
  actions : (trace.shape.1, Erasure.nActions trace.dsaCfg.nChannels) = trace.shape
  uploaded : clients.mapM (localUpdate gen np trace.dsaCfg trace.qCfg trace.shape none) =
    .ok uploads

theorem oneRound_of_recorded {dsaCfg : Option DSAConfig} {qCfg : Option QLearnConfig}
    {nMalicious : Option Int} {baseSeed : Int} {globalQ : Erasure.QTable} {trace : FederatedTrace}
    (recorded : runFederatedTraining gen np clients 1 method dsaCfg qCfg nMalicious baseSeed =
      .ok (globalQ, trace)) : ∃ uploads, OneRound gen np clients trace uploads := by
  have defaults : runFederatedTraining gen np clients 1 method dsaCfg qCfg nMalicious baseSeed =
      runFederatedTraining gen np clients 1 method (some (dsaCfg.getD {})) (some (qCfg.getD {}))
        nMalicious baseSeed := rfl
  rw [defaults] at recorded
  obtain ⟨ns, found, _⟩ := bind_eq_ok recorded
  have states : Erasure.nStates (dsaCfg.getD {}).nChannels = .ok ns := found
  rw [runFederatedTraining_one states] at recorded
  obtain ⟨⟨up, table⟩, trained, recorded⟩ := bind_eq_ok recorded
  obtain ⟨uploads, uploaded, trained⟩ := bind_eq_ok trained
  obtain ⟨flat, _, trained⟩ := bind_eq_ok trained
  obtain ⟨table', _, trained⟩ := bind_eq_ok trained
  cases trained
  cases recorded
  exact ⟨uploads, rfl, rfl, states, rfl, uploaded⟩

end

/-- After one round the replay of the kept uploads is the training without the removed
    clients, and where one raises so does the other. -/
theorem efficientUnlearn_eq_retrain (gen : Generator) (np : Float64) {clients : List ClientSpec}
    {method : String} {dsaCfg : Option DSAConfig} {qCfg : Option QLearnConfig}
    {nMalicious : Option Int} {baseSeed : Int} {globalQ : Erasure.QTable} {trace : FederatedTrace}
    (recorded : runFederatedTraining gen np clients 1 method dsaCfg qCfg nMalicious baseSeed =
      .ok (globalQ, trace)) (removed : List String) (given : Option String) :
    efficientUnlearn np trace removed given = retrainFromScratch gen np trace removed given := by
  obtain ⟨uploads, one⟩ := oneRound_of_recorded recorded
  have again := mapM_filter one.uploaded fun c => c.clientId ∉ removed
  rw [← kept_eq] at again
  have none_ : kept (clients.map ClientSpec.clientId) uploads removed = [] ↔
      (clients.filter fun c => c.clientId ∉ removed) = [] := by
    rw [← List.length_eq_zero_iff, ← List.length_eq_zero_iff, (mapM_eq_ok_iff.mp again).length_eq]
  simp only [efficientUnlearn, retrainFromScratch, one.rounds, one.recorded,
    List.getLast?_singleton, List.length_singleton, Nat.cast_one]
  by_cases every : (clients.filter fun c => c.clientId ∉ removed) = []
  · rw [if_pos every, if_pos (none_.mpr every)]
  · rw [if_neg every, if_neg (none_.not.mpr every), runFederatedTraining_one one.states,
      one.actions, trainRound_of_uploads again]
    simp only [Option.getD_some, bind_assoc, ok_bind]
    refine bind_congr fun flat => ?_
    cases Erasure.reshape trace.shape.1 trace.shape.2 flat with
    | error e => rfl
    | ok table => rfl

/-- A generator whose draws do not matter where no episode is trained. -/
def stillGenerator : Generator where
  State := Unit
  defaultRng _ := .ok ()
  random _ := (.fin 0, ())
  randomArray n _ := (List.replicate n (.fin 0), ())
  integers _ _ := .ok (0, ())
  integersArray _ n _ := .ok (List.replicate n 0, ())

/-- An honest client, a crafted table under another id, and an id that occurs twice. -/
def threeClients : List ClientSpec :=
  [{ clientId := "HON", seed := 1 }, { clientId := "MAL", seed := 2, role := qtableTarget },
    { clientId := "HON", seed := 3 }]

theorem efficientUnlearn_eq_retrain_three :
    ∃ globalQ trace,
      runFederatedTraining stillGenerator exactFloat64 threeClients 1 "fedavg"
        (some { nChannels := 1 }) (some { episodes := 0 }) none 0 = .ok (globalQ, trace) ∧
      efficientUnlearn exactFloat64 trace ["MAL"] none =
        retrainFromScratch stillGenerator exactFloat64 trace ["MAL"] none := by
  cases recorded : runFederatedTraining stillGenerator exactFloat64 threeClients 1 "fedavg"
      (some { nChannels := 1 }) (some { episodes := 0 }) none 0 with
  | error e =>
    have returns : (runFederatedTraining stillGenerator exactFloat64 threeClients 1 "fedavg"
        (some { nChannels := 1 }) (some { episodes := 0 }) none 0).isOk = true := by decide +kernel
    rw [recorded] at returns
    cases returns
  | ok result =>
    exact ⟨result.1, result.2, rfl,
      efficientUnlearn_eq_retrain stillGenerator exactFloat64 recorded ["MAL"] none⟩

end HorizonRic.Unlearning
