import HorizonRic.Evidence.Append
import HorizonRic.Library.PointerChasing
import HorizonRic.Python.Bytes
import HorizonRic.Python.JsonCanonical
import HorizonRic.Shield.Signing

/-!
`evidence/ai_phy_lineage.py`: model cards under the hash of what they say, and the replay of
a lineage from a card back to the oldest one that is registered. The hash is a parameter.
-/
namespace HorizonRic.AiPhyLineage
open Py Json PointerChasing

inductive PHYBlockKind where
  | channelEstimation
  | equalization
  | symbolDemapping
  | constellationMapping
  | paprShaping
  | sicDecoder
  deriving DecidableEq

def PHYBlockKind.text : PHYBlockKind → String
  | .channelEstimation => "channel_estimation"
  | .equalization => "equalization"
  | .symbolDemapping => "symbol_demapping"
  | .constellationMapping => "constellation_mapping"
  | .paprShaping => "papr_shaping"
  | .sicDecoder => "sic_decoder"

inductive MobilityClass where
  | low
  | medium
  | high
  deriving DecidableEq

def MobilityClass.text : MobilityClass → String
  | .low => "low"
  | .medium => "medium"
  | .high => "high"

/-- The constructor refuses a range whose ends are the wrong way round. -/
structure PARange where
  minDb : Number
  maxDb : Number
  ordered : Number.lt maxDb minDb = false
  deriving DecidableEq

/-- A card without the time it was issued at. -/
structure CardContent where
  name : String
  version : String
  sha256 : String
  inferenceType : String
  expectedRunTimeContext : String
  lastTrainingDatasetUri : String
  lastTrainingDatasetSha256 : String
  evaluationReportUri : String
  evaluationReportSha256 : String
  blockReplaced : PHYBlockKind
  applicablePaRegimes : List PARange
  applicableMobilityClasses : List MobilityClass
  cellConfigTags : List String := []
  previousVersionSha : Option String := none
  trainingDataLineageRef : Option String := none
  deriving DecidableEq

/-- `issuedAt` is its ISO text. -/
structure AIPhyModelCard extends CardContent where
  issuedAt : String

namespace AIPhyModelCard

def toDict (c : AIPhyModelCard) : Dict Value :=
  [("name", .str c.name), ("version", .str c.version), ("sha256", .str c.sha256),
    ("inference_type", .str c.inferenceType),
    ("expected_run_time_context", .str c.expectedRunTimeContext),
    ("last_training_dataset_uri", .str c.lastTrainingDatasetUri),
    ("last_training_dataset_sha256", .str c.lastTrainingDatasetSha256),
    ("evaluation_report_uri", .str c.evaluationReportUri),
    ("evaluation_report_sha256", .str c.evaluationReportSha256),
    ("block_replaced", .str c.blockReplaced.text),
    ("applicable_pa_regimes", .list (c.applicablePaRegimes.map fun p =>
      .dict [("min_db", .float p.minDb), ("max_db", .float p.maxDb)])),
    ("applicable_mobility_classes", .list (c.applicableMobilityClasses.map fun m => .str m.text)),
    ("cell_config_tags", .list (c.cellConfigTags.map Value.str)),
    ("previous_version_sha", orNull Value.str c.previousVersionSha),
    ("training_data_lineage_ref", orNull Value.str c.trainingDataLineageRef),
    ("issued_at", .str c.issuedAt)]

/-- The wall clock is not hashed. -/
def cardSha256 (py : Interpreter) (sha256Hex : Bytes → String) (c : AIPhyModelCard) :
    Except PyErr String := do
  let d := c.toDict.filter fun item => item.1 ≠ "issued_at"
  let text ← dumps py compact (.dict d)
  .ok (sha256Hex (utf8 text))

end AIPhyModelCard

/-- `_REGISTRY`. -/
abbrev Registry := Dict AIPhyModelCard

def emitAiPhyCard (py : Interpreter) (sha256Hex : Bytes → String) (registry : Registry)
    (card : AIPhyModelCard) : Except PyErr Registry := do
  let sha ← card.cardSha256 py sha256Hex
  .ok (Dict.set sha card registry)

/-- `while cur is not None`; none when the fuel runs out. -/
def replayLoop (registry : Registry) :
    ℕ → List AIPhyModelCard → Option AIPhyModelCard → Option (List AIPhyModelCard)
  | _, chain, none => some chain
  | 0, _, some _ => none
  | fuel + 1, chain, some cur =>
    let chain := chain ++ [cur]
    match cur.previousVersionSha with
    | none => some chain
    | some sha => replayLoop registry fuel chain (Dict.get? sha registry)

def replayLineageChain (fuel : ℕ) (registry : Registry) (cardSha : String) :
    Except PyErr (Option (List AIPhyModelCard)) :=
  match Dict.get? cardSha registry with
  | none => .error .keyError
  | some card => .ok ((replayLoop registry fuel [] (some card)).map List.reverse)

/-! The loop follows pointers. -/

/-- The card that this one names as its previous version, if it is registered. -/
def previous (registry : Registry) (card : AIPhyModelCard) : Option AIPhyModelCard :=
  card.previousVersionSha.bind fun sha => Dict.get? sha registry

theorem replayLoop_chase (registry : Registry) (fuel : ℕ) (chain : List AIPhyModelCard)
    (cur : AIPhyModelCard) : replayLoop registry fuel chain (some cur) =
      (chase (previous registry) fuel cur).map (chain ++ ·) := by
  induction fuel generalizing chain cur with
  | zero => rfl
  | succ fuel ih =>
    unfold replayLoop
    cases names : cur.previousVersionSha with
    | none =>
      have stop : previous registry cur = none := by
        unfold previous
        rw [names]
        rfl
      rw [chase_end stop]
      rfl
    | some sha =>
      have points : previous registry cur = Dict.get? sha registry := by
        unfold previous
        rw [names]
        rfl
      dsimp only
      cases found : Dict.get? sha registry with
      | none =>
        rw [chase_end (points.trans found)]
        cases fuel <;> rfl
      | some card =>
        rw [ih, chase_step (points.trans found), Option.map_map]
        congr 1
        funext rest
        simp

section
variable (py : Interpreter) (sha256Hex : Bytes → String)

/-- The first card names the second as its previous version. -/
def Refers (card older : AIPhyModelCard) : Prop :=
  ∃ sha, card.previousVersionSha = some sha ∧ older.cardSha256 py sha256Hex = .ok sha

/-- The registry after these calls. -/
def emitAll (cards : List AIPhyModelCard) : Except PyErr Registry :=
  cards.foldlM (emitAiPhyCard py sha256Hex) []

/-- Every card is one of these and stands under its own hash. -/
def Registered (cards : List AIPhyModelCard) (registry : Registry) : Prop :=
  ∀ sha card, Dict.get? sha registry = some card →
    card ∈ cards ∧ card.cardSha256 py sha256Hex = .ok sha

theorem toDict_digitsOk (c : AIPhyModelCard) : ∀ item ∈ c.toDict, item.2.digitsOk = true := by
  have optional : ∀ text : Option String, (orNull Value.str text).digitsOk = true := by
    intro text
    cases text <;> rfl
  simp [AIPhyModelCard.toDict, Value.digitsOk, Value.digitsOkItems, digitsOkList_iff, optional]

/-- A card can always be hashed. -/
theorem cardSha256_ok (c : AIPhyModelCard) : ∃ sha, c.cardSha256 py sha256Hex = .ok sha := by
  have printed :
      (Value.dict (c.toDict.filter fun item => item.1 ≠ "issued_at")).digitsOk = true := by
    rw [Value.digitsOk, digitsOkItems_iff]
    intro item member
    exact toDict_digitsOk c item (List.mem_of_mem_filter member)
  unfold AIPhyModelCard.cardSha256 dumps
  dsimp only
  rw [if_pos printed]
  exact ⟨_, rfl⟩

theorem emit_registered {cards : List AIPhyModelCard} {registry : Registry}
    (registered : Registered py sha256Hex cards registry) {card : AIPhyModelCard}
    (member : card ∈ cards) : ∃ next, emitAiPhyCard py sha256Hex registry card = .ok next ∧
      Registered py sha256Hex cards next := by
  obtain ⟨sha, hashed⟩ := cardSha256_ok py sha256Hex card
  refine ⟨Dict.set sha card registry, ?_, ?_⟩
  · unfold emitAiPhyCard
    rw [hashed]
    rfl
  · intro key found lookup
    by_cases same : sha = key
    · subst same
      rw [Dict.get?_set_self] at lookup
      cases lookup
      exact ⟨member, hashed⟩
    · rw [Dict.get?_set_ne registry card same] at lookup
      exact registered key found lookup

theorem emitAll_registered (cards : List AIPhyModelCard) : ∃ registry,
    emitAll py sha256Hex cards = .ok registry ∧ Registered py sha256Hex cards registry := by
  have run : ∀ (todo : List AIPhyModelCard) (registry : Registry), todo ⊆ cards →
      Registered py sha256Hex cards registry → ∃ last,
        todo.foldlM (emitAiPhyCard py sha256Hex) registry = .ok last ∧
          Registered py sha256Hex cards last := by
    intro todo
    induction todo with
    | nil =>
      intro registry _ registered
      exact ⟨registry, rfl, registered⟩
    | cons card rest ih =>
      intro registry among registered
      obtain ⟨next, emitted, kept⟩ :=
        emit_registered py sha256Hex registered (among List.mem_cons_self)
      obtain ⟨last, ran, ended⟩ :=
        ih next (fun c member => among (List.mem_cons_of_mem card member)) kept
      refine ⟨last, ?_, ended⟩
      rw [List.foldlM_cons, emitted]
      exact ran
  exact run cards [] (List.Subset.refl cards) (fun sha card lookup => by cases lookup)

variable {py sha256Hex} {cards : List AIPhyModelCard} {registry : Registry}
  (registered : Registered py sha256Hex cards registry)
include registered

/-- Pointers are references between cards that were emitted. -/
theorem previous_refers {card older : AIPhyModelCard}
    (points : previous registry card = some older) :
    older ∈ cards ∧ Refers py sha256Hex card older := by
  obtain ⟨sha, names, lookup⟩ := Option.bind_eq_some_iff.mp points
  obtain ⟨member, hashed⟩ := registered sha older lookup
  exact ⟨member, sha, names, hashed⟩

/-- The replay ends, within as many steps as there are cards. -/
theorem replay_total
    (acyclic : ∀ c, ¬ Relation.TransGen (fun c d => d ∈ cards ∧ Refers py sha256Hex c d) c c)
    {card : AIPhyModelCard} {h : String} (lookup : Dict.get? h registry = some card) :
    ∃ met, chase (previous registry) (registry.length + 1) card = some met ∧
      ∀ fuel, registry.length < fuel →
        replayLineageChain fuel registry h = .ok (some met.reverse) := by
  have within : ∀ c older, previous registry c = some older → older ∈ registry.map Prod.snd := by
    intro c older points
    obtain ⟨sha, _, found⟩ := Option.bind_eq_some_iff.mp points
    exact List.mem_map_of_mem (Dict.mem_of_get? found)
  have straight : ∀ c, ¬ Relation.TransGen (fun c d => previous registry c = some d) c c := by
    intro c cycle
    exact acyclic c (Relation.TransGen.mono (fun _ _ => previous_refers registered) c c cycle)
  obtain ⟨met, chased⟩ := chase_total (registry.map Prod.snd) within straight card
  rw [List.length_map] at chased
  refine ⟨met, chased, ?_⟩
  intro fuel enough
  unfold replayLineageChain
  rw [lookup]
  dsimp only
  rw [replayLoop_chase, chase_more chased (by omega)]
  simp

omit registered in
/-- What a replay has found is what the pointers lead to. -/
theorem replay_chase {fuel : ℕ} {h : String} {card : AIPhyModelCard}
    {chain : List AIPhyModelCard} (lookup : Dict.get? h registry = some card)
    (replayed : replayLineageChain fuel registry h = .ok (some chain)) :
    chase (previous registry) fuel card = some chain.reverse := by
  unfold replayLineageChain at replayed
  rw [lookup] at replayed
  dsimp only at replayed
  rw [replayLoop_chase] at replayed
  cases chased : chase (previous registry) fuel card with
  | none =>
    rw [chased] at replayed
    cases replayed
  | some met =>
    rw [chased] at replayed
    cases replayed
    simp

/-- Two registries lead from cards that say the same to cards that say the same. -/
theorem previous_agree {cards' : List AIPhyModelCard} {registry' : Registry}
    (registered' : Registered py sha256Hex cards' registry')
    (injective : ∀ c ∈ cards ++ cards', ∀ d ∈ cards ++ cards',
      c.cardSha256 py sha256Hex = d.cardSha256 py sha256Hex → c.toCardContent = d.toCardContent)
    (c d c' d' : AIPhyModelCard) (same : c.toCardContent = d.toCardContent)
    (points : previous registry c = some c') (points' : previous registry' d = some d') :
    c'.toCardContent = d'.toCardContent := by
  obtain ⟨sha, names, lookup⟩ := Option.bind_eq_some_iff.mp points
  obtain ⟨sha', names', lookup'⟩ := Option.bind_eq_some_iff.mp points'
  rw [same, names'] at names
  cases names
  obtain ⟨member, hashed⟩ := registered sha c' lookup
  obtain ⟨member', hashed'⟩ := registered' sha d' lookup'
  exact injective c' (List.mem_append_left cards' member) d' (List.mem_append_right cards member')
    (hashed.trans hashed'.symm)

end

/-- The lineage of a registered card. Its replay ends at the card, each card names the hash of
    the one before it, and the first one is a root or names a card that is missing. Another
    registry that holds the hash replays the same contents, as far as both reach. -/
theorem replay_content_addressed (py : Interpreter) (sha256Hex : Bytes → String)
    (cards cards' : List AIPhyModelCard)
    (injective : ∀ c ∈ cards ++ cards', ∀ d ∈ cards ++ cards',
      c.cardSha256 py sha256Hex = d.cardSha256 py sha256Hex → c.toCardContent = d.toCardContent)
    (acyclic : ∀ c,
      ¬ Relation.TransGen (fun c d => d ∈ cards ∧ Refers py sha256Hex c d) c c) :
    ∃ registry registry', emitAll py sha256Hex cards = .ok registry ∧
      emitAll py sha256Hex cards' = .ok registry' ∧
      ∀ h card, Dict.get? h registry = some card → ∃ chain,
        (∀ fuel, registry.length < fuel →
          replayLineageChain fuel registry h = .ok (some chain)) ∧
        chain.getLast? = some card ∧ card.cardSha256 py sha256Hex = .ok h ∧
        chain.IsChain (fun older newer => Refers py sha256Hex newer older) ∧
        (∃ first, chain.head? = some first ∧
          ∀ sha, first.previousVersionSha = some sha → Dict.get? sha registry = none) ∧
        ∀ fuel chain', replayLineageChain fuel registry' h = .ok (some chain') →
          chain.map AIPhyModelCard.toCardContent <:+ chain'.map AIPhyModelCard.toCardContent ∨
          chain'.map AIPhyModelCard.toCardContent <:+ chain.map AIPhyModelCard.toCardContent := by
  obtain ⟨registry, emitted, registered⟩ := emitAll_registered py sha256Hex cards
  obtain ⟨registry', emitted', registered'⟩ := emitAll_registered py sha256Hex cards'
  refine ⟨registry, registry', emitted, emitted', ?_⟩
  intro h card lookup
  obtain ⟨met, chased, replayed⟩ := replay_total registered acyclic lookup
  obtain ⟨first, linked, oldest, ended, stop⟩ := chase_linked chased
  obtain ⟨member, hashed⟩ := registered h card lookup
  refine ⟨met.reverse, replayed, ?_, hashed, ?_, ⟨oldest, ?_, ?_⟩, ?_⟩
  · rw [List.getLast?_reverse, first]
  · rw [List.isChain_reverse]
    exact linked.imp fun _ _ points => (previous_refers registered points).2
  · rw [List.head?_reverse, ended]
  · intro sha names
    unfold previous at stop
    rw [names] at stop
    exact stop
  · intro fuel chain' replayed'
    cases lookup' : Dict.get? h registry' with
    | none =>
      unfold replayLineageChain at replayed'
      rw [lookup'] at replayed'
      cases replayed'
    | some card' =>
      obtain ⟨member', hashed'⟩ := registered' h card' lookup'
      have start := injective card (List.mem_append_left cards' member) card'
        (List.mem_append_right cards member') (hashed.trans hashed'.symm)
      have agreed := chase_agree AIPhyModelCard.toCardContent
        (previous_agree registered registered' injective) start chased
        (replay_chase lookup' replayed')
      simpa only [← List.map_reverse, List.reverse_reverse, ← List.reverse_suffix] using agreed

theorem hashed_readable {py : Interpreter} {c : AIPhyModelCard}
    (free : c.applicablePaRegimes = []) :
    Readable py (.dict (c.toDict.filter fun item => item.1 ≠ "issued_at")) := by
  have optional : ∀ text : Option String, Readable py (orNull Value.str text) := by
    intro text
    cases text <;> trivial
  have texts : ∀ xs : List String, ReadableList py (xs.map Value.str) := by
    intro xs
    induction xs with
    | nil => trivial
    | cons x rest ih => exact ⟨trivial, ih⟩
  have classes := texts (c.applicableMobilityClasses.map MobilityClass.text)
  rw [List.map_map] at classes
  constructor
  · simp [AIPhyModelCard.toDict]
  · simp [AIPhyModelCard.toDict, ReadableItems, free, optional, texts, Readable, ReadableList]
    exact classes

/-- Cards without regimes have other hashes when they have other versions. -/
theorem version_of_sha {py : Interpreter} {sha256Hex : Bytes → String}
    (free : Function.Injective sha256Hex) {c d : AIPhyModelCard}
    (hc : c.applicablePaRegimes = []) (hd : d.applicablePaRegimes = [])
    (same : c.cardSha256 py sha256Hex = d.cardSha256 py sha256Hex) : c.version = d.version := by
  obtain ⟨sha, hashed⟩ := cardSha256_ok py sha256Hex c
  have hashed' := same.symm.trans hashed
  unfold AIPhyModelCard.cardSha256 at hashed hashed'
  obtain ⟨text, dumped, hashed⟩ := bind_eq_ok hashed
  obtain ⟨text', dumped', hashed'⟩ := bind_eq_ok hashed'
  have texts := utf8_injective (free (Except.ok.inj (hashed.trans hashed'.symm)))
  have sorted := dumps_injective py compact_plain (hashed_readable hc) (hashed_readable hd)
    (by rw [dumped, dumped', texts])
  rw [sortKeys_dict, sortKeys_dict, Value.dict.injEq] at sorted
  have versions := congrArg (Dict.get? "version") sorted
  rw [get?_sortItems (@hashed_readable py c hc).1, get?_sortItems (@hashed_readable py d hd).1]
    at versions
  simpa [AIPhyModelCard.toDict, sortKeys] using versions

def rootCard : AIPhyModelCard where
  name := "rx"
  version := "1"
  sha256 := ""
  inferenceType := "real-time"
  expectedRunTimeContext := ""
  lastTrainingDatasetUri := ""
  lastTrainingDatasetSha256 := ""
  evaluationReportUri := ""
  evaluationReportSha256 := ""
  blockReplaced := .equalization
  applicablePaRegimes := []
  applicableMobilityClasses := [.low]
  issuedAt := ""

def nextCard : AIPhyModelCard :=
  { rootCard with
    version := "2"
    previousVersionSha := (rootCard.cardSha256 Evidence.sampleInterpreter hexText).toOption }

theorem sampleCards_apart : rootCard.cardSha256 Evidence.sampleInterpreter hexText ≠
    nextCard.cardSha256 Evidence.sampleInterpreter hexText := by
  intro same
  exact absurd (version_of_sha hexText_injective rfl rfl same) (by decide)

theorem nextCard_refers {card : AIPhyModelCard}
    (refers : Refers Evidence.sampleInterpreter hexText nextCard card) :
    card.cardSha256 Evidence.sampleInterpreter hexText =
      rootCard.cardSha256 Evidence.sampleInterpreter hexText := by
  obtain ⟨rootSha, rootHashed⟩ := cardSha256_ok Evidence.sampleInterpreter hexText rootCard
  obtain ⟨sha, named, hashed⟩ := refers
  have names : nextCard.previousVersionSha = some rootSha := by
    unfold nextCard
    rw [rootHashed]
    rfl
  rw [names] at named
  cases named
  exact hashed.trans rootHashed.symm

theorem sampleCards_injective : ∀ c ∈ [nextCard, rootCard] ++ [nextCard],
    ∀ d ∈ [nextCard, rootCard] ++ [nextCard],
      c.cardSha256 Evidence.sampleInterpreter hexText =
        d.cardSha256 Evidence.sampleInterpreter hexText → c.toCardContent = d.toCardContent := by
  have either : ∀ c ∈ [nextCard, rootCard] ++ [nextCard], c = nextCard ∨ c = rootCard := by
    intro c member
    simp only [List.cons_append, List.nil_append, List.mem_cons, List.not_mem_nil, or_false]
      at member
    tauto
  intro c member d member' same
  rcases either c member with rfl | rfl <;> rcases either d member' with rfl | rfl
  · rfl
  · exact absurd same.symm sampleCards_apart
  · exact absurd same sampleCards_apart
  · rfl

/-- The root names no card, so a cycle would go through the newer card only. -/
theorem sampleCards_acyclic (c : AIPhyModelCard) :
    ¬ Relation.TransGen (fun c d => d ∈ [nextCard, rootCard] ∧
      Refers Evidence.sampleInterpreter hexText c d) c c := by
  have ends : ∀ d, ¬ Refers Evidence.sampleInterpreter hexText rootCard d := by
    rintro d ⟨sha, named, _⟩
    cases named
  intro cycle
  have member : c ∈ [nextCard, rootCard] := by
    cases cycle with
    | single step => exact step.1
    | tail _ step => exact step.1
  obtain ⟨b, ⟨among, refers⟩, back⟩ := Relation.TransGen.head'_iff.mp cycle
  simp only [List.mem_cons, List.not_mem_nil, or_false] at member among
  rcases member with rfl | rfl
  · rcases among with rfl | rfl
    · exact sampleCards_apart (nextCard_refers refers).symm
    · rcases back.cases_head with same | ⟨d, ⟨_, further⟩, _⟩
      · have versions : rootCard.version = nextCard.version :=
          congrArg (fun card => card.version) same
        exact absurd versions (by decide)
      · exact ends d further
  · exact ends b refers

/-- Registered newest first, and in a registry where the root is missing; the text stands for
    its hash. -/
theorem nextCard_replay : ∃ registry registry' h chain,
    emitAll Evidence.sampleInterpreter hexText [nextCard, rootCard] = .ok registry ∧
      emitAll Evidence.sampleInterpreter hexText [nextCard] = .ok registry' ∧
      nextCard.cardSha256 Evidence.sampleInterpreter hexText = .ok h ∧
      replayLineageChain 3 registry h = .ok (some chain) ∧ chain.getLast? = some nextCard ∧
      chain.IsChain fun older newer => Refers Evidence.sampleInterpreter hexText newer older := by
  obtain ⟨rootSha, rootHashed⟩ := cardSha256_ok Evidence.sampleInterpreter hexText rootCard
  obtain ⟨nextSha, nextHashed⟩ := cardSha256_ok Evidence.sampleInterpreter hexText nextCard
  have apart : rootSha ≠ nextSha := by
    rintro rfl
    exact sampleCards_apart (rootHashed.trans nextHashed.symm)
  obtain ⟨registry, registry', emitted, emitted', replays⟩ := replay_content_addressed
    Evidence.sampleInterpreter hexText [nextCard, rootCard] [nextCard] sampleCards_injective
    sampleCards_acyclic
  have built : emitAll Evidence.sampleInterpreter hexText [nextCard, rootCard] =
      .ok (Dict.set rootSha rootCard (Dict.set nextSha nextCard [])) := by
    simp only [emitAll, emitAiPhyCard, List.foldlM_cons, List.foldlM_nil, rootHashed, nextHashed,
      ok_bind]
    rfl
  have same : registry = Dict.set rootSha rootCard (Dict.set nextSha nextCard []) :=
    Except.ok.inj (emitted.symm.trans built)
  have lookup : Dict.get? nextSha registry = some nextCard := by
    rw [same, Dict.get?_set_ne _ _ apart, Dict.get?_set_self]
  have few : registry.length < 3 := by
    rw [same]
    simp [Dict.set, Ne.symm apart]
  obtain ⟨chain, replayed, newest, _, linked, _⟩ := replays nextSha nextCard lookup
  exact ⟨registry, registry', nextSha, chain, emitted, emitted', nextHashed, replayed 3 few, newest,
    linked⟩

end HorizonRic.AiPhyLineage
