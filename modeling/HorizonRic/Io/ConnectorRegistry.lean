import HorizonRic.Policy.GuardRegistry

/-!
`io/registry.py`: sources and sinks by name. Its entry points are loaded as those
of the guards are, into two tables.
-/
namespace HorizonRic.Plugins

open Py OneShotLoading

inductive ConnectorKind where
  | source
  | sink
  deriving DecidableEq

def connectorConfigError : PyErr := .other "ConnectorConfigError"

/-- What the registry asks of the classes it holds. -/
structure ConnectorClasses where
  Cls : Type
  Cfg : Type
  Connector : Type
  isSource : Cls → Bool
  isSink : Cls → Bool
  /-- `isinstance(config, config_cls)`. -/
  isConfigOf : Cls → Cfg → Bool
  /-- `config_cls.model_validate`. -/
  modelValidate : Cls → Dict Value → Except PyErr Cfg
  construct : Cls → Cfg → Except PyErr Connector
  decEq : DecidableEq Cls

instance (c : ConnectorClasses) : DecidableEq c.Cls := c.decEq

inductive ConfigArg (Cfg : Type) where
  | model (config : Cfg)
  | dict (config : Dict Value)

structure ConnectorRegistry (Cls : Type) where
  sources : Dict Cls := []
  sinks : Dict Cls := []
  loadedEntryPoints : Bool := false

inductive ConnectorLookup (Cfg : Type) where
  | getSource (name : String) (config : ConfigArg Cfg)
  | getSink (name : String) (config : ConfigArg Cfg)
  | listConnectors

inductive ConnectorAnswer (Connector : Type) where
  | connector (c : Connector)
  | names (sources sinks : List String)

namespace ConnectorRegistry

variable (c : ConnectorClasses)

def registerSource (r : ConnectorRegistry c.Cls) (name : String) (cls : c.Cls) :
    Except PyErr (ConnectorRegistry c.Cls) :=
  if !c.isSource cls then .error .typeError
  else match registerIn r.sources name cls with
    | .error e => .error e
    | .ok sources => .ok { r with sources := sources }

def registerSink (r : ConnectorRegistry c.Cls) (name : String) (cls : c.Cls) :
    Except PyErr (ConnectorRegistry c.Cls) :=
  if !c.isSink cls then .error .typeError
  else match registerIn r.sinks name cls with
    | .error e => .error e
    | .ok sinks => .ok { r with sinks := sinks }

def register (r : ConnectorRegistry c.Cls) : ConnectorKind → String → c.Cls →
    Except PyErr (ConnectorRegistry c.Cls)
  | .source => r.registerSource c
  | .sink => r.registerSink c

/-- A class that is a source and a sink is loaded as a source. -/
def kindOf (cls : c.Cls) : Option ConnectorKind :=
  if c.isSource cls then some .source
  else if c.isSink cls then some .sink
  else none

def loadFrom (r : ConnectorRegistry c.Cls) :
    List (EntryPoint c.Cls) → ConnectorRegistry c.Cls × Except PyErr Unit
  | [] => (r, .ok ())
  | ep :: eps =>
    match ep.load with
    | .error _ => loadFrom r eps
    | .ok cls =>
      match kindOf c cls with
      | none => loadFrom r eps
      | some kind =>
        match r.register c kind ep.name cls with
        | .error e => (r, .error e)
        | .ok r => loadFrom r eps

def maybeLoadEntryPoints (found : Except PyErr (List (EntryPoint c.Cls)))
    (r : ConnectorRegistry c.Cls) : ConnectorRegistry c.Cls × Except PyErr Unit :=
  if r.loadedEntryPoints then (r, .ok ())
  else
    let r := { r with loadedEntryPoints := true }
    match found with
    | .error _ => (r, .ok ())
    | .ok eps => r.loadFrom c eps

def coerceConfig (cls : c.Cls) : ConfigArg c.Cfg → Except PyErr c.Cfg
  | .model config => if c.isConfigOf cls config then .ok config else .error connectorConfigError
  | .dict config =>
    match c.modelValidate cls config with
    | .error _ => .error connectorConfigError
    | .ok config => .ok config

/-- `get_source` and `get_sink`, from the table of their kind. -/
def instantiate (table : Dict c.Cls) (name : String) (config : ConfigArg c.Cfg) :
    Except PyErr (ConnectorAnswer c.Connector) :=
  match Dict.get? name table with
  | none => .error connectorConfigError
  | some cls => do
    let cfg ← coerceConfig c cls config
    let connector ← c.construct cls cfg
    .ok (.connector connector)

def read (r : ConnectorRegistry c.Cls) :
    ConnectorLookup c.Cfg → Except PyErr (ConnectorAnswer c.Connector)
  | .getSource name config => instantiate c r.sources name config
  | .getSink name config => instantiate c r.sinks name config
  | .listConnectors =>
    .ok (.names ((r.sources.map Prod.fst).mergeSort (· ≤ ·))
      ((r.sinks.map Prod.fst).mergeSort (· ≤ ·)))

/-- The registrations of the process; one that raises registers nothing. -/
def registerAll (r : ConnectorRegistry c.Cls)
    (registrations : List (ConnectorKind × String × c.Cls)) : ConnectorRegistry c.Cls :=
  registrations.foldl (fun r x => (r.register c x.1 x.2.1 x.2.2).toOption.getD r) r

def after (registrations : List (ConnectorKind × String × c.Cls))
    (found : Except PyErr (List (EntryPoint c.Cls))) (lookups : List (ConnectorLookup c.Cfg)) :
    ConnectorRegistry c.Cls :=
  afterLookups (maybeLoadEntryPoints c found) (read c) (registerAll c {} registrations) lookups

/-! The loop of the loading, as a loader of one table for both kinds. -/

def namesOf (r : ConnectorRegistry c.Cls) : ConnectorKind → Dict c.Cls
  | .source => r.sources
  | .sink => r.sinks

def table (r : ConnectorRegistry c.Cls) (key : ConnectorKind × String) : Option c.Cls :=
  Dict.get? key.2 (r.namesOf c key.1)

/-- What an entry point asks to register. -/
def wanted (ep : EntryPoint c.Cls) : Option ((ConnectorKind × String) × c.Cls) :=
  match ep.load with
  | .error _ => none
  | .ok cls => (kindOf c cls).map fun kind => ((kind, ep.name), cls)

theorem table_put {r r' : ConnectorRegistry c.Cls} {kind : ConnectorKind} {name : String}
    {cls : c.Cls} (here : r'.namesOf c kind = Dict.set name cls (r.namesOf c kind))
    (there : ∀ other, other ≠ kind → r'.namesOf c other = r.namesOf c other) :
    r'.table c = put (r.table c) ((kind, name), cls) := by
  funext key
  by_cases same : key = (kind, name)
  · subst same
    unfold table
    rw [put_self, here]
    exact Dict.get?_set_self _ name cls
  · rw [put_other _ ((kind, name), cls) same]
    unfold table
    by_cases sameKind : key.1 = kind
    · have otherName : name ≠ key.2 := fun eq => same (Prod.ext sameKind eq.symm)
      rw [sameKind, here]
      exact Dict.get?_set_ne _ cls otherName
    · rw [there key.1 sameKind]

theorem register_ok {r r' : ConnectorRegistry c.Cls} {kind : ConnectorKind} {name : String}
    {cls : c.Cls} (registered : r.register c kind name cls = .ok r') :
    r'.table c = put (r.table c) ((kind, name), cls) ∧
      ¬Clashes (r.table c) ((kind, name), cls) ∧ r'.loadedEntryPoints = r.loadedEntryPoints := by
  cases kind with
  | source =>
    change r.registerSource c name cls = .ok r' at registered
    unfold registerSource at registered
    split at registered
    · cases registered
    · split at registered
      · cases registered
      · rename_i given
        cases registered
        obtain ⟨rfl, free⟩ := registerIn_ok given
        refine ⟨table_put c rfl fun other ne => ?_, free, rfl⟩
        cases other <;> trivial
  | sink =>
    change r.registerSink c name cls = .ok r' at registered
    unfold registerSink at registered
    split at registered
    · cases registered
    · split at registered
      · cases registered
      · rename_i given
        cases registered
        obtain ⟨rfl, free⟩ := registerIn_ok given
        refine ⟨table_put c rfl fun other ne => ?_, free, rfl⟩
        cases other <;> trivial

theorem register_error {r : ConnectorRegistry c.Cls} {kind : ConnectorKind} {name : String}
    {cls : c.Cls} {e : PyErr} (valid : kindOf c cls = some kind)
    (refused : r.register c kind name cls = .error e) :
    Clashes (r.table c) ((kind, name), cls) := by
  unfold kindOf at valid
  by_cases source : c.isSource cls = true
  · simp only [source, if_true, Option.some.injEq] at valid
    subst valid
    unfold register registerSource at refused
    simp only [source, Bool.not_true, Bool.false_eq_true, if_false] at refused
    split at refused
    · rename_i given
      exact registerIn_error given
    · cases refused
  · simp only [source] at valid
    by_cases sink : c.isSink cls = true
    · simp only [sink, if_true, Bool.false_eq_true, if_false, Option.some.injEq] at valid
      subst valid
      unfold register registerSink at refused
      simp only [sink, Bool.not_true, Bool.false_eq_true, if_false] at refused
      split at refused
      · rename_i given
        exact registerIn_error given
      · cases refused
    · simp [sink] at valid

theorem loadFrom_table (eps : List (EntryPoint c.Cls)) (r : ConnectorRegistry c.Cls) :
    (r.loadFrom c eps).1.table c = load (r.table c) (eps.filterMap (wanted c)) ∧
      (r.loadFrom c eps).1.loadedEntryPoints = r.loadedEntryPoints := by
  induction eps generalizing r with
  | nil => exact ⟨rfl, rfl⟩
  | cons ep eps ih =>
    unfold loadFrom
    cases loaded : ep.load with
    | error e =>
      rw [List.filterMap_cons_none (by simp [wanted, loaded])]
      exact ih r
    | ok cls =>
      cases kind : kindOf c cls with
      | none =>
        rw [List.filterMap_cons_none (by simp [wanted, loaded, kind])]
        simpa only [kind] using ih r
      | some k =>
        rw [List.filterMap_cons_some (b := ((k, ep.name), cls)) (by simp [wanted, loaded, kind])]
        simp only [kind]
        unfold load
        cases given : r.register c k ep.name cls with
        | error e => exact ⟨by rw [if_pos (register_error c kind given)], rfl⟩
        | ok r' =>
          obtain ⟨table, free, flag⟩ := register_ok c given
          obtain ⟨later, kept⟩ := ih r'
          rw [if_neg free, ← table]
          exact ⟨later, kept.trans flag⟩

/-! One loading. -/

theorem maybeLoad_loaded (found : Except PyErr (List (EntryPoint c.Cls)))
    (r : ConnectorRegistry c.Cls) :
    (r.maybeLoadEntryPoints c found).1.loadedEntryPoints = true := by
  unfold maybeLoadEntryPoints
  split
  · assumption
  · split
    · rfl
    · exact (loadFrom_table c _ _).2

theorem maybeLoad_once (found : Except PyErr (List (EntryPoint c.Cls)))
    (r : ConnectorRegistry c.Cls) :
    ((r.maybeLoadEntryPoints c found).1.maybeLoadEntryPoints c found).1 =
      (r.maybeLoadEntryPoints c found).1 := by
  apply once_of_flag (maybeLoadEntryPoints c found) loadedEntryPoints (maybeLoad_loaded c found)
  intro r loaded
  unfold maybeLoadEntryPoints
  rw [if_pos loaded]

theorem registerAll_loaded (registrations : List (ConnectorKind × String × c.Cls))
    (r : ConnectorRegistry c.Cls) :
    (r.registerAll c registrations).loadedEntryPoints = r.loadedEntryPoints := by
  unfold registerAll
  induction registrations generalizing r with
  | nil => rfl
  | cons x registrations ih =>
    rw [List.foldl_cons, ih]
    cases given : r.register c x.1 x.2.1 x.2.2 with
    | error e => rfl
    | ok r' => exact (register_ok c given).2.2

theorem after_table (registrations : List (ConnectorKind × String × c.Cls))
    (eps : List (EntryPoint c.Cls)) (lookup : ConnectorLookup c.Cfg)
    (lookups : List (ConnectorLookup c.Cfg)) :
    (after c registrations (.ok eps) (lookup :: lookups)).table c =
      load ((registerAll c {} registrations).table c) (eps.filterMap (wanted c)) := by
  unfold after
  rw [afterLookups_cons _ _ (maybeLoad_once c (.ok eps))]
  have unloaded := registerAll_loaded c registrations {}
  unfold maybeLoadEntryPoints
  rw [if_neg (by rw [unloaded]; exact Bool.false_ne_true)]
  exact (loadFrom_table c eps _).1

/-- After the lookups, every entry point that loads to a source or a sink and does not clash is
    registered under its kind. -/
def KeepsEntryPoints (registrations : List (ConnectorKind × String × c.Cls))
    (eps : List (EntryPoint c.Cls)) (lookups : List (ConnectorLookup c.Cfg)) : Prop :=
  ∀ item ∈ admitted ((registerAll c {} registrations).table c) (eps.filterMap (wanted c)),
    (after c registrations (.ok eps) lookups).table c item.1 = some item.2

theorem keepsEntryPoints_iff (registrations : List (ConnectorKind × String × c.Cls))
    (eps : List (EntryPoint c.Cls)) (lookup : ConnectorLookup c.Cfg)
    (lookups : List (ConnectorLookup c.Cfg)) :
    KeepsEntryPoints c registrations eps (lookup :: lookups) ↔
      Lossless ((registerAll c {} registrations).table c) (eps.filterMap (wanted c)) := by
  rw [← load_admitted_iff, ← after_table c registrations eps lookup lookups]
  exact Iff.rfl

end ConnectorRegistry

def operatorGuards : List (EntryPoint ℕ) :=
  [⟨"head_pretrained", .ok 1⟩, ⟨"wg11_attestation", .ok 2⟩]

end HorizonRic.Plugins
