import HorizonRic.Python.Value
import HorizonRic.Library.OneShotLoading

/-!
`policy/guard_registry.py`: guards registered in the process and guards loaded
from entry points at the first lookup. The flag that stops a second loading is
set before the first one has succeeded.
-/
namespace HorizonRic.Plugins

open Py OneShotLoading

/-- An entry point: its name, and the object or the exception that loading it gives. -/
structure EntryPoint (Obj : Type) where
  name : String
  load : Except PyErr Obj

/-- `table[name] = obj`, refused where the name stands for another object. -/
def registerIn {Obj : Type} [DecidableEq Obj] (table : Dict Obj) (name : String) (obj : Obj) :
    Except PyErr (Dict Obj) :=
  match Dict.get? name table with
  | some other => if other ≠ obj then .error .valueError else .ok (Dict.set name obj table)
  | none => .ok (Dict.set name obj table)

theorem registerIn_ok {Obj : Type} [DecidableEq Obj] {table table' : Dict Obj} {name : String}
    {obj : Obj} (registered : registerIn table name obj = .ok table') :
    table' = Dict.set name obj table ∧ ¬Clashes (fun name => Dict.get? name table) (name, obj) := by
  unfold registerIn at registered
  rw [not_clashes_iff]
  cases held : Dict.get? name table with
  | none =>
    rw [held] at registered
    cases registered
    exact ⟨rfl, Or.inl rfl⟩
  | some other =>
    rw [held] at registered
    by_cases same : other = obj
    · simp only [same, ne_eq, not_true_eq_false, if_false] at registered
      cases registered
      exact ⟨rfl, Or.inr (congrArg some same)⟩
    · simp [same] at registered

theorem registerIn_error {Obj : Type} [DecidableEq Obj] {table : Dict Obj} {name : String}
    {obj : Obj} {error : PyErr} (refused : registerIn table name obj = .error error) :
    Clashes (fun name => Dict.get? name table) (name, obj) := by
  unfold registerIn at refused
  cases held : Dict.get? name table with
  | none => simp [held] at refused
  | some other =>
    rw [held] at refused
    by_cases same : other = obj
    · simp [same] at refused
    · exact ⟨other, held, same⟩

/-- Registered guards in the order of their names' first registration; guards are compared by
    identity. -/
structure GuardRegistry (Guard : Type) where
  entries : Dict Guard := []
  loadedEntryPoints : Bool := false

namespace GuardRegistry

variable {Guard : Type} [DecidableEq Guard] (callable : Guard → Bool)

def register (r : GuardRegistry Guard) (name : String) (fn : Guard) :
    Except PyErr (GuardRegistry Guard) :=
  if !callable fn then .error .typeError
  else match registerIn r.entries name fn with
    | .error e => .error e
    | .ok entries => .ok { r with entries := entries }

/-- The loop over the entry points: one that does not load is passed over, as is one that loads
    something else than a guard, and an exception of `register` leaves the loop. -/
def loadFrom (r : GuardRegistry Guard) :
    List (EntryPoint Guard) → GuardRegistry Guard × Except PyErr Unit
  | [] => (r, .ok ())
  | ep :: eps =>
    match ep.load with
    | .error _ => loadFrom r eps
    | .ok fn =>
      if callable fn then
        match r.register callable ep.name fn with
        | .error e => (r, .error e)
        | .ok r => loadFrom r eps
      else loadFrom r eps

/-- `_maybe_load_entry_points`; the entry points that are found, or the exception of the search. -/
def maybeLoadEntryPoints (found : Except PyErr (List (EntryPoint Guard)))
    (r : GuardRegistry Guard) : GuardRegistry Guard × Except PyErr Unit :=
  if r.loadedEntryPoints then (r, .ok ())
  else
    let r := { r with loadedEntryPoints := true }
    match found with
    | .error _ => (r, .ok ())
    | .ok eps => r.loadFrom callable eps

end GuardRegistry

inductive GuardLookup where
  | get (name : String)
  | getGuards
  | listGuards

inductive GuardAnswer (Guard : Type) where
  | fn (guard : Guard)
  | guards (entries : Dict Guard)
  | names (names : List String)

namespace GuardRegistry

variable {Guard : Type} [DecidableEq Guard] (callable : Guard → Bool)

/-- What `get`, `get_guards` and `list_guards` read after the loading. -/
def read (r : GuardRegistry Guard) : GuardLookup → Except PyErr (GuardAnswer Guard)
  | .get name =>
    match Dict.get? name r.entries with
    | none => .error .keyError
    | some fn => .ok (.fn fn)
  | .getGuards => .ok (.guards r.entries)
  | .listGuards => .ok (.names (r.entries.map Prod.fst))

/-- The registrations of the process; one that raises registers nothing. -/
def registerAll (r : GuardRegistry Guard) (registrations : List (String × Guard)) :
    GuardRegistry Guard :=
  registrations.foldl (fun r x => (r.register callable x.1 x.2).toOption.getD r) r

def after (registrations : List (String × Guard))
    (found : Except PyErr (List (EntryPoint Guard))) (lookups : List GuardLookup) :
    GuardRegistry Guard :=
  afterLookups (maybeLoadEntryPoints callable found) read
    (registerAll callable {} registrations) lookups

/-! The loop of the loading, as a loader of a table. -/

def table (r : GuardRegistry Guard) (name : String) : Option Guard := Dict.get? name r.entries

/-- What an entry point asks to register. -/
def wanted (ep : EntryPoint Guard) : Option (String × Guard) :=
  match ep.load with
  | .error _ => none
  | .ok fn => if callable fn then some (ep.name, fn) else none

theorem get?_set_eq {Obj : Type} (entries : Dict Obj) (name : String) (obj : Obj) :
    (fun other => Dict.get? other (Dict.set name obj entries)) =
      put (fun other => Dict.get? other entries) (name, obj) := by
  funext other
  by_cases same : other = name
  · subst same
    rw [put_self]
    exact Dict.get?_set_self entries other obj
  · rw [put_other _ (name, obj) same]
    exact Dict.get?_set_ne entries obj (Ne.symm same)

theorem register_ok {r r' : GuardRegistry Guard} {name : String} {fn : Guard}
    (registered : r.register callable name fn = .ok r') :
    r'.table = put r.table (name, fn) ∧ ¬Clashes r.table (name, fn) ∧
      r'.loadedEntryPoints = r.loadedEntryPoints := by
  unfold register at registered
  split at registered
  · cases registered
  · split at registered
    · cases registered
    · rename_i entries given
      cases registered
      obtain ⟨rfl, free⟩ := registerIn_ok given
      exact ⟨get?_set_eq r.entries name fn, free, rfl⟩

theorem register_error {r : GuardRegistry Guard} {name : String} {fn : Guard} {e : PyErr}
    (valid : callable fn = true) (refused : r.register callable name fn = .error e) :
    Clashes r.table (name, fn) := by
  unfold register at refused
  rw [valid] at refused
  simp only [Bool.not_true, Bool.false_eq_true, if_false] at refused
  split at refused
  · rename_i given
    exact registerIn_error given
  · cases refused

theorem loadFrom_table (eps : List (EntryPoint Guard)) (r : GuardRegistry Guard) :
    (r.loadFrom callable eps).1.table = load r.table (eps.filterMap (wanted callable)) ∧
      (r.loadFrom callable eps).1.loadedEntryPoints = r.loadedEntryPoints := by
  induction eps generalizing r with
  | nil => exact ⟨rfl, rfl⟩
  | cons ep eps ih =>
    unfold loadFrom
    cases loaded : ep.load with
    | error e =>
      rw [List.filterMap_cons_none (by simp [wanted, loaded])]
      exact ih r
    | ok fn =>
      by_cases valid : callable fn = true
      · rw [List.filterMap_cons_some (b := (ep.name, fn)) (by simp [wanted, loaded, valid])]
        simp only [valid, if_true]
        unfold load
        cases given : r.register callable ep.name fn with
        | error e => exact ⟨by rw [if_pos (register_error callable valid given)], rfl⟩
        | ok r' =>
          obtain ⟨table, free, flag⟩ := register_ok callable given
          obtain ⟨later, kept⟩ := ih r'
          rw [if_neg free, ← table]
          exact ⟨later, kept.trans flag⟩
      · rw [List.filterMap_cons_none (by simp [wanted, loaded, valid])]
        simp only [valid]
        exact ih r

/-! One loading. -/

theorem maybeLoad_loaded (found : Except PyErr (List (EntryPoint Guard)))
    (r : GuardRegistry Guard) :
    (r.maybeLoadEntryPoints callable found).1.loadedEntryPoints = true := by
  unfold maybeLoadEntryPoints
  split
  · assumption
  · split
    · rfl
    · exact (loadFrom_table callable _ _).2

theorem maybeLoad_once (found : Except PyErr (List (EntryPoint Guard))) (r : GuardRegistry Guard) :
    ((r.maybeLoadEntryPoints callable found).1.maybeLoadEntryPoints callable found).1 =
      (r.maybeLoadEntryPoints callable found).1 := by
  apply once_of_flag (maybeLoadEntryPoints callable found) loadedEntryPoints
    (maybeLoad_loaded callable found)
  intro r loaded
  unfold maybeLoadEntryPoints
  rw [if_pos loaded]

theorem registerAll_loaded (registrations : List (String × Guard)) (r : GuardRegistry Guard) :
    (r.registerAll callable registrations).loadedEntryPoints = r.loadedEntryPoints := by
  unfold registerAll
  induction registrations generalizing r with
  | nil => rfl
  | cons x registrations ih =>
    rw [List.foldl_cons, ih]
    cases given : r.register callable x.1 x.2 with
    | error e => rfl
    | ok r' => exact (register_ok callable given).2.2

/-- After a lookup the table is the one the loader leaves, whatever the lookups raise. -/
theorem after_table (registrations : List (String × Guard)) (eps : List (EntryPoint Guard))
    (lookup : GuardLookup) (lookups : List GuardLookup) :
    (after callable registrations (.ok eps) (lookup :: lookups)).table =
      load (registerAll callable {} registrations).table (eps.filterMap (wanted callable)) := by
  unfold after
  rw [afterLookups_cons _ _ (maybeLoad_once callable (.ok eps))]
  have unloaded := registerAll_loaded callable registrations ({} : GuardRegistry Guard)
  unfold maybeLoadEntryPoints
  rw [if_neg (by rw [unloaded]; exact Bool.false_ne_true)]
  exact (loadFrom_table callable eps _).1

/-- After the lookups, every entry point that loads to a guard and does not clash is in what
    `get_guards` returns. -/
def KeepsEntryPoints (registrations : List (String × Guard)) (eps : List (EntryPoint Guard))
    (lookups : List GuardLookup) : Prop :=
  ∀ item ∈ admitted (registerAll callable {} registrations).table
      (eps.filterMap (wanted callable)),
    ∃ guards, (after callable registrations (.ok eps) lookups).read .getGuards =
      .ok (.guards guards) ∧ Dict.get? item.1 guards = some item.2

theorem keepsEntryPoints_iff (registrations : List (String × Guard))
    (eps : List (EntryPoint Guard)) (lookup : GuardLookup) (lookups : List GuardLookup) :
    KeepsEntryPoints callable registrations eps (lookup :: lookups) ↔
      Lossless (registerAll callable {} registrations).table
        (eps.filterMap (wanted callable)) := by
  rw [← load_admitted_iff, ← after_table callable registrations eps lookup lookups]
  refine forall₂_congr fun item _ => ?_
  constructor
  · rintro ⟨guards, returned, held⟩
    cases returned
    exact held
  · intro held
    exact ⟨_, rfl, held⟩

end GuardRegistry

end HorizonRic.Plugins
