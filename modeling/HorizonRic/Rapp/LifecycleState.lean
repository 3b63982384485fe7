import HorizonRic.Rapp.StateCheckpoint
import HorizonRic.Python.JsonCanonical

/-!
The lifecycle's part of `runtime/state_recovery.py`: the snapshot of
`HorizonRAppLifecycle`, its JSON text, and what a restart restores from it.
-/
namespace HorizonRic.Rapp

open Py Json

/-- What a snapshot takes from elsewhere: the state's value and the fields of the
    degradation snapshot, as JSON can hold them. -/
structure RuntimeFields (py : Interpreter) where
  rappState : String
  degradation : Dict Value
  readable : Readable py (.dict degradation)

/-- The three restored fields, and the adapter's counter of this process. -/
structure EmitCounters where
  a1EmittedCount : Int
  lastDecisionId : Value
  evidenceChainHead : Value
  policiesEmitted : ℕ

namespace EmitCounters

/-- `self._a1_emitted_count or self._a1.policies_emitted_count()`. -/
def writtenCount (c : EmitCounters) : Int :=
  if c.a1EmittedCount ≠ 0 then c.a1EmittedCount else c.policiesEmitted

def stateSnapshot {py : Interpreter} (c : EmitCounters) (fields : RuntimeFields py) :
    Dict Value :=
  [("rapp_state", .str fields.rappState), ("a1_emitted_count", .int c.writtenCount),
    ("last_decision_id", c.lastDecisionId), ("evidence_chain_head", c.evidenceChainHead),
    ("degradation", .dict fields.degradation)]

end EmitCounters

section
variable (py : Interpreter)

/-- The text that `save_state` writes. -/
def saveState (state : Dict Value) : Except PyErr String := dumps py compact (.dict state)

/-- `load_state`: None for a file that is missing, unreadable, blank or corrupt. -/
def loadState : StateFile → Except PyErr (Option (Dict Value))
  | .missing => .ok none
  | .unreadable => .ok none
  | .text raw =>
    if strip raw.toList = [] then .ok none
    else match loads py raw.toList with
      | .ok (.dict d) => .ok (some d)
      | .ok _ => .ok none
      | .error .jsonDecodeError => .ok none
      | .error e => .error e

/-- `__init__` with `_restore_from_disk`. -/
def restoreFromDisk (file : StateFile) : Except PyErr EmitCounters := do
  let prior ← loadState py file
  match prior with
  | none => .ok ⟨0, .null, .null, 0⟩
  | some d => do
    let a1EmittedCount ← (Dict.getD d "a1_emitted_count" (.int 0)).toInt py
    .ok ⟨a1EmittedCount, Dict.getD d "last_decision_id" .null,
      Dict.getD d "evidence_chain_head" .null, 0⟩

/-- A decision id and a chain head are never set, so they stay None. -/
def EmitCounters.Unset (c : EmitCounters) : Prop :=
  c.lastDecisionId = .null ∧ c.evidenceChainHead = .null

variable {py}

theorem stateSnapshot_nodup (c : EmitCounters) (fields : RuntimeFields py) :
    ((c.stateSnapshot fields).map Prod.fst).Nodup := by
  simp [EmitCounters.stateSnapshot]

theorem stateSnapshot_readable {c : EmitCounters} (unset : c.Unset) (fields : RuntimeFields py)
    (short : intDigitsOk c.writtenCount = true) :
    Readable py (.dict (c.stateSnapshot fields)) := by
  rw [readable_dict]
  refine ⟨stateSnapshot_nodup c fields, fun item member => ?_⟩
  simp only [EmitCounters.stateSnapshot, List.mem_cons, List.not_mem_nil, or_false] at member
  rcases member with rfl | rfl | rfl | rfl | rfl
  · trivial
  · exact short
  · rw [unset.1]
    trivial
  · rw [unset.2]
    trivial
  · exact fields.readable

/-- A restart finds the count that the last checkpoint wrote. -/
theorem restore_saved {c : EmitCounters} (unset : c.Unset) (fields : RuntimeFields py)
    {text : String} (saved : saveState py (c.stateSnapshot fields) = .ok text) :
    restoreFromDisk py (.text text) = .ok ⟨c.writtenCount, .null, .null, 0⟩ := by
  have digits : (Value.dict (c.stateSnapshot fields)).digitsOk = true := by
    by_contra long
    rw [saveState, dumps, if_neg long] at saved
    cases saved
  have short : intDigitsOk c.writtenCount = true := by
    rw [Value.digitsOk, digitsOkItems_iff] at digits
    exact digits ("a1_emitted_count", .int c.writtenCount)
      (List.mem_cons_of_mem _ List.mem_cons_self)
  have readable := stateSnapshot_readable unset fields short
  have back := loads_dumps py compact_plain readable saved
  rw [sortKeys_dict] at back
  have solid : strip text.toList ≠ [] := by
    rw [saveState, dumps, if_pos digits, sortKeys_dict] at saved
    have unspaced : strip ([] ++ (print py compact (.dict (sortItems (c.stateSnapshot fields))) ++
        [])) = print py compact (.dict (sortItems (c.stateSnapshot fields))) :=
      strip_print_dict py compact _ (by simp) (by simp)
    rw [List.nil_append, List.append_nil] at unspaced
    rw [← Except.ok.inj saved, String.toList_ofList, unspaced]
    exact List.cons_ne_nil _ _
  have get := get?_sortItems (stateSnapshot_nodup c fields)
  have loaded : loadState py (.text text) =
      .ok (some (sortItems (c.stateSnapshot fields))) := by
    rw [loadState, if_neg solid, back]
  rw [restoreFromDisk, loaded, ok_bind]
  simp only [Dict.getD, get]
  simp [EmitCounters.stateSnapshot, unset.1, unset.2, sortKeys, Value.toInt, ok_bind]

end
end HorizonRic.Rapp
