import HorizonRic.Io.Schemas

/-!
`StateCheckpoint` of `rapp/daemon.py`: `save` writes the four fields as JSON with
sorted keys, `load` reads them back, and a state file that is missing, unreadable
or corrupt gives a fresh checkpoint.
-/
namespace HorizonRic.Rapp

open Py Json

structure StateCheckpoint where
  lastEventId : Value := .null
  eventsProcessed : Int := 0
  decisionsEmitted : Int := 0
  lastCheckpointUtc : Value := .str ""

/-- The file at `state_path`. -/
inductive StateFile where
  | missing
  | unreadable
  | text (content : String)

namespace StateCheckpoint

/-- `self.__dict__`. -/
def items (c : StateCheckpoint) : Dict Value :=
  [("last_event_id", c.lastEventId), ("events_processed", .int c.eventsProcessed),
    ("decisions_emitted", .int c.decisionsEmitted), ("last_checkpoint_utc", c.lastCheckpointUtc)]

section
variable (py : Interpreter)

/-- `save` at `utc`: the checkpoint with its new time, and the text of the file. -/
def save (utc : String) (c : StateCheckpoint) : Except PyErr (StateCheckpoint × String) := do
  let c := { c with lastCheckpointUtc := .str utc }
  let text ← dumps py spaced (.dict c.items)
  .ok (c, text)

/-- The body of the `try` in `load`. -/
def parse (content : String) : Except PyErr StateCheckpoint := do
  let obj ← loads py content.toList
  match obj with
  | .dict d => do
    let eventsProcessed ← (Dict.getD d "events_processed" (.int 0)).toInt py
    let decisionsEmitted ← (Dict.getD d "decisions_emitted" (.int 0)).toInt py
    .ok ⟨Dict.getD d "last_event_id" .null, eventsProcessed, decisionsEmitted,
      Dict.getD d "last_checkpoint_utc" (.str "")⟩
  | _ => .error .attributeError

/-- `ValueError` with its subclasses, and `KeyError`. -/
def isCorrupt : PyErr → Bool
  | .valueError => true
  | .jsonDecodeError => true
  | .validationError => true
  | .keyError => true
  | _ => false

def load : StateFile → Except PyErr StateCheckpoint
  | .missing => .ok {}
  | .unreadable => .ok {}
  | .text content =>
    match parse py content with
    | .ok c => .ok c
    | .error e => if isCorrupt e then .ok {} else .error e

/-- The checkpoint holds an id as the daemon sets it: none, or the text of an event's. -/
def Plain (c : StateCheckpoint) : Prop :=
  c.lastEventId = .null ∨ ∃ id, c.lastEventId = .str id

theorem items_nodup (c : StateCheckpoint) : (c.items.map Prod.fst).Nodup := by
  simp [items]

/-- What was written can be read, since `dumps` refuses an integer that is too long. -/
theorem items_readable {c : StateCheckpoint} (plain : c.Plain) {utc : String}
    (time : c.lastCheckpointUtc = .str utc) (short : (Value.dict c.items).digitsOk = true) :
    Readable py (.dict c.items) := by
  rw [Value.digitsOk, digitsOkItems_iff] at short
  rw [readable_dict]
  refine ⟨c.items_nodup, fun item member => ?_⟩
  have fits := short item member
  simp only [items, List.mem_cons, List.not_mem_nil, or_false] at member
  rcases member with rfl | rfl | rfl | rfl
  · rcases plain with none' | ⟨id, some'⟩
    · simp [none', Readable]
    · simp [some', Readable]
  · exact fits
  · exact fits
  · simp [time, Readable]

theorem load_save {c saved : StateCheckpoint} {utc text : String} (plain : c.Plain)
    (written : c.save py utc = .ok (saved, text)) : load py (.text text) = .ok saved := by
  obtain ⟨text', dumped, same⟩ := bind_eq_ok written
  cases same
  have short : (Value.dict (StateCheckpoint.items { c with lastCheckpointUtc := .str utc })).digitsOk
      = true := by
    by_contra long
    rw [dumps, if_neg long] at dumped
    cases dumped
  have readable := items_readable py (c := { c with lastCheckpointUtc := .str utc }) plain rfl short
  have back := loads_dumps py spaced_plain readable dumped
  rw [sortKeys_dict] at back
  have get := get?_sortItems (items_nodup { c with lastCheckpointUtc := .str utc })
  have parsed : parse py text = .ok { c with lastCheckpointUtc := .str utc } := by
    rw [parse, back, ok_bind]
    simp only [Dict.getD, get]
    rcases plain with none' | ⟨id, some'⟩
    · simp [items, none', sortKeys, Value.toInt, ok_bind]
    · simp [items, some', sortKeys, Value.toInt, ok_bind]
  rw [load, parsed]

end
end StateCheckpoint
end HorizonRic.Rapp
