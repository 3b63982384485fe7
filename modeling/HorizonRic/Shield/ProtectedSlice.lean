import HorizonRic.Shield.Loop

/-!
The protected slice floor: PRBs an AI planner cannot reallocate away from a
safety-critical slice. No default chain holds it. Its check reads any payload;
its projection expects `prb_allocation` to be a mapping once it is not empty.
-/
namespace HorizonRic
open Py

structure ProtectedSliceFloor where
  sliceId : String
  floor : Number

namespace ProtectedSliceFloor

def id : String := "protected_slice_floor"
def allocKey : String := "prb_allocation"

def allocation (action : Action) : Value := action.getD allocKey .null

section
variable (py : Interpreter)

/-- `{str(k): float(v) for k, v in entries}`. -/
def floatItems : List (String × Value) → Except PyErr (Dict Number)
  | [] => .ok []
  | (key, value) :: rest => do
    let x ← value.toFloat py
    let more ← floatItems rest
    .ok ((key, x) :: more)

/-- `alloc.items()`, with float shares; only a mapping has `items`. -/
def items : Value → Except PyErr (Dict Number)
  | .dict entries => floatItems py entries
  | _ => .error .attributeError

variable (slice : ProtectedSliceFloor)

/-- `float(alloc.get(self.slice_id, 0.0))`; only a mapping has `get`. -/
def rawShare : Value → Except PyErr Number
  | .dict entries => (Dict.getD entries slice.sliceId zero).toFloat py
  | _ => .error .attributeError

def share (action : Action) : Except PyErr Number :=
  let alloc := if (allocation action).truthy then allocation action else .dict []
  match slice.rawShare py alloc with
  | .error .typeError => .ok (.fin 0)
  | .error .attributeError => .ok (.fin 0)
  | result => result

def evaluate (action : Action) (_context : Context) : Except PyErr InvariantCheck :=
  if (allocation action).truthy then do
    let share ← slice.share py action
    let margin := share - slice.floor
    let sliceText := py.strRepr slice.sliceId
    let shareText := fmtFixed 4 share
    let floorText := fmtFixed 4 slice.floor
    .ok ⟨id, Number.le (.fin 0) margin, some margin, "fraction",
      s!"slice {sliceText} allocated {shareText} of PRBs vs protected floor {floorText}"⟩
  else .ok ⟨id, true, some (.inf false), "fraction",
    "no prb_allocation in action; slice floor not applicable"⟩

def others (alloc : Dict Number) : Dict Number := alloc.filter (fun item => item.1 != slice.sliceId)

/-- `sum(others.values())`. -/
def pool (others : Dict Number) : Number :=
  others.foldl (fun total item => total + item.2) (.fin 0)

/-- `(pool - deficit) / pool if pool > 0 else 0.0`. -/
def scale (pool deficit : Number) : Except PyErr Number :=
  if Number.lt (.fin 0) pool then Number.div (pool - deficit) pool else .ok (.fin 0)

def reallocated (others : Dict Number) (share : Number) : Value :=
  .dict (others.map (fun item => (item.1, .float item.2)) ++ [(slice.sliceId, .float share)])

def unreachableMessage (pool : Number) : String :=
  let sliceText := py.strRepr slice.sliceId
  let floorText := fmtFixed 4 slice.floor
  let poolText := fmtFixed 4 pool
  s!"Protected slice {sliceText} floor {floorText} is " ++
  s!"UNREACHABLE: only {poolText} of PRBs are reallocatable. " ++
  "Allocation left short; emit must be refused."

def restoredMessage (deficit : Number) : String :=
  let sliceText := py.strRepr slice.sliceId
  let floorText := fmtFixed 4 slice.floor
  let deficitText := fmtFixed 4 deficit
  s!"Restored protected slice {sliceText} to its {floorText} " ++
  s!"PRB floor; {deficitText} reclaimed pro rata from other slices."

/-- The allocation moved to the floor, or as near to it as the pool reaches. -/
def restore (action : Action) (alloc : Dict Number) :
    Except PyErr (Action × List ConstraintViolation) :=
  let share := alloc.getD slice.sliceId (.fin 0)
  let deficit := slice.floor - share
  if Number.le deficit (.fin 0) then .ok (action, [])
  else
    let others := slice.others alloc
    let pool := pool others
    if Number.lt pool deficit then
      let zeroed := others.map fun item => (item.1, Number.fin 0)
      .ok (action.set allocKey (slice.reallocated zeroed (share + pool)),
        [⟨id, "hard", some (-(deficit - pool)), slice.unreachableMessage py pool⟩])
    else do
      let scale ← scale pool deficit
      let scaled := others.map fun item => (item.1, item.2 * scale)
      .ok (action.set allocKey (slice.reallocated scaled slice.floor),
        [⟨id, "hard", some (-deficit), slice.restoredMessage py deficit⟩])

def project (action : Action) (_context : Context) :
    Except PyErr (Action × List ConstraintViolation) :=
  if (allocation action).truthy then do
    let alloc ← items py (allocation action)
    slice.restore py action alloc
  else .ok (action, [])

def invariant : Invariant := ⟨id, slice.evaluate py, slice.project py⟩

/-- What the projection cannot read: a non-empty allocation that is no mapping. -/
def malformed (action : Action) : Bool :=
  match allocation action with
  | .dict _ => false
  | alloc => alloc.truthy

theorem floatItems_raises (entries : List (String × Value)) :
    RaisesOnly isDataError (floatItems py entries) := by
  induction entries with
  | nil => exact .ok _
  | cons item rest ih =>
    obtain ⟨key, value⟩ := item
    exact .bind (toFloat_raises py value) fun _ => .bind ih fun _ => .ok _

theorem share_raises (action : Action) : RaisesOnly isDataError (slice.share py action) := by
  intro e h
  simp only [share] at h
  split at h
  · cases h
  · cases h
  · rename_i notType notAttribute
    rw [h] at notType notAttribute
    -- what is left of `float` on a share is a value or overflow error
    cases alloc : (if (allocation action).truthy then allocation action else .dict []) with
    | dict entries =>
      rw [alloc] at h
      exact toFloat_raises py _ e h
    | _ =>
      rw [alloc] at h
      cases h
      exact absurd rfl notAttribute

theorem checkable : (slice.invariant py).Checkable := fun _ _ =>
  .ite (.bind (slice.share_raises py _) fun _ => .ok _) (.ok _)

theorem restore_raises (action : Action) (alloc : Dict Number) :
    RaisesOnly isDataError (slice.restore py action alloc) :=
  .ite (.ok _) (.ite (.ok _) (.bind (.ite (div_raises _ _) (.ok _)) fun _ => .ok _))

theorem items_raises {action : Action} (truthy : (allocation action).truthy = true)
    (readable : malformed action = false) :
    RaisesOnly isDataError (items py (allocation action)) := by
  unfold malformed at readable
  cases alloc : allocation action with
  | dict entries => exact floatItems_raises py entries
  | _ =>
    rw [alloc] at truthy readable
    exact absurd (truthy.symm.trans readable) (by decide)

theorem project_raises {action : Action} (readable : malformed action = false) (ctx : Context) :
    RaisesOnly isDataError ((slice.invariant py).project action ctx) := by
  simp only [invariant, project]
  split
  · rename_i truthy
    exact .bind (items_raises py truthy readable) fun _ => slice.restore_raises py _ _
  · exact .ok _

/-- A malformed allocation leaves the projection by an exception no one catches. -/
theorem project_malformed {action : Action} (bad : malformed action = true) (ctx : Context) :
    (slice.invariant py).project action ctx = .error .attributeError := by
  unfold malformed at bad
  simp only [invariant, project]
  cases alloc : allocation action with
  | dict entries =>
    rw [alloc] at bad
    cases bad
  | _ =>
    rw [alloc] at bad
    dsimp only at bad
    rw [if_pos bad]
    rfl

theorem restore_cases {action next : Action} {alloc : Dict Number}
    {corr : List ConstraintViolation} (h : slice.restore py action alloc = .ok (next, corr)) :
    next = action ∨ ∃ entries, next = action.set allocKey (.dict entries) := by
  simp only [restore] at h
  split at h
  · cases h
    exact Or.inl rfl
  · split at h
    · cases h
      exact Or.inr ⟨_, rfl⟩
    · obtain ⟨scale, _, h⟩ := bind_eq_ok h
      cases h
      exact Or.inr ⟨_, rfl⟩

/-- The action stays, or gets a new mapping as its allocation. -/
theorem project_cases {action next : Action} {ctx : Context} {corr : List ConstraintViolation}
    (h : (slice.invariant py).project action ctx = .ok (next, corr)) :
    next = action ∨ ∃ entries, next = action.set allocKey (.dict entries) := by
  simp only [invariant, project] at h
  split at h
  · obtain ⟨alloc, _, h⟩ := bind_eq_ok h
    exact slice.restore_cases py h
  · cases h
    exact Or.inl rfl

theorem blockKept : (slice.invariant py).Respects BlockKept := by
  intro action ctx next corr h
  rcases slice.project_cases py h with rfl | ⟨entries, rfl⟩
  · exact .refl _
  · exact .set_ne _ _ (by decide)

/-- An allocation the projection can read stays one. -/
def Readable (before after : Action) : Prop := malformed before = false → malformed after = false

theorem Readable.of_same {before after : Action}
    (same : Dict.get? allocKey after = Dict.get? allocKey before) : Readable before after := by
  intro readable
  rw [← readable, malformed, malformed, allocation, allocation, Dict.getD, Dict.getD, same]

theorem frame_readable : Frame Readable where
  refl _ readable := readable
  trans hab hbc readable := hbc (hab readable)
  block action := .of_same (Dict.get?_set_ne action _ (by decide))

theorem readable : (slice.invariant py).Respects Readable := by
  intro action ctx next corr h
  rcases slice.project_cases py h with rfl | ⟨entries, rfl⟩
  · exact frame_readable.refl _
  · intro _
    rw [malformed, allocation, Dict.getD_set_self]

end
end ProtectedSliceFloor
end HorizonRic
