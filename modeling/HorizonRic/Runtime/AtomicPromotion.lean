import HorizonRic.Library.Machine
import Mathlib.Data.Rat.Defs
import Mathlib.Logic.Function.Basic
import Mathlib.Data.List.Count

/-!
The promoter. Slots are objects on a heap, known by their number. A release runs
without the lock, in three steps: it reads the active slot, reads the draining
list and chooses the first slot with its SHA, and counts down.
-/
namespace HorizonRic.AtomicPromotion

structure ActiveSlot (Model : Type) where
  model : Model
  sha : String
  inFlight : ℤ

inductive Kind where
  | promote
  | rollback
  deriving DecidableEq, Repr

structure PromotionEvent where
  slotNumber : ℕ
  fromSha : String
  toSha : String
  kind : Kind
  drainDuration : ℚ
  error : Option String
  deriving DecidableEq, Repr

inductive ReleasePhase where
  | held
  | readActive (active : ℕ)
  | found (candidate : Option ℕ)
  deriving DecidableEq, Repr

/-- An outstanding acquisition. The caller holds the SHA; `slot` is the slot that `get` counted. -/
structure Acquisition where
  slot : ℕ
  sha : String
  phase : ReleasePhase
  deriving DecidableEq, Repr

/-- A `_swap` after the pointer moved. -/
structure Drain where
  oldSlot : ℕ
  slotNumber : ℕ
  fromSha : String
  toSha : String
  kind : Kind
  start : ℚ
  left : Bool
  deriving DecidableEq, Repr

structure AtomicPromoter (Model : Type) where
  heap : ℕ → ActiveSlot Model
  allocated : ℕ
  slot : ℕ
  previous : Option ℕ
  draining : List ℕ
  slotCounter : ℕ
  drainTimeout : ℚ
  acquired : List Acquisition
  /-- The calls of `rollback` that have read the previous slot. -/
  rollbacks : List ℕ
  drains : List Drain
  events : List PromotionEvent

variable {Model : Type}

namespace AtomicPromoter

def init (initialModel : Model) (initialSha : String) (drainTimeout : ℚ) : AtomicPromoter Model where
  heap := fun _ => { model := initialModel, sha := initialSha, inFlight := 0 }
  allocated := 1
  slot := 0
  previous := none
  draining := []
  slotCounter := 0
  drainTimeout := drainTimeout
  acquired := []
  rollbacks := []
  drains := []
  events := []

def count (p : AtomicPromoter Model) (slot : ℕ) (change : ℤ) : ℕ → ActiveSlot Model :=
  Function.update p.heap slot
    { p.heap slot with inFlight := (p.heap slot).inFlight + change }

def get (p : AtomicPromoter Model) : AtomicPromoter Model :=
  { p with
    heap := p.count p.slot 1
    acquired := p.acquired ++ [{ slot := p.slot, sha := (p.heap p.slot).sha, phase := .held }] }

/-- The first slot with the SHA, the active one before the draining ones. -/
def search (p : AtomicPromoter Model) (active : ℕ) (sha : String) : Option ℕ :=
  (active :: p.draining).find? fun slot => (p.heap slot).sha == sha

def setPhase (p : AtomicPromoter Model) (k : ℕ) (a : Acquisition) (phase : ReleasePhase) :
    AtomicPromoter Model :=
  { p with acquired := p.acquired.set k { a with phase := phase } }

/-- The next step of the release of the acquisition with number `k`. -/
def release (p : AtomicPromoter Model) (k : ℕ) : Option (AtomicPromoter Model) :=
  match p.acquired[k]? with
  | none => none
  | some a =>
    match a.phase with
    | .held => some (p.setPhase k a (.readActive p.slot))
    | .readActive active => some (p.setPhase k a (.found (p.search active a.sha)))
    | .found none => some { p with acquired := p.acquired.eraseIdx k }
    | .found (some slot) =>
      some { p with heap := p.count slot (-1), acquired := p.acquired.eraseIdx k }

/-- The pointer moves to a new slot; the old one drains. -/
def swap (p : AtomicPromoter Model) (newModel : Model) (newSha : String) (kind : Kind)
    (start : ℚ) : AtomicPromoter Model :=
  let drain : Drain :=
    { oldSlot := p.slot, slotNumber := p.slotCounter + 1, fromSha := (p.heap p.slot).sha
      toSha := newSha, kind := kind, start := start, left := false }
  { p with
    heap := Function.update p.heap p.allocated { model := newModel, sha := newSha, inFlight := 0 }
    allocated := p.allocated + 1
    slot := p.allocated
    previous := some p.slot
    draining := p.draining ++ [p.slot]
    slotCounter := p.slotCounter + 1
    drains := p.drains ++ [drain] }

/-- `rollback` reads the previous slot; without one it raises. -/
def startRollback (p : AtomicPromoter Model) : AtomicPromoter Model :=
  match p.previous with
  | none => p
  | some previous => { p with rollbacks := p.rollbacks ++ [previous] }

def finishRollback (p : AtomicPromoter Model) (k : ℕ) (start : ℚ) :
    Option (AtomicPromoter Model) :=
  match p.rollbacks[k]? with
  | none => none
  | some previous =>
    let swapped := p.swap (p.heap previous).model (p.heap previous).sha .rollback start
    some { swapped with rollbacks := p.rollbacks.eraseIdx k }

/-- How a pass of the drain loop ends. -/
inductive Poll where
  | drained
  | timedOut
  | again
  deriving DecidableEq, Repr

def poll (p : AtomicPromoter Model) (d : Drain) (now : ℚ) : Poll :=
  if (p.heap d.oldSlot).inFlight ≤ 0 then .drained
  else if d.start + p.drainTimeout ≤ now then .timedOut
  else .again

/-- A pass of the drain loop of the swap with number `k`. -/
def pollDrain (p : AtomicPromoter Model) (k : ℕ) (now : ℚ) : Option (AtomicPromoter Model) :=
  match p.drains[k]? with
  | none => none
  | some d =>
    if d.left then none
    else match p.poll d now with
      | .again => some p
      | .drained => some { p with drains := p.drains.set k { d with left := true } }
      | .timedOut => some { p with drains := p.drains.set k { d with left := true } }

/-- After the loop the slot leaves the draining list and the event goes to the sink. -/
def finishDrain (p : AtomicPromoter Model) (k : ℕ) (now : ℚ) (sinkError : Option String) :
    Option (AtomicPromoter Model) :=
  match p.drains[k]? with
  | none => none
  | some d =>
    if d.left then
      some { p with
        draining := p.draining.erase d.oldSlot
        drains := p.drains.eraseIdx k
        events := p.events ++ [{ slotNumber := d.slotNumber, fromSha := d.fromSha, toSha := d.toSha
                                 kind := d.kind, drainDuration := now - d.start, error := sinkError }] }
    else none

end AtomicPromoter

inductive Step (Model : Type) where
  | get
  | release (k : ℕ)
  | promote (newModel : Model) (newSha : String) (start : ℚ)
  | startRollback
  | finishRollback (k : ℕ) (start : ℚ)
  | poll (k : ℕ) (now : ℚ)
  | finishDrain (k : ℕ) (now : ℚ) (sinkError : Option String)

def AtomicPromoter.step (p : AtomicPromoter Model) : Step Model → Option (AtomicPromoter Model)
  | .get => some p.get
  | .release k => p.release k
  | .promote newModel newSha start => some (p.swap newModel newSha .promote start)
  | .startRollback => some p.startRollback
  | .finishRollback k start => p.finishRollback k start
  | .poll k now => p.pollDrain k now
  | .finishDrain k now sinkError => p.finishDrain k now sinkError

end HorizonRic.AtomicPromotion
