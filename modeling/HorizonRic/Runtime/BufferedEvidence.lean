import HorizonRic.Runtime.GracefulDegradation
import HorizonRic.Library.Machine
import HorizonRic.Evidence.Append

/-!
What becomes of the records and decisions handed to the controller. None is lost
or doubled between the calls that hand them in and those that drain them, and the
buffer file alone gives the records back.
-/
namespace HorizonRic.Degradation
open Py Json Machine Evidence

def Event.record? : Event → Option Value
  | .call (.bufferEvidence record _) => some record
  | _ => none

def Event.decision? : Event → Option Value
  | .call (.holdDecision decision) => some decision
  | _ => none

/-- Every write to the buffer file succeeds. -/
def Event.Written : Event → Prop
  | .call (.bufferEvidence _ fails) => fails = none
  | _ => True

/-- What was drained and what is still there, against what was handed in. -/
structure Accounted (events : List Event) (s : System) : Prop where
  evidence : s.drainedEvidence ++ s.controller.bufferedEvidence = events.filterMap Event.record?
  decisions : s.drainedDecisions ++ s.controller.heldDecisions = events.filterMap Event.decision?

/-- What one event adds to the account: what it hands in, and its line to the file. -/
structure Moved (py : Interpreter) (s : System) (e : Event) (s' : System) : Prop where
  evidence : s'.drainedEvidence ++ s'.controller.bufferedEvidence =
    s.drainedEvidence ++ s.controller.bufferedEvidence ++ e.record?.toList
  decisions : s'.drainedDecisions ++ s'.controller.heldDecisions =
    s.drainedDecisions ++ s.controller.heldDecisions ++ e.decision?.toList
  file : e.Written → s'.controller.tmpBuffer = s.controller.tmpBuffer ++
    e.record?.toList.flatMap (DegradationController.bufferLine py)

section
variable {py : Interpreter} {s s' : System}

/-- A transition touches neither list and not the file. -/
theorem announce_moved {result : DegradationController × Option Announcement} {e : Event}
    (kept : result.1.bufferedEvidence = s.controller.bufferedEvidence ∧
      result.1.heldDecisions = s.controller.heldDecisions ∧
      result.1.tmpBuffer = s.controller.tmpBuffer)
    (noRecord : e.record? = none) (noDecision : e.decision? = none) :
    Moved py s e (s.announce result) := by
  obtain ⟨buffered, held, file⟩ := kept
  constructor
  · simp [System.announce, buffered, noRecord]
  · simp [System.announce, held, noDecision]
  · simp [System.announce, file, noRecord]

theorem step_moved {e : Event} (next : s.step py e = some s') : Moved py s e s' := by
  cases e with
  | call c =>
    cases next
    cases c with
    | enter mode reason now =>
      refine announce_moved ?_ rfl rfl
      unfold DegradationController.enter
      dsimp only
      split
      · exact ⟨rfl, rfl, rfl⟩
      · exact ⟨rfl, rfl, rfl⟩
    | recover reason =>
      refine announce_moved ?_ rfl rfl
      unfold DegradationController.recover
      split
      · exact ⟨rfl, rfl, rfl⟩
      · exact ⟨rfl, rfl, rfl⟩
    | recordLastGoodPolicy policyType policyId payload now =>
      exact ⟨(List.append_nil _).symm, (List.append_nil _).symm, fun _ => (List.append_nil _).symm⟩
    | bufferEvidence record fails =>
      refine ⟨(List.append_assoc ..).symm, (List.append_nil _).symm, ?_⟩
      intro written
      obtain rfl : fails = none := written
      simp [System.call, DegradationController.bufferEvidence, Event.record?]
    | holdDecision decision =>
      exact ⟨(List.append_nil _).symm, (List.append_assoc ..).symm,
        fun _ => (List.append_nil _).symm⟩
    | drainBufferedEvidence => exact ⟨rfl, (List.append_nil _).symm, fun _ => (List.append_nil _).symm⟩
    | drainHeldDecisions => exact ⟨(List.append_nil _).symm, rfl, fun _ => (List.append_nil _).symm⟩
  | emit k =>
    rw [System.step] at next
    split at next
    · cases next
    · cases next
      exact ⟨(List.append_nil _).symm, (List.append_nil _).symm, fun _ => (List.append_nil _).symm⟩
  | other eventName information severity foreign =>
    cases next
    exact ⟨(List.append_nil _).symm, (List.append_nil _).symm, fun _ => (List.append_nil _).symm⟩

theorem run_moved {events : List Event} (reached : run (System.step py) s events = some s') :
    (s'.drainedEvidence ++ s'.controller.bufferedEvidence =
      s.drainedEvidence ++ s.controller.bufferedEvidence ++ events.filterMap Event.record?) ∧
    (s'.drainedDecisions ++ s'.controller.heldDecisions =
      s.drainedDecisions ++ s.controller.heldDecisions ++ events.filterMap Event.decision?) ∧
    ((∀ e ∈ events, e.Written) → s'.controller.tmpBuffer = s.controller.tmpBuffer ++
      (events.filterMap Event.record?).flatMap (DegradationController.bufferLine py)) := by
  induction events generalizing s with
  | nil =>
    cases reached
    simp
  | cons e events ih =>
    obtain ⟨middle, next, later⟩ := run_cons_eq_some.mp reached
    obtain ⟨evidence, decisions, file⟩ := ih later
    have moved := step_moved next
    have record : (e :: events).filterMap Event.record? =
        e.record?.toList ++ events.filterMap Event.record? := by
      cases held : e.record? <;> simp [held]
    have decision : (e :: events).filterMap Event.decision? =
        e.decision?.toList ++ events.filterMap Event.decision? := by
      cases held : e.decision? <;> simp [held]
    refine ⟨?_, ?_, ?_⟩
    · rw [evidence, moved.evidence, record, List.append_assoc]
    · rw [decisions, moved.decisions, decision, List.append_assoc]
    · intro written
      rw [file fun e' member => written e' (List.mem_cons_of_mem _ member),
        moved.file (written e List.mem_cons_self), record, List.flatMap_append, List.append_assoc]

/-! The file. -/

theorem bufferLine_readable {record : Value} (readable : Readable py record) :
    DegradationController.bufferLine py record = print py spaced (sortKeys record) ++ ['\n'] := by
  rw [DegradationController.bufferLine, dumps_readable py spaced readable]
  simp

theorem loads_bufferLine {record : Value} (readable : Readable py record) :
    loads py (DegradationController.bufferLine py record) = .ok (sortKeys record) := by
  rw [bufferLine_readable readable]
  apply loads_print_space _ spaced_plain (readable_sortKeys py readable)
  intro c member
  rw [List.mem_singleton.mp member]
  rfl

/-- A file that ends with a newline, or is empty. -/
def Complete (content : List Char) : Prop := lastPartial (universalNewlines content) = []

theorem linesOf_bufferLine {content : List Char} (complete : Complete content) {record : Value}
    (readable : Readable py record) :
    linesOf (content ++ DegradationController.bufferLine py record) =
      linesOf content ++ [DegradationController.bufferLine py record] ∧
    Complete (content ++ DegradationController.bufferLine py record) := by
  have printable := print_printable py spaced_printable (readable_sortKeys py readable)
  have oneLine : '\n' ∉ print py spaced (sortKeys record) :=
    fun inside => (printable_not_newline (printable _ inside)).1 rfl
  have noReturn : '\r' ∉ print py spaced (sortKeys record) :=
    fun inside => (printable_not_newline (printable _ inside)).2 rfl
  obtain ⟨c, tail, shape, _⟩ := print_valueHead py spaced (readable_sortKeys py readable)
  have nonempty : print py spaced (sortKeys record) ≠ [] := by
    rw [shape]
    exact List.cons_ne_nil _ _
  rw [bufferLine_readable readable]
  constructor
  · rw [linesOf_snoc content nonempty oneLine noReturn, linesOf_eq, complete]
    simp [fileLines]
  · rw [Complete, universalNewlines_line content nonempty oneLine noReturn, ← List.append_assoc]
    exact lastPartial_newline _

theorem linesOf_buffered {records : List Value} (readable : ∀ r ∈ records, Readable py r)
    {content : List Char} (complete : Complete content) :
    linesOf (content ++ records.flatMap (DegradationController.bufferLine py)) =
      linesOf content ++ records.map (DegradationController.bufferLine py) := by
  induction records generalizing content with
  | nil => simp
  | cons record records ih =>
    obtain ⟨lines, still⟩ := linesOf_bufferLine complete (readable record List.mem_cons_self)
    rw [List.flatMap_cons, ← List.append_assoc,
      ih (fun r member => readable r (List.mem_cons_of_mem _ member)) still, lines]
    simp

end

def sampleRecord (d : Int) : Value := .dict [("d", .int d)]

theorem sampleRecord_readable {d : Int} (digits : intDigitsOk d = true) :
    Readable sampleInterpreter (sampleRecord d) := by
  rw [sampleRecord, readable_dict]
  exact ⟨List.nodup_singleton _, List.forall_mem_singleton.mpr digits⟩

/-- Two records are buffered and drained, and a third one is buffered. -/
def threeRecords : List Event :=
  [.call (.bufferEvidence (sampleRecord 1) none), .call (.bufferEvidence (sampleRecord 2) none),
    .call .drainBufferedEvidence, .call (.bufferEvidence (sampleRecord 3) none)]

end HorizonRic.Degradation
