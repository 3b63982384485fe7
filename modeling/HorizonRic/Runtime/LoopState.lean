import HorizonRic.Python.Value

/-!
`runtime/loop_state.py`: the LoopState machine. The sink runs under the re-entrant
lock between the check of the edge and the commit, so the calls it makes on the
same machine finish inside the call that invoked it.
-/
namespace HorizonRic.LoopStates

inductive LoopState where
  | idle
  | retrain
  | validate
  | promote
  | monitor
  | rollback
  deriving DecidableEq

def LoopState.value : LoopState → String
  | idle => "Idle"
  | retrain => "Retrain"
  | validate => "Validate"
  | promote => "Promote"
  | monitor => "Monitor"
  | rollback => "Rollback"

/-- `_ALLOWED_EDGES`. -/
def allowedEdges : List (LoopState × LoopState) :=
  [(.idle, .retrain), (.retrain, .validate), (.validate, .promote), (.validate, .idle),
    (.promote, .monitor), (.monitor, .rollback), (.monitor, .retrain), (.rollback, .idle)]

/-- One audited change; `D` are the clock's times. -/
structure StateTransition (D : Type) where
  fromState : LoopState
  toState : LoopState
  timestamp : D
  reason : String
  actor : String
  modelSha : Option String

inductive TransitionError (ε : Type) where
  | typeError (message : String)
  | invalidTransition (message : String)
  | sink (error : ε)

structure LoopStateMachine (D : Type) where
  state : LoopState
  history : List (StateTransition D)
  actor : String

def LoopStateMachine.init (D : Type) (initial : LoopState) (actor : String) : LoopStateMachine D :=
  ⟨initial, [], actor⟩

/-- The `new_state` argument: another object has the text of its type. -/
inductive NewState where
  | loopState (s : LoopState)
  | other (type : String)

/-- The arguments of `transition`, and the time it reads. -/
structure Request (D : Type) where
  newState : NewState
  reason : String
  actor : Option String := none
  modelSha : Option String := none
  now : D

variable {D ε : Type}

/-- `actor or self._actor`. -/
def Request.actorOr (r : Request D) (default : String) : String :=
  match r.actor with
  | some actor => if actor = "" then default else actor
  | none => default

/-- The list of the states allowed after `s`, sorted, as `repr` prints it. -/
def allowedFrom (s : LoopState) : String :=
  let targets := (allowedEdges.filter fun edge => edge.1 = s).map fun edge => edge.2.value
  let sorted := targets.mergeSort fun a b => a ≤ b
  "[" ++ ", ".intercalate (sorted.map fun target => "'" ++ target ++ "'") ++ "]"

/-- The checks of `transition`, and the record it would commit. -/
def LoopStateMachine.check (m : LoopStateMachine D) (r : Request D) :
    Except (TransitionError ε) (StateTransition D) :=
  match r.newState with
  | .other type => .error (.typeError ("new_state must be LoopState, got " ++ type))
  | .loopState target =>
    if (m.state, target) ∈ allowedEdges then
      .ok ⟨m.state, target, r.now, r.reason, r.actorOr m.actor, r.modelSha⟩
    else
      .error (.invalidTransition ("illegal transition " ++ m.state.value ++ " → " ++ target.value ++
        " (allowed from " ++ m.state.value ++ ": " ++ allowedFrom m.state ++ ")"))

/-- The commit after the sink has returned. -/
def LoopStateMachine.commit (m : LoopStateMachine D) (t : StateTransition D) : LoopStateMachine D :=
  { m with history := m.history ++ [t], state := t.toState }

/-- Calls of `transition` one after another. The sink that a call invokes makes calls of its own
    on the machine and then returns or raises; it makes none and returns where there is no sink. -/
inductive Calls (D ε : Type) where
  | done
  | call (request : Request D) (sink : Calls D ε) (raises : Option ε) (rest : Calls D ε)

/-- A call that has finished: the machine before and after it, and what it returned or raised. -/
structure Record (D ε : Type) where
  before : LoopStateMachine D
  after : LoopStateMachine D
  result : Except (TransitionError ε) (StateTransition D)

/-- `transition`, for each of the calls: the machine at the end, and the calls in the order in
    which they finish. -/
def run : Calls D ε → LoopStateMachine D → LoopStateMachine D × List (Record D ε)
  | .done, m => (m, [])
  | .call request sink raises rest, m =>
    match m.check request with
    | .error error =>
      let (last, records) := run rest m
      (last, ⟨m, m, .error error⟩ :: records)
    | .ok t =>
      let (emitted, inner) := run sink m
      match raises with
      | some error =>
        let (last, records) := run rest emitted
        (last, inner ++ ⟨m, emitted, .error (.sink error)⟩ :: records)
      | none =>
        let (last, records) := run rest (emitted.commit t)
        (last, inner ++ ⟨m, emitted.commit t, .ok t⟩ :: records)

/-- `replay`, from a state on. -/
def replayFrom (state : LoopState) :
    List (StateTransition D) → Except (TransitionError ε) LoopState
  | [] => .ok state
  | t :: history =>
    if (state, t.toState) ∈ allowedEdges then replayFrom t.toState history
    else
      .error (.invalidTransition ("history is corrupt: edge " ++ state.value ++ "→" ++
        t.toState.value ++ " is not allowed"))

def LoopStateMachine.replay (m : LoopStateMachine D) : Except (TransitionError ε) LoopState :=
  replayFrom .idle m.history

/-! What a legal history is. -/

/-- A connected path of allowed edges. -/
def Path : LoopState → List (StateTransition D) → LoopState → Prop
  | start, [], finish => start = finish
  | start, t :: ts, finish =>
    t.fromState = start ∧ (t.fromState, t.toState) ∈ allowedEdges ∧ Path t.toState ts finish

/-- The history is a path to the state, and a call that raised has left both as they were. -/
structure Record.Keeps (initial : LoopState) (r : Record D ε) : Prop where
  path : Path initial r.after.history r.after.state
  undone : ∀ error, r.result = .error error →
    r.after.history = r.before.history ∧ r.after.state = r.before.state

structure Record.Legal (initial : LoopState) (r : Record D ε) : Prop where
  keeps : r.Keeps initial
  replays : r.after.replay = (.ok r.after.state : Except (TransitionError ε) LoopState)

/-! What the calls do, by the edges alone. -/

/-- The target of a request that passes the checks. -/
def Request.target (r : Request D) (s : LoopState) : Option LoopState :=
  match r.newState with
  | .other _ => none
  | .loopState target => if (s, target) ∈ allowedEdges then some target else none

/-- The state after the transitions that were applied. -/
def endState (s : LoopState) (finishes : List (Option LoopState)) : LoopState :=
  (finishes.filterMap id).getLastD s

/-- For each call, in the order in which they finish, the target it applies, if any. -/
def Calls.finishes : Calls D ε → LoopState → List (Option LoopState)
  | .done, _ => []
  | .call request sink raises rest, s =>
    match request.target s with
    | none => none :: rest.finishes s
    | some target =>
      let inner := sink.finishes s
      match raises with
      | some _ => inner ++ none :: rest.finishes (endState s inner)
      | none => inner ++ some target :: rest.finishes target

/-- A sink that returns has led the machine back to the state it found, and a sink that raises
    has applied no transition. -/
def Calls.SinksReturn : Calls D ε → LoopState → Prop
  | .done, _ => True
  | .call request sink raises rest, s =>
    match request.target s with
    | none => rest.SinksReturn s
    | some target =>
      sink.SinksReturn s ∧
        match raises with
        | some _ => (sink.finishes s).filterMap id = [] ∧ rest.SinksReturn s
        | none => endState s (sink.finishes s) = s ∧ rest.SinksReturn target

/-- The replay, which starts in `IDLE`, can agree from the first call that finishes on. -/
def ReplayStarts (initial : LoopState) (finishes : List (Option LoopState)) : Prop :=
  initial = .idle ∨ ∀ first ∈ finishes.head?, first = some .retrain

/-! A run and its finishes. -/

theorem check_ok {m : LoopStateMachine D} {r : Request D} {t : StateTransition D}
    (checked : (m.check r : Except (TransitionError ε) _) = .ok t) :
    r.target m.state = some t.toState ∧ t.fromState = m.state ∧
      (t.fromState, t.toState) ∈ allowedEdges := by
  unfold LoopStateMachine.check at checked
  unfold Request.target
  cases newState : r.newState with
  | other type => simp [newState] at checked
  | loopState target =>
    rw [newState] at checked
    by_cases allowed : (m.state, target) ∈ allowedEdges
    · simp only [allowed, if_true, Except.ok.injEq] at checked
      subst checked
      exact ⟨if_pos allowed, rfl, allowed⟩
    · simp [allowed] at checked

theorem check_error {m : LoopStateMachine D} {r : Request D} {error : TransitionError ε}
    (checked : m.check r = .error error) : r.target m.state = none := by
  unfold LoopStateMachine.check at checked
  unfold Request.target
  cases newState : r.newState with
  | other type => rfl
  | loopState target =>
    rw [newState] at checked
    by_cases allowed : (m.state, target) ∈ allowedEdges
    · simp [allowed] at checked
    · exact if_neg allowed

@[simp] theorem endState_nil (s : LoopState) : endState s [] = s := rfl

theorem endState_none (s : LoopState) (before after : List (Option LoopState)) :
    endState s (before ++ none :: after) = endState (endState s before) after := by
  simp only [endState, List.filterMap_append, List.filterMap_cons, id, List.getLastD_eq_getLast?,
    List.getLast?_append]
  cases (after.filterMap id).getLast? <;> simp

theorem endState_some (s target : LoopState) (before after : List (Option LoopState)) :
    endState s (before ++ some target :: after) = endState target after := by
  simp only [endState, List.filterMap_append, List.filterMap_cons, id, List.getLastD_eq_getLast?,
    List.getLast?_append, List.getLast?_cons]
  cases (after.filterMap id).getLast? <;> simp

def LoopStateMachine.targets (m : LoopStateMachine D) : List LoopState := m.history.map (·.toState)

theorem commit_targets (m : LoopStateMachine D) (t : StateTransition D) :
    (m.commit t).targets = m.targets ++ [t.toState] := by
  simp [LoopStateMachine.commit, LoopStateMachine.targets]

theorem run_refused {m : LoopStateMachine D} {r : Request D} {error : TransitionError ε}
    (checked : m.check r = .error error) (sink rest : Calls D ε) (raises : Option ε) :
    run (.call r sink raises rest) m =
      ((run rest m).1, ⟨m, m, .error error⟩ :: (run rest m).2) := by
  rw [run, checked]

theorem run_raised {m : LoopStateMachine D} {r : Request D} {t : StateTransition D}
    (checked : (m.check r : Except (TransitionError ε) _) = .ok t) (sink rest : Calls D ε)
    (error : ε) :
    run (.call r sink (some error) rest) m =
      ((run rest (run sink m).1).1,
        (run sink m).2 ++ ⟨m, (run sink m).1, .error (.sink error)⟩ ::
          (run rest (run sink m).1).2) := by
  rw [run, checked]

theorem run_returned {m : LoopStateMachine D} {r : Request D} {t : StateTransition D}
    (checked : (m.check r : Except (TransitionError ε) _) = .ok t) (sink rest : Calls D ε) :
    run (.call r sink none rest) m =
      ((run rest ((run sink m).1.commit t)).1,
        (run sink m).2 ++ ⟨m, (run sink m).1.commit t, .ok t⟩ ::
          (run rest ((run sink m).1.commit t)).2) := by
  rw [run, checked]

/-- The machine after the calls, as the finishes say it. -/
theorem run_end (calls : Calls D ε) (m : LoopStateMachine D) :
    (run calls m).1.state = endState m.state (calls.finishes m.state) ∧
      (run calls m).1.targets = m.targets ++ (calls.finishes m.state).filterMap id := by
  induction calls generalizing m with
  | done => simp [run, Calls.finishes]
  | call request sink raises rest ihSink ihRest =>
    cases checked : (m.check request : Except (TransitionError ε) _) with
    | error error =>
      obtain ⟨state, targets⟩ := ihRest m
      simp only [run_refused checked, Calls.finishes, check_error checked]
      exact ⟨state.trans (endState_none _ [] _).symm, targets⟩
    | ok t =>
      have target := (check_ok checked).1
      obtain ⟨sinkState, sinkTargets⟩ := ihSink m
      cases raises with
      | some error =>
        obtain ⟨state, targets⟩ := ihRest (run sink m).1
        simp only [run_raised checked, Calls.finishes, target]
        rw [sinkState] at state targets
        refine ⟨state.trans (endState_none _ _ _).symm, ?_⟩
        rw [targets, sinkTargets]
        simp
      | none =>
        obtain ⟨state, targets⟩ := ihRest ((run sink m).1.commit t)
        simp only [run_returned checked, Calls.finishes, target]
        refine ⟨state.trans (endState_some _ _ _ _).symm, ?_⟩
        rw [targets, commit_targets, sinkTargets]
        simp [LoopStateMachine.commit]

theorem run_grows (calls : Calls D ε) (m : LoopStateMachine D) :
    m.history <+: (run calls m).1.history := by
  induction calls generalizing m with
  | done => exact List.prefix_refl _
  | call request sink raises rest ihSink ihRest =>
    cases checked : (m.check request : Except (TransitionError ε) _) with
    | error error =>
      rw [run_refused checked]
      exact ihRest m
    | ok t =>
      cases raises with
      | some error =>
        rw [run_raised checked]
        exact (ihSink m).trans (ihRest _)
      | none =>
        rw [run_returned checked]
        have committed : (run sink m).1.history <+: ((run sink m).1.commit t).history :=
          List.prefix_append _ _
        exact ((ihSink m).trans committed).trans (ihRest _)

/-- Calls that apply nothing leave the machine as it was. -/
theorem run_unmoved {calls : Calls D ε} {m : LoopStateMachine D}
    (unmoved : (calls.finishes m.state).filterMap id = []) :
    (run calls m).1.history = m.history ∧ (run calls m).1.state = m.state := by
  obtain ⟨state, targets⟩ := run_end calls m
  obtain ⟨added, grown⟩ := run_grows calls m
  rw [unmoved, List.append_nil] at targets
  unfold LoopStateMachine.targets at targets
  rw [← grown, List.map_append] at targets
  have nothing : added = [] := by simpa using targets
  refine ⟨by rw [← grown, nothing, List.append_nil], ?_⟩
  rw [state]
  unfold endState
  rw [unmoved]
  rfl

/-- A run that adds nothing to the history has applied nothing. -/
theorem finishes_of_history {calls : Calls D ε} {m : LoopStateMachine D}
    (same : (run calls m).1.history = m.history) :
    (calls.finishes m.state).filterMap id = [] := by
  have targets := (run_end calls m).2
  unfold LoopStateMachine.targets at targets
  rw [same] at targets
  simpa using targets

/-! The records of a run. -/

theorem forall_records_error {P : Record D ε → Prop} {m : LoopStateMachine D} {r : Request D}
    {error : TransitionError ε} (checked : m.check r = .error error) (sink rest : Calls D ε)
    (raises : Option ε) :
    (∀ record ∈ (run (.call r sink raises rest) m).2, P record) ↔
      P ⟨m, m, .error error⟩ ∧ ∀ record ∈ (run rest m).2, P record := by
  rw [run_refused checked]
  exact List.forall_mem_cons

theorem forall_records_raised {P : Record D ε → Prop} {m : LoopStateMachine D} {r : Request D}
    {t : StateTransition D} (checked : (m.check r : Except (TransitionError ε) _) = .ok t)
    (sink rest : Calls D ε) (error : ε) :
    (∀ record ∈ (run (.call r sink (some error) rest) m).2, P record) ↔
      (∀ record ∈ (run sink m).2, P record) ∧ P ⟨m, (run sink m).1, .error (.sink error)⟩ ∧
        ∀ record ∈ (run rest (run sink m).1).2, P record := by
  simp only [run_raised checked, List.forall_mem_append, List.forall_mem_cons]

theorem forall_records_ok {P : Record D ε → Prop} {m : LoopStateMachine D} {r : Request D}
    {t : StateTransition D} (checked : (m.check r : Except (TransitionError ε) _) = .ok t)
    (sink rest : Calls D ε) :
    (∀ record ∈ (run (.call r sink none rest) m).2, P record) ↔
      (∀ record ∈ (run sink m).2, P record) ∧ P ⟨m, (run sink m).1.commit t, .ok t⟩ ∧
        ∀ record ∈ (run rest ((run sink m).1.commit t)).2, P record := by
  simp only [run_returned checked, List.forall_mem_append, List.forall_mem_cons]

theorem path_append {start finish : LoopState} {history : List (StateTransition D)}
    {t : StateTransition D} : Path start (history ++ [t]) finish ↔
      Path start history t.fromState ∧ (t.fromState, t.toState) ∈ allowedEdges ∧
        t.toState = finish := by
  induction history generalizing start with
  | nil =>
    simp only [List.nil_append, Path]
    constructor
    · rintro ⟨from_, allowed, target⟩
      exact ⟨from_.symm, allowed, target⟩
    · rintro ⟨from_, allowed, target⟩
      exact ⟨from_.symm, allowed, target⟩
  | cons first history ih =>
    simp only [List.cons_append, Path, ih]
    tauto

theorem path_finish {start a b : LoopState} {history : List (StateTransition D)}
    (first : Path start history a) (second : Path start history b) : a = b := by
  induction history generalizing start with
  | nil => exact first.symm.trans second
  | cons t history ih => exact ih first.2.2 second.2.2

theorem path_commit {initial : LoopState} {m : LoopStateMachine D} {t : StateTransition D}
    (path : Path initial m.history m.state) (allowed : (t.fromState, t.toState) ∈ allowedEdges) :
    Path initial (m.commit t).history (m.commit t).state ↔ m.state = t.fromState := by
  constructor
  · intro committed
    exact path_finish path (path_append.mp committed).1
  · intro same
    rw [same] at path
    exact path_append.mpr ⟨path, allowed, rfl⟩

section
variable {initial : LoopState}

theorem run_path (calls : Calls D ε) {m : LoopStateMachine D}
    (path : Path initial m.history m.state) (returns : calls.SinksReturn m.state) :
    Path initial (run calls m).1.history (run calls m).1.state := by
  induction calls generalizing m with
  | done => exact path
  | call request sink raises rest ihSink ihRest =>
    unfold Calls.SinksReturn at returns
    cases checked : (m.check request : Except (TransitionError ε) _) with
    | error error =>
      simp only [check_error checked] at returns
      rw [run_refused checked]
      exact ihRest path returns
    | ok t =>
      obtain ⟨target, same, allowed⟩ := check_ok checked
      simp only [target] at returns
      obtain ⟨sinkReturns, returns⟩ := returns
      have emitted := ihSink path sinkReturns
      cases raises with
      | some error =>
        obtain ⟨unmoved, returns⟩ := returns
        rw [← (run_unmoved unmoved).2] at returns
        rw [run_raised checked]
        exact ihRest emitted returns
      | none =>
        obtain ⟨back, returns⟩ := returns
        rw [run_returned checked]
        have there := ((run_end sink m).1.trans back).trans same.symm
        exact ihRest ((path_commit emitted allowed).mpr there) returns

/-- The history stays a path, and calls that raise are undone, in exactly the runs whose sinks
    return to the state they found, or to nothing applied where they raise. -/
theorem keeps_iff (calls : Calls D ε) {m : LoopStateMachine D}
    (path : Path initial m.history m.state) :
    (∀ record ∈ (run calls m).2, record.Keeps initial) ↔ calls.SinksReturn m.state := by
  induction calls generalizing m with
  | done => simp [run, Calls.SinksReturn]
  | call request sink raises rest ihSink ihRest =>
    unfold Calls.SinksReturn
    cases checked : (m.check request : Except (TransitionError ε) _) with
    | error error =>
      rw [forall_records_error checked, ihRest path]
      simp only [check_error checked]
      exact and_iff_right ⟨path, fun _ _ => ⟨rfl, rfl⟩⟩
    | ok t =>
      obtain ⟨target, same, allowed⟩ := check_ok checked
      simp only [target]
      cases raises with
      | some error =>
        rw [forall_records_raised checked, ihSink path]
        refine and_congr_right fun sinkReturns => ?_
        have emitted := run_path sink path sinkReturns
        constructor
        · rintro ⟨keeps, later⟩
          have unmoved := finishes_of_history (keeps.undone _ rfl).1
          rw [ihRest emitted, (run_unmoved unmoved).2] at later
          exact ⟨unmoved, later⟩
        · rintro ⟨unmoved, returns⟩
          rw [ihRest emitted, (run_unmoved unmoved).2]
          exact ⟨⟨emitted, fun _ _ => run_unmoved unmoved⟩, returns⟩
      | none =>
        rw [forall_records_ok checked, ihSink path]
        refine and_congr_right fun sinkReturns => ?_
        have emitted := run_path sink path sinkReturns
        have state := (run_end sink m).1
        constructor
        · rintro ⟨keeps, later⟩
          have there := (path_commit emitted allowed).mp keeps.path
          rw [ihRest keeps.path] at later
          exact ⟨state.symm.trans (there.trans same), later⟩
        · rintro ⟨back, returns⟩
          have there := (path_commit emitted allowed).mpr ((state.trans back).trans same.symm)
          refine ⟨⟨there, fun _ raised => by cases raised⟩, ?_⟩
          exact (ihRest there).mpr returns

end

/-! The replay. -/

theorem replayFrom_path {start finish : LoopState} {history : List (StateTransition D)}
    (path : Path start history finish) :
    replayFrom start history = (.ok finish : Except (TransitionError ε) LoopState) := by
  induction history generalizing start with
  | nil => exact congrArg Except.ok path
  | cons t history ih =>
    obtain ⟨rfl, allowed, path⟩ := path
    unfold replayFrom
    rw [if_pos allowed]
    exact ih path

theorem idle_edge (s : LoopState) : (LoopState.idle, s) ∈ allowedEdges ↔ s = .retrain := by
  cases s <;> decide

/-- The replay from `IDLE` follows the history if that is where it starts, or joins it at its
    first target. -/
theorem replay_iff {initial : LoopState} {m : LoopStateMachine D}
    (path : Path initial m.history m.state) :
    m.replay = (.ok m.state : Except (TransitionError ε) LoopState) ↔
      initial = .idle ∨ m.targets.head? = some .retrain := by
  unfold LoopStateMachine.replay LoopStateMachine.targets
  cases history : m.history with
  | nil =>
    rw [history] at path
    simp only [replayFrom, Except.ok.injEq, List.map_nil, List.head?_nil, reduceCtorEq, or_false]
    constructor
    · intro same
      exact path.trans same.symm
    · intro same
      exact same.symm.trans path
  | cons t ts =>
    rw [history] at path
    obtain ⟨from_, allowed, path⟩ := path
    simp only [replayFrom, List.map_cons, List.head?_cons, Option.some.injEq, idle_edge]
    by_cases joins : t.toState = .retrain
    · simp only [joins, if_true, or_true, iff_true]
      rw [joins] at path
      exact replayFrom_path path
    · simp only [joins, if_false, reduceCtorEq, or_false, false_iff]
      intro start
      rw [from_, start] at allowed
      exact joins ((idle_edge _).mp allowed)

/-- A call that finishes has seen a part of the finishes, its own among them. -/
theorem run_record (calls : Calls D ε) (m : LoopStateMachine D) :
    ∀ record ∈ (run calls m).2, ∃ seen, seen ≠ [] ∧ seen <+: calls.finishes m.state ∧
      record.after.targets = m.targets ++ seen.filterMap id := by
  induction calls generalizing m with
  | done => simp [run]
  | call request sink raises rest ihSink ihRest =>
    cases checked : (m.check request : Except (TransitionError ε) _) with
    | error error =>
      rw [forall_records_error checked]
      simp only [Calls.finishes, check_error checked]
      refine ⟨⟨[none], by simp, by simp, by simp⟩, fun record member => ?_⟩
      obtain ⟨seen, _, part, targets⟩ := ihRest m record member
      exact ⟨none :: seen, by simp, by simpa using part, targets⟩
    | ok t =>
      have target := (check_ok checked).1
      obtain ⟨sinkState, sinkTargets⟩ := run_end sink m
      have inner : ∀ record ∈ (run sink m).2, ∀ after, ∃ seen, seen ≠ [] ∧
          seen <+: sink.finishes m.state ++ after ∧
            record.after.targets = m.targets ++ seen.filterMap id := by
        intro record member after
        obtain ⟨seen, some_, part, targets⟩ := ihSink m record member
        exact ⟨seen, some_, part.trans (List.prefix_append _ _), targets⟩
      cases raises with
      | some error =>
        rw [forall_records_raised checked]
        simp only [Calls.finishes, target]
        refine ⟨fun record member => inner record member _, ?_, fun record member => ?_⟩
        · refine ⟨sink.finishes m.state ++ [none], by simp, ?_, by simp [sinkTargets]⟩
          exact List.prefix_append_right_inj _ |>.mpr (by simp)
        · obtain ⟨seen, _, part, targets⟩ := ihRest _ record member
          rw [sinkState] at part
          refine ⟨sink.finishes m.state ++ none :: seen, by simp, ?_, ?_⟩
          · exact List.prefix_append_right_inj _ |>.mpr (by simpa using part)
          · rw [targets, sinkTargets]
            simp
      | none =>
        rw [forall_records_ok checked]
        simp only [Calls.finishes, target]
        refine ⟨fun record member => inner record member _, ?_, fun record member => ?_⟩
        · refine ⟨sink.finishes m.state ++ [some t.toState], by simp, ?_, ?_⟩
          · exact List.prefix_append_right_inj _ |>.mpr (by simp)
          · rw [commit_targets, sinkTargets]
            simp
        · obtain ⟨seen, _, part, targets⟩ := ihRest _ record member
          have part : seen <+: rest.finishes t.toState := part
          refine ⟨sink.finishes m.state ++ some t.toState :: seen, by simp, ?_, ?_⟩
          · exact List.prefix_append_right_inj _ |>.mpr (by simpa using part)
          · rw [targets, commit_targets, sinkTargets]
            simp

/-- The first call to finish, which may be one that a sink made. -/
theorem run_first {calls : Calls D ε} {m : LoopStateMachine D} {first : Option LoopState}
    (head : (calls.finishes m.state).head? = some first) :
    ∃ record ∈ (run calls m).2, record.after.targets = m.targets ++ first.toList := by
  induction calls generalizing m with
  | done => simp [Calls.finishes] at head
  | call request sink raises rest ihSink ihRest =>
    cases checked : (m.check request : Except (TransitionError ε) _) with
    | error error =>
      simp only [Calls.finishes, check_error checked, List.head?_cons, Option.some.injEq] at head
      rw [run_refused checked]
      exact ⟨_, List.mem_cons_self, by simp [← head]⟩
    | ok t =>
      have target := (check_ok checked).1
      have sinkTargets := (run_end sink m).2
      simp only [Calls.finishes, target] at head
      cases inner : sink.finishes m.state with
      | nil =>
        rw [inner] at sinkTargets
        cases raises with
        | some error =>
          simp only [inner, List.nil_append, List.head?_cons, Option.some.injEq] at head
          rw [run_raised checked]
          refine ⟨_, List.mem_append_right _ List.mem_cons_self, ?_⟩
          simpa [← head] using sinkTargets
        | none =>
          simp only [inner, List.nil_append, List.head?_cons, Option.some.injEq] at head
          rw [run_returned checked]
          refine ⟨_, List.mem_append_right _ List.mem_cons_self, ?_⟩
          simp only [commit_targets, sinkTargets, ← head]
          simp
      | cons f fs =>
        have there : (sink.finishes m.state).head? = some first := by
          cases raises <;> simpa [inner] using head
        obtain ⟨record, member, targets⟩ := ihSink there
        refine ⟨record, ?_, targets⟩
        cases raises with
        | some error =>
          rw [run_raised checked]
          exact List.mem_append_left _ member
        | none =>
          rw [run_returned checked]
          exact List.mem_append_left _ member

/-- All the calls leave a legal history in exactly the runs whose sinks return to the state they
    found, or to nothing applied where they raise, and whose replay can start from `IDLE`. -/
theorem loopState_legal_iff (initial : LoopState) (actor : String) (calls : Calls D ε) :
    (∀ record ∈ (run calls (.init D initial actor)).2, record.Legal initial) ↔
      calls.SinksReturn initial ∧ ReplayStarts initial (calls.finishes initial) := by
  have start : Path initial (LoopStateMachine.init D initial actor).history
      (LoopStateMachine.init D initial actor).state := rfl
  have keeps := keeps_iff calls start
  constructor
  · intro legal
    refine ⟨keeps.mp fun record member => (legal record member).keeps, ?_⟩
    by_cases idle : initial = .idle
    · exact Or.inl idle
    · refine Or.inr fun first head => ?_
      obtain ⟨record, member, targets⟩ := run_first (m := .init D initial actor) head
      have ⟨kept, replays⟩ := legal record member
      have joins := ((replay_iff kept.path).mp replays).resolve_left idle
      rw [targets] at joins
      cases first with
      | none => simp [LoopStateMachine.init, LoopStateMachine.targets] at joins
      | some target => simpa [LoopStateMachine.init, LoopStateMachine.targets] using joins
  · rintro ⟨returns, starts⟩ record member
    have kept := keeps.mpr returns record member
    refine ⟨kept, (replay_iff kept.path).mpr (starts.imp_right fun first => ?_)⟩
    obtain ⟨seen, nonempty, ⟨later, part⟩, targets⟩ := run_record calls _ record member
    cases seen with
    | nil => exact absurd rfl nonempty
    | cons f fs =>
      have retrain := first f (by
        show (calls.finishes (LoopStateMachine.init D initial actor).state).head? = some f
        rw [← part]
        rfl)
      rw [targets, retrain]
      simp [LoopStateMachine.init, LoopStateMachine.targets]

def requestTo (target : LoopState) : Request ℕ :=
  { newState := .loopState target, reason := "", now := 0 }

/-- Three legal calls; the sink of the promotion takes the machine back to `IDLE`. -/
def rejectedByTheSink : Calls ℕ String :=
  .call (requestTo .retrain) .done none <| .call (requestTo .validate) .done none <|
    .call (requestTo .promote) (.call (requestTo .idle) .done none .done) none .done

/-- The promotion is committed after the return to `IDLE`, and nothing has raised. -/
theorem rejectedByTheSink_illegal :
    ∃ record ∈ (run rejectedByTheSink (.init ℕ .idle "system")).2,
      record.after.history.map (fun t => (t.fromState, t.toState)) =
          [(.idle, .retrain), (.retrain, .validate), (.validate, .idle), (.validate, .promote)] ∧
        record.after.state = .promote ∧ ¬record.Legal .idle := by
  have last : (run rejectedByTheSink (.init ℕ .idle "system")).2[3]? = some _ := rfl
  refine ⟨_, List.mem_of_getElem? last, rfl, rfl, fun legal => ?_⟩
  have connected := legal.keeps.path.2.2.2.2.2.2.1
  cases connected

end HorizonRic.LoopStates
