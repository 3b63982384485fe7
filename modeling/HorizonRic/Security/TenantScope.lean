import HorizonRic.Evidence.Append

/-!
`security/tenant.py`: the context variable of the current tenant and the scope
objects that set and restore it. The restore token is kept in the scope object,
so all activations of one object share it.
-/
namespace HorizonRic.Tenant

open Py Evidence

/-- What `ContextVar.set` returns; `__exit__` drops it after one `reset`, so none is used twice. -/
structure Token where
  oldValue : Option String

structure TenantScope where
  tenantId : String
  nonempty : tenantId ≠ ""
  token : Option Token

/-- `__init__`. -/
def TenantScope.init : Value → Except PyErr TenantScope
  | .str tenantId =>
    if nonempty : tenantId ≠ "" then .ok ⟨tenantId, nonempty, none⟩ else .error .valueError
  | _ => .error .valueError

/-- `_CURRENT_TENANT` in the context of the task, and the scope objects. -/
structure State where
  current : Option String
  objects : ℕ → TenantScope

def State.withToken (s : State) (o : ℕ) (token : Option Token) : State :=
  { s with objects := fun i => if i = o then { s.objects o with token := token } else s.objects i }

/-- `__enter__`. -/
def State.enter (s : State) (o : ℕ) : State :=
  { s.withToken o (some ⟨s.current⟩) with current := some (s.objects o).tenantId }

/-- `__exit__`; it returns None, so no exception is suppressed. -/
def State.exit (s : State) (o : ℕ) : State :=
  match (s.objects o).token with
  | none => s
  | some token => { s.withToken o none with current := token.oldValue }

def State.aenter (s : State) (o : ℕ) : State := s.enter o

def State.aexit (s : State) (o : ℕ) : State := s.exit o

inductive Block where
  | sync
  | async

def Block.enter : Block → State → ℕ → State
  | sync => State.enter
  | async => State.aenter

def Block.exit : Block → State → ℕ → State
  | sync => State.exit
  | async => State.aexit

/-- A program of blocks over scope objects: what it does next may depend on `current_tenant()`
    and on the exceptions it catches. -/
inductive Program (ε : Type) where
  | skip
  | append (record : DecisionRecord)
  | currentTenant (next : Option String → Program ε)
  | raise (error : ε)
  | scope (block : Block) (o : ℕ) (body : Program ε)
  | seq (first second : Program ε)
  | attempt (body : Program ε) (handler : ε → Program ε)

/-- What a run shows of the tenant, beside the tenant of the innermost block around it (the
    tenant the program started in, where there is no block). -/
inductive Event where
  | current (innermost seen : Option String)
  | append (innermost : Option String) (record stamped : DecisionRecord)
  | left (before after : Option String)

/-- The innermost block decides what is seen and stamped, and a block leaves no trace. -/
def Event.Nests : Event → Prop
  | current innermost seen => seen = innermost
  | append innermost record stamped => stamped = stamp innermost record
  | left before after => after = before

structure Run (ε : Type) where
  state : State
  error : Option ε
  events : List Event

def Run.Nests {ε : Type} (run : Run ε) : Prop := ∀ event ∈ run.events, event.Nests

variable {ε : Type}

def exec : Program ε → Option String → State → Run ε
  | .skip, _, s => ⟨s, none, []⟩
  | .append record, innermost, s =>
    ⟨s, none, [.append innermost record (stamp s.current record)]⟩
  | .currentTenant next, innermost, s =>
    let run := exec (next s.current) innermost s
    { run with events := .current innermost s.current :: run.events }
  | .raise error, _, s => ⟨s, some error, []⟩
  | .scope block o body, _, s =>
    let run := exec body (some (s.objects o).tenantId) (block.enter s o)
    let after := block.exit run.state o
    ⟨after, run.error, run.events ++ [.left s.current after.current]⟩
  | .seq first second, innermost, s =>
    let run := exec first innermost s
    match run.error with
    | some _ => run
    | none =>
      let rest := exec second innermost run.state
      { rest with events := run.events ++ rest.events }
  | .attempt body handler, innermost, s =>
    let run := exec body innermost s
    match run.error with
    | none => run
    | some error =>
      let rest := exec (handler error) innermost run.state
      { rest with events := run.events ++ rest.events }

/-! The lexical reading: the tenant of a block is in force in its body and nowhere else. -/

section
variable (tenantId : ℕ → String)

/-- The exception that leaves the program, if any. -/
def Program.error : Program ε → Option String → Option ε
  | .skip, _ => none
  | .append _, _ => none
  | .currentTenant next, tenant => (next tenant).error tenant
  | .raise error, _ => some error
  | .scope _ o body, _ => body.error (some (tenantId o))
  | .seq first second, tenant =>
    match first.error tenant with
    | some error => some error
    | none => second.error tenant
  | .attempt body handler, tenant =>
    match body.error tenant with
    | none => none
    | some error => (handler error).error tenant

/-- The objects whose blocks are entered. -/
def Program.entered : Program ε → Option String → List ℕ
  | .skip, _ => []
  | .append _, _ => []
  | .currentTenant next, tenant => (next tenant).entered tenant
  | .raise _, _ => []
  | .scope _ o body, _ => o :: body.entered (some (tenantId o))
  | .seq first second, tenant =>
    first.entered tenant ++
      match first.error tenantId tenant with
      | some _ => []
      | none => second.entered tenant
  | .attempt body handler, tenant =>
    body.entered tenant ++
      match body.error tenantId tenant with
      | none => []
      | some error => (handler error).entered tenant

/-- A block whose object is entered again inside it starts in the tenant of that object. -/
def Program.ReentersInTenant : Program ε → Option String → Prop
  | .skip, _ => True
  | .append _, _ => True
  | .currentTenant next, tenant => (next tenant).ReentersInTenant tenant
  | .raise _, _ => True
  | .scope _ o body, tenant =>
    body.ReentersInTenant (some (tenantId o)) ∧
      (o ∈ body.entered tenantId (some (tenantId o)) → tenant = some (tenantId o))
  | .seq first second, tenant =>
    first.ReentersInTenant tenant ∧
      match first.error tenantId tenant with
      | some _ => True
      | none => second.ReentersInTenant tenant
  | .attempt body handler, tenant =>
    body.ReentersInTenant tenant ∧
      match body.error tenantId tenant with
      | none => True
      | some error => (handler error).ReentersInTenant tenant

end

/-! What the methods leave. -/

def State.tenantIds (s : State) (o : ℕ) : String := (s.objects o).tenantId

theorem withToken_tenantIds (s : State) (o : ℕ) (token : Option Token) :
    (s.withToken o token).tenantIds = s.tenantIds := by
  funext i
  unfold State.tenantIds State.withToken
  by_cases same : i = o
  · simp [same]
  · simp [same]

theorem withToken_token (s : State) (o i : ℕ) (token : Option Token) :
    ((s.withToken o token).objects i).token = if i = o then token else (s.objects i).token := by
  unfold State.withToken
  by_cases same : i = o
  · simp [same]
  · simp [same]

theorem block_enter (block : Block) : block.enter = State.enter := by
  cases block <;> rfl

theorem block_exit (block : Block) : block.exit = State.exit := by
  cases block <;> rfl

theorem enter_tenantIds (s : State) (o : ℕ) : (s.enter o).tenantIds = s.tenantIds :=
  withToken_tenantIds s o (some ⟨s.current⟩)

theorem enter_token (s : State) (o i : ℕ) :
    ((s.enter o).objects i).token = if i = o then some ⟨s.current⟩ else (s.objects i).token :=
  withToken_token s o i (some ⟨s.current⟩)

theorem exit_lost {s : State} {o : ℕ} (lost : (s.objects o).token = none) : s.exit o = s := by
  unfold State.exit
  rw [lost]

theorem exit_held {s : State} {o : ℕ} {token : Token} (held : (s.objects o).token = some token) :
    s.exit o = { s.withToken o none with current := token.oldValue } := by
  unfold State.exit
  rw [held]

theorem exit_tenantIds (s : State) (o : ℕ) : (s.exit o).tenantIds = s.tenantIds := by
  cases held : (s.objects o).token with
  | none => rw [exit_lost held]
  | some token =>
    rw [exit_held held]
    exact withToken_tenantIds s o none

theorem exit_token (s : State) (o i : ℕ) :
    ((s.exit o).objects i).token = if i = o then none else (s.objects i).token := by
  cases held : (s.objects o).token with
  | none =>
    rw [exit_lost held]
    by_cases same : i = o
    · simp [same, held]
    · simp [same]
  | some token =>
    rw [exit_held held]
    exact withToken_token s o i none

/-! A run whose blocks restore their tenants is the lexical reading. -/

/-- The run shows what the lexical reading says, and the tokens of the entered objects are gone. -/
structure ReadsAs (p : Program ε) (s : State) (run : Run ε) : Prop where
  nests : run.Nests
  error : run.error = p.error s.tenantIds s.current
  current : run.state.current = s.current
  tenantIds : run.state.tenantIds = s.tenantIds
  token : ∀ o, (run.state.objects o).token =
    if o ∈ p.entered s.tenantIds s.current then none else (s.objects o).token

/-- The run of one program continued by the run of another, as a program that is both. -/
theorem ReadsAs.continued {p q both : Program ε} {s : State} {run rest : Run ε}
    (first : ReadsAs p s run) (second : ReadsAs q run.state rest)
    (error : both.error s.tenantIds s.current = q.error s.tenantIds s.current)
    (entered : both.entered s.tenantIds s.current =
      p.entered s.tenantIds s.current ++ q.entered s.tenantIds s.current) :
    ReadsAs both s { rest with events := run.events ++ rest.events } := by
  have ids := first.tenantIds
  have same := first.current
  refine ⟨List.forall_mem_append.mpr ⟨first.nests, second.nests⟩, ?_, second.current.trans same,
    second.tenantIds.trans ids, ?_⟩
  · rw [error, ← ids, ← same]
    exact second.error
  · intro o
    have token := second.token o
    rw [ids, same, first.token] at token
    rw [token, entered]
    by_cases inFirst : o ∈ p.entered s.tenantIds s.current
    · simp [inFirst]
    · simp [inFirst]

theorem ReadsAs.alone {p both : Program ε} {s : State} {run : Run ε} (reads : ReadsAs p s run)
    (error : both.error s.tenantIds s.current = p.error s.tenantIds s.current)
    (entered : both.entered s.tenantIds s.current = p.entered s.tenantIds s.current) :
    ReadsAs both s run := by
  obtain ⟨nests, error', current, tenantIds, token⟩ := reads
  rw [← error] at error'
  rw [← entered] at token
  exact ⟨nests, error', current, tenantIds, token⟩

/-- What the exit of a block finds: the token of this activation, or none where the object has
    been entered again. -/
theorem exit_current {body : Program ε} {s : State} {o : ℕ} {run : Run ε}
    (reads : ReadsAs body (s.enter o) run) :
    (run.state.exit o).current =
      if o ∈ body.entered s.tenantIds (some (s.tenantIds o)) then some (s.tenantIds o)
      else s.current := by
  have token := reads.token o
  have current := reads.current
  rw [enter_tenantIds, enter_token, if_pos rfl] at token
  by_cases again : o ∈ body.entered s.tenantIds (some (s.tenantIds o))
  · rw [if_pos again]
    rw [exit_lost (token.trans (if_pos again)), current]
    rfl
  · rw [if_neg again, exit_held (token.trans (if_neg again))]

theorem ReadsAs.scope {body : Program ε} {s : State} {o : ℕ} {run : Run ε} (block : Block)
    (reads : ReadsAs body (s.enter o) run)
    (again : o ∈ body.entered s.tenantIds (some (s.tenantIds o)) →
      s.current = some (s.tenantIds o)) :
    ReadsAs (.scope block o body) s
      ⟨run.state.exit o, run.error,
        run.events ++ [.left s.current (run.state.exit o).current]⟩ := by
  have restored : (run.state.exit o).current = s.current := by
    rw [exit_current reads]
    split
    · rename_i member
      exact (again member).symm
    · rfl
  obtain ⟨nests, error, _, tenantIds, token⟩ := reads
  rw [enter_tenantIds] at error tenantIds token
  refine ⟨?_, error, restored, (exit_tenantIds _ o).trans tenantIds, ?_⟩
  · intro event member
    rcases List.mem_append.mp member with member | member
    · exact nests event member
    · rw [List.mem_singleton.mp member]
      exact restored
  · intro i
    rw [exit_token, token, enter_token]
    by_cases same : i = o
    · simp [same, Program.entered]
    · simp only [same, if_false, Program.entered, List.mem_cons, false_or]
      rfl

theorem exec_reads (p : Program ε) (s : State)
    (reenters : p.ReentersInTenant s.tenantIds s.current) :
    ReadsAs p s (exec p s.current s) := by
  induction p generalizing s with
  | skip => exact ⟨by simp [exec, Run.Nests], rfl, rfl, rfl, by simp [exec, Program.entered]⟩
  | append record =>
    exact ⟨by simp [exec, Run.Nests, Event.Nests], rfl, rfl, rfl, by simp [exec, Program.entered]⟩
  | currentTenant next ih =>
    obtain ⟨nests, error, current, tenantIds, token⟩ := ih s.current s reenters
    refine ⟨?_, error, current, tenantIds, token⟩
    intro event member
    rcases List.mem_cons.mp member with rfl | member
    · rfl
    · exact nests event member
  | raise error => exact ⟨by simp [exec, Run.Nests], rfl, rfl, rfl, by simp [exec, Program.entered]⟩
  | scope block o body ih =>
    obtain ⟨inner, again⟩ := reenters
    have reads := ih (s.enter o) (by rw [enter_tenantIds]; exact inner)
    unfold exec
    rw [block_enter, block_exit]
    exact reads.scope block again
  | seq first second ihFirst ihSecond =>
    obtain ⟨inner, rest⟩ := by simpa only [Program.ReentersInTenant] using reenters
    have reads := ihFirst s inner
    cases outcome : (exec first s.current s).error with
    | some e =>
      have error := reads.error.symm.trans outcome
      simp only [exec, outcome]
      exact reads.alone (by simp only [Program.error, error]) (by simp [Program.entered, error])
    | none =>
      have error := reads.error.symm.trans outcome
      simp only [error] at rest
      have later := ihSecond (exec first s.current s).state
        (by rw [reads.tenantIds, reads.current]; exact rest)
      rw [reads.current] at later
      simp only [exec, outcome]
      exact reads.continued later (by simp only [Program.error, error])
        (by simp only [Program.entered, error])
  | attempt body handler ihBody ihHandler =>
    obtain ⟨inner, rest⟩ := by simpa only [Program.ReentersInTenant] using reenters
    have reads := ihBody s inner
    cases outcome : (exec body s.current s).error with
    | none =>
      have error := reads.error.symm.trans outcome
      simp only [exec, outcome]
      exact reads.alone (by simp only [Program.error, error]) (by simp [Program.entered, error])
    | some e =>
      have error := reads.error.symm.trans outcome
      simp only [error] at rest
      have later := ihHandler e (exec body s.current s).state
        (by rw [reads.tenantIds, reads.current]; exact rest)
      rw [reads.current] at later
      simp only [exec, outcome]
      exact reads.continued later (by simp only [Program.error, error])
        (by simp only [Program.entered, error])

/-- A program that has taken over from another one: its run shows what the first run showed. -/
theorem seq_events (first second : Program ε) (innermost : Option String) (s : State) :
    ∃ later, (exec (.seq first second) innermost s).events =
      (exec first innermost s).events ++ later := by
  cases outcome : (exec first innermost s).error with
  | some e => exact ⟨[], by simp only [exec, outcome, List.append_nil]⟩
  | none =>
    simp only [exec, outcome]
    exact ⟨_, rfl⟩

theorem attempt_events (body : Program ε) (handler : ε → Program ε) (innermost : Option String)
    (s : State) : ∃ later, (exec (.attempt body handler) innermost s).events =
      (exec body innermost s).events ++ later := by
  cases outcome : (exec body innermost s).error with
  | none => exact ⟨[], by simp only [exec, outcome, List.append_nil]⟩
  | some e =>
    simp only [exec, outcome]
    exact ⟨_, rfl⟩

theorem Run.Nests.first {run both : Run ε} (nests : both.Nests)
    (events : ∃ later, both.events = run.events ++ later) : run.Nests := by
  obtain ⟨later, same⟩ := events
  unfold Run.Nests at nests
  rw [same] at nests
  exact (List.forall_mem_append.mp nests).1

/-- The program that takes over starts in the tenant of the first one. -/
theorem ReadsAs.reenters {p q : Program ε} {s : State} {run : Run ε} (reads : ReadsAs p s run)
    (ih : ∀ s : State, (exec q s.current s).Nests → q.ReentersInTenant s.tenantIds s.current)
    (nests : (exec q s.current run.state).Nests) : q.ReentersInTenant s.tenantIds s.current := by
  rw [← reads.current] at nests
  have later := ih run.state nests
  rwa [reads.tenantIds, reads.current] at later

/-- A run that nests has restored the tenant of every block, also where the token was lost. -/
theorem reenters_of_nests (p : Program ε) (s : State) (nests : (exec p s.current s).Nests) :
    p.ReentersInTenant s.tenantIds s.current := by
  induction p generalizing s with
  | skip => trivial
  | append record => trivial
  | currentTenant next ih => exact ih s.current s (List.forall_mem_cons.mp nests).2
  | raise error => trivial
  | scope block o body ih =>
    simp only [exec, block_enter, block_exit] at nests
    obtain ⟨inside, left⟩ := List.forall_mem_append.mp nests
    have inner := ih (s.enter o) inside
    have after := exit_current (exec_reads body (s.enter o) inner)
    rw [enter_tenantIds] at inner
    refine ⟨inner, fun again => ?_⟩
    rw [if_pos again] at after
    exact (left _ (List.mem_singleton_self _)).symm.trans after
  | seq first second ihFirst ihSecond =>
    have inner := ihFirst s (nests.first (seq_events first second s.current s))
    have reads := exec_reads first s inner
    simp only [Program.ReentersInTenant]
    refine ⟨inner, ?_⟩
    cases outcome : (exec first s.current s).error with
    | some e => simp only [reads.error.symm.trans outcome]
    | none =>
      simp only [exec, outcome] at nests
      simp only [reads.error.symm.trans outcome]
      exact reads.reenters ihSecond (List.forall_mem_append.mp nests).2
  | attempt body handler ihBody ihHandler =>
    have inner := ihBody s (nests.first (attempt_events body handler s.current s))
    have reads := exec_reads body s inner
    simp only [Program.ReentersInTenant]
    refine ⟨inner, ?_⟩
    cases outcome : (exec body s.current s).error with
    | none => simp only [reads.error.symm.trans outcome]
    | some e =>
      simp only [exec, outcome] at nests
      simp only [reads.error.symm.trans outcome]
      exact reads.reenters (ihHandler e) (List.forall_mem_append.mp nests).2

/-- The program in a context where `current` is in force. -/
def runFrom (objects : ℕ → TenantScope) (current : Option String) (p : Program ε) : Run ε :=
  exec p current ⟨current, objects⟩

/-- Blocks nest in exactly the programs where a block whose scope object is entered again inside
    it starts in the tenant of that object, whatever tokens the objects hold at the start. -/
theorem tenantScope_nests_iff (objects : ℕ → TenantScope) (current : Option String)
    (p : Program ε) :
    (runFrom objects current p).Nests ↔
      p.ReentersInTenant (fun o => (objects o).tenantId) current :=
  ⟨fun nests => reenters_of_nests p ⟨current, objects⟩ nests,
    fun reenters => (exec_reads p ⟨current, objects⟩ reenters).nests⟩

/-- One object entered twice, and an append after both blocks. -/
def appendAfterReentry : Program PyErr :=
  .seq (.scope .sync 0 (.scope .sync 0 .skip)) (.append (sampleRecord (.fin 0) "d-1" none))

/-- The append outside any scope is stamped with the tenant of the scope that has ended. -/
theorem appendAfterReentry_leaks : ∃ scope, TenantScope.init (.str "tenant_a") = .ok scope ∧
    .append none (sampleRecord (.fin 0) "d-1" none) (sampleRecord (.fin 0) "d-1" (some "tenant_a"))
      ∈ (runFrom (fun _ => scope) none appendAfterReentry).events ∧
    ¬(runFrom (fun _ => scope) none appendAfterReentry).Nests := by
  refine ⟨⟨"tenant_a", by decide, none⟩, rfl, ?_, fun nests => ?_⟩
  · exact List.mem_append_right _ (List.mem_singleton_self _)
  · have left := nests (.left none (some "tenant_a"))
      (List.mem_append_left _ (List.mem_append_right _ (List.mem_singleton_self _)))
    cases left

end HorizonRic.Tenant
