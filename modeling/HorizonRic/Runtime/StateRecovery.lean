import HorizonRic.Library.DurableFiles
import HorizonRic.Library.FallibleProgram
import HorizonRic.Python.JsonObjects
import HorizonRic.Rapp.LifecycleState

/-!
`save_state` of `runtime/state_recovery.py`: the state goes to a temporary file,
which is synced and renamed into place. Every step may fail or crash, and what
`load_state` finds afterwards is the old file or the whole new one.
-/
namespace HorizonRic.StateRecovery

open Py Json DurableFiles FallibleProgram Rapp

/-- The bytes of a file: a text, or none that UTF-8 decodes. -/
inductive FileContent where
  | text (s : String)
  | undecodable

/-- What `load_state` meets at the path. -/
def stateFile : Option FileContent → StateFile
  | none => .missing
  | some .undecodable => .unreadable
  | some (.text s) => .text s

/-- `except Exception` does not catch these. -/
def isException (e : PyErr) : Bool :=
  e.name != "KeyboardInterrupt" && e.name != "SystemExit" && e.name != "GeneratorExit"

def isOSError (e : PyErr) : Bool := e == .other "OSError"

/-- What becomes of each step. While it is written the temporary file holds `dumped`, and where
    the block is left by an exception, `close` leaves `closed` in it. -/
structure Fates where
  mkdir : Fate PyErr
  mkstemp : Fate PyErr
  fdopen : Fate PyErr
  dump : Fate PyErr
  dumped : FileContent
  flush : Fate PyErr
  fsync : Fate PyErr
  close : Fate PyErr
  closed : FileContent
  replace : Fate PyErr
  openDir : Fate PyErr
  fsyncDir : Fate PyErr
  closeDir : Fate PyErr
  logSaved : Fate PyErr
  logFailed : Fate PyErr
  unlink : Fate PyErr

variable {Name : Type}

abbrev Files (Name : Type) : Type := Disk Name FileContent

section
variable (py : Interpreter) (fates : Fates) (state : List (Key × Object)) (path temp : Name) (i : ℕ)

/-- The body of `with os.fdopen`. -/
def writeBody : Program (Files Name) PyErr :=
  (Program.attempt fates.dump fun disk => disk.write i fates.dumped).andThen
    (match dumpText py compact (.dict state) with
    | .error e => Program.throw e
    | .ok text =>
      (Program.attempt fates.flush fun disk => disk.write i (.text text)).andThen
        (Program.attempt fates.fsync fun disk => disk.fsync i))

/-- Leaving the `with` block closes the file. After an exception that writes what was buffered. -/
def closeTemp : Verdict PyErr → Program (Files Name) PyErr
  | .done => Program.attempt fates.close id
  | _ => Program.attempt fates.close fun disk => disk.write i fates.closed

def writeTemp : Program (Files Name) PyErr :=
  (Program.attempt fates.fdopen id).andThen
    ((writeBody py fates state i).ensuring (closeTemp fates i))

/-- The sync of the directory is tried, and OSError and AttributeError are ignored. -/
def syncParent : Program (Files Name) PyErr :=
  ((Program.attempt fates.openDir id).andThen
    ((Program.attempt fates.fsyncDir Disk.fsyncDir).ensuring fun _ =>
      Program.attempt fates.closeDir id)).catching
    (fun e => isOSError e || e == .attributeError) fun _ => Program.pass

variable [DecidableEq Name]

/-- `except Exception`: the failure is logged, the temporary file goes, and the exception is
    raised again. -/
def cleanUp (e : PyErr) : Program (Files Name) PyErr :=
  (Program.attempt fates.logFailed id).andThen
    (((Program.attempt fates.unlink fun disk => disk.unlink temp).catching isOSError
      fun _ => Program.pass).andThen (Program.throw e))

/-- `save_state`, whose temporary file has the name `temp` and the inode `i`. -/
def saveState : Program (Files Name) PyErr :=
  (Program.attempt fates.mkdir id).andThen
    ((Program.attempt fates.mkstemp fun disk => disk.create temp i (.text "")).andThen
      (((writeTemp py fates state i).andThen
        ((Program.attempt fates.replace fun disk => disk.rename temp path).andThen
          ((syncParent fates).andThen (Program.attempt fates.logSaved id)))).catching isException
        (cleanUp fates temp)))

end

/-- What is found under the names afterwards: after a crash, what the disk has kept. -/
def Found (ended : Files Name × Verdict PyErr) (files : Name → Option FileContent) : Prop :=
  match ended.2 with
  | .crashed => ended.1.Leaves files
  | _ => files = ended.1.view

/-- The state has a text, and it was written, synced and closed. -/
structure TempWritten (py : Interpreter) (fates : Fates) (state : List (Key × Object)) : Prop where
  mkdir : fates.mkdir = .done
  mkstemp : fates.mkstemp = .done
  fdopen : fates.fdopen = .done
  dump : fates.dump = .done
  text : ∃ text, dumpText py compact (.dict state) = .ok text
  flush : fates.flush = .done
  fsync : fates.fsync = .done
  close : fates.close = .done

/-! The states of the disk that the program goes through. -/

section
variable (py : Interpreter) (fates : Fates) (state : List (Key × Object)) (path temp : Name) (i : ℕ)
  (old : Option FileContent)

/-- The path holds its old content, and the temporary file is there. -/
def Writing (disk : Files Name) : Prop := HoldsOld disk path i old ∧ disk.dir temp = some i

/-- And the temporary file holds the whole text. -/
def Flushed (disk : Files Name) : Prop :=
  Writing path temp i old disk ∧
    ∃ text, dumpText py compact (.dict state) = .ok text ∧ disk.data i = .text text

/-- And it is durable. -/
def Synced (disk : Files Name) : Prop :=
  Flushed py state path temp i old disk ∧ disk.synced i = true ∧ TempWritten py fates state

/-- The path holds the text of the state, which was written without failure. -/
def Renamed (disk : Files Name) : Prop :=
  TempWritten py fates state ∧ ∃ text, dumpText py compact (.dict state) = .ok text ∧
    HoldsNew disk path i old (.text text)

/-- The path holds the one or the other. -/
def Safe (disk : Files Name) : Prop :=
  HoldsOld disk path i old ∨ Renamed py fates state path i old disk

end

section
variable {py : Interpreter} {fates : Fates} {state : List (Key × Object)} {path temp : Name} {i : ℕ}
  {old : Option FileContent}

theorem Writing.write {disk : Files Name} (writing : Writing path temp i old disk)
    (content : FileContent) : Writing path temp i old (disk.write i content) :=
  ⟨writing.1.write content, writing.2⟩

theorem Writing.fsync {disk : Files Name} (writing : Writing path temp i old disk) :
    Writing path temp i old (disk.fsync i) := ⟨writing.1.fsync, writing.2⟩

theorem Renamed.fsyncDir {disk : Files Name} (renamed : Renamed py fates state path i old disk) :
    Renamed py fates state path i old disk.fsyncDir := by
  obtain ⟨written, text, dumped, holds⟩ := renamed
  exact ⟨written, text, dumped, holds.fsyncDir⟩

/-! What each block reaches. -/

/-- The steps of the body that were done, and what they leave in the temporary file. -/
structure BodyDone (py : Interpreter) (fates : Fates) (state : List (Key × Object))
    (path temp : Name) (i : ℕ) (old : Option FileContent) (disk : Files Name) : Prop where
  flushed : Flushed py state path temp i old disk
  synced : disk.synced i = true
  dumpDone : fates.dump = .done
  flushDone : fates.flush = .done
  fsyncDone : fates.fsync = .done

theorem writeBody_reaches : (writeBody py fates state i).Reaches (Writing path temp i old)
    (Writing path temp i old) (BodyDone py fates state path temp i old) := by
  refine Program.reaches_attempt_then (fun _ writing => writing) (fun _ writing => writing.write _)
    (fun _ writing => writing.write _) fun dumpDone => ?_
  split
  · exact Program.reaches_throw fun _ writing => writing
  · rename_i text dumped
    have flushed : ∀ disk : Files Name, Writing path temp i old disk →
        Flushed py state path temp i old (disk.write i (.text text)) := fun _ writing =>
      ⟨writing.write _, text, dumped, Function.update_self i _ _⟩
    refine Program.reaches_attempt_then (fun _ writing => writing)
      (fun _ writing => writing.write _) flushed fun flushDone => ?_
    refine Program.reaches_attempt (fun _ flushed => flushed.1)
      (fun _ flushed => flushed.1.fsync) fun fsyncDone disk flushed => ?_
    exact ⟨⟨flushed.1.fsync, flushed.2⟩, Function.update_self i _ _, dumpDone, flushDone, fsyncDone⟩

theorem writeTemp_reaches (mkdirDone : fates.mkdir = .done) (mkstempDone : fates.mkstemp = .done) :
    (writeTemp py fates state i).Reaches (Writing path temp i old) (Writing path temp i old)
      (Synced py fates state path temp i old) := by
  refine Program.reaches_idle_then (fun _ writing => writing) fun fdopenDone => ?_
  refine writeBody_reaches.ensuring ?_ fun e => ?_
  · refine Program.reaches_attempt (fun _ body => body.flushed.1) (fun _ body => body.flushed.1)
      fun closeDone disk body => ?_
    have text : ∃ text, dumpText py compact (.dict state) = .ok text := by
      obtain ⟨_, text, dumped, _⟩ := body.flushed
      exact ⟨text, dumped⟩
    exact ⟨body.flushed, body.synced, mkdirDone, mkstempDone, fdopenDone, body.dumpDone, text,
      body.flushDone, body.fsyncDone, closeDone⟩
  · exact Program.reaches_attempt (fun _ writing => writing) (fun _ writing => writing.write _)
      fun _ _ writing => writing.write _

theorem syncParent_reaches : (syncParent fates).Reaches (Renamed py fates state path i old)
    (Renamed py fates state path i old) (Renamed py fates state path i old) := by
  have kept : ∀ disk : Files Name, Renamed py fates state path i old disk →
      Renamed py fates state path i old disk := fun _ renamed => renamed
  have synced : ∀ disk : Files Name, Renamed py fates state path i old disk →
      Renamed py fates state path i old disk.fsyncDir := fun _ renamed => renamed.fsyncDir
  refine (Program.reaches_idle_then kept fun _ => ?_).catching fun _ =>
    Program.reaches_pass kept kept
  exact (Program.reaches_attempt kept synced fun _ => synced).ensuring
    (Program.reaches_attempt kept kept fun _ => kept)
    fun _ => Program.reaches_attempt kept kept fun _ => kept

variable [DecidableEq Name]

theorem Synced.rename {disk : Files Name} (synced : Synced py fates state path temp i old disk)
    (apart : path ≠ temp) : Renamed py fates state path i old (disk.rename temp path) := by
  obtain ⟨⟨⟨holds, there⟩, text, dumped, data⟩, durable, written⟩ := synced
  exact ⟨written, text, dumped, holds.rename apart there durable data⟩

theorem Safe.unlink {disk : Files Name} (safe : Safe py fates state path i old disk)
    (apart : path ≠ temp) : Safe py fates state path i old (disk.unlink temp) := by
  rcases safe with holds | ⟨written, text, dumped, holds⟩
  · exact Or.inl (holds.unlink apart)
  · exact Or.inr ⟨written, text, dumped, holds.unlink apart⟩

theorem cleanUp_reaches (apart : path ≠ temp) (e : PyErr) :
    (cleanUp fates temp e).Reaches (Safe py fates state path i old)
      (Safe py fates state path i old) (Renamed py fates state path i old) := by
  have kept : ∀ disk : Files Name, Safe py fates state path i old disk →
      Safe py fates state path i old disk := fun _ safe => safe
  have gone : ∀ disk : Files Name, Safe py fates state path i old disk →
      Safe py fates state path i old (disk.unlink temp) := fun _ safe => safe.unlink apart
  refine Program.reaches_idle_then kept fun _ => ?_
  exact ((Program.reaches_attempt kept gone fun _ => gone).catching fun _ =>
    Program.reaches_pass kept kept).andThen (Program.reaches_throw kept)

/-- Whatever fails, the path holds the old content or the new, and if `save_state` returns it is
    the new. -/
theorem saveState_reaches (apart : path ≠ temp) : (saveState py fates state path temp i).Reaches
    (fun disk => HoldsOld disk path i old) (Safe py fates state path i old)
    (Renamed py fates state path i old) := by
  have created : ∀ disk : Files Name, HoldsOld disk path i old →
      Writing path temp i old (disk.create temp i (.text "")) := fun _ holds =>
    ⟨holds.create apart _, Function.update_self temp _ _⟩
  refine Program.reaches_idle_then (fun _ holds => Or.inl holds) fun mkdirDone => ?_
  refine Program.reaches_attempt_then (fun _ holds => Or.inl holds)
    (fun disk holds => Or.inl (created disk holds).1) created fun mkstempDone => ?_
  refine Program.Reaches.catching ?_ (cleanUp_reaches apart)
  have written : (writeTemp py fates state i).Reaches (Writing path temp i old)
      (Safe py fates state path i old) (Synced py fates state path temp i old) :=
    (writeTemp_reaches mkdirDone mkstempDone).weaken fun _ writing => Or.inl writing.1
  refine written.andThen ?_
  refine Program.reaches_attempt_then (fun _ synced => Or.inl synced.1.1.1)
    (fun _ synced => Or.inr (synced.rename apart)) (fun _ synced => synced.rename apart) fun _ => ?_
  refine (syncParent_reaches.weaken fun _ renamed => Or.inr renamed).andThen ?_
  exact Program.reaches_attempt (fun _ renamed => Or.inr renamed) (fun _ renamed => Or.inr renamed)
    fun _ _ renamed => renamed

/-! What `load_state` finds. -/

/-- `load_state` gives the JSON form of the state. -/
def LoadsNew (py : Interpreter) (state : List (Key × Object)) (found : Option FileContent) : Prop :=
  ∃ d, jsonForm py (.dict state) = .ok (.dict d) ∧ loadState py (stateFile found) = .ok (some d)

omit [DecidableEq Name] in
/-- Of a state of JSON values it is the text that the lifecycle hands over. -/
theorem dumpText_lifecycle (d : Dict Value) :
    dumpText py compact (Object.ofValue (.dict d)) = Rapp.saveState py d :=
  dumpText_ofValue py compact (.dict d)

omit [DecidableEq Name] in
theorem loadState_dumped (held : ∀ v, jsonForm py (.dict state) = .ok v → Held py v) {text : String}
    (dumped : dumpText py compact (.dict state) = .ok text) :
    LoadsNew py state (some (.text text)) := by
  obtain ⟨v, form, printed, loaded⟩ := loads_dumpText py compact_plain held dumped
  obtain ⟨d, rfl⟩ := jsonForm_dict py form
  have unspaced := strip_print_dict py compact d (List.forall_mem_nil _) (List.forall_mem_nil _)
  rw [List.nil_append, List.append_nil] at unspaced
  have solid : strip text.toList ≠ [] := by
    rw [printed, String.toList_ofList, unspaced]
    exact List.cons_ne_nil _ _
  refine ⟨d, form, ?_⟩
  rw [stateFile, loadState, if_neg solid, loaded]

omit [DecidableEq Name] in
theorem found_old {ended : Files Name × Verdict PyErr} (holds : HoldsOld ended.1 path i old)
    {files : Name → Option FileContent} (found : Found ended files) : files path = old := by
  unfold Found at found
  split at found
  · exact holds.left found
  · rw [found]
    exact holds.view

omit [DecidableEq Name] in
theorem found_new {ended : Files Name × Verdict PyErr}
    (held : ∀ v, jsonForm py (.dict state) = .ok v → Held py v)
    (renamed : Renamed py fates state path i old ended.1) {files : Name → Option FileContent}
    (found : Found ended files) :
    (files path = old ∨ LoadsNew py state (files path)) ∧
      (ended.2 = .done → LoadsNew py state (files path)) := by
  obtain ⟨_, text, dumped, holds⟩ := renamed
  have loads := loadState_dumped held dumped
  unfold Found at found
  split at found
  · rename_i crashed
    refine ⟨?_, fun done => ?_⟩
    · rcases holds.left found with same | new
      · exact Or.inl same
      · exact Or.inr (new ▸ loads)
    · rw [crashed] at done
      cases done
  · rw [found, holds.view]
    exact ⟨Or.inr loads, fun _ => loads⟩

end

/-- After `save_state`, whichever of its steps failed or crashed, `load_state` gives what it gave
    before or the JSON form of the new state: the new one where `save_state` returned, the old one
    where the state was not written and synced. The path's old content is durable, in another file
    than the new temporary one. -/
theorem saveState_atomic {Name : Type} [DecidableEq Name] (py : Interpreter) (fates : Fates)
    (state : List (Key × Object)) {path temp : Name} {i : ℕ} {disk : Files Name}
    (held : ∀ v, jsonForm py (.dict state) = .ok v → Held py v) (apart : path ≠ temp)
    (durable : HoldsOld disk path i (disk.view path)) {files : Name → Option FileContent}
    (found : Found (saveState py fates state path temp i disk) files) :
    (loadState py (stateFile (files path)) = loadState py (stateFile (disk.view path)) ∨
        LoadsNew py state (files path)) ∧
      ((saveState py fates state path temp i disk).2 = .done → LoadsNew py state (files path)) ∧
      (¬TempWritten py fates state →
        loadState py (stateFile (files path)) = loadState py (stateFile (disk.view path))) := by
  have reaches : (saveState py fates state path temp i).Reaches
      (fun disk' => HoldsOld disk' path i (disk.view path))
      (Safe py fates state path i (disk.view path))
      (Renamed py fates state path i (disk.view path)) := saveState_reaches apart
  obtain ⟨safe, done⟩ := reaches disk durable
  refine ⟨?_, fun returned => ?_, fun notWritten => ?_⟩
  · rcases safe with holds | renamed
    · exact Or.inl (congrArg (fun c => loadState py (stateFile c)) (found_old holds found))
    · rcases (found_new held renamed found).1 with same | new
      · exact Or.inl (congrArg (fun c => loadState py (stateFile c)) same)
      · exact Or.inr new
  · exact (found_new held (done returned) found).2 returned
  · rcases safe with holds | renamed
    · exact congrArg (fun c => loadState py (stateFile c)) (found_old holds found)
    · exact absurd renamed.1 notWritten

/-- An interpreter whose state holds no number. -/
def stateInterpreter : Interpreter where
  floatOfStr _ := none
  intOfStr _ := none
  floatRepr _ := ""
  strRepr s := s
  log10 _ := 0

def allDone : Fates :=
  ⟨.done, .done, .done, .done, .undecodable, .done, .done, .done, .undecodable, .done, .done, .done,
    .done, .done, .done, .done⟩

def emptyDisk : Files String := ⟨fun _ => none, [], fun _ => .undecodable, fun _ => false⟩

def activeState : List (Key × Object) := [(.str "rapp_state", .str "ACTIVE")]

/-- A first save that returns. -/
theorem saveState_atomic_first : LoadsNew stateInterpreter activeState
    ((saveState stateInterpreter allDone activeState "state.json" "state.json.tmp" 0
      emptyDisk).1.view "state.json") := by
  have held : ∀ v, jsonForm stateInterpreter (.dict activeState) = .ok v →
      Held stateInterpreter v := by
    intro v form _
    cases form
    rw [readable_dict]
    simp [Readable]
  have durable : HoldsOld emptyDisk "state.json" 0 (emptyDisk.view "state.json") := by
    intro dir among
    rw [List.mem_singleton.mp among]
    exact rfl
  have found : Found (saveState stateInterpreter allDone activeState "state.json" "state.json.tmp" 0
      emptyDisk) (saveState stateInterpreter allDone activeState "state.json" "state.json.tmp" 0
        emptyDisk).1.view := rfl
  have apart : "state.json" ≠ "state.json.tmp" := by decide
  exact (saveState_atomic stateInterpreter allDone activeState held apart durable found).2.1 rfl

end HorizonRic.StateRecovery
