import HorizonRic.Python.JsonCanonical
import HorizonRic.Python.Bytes
import Mathlib.Logic.Function.Basic

/-!
`runtime/artefact_vault.py`: artefacts stored under the hash of their bytes. The
vault directory may hold anything when a call begins; each step of `store` may
be refused by the operating system, a write also in the middle.
-/
namespace HorizonRic.Vault

open Py Json

/-- What stands at a path: a file, or something that opening it for reading or writing fails on. -/
inductive Node where
  | file (content : Bytes)
  | unopenable (error : PyErr)

/-- A path under the root. -/
structure Path where
  dir : String
  name : String
  deriving DecidableEq

abbrev Files := Path → Option Node

def validSha (sha : String) : Bool := sha.toList.length == 64 && sha.toList.all hexDigits.contains

def pathIn (sha suffix : String) : Path := ⟨String.ofList (sha.toList.take 2), sha ++ suffix⟩

def binPath (sha : String) : Path := pathIn sha ".bin"
def tmpPath (sha : String) : Path := pathIn sha ".bin.tmp"
def metaPath (sha : String) : Path := pathIn sha ".meta.json"

/-- `_paths_for`. -/
def pathsFor (sha : String) : Except PyErr (Path × Path) :=
  if validSha sha then .ok (binPath sha, metaPath sha) else .error .valueError

def readBytes (files : Files) (path : Path) : Except PyErr Bytes :=
  match files path with
  | some (.file content) => .ok content
  | some (.unopenable error) => .error error
  | none => .error (.other "FileNotFoundError")

/-- A write that stops with an exception leaves a part of the data. -/
structure PartialWrite where
  written : Bytes
  error : PyErr

def writeBytes (files : Files) (path : Path) (data : Bytes) (fault : Option PartialWrite) :
    Files × Except PyErr Unit :=
  match files path with
  | some (.unopenable error) => (files, .error error)
  | _ =>
    match fault with
    | some stopped => (Function.update files path (some (.file stopped.written)), .error stopped.error)
    | none => (Function.update files path (some (.file data)), .ok ())

/-- `Path.replace`, of a file onto a path where nothing stands. -/
def replace (files : Files) (source target : Path) : Files :=
  Function.update (Function.update files target (files source)) source none

/-- What the operating system refuses in one call, and a value in `extra` that JSON cannot hold. -/
structure Faults where
  mkdir : Option PyErr := none
  write : Option PartialWrite := none
  replace : Option PyErr := none
  extra : Option PyErr := none
  writeMeta : Option PartialWrite := none

/-- The arguments beside the bytes, and the time of the call. -/
structure StoreArgs where
  label : Option String := none
  extra : Option (Dict Value) := none
  now : String

section
variable (py : Interpreter) (sha256 : Bytes → Digest)

/-- `asdict(meta)`. -/
def metaDict (sha : String) (size : ℕ) (args : StoreArgs) : Dict Value :=
  [("sha256", .str sha), ("size_bytes", .int size), ("stored_at", .str args.now),
    ("label", match args.label with | some label => .str label | none => .null),
    ("extra", .dict (args.extra.getD []))]

def metaText (sha : String) (size : ℕ) (args : StoreArgs) (faults : Faults) :
    Except PyErr String :=
  match faults.extra with
  | some error => .error error
  | none => dumps py compact (.dict (metaDict sha size args))

/-- The artefact, written unless something stands at its path. -/
def writeArtefact (files : Files) (sha : String) (modelBytes : Bytes) (faults : Faults) :
    Files × Except PyErr Unit :=
  if (files (binPath sha)).isSome then (files, .ok ())
  else
    match writeBytes files (tmpPath sha) modelBytes faults.write with
    | (files, .error error) => (files, .error error)
    | (files, .ok ()) =>
      match faults.replace with
      | some error => (files, .error error)
      | none => (replace files (tmpPath sha) (binPath sha), .ok ())

/-- The metadata, written at every store. -/
def writeMetadata (files : Files) (sha : String) (size : ℕ) (args : StoreArgs) (faults : Faults) :
    Files × Except PyErr Unit :=
  match metaText py sha size args faults with
  | .error error => (files, .error error)
  | .ok text => writeBytes files (metaPath sha) (utf8 text) faults.writeMeta

/-- `store`: the files after it, and the hash it returns. -/
def store (files : Files) (modelBytes : Bytes) (args : StoreArgs) (faults : Faults) :
    Files × Except PyErr String :=
  let sha := (sha256 modelBytes).hex
  match pathsFor sha, faults.mkdir with
  | .error error, _ => (files, .error error)
  | .ok _, some error => (files, .error error)
  | .ok _, none =>
    match writeArtefact files sha modelBytes faults with
    | (files, .error error) => (files, .error error)
    | (files, .ok ()) =>
      match writeMetadata py files sha modelBytes.length args faults with
      | (files, .error error) => (files, .error error)
      | (files, .ok ()) => (files, .ok sha)

/-- `retrieve`. -/
def retrieve (files : Files) (sha : String) : Except PyErr Bytes := do
  let (binPath, _) ← pathsFor sha
  if (files binPath).isNone then .error (.other "FileNotFoundError")
  else do
    let data ← readBytes files binPath
    let actual := (sha256 data).hex
    if actual ≠ sha then .error (.other "IntegrityError")
    else .ok data

/-- What storing `b` in this vault guarantees, whatever the arguments and faults. -/
structure StoreGuarantees (files : Files) (b : Bytes) : Prop where
  retrieves : ∀ args faults after s, store py sha256 files b args faults = (after, .ok s) →
    retrieve sha256 after s = .ok b
  others : ∀ args faults after result s', store py sha256 files b args faults = (after, result) →
    s' ≠ (sha256 b).hex → retrieve sha256 after s' = retrieve sha256 files s'
  honest : ∀ s data, retrieve sha256 files s = .ok data → (sha256 data).hex = s

end

/-! Hashes and paths. -/

theorem hexDigit_mem : ∀ n < 16, hexDigits.contains (hexDigit n) = true := by decide

theorem validSha_hex (d : Digest) : validSha d.hex = true := by
  have length : (d.bytes.flatMap hexByte).length = 2 * d.bytes.length := by
    induction d.bytes with
    | nil => rfl
    | cons b bytes ih =>
      simp only [List.flatMap_cons, List.length_append, ih, hexByte, List.length_cons,
        List.length_nil]
      omega
  have digits : (d.bytes.flatMap hexByte).all hexDigits.contains = true := by
    rw [List.all_eq_true]
    intro c member
    obtain ⟨b, _, part⟩ := List.mem_flatMap.mp member
    have bound : b.toNat < 256 := b.toNat_lt
    simp only [hexByte, List.mem_cons, List.not_mem_nil, or_false] at part
    rcases part with rfl | rfl
    · exact hexDigit_mem _ (by omega)
    · exact hexDigit_mem _ (by omega)
  unfold validSha Digest.hex
  rw [String.toList_ofList, digits, length, d.size]
  rfl

theorem pathsFor_hex (d : Digest) : pathsFor d.hex = .ok (binPath d.hex, metaPath d.hex) :=
  if_pos (validSha_hex d)

theorem pathsFor_ok {sha : String} {paths : Path × Path} (given : pathsFor sha = .ok paths) :
    validSha sha = true ∧ paths = (binPath sha, metaPath sha) := by
  unfold pathsFor at given
  split at given
  · rename_i valid
    exact ⟨valid, (Except.ok.inj given).symm⟩
  · cases given

theorem validSha_length {sha : String} (valid : validSha sha = true) : sha.toList.length = 64 := by
  unfold validSha at valid
  rw [Bool.and_eq_true] at valid
  exact beq_iff_eq.mp valid.1

theorem pathIn_ne {sha sha' suffix suffix' : String} (valid : validSha sha = true)
    (valid' : validSha sha' = true) (differ : suffix.toList.length ≠ suffix'.toList.length) :
    pathIn sha suffix ≠ pathIn sha' suffix' := by
  intro same
  have names := congrArg (fun path => path.name.toList.length) same
  simp only [pathIn, String.toList_append, List.length_append, validSha_length valid,
    validSha_length valid'] at names
  omega

theorem binPath_injective {sha sha' : String} (same : binPath sha = binPath sha') : sha = sha' := by
  have names := congrArg (fun path => path.name.toList) same
  simp only [binPath, pathIn, String.toList_append] at names
  exact String.toList_inj.mp (List.append_cancel_right names)

theorem binPath_ne_tmpPath {sha sha' : String} (valid : validSha sha = true)
    (valid' : validSha sha' = true) : binPath sha ≠ tmpPath sha' :=
  pathIn_ne valid valid' (by decide)

theorem binPath_ne_metaPath {sha sha' : String} (valid : validSha sha = true)
    (valid' : validSha sha' = true) : binPath sha ≠ metaPath sha' :=
  pathIn_ne valid valid' (by decide)

theorem metaPath_ne_tmpPath {sha sha' : String} (valid : validSha sha = true)
    (valid' : validSha sha' = true) : metaPath sha ≠ tmpPath sha' :=
  pathIn_ne valid valid' (by decide)

/-! What a write and a store leave. -/

theorem writeBytes_other (files : Files) {path other : Path} (ne : other ≠ path) (data : Bytes)
    (fault : Option PartialWrite) : (writeBytes files path data fault).1 other = files other := by
  unfold writeBytes
  split
  · rfl
  · split
    · exact Function.update_of_ne ne _ _
    · exact Function.update_of_ne ne _ _

theorem writeBytes_ok {files after : Files} {path : Path} {data : Bytes}
    {fault : Option PartialWrite} (written : writeBytes files path data fault = (after, .ok ())) :
    after path = some (.file data) := by
  unfold writeBytes at written
  split at written
  · cases written
  · split at written
    · cases written
    · cases written
      exact Function.update_self _ _ _

theorem replace_target {files : Files} {source target : Path} (ne : target ≠ source) :
    replace files source target target = files source := by
  unfold replace
  rw [Function.update_of_ne ne, Function.update_self]

theorem replace_other {files : Files} {source target other : Path} (notSource : other ≠ source)
    (notTarget : other ≠ target) : replace files source target other = files other := by
  unfold replace
  rw [Function.update_of_ne notSource, Function.update_of_ne notTarget]

theorem writeArtefact_other (files : Files) {sha : String} (modelBytes : Bytes) (faults : Faults)
    {other : Path} (notTmp : other ≠ tmpPath sha) (notBin : other ≠ binPath sha) :
    (writeArtefact files sha modelBytes faults).1 other = files other := by
  unfold writeArtefact
  by_cases stands : (files (binPath sha)).isSome
  · rw [if_pos stands]
  · rw [if_neg stands]
    have kept := writeBytes_other files notTmp modelBytes faults.write
    cases written : writeBytes files (tmpPath sha) modelBytes faults.write with
    | mk files' result =>
      rw [written] at kept
      cases result with
      | error error => exact kept
      | ok done =>
        cases faults.replace with
        | some error => exact kept
        | none => exact (replace_other notTmp notBin).trans kept

/-- Something stands at the path already, or the artefact does afterwards. -/
theorem writeArtefact_ok {files after : Files} {sha : String} {modelBytes : Bytes}
    {faults : Faults} (valid : validSha sha = true)
    (written : writeArtefact files sha modelBytes faults = (after, .ok ())) :
    after (binPath sha) = some ((files (binPath sha)).getD (.file modelBytes)) := by
  unfold writeArtefact at written
  cases stands : files (binPath sha) with
  | some node =>
    rw [stands] at written
    cases written
    exact stands
  | none =>
    rw [stands] at written
    simp only [Option.isSome_none, Bool.false_eq_true, if_false] at written
    split at written
    · cases written
    · rename_i files' temporary
      split at written
      · cases written
      · cases written
        rw [replace_target (binPath_ne_tmpPath valid valid)]
        exact writeBytes_ok temporary

section
variable {py : Interpreter} {sha256 : Bytes → Digest} {files after : Files} {b : Bytes}
  {args : StoreArgs} {faults : Faults}

theorem writeMetadata_other (py : Interpreter) (files : Files) {sha : String} (size : ℕ)
    (args : StoreArgs) (faults : Faults) {other : Path} (ne : other ≠ metaPath sha) :
    (writeMetadata py files sha size args faults).1 other = files other := by
  unfold writeMetadata
  split
  · rfl
  · exact writeBytes_other files ne _ _

/-- Whatever it returns or raises, a store leaves every path but its own three alone. -/
theorem store_other (py : Interpreter) (files : Files) (args : StoreArgs) (faults : Faults)
    {other : Path} (notBin : other ≠ binPath (sha256 b).hex)
    (notTmp : other ≠ tmpPath (sha256 b).hex) (notMeta : other ≠ metaPath (sha256 b).hex) :
    (store py sha256 files b args faults).1 other = files other := by
  unfold store
  simp only [pathsFor_hex]
  cases faults.mkdir with
  | some error => rfl
  | none =>
    have artefact := writeArtefact_other files b faults notTmp notBin
    cases written : writeArtefact files (sha256 b).hex b faults with
    | mk files' result =>
      rw [written] at artefact
      cases result with
      | error error => exact artefact
      | ok done =>
        have metadata := writeMetadata_other py files' b.length args faults notMeta
        cases described : writeMetadata py files' (sha256 b).hex b.length args faults with
        | mk files'' result =>
          rw [described] at metadata
          simp only [described]
          cases result with
          | error error => exact metadata.trans artefact
          | ok done => exact metadata.trans artefact

/-- A store that returns has been through both writes. -/
theorem store_returned {s : String} (stored : store py sha256 files b args faults = (after, .ok s)) :
    s = (sha256 b).hex ∧ ∃ between,
      writeArtefact files (sha256 b).hex b faults = (between, .ok ()) ∧
        writeMetadata py between (sha256 b).hex b.length args faults = (after, .ok ()) := by
  unfold store at stored
  simp only [pathsFor_hex] at stored
  cases mkdir : faults.mkdir with
  | some error =>
    rw [mkdir] at stored
    cases stored
  | none =>
    rw [mkdir] at stored
    cases written : writeArtefact files (sha256 b).hex b faults with
    | mk between result =>
      cases result with
      | error error =>
        simp only [written] at stored
        cases stored
      | ok done =>
        simp only [written] at stored
        split at stored
        · cases stored
        · rename_i described
          cases stored
          exact ⟨rfl, between, rfl, described⟩

/-- Under the hash stands what stood there before, or else the artefact. -/
theorem store_ok {s : String} (stored : store py sha256 files b args faults = (after, .ok s)) :
    s = (sha256 b).hex ∧
      after (binPath s) = some ((files (binPath s)).getD (.file b)) := by
  obtain ⟨rfl, between, written, described⟩ := store_returned stored
  have valid := validSha_hex (sha256 b)
  have kept := writeMetadata_other py between b.length args faults
    (binPath_ne_metaPath valid valid)
  rw [described] at kept
  exact ⟨rfl, kept.trans (writeArtefact_ok valid written)⟩

theorem retrieve_congr {files' : Files} {s : String}
    (same : validSha s = true → files' (binPath s) = files (binPath s)) :
    retrieve sha256 files' s = retrieve sha256 files s := by
  unfold retrieve
  cases given : pathsFor s with
  | error error => rfl
  | ok paths =>
    obtain ⟨valid, rfl⟩ := pathsFor_ok given
    simp only [ok_bind, readBytes, same valid]

theorem retrieve_ok {s : String} {data : Bytes} (got : retrieve sha256 files s = .ok data) :
    files (binPath s) = some (.file data) ∧ (sha256 data).hex = s := by
  unfold retrieve at got
  obtain ⟨paths, given, got⟩ := bind_eq_ok got
  obtain ⟨_, rfl⟩ := pathsFor_ok given
  cases stands : files (binPath s) with
  | none => simp [stands] at got
  | some node =>
    cases node with
    | unopenable error => simp [stands, readBytes, bind, Except.bind] at got
    | file content =>
      simp only [stands, readBytes, Option.isNone_some, Bool.false_eq_true, if_false,
        ok_bind] at got
      by_cases differs : (sha256 content).hex ≠ s
      · rw [if_pos differs] at got
        cases got
      · rw [if_neg differs] at got
        cases got
        exact ⟨rfl, not_not.mp differs⟩

theorem retrieve_stored (stands : files (binPath (sha256 b).hex) = some (.file b)) :
    retrieve sha256 files (sha256 b).hex = .ok b := by
  unfold retrieve
  rw [pathsFor_hex, ok_bind]
  simp [stands, readBytes, ok_bind]

/-- The store of these bytes cannot return: its metadata file cannot be opened, or the length is
    one that `json.dumps` does not print. -/
def Unstorable (files : Files) (sha256 : Bytes → Digest) (b : Bytes) : Prop :=
  (∃ error, files (metaPath (sha256 b).hex) = some (.unopenable error)) ∨
    intDigitsOk b.length = false

theorem writeMetadata_unstorable (py : Interpreter) (args : StoreArgs) (faults : Faults)
    {files' : Files} (unstorable : Unstorable files sha256 b)
    (same : files' (metaPath (sha256 b).hex) = files (metaPath (sha256 b).hex)) :
    ∃ error, (writeMetadata py files' (sha256 b).hex b.length args faults).2 = .error error := by
  unfold writeMetadata
  rcases unstorable with ⟨error, stands⟩ | long
  · cases metaText py (sha256 b).hex b.length args faults with
    | error error => exact ⟨error, rfl⟩
    | ok text =>
      refine ⟨error, ?_⟩
      unfold writeBytes
      rw [same, stands]
  · have unprinted : (Value.dict (metaDict (sha256 b).hex b.length args)).digitsOk ≠ true := by
      rw [Value.digitsOk, ne_eq, digitsOkItems_iff]
      intro all
      have size := all ("size_bytes", .int b.length) (by simp [metaDict])
      rw [Value.digitsOk, long] at size
      cases size
    unfold metaText dumps
    rw [if_neg unprinted]
    cases faults.extra with
    | some error => exact ⟨error, rfl⟩
    | none => exact ⟨.valueError, rfl⟩

theorem metaText_ok (py : Interpreter) (sha : String) {size : ℕ} (short : intDigitsOk size = true) :
    ∃ text, metaText py sha size { now := "" } {} = .ok text := by
  have digits : (Value.dict (metaDict sha size { now := "" })).digitsOk = true := by
    rw [Value.digitsOk, digitsOkItems_iff]
    simp [metaDict, Value.digitsOk, Value.digitsOkItems, short]
  unfold metaText dumps
  rw [if_pos digits]
  exact ⟨_, rfl⟩

theorem writeBytes_opened {path : Path} (data : Bytes)
    (opens : ∀ error, files path ≠ some (.unopenable error)) :
    ∃ after, writeBytes files path data none = (after, .ok ()) := by
  unfold writeBytes
  split
  · rename_i error stands
    exact absurd stands (opens error)
  · exact ⟨_, rfl⟩

theorem store_unstorable {s : String} (unstorable : Unstorable files sha256 b) :
    store py sha256 files b args faults ≠ (after, .ok s) := by
  intro stored
  obtain ⟨_, between, written, described⟩ := store_returned stored
  have valid := validSha_hex (sha256 b)
  have kept := writeArtefact_other files b faults (metaPath_ne_tmpPath valid valid)
    (binPath_ne_metaPath valid valid).symm
  rw [written] at kept
  obtain ⟨error, refused⟩ := writeMetadata_unstorable py args faults unstorable kept
  rw [described] at refused
  cases refused

/-- Where something stands at the path, a store without faults returns and leaves it there. -/
theorem store_skips (py : Interpreter) {node : Node} (stands : files (binPath (sha256 b).hex) = some node)
    (storable : ¬Unstorable files sha256 b) :
    ∃ after, store py sha256 files b { now := "" } {} = (after, .ok (sha256 b).hex) := by
  obtain ⟨opens, short⟩ := not_or.mp storable
  obtain ⟨text, described⟩ := metaText_ok py (sha256 b).hex
    (Bool.not_eq_false _ ▸ short)
  obtain ⟨after, written⟩ := writeBytes_opened (utf8 text) (not_exists.mp opens)
  have skipped : writeArtefact files (sha256 b).hex b {} = (files, .ok ()) := by
    unfold writeArtefact
    rw [stands]
    rfl
  have metadata : writeMetadata py files (sha256 b).hex b.length { now := "" } {} =
      (after, .ok ()) := by
    unfold writeMetadata
    rw [described]
    exact written
  unfold store
  simp only [pathsFor_hex, skipped, metadata]
  exact ⟨after, rfl⟩

end

/-- A store guarantees the retrieval of its bytes exactly where nothing stands at their path, or a
    file that already holds them; or where it never returns. -/
theorem store_guarantees_iff (py : Interpreter) (sha256 : Bytes → Digest) (files : Files)
    (b : Bytes) : StoreGuarantees py sha256 files b ↔
      files (binPath (sha256 b).hex) = none ∨
        files (binPath (sha256 b).hex) = some (.file b) ∨ Unstorable files sha256 b := by
  have valid := validSha_hex (sha256 b)
  constructor
  · intro guarantees
    cases stands : files (binPath (sha256 b).hex) with
    | none => exact Or.inl rfl
    | some node =>
      refine Or.inr ?_
      by_contra neither
      obtain ⟨notHeld, storable⟩ := not_or.mp neither
      obtain ⟨after, stored⟩ := store_skips py stands storable
      have held := (store_ok stored).2
      have retrieved := (retrieve_ok (guarantees.retrieves _ _ _ _ stored)).1
      rw [held, stands] at retrieved
      exact notHeld retrieved
  · intro condition
    refine ⟨?_, ?_, fun s data got => (retrieve_ok got).2⟩
    · intro args faults after s stored
      obtain ⟨rfl, held⟩ := store_ok stored
      apply retrieve_stored
      rcases condition with absent | holds | unstorable
      · rw [held, absent, Option.getD_none]
      · rw [held, holds, Option.getD_some]
      · exact absurd stored (store_unstorable unstorable)
    · intro args faults after result s' stored other
      have kept : ∀ path, path ≠ binPath (sha256 b).hex → path ≠ tmpPath (sha256 b).hex →
          path ≠ metaPath (sha256 b).hex → after path = files path := by
        intro path notBin notTmp notMeta
        have same := store_other py files args faults notBin notTmp notMeta
        rwa [stored] at same
      refine retrieve_congr fun valid' => kept _ (fun same => other (binPath_injective same)) ?_ ?_
      · exact binPath_ne_tmpPath valid' valid
      · exact binPath_ne_metaPath valid' valid

/-! A file cut short. -/

def abc : Bytes := [97, 98, 99]

/-- SHA-256 of "abc", and of "ab" for every other message. -/
def abcSha (message : Bytes) : Digest :=
  if message = abc then
    ⟨[186, 120, 22, 191, 143, 1, 207, 234, 65, 65, 64, 222, 93, 174, 34, 35, 176, 3, 97, 163, 150,
      23, 122, 156, 180, 16, 255, 97, 242, 0, 21, 173], rfl⟩
  else
    ⟨[251, 142, 32, 252, 46, 76, 63, 36, 140, 96, 195, 155, 214, 82, 243, 193, 52, 114, 152, 187,
      151, 123, 139, 77, 89, 3, 184, 80, 85, 98, 6, 3], rfl⟩

/-- An interpreter whose metadata holds no floats. -/
def metaInterpreter : Interpreter where
  floatOfStr _ := none
  intOfStr _ := none
  floatRepr _ := ""
  strRepr s := s
  log10 _ := 0

/-- The vault where only "ab" was written under the hash of "abc". -/
def truncated : Files :=
  Function.update (fun _ => none) (binPath (abcSha abc).hex) (some (.file [97, 98]))

/-- The store returns the hash, and the artefact fails its integrity check. -/
theorem truncated_stays : ¬StoreGuarantees metaInterpreter abcSha truncated abc ∧
    ∃ after, store metaInterpreter abcSha truncated abc { now := "" } {} =
        (after, .ok (abcSha abc).hex) ∧
      retrieve abcSha after (abcSha abc).hex = .error (.other "IntegrityError") := by
  have stands : truncated (binPath (abcSha abc).hex) = some (.file [97, 98]) :=
    Function.update_self _ _ _
  have valid := validSha_hex (abcSha abc)
  have noMeta : truncated (metaPath (abcSha abc).hex) = none :=
    Function.update_of_ne (binPath_ne_metaPath valid valid).symm _ _
  have short : intDigitsOk (abc.length : ℤ) = true := intDigitsOk_of_small (by decide)
  have storable : ¬Unstorable truncated abcSha abc := by
    rintro (⟨error, blocked⟩ | long)
    · rw [noMeta] at blocked
      cases blocked
    · rw [short] at long
      cases long
  obtain ⟨after, stored⟩ := store_skips metaInterpreter stands storable
  have held := (store_ok stored).2
  rw [stands, Option.getD_some] at held
  have differs : (abcSha [97, 98]).hex ≠ (abcSha abc).hex := by
    intro same
    have digests := congrArg Digest.bytes (hex_injective same)
    revert digests
    decide
  have broken : retrieve abcSha after (abcSha abc).hex = .error (.other "IntegrityError") := by
    unfold retrieve
    rw [pathsFor_hex, ok_bind]
    simp [held, readBytes, ok_bind, differs]
  refine ⟨fun guarantees => ?_, after, stored, broken⟩
  have retrieved := guarantees.retrieves _ _ _ _ stored
  rw [broken] at retrieved
  cases retrieved

end HorizonRic.Vault
