import HorizonRic.Python.DecimalText
import HorizonRic.Evidence.PostgresStore

/-!
The JSONB column of `PostgresEvidenceStore`: `append` hashes the canonical JSON and
casts it, iteration validates what the driver loads. A column keeps every number as
an exact decimal, so a float comes back from text without an exponent, an integer if
no digit stands after the point, and a zero has no sign.
-/
namespace HorizonRic.Evidence

open Py Json DecimalNotation

/-- A record with the signs of its zeros: `negative` tells which zeros of its JSON are
    `-0.0`, by the keys and list indices that lead to them. -/
structure SignedRecord where
  record : DecisionRecord
  negative : List String → Bool

def inside (negative : List String → Bool) (step : String) : List String → Bool :=
  fun path => negative (step :: path)

section
variable (py : Interpreter)

mutual
/-- `json.dumps` with the separators of `_canonical_json`, where zeros have signs. -/
def printSigned (negative : List String → Bool) : Value → List Char
  | .float x => if x = .fin 0 ∧ negative [] = true then ['-', '0', '.', '0'] else floatText py x
  | .list xs => '[' :: (printSignedElements negative 0 xs ++ [']'])
  | .dict entries => '\x7b' :: (printSignedMembers negative entries ++ ['\x7d'])
  | v => print py compact v

def printSignedElements (negative : List String → Bool) (i : Nat) : List Value → List Char
  | [] => []
  | [x] => printSigned (inside negative (toString i)) x
  | x :: xs => printSigned (inside negative (toString i)) x ++ compact.itemSep ++
      printSignedElements negative (i + 1) xs

def printSignedMembers (negative : List String → Bool) : List (String × Value) → List Char
  | [] => []
  | [(k, x)] => quote k ++ compact.keySep ++ printSigned (inside negative k) x
  | (k, x) :: rest => quote k ++ compact.keySep ++ printSigned (inside negative k) x ++
      compact.itemSep ++ printSignedMembers negative rest
end

/-- The number that `json.loads` reads where the column kept this number text. -/
def jsonbNumber (text : List Char) : Value :=
  let kept := (tokenDecimal text).fixed
  if kept.scale = 0 then .int kept.unscaled
  else .float ((py.floatOfStr (String.ofList kept.text)).getD .nan)

def jsonbFloat : Number → Value
  | .fin q => jsonbNumber py (py.floatRepr (.fin q)).toList
  | x => .float x

end

/-- A JSONB column: the value that the driver loads for a text, or the exception that the
    cast raises, and the order in which the column gives the keys of a mapping. -/
structure JsonbColumn where
  load : String → Except PyErr Value
  order : Dict Value → Dict Value
  order_perm : ∀ items, (order items).Perm items

section
variable (float : Number → Value) (order : Dict Value → Dict Value)

mutual
/-- What a store gives back for a value, from what it gives for a float and for keys. -/
def storedValue : Value → Value
  | .float x => float x
  | .list xs => .list (storedElements xs)
  | .dict items => .dict (order (storedMembers items))
  | v => v

def storedElements : List Value → List Value
  | [] => []
  | x :: xs => storedValue x :: storedElements xs

def storedMembers : List (String × Value) → List (String × Value)
  | [] => []
  | (k, x) :: rest => (k, storedValue x) :: storedMembers rest
end

end

def JsonbColumn.value (py : Interpreter) (column : JsonbColumn) : Value → Value :=
  storedValue (jsonbFloat py) column.order

/-- One call of `append`, inside the scope of its thread. -/
structure SignedAppend where
  signed : SignedRecord
  scope : Option String

/-- The record that the call persists. -/
def SignedAppend.persisted (a : SignedAppend) : SignedRecord :=
  { a.signed with record := stamp a.scope a.signed.record }

section
variable (env : Platform) (column : JsonbColumn)

/-- `_canonical_json`. -/
def canonicalSigned (s : SignedRecord) : Except PyErr String :=
  if s.record.modelDump.digitsOk then
    .ok (String.ofList (printSigned env.py s.negative (sortKeys s.record.modelDump)))
  else .error .valueError

/-- `append`, when the insert draws this id: the payload, the hash after the tenant's last one,
    the cast of the payload, and the commit. -/
def appendRow (a : SignedAppend) (id : Nat) (table : List EvidenceRow) :
    Except PyErr (List EvidenceRow × String) := do
  let r := a.persisted.record
  let payload ← canonicalSigned env a.persisted
  let hash ← chain env (.str (lastRecordHash (tenantOf r) table)) payload
  let _ ← column.load payload
  .ok (table ++ [⟨id, tenantOf r, r.timestamp, r.decisionId, payload, hash⟩], hash)

/-- The calls that returned, with their hashes, and the table after them. An exception leaves
    the table, and ids increase. -/
inductive Appended : List (SignedAppend × String) → List EvidenceRow → Prop
  | empty : Appended [] []
  | append {calls : List (SignedAppend × String)} {table table' : List EvidenceRow}
      {a : SignedAppend} {id : Nat} {hash : String} (before : Appended calls table)
      (later : ∀ row ∈ table, row.id < id)
      (returned : appendRow env column a id table = .ok (table', hash)) :
      Appended (calls ++ [(a, hash)]) table'

/-- `_fetch_rows`. -/
def fetchRows (scope : Option String) (table : List EvidenceRow) : List EvidenceRow :=
  match scope with
  | some tenant => orderById (tenantRecords tenant table)
  | none => orderById table

/-- One row of `__iter__`. -/
def recordOutcome (row : EvidenceRow) : Outcome := do
  let v ← column.load row.record
  let r ← modelValidate env env.pydantic.python v
  .ok (r, .str row.hash)

def postgresIter (scope : Option String) (table : List EvidenceRow) : List Outcome :=
  (fetchRows scope table).map (recordOutcome env column)

def postgresVerify (scope : Option String) (table : List EvidenceRow) : Except PyErr Int :=
  verifyFrom env 0 (fun _ => .str zeroHashHex) (postgresIter env column scope table)

/-- In every scope the store verifies, and iteration yields each appended record with its
    canonical JSON and the hash that `append` returned. -/
structure VerifiesWhatItWrote (calls : List (SignedAppend × String)) (table : List EvidenceRow) :
    Prop where
  verified : ∀ scope, postgresVerify env column scope table = .ok (-1)
  records : List.Forall₂ (fun call outcome => ∃ r, outcome = .ok (r, .str call.2) ∧
    canonicalJson env r = canonicalSigned env call.1.persisted) calls
      (postgresIter env column none table)

end

/-! What PostgreSQL, its driver, Python and pydantic document. -/

/-- A text that the cast accepts is loaded as the column gives back the value it writes. -/
def JsonbColumn.Normalises (column : JsonbColumn) (env : Platform) (s : SignedRecord) : Prop :=
  ∀ payload v, canonicalSigned env s = .ok payload → column.load payload = .ok v →
    v = column.value env.py (sortKeys s.record.modelDump)

/-- `float` of a text, and of an integer in a float field, round the exact value. `repr` writes
    0.0 for zero, and a float without digits after the point exactly from 10 ^ 16 on. -/
structure DocumentedFloats (env : Platform) (round : ℚ → Number) : Prop where
  text : ∀ cs, FloatToken cs →
    env.py.floatOfStr (String.ofList cs) = some (round (tokenDecimal cs).value)
  int : ∀ (n : Int) (q : ℚ), round n = .fin q →
    env.pydantic.python.float (.int n) = some (.fin q)
  zero : env.py.floatRepr (.fin 0) = "0.0"
  whole : ∀ q, FloatReadable env.py q →
    (0 ≤ (tokenDecimal (env.py.floatRepr (.fin q)).toList).exponent ↔ 10 ^ 16 ≤ |q|)

/-! What survives the column. -/

mutual
/-- No zero inside is negative. -/
def unsigned (negative : List String → Bool) : Value → Bool
  | .float x => !(decide (x = .fin 0) && negative [])
  | .list xs => unsignedElements negative 0 xs
  | .dict entries => unsignedMembers negative entries
  | _ => true

def unsignedElements (negative : List String → Bool) (i : Nat) : List Value → Bool
  | [] => true
  | x :: xs => unsigned (inside negative (toString i)) x && unsignedElements negative (i + 1) xs

def unsignedMembers (negative : List String → Bool) : List (String × Value) → Bool
  | [] => true
  | (k, x) :: rest => unsigned (inside negative k) x && unsignedMembers negative rest
end

mutual
/-- Every finite float inside is below 10 ^ 16, where `repr` writes no fraction any more. -/
def belowExponent : Value → Bool
  | .float (.fin q) => decide (|q| < 10 ^ 16)
  | .list xs => belowExponentElements xs
  | .dict entries => belowExponentMembers entries
  | _ => true

def belowExponentElements : List Value → Bool
  | [] => true
  | x :: xs => belowExponent x && belowExponentElements xs

def belowExponentMembers : List (String × Value) → Bool
  | [] => true
  | (_, x) :: rest => belowExponent x && belowExponentMembers rest
end

/-- The record survives a JSONB column: the floats that the schema requires are finite, no zero
    is negative, and the floats in free-form mappings are below 10 ^ 16. -/
structure SurvivesJsonb (s : SignedRecord) : Prop where
  finite : s.record.finite = true
  unsigned : unsigned s.negative (sortKeys s.record.modelDump) = true
  small : ∀ d ∈ s.record.freeForm, belowExponent (.dict d) = true

end HorizonRic.Evidence
