import HorizonRic.Python.Number

/-!
JSON-shaped Python values, dictionaries with string keys, and the builtin
conversions `float`, `int`, `bool`, `str` and `repr` on them. A dictionary is
its list of items in insertion order; lookups see the first item of a key.
-/
namespace Py

/-- A dictionary with string keys, as its items in insertion order. -/
abbrev Dict (β : Type) := List (String × β)

namespace Dict

def get? (key : String) : Dict β → Option β
  | [] => none
  | (k, v) :: rest => if k = key then some v else get? key rest

/-- `d.get(key, default)`. -/
def getD (d : Dict β) (key : String) (default : β) : β := (get? key d).getD default

/-- `key in d`. -/
def has (d : Dict β) (key : String) : Bool := (get? key d).isSome

/-- `d[key] = value`: an existing key keeps its position. -/
def set (key : String) (value : β) : Dict β → Dict β
  | [] => [(key, value)]
  | (k, v) :: rest => if k = key then (k, value) :: rest else (k, v) :: set key value rest

@[simp] theorem get?_nil (key : String) : get? key ([] : Dict β) = none := rfl

@[simp] theorem get?_cons (key k : String) (v : β) (rest : Dict β) :
    get? key ((k, v) :: rest) = if k = key then some v else get? key rest := rfl

@[simp] theorem get?_set_self (d : Dict β) (key : String) (value : β) :
    get? key (set key value d) = some value := by
  induction d with
  | nil => simp [set]
  | cons item rest ih =>
    obtain ⟨k, v⟩ := item
    simp only [set]
    split
    · rename_i same; simp [same]
    · rename_i other; simp [other, ih]

theorem get?_set_ne (d : Dict β) {key other : String} (value : β) (ne : other ≠ key) :
    get? key (set other value d) = get? key d := by
  induction d with
  | nil => simp [set, ne]
  | cons item rest ih =>
    obtain ⟨k, v⟩ := item
    simp only [set]
    split
    · rename_i same
      subst same
      simp [ne]
    · simp only [get?_cons, ih]

theorem getD_set_ne (d : Dict β) {key other : String} (value default : β) (ne : other ≠ key) :
    getD (set other value d) key default = getD d key default := by
  rw [getD, get?_set_ne d value ne, getD]

@[simp] theorem getD_set_self (d : Dict β) (key : String) (value default : β) :
    getD (set key value d) key default = value := by
  rw [getD, get?_set_self]; rfl

theorem has_iff (d : Dict β) (key : String) : has d key = true ↔ ∃ v, get? key d = some v := by
  simp [has, Option.isSome_iff_exists]

theorem mem_of_get? {d : Dict β} {key : String} {v : β} (found : get? key d = some v) :
    (key, v) ∈ d := by
  induction d with
  | nil => cases found
  | cons item rest ih =>
    obtain ⟨k, w⟩ := item
    rw [get?_cons] at found
    split at found
    · rename_i same
      cases found
      rw [same]
      exact List.mem_cons_self
    · exact List.mem_cons_of_mem _ (ih found)

end Dict

/-- What a JSON document can hold. -/
inductive Value where
  | null
  | bool (b : Bool)
  | int (n : Int)
  | float (x : Number)
  | str (s : String)
  | list (xs : List Value)
  | dict (entries : List (String × Value))

/-- Text conversions and the logarithm, left to the interpreter: parsing and
    printing of numbers, quoting of strings, and `log10` on positive numbers. -/
structure Interpreter where
  floatOfStr : String → Option Number
  intOfStr : String → Option Int
  floatRepr : Number → String
  strRepr : String → String
  log10 : ℚ → ℚ

/-- Integers with more than 4300 digits are neither printed nor parsed. -/
@[irreducible] def intStrLimit : Nat := 10 ^ 4300

/-- Integers from this magnitude on round to infinity, and `float` refuses them. -/
@[irreducible] def floatOverflow : Nat := 2 ^ 1024 - 2 ^ 970

def intDigitsOk (n : Int) : Bool := decide (n.natAbs < intStrLimit)

theorem two_pow_gap (k : ℕ) : 10 ^ 12 ≤ 2 ^ (k + 54) - 2 ^ k := by
  have positive : 1 ≤ 2 ^ k := Nat.one_le_two_pow
  rw [pow_add]
  omega

theorem lt_floatOverflow {n : ℕ} (small : n < 10 ^ 12) : n < floatOverflow := by
  have gap := two_pow_gap 970
  rw [show 970 + 54 = 1024 from rfl] at gap
  unfold floatOverflow
  exact small.trans_le gap

theorem two_pow_le_ten_pow {k m : ℕ} (shorter : k ≤ m) : 2 ^ k ≤ 10 ^ m :=
  (Nat.pow_le_pow_right (by omega) shorter).trans (Nat.pow_le_pow_left (by omega) m)

theorem floatOverflow_le_intStrLimit : floatOverflow ≤ intStrLimit := by
  unfold floatOverflow intStrLimit
  exact le_trans (Nat.sub_le _ _) (two_pow_le_ten_pow (by omega))

theorem intDigitsOk_of_small {n : Int} (small : n.natAbs < 10 ^ 12) : intDigitsOk n = true :=
  decide_eq_true ((lt_floatOverflow small).trans_le floatOverflow_le_intStrLimit)

namespace Value

def truthy : Value → Bool
  | .null => false
  | .bool b => b
  | .int n => n != 0
  | .float x => x != .fin 0
  | .str s => s != ""
  | .list xs => !xs.isEmpty
  | .dict entries => !entries.isEmpty

def isNull : Value → Bool
  | .null => true
  | _ => false

/-- `value == text` for a string on the right. -/
def eqStr : Value → String → Bool
  | .str s, text => s == text
  | _, _ => false

mutual
/-- No integer inside the value is too long to be printed or parsed. -/
def digitsOk : Value → Bool
  | .int n => intDigitsOk n
  | .list xs => digitsOkList xs
  | .dict entries => digitsOkItems entries
  | _ => true

def digitsOkList : List Value → Bool
  | [] => true
  | x :: xs => digitsOk x && digitsOkList xs

def digitsOkItems : List (String × Value) → Bool
  | [] => true
  | (_, x) :: rest => digitsOk x && digitsOkItems rest
end

variable (py : Interpreter)

mutual
/-- `repr(value)` where every integer is short enough. -/
def reprText : Value → String
  | .null => "None"
  | .bool b => if b then "True" else "False"
  | .int n => toString n
  | .float x => py.floatRepr x
  | .str s => py.strRepr s
  | .list xs => "[" ++ reprList xs ++ "]"
  | .dict entries => "\x7b" ++ reprItems entries ++ "\x7d"

def reprList : List Value → String
  | [] => ""
  | [x] => reprText x
  | x :: xs => reprText x ++ ", " ++ reprList xs

def reprItems : List (String × Value) → String
  | [] => ""
  | [(k, x)] => py.strRepr k ++ ": " ++ reprText x
  | (k, x) :: rest => py.strRepr k ++ ": " ++ reprText x ++ ", " ++ reprItems rest
end

/-- `repr(value)`: an integer with too many digits raises. -/
def repr (v : Value) : Except PyErr String :=
  if v.digitsOk then .ok (v.reprText py) else .error .valueError

/-- `str(value)`. -/
def toStr : Value → Except PyErr String
  | .str s => .ok s
  | v => v.repr py

/-- `float(value)`. -/
def toFloat : Value → Except PyErr Number
  | .bool b => .ok (.fin (if b then 1 else 0))
  | .int n => if n.natAbs < floatOverflow then .ok (.fin n) else .error .overflowError
  | .float x => .ok x
  | .str s =>
    match py.floatOfStr s with
    | some x => .ok x
    | none => .error .valueError
  | _ => .error .typeError

/-- `int(value)`. -/
def toInt : Value → Except PyErr Int
  | .bool b => .ok (if b then 1 else 0)
  | .int n => .ok n
  | .float x => x.toInt
  | .str s =>
    match py.intOfStr s with
    | some n => .ok n
    | none => .error .valueError
  | _ => .error .typeError

end Value

/-- `str(n)` for an integer. -/
def intStr (n : Int) : Except PyErr String :=
  if intDigitsOk n then .ok (toString n) else .error .valueError

/-- `math.log10`. -/
def mathLog10 (py : Interpreter) : Number → Except PyErr Number
  | .nan => .ok .nan
  | .inf negative => if negative then .error .valueError else .ok (.inf false)
  | .fin q => if 0 < q then .ok (.fin (py.log10 q)) else .error .valueError

/-- `text.startswith(prefix)`. -/
def startsWith (text start : String) : Bool := start.toList.isPrefixOf text.toList

/-- `part in text` for strings. -/
def hasInfix (text part : String) : Bool :=
  text.toList.tails.any (fun rest => part.toList.isPrefixOf rest)

end Py
