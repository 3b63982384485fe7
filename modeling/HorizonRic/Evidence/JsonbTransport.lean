import HorizonRic.Evidence.JsonbColumn

/-!
A JSONB column as a transport of JSON: a field reads back the float it wrote, also
where the column gives a whole float as an integer.
-/
namespace HorizonRic.Evidence

open Py Json DecimalNotation

/-! Stored values. -/

section
variable (float : Number → Value) (order : Dict Value → Dict Value)

theorem storedElements_eq (xs : List Value) :
    storedElements float order xs = xs.map (storedValue float order) := by
  induction xs with
  | nil => rfl
  | cons x xs ih => rw [storedElements, ih, List.map_cons]

theorem storedMembers_eq (items : Dict Value) :
    storedMembers float order items =
      items.map fun item => (item.1, storedValue float order item.2) := by
  induction items with
  | nil => rfl
  | cons item items ih => rw [storedMembers, ih, List.map_cons]

theorem storedValue_list (xs : List Value) :
    storedValue float order (.list xs) = .list (xs.map (storedValue float order)) := by
  rw [storedValue, storedElements_eq]

theorem storedValue_dict (items : Dict Value) :
    storedValue float order (.dict items) =
      .dict (order (items.map fun item => (item.1, storedValue float order item.2))) := by
  rw [storedValue, storedMembers_eq]

end

theorem byKey_eq_of_perm {a b : Dict β} (perm : a.Perm b) (nodup : (b.map Prod.fst).Nodup) :
    byKey a = byKey b := by
  have same : (byKey a).Perm (byKey b) :=
    (byKey_perm a).trans (perm.trans (byKey_perm b).symm)
  have sorted : ∀ d : Dict β, (byKey d).Pairwise fun x y => x.1 ≤ y.1 :=
    fun d => List.pairwise_insertionSort _ d
  apply same.eq_of_pairwise _ (sorted a) (sorted b)
  intro x y first second le ge
  have inA : x ∈ b := perm.subset ((byKey_perm a).subset first)
  have inB : y ∈ b := (byKey_perm b).subset second
  exact List.inj_on_of_nodup_map nodup inA inB (le_antisymm le ge)

/-! The floats of a column. -/

section
variable {env : Platform} {round : ℚ → Number} (documented : DocumentedFloats env round)

/-- The characters of a number that no natural number has. -/
def marked (c : Char) : Bool := c == 'e' || c == 'E' || c == '-'

theorem unmarked_digits {cs : List Char} (digits : AllDigits cs) : cs.countP marked = 0 := by
  rw [List.countP_eq_zero]
  intro c member isMarked
  have digit := digits c member
  simp only [marked, Bool.or_eq_true, beq_iff_eq] at isMarked
  rcases isMarked with (rfl | rfl) | rfl <;> exact absurd digit (by decide)

theorem marked_int (n : Int) :
    (toString n).toList.countP marked = if n < 0 then 1 else 0 := by
  cases n with
  | ofNat m =>
    have text : (toString (Int.ofNat m)).toList = Nat.toDigits 10 m := Nat.toList_repr
    rw [text, unmarked_digits (allDigits_toDigits m)]
    rfl
  | negSucc m =>
    have text : (toString (Int.negSucc m)).toList = '-' :: Nat.toDigits 10 (m + 1) := by
      change ("-" ++ Nat.repr (m + 1)).toList = _
      rw [String.toList_append, Nat.toList_repr]
      rfl
    rw [text, List.countP_cons, unmarked_digits (allDigits_toDigits (m + 1)),
      if_pos (Int.negSucc_lt_zero m)]
    rfl

/-- A token of a whole number has an exponent, which its integer does not write. -/
theorem marked_token {cs : List Char} (token : FloatToken cs)
    (whole : 0 ≤ (tokenDecimal cs).exponent) :
    (toString (tokenDecimal cs).fixed.unscaled).toList.countP marked < cs.countP marked := by
  obtain ⟨minus, digits, fraction, exponent, rfl, hm, hw, hf, he, notInt⟩ := token
  rw [tokenDecimal_append hm hw hf he] at whole ⊢
  have power : 0 < exponent.countP marked := by
    rcases he with rfl | ⟨e, sign, c, tail, rfl, letter, _⟩
    · rw [List.append_nil] at notInt
      rcases hf with rfl | ⟨c, tail, rfl, _⟩
      · exact absurd rfl notInt
      · simp only [exponentOf_nil, List.tail_cons, List.length_cons] at whole
        omega
    · have isMarked : marked e = true := by
        rcases letter with rfl | rfl <;> rfl
      rw [List.countP_cons_of_pos isMarked]
      omega
  rw [marked_int, List.countP_append, List.countP_append, List.countP_append]
  rcases hm with rfl | rfl
  · have positive : ¬(Scientific.fixed ⟨decide (([] : List Char) = ['-']),
        Nat.ofDigitChars 10 (digits ++ fraction.tail) 0,
        exponentOf exponent - fraction.tail.length⟩).unscaled < 0 := by
      rw [Scientific.fixed, not_lt]
      exact Int.mul_nonneg (Int.natCast_nonneg _) (Int.pow_nonneg (by decide))
    rw [if_neg positive]
    omega
  · have minus : (['-'] : List Char).countP marked = 1 := rfl
    split <;> omega

include documented

theorem round_token {q : ℚ} (readable : FloatReadable env.py q) :
    round (tokenDecimal (env.py.floatRepr (.fin q)).toList).value = .fin q := by
  have text := documented.text _ readable.token
  rw [String.ofList_toList, readable.back] at text
  exact (Option.some.inj text).symm

/-- A float comes back as it is below 10 ^ 16, and from there on as an integer that a float
    field reads as the float. -/
theorem jsonbFloat_cases {q : ℚ} (readable : FloatReadable env.py q) :
    (|q| < 10 ^ 16 ∧ jsonbFloat env.py (.fin q) = .float (.fin q)) ∨
      10 ^ 16 ≤ |q| ∧ ∃ n : Int, jsonbFloat env.py (.fin q) = .int n ∧
        env.pydantic.python.float (.int n) = some (.fin q) ∧
        (toString n).toList.countP marked < (env.py.floatRepr (.fin q)).toList.countP marked := by
  have rounded := round_token documented readable
  have whole := documented.whole q readable
  rw [jsonbFloat, jsonbNumber]
  by_cases large : 10 ^ 16 ≤ |q|
  · have exponent := whole.mpr large
    have scale := (fixed_scale_eq_zero _).mpr exponent
    refine Or.inr ⟨large, _, if_pos scale, documented.int _ q ?_, marked_token readable.token exponent⟩
    rwa [← fixed_value, FixedPoint.value, scale, pow_zero, div_one] at rounded
  · have scale : (tokenDecimal (env.py.floatRepr (.fin q)).toList).fixed.scale ≠ 0 := by
      intro none
      exact large (whole.mp ((fixed_scale_eq_zero _).mp none))
    obtain ⟨token, again⟩ := fixed_token scale
    refine Or.inl ⟨not_le.mp large, ?_⟩
    rw [if_neg scale, documented.text _ token, again, scientific_value, fixed_value, rounded]
    rfl

end

/-! The column as a transport. -/

section
variable (env : Platform) (column : JsonbColumn)

/-- What the column gives for a float, where a float field can read it. -/
def readableFloat (x : Number) : Value :=
  if readFloat env.pydantic.python (jsonbFloat env.py x) = some x then jsonbFloat env.py x
  else .float x

/-- The order of the column, for mappings with distinct keys. -/
def orderDistinct (items : Dict Value) : Dict Value :=
  if (items.map Prod.fst).Nodup then column.order items else items

theorem byKey_orderDistinct (items : Dict Value) :
    byKey (orderDistinct column items) = byKey items := by
  unfold orderDistinct
  split
  · rename_i nodup
    exact byKey_eq_of_perm (column.order_perm items) nodup
  · rfl

/-- The column on values that a store writes. -/
def jsonbTransport (v : Value) : Value :=
  storedValue (readableFloat env) (orderDistinct column) (sortKeys v)

theorem transport_jsonb : Transport env.pydantic.python (jsonbTransport env column) where
  null := rfl
  bool _ := rfl
  int _ := rfl
  str _ := rfl
  float q := by
    change readFloat env.pydantic.python (readableFloat env (.fin q)) = _
    unfold readableFloat
    split
    · assumption
    · rfl
  list xs := by
    rw [jsonbTransport, sortKeys_list, storedValue_list, List.map_map]
    rfl
  dict items := by
    refine ⟨_, (congrArg (storedValue _ _) (sortKeys_dict items)).trans (storedValue_dict _ _ _), ?_⟩
    rw [byKey_orderDistinct, byKey_map, sortItems, byKey_idem, ← byKey_map, List.map_map]
    rfl

variable {env} {round : ℚ → Number} (documented : DocumentedFloats env round)
include documented

theorem readableFloat_eq {x : Number} (readable : NumReadable env.py x) :
    readableFloat env x = jsonbFloat env.py x := by
  apply if_pos
  cases x with
  | fin q =>
    rcases jsonbFloat_cases documented readable with ⟨_, same⟩ | ⟨_, n, same, back, _⟩
    · rw [same]
      rfl
    · rw [same]
      exact back
  | nan => rfl
  | inf s => rfl

/-- On a value that was written, the column does what its transport does. -/
theorem value_eq_transport {v : Value} (readable : Readable env.py v) :
    column.value env.py (sortKeys v) = jsonbTransport env column v := by
  have sorted := readable_sortKeys env.py readable
  rw [JsonbColumn.value, jsonbTransport]
  generalize sortKeys v = w at sorted ⊢
  clear readable
  induction w using Value.nested_induction with
  | float x => exact (readableFloat_eq documented sorted).symm
  | list xs ih =>
    rw [readable_list] at sorted
    rw [storedValue_list, storedValue_list]
    exact congrArg Value.list (List.map_congr_left fun x member => ih x member (sorted x member))
  | dict items ih =>
    rw [readable_dict] at sorted
    have each : items.map (fun item => (item.1, storedValue (jsonbFloat env.py) column.order item.2)) =
        items.map fun item =>
          (item.1, storedValue (readableFloat env) (orderDistinct column) item.2) :=
      List.map_congr_left fun item member =>
        congrArg (Prod.mk item.1) (ih item member (sorted.2 item member))
    have nodup : ((items.map fun item =>
        (item.1, storedValue (readableFloat env) (orderDistinct column) item.2)).map
          Prod.fst).Nodup := by
      rw [List.map_map]
      exact sorted.1
    rw [storedValue_dict, storedValue_dict, each, orderDistinct, if_pos nodup]
  | _ => rfl

end

end HorizonRic.Evidence
