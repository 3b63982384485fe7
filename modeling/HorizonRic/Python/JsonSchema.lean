import HorizonRic.Python.Value

/-!
The part of JSON Schema Draft-07 that closed records need: a record lists its
properties, those it requires, and allows no others. `validate` of the `jsonschema`
package stands for itself.
-/
namespace Py

inductive JsonSchema where
  | string
  | oneOf (texts : List String)
  | integer (minimum maximum : Int)
  | number (minimum : Int) (maximum : Option Int)
  | anyObject
  | closed (properties : List (String × JsonSchema)) (required : List String)

namespace JsonSchema

mutual
/-- The schema as a JSON document. -/
def toValue : JsonSchema → Value
  | string => .dict [("type", .str "string")]
  | oneOf texts => .dict [("type", .str "string"), ("enum", .list (texts.map .str))]
  | integer low high =>
    .dict [("type", .str "integer"), ("minimum", .int low), ("maximum", .int high)]
  | number low none => .dict [("type", .str "number"), ("minimum", .int low)]
  | number low (some high) =>
    .dict [("type", .str "number"), ("minimum", .int low), ("maximum", .int high)]
  | anyObject => .dict [("type", .str "object")]
  | closed properties required =>
    .dict [("type", .str "object"), ("properties", .dict (toItems properties)),
      ("required", .list (required.map .str)), ("additionalProperties", .bool false)]

def toItems : List (String × JsonSchema) → Dict Value
  | [] => []
  | (key, schema) :: rest => (key, toValue schema) :: toItems rest
end

/-- A whole number: a float counts by its value, a flag does not. -/
def isInteger : Value → Bool
  | .int _ => true
  | .float (.fin q) => q.den = 1
  | _ => false

/-- The value of a number; a flag is none. -/
def number? : Value → Option Number
  | .int n => some (.fin n)
  | .float x => some x
  | _ => none

/-- `minimum` and `maximum`: a NaN is neither below nor above a bound. -/
def within (minimum : Int) (maximum : Option Int) (x : Number) : Bool :=
  !Number.lt x (.fin minimum) && !maximum.any fun high => Number.lt (.fin high) x

mutual
def valid : JsonSchema → Value → Bool
  | string, .str _ => true
  | oneOf texts, .str s => texts.contains s
  | integer low high, v => isInteger v && (number? v).any (within low (some high))
  | number low high, v => (number? v).any (within low high)
  | anyObject, .dict _ => true
  | closed properties required, .dict d =>
    validItems properties d && required.all (fun key => Dict.has d key) &&
      d.all (fun item => properties.any fun property => property.1 == item.1)
  | _, _ => false

/-- Each listed property that is there is valid. -/
def validItems : List (String × JsonSchema) → Dict Value → Bool
  | [], _ => true
  | (key, schema) :: rest, d => (match Dict.get? key d with
    | some v => valid schema v
    | none => true) && validItems rest d
end

theorem validItems_absent {properties : List (String × JsonSchema)} {d : Dict Value}
    (absent : ∀ property ∈ properties, Dict.get? property.1 d = none) :
    validItems properties d = true := by
  induction properties with
  | nil => rfl
  | cons property rest ih =>
    obtain ⟨key, schema⟩ := property
    rw [validItems, absent _ List.mem_cons_self,
      ih fun other member => absent other (List.mem_cons_of_mem _ member)]
    rfl

/-- A record with its required property alone. -/
theorem closed_single {key : String} {schema : JsonSchema} {rest : List (String × JsonSchema)}
    {v : Value} (apart : ∀ property ∈ rest, property.1 ≠ key) (held : schema.valid v = true) :
    (closed ((key, schema) :: rest) [key]).valid (.dict [(key, v)]) = true := by
  have absent : validItems rest [(key, v)] = true := by
    apply validItems_absent
    intro property member
    exact if_neg (apart property member).symm
  simp [valid, validItems, Dict.has, held, absent]

theorem closed_pair {k k' : String} {schema schema' : JsonSchema} {v v' : Value} (apart : k ≠ k')
    (held : schema.valid v = true) (held' : schema'.valid v' = true) :
    (closed [(k, schema), (k', schema')] [k]).valid (.dict [(k, v), (k', v')]) = true := by
  simp [valid, validItems, Dict.has, held, held', apart]

end JsonSchema

/-- A schema document with its `$schema` line first. -/
def draft07 (properties : List (String × JsonSchema)) (required : List String) : Value :=
  match (JsonSchema.closed properties required).toValue with
  | .dict entries =>
    .dict (("$schema", .str "http://json-schema.org/draft-07/schema#") :: entries)
  | v => v

/-- `jsonschema.validate`: the text of its error, where it raises. -/
structure Jsonschema where
  validate : Value → Value → Except String Unit

end Py
