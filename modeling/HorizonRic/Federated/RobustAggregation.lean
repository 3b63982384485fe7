import HorizonRic.Python.Number
import Mathlib.Data.List.Sort
import Mathlib.Algebra.Order.Field.Basic

/-!
The robust aggregators in exact arithmetic: the vectors are lists over an
ordered field.
-/
namespace HorizonRic.RobustAggregation
open Py

variable {K : Type*} [Field K] [LinearOrder K]

omit [Field K] [LinearOrder K] in
/-- The rows of the client updates; no updates, or updates of different lengths, are no matrix. -/
def stack (updates : List (List K)) : Except PyErr (List (List K)) :=
  match updates with
  | [] => .error .valueError
  | first :: rest =>
    if rest.all fun row => row.length = first.length then .ok updates else .error .valueError

/-- The squared distance. -/
def sqDist (u v : List K) : K := (List.zipWith (fun a b => (a - b) ^ 2) u v).sum

/-- The first index of a least entry. -/
def argmin (scores : List K) : ℕ := scores.findIdx fun s => scores.all fun other => s ≤ other

structure KrumResult (K : Type*) where
  aggregate : List K
  selectedIndex : ℕ
  scores : List K

/-- The sum of `dists[1 : m + 1]` of a sorted row; the first entry is the distance to itself. -/
def score (m : ℤ) (row : List K) : K :=
  (((row.insertionSort (· ≤ ·)).take (m + 1).toNat).drop 1).sum

def krum (updates : List (List K)) (f : ℤ) : Except PyErr (KrumResult K) := do
  let mat ← stack updates
  let n : ℤ := mat.length
  if n ≤ 2 * f + 2 then .error .valueError
  else
    let sq := mat.map fun row => mat.map (sqDist row)
    let m := n - f - 2
    let scores := sq.map (score m)
    let selected := argmin scores
    return { aggregate := mat.getD selected [], selectedIndex := selected, scores := scores }

structure FLTrustResult (K : Type*) where
  aggregate : List K
  trustScores : List K
  rootNorm : K

def dot (u v : List K) : K := (List.zipWith (· * ·) u v).sum

section
variable (sqrt : K → K)

/-- The Euclidean norm. -/
def norm (v : List K) : K := sqrt (v.map (· ^ 2)).sum

/-- A zero norm is replaced, so that nothing is divided by zero. -/
def safe (row : List K) : K := if 0 < norm sqrt row then norm sqrt row else 1

/-- The cosine with the root update, cut off below zero; a zero update is not trusted. -/
def trustScore (g0 row : List K) : K :=
  if 0 < norm sqrt row then max (dot row g0 / (safe sqrt row * norm sqrt g0)) 0 else 0

/-- An update at the norm of the root update. -/
def scaled (g0 row : List K) : List K := row.map (· * (norm sqrt g0 / safe sqrt row))

def sumRows (length : ℕ) (rows : List (List K)) : List K :=
  rows.foldl (List.zipWith (· + ·)) (List.replicate length 0)

def fltrust (updates : List (List K)) (rootUpdate : List K) : Except PyErr (FLTrustResult K) := do
  let g0 := rootUpdate
  let rootNorm := norm sqrt g0
  let mat ← stack updates
  if (mat.headD []).length ≠ g0.length then .error .valueError
  else if rootNorm = 0 then
    return { aggregate := g0.map fun _ => 0, trustScores := mat.map fun _ => 0, rootNorm := 0 }
  else
    let ts := mat.map (trustScore sqrt g0)
    let total := ts.sum
    if total ≤ 0 then
      return { aggregate := g0, trustScores := ts, rootNorm := rootNorm }
    else
      let weighted := mat.map fun row => (scaled sqrt g0 row).map (trustScore sqrt g0 row * ·)
      let agg := (sumRows g0.length weighted).map (· / total)
      return { aggregate := agg, trustScores := ts, rootNorm := rootNorm }

end

omit [Field K] [LinearOrder K] in
theorem stack_ok {updates : List (List K)} {d : ℕ} (some_ : updates ≠ [])
    (dimension : ∀ u ∈ updates, u.length = d) : stack updates = .ok updates := by
  cases updates with
  | nil => contradiction
  | cons first rest =>
    have same : rest.all (fun row => row.length = first.length) = true := by
      rw [List.all_eq_true]
      intro row member
      simp [dimension first List.mem_cons_self, dimension row (List.mem_cons_of_mem _ member)]
    rw [stack, if_pos same]

end HorizonRic.RobustAggregation
