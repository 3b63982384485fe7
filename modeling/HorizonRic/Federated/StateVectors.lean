import HorizonRic.Federated.TrimmedAggregation
import HorizonRic.Python.JsonCanonical
import HorizonRic.Python.Mapping
import Mathlib.Algebra.BigOperators.Group.List.Basic

/-!
`federated/robust.py`: a parameter dict as one vector with a manifest of shapes, and back.
-/
namespace HorizonRic.StateVectors
open Py

/-- An `int64` after overflow. -/
def toInt64 (z : Int) : Int := (z + 2 ^ 63) % 2 ^ 64 - 2 ^ 63

/-- `np.prod` of a tuple of integers. -/
def npProd (dims : List ℕ) : Int :=
  dims.foldl (fun (product : Int) (d : ℕ) => toInt64 (product * d)) 1

/-- The shape of a float64 array. numpy refuses more dimensions than 64, and dimensions
    that, the zeros aside, make up more bytes than an `int64` can count. -/
@[ext] structure Shape where
  dims : List ℕ
  few : dims.length ≤ 64
  fits : 8 * (dims.filter (· ≠ 0)).prod < 2 ^ 63

def Shape.size (shape : Shape) : ℕ := shape.dims.prod

/-- The entries in C order. -/
@[ext] structure NdArray (α : Type) where
  shape : Shape
  entries : List α
  full : entries.length = shape.size

abbrev Manifest := List (String × Shape)

variable {α : Type}

def reshape (xs : List α) (shape : Shape) : Except PyErr (NdArray α) :=
  if full : xs.length = shape.size then .ok ⟨shape, xs, full⟩ else .error .valueError

/-- `sorted(state)`. -/
def sortedKeys (state : Mapping String (NdArray α)) : List String :=
  (state.items.map Prod.fst).insertionSort fun a b => a ≤ b

def flattenState (state : Mapping String (NdArray α)) : Except PyErr (List α × Manifest) := do
  let (parts, manifest) ← (sortedKeys state).foldlM (fun (parts, manifest) key => do
    let arr ← Erasure.item state.items key
    .ok (parts ++ [arr.entries], manifest ++ [(key, arr.shape)]))
      (([] : List (List α)), ([] : Manifest))
  .ok (if parts = [] then [] else parts.flatten, manifest)

/-- One entry of the manifest, at the offset `i`. -/
def unflattenEntry (flat : List α) (done : Mapping String (NdArray α) × Int)
    (entry : String × Shape) : Except PyErr (Mapping String (NdArray α) × Int) := do
  let (out, i) := done
  let (key, shape) := entry
  let n := if shape.dims = [] then 1 else npProd shape.dims
  let arr ← reshape (OrderAggregation.slice flat i (i + n)) shape
  .ok (out.set key arr, i + n)

def unflattenState (flat : List α) (manifest : Manifest) :
    Except PyErr (Mapping String (NdArray α)) := do
  let (out, _) ← manifest.foldlM (unflattenEntry flat) (Mapping.empty, 0)
  .ok out

/-! The size of a shape. -/

theorem toInt64_small {z : ℕ} (small : z < 2 ^ 63) : toInt64 z = z := by
  unfold toInt64
  omega

theorem one_le_prod_filter (dims : List ℕ) : 1 ≤ (dims.filter (· ≠ 0)).prod := by
  induction dims with
  | nil => simp
  | cons d rest ih =>
    by_cases zero : d = 0
    · simpa [zero] using ih
    · have positive : 1 ≤ d := by omega
      simp only [List.filter_cons, zero, ne_eq, not_false_eq_true, decide_true, if_true,
        List.prod_cons]
      exact Nat.mul_le_mul positive ih

/-- No partial product overflows. -/
theorem npProd_run (dims : List ℕ) (product : ℕ)
    (small : product * (dims.filter (· ≠ 0)).prod < 2 ^ 63) :
    dims.foldl (fun (product : Int) (d : ℕ) => toInt64 (product * d)) (product : Int) =
      ((product * dims.prod : ℕ) : Int) := by
  induction dims generalizing product with
  | nil => simp
  | cons d rest ih =>
    have one := one_le_prod_filter rest
    have next : product * d * (rest.filter (· ≠ 0)).prod < 2 ^ 63 := by
      by_cases zero : d = 0
      · simp [zero]
      · rw [List.filter_cons_of_pos (by simpa using zero), List.prod_cons, ← Nat.mul_assoc] at small
        exact small
    have step : toInt64 ((product : Int) * d) = ((product * d : ℕ) : Int) := by
      rw [← Nat.cast_mul]
      exact toInt64_small (lt_of_le_of_lt (Nat.le_mul_of_pos_right _ one) next)
    rw [List.foldl_cons, step, ih (product * d) next, List.prod_cons, Nat.mul_assoc]

theorem npProd_size (shape : Shape) : npProd shape.dims = shape.size := by
  have fits := shape.fits
  have run := npProd_run shape.dims 1 (by omega)
  rw [Nat.one_mul] at run
  exact run

/-- The two ways of computing a size agree, also for a scalar. -/
theorem entry_size (shape : Shape) :
    (if shape.dims = [] then 1 else npProd shape.dims) = (shape.size : Int) := by
  by_cases scalar : shape.dims = []
  · rw [if_pos scalar, Shape.size, scalar, List.prod_nil]
    rfl
  · rw [if_neg scalar, npProd_size]

/-! The entries of a state, as they are written one after the other. -/

abbrev Entries (α : Type) := List (String × NdArray α)

def vectorOf (entries : Entries α) : List α := entries.flatMap fun e => e.2.entries

def manifestOf (entries : Entries α) : Manifest := entries.map fun e => (e.1, e.2.shape)

/-- The loop over keys that are all there. -/
theorem flatten_run {state : Mapping String (NdArray α)} {entries : Entries α}
    (there : ∀ e ∈ entries, e ∈ state.items) (parts : List (List α)) (manifest : Manifest) :
    (entries.map Prod.fst).foldlM (fun (parts, manifest) key => do
      let arr ← Erasure.item state.items key
      Except.ok (parts ++ [arr.entries], manifest ++ [(key, arr.shape)])) (parts, manifest) =
        .ok (parts ++ entries.map (fun e => e.2.entries), manifest ++ manifestOf entries) := by
  induction entries generalizing parts manifest with
  | nil => simp [manifestOf, pure, Except.pure]
  | cons e rest ih =>
    have found : Erasure.item state.items e.1 = .ok e.2 := by
      unfold Erasure.item
      rw [Dict.get?_of_mem state.nodup (there e List.mem_cons_self)]
    rw [List.map_cons, List.foldlM_cons]
    dsimp only
    rw [found, ok_bind, ok_bind, ih fun e' member => there e' (List.mem_cons_of_mem e member)]
    simp [manifestOf]

theorem sortedKeys_eq (state : Mapping String (NdArray α)) :
    sortedKeys state = (Json.byKey state.items).map Prod.fst := by
  unfold sortedKeys Json.byKey
  exact (List.map_insertionSort (fun a b => a.1 ≤ b.1) (fun a b => a ≤ b) Prod.fst state.items
    fun _ _ _ _ => Iff.rfl).symm

/-- A state is flattened in the order of its keys. -/
theorem flattenState_eq (state : Mapping String (NdArray α)) : flattenState state =
    .ok (vectorOf (Json.byKey state.items), manifestOf (Json.byKey state.items)) := by
  have there : ∀ e ∈ Json.byKey state.items, e ∈ state.items :=
    fun e member => (Json.byKey_perm state.items).subset member
  unfold flattenState
  rw [sortedKeys_eq, flatten_run there, ok_bind]
  simp only [List.nil_append]
  congr 2
  split
  · rename_i empty
    rw [List.map_eq_nil_iff.mp empty]
    rfl
  · rw [vectorOf, List.flatMap]

theorem set_items_absent {out : Mapping String (NdArray α)} {key : String} {arr : NdArray α}
    (absent : key ∉ out.items.map Prod.fst) :
    (out.set key arr).items = out.items ++ [(key, arr)] := by
  unfold Mapping.set
  rw [dif_neg absent]

/-- What stands at an offset. -/
theorem slice_between (before xs after : List α) :
    OrderAggregation.slice (before ++ xs ++ after) before.length
      ((before.length : Int) + xs.length) = xs := by
  have first : OrderAggregation.sliceBound (before ++ xs ++ after).length before.length =
      before.length := by
    rw [OrderAggregation.sliceBound, if_neg (by omega)]
    simp
  have last : OrderAggregation.sliceBound (before ++ xs ++ after).length
      ((before.length : Int) + xs.length) = (before ++ xs).length := by
    rw [OrderAggregation.sliceBound, if_neg (by omega)]
    simp
    omega
  rw [OrderAggregation.slice, first, last, List.take_left' rfl, List.drop_left' rfl]

/-- The loop over the manifest finds the entries again, wherever they begin. -/
theorem unflatten_run {entries : Entries α} (before after : List α)
    (out : Mapping String (NdArray α))
    (apart : ((out.items ++ entries).map Prod.fst).Nodup) :
    ∃ last, (manifestOf entries).foldlM
      (unflattenEntry (before ++ vectorOf entries ++ after)) (out, (before.length : Int)) =
        .ok (last, ((before ++ vectorOf entries).length : Int)) ∧
      last.items = out.items ++ entries := by
  induction entries generalizing before out with
  | nil => exact ⟨out, by simp [manifestOf, vectorOf, pure, Except.pure], by simp⟩
  | cons e rest ih =>
    obtain ⟨key, arr⟩ := e
    have absent : key ∉ out.items.map Prod.fst := by
      intro present
      rw [List.map_append, List.nodup_append] at apart
      exact apart.2.2 key present key List.mem_cons_self rfl
    have stored := @set_items_absent α out key arr absent
    have whole : before ++ vectorOf ((key, arr) :: rest) =
        before ++ arr.entries ++ vectorOf rest := by
      simp [vectorOf]
    have cut : reshape (OrderAggregation.slice (before ++ vectorOf ((key, arr) :: rest) ++ after)
        before.length (before.length + arr.shape.size)) arr.shape = .ok arr := by
      rw [whole, List.append_assoc (before ++ arr.entries), ← arr.full, slice_between]
      unfold reshape
      rw [dif_pos arr.full]
    have step : unflattenEntry (before ++ vectorOf ((key, arr) :: rest) ++ after)
        (out, (before.length : Int)) (key, arr.shape) =
          .ok (out.set key arr, ((before ++ arr.entries).length : Int)) := by
      unfold unflattenEntry
      dsimp only
      rw [entry_size, cut, ok_bind, List.length_append, arr.full]
      rfl
    obtain ⟨last, ran, found⟩ := ih (before ++ arr.entries) (out.set key arr) (by
      rw [stored, List.append_assoc]
      exact apart)
    refine ⟨last, ?_, ?_⟩
    · rw [whole] at step ⊢
      rw [manifestOf, List.map_cons, List.foldlM_cons, step, ok_bind]
      exact ran
    · rw [found, stored, List.append_assoc]
      rfl

/-- A vector of the right length is made of the entries of some arrays. -/
theorem exists_entries (manifest : Manifest) (flat : List α)
    (full : flat.length = (manifest.map fun e => e.2.size).sum) :
    ∃ entries : Entries α, manifestOf entries = manifest ∧ vectorOf entries = flat := by
  induction manifest generalizing flat with
  | nil => exact ⟨[], rfl, (List.length_eq_zero_iff.mp full).symm⟩
  | cons e rest ih =>
    obtain ⟨key, shape⟩ := e
    simp only [List.map_cons, List.sum_cons] at full
    have head : (flat.take shape.size).length = shape.size := by
      rw [List.length_take]
      omega
    have tail : (flat.drop shape.size).length = (rest.map fun e => e.2.size).sum := by
      rw [List.length_drop]
      omega
    obtain ⟨entries, shapes, joined⟩ := ih (flat.drop shape.size) tail
    refine ⟨(key, ⟨shape, flat.take shape.size, head⟩) :: entries, ?_, ?_⟩
    · rw [manifestOf, List.map_cons, ← manifestOf, shapes]
    · rw [vectorOf, List.flatMap_cons, ← vectorOf, joined, List.take_append_drop]

theorem unflattenState_eq {entries : Entries α} (apart : (entries.map Prod.fst).Nodup) :
    ∃ state, unflattenState (vectorOf entries) (manifestOf entries) = .ok state ∧
      state.items = entries := by
  obtain ⟨state, ran, found⟩ := @unflatten_run α entries [] [] Mapping.empty apart
  refine ⟨state, ?_, found⟩
  unfold unflattenState
  rw [List.append_nil, List.nil_append] at ran
  rw [show (0 : Int) = (([] : List α).length : Int) from rfl, ran, ok_bind]

theorem byKey_sorted {entries : Entries α} (sorted : (entries.map Prod.fst).Pairwise (· < ·)) :
    Json.byKey entries = entries := by
  apply List.Pairwise.insertionSort_eq
  rw [List.pairwise_map] at sorted
  exact sorted.imp fun smaller => le_of_lt smaller

/-- Flattening and unflattening undo each other, in both orders. -/
theorem flattenState_unflattenState :
    (∀ state : Mapping String (NdArray α), ∃ flat manifest back,
      flattenState state = .ok (flat, manifest) ∧ unflattenState flat manifest = .ok back ∧
        back.items.Perm state.items) ∧
    ∀ (manifest : Manifest) (flat : List α), (manifest.map Prod.fst).Pairwise (· < ·) →
      flat.length = (manifest.map fun e => e.2.size).sum →
      ∃ state, unflattenState flat manifest = .ok state ∧
        flattenState state = .ok (flat, manifest) := by
  constructor
  · intro state
    have reordered := Json.byKey_perm state.items
    have apart : ((Json.byKey state.items).map Prod.fst).Nodup :=
      (reordered.map Prod.fst).nodup_iff.mpr state.nodup
    obtain ⟨back, ran, found⟩ := unflattenState_eq apart
    refine ⟨_, _, back, flattenState_eq state, ran, ?_⟩
    rw [found]
    exact reordered
  · intro manifest flat sorted full
    obtain ⟨entries, rfl, rfl⟩ := exists_entries manifest flat full
    have keys : (manifestOf entries).map Prod.fst = entries.map Prod.fst := by
      rw [manifestOf, List.map_map]
      rfl
    rw [keys] at sorted
    obtain ⟨state, ran, found⟩ := unflattenState_eq (sorted.imp fun smaller => ne_of_lt smaller)
    refine ⟨state, ran, ?_⟩
    rw [flattenState_eq, found, byKey_sorted sorted]

/-- A scalar, an array with no entries and a matrix. -/
def sampleManifest : Manifest :=
  [("bias", ⟨[], by decide, by decide⟩), ("empty", ⟨[0, 3], by decide, by decide⟩),
    ("weight", ⟨[2, 3], by decide, by decide⟩)]

theorem sampleManifest_roundTrip :
    ∃ state, unflattenState [7, 1, 2, 3, 4, 5, 6] sampleManifest = .ok state ∧
      flattenState state = .ok ([7, 1, 2, 3, 4, 5, 6], sampleManifest) :=
  (@flattenState_unflattenState ℕ).2 sampleManifest [7, 1, 2, 3, 4, 5, 6]
    (by decide +kernel) (by decide)

end HorizonRic.StateVectors
