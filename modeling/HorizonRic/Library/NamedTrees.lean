import Mathlib.Data.List.Nodup
import Mathlib.Order.Basic

/-!
Trees whose branches carry names, distinct at each branching. What lies below the root is
listed with its path; the paths are distinct, so that sorting by them forgets the order in
which the tree was walked.
-/
namespace NamedTrees

inductive Tree (ν α : Type) where
  | leaf (a : α)
  | branch (entries : List (ν × Tree ν α))

variable {ν α : Type}

mutual
/-- Everything below the root with its path, one order of many. -/
def Tree.within : Tree ν α → List (List ν × Tree ν α)
  | .leaf _ => []
  | .branch entries => entriesWithin entries

def entriesWithin : List (ν × Tree ν α) → List (List ν × Tree ν α)
  | [] => []
  | (name, t) :: rest =>
    ([name], t) :: (t.within.map (fun (path, s) => (name :: path, s)) ++ entriesWithin rest)
end

mutual
/-- No name stands twice at one branching. -/
def Tree.Distinct : Tree ν α → Prop
  | .leaf _ => True
  | .branch entries => (entries.map Prod.fst).Nodup ∧ DistinctEntries entries

def DistinctEntries : List (ν × Tree ν α) → Prop
  | [] => True
  | (_, t) :: rest => t.Distinct ∧ DistinctEntries rest
end

/-- A path begins with the name of an entry. -/
theorem path_begins {entries : List (ν × Tree ν α)} {path : List ν} {s : Tree ν α}
    (member : (path, s) ∈ entriesWithin entries) :
    ∃ name later, path = name :: later ∧ name ∈ entries.map Prod.fst := by
  induction entries with
  | nil =>
    rw [entriesWithin] at member
    cases member
  | cons entry rest ih =>
    obtain ⟨name, t⟩ := entry
    rw [entriesWithin] at member
    rcases List.mem_cons.mp member with here | further
    · cases here
      exact ⟨name, [], rfl, List.mem_cons_self⟩
    · rcases List.mem_append.mp further with inside | later
      · obtain ⟨⟨path', s'⟩, _, same⟩ := List.mem_map.mp inside
        cases same
        exact ⟨name, path', rfl, List.mem_cons_self⟩
      · obtain ⟨other, tail, same, among⟩ := ih later
        exact ⟨other, tail, same, List.mem_cons_of_mem name among⟩

theorem within_path_ne_nil {t : Tree ν α} {path : List ν} {s : Tree ν α}
    (member : (path, s) ∈ t.within) : path ≠ [] := by
  cases t with
  | leaf a =>
    rw [Tree.within] at member
    cases member
  | branch entries =>
    rw [Tree.within] at member
    obtain ⟨name, later, rfl, _⟩ := path_begins member
    exact List.cons_ne_nil name later

mutual
/-- Every path leads to one place. -/
theorem Tree.within_nodup : ∀ t : Tree ν α, t.Distinct → (t.within.map Prod.fst).Nodup
  | .leaf _, _ => List.nodup_nil
  | .branch entries, distinct => by
    rw [Tree.Distinct] at distinct
    rw [Tree.within]
    exact entriesWithin_nodup entries distinct.1 distinct.2

theorem entriesWithin_nodup : ∀ entries : List (ν × Tree ν α), (entries.map Prod.fst).Nodup →
    DistinctEntries entries → ((entriesWithin entries).map Prod.fst).Nodup
  | [], _, _ => List.nodup_nil
  | (name, t) :: rest, names, distinct => by
    rw [DistinctEntries] at distinct
    rw [List.map_cons, List.nodup_cons] at names
    have inner := t.within_nodup distinct.1
    have outer := entriesWithin_nodup rest names.2 distinct.2
    have prefixed : (t.within.map fun (path, s) => (name :: path, s)).map Prod.fst =
        (t.within.map Prod.fst).map (name :: ·) := by
      rw [List.map_map, List.map_map]
      rfl
    rw [entriesWithin, List.map_cons, List.map_append, prefixed, List.nodup_cons, List.nodup_append]
    refine ⟨?_, inner.map fun _ _ same => (List.cons.inj same).2, outer, ?_⟩
    · intro again
      rcases List.mem_append.mp again with inside | later
      · obtain ⟨path, member, same⟩ := List.mem_map.mp inside
        obtain ⟨⟨path', s⟩, among, rfl⟩ := List.mem_map.mp member
        exact within_path_ne_nil among (List.cons.inj same).2
      · obtain ⟨⟨path', s⟩, among, same⟩ := List.mem_map.mp later
        obtain ⟨other, tail, begins, member⟩ := path_begins among
        dsimp only at same
        rw [begins] at same
        exact names.1 ((List.cons.inj same).1 ▸ member)
    · rintro path inside path' later rfl
      obtain ⟨short, _, rfl⟩ := List.mem_map.mp inside
      obtain ⟨⟨path', s⟩, among, same⟩ := List.mem_map.mp later
      obtain ⟨other, tail, begins, member⟩ := path_begins among
      dsimp only at same
      rw [begins] at same
      exact names.1 ((List.cons.inj same).1 ▸ member)
end

/-- Two orders of the same members, sorted by a key that tells them apart, are one. -/
theorem eq_of_sorted {β κ : Type} [PartialOrder κ] {key : β → κ} {xs ys : List β}
    (perm : xs.Perm ys) (apart : ∀ a ∈ xs, ∀ b ∈ xs, key a = key b → a = b)
    (sorted : xs.Pairwise fun a b => key a ≤ key b)
    (sorted' : ys.Pairwise fun a b => key a ≤ key b) : xs = ys := by
  refine perm.eq_of_pairwise ?_ sorted sorted'
  intro a b left right up down
  exact apart a left b (perm.symm.subset right) (le_antisymm up down)

end NamedTrees
