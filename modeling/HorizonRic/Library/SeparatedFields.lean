import Mathlib.Data.List.Basic

/-!
Two fields joined by one separator. The joined text has a single reading exactly when
neither field contains the separator.
-/
namespace SeparatedFields
variable {α : Type} {sep : α} {first second : List α}

/-- Nothing else joins to the same text. -/
def UniqueReading (sep : α) (first second : List α) : Prop :=
  ∀ first' second', first' ++ sep :: second' = first ++ sep :: second →
    first' = first ∧ second' = second

/-- The first field ends at the first separator. -/
theorem first_ends {first' second' : List α} (clean : sep ∉ first) (clean' : sep ∉ first')
    (joined : first' ++ sep :: second' = first ++ sep :: second) :
    first' = first ∧ second' = second := by
  induction first' generalizing first with
  | nil =>
    cases first with
    | nil => exact ⟨rfl, (List.cons.inj joined).2⟩
    | cons head tail =>
      have here : sep = head := (List.cons.inj joined).1
      exact absurd (here ▸ List.mem_cons_self) clean
  | cons head' tail' ih =>
    cases first with
    | nil =>
      have here : head' = sep := (List.cons.inj joined).1
      exact absurd (here ▸ List.mem_cons_self) clean'
    | cons head tail =>
      obtain ⟨heads, tails⟩ := List.cons.inj joined
      obtain ⟨firsts, seconds⟩ := ih (fun later => clean (List.mem_cons_of_mem _ later))
        (fun later => clean' (List.mem_cons_of_mem _ later)) tails
      exact ⟨by rw [heads, firsts], seconds⟩

/-- A first field with a separator swallows another separator of the text. -/
theorem separator_in_second {first' second' : List α} (clean : sep ∉ first)
    (inside : sep ∈ first') (joined : first' ++ sep :: second' = first ++ sep :: second) :
    sep ∈ second := by
  induction first' generalizing first with
  | nil => cases inside
  | cons head' tail' ih =>
    cases first with
    | nil =>
      rw [← (List.cons.inj joined).2]
      exact List.mem_append_right _ List.mem_cons_self
    | cons head tail =>
      obtain ⟨heads, tails⟩ := List.cons.inj joined
      apply ih (fun later => clean (List.mem_cons_of_mem _ later)) ?_ tails
      rcases List.mem_cons.mp inside with here | later
      · exact absurd (here ▸ heads ▸ List.mem_cons_self) clean
      · exact later

theorem uniqueReading_iff : UniqueReading sep first second ↔ sep ∉ first ∧ sep ∉ second := by
  constructor
  · intro unique
    constructor
    · intro inside
      obtain ⟨before, after, split⟩ := List.append_of_mem inside
      have other := unique before (after ++ sep :: second) (by
        rw [split, List.append_assoc, List.cons_append])
      have lengths := congrArg List.length split
      rw [← other.1, List.length_append, List.length_cons] at lengths
      omega
    · intro inside
      obtain ⟨before, after, split⟩ := List.append_of_mem inside
      have other := unique (first ++ sep :: before) after (by
        rw [split, List.append_assoc, List.cons_append])
      have lengths := congrArg List.length other.1
      rw [List.length_append, List.length_cons] at lengths
      omega
  · rintro ⟨cleanFirst, cleanSecond⟩ first' second' joined
    apply first_ends cleanFirst ?_ joined
    intro inside
    exact cleanSecond (separator_in_second cleanFirst inside joined)

end SeparatedFields
