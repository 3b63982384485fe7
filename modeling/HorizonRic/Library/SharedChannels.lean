import Mathlib.Data.List.Count
import Mathlib.Tactic.Basic

/-!
One slot on channels that several parties may choose at once. A party that chooses none
is idle. On a channel that is occupied already it is blocked; where another party has
chosen the same channel the two collide; otherwise it has the channel alone.
-/
namespace SharedChannels

inductive Verdict where
  | idle
  | blocked
  | collided
  | alone
  deriving DecidableEq, Repr

variable {κ : Type*} [DecidableEq κ] (occupied : κ → Bool)

/-- One party against the choices of the others. -/
def against (others : List (Option κ)) : Option κ → Verdict
  | none => .idle
  | some channel =>
    if occupied channel then .blocked
    else if some channel ∈ others then .collided
    else .alone

/-- One party where the choices of all are counted together, its own among them. -/
def among (choices : List (Option κ)) : Option κ → Verdict
  | none => .idle
  | some channel =>
    if occupied channel then .blocked
    else if 1 < choices.count (some channel) then .collided
    else .alone

def verdicts (choices : List (Option κ)) : List Verdict := choices.map (among occupied choices)

/-- The two views of a party agree. -/
theorem among_eq_against (before after : List (Option κ)) (choice : Option κ) :
    among occupied (before ++ choice :: after) choice =
      against occupied (before ++ after) choice := by
  cases choice with
  | none => rfl
  | some channel =>
    have counted : 1 < (before ++ some channel :: after).count (some channel) ↔
        some channel ∈ before ++ after := by
      rw [← List.count_pos_iff]
      simp only [List.count_append, List.count_cons_self]
      omega
    simp only [among, against, counted]

/-- Everyone has one verdict. -/
theorem count_verdicts (vs : List Verdict) :
    vs.count .alone + vs.count .collided + vs.count .blocked =
      vs.countP (fun v => v ≠ .idle) := by
  induction vs with
  | nil => rfl
  | cons v rest ih =>
    cases v <;> simp at ih ⊢ <;> omega

/-- Those who do not stay out are those who chose a channel. -/
theorem countP_verdicts (choices : List (Option κ)) :
    (verdicts occupied choices).countP (fun v => v ≠ .idle) =
      choices.countP Option.isSome := by
  rw [verdicts, List.countP_map]
  apply List.countP_congr
  intro choice _
  cases choice with
  | none => simp [among]
  | some channel =>
    simp only [Function.comp_apply, among, Option.isSome_some, iff_true]
    split
    · simp
    · split <;> simp

/-- How many have this channel alone. -/
def holders (choices : List (Option κ)) (channel : κ) : ℕ :=
  choices.countP fun choice =>
    decide (choice = some channel ∧ among occupied choices choice = .alone)

theorem holders_le (choices : List (Option κ)) (channel : κ) :
    holders occupied choices channel ≤ if occupied channel then 0 else 1 := by
  unfold holders
  by_cases held : occupied channel = false ∧ choices.count (some channel) ≤ 1
  · have most : (choices.countP fun choice =>
        decide (choice = some channel ∧ among occupied choices choice = .alone)) ≤
          choices.count (some channel) := by
      apply List.countP_mono_left
      intro choice _ both
      simp only [decide_eq_true_eq] at both
      simp [both.1]
    simp only [held.1, Bool.false_eq_true, if_false]
    omega
  · have nobody : (choices.countP fun choice =>
        decide (choice = some channel ∧ among occupied choices choice = .alone)) = 0 := by
      rw [List.countP_eq_zero]
      intro choice _ both
      simp only [decide_eq_true_eq] at both
      obtain ⟨rfl, alone⟩ := both
      simp only [among] at alone
      split at alone
      · cases alone
      · rename_i free
        split at alone
        · cases alone
        · exact held ⟨by simpa using free, by omega⟩
    omega

end SharedChannels
