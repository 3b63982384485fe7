import HorizonRic.Python.Json
import HorizonRic.Python.Raises

/-!
What `json.loads` raises: `JSONDecodeError`, or the `ValueError` of an integer
that has more digits than the interpreter converts.
-/
namespace Py.Json

/-- `json.JSONDecodeError`, and the `ValueError` of `int`. -/
def isLoadError : PyErr → Bool
  | .jsonDecodeError => true
  | .valueError => true
  | _ => false

section
variable (py : Interpreter)

theorem parseNumber_raises (cs : List Char) : RaisesOnly isLoadError (parseNumber py cs) := by
  unfold parseNumber
  split
  · exact .error rfl
  · exact .ite (.ok _) (.error rfl)
  · split
    · exact .ok _
    · exact .error rfl

theorem parseAtom_raises (cs : List Char) : RaisesOnly isLoadError (parseAtom py cs) := by
  unfold parseAtom
  split
  all_goals first
    | exact .ok _
    | exact parseNumber_raises py _

theorem parseString_raises (cs : List Char) : RaisesOnly isLoadError (parseString cs) := by
  unfold parseString
  split
  · exact .ok _
  · exact .error rfl

/-- One fuel serves the three functions, so they are taken together. -/
theorem parse_raises (fuel : ℕ) :
    (∀ cs, RaisesOnly isLoadError (parseValue py fuel cs)) ∧
      (∀ cs, RaisesOnly isLoadError (parseElements py fuel cs)) ∧
        ∀ cs, RaisesOnly isLoadError (parseMembers py fuel cs) := by
  induction fuel with
  | zero =>
    refine ⟨fun cs => ?_, fun cs => ?_, fun cs => ?_⟩
    · unfold parseValue; exact .error rfl
    · unfold parseElements; exact .error rfl
    · unfold parseMembers; exact .error rfl
  | succ fuel ih =>
    obtain ⟨value, elements, members⟩ := ih
    refine ⟨fun cs => ?_, fun cs => ?_, fun cs => ?_⟩
    · unfold parseValue
      split
      · exact (parseString_raises _).bind fun _ => .ok _
      · split
        · exact .ok _
        · exact (elements _).bind fun _ => .ok _
      · split
        · exact .ok _
        · exact (members _).bind fun _ => .ok _
      · exact parseAtom_raises py _
    · unfold parseElements
      refine (value cs).bind fun ⟨_, rest⟩ => ?_
      dsimp only
      split
      · exact .ok _
      · exact (elements _).bind fun _ => .ok _
      · exact .error rfl
    · unfold parseMembers
      split
      · refine (parseString_raises _).bind fun ⟨_, rest⟩ => ?_
        dsimp only
        split
        · refine (value _).bind fun ⟨_, rest⟩ => ?_
          dsimp only
          split
          · exact .ok _
          · exact (members _).bind fun _ => .ok _
          · exact .error rfl
        · exact .error rfl
      · exact .error rfl

theorem loads_raises (text : List Char) : RaisesOnly isLoadError (loads py text) := by
  unfold loads
  exact ((parse_raises py _).1 _).bind fun _ => .ite (.ok _) (.error rfl)

/-- The outcomes of `json.loads`, by cases. -/
theorem loads_cases (text : List Char) : (∃ v, loads py text = .ok v) ∨
    loads py text = .error .jsonDecodeError ∨ loads py text = .error .valueError := by
  rcases (loads_raises py text).cases with done | ⟨e, raised, allowed⟩
  · exact Or.inl done
  · cases e with
    | jsonDecodeError => exact Or.inr (Or.inl raised)
    | valueError => exact Or.inr (Or.inr raised)
    | _ => cases allowed

end
end Py.Json
