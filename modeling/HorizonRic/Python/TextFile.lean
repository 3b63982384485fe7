import HorizonRic.Python.Number
import Mathlib.Data.List.TakeWhile

/-!
Text files: universal newlines, iteration over lines, and `str.strip`. A line
keeps its newline; the last one may have none.
-/
namespace Py

/-- The code points for which `str.isspace` holds. -/
def spaceCodes : List Nat :=
  [9, 10, 11, 12, 13, 28, 29, 30, 31, 32, 0x85, 0xa0, 0x1680, 0x2000, 0x2001, 0x2002, 0x2003,
    0x2004, 0x2005, 0x2006, 0x2007, 0x2008, 0x2009, 0x200a, 0x2028, 0x2029, 0x202f, 0x205f,
    0x3000]

def isStrSpace (c : Char) : Bool := decide (c.toNat ∈ spaceCodes)

def lstrip (cs : List Char) : List Char := cs.dropWhile isStrSpace

/-- `text.strip()`. -/
def strip (cs : List Char) : List Char := (lstrip (lstrip cs).reverse).reverse

/-- Reading in text mode turns `\r\n` and `\r` into `\n`. -/
def universalNewlines : List Char → List Char
  | '\r' :: '\n' :: rest => '\n' :: universalNewlines rest
  | '\r' :: rest => '\n' :: universalNewlines rest
  | c :: rest => c :: universalNewlines rest
  | [] => []

/-- `for line in f`, each line with its newline. -/
def fileLines : List Char → List (List Char)
  | [] => []
  | c :: rest =>
    if c = '\n' then ['\n'] :: fileLines rest
    else
      match fileLines rest with
      | [] => [[c]]
      | line :: more => (c :: line) :: more

/-- The characters after the last newline. -/
def lastPartial (cs : List Char) : List Char :=
  (cs.reverse.takeWhile (fun c => c != '\n')).reverse

/-- The text up to and with the last newline. -/
def terminated (cs : List Char) : List Char :=
  (cs.reverse.dropWhile (fun c => c != '\n')).reverse

theorem terminated_append_lastPartial (cs : List Char) :
    terminated cs ++ lastPartial cs = cs := by
  rw [terminated, lastPartial, ← List.reverse_append, List.takeWhile_append_dropWhile,
    List.reverse_reverse]

theorem lastPartial_no_newline (cs : List Char) : '\n' ∉ lastPartial cs := by
  intro member
  have kept := List.mem_takeWhile_imp (List.mem_reverse.mp member)
  simp at kept

theorem terminated_cases (cs : List Char) :
    terminated cs = [] ∨ ∃ body, terminated cs = body ++ ['\n'] := by
  rw [terminated]
  cases rest : cs.reverse.dropWhile (fun c => c != '\n') with
  | nil => exact Or.inl rfl
  | cons c tail =>
    right
    have stopped := List.head_dropWhile_not (fun c => c != '\n') (l := cs.reverse) (by rw [rest]; simp)
    simp only [rest, List.head_cons, bne_eq_false_iff_eq] at stopped
    exact ⟨tail.reverse, by rw [stopped, List.reverse_cons]⟩

theorem fileLines_newline_append (body rest : List Char) :
    fileLines (body ++ '\n' :: rest) = fileLines (body ++ ['\n']) ++ fileLines rest := by
  induction body with
  | nil => simp [fileLines]
  | cons c body ih =>
    simp only [List.cons_append, fileLines]
    split
    · rw [ih, List.cons_append]
    · rw [ih]
      have nonempty : fileLines (body ++ ['\n']) ≠ [] := by
        cases body with
        | nil => simp [fileLines]
        | cons d body =>
          simp only [List.cons_append, fileLines]
          split
          · simp
          · split <;> simp
      cases lines : fileLines (body ++ ['\n']) with
      | nil => exact absurd lines nonempty
      | cons line more => rfl

theorem fileLines_append {cs : List Char} (complete : cs = [] ∨ ∃ body, cs = body ++ ['\n'])
    (rest : List Char) : fileLines (cs ++ rest) = fileLines cs ++ fileLines rest := by
  rcases complete with rfl | ⟨body, rfl⟩
  · rfl
  · rw [List.append_assoc]
    exact fileLines_newline_append body rest

theorem fileLines_line {line : List Char} (one : '\n' ∉ line) :
    fileLines (line ++ ['\n']) = [line ++ ['\n']] := by
  induction line with
  | nil => rfl
  | cons c line ih =>
    simp only [List.mem_cons, not_or] at one
    simp only [List.cons_append, fileLines, if_neg (Ne.symm one.1), ih one.2]

theorem fileLines_open {line : List Char} (one : '\n' ∉ line) (nonempty : line ≠ []) :
    fileLines line = [line] := by
  induction line with
  | nil => exact absurd rfl nonempty
  | cons c line ih =>
    simp only [List.mem_cons, not_or] at one
    simp only [fileLines, if_neg (Ne.symm one.1)]
    cases line with
    | nil => rfl
    | cons d line => rw [ih one.2 (List.cons_ne_nil _ _)]

theorem universalNewlines_id {cs : List Char} (plain : '\r' ∉ cs) : universalNewlines cs = cs := by
  induction cs with
  | nil => rfl
  | cons c rest ih =>
    simp only [List.mem_cons, not_or] at plain
    unfold universalNewlines
    split
    · rename_i same
      exact absurd (List.cons.inj same).1.symm plain.1
    · rename_i same
      exact absurd (List.cons.inj same).1.symm plain.1
    · rename_i same
      cases same
      rw [ih plain.2]
    · rename_i same
      cases same

/-- Text that does not start with a newline is translated on its own. -/
theorem universalNewlines_append (cs : List Char) {rest : List Char}
    (start : ∀ tail, rest ≠ '\n' :: tail) :
    universalNewlines (cs ++ rest) = universalNewlines cs ++ universalNewlines rest := by
  fun_induction universalNewlines cs with
  | case1 tail ih => simp only [List.cons_append, universalNewlines, ih]
  | case2 tail notPair ih =>
    cases tail with
    | nil =>
      simp only [List.cons_append, List.nil_append, universalNewlines]
    | cons d tail =>
      have notNewline : d ≠ '\n' := by
        rintro rfl
        exact notPair tail rfl
      simp only [List.cons_append] at ih ⊢
      rw [universalNewlines, ih]
      intro other same
      exact notNewline (List.cons.inj same).1
  | case3 c tail notPair notReturn ih =>
    simp only [List.cons_append]
    rw [universalNewlines, ih]
    · rintro other rfl
      exact fun _ => notReturn rfl
    · exact notReturn
  | case4 => rfl

/-- A line at the end of a text is translated as it stands. -/
theorem universalNewlines_line (content : List Char) {line : List Char} (nonempty : line ≠ [])
    (oneLine : '\n' ∉ line) (noReturn : '\r' ∉ line) :
    universalNewlines (content ++ (line ++ ['\n'])) =
      universalNewlines content ++ (line ++ ['\n']) := by
  have start : ∀ tail, line ++ ['\n'] ≠ '\n' :: tail := by
    cases line with
    | nil => exact absurd rfl nonempty
    | cons c rest =>
      intro tail same
      apply oneLine
      rw [← (List.cons.inj same).1]
      exact List.mem_cons_self
  have plain : '\r' ∉ line ++ ['\n'] := by simpa using noReturn
  rw [universalNewlines_append content start, universalNewlines_id plain]

theorem lastPartial_newline (cs : List Char) : lastPartial (cs ++ ['\n']) = [] := by
  simp [lastPartial]

theorem lstrip_of_head {c : Char} (tail : List Char) (h : isStrSpace c = false) :
    lstrip (c :: tail) = c :: tail := by
  simp [lstrip, h]

theorem lstrip_eq_nil {cs : List Char} (h : lstrip cs = []) :
    ∀ c ∈ cs, isStrSpace c = true := by
  simpa [lstrip, List.dropWhile_eq_nil_iff] using h

theorem lstrip_append_of_blank {cs : List Char} (blank : ∀ c ∈ cs, isStrSpace c = true)
    (rest : List Char) : lstrip (cs ++ rest) = lstrip rest :=
  List.dropWhile_append_of_pos blank

theorem strip_eq_nil_iff (cs : List Char) : strip cs = [] ↔ ∀ c ∈ cs, isStrSpace c = true := by
  constructor
  · intro h
    have inner : lstrip (lstrip cs).reverse = [] := List.reverse_eq_nil_iff.mp h
    have blank := lstrip_eq_nil inner
    cases rest : lstrip cs with
    | nil => exact lstrip_eq_nil rest
    | cons c tail =>
      exfalso
      have space : isStrSpace c = true := blank c (by rw [rest]; simp)
      have stopped := List.head_dropWhile_not isStrSpace (l := cs) (by
        change lstrip cs ≠ []
        rw [rest]
        simp)
      change isStrSpace ((lstrip cs).head _) = false at stopped
      simp only [rest, List.head_cons] at stopped
      rw [space] at stopped
      cases stopped
  · intro blank
    have empty : lstrip cs = [] := by
      simpa [lstrip, List.dropWhile_eq_nil_iff] using blank
    rw [strip, empty]
    rfl

/-- A text with solid ends, between blanks, is what stripping leaves. -/
theorem strip_padded {before body after : List Char}
    (hb : ∀ c ∈ before, isStrSpace c = true) (ha : ∀ c ∈ after, isStrSpace c = true)
    (start : ∃ c tail, body = c :: tail ∧ isStrSpace c = false)
    (stop : ∃ init c, body = init ++ [c] ∧ isStrSpace c = false) :
    strip (before ++ (body ++ after)) = body := by
  have left : lstrip (body ++ after) = body ++ after := by
    obtain ⟨c, tail, shape, solid⟩ := start
    rw [shape]
    exact lstrip_of_head (tail ++ after) solid
  have right : lstrip body.reverse = body.reverse := by
    obtain ⟨init, c, shape, solid⟩ := stop
    rw [shape, List.reverse_append]
    exact lstrip_of_head _ solid
  have blank : ∀ c ∈ after.reverse, isStrSpace c = true :=
    fun c member => ha c (List.mem_reverse.mp member)
  rw [strip, lstrip_append_of_blank hb, left, List.reverse_append, lstrip_append_of_blank blank,
    right, List.reverse_reverse]

end Py
