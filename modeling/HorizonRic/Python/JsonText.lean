import HorizonRic.Python.JsonCanonical
import HorizonRic.Python.TextFile

/-!
Texts and values of JSON documents. What `dumps` writes of a mapping is one line
of printable ASCII between braces, and what `loads` returns is readable, so it
can be written and read again.
-/
namespace Py.Json

def Printable (c : Char) : Prop := 0x20 ≤ c.toNat ∧ c.toNat < 0x7f

theorem hexDigit_printable : ∀ n < 16, Printable (hexDigit n) := by
  unfold Printable
  decide

theorem unicodeEscape_printable (n : Nat) : ∀ c ∈ unicodeEscape n, Printable c := by
  have digit : ∀ m, Printable (hexDigit (m % 16)) :=
    fun m => hexDigit_printable _ (Nat.mod_lt _ (by decide))
  intro c member
  simp only [unicodeEscape, hex4, List.mem_cons, List.not_mem_nil, or_false] at member
  rcases member with rfl | rfl | rfl | rfl | rfl | rfl
  · unfold Printable; decide
  · unfold Printable; decide
  all_goals exact digit _

theorem shortEscape_printable {c letter : Char} (h : shortEscape c = some letter) :
    Printable letter := by
  have each : ∀ pair ∈ shortEscapes, Printable pair.2 := by
    unfold Printable
    decide
  exact each _ (shortEscape_mem h)

theorem escapeChar_printable (c : Char) : ∀ d ∈ escapeChar c, Printable d := by
  intro d member
  unfold escapeChar at member
  split at member
  · rename_i letter short
    simp only [List.mem_cons, List.not_mem_nil, or_false] at member
    rcases member with rfl | rfl
    · unfold Printable; decide
    · exact shortEscape_printable short
  · split at member
    · rename_i printable
      rw [List.mem_singleton.mp member]
      exact printable
    · split at member
      · exact unicodeEscape_printable _ d member
      · rcases List.mem_append.mp member with high | low
        · exact unicodeEscape_printable _ d high
        · exact unicodeEscape_printable _ d low

theorem quote_printable (s : String) : ∀ c ∈ quote s, Printable c := by
  intro c member
  simp only [quote, List.mem_cons, List.mem_append, List.mem_flatMap, List.not_mem_nil,
    or_false] at member
  rcases member with rfl | ⟨d, _, escaped⟩ | rfl
  · unfold Printable; decide
  · exact escapeChar_printable d c escaped
  · unfold Printable; decide

theorem digit_printable {c : Char} (digit : c.isDigit = true) : Printable c := by
  simp only [Char.isDigit, Bool.and_eq_true, decide_eq_true_eq] at digit
  obtain ⟨low, high⟩ := digit
  have lower : 48 ≤ c.toNat := low
  have upper : c.toNat ≤ 57 := high
  unfold Printable
  omega

theorem minus_printable {minus : List Char} (shape : minus = [] ∨ minus = ['-']) :
    ∀ c ∈ minus, Printable c := by
  unfold Printable
  rcases shape with rfl | rfl
  · simp
  · rw [List.forall_mem_singleton]
    decide

theorem whole_printable {whole : List Char} (shape : WholeDigits whole) :
    ∀ c ∈ whole, Printable c := by
  rcases shape with rfl | ⟨_, _, rfl, _, all⟩
  · rw [List.forall_mem_singleton]
    unfold Printable
    decide
  · exact fun c member => digit_printable (all c member)

theorem fraction_printable {fraction : List Char} (shape : FractionText fraction) :
    ∀ c ∈ fraction, Printable c := by
  rcases shape with rfl | ⟨d, tail, rfl, all⟩
  · simp
  · intro c member
    rcases List.mem_cons.mp member with rfl | digits
    · unfold Printable; decide
    · exact digit_printable (all c digits)

theorem exponent_printable {exponent : List Char} (shape : ExponentText exponent) :
    ∀ c ∈ exponent, Printable c := by
  rcases shape with rfl | ⟨e, sign, d, tail, rfl, letter, signs, all⟩
  · simp
  · intro c member
    rcases List.mem_cons.mp member with rfl | later
    · unfold Printable
      rcases letter with rfl | rfl <;> decide
    · rcases List.mem_append.mp later with inSign | digits
      · unfold Printable
        rcases signs with rfl | rfl | rfl
        · cases inSign
        · rw [List.mem_singleton.mp inSign]; decide
        · rw [List.mem_singleton.mp inSign]; decide
      · exact digit_printable (all c digits)

theorem literal_printable (word : String)
    (known : word ∈ ["null", "true", "false", "NaN", "Infinity", "-Infinity"]) :
    ∀ c ∈ word.toList, Printable c := by
  have printed : ∀ text ∈ ["null", "true", "false", "NaN", "Infinity", "-Infinity"],
      text.toList.all (fun c => decide (0x20 ≤ c.toNat ∧ c.toNat < 0x7f)) = true := by decide
  intro c member
  unfold Printable
  exact of_decide_eq_true (List.all_eq_true.mp (printed word known) c member)

section
variable (py : Interpreter)

theorem floatText_printable {x : Number} (readable : NumReadable py x) :
    ∀ c ∈ floatText py x, Printable c := by
  cases x with
  | nan => exact literal_printable "NaN" (by simp)
  | inf negative =>
    cases negative
    · exact literal_printable "Infinity" (by simp)
    · exact literal_printable "-Infinity" (by simp)
  | fin q =>
    obtain ⟨minus, whole, fraction, exponent, text, hm, hw, hf, he, _⟩ := readable.token
    intro c member
    rw [floatText, text] at member
    simp only [List.mem_append] at member
    rcases member with inMinus | inWhole | inFraction | inExponent
    · exact minus_printable hm c inMinus
    · exact whole_printable hw c inWhole
    · exact fraction_printable hf c inFraction
    · exact exponent_printable he c inExponent

theorem mem_printElements {style : Style} {xs : List Value} {c : Char}
    (member : c ∈ printElements py style xs) :
    (∃ x ∈ xs, c ∈ print py style x) ∨ c ∈ style.itemSep := by
  induction xs with
  | nil => cases member
  | cons x xs ih =>
    cases xs with
    | nil => exact Or.inl ⟨x, List.mem_cons_self, member⟩
    | cons y ys =>
      rw [printElements, List.mem_append, List.mem_append] at member
      rcases member with (first | sep) | later
      · exact Or.inl ⟨x, List.mem_cons_self, first⟩
      · exact Or.inr sep
      · rcases ih later with ⟨z, among, inside⟩ | sep
        · exact Or.inl ⟨z, List.mem_cons_of_mem _ among, inside⟩
        · exact Or.inr sep
      · simp

theorem mem_printMembers {style : Style} {items : List (String × Value)} {c : Char}
    (member : c ∈ printMembers py style items) :
    (∃ item ∈ items, c ∈ quote item.1 ∨ c ∈ print py style item.2) ∨
      c ∈ style.itemSep ∨ c ∈ style.keySep := by
  induction items with
  | nil => cases member
  | cons item items ih =>
    obtain ⟨k, x⟩ := item
    cases items with
    | nil =>
      rw [printMembers, List.mem_append, List.mem_append] at member
      rcases member with (key | sep) | value
      · exact Or.inl ⟨(k, x), List.mem_cons_self, Or.inl key⟩
      · exact Or.inr (Or.inr sep)
      · exact Or.inl ⟨(k, x), List.mem_cons_self, Or.inr value⟩
    | cons item' items' =>
      rw [printMembers] at member
      · simp only [List.mem_append] at member
        rcases member with (((key | sep) | value) | sep) | later
        · exact Or.inl ⟨(k, x), List.mem_cons_self, Or.inl key⟩
        · exact Or.inr (Or.inr sep)
        · exact Or.inl ⟨(k, x), List.mem_cons_self, Or.inr value⟩
        · exact Or.inr (Or.inl sep)
        · rcases ih later with ⟨z, among, inside⟩ | sep
          · exact Or.inl ⟨z, List.mem_cons_of_mem _ among, inside⟩
          · exact Or.inr sep
      · simp

def Style.PrintableSeps (style : Style) : Prop :=
  ∀ c, c ∈ style.itemSep ∨ c ∈ style.keySep → Printable c

theorem spaced_printable : spaced.PrintableSeps := by
  intro c member
  simp only [spaced, List.mem_cons, List.not_mem_nil, or_false] at member
  unfold Printable
  rcases member with (rfl | rfl) | rfl | rfl <;> decide

theorem print_printable {style : Style} (seps : style.PrintableSeps) {v : Value}
    (readable : Readable py v) : ∀ c ∈ print py style v, Printable c := by
  induction v using Value.nested_induction with
  | null => exact literal_printable "null" (by simp)
  | bool b =>
    cases b
    · exact literal_printable "false" (by simp)
    · exact literal_printable "true" (by simp)
  | int n =>
    obtain ⟨minus, whole, text, hm, hw, _⟩ := int_text n
    intro c member
    rw [print, text, List.mem_append] at member
    rcases member with inMinus | inWhole
    · exact minus_printable hm c inMinus
    · exact whole_printable hw c inWhole
  | float x => exact floatText_printable py readable
  | str s => exact quote_printable s
  | list xs ih =>
    rw [readable_list] at readable
    intro c member
    simp only [print, List.mem_cons, List.mem_append, List.not_mem_nil, or_false] at member
    rcases member with rfl | inside | rfl
    · unfold Printable; decide
    · rcases mem_printElements py inside with ⟨x, among, within⟩ | sep
      · exact ih x among (readable x among) c within
      · exact seps c (Or.inl sep)
    · unfold Printable; decide
  | dict items ih =>
    rw [readable_dict] at readable
    intro c member
    simp only [print, List.mem_cons, List.mem_append, List.not_mem_nil, or_false] at member
    rcases member with rfl | inside | rfl
    · unfold Printable; decide
    · rcases mem_printMembers py inside with ⟨item, among, key | value⟩ | sep
      · exact quote_printable item.1 c key
      · exact ih item among (readable.2 item among) c value
      · exact seps c sep
    · unfold Printable; decide

theorem printable_not_newline {c : Char} (printable : Printable c) : c ≠ '\n' ∧ c ≠ '\r' := by
  unfold Printable at printable
  constructor
  · rintro rfl
    exact absurd printable.1 (by decide)
  · rintro rfl
    exact absurd printable.1 (by decide)

theorem print_dict_ends (style : Style) (items : Dict Value) :
    (∃ tail, print py style (.dict items) = '\x7b' :: tail) ∧
      ∃ init, print py style (.dict items) = init ++ ['\x7d'] :=
  ⟨⟨_, rfl⟩, ⟨'\x7b' :: printMembers py style items, rfl⟩⟩

theorem strip_print_dict (style : Style) (items : Dict Value) {before after : List Char}
    (hb : ∀ c ∈ before, isStrSpace c = true) (ha : ∀ c ∈ after, isStrSpace c = true) :
    strip (before ++ (print py style (.dict items) ++ after)) = print py style (.dict items) := by
  obtain ⟨⟨tail, starts⟩, init, stops⟩ := print_dict_ends py style items
  exact strip_padded hb ha ⟨_, tail, starts, by decide⟩ ⟨init, _, stops, by decide⟩

/-- Whitespace around the value is no part of it. -/
theorem loads_print_padded {style : Style} (plain : style.Plain) {v : Value}
    (readable : Readable py v) {before after : List Char} (start : ∀ c ∈ before, isSpace c = true)
    (space : ∀ c ∈ after, isSpace c = true) :
    loads py (before ++ (print py style v ++ after)) = .ok v := by
  obtain ⟨c, tail, shape, notSpace, _⟩ := print_valueHead py style readable
  have skipped : skipSpace (before ++ (print py style v ++ after)) = print py style v ++ after := by
    rw [skipSpace, List.dropWhile_append_of_pos start, ← skipSpace, shape, List.cons_append,
      skipSpace_cons _ notSpace]
  have stops : Stops after := by
    intro d more same
    have blank := space d (by rw [same]; exact List.mem_cons_self)
    simp only [isSpace, Bool.or_eq_true, beq_iff_eq] at blank
    rcases blank with ((rfl | rfl) | rfl) | rfl <;> decide
  have enough : 2 * (print py style v).length ≤
      2 * (before ++ (print py style v ++ after)).length + 2 := by
    rw [List.length_append, List.length_append]
    omega
  have read := (reads py plain _).1 v after readable enough stops
  have rest : skipSpace after = [] := by
    rw [skipSpace, List.dropWhile_eq_nil_iff]
    exact space
  rw [loads, skipped, read, ok_bind]
  exact if_pos rest

theorem loads_print_space {style : Style} (plain : style.Plain) {v : Value}
    (readable : Readable py v) {after : List Char} (space : ∀ c ∈ after, isSpace c = true) :
    loads py (print py style v ++ after) = .ok v :=
  loads_print_padded py plain readable (List.forall_mem_nil _) space

/-- A character that `str.strip` removes starts no value. -/
theorem parseValue_blank {c : Char} (blank : isStrSpace c = true) (fuel : Nat)
    (rest : List Char) : parseValue py fuel (c :: rest) = .error .jsonDecodeError := by
  have code : c.toNat ∈ spaceCodes := of_decide_eq_true blank
  have back : c = Char.ofNat c.toNat := (Char.ofNat_toNat c).symm
  cases fuel with
  | zero => rfl
  | succ fuel =>
    generalize c.toNat = n at code back
    simp only [spaceCodes, List.mem_cons, List.not_mem_nil, or_false] at code
    rcases code with rfl | rfl | rfl | rfl | rfl | rfl | rfl | rfl | rfl | rfl | rfl | rfl | rfl |
      rfl | rfl | rfl | rfl | rfl | rfl | rfl | rfl | rfl | rfl | rfl | rfl | rfl | rfl | rfl | rfl
    all_goals
      subst back
      rfl

/-- What is read from a value between blanks, if anything, is the value. -/
theorem loads_print_blank {style : Style} (plain : style.Plain) {v v' : Value}
    (readable : Readable py v) {before after : List Char}
    (blank : ∀ c ∈ before, isStrSpace c = true) (space : ∀ c ∈ after, isSpace c = true)
    (loaded : loads py (before ++ (print py style v ++ after)) = .ok v') : v' = v := by
  by_cases skipped : ∀ c ∈ before, isSpace c = true
  · rw [loads_print_padded py plain readable skipped space] at loaded
    exact (Except.ok.inj loaded).symm
  · exfalso
    have stop : skipSpace before ≠ [] := by
      intro none
      exact skipped (List.dropWhile_eq_nil_iff.mp none)
    obtain ⟨c, tail, shape⟩ := List.exists_cons_of_ne_nil stop
    have inside : c ∈ before := by
      apply (List.dropWhile_sublist isSpace).subset
      rw [← skipSpace, shape]
      exact List.mem_cons_self
    have text : skipSpace (before ++ (print py style v ++ after)) =
        c :: (tail ++ (print py style v ++ after)) := by
      rw [skipSpace, List.dropWhile_append, if_neg, ← skipSpace, shape, List.cons_append]
      rw [← skipSpace, shape]
      exact Bool.false_ne_true
    rw [loads, text, parseValue_blank py (blank c inside)] at loaded
    cases loaded

/-! What `loads` returns. -/

/-- Every finite float that `float` reads is printed as a token that it reads back. -/
def FloatsReadable : Prop := ∀ s q, py.floatOfStr s = some (.fin q) → FloatReadable py q

theorem set_keys_nodup {d : Dict Value} (key : String) (v : Value)
    (nodup : (d.map Prod.fst).Nodup) : ((Dict.set key v d).map Prod.fst).Nodup := by
  by_cases old : key ∈ d.map Prod.fst
  · have keys : (Dict.set key v d).map Prod.fst = d.map Prod.fst := by
      clear nodup
      induction d with
      | nil => cases old
      | cons item rest ih =>
        obtain ⟨k, w⟩ := item
        by_cases same : k = key
        · rw [Dict.set, if_pos same]
          simp
        · have later : key ∈ rest.map Prod.fst := by
            rcases List.mem_cons.mp old with first | later
            · exact absurd first.symm same
            · exact later
          rw [Dict.set, if_neg same, List.map_cons, ih later, List.map_cons]
    rwa [keys]
  · rw [set_append old, List.map_append, List.nodup_append]
    refine ⟨nodup, List.nodup_singleton _, ?_⟩
    intro a inside b new same
    have fresh : b = key := List.mem_singleton.mp new
    rw [same, fresh] at inside
    exact old inside

theorem mem_set {d : Dict Value} {key : String} {v : Value} {item : String × Value}
    (member : item ∈ Dict.set key v d) : item = (key, v) ∨ item ∈ d := by
  induction d with
  | nil => exact Or.inl (List.mem_singleton.mp member)
  | cons first rest ih =>
    obtain ⟨k, w⟩ := first
    rw [Dict.set] at member
    split at member
    · rename_i same
      rcases List.mem_cons.mp member with rfl | later
      · exact Or.inl (by rw [same])
      · exact Or.inr (List.mem_cons_of_mem _ later)
    · rcases List.mem_cons.mp member with rfl | later
      · exact Or.inr List.mem_cons_self
      · rcases ih later with new | old
        · exact Or.inl new
        · exact Or.inr (List.mem_cons_of_mem _ old)

theorem dictOfPairs_readable {pairs : List (String × Value)}
    (readable : ∀ pair ∈ pairs, Readable py pair.2) : Readable py (.dict (dictOfPairs pairs)) := by
  have general : ∀ (pairs : List (String × Value)) (d : Dict Value),
      (∀ pair ∈ pairs, Readable py pair.2) → Readable py (.dict d) →
        Readable py (.dict (pairs.foldl (fun d pair => Dict.set pair.1 pair.2 d) d)) := by
    intro pairs
    induction pairs with
    | nil => exact fun d _ ok => ok
    | cons pair rest ih =>
      intro d each ok
      rw [readable_dict] at ok
      apply ih (Dict.set pair.1 pair.2 d) (fun p later => each p (List.mem_cons_of_mem _ later))
      rw [readable_dict]
      refine ⟨set_keys_nodup _ _ ok.1, fun item member => ?_⟩
      rcases mem_set member with rfl | old
      · exact each pair List.mem_cons_self
      · exact ok.2 item old
  exact general pairs [] readable ((readable_dict py []).mpr ⟨List.nodup_nil, by simp⟩)

variable {py}

theorem parseNumber_readable (floats : FloatsReadable py) {cs rest : List Char} {v : Value}
    (parsed : parseNumber py cs = .ok (v, rest)) : Readable py v := by
  unfold parseNumber at parsed
  split at parsed
  · cases parsed
  · split at parsed
    · rename_i short
      cases parsed
      exact short
    · cases parsed
  · split at parsed
    · rename_i x found
      cases parsed
      cases x with
      | fin q => exact floats _ q found
      | _ => trivial
    · cases parsed

theorem parseAtom_readable (floats : FloatsReadable py) {cs rest : List Char} {v : Value}
    (parsed : parseAtom py cs = .ok (v, rest)) : Readable py v := by
  unfold parseAtom at parsed
  split at parsed
  all_goals first
    | (cases parsed; trivial)
    | exact parseNumber_readable floats parsed

/-- The three scanners return readable values, by induction on the fuel. -/
theorem parsed_readable (floats : FloatsReadable py) (fuel : Nat) :
    (∀ cs v rest, parseValue py fuel cs = .ok (v, rest) → Readable py v) ∧
    (∀ cs xs rest, parseElements py fuel cs = .ok (xs, rest) → ∀ x ∈ xs, Readable py x) ∧
    ∀ cs pairs rest, parseMembers py fuel cs = .ok (pairs, rest) →
      ∀ pair ∈ pairs, Readable py pair.2 := by
  induction fuel with
  | zero =>
    refine ⟨?_, ?_, ?_⟩
    · intro cs v rest parsed; cases parsed
    · intro cs xs rest parsed; cases parsed
    · intro cs pairs rest parsed; cases parsed
  | succ fuel ih =>
    obtain ⟨values, elements, members⟩ := ih
    refine ⟨?_, ?_, ?_⟩
    · intro cs v rest parsed
      unfold parseValue at parsed
      split at parsed
      · obtain ⟨_, _, done⟩ := bind_eq_ok parsed
        cases done
        trivial
      · split at parsed
        · cases parsed
          exact (readable_list py []).mpr (by simp)
        · obtain ⟨⟨xs, rest'⟩, inner, done⟩ := bind_eq_ok parsed
          cases done
          exact (readable_list py xs).mpr (elements _ _ _ inner)
      · split at parsed
        · cases parsed
          exact (readable_dict py []).mpr ⟨List.nodup_nil, by simp⟩
        · obtain ⟨⟨pairs, rest'⟩, inner, done⟩ := bind_eq_ok parsed
          cases done
          exact dictOfPairs_readable py (members _ _ _ inner)
      · exact parseAtom_readable floats parsed
    · intro cs xs rest parsed
      unfold parseElements at parsed
      obtain ⟨⟨x, rest'⟩, first, more⟩ := bind_eq_ok parsed
      have head := values _ _ _ first
      dsimp only at more
      split at more
      · cases more
        simpa using head
      · obtain ⟨⟨ys, rest''⟩, later, done⟩ := bind_eq_ok more
        cases done
        intro y member
        rcases List.mem_cons.mp member with rfl | deeper
        · exact head
        · exact elements _ _ _ later y deeper
      · cases more
    · intro cs pairs rest parsed
      unfold parseMembers at parsed
      split at parsed
      · obtain ⟨⟨key, rest'⟩, _, more⟩ := bind_eq_ok parsed
        dsimp only at more
        split at more
        · obtain ⟨⟨x, rest''⟩, first, more⟩ := bind_eq_ok more
          have head := values _ _ _ first
          dsimp only at more
          split at more
          · cases more
            simpa using head
          · obtain ⟨⟨others, rest'''⟩, later, done⟩ := bind_eq_ok more
            cases done
            intro pair member
            rcases List.mem_cons.mp member with rfl | deeper
            · exact head
            · exact members _ _ _ later pair deeper
          · cases more
        · cases more
      · cases parsed

/-- What `loads` returns can be written and read again. -/
theorem loads_readable (floats : FloatsReadable py) {text : List Char} {v : Value}
    (loaded : loads py text = .ok v) : Readable py v := by
  obtain ⟨⟨w, rest⟩, parsed, done⟩ := bind_eq_ok loaded
  dsimp only at done
  split at done
  · cases done
    exact (parsed_readable floats _).1 _ _ _ parsed
  · cases done

end
end Py.Json
