import HorizonRic.Evidence.UnprotectedFields

/-!
The daemon's last look at its evidence: `verify` over the file at shutdown, and
the index of the first broken record it reports. An exception of `verify` leaves
the index that was set before the loop.
-/
namespace HorizonRic.Evidence

open Py Json HashChain

/-- `chain_index = -1`, before the event loop. -/
def initialChainIndex : Int := -1

/-- `audit_verify_first_broken_index` of the report: an exception is logged, and the
    index keeps its value. -/
def reportedIndex (verified : Except PyErr Int) : Int :=
  match verified with
  | .ok index => index
  | .error _ => initialChainIndex

def solidLines (content : List Char) : List (List Char) :=
  (linesOf content).filter fun line => !(strip line).isEmpty

section
variable (env : Platform)

/-- The line parses to a record, stored under the digest of `row`. -/
def LineViews (line : List Char) (row : ChainRow) : Prop :=
  ∃ r, readLine env none line = .ok (some (r, .str row.hash.hex)) ∧ tenantOf r = row.key ∧
    canonicalJson env r = .ok row.payload

/-- Every line parses to a record whose hash extends the chain of its tenant. -/
def LinesIntact (lines : List (List Char)) : Prop :=
  ∃ rows, List.Forall₂ (LineViews env) lines rows ∧ Intact (chainStep env) Digest.zero rows

/-- No record can be read from the line, or the record has no canonical JSON. -/
def LineRaises (line : List Char) : Prop :=
  (∃ e, readLine env none line = .error e) ∨
    ∃ row e, readLine env none line = .ok (some row) ∧ canonicalJson env row.1 = .error e

/-- The first line that does not extend its chain is one that raises. -/
def RaisesFirst (content : List Char) : Prop :=
  ∃ before line after, solidLines content = before ++ line :: after ∧
    LinesIntact env before ∧ LineRaises env line

/-- `verify` always answers, and neither it nor the report calls a broken file intact. -/
structure BreaksReported (content : List Char) : Prop where
  returns : ∃ index, (EvidenceStore.jsonl content).verify env none = .ok index
  verified : (EvidenceStore.jsonl content).verify env none = .ok (-1) →
    LinesIntact env (solidLines content)
  reported : reportedIndex ((EvidenceStore.jsonl content).verify env none) = -1 →
    LinesIntact env (solidLines content)

/-- The outcome of a line that is not blank. -/
def solidOutcome (line : List Char) : Outcome :=
  match readLine env none line with
  | .ok (some row) => .ok row
  | .ok none => .error (.other "skipped")
  | .error e => .error e

theorem readLine_not_skipped {line : List Char} (solid : strip line ≠ []) :
    readLine env none line ≠ .ok none := by
  intro skipped
  rw [readLine, if_neg solid] at skipped
  obtain ⟨obj, _, read⟩ := bind_eq_ok skipped
  exact readObject_not_skipped env obj read

theorem iter_solidLines (content : List Char) :
    (EvidenceStore.jsonl content).iter env none = (solidLines content).map (solidOutcome env) := by
  rw [EvidenceStore.iter, solidLines]
  induction linesOf content with
  | nil => rfl
  | cons line rest ih =>
    by_cases blank : strip line = []
    · have skipped : lineOutcome env none line = none := by
        rw [lineOutcome, readLine, if_pos blank]
      rw [List.filterMap_cons, skipped, ih, List.filter_cons, if_neg (by simp [blank])]
    · have seen : lineOutcome env none line = some (solidOutcome env line) := by
        have read := readLine_not_skipped env blank
        rw [lineOutcome, solidOutcome]
        cases outcome : readLine env none line with
        | error e => rfl
        | ok row =>
          cases row with
          | none => exact absurd outcome read
          | some row => rfl
      rw [List.filterMap_cons, seen, ih, List.filter_cons, if_pos (by simpa using blank),
        List.map_cons]

theorem views_solidOutcome (line : List Char) (row : ChainRow) :
    Views env (solidOutcome env line) row ↔ LineViews env line row := by
  unfold Views LineViews solidOutcome
  cases readLine env none line with
  | error e => simp
  | ok read =>
    cases read with
    | none => simp
    | some read => simp

theorem linesIntact_iff (lines : List (List Char)) :
    LinesIntact env lines ↔
      ∃ rows, List.Forall₂ (Views env) (lines.map (solidOutcome env)) rows ∧
        Intact (chainStep env) Digest.zero rows := by
  simp only [LinesIntact, List.forall₂_map_left_iff, views_solidOutcome]

/-- Iteration or the canonical JSON of the row raises. -/
def OutcomeRaises (outcome : Outcome) : Prop :=
  (∃ e, outcome = .error e) ∨ ∃ row e, outcome = .ok row ∧ canonicalJson env row.1 = .error e

/-- Where verification from a readable prefix raises. -/
theorem verifyFrom_raises (i : Nat) (prev : String → Digest) {before after : List Outcome}
    {outcome : Outcome} {rows : List ChainRow} (all : List.Forall₂ (Views env) before rows)
    (linked : Linked (chainStep env) prev rows) (raises : OutcomeRaises env outcome) :
    ∃ e, verifyFrom env i (fun t => .str (prev t).hex) (before ++ outcome :: after) =
      .error e := by
  induction all generalizing i prev with
  | nil =>
    rcases raises with ⟨e, rfl⟩ | ⟨⟨r, stored⟩, e, rfl, text⟩
    · exact ⟨e, rfl⟩
    · refine ⟨e, ?_⟩
      rw [List.nil_append, verifyFrom, text]
      rfl
  | cons views _ ih =>
    obtain ⟨r, rfl, key, text⟩ := views
    obtain ⟨hash, later⟩ := linked
    rw [List.cons_append, verifyFrom, text, ok_bind, key, chain_hex, ok_bind, ← hash,
      if_pos ((eqStr_iff _ _).mpr rfl), update_hex]
    exact ih _ _ later

/-- A verification that raises comes to such a row, with an intact prefix before it. -/
theorem raises_of_verifyFrom (i : Nat) (prev : String → Digest) {outcomes : List Outcome}
    {e : PyErr} (raised : verifyFrom env i (fun t => .str (prev t).hex) outcomes = .error e) :
    ∃ before outcome after rows, outcomes = before ++ outcome :: after ∧
      List.Forall₂ (Views env) before rows ∧ Linked (chainStep env) prev rows ∧
      OutcomeRaises env outcome := by
  induction outcomes generalizing i prev with
  | nil => cases raised
  | cons outcome rest ih =>
    cases outcome with
    | error e => exact ⟨[], .error e, rest, [], rfl, .nil, trivial, Or.inl ⟨e, rfl⟩⟩
    | ok pair =>
      obtain ⟨r, stored⟩ := pair
      cases text : canonicalJson env r with
      | error e =>
        exact ⟨[], .ok (r, stored), rest, [], rfl, .nil, trivial, Or.inr ⟨_, e, rfl, text⟩⟩
      | ok payload =>
        rw [verifyFrom, text, ok_bind, chain_hex, ok_bind] at raised
        split at raised
        · rename_i matches'
          obtain rfl := (eqStr_iff _ _).mp matches'
          rw [update_hex] at raised
          obtain ⟨before, bad, after, rows, rfl, all, linked, raises⟩ := ih _ _ raised
          have views : Views env (.ok (r, .str (chainStep env (prev (tenantOf r)) payload).hex))
              ⟨tenantOf r, payload, chainStep env (prev (tenantOf r)) payload⟩ :=
            ⟨r, rfl, rfl, text⟩
          exact ⟨_ :: before, bad, after, _ :: rows, rfl, .cons views all, ⟨rfl, linked⟩, raises⟩
        · cases raised

theorem lineRaises_iff {line : List Char} (solid : strip line ≠ []) :
    LineRaises env line ↔ OutcomeRaises env (solidOutcome env line) := by
  have read := readLine_not_skipped env solid
  unfold LineRaises OutcomeRaises solidOutcome
  cases outcome : readLine env none line with
  | error e => simp
  | ok row =>
    cases row with
    | none => exact absurd outcome read
    | some row => simp

theorem solid_of_mem {content line : List Char} (member : line ∈ solidLines content) :
    strip line ≠ [] := by
  simpa [solidLines] using (List.mem_filter.mp member).2

theorem verify_solidLines (content : List Char) :
    (EvidenceStore.jsonl content).verify env none =
      verifyFrom env 0 (fun t => .str ((fun _ => Digest.zero) t).hex)
        ((solidLines content).map (solidOutcome env)) := by
  rw [EvidenceStore.verify, iter_solidLines, zero_start]

/-- `verify` raises exactly when a line raises after an intact prefix. -/
theorem verify_raises_iff (content : List Char) :
    (∃ e, (EvidenceStore.jsonl content).verify env none = .error e) ↔
      RaisesFirst env content := by
  rw [verify_solidLines]
  constructor
  · rintro ⟨e, raised⟩
    obtain ⟨before, outcome, after, rows, same, all, linked, raises⟩ :=
      raises_of_verifyFrom env 0 _ raised
    obtain ⟨front, back, split, rfl, rest⟩ := List.map_eq_append_iff.mp same
    obtain ⟨line, tail, rfl, rfl, rfl⟩ := List.map_eq_cons_iff.mp rest
    have member : line ∈ solidLines content := by rw [split]; simp
    have solid : strip line ≠ [] := solid_of_mem member
    exact ⟨front, line, tail, split, (linesIntact_iff env front).mpr ⟨rows, all, linked⟩,
      (lineRaises_iff env solid).mpr raises⟩
  · rintro ⟨before, line, after, split, intact, raises⟩
    obtain ⟨rows, all, linked⟩ := (linesIntact_iff env before).mp intact
    have member : line ∈ solidLines content := by rw [split]; simp
    have solid : strip line ≠ [] := solid_of_mem member
    have bad := (lineRaises_iff env solid).mp raises
    rw [split, List.map_append, List.map_cons]
    exact verifyFrom_raises env 0 _ all linked bad

theorem verify_intact {content : List Char}
    (verified : (EvidenceStore.jsonl content).verify env none = .ok (-1)) :
    LinesIntact env (solidLines content) := by
  rw [linesIntact_iff, ← iter_solidLines]
  exact (EvidenceStore.verify_iff env none _).mp verified

end

end HorizonRic.Evidence
