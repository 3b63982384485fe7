import HorizonRic.Evidence.AppendRoundTrip

/-!
Appending to a JSONL file time and again. A file that verifies, ends with a whole line and
files the tenant's last hash rightly keeps all three through an append of a record that
comes back.
-/
namespace HorizonRic.Evidence

open Py Json HashChain

section
variable (env : Platform)

namespace EvidenceStore

/-- What `_last_hash_for_tenant` returns, if anything, is the hash of the last row whose
    record belongs to the tenant. -/
def Agrees (tenant : String) (s : EvidenceStore) : Prop :=
  ∀ v, s.lastHash env tenant = .ok v → Spells v (s.headOf env tenant)

/-- A file to which records can be appended. -/
structure Appendable (tenant : String) (content : List Char) : Prop where
  intact : (jsonl content).verify env none = .ok (-1)
  terminated : (jsonl content).Terminated
  agrees : (jsonl content).Agrees env tenant

end EvidenceStore

variable {content : List Char} {r : DecisionRecord} {payload : String}

/-- The hash of the appended line, if the line can be read, is the one that is found. -/
theorem lastHash_written (held : HeldRecord env r) (canonical : canonicalJson env r = .ok payload)
    (terminated : (EvidenceStore.jsonl content).Terminated) {hash : String} {v : Value}
    (found : (EvidenceStore.jsonl (content ++ (lineText env (tenantOf r) hash r ++ ['\n']))).lastHash
      env (tenantOf r) = .ok v) : v = .str hash := by
  obtain ⟨readable, _⟩ := canonicalJson_readable env held canonical
  obtain ⟨oneLine, noReturn⟩ := lineText_plain env readable (tenantOf r) hash
  have blank := (strip_eq_nil_iff _).mp terminated
  rw [EvidenceStore.lastHash, linesOf_snoc content (lineText_ne_nil env _ hash r) oneLine noReturn,
    lastHashOfLines_append] at found
  obtain ⟨last, _, found⟩ := bind_eq_ok found
  have solid : strip (lastPartial (universalNewlines content) ++
      (lineText env (tenantOf r) hash r ++ ['\n'])) ≠ [] := by
    rw [strip_lineText env _ hash r blank]
    exact lineText_ne_nil env _ hash r
  rw [lastHashOfLines, if_neg solid] at found
  obtain ⟨obj, loaded, found⟩ := bind_eq_ok found
  have space : ∀ c ∈ ['\n'], isSpace c = true := List.forall_mem_singleton.mpr rfl
  have same := loads_print_blank env.py spaced_plain (lineText_readable env readable _ hash) blank
    space loaded
  obtain ⟨hashGet, tenantGet, _⟩ := line_get (tenantOf r) hash (sortKeys r.modelDump)
  rw [same] at found
  simp only [lineTenant, getKey, Dict.getD, tenantGet, Option.getD_some, ok_bind,
    truthy_str (tenantOf_ne_empty r), if_true, Value.eqStr, beq_self_eq_true, subscript, hashGet,
    lastHashOfLines] at found
  exact (Except.ok.inj found).symm

/-- Appending a record that comes back. -/
theorem append_row {record : DecisionRecord} {scope : Option String} {s' : EvidenceStore}
    {hash : String}
    (appendable : EvidenceStore.Appendable env (tenantOf (stamp scope record)) content)
    (valid : record.valid env.pydantic = true) (finite : record.finite = true)
    (held : HeldRecord env (stamp scope record))
    (appended : (EvidenceStore.jsonl content).append env scope record = .ok (s', hash)) :
    ∃ content' r', s' = .jsonl content' ∧ RecordBack sortKeys (stamp scope record) r' ∧
      s'.iter env none =
        (EvidenceStore.jsonl content).iter env none ++ [.ok (r', .str hash)] ∧
      EvidenceStore.Appendable env (tenantOf (stamp scope record)) content' := by
  obtain ⟨hex, bytes, payload, read, readHex, canonical, rfl, written⟩ := append_cases env appended
  obtain ⟨hex', spelled, headHex⟩ := appendable.agrees _ read
  cases spelled
  rw [readHex] at headHex
  have headBytes := Except.ok.inj headHex
  have rows := (iter_jsonl env held canonical written).1 appendable.terminated
  rw [← stamp_valid env.pydantic scope] at valid
  rw [← stamp_finite scope] at finite
  obtain ⟨r', back, kept⟩ := validate_stored env.pydantic
    (transport_sortKeys env.pydantic.python) valid finite
  rw [readBack, back] at rows
  have canonical' : canonicalJson env r' = .ok payload :=
    (canonicalJson_congr env (kept.same fun d _ => keeps_sortKeys d)).trans canonical
  have sameTenant : tenantOf r' = tenantOf (stamp scope record) := by
    rw [tenantOf, kept.tenantId, tenantOf]
  have intact : s'.verify env none = .ok (-1) := by
    rw [verify_snoc env appendable.intact rows canonical', sameTenant, chainStep, headBytes]
  rw [EvidenceStore.write, recordLine_eq env held canonical, ok_bind] at written
  cases written
  obtain ⟨readable, _⟩ := canonicalJson_readable env held canonical
  refine ⟨_, r', rfl, kept, rows, intact, ?_, ?_⟩
  · obtain ⟨oneLine, noReturn⟩ := lineText_plain env readable (tenantOf (stamp scope record))
      (env.sha256 (bytes ++ utf8 payload)).hex
    rw [EvidenceStore.Terminated, universalNewlines_line content (lineText_ne_nil env _ _ _)
      oneLine noReturn, ← List.append_assoc, lastPartial_newline]
    rfl
  · intro v found
    have parsed := congrArg (List.filterMap Except.toOption) rows
    rw [List.filterMap_append] at parsed
    have latest : (EvidenceStore.jsonl (content ++ (lineText env (tenantOf (stamp scope record))
        (env.sha256 (bytes ++ utf8 payload)).hex (stamp scope record) ++ ['\n']))).headOf env
          (tenantOf (stamp scope record)) = env.sha256 (bytes ++ utf8 payload) := by
      rw [EvidenceStore.headOf, EvidenceStore.lastRowHash, EvidenceStore.parsed, parsed]
      simp [tenantRows, sameTenant, Except.toOption, digestOf_hex]
    rw [latest, lastHash_written env held canonical appendable.terminated found]
    exact ⟨_, rfl, fromHex_hex _⟩

/-! The empty file. -/

theorem appendable_empty (tenant : String) : EvidenceStore.Appendable env tenant [] where
  intact := rfl
  terminated := rfl
  agrees := by
    intro v found
    cases found
    refine ⟨zeroHashHex, rfl, ?_⟩
    rw [← zero_hex, fromHex_hex]
    rfl

theorem append_empty {record : DecisionRecord} {scope : Option String}
    (readable : Readable env.py (stamp scope record).modelDump) : ∃ content hash,
    (EvidenceStore.jsonl []).append env scope record = .ok (.jsonl content, hash) := by
  have canonical := dumps_readable env.py compact readable
  have held : HeldRecord env (stamp scope record) := fun _ => readable
  have line := recordLine_eq env held canonical (tenantOf (stamp scope record))
  have start : (EvidenceStore.jsonl []).lastHash env (tenantOf (stamp scope record)) =
      .ok (.str Digest.zero.hex) := by
    rw [zero_hex]
    rfl
  obtain ⟨content, written⟩ : ∃ content, (EvidenceStore.jsonl []).write env (stamp scope record)
      (String.ofList (print env.py compact (sortKeys (stamp scope record).modelDump)))
      (chainStep env Digest.zero
        (String.ofList (print env.py compact (sortKeys (stamp scope record).modelDump)))).hex =
          .ok (.jsonl content) := by
    rw [EvidenceStore.write, line, ok_bind]
    exact ⟨_, rfl⟩
  exact ⟨content, _, append_eq env start canonical written⟩

end
end HorizonRic.Evidence
