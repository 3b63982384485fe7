import HorizonRic.Federated.SubjectErasure
import HorizonRic.Federated.CertificateFields

/-!
Erasing a subject is exact: the new global model is the one that is trained on the logs
without the subject, whatever the arithmetic rounds, and so does not depend on the
transitions that are erased.
-/
namespace HorizonRic.Erasure

open Py Provenance Federated RobustAggregation

theorem item_eq_ok {d : Dict β} {key : String} {value : β} :
    item d key = .ok value ↔ Dict.get? key d = some value := by
  unfold item
  split
  · rename_i found
    rw [found, Except.ok.injEq, Option.some.injEq]
  · rename_i missing
    simp [missing]

/-- A dictionary comprehension over keys: each key has the value that was computed for it. -/
theorem item_comprehension {f : String → Except PyErr β} {ids : List String} {d : Dict β}
    (built : (ids.mapM fun cid => f cid >>= fun value => .ok (cid, value)) = .ok d) :
    ∀ cid ∈ ids, item d cid = f cid := by
  rw [mapM_eq_ok_iff] at built
  induction built with
  | nil =>
    intro cid member
    cases member
  | @cons first pair rest others head _ ih =>
    obtain ⟨value, computed, paired⟩ := bind_eq_ok head
    cases paired
    intro cid member
    by_cases here : first = cid
    · subst here
      rw [computed, item, Dict.get?_cons, if_pos rfl]
    · have later : cid ∈ rest := by
        rcases List.mem_cons.mp member with same | later
        · exact absurd same.symm here
        · exact later
      rw [← ih cid later, item, Dict.get?_cons, if_neg here, item]

theorem item_set (d : Dict β) (key cid : String) (value : β) :
    item (Dict.set key value d) cid = if cid = key then .ok value else item d cid := by
  split
  · rename_i same
    rw [same, item_eq_ok, Dict.get?_set_self]
  · rename_i other
    rw [item, Dict.get?_set_ne d value fun same => other same.symm, item]

theorem keys_withoutSubject (targetClient subjectId : String) (clientLogs : ClientLogs) :
    (withoutSubject targetClient subjectId clientLogs).map Prod.fst =
      clientLogs.map Prod.fst := by
  rw [withoutSubject, List.map_map]
  rfl

theorem item_withoutSubject (targetClient subjectId : String) (clientLogs : ClientLogs)
    (cid : String) : item (withoutSubject targetClient subjectId clientLogs) cid =
      (item clientLogs cid >>= fun log =>
        .ok (if cid = targetClient then log.filter (·.subjectId ≠ subjectId) else log)) := by
  induction clientLogs with
  | nil => rfl
  | cons entry rest ih =>
    obtain ⟨first, log⟩ := entry
    rw [withoutSubject, List.map_cons, ← withoutSubject, item, item, Dict.get?_cons,
      Dict.get?_cons]
    by_cases here : first = cid
    · rw [if_pos here, if_pos here, here]
      rfl
    · rw [if_neg here, if_neg here]
      exact ih

/-- The filter of the gold standard keeps the logs of the other clients. -/
theorem gold_filter (cid targetClient subjectId : String) (log : List Transition) :
    (log.filter fun t => !(cid = targetClient && t.subjectId = subjectId)) =
      if cid = targetClient then log.filter (·.subjectId ≠ subjectId) else log := by
  split
  · rename_i same
    apply List.filter_congr
    intro t _
    simp [same]
  · rename_i other
    apply List.filter_eq_self.mpr
    intro t _
    simp [other]

section
variable {py : Interpreter} {np : Float64} {rsa : RsaPss} {fed : Federation}
  {clientLogs : ClientLogs} {targetClient subjectId : String} {signer : Signer rsa}
  {clock : Clock} {before after : QTable} {certificate : ErasureCertificate}

theorem trainClient_withoutSubject (np : Float64) (fed : Federation) (ns na : ℕ)
    (clientLogs : ClientLogs) (targetClient subjectId cid : String) :
    fed.trainClient np ns na (withoutSubject targetClient subjectId clientLogs) cid =
      (item clientLogs cid >>= fun log => trainQFromTransitions np
        (if cid = targetClient then log.filter (·.subjectId ≠ subjectId) else log) ns na
          fed.cfg) := by
  rw [Federation.trainClient, item_withoutSubject]
  cases item clientLogs cid <;> rfl

/-- The local models after the erasure are those of training without the subject. -/
theorem locals_erased {ns na : ℕ} {ids : List String} {localBefore : Dict QTable}
    {log : List Transition} {erased : QTable}
    (trained : (ids.mapM fun cid => fed.trainClient np ns na clientLogs cid >>= fun q =>
      .ok (cid, q)) = .ok localBefore)
    (found : item clientLogs targetClient = .ok log)
    (retrained : eraseSubject np log subjectId ns na fed.cfg = .ok erased) :
    ids.mapM (item (Dict.set targetClient erased localBefore)) =
      ids.mapM (fed.trainClient np ns na (withoutSubject targetClient subjectId clientLogs)) := by
  apply mapM_congr
  intro cid member
  rw [item_set, trainClient_withoutSubject]
  split
  · rename_i same
    rw [same, found]
    exact retrained.symm
  · exact item_comprehension trained cid member

/-- And so are those of the gold standard. -/
theorem locals_gold (np : Float64) (fed : Federation) (ns na : ℕ) (ids : List String)
    (clientLogs : ClientLogs) (targetClient subjectId : String) :
    (ids.mapM fun cid => item clientLogs cid >>= fun log => trainQFromTransitions np
      (log.filter fun t => !(cid = targetClient && t.subjectId = subjectId)) ns na fed.cfg) =
    ids.mapM (fed.trainClient np ns na (withoutSubject targetClient subjectId clientLogs)) := by
  apply mapM_congr
  intro cid _
  simp only [trainClient_withoutSubject, gold_filter]

/-- The dictionary comprehension returns as soon as every value does. -/
theorem comprehension_of_mapM {f : String → Except PyErr β} {ids : List String}
    {values : List β} (computed : ids.mapM f = .ok values) :
    ∃ d, (ids.mapM fun cid => f cid >>= fun value => .ok (cid, value)) = .ok d := by
  apply mapM_isOk
  intro cid member
  obtain ⟨value, head⟩ := ok_of_mapM computed member
  exact ⟨(cid, value), by rw [head, ok_bind]⟩

theorem key_of_item {d : Dict β} {key : String} {value : β} (found : item d key = .ok value) :
    key ∈ d.map Prod.fst := by
  rw [item_eq_ok] at found
  induction d with
  | nil => cases found
  | cons entry rest ih =>
    obtain ⟨k, v⟩ := entry
    rw [Dict.get?_cons] at found
    by_cases here : k = key
    · exact List.mem_cons.mpr (Or.inl here.symm)
    · rw [if_neg here] at found
      exact List.mem_cons.mpr (Or.inr (ih found))

theorem certifyErasure_returns (py : Interpreter) (globalBefore globalAfter : Bytes)
    (distance : Number) {nErased : ℕ} (short : intDigitsOk nErased = true)
    (subjectId targetClient method : String) (signer : Signer rsa) (clock : Clock) :
    ∃ certificate, certifyErasure py globalBefore globalAfter distance nErased subjectId
      targetClient method signer clock = .ok certificate := by
  have digits : (Value.dict (erasureManifest rsa globalBefore globalAfter distance nErased
      subjectId targetClient method clock.certificate)).digitsOk = true := by
    simp [erasureManifest, Value.digitsOk, Value.digitsOkItems, short]
  unfold certifyErasure signModel manifestDigest Json.dumps
  dsimp only
  rw [if_pos digits]
  exact ⟨_, rfl⟩

/-- The erasure returns if the target has a log and both trainings return. -/
theorem erasure_returns (py : Interpreter) (signer : Signer rsa) (clock : Clock)
    {log : List Transition} (found : item clientLogs targetClient = .ok log)
    (short : intDigitsOk (log.countP (·.subjectId = subjectId) : ℕ) = true)
    (trained : fed.train np clientLogs = .ok before)
    (retrained : fed.train np (withoutSubject targetClient subjectId clientLogs) = .ok after) :
    ∃ certificate, fed.federatedEraseSubject py np clientLogs targetClient subjectId signer
      clock = .ok (before, after, certificate) := by
  obtain ⟨ns, states, trained⟩ := bind_eq_ok trained
  obtain ⟨locals, computed, aggregated⟩ := bind_eq_ok trained
  obtain ⟨localBefore, built⟩ := comprehension_of_mapM computed
  rw [Federation.train, states, ok_bind, keys_withoutSubject] at retrained
  obtain ⟨localsAfter, recomputed, reaggregated⟩ := bind_eq_ok retrained
  have target : targetClient ∈ sortedIds (clientLogs.map Prod.fst) :=
    (List.mem_insertionSort _).mpr (key_of_item found)
  obtain ⟨erased, erasedEq⟩ := ok_of_mapM recomputed target
  rw [trainClient_withoutSubject, found, ok_bind, if_pos rfl] at erasedEq
  have collected : (sortedIds (clientLogs.map Prod.fst)).mapM (item localBefore) = .ok locals := by
    rw [← computed]
    exact mapM_congr (item_comprehension built)
  have recollected := (locals_erased built found erasedEq).trans recomputed
  have gold := (locals_gold np fed ns (nActions fed.nChannels)
    (sortedIds (clientLogs.map Prod.fst)) clientLogs targetClient subjectId).trans recomputed
  obtain ⟨certificate, certified⟩ := certifyErasure_returns py (Federation.tobytes np before)
    (Federation.tobytes np after)
    (np.norm (List.zipWith np.sub after.flatten after.flatten)) short subjectId targetClient
    fed.method signer clock
  refine ⟨certificate, ?_⟩
  rw [Federation.federatedEraseSubject, states, ok_bind]
  dsimp only
  rw [built, ok_bind, collected, ok_bind, aggregated, ok_bind, found, ok_bind, eraseSubject,
    erasedEq, ok_bind, recollected, ok_bind, reaggregated, ok_bind]
  simp only [gold, ok_bind, reaggregated, certified]

/-- What a call that returns has computed. -/
theorem erased_fields (returned : fed.federatedEraseSubject py np clientLogs targetClient
      subjectId signer clock = .ok (before, after, certificate)) :
    fed.train np (withoutSubject targetClient subjectId clientLogs) = .ok after ∧
      certificate.certifiedL2DistanceToRetrain =
        np.norm (List.zipWith np.sub after.flatten after.flatten) := by
  unfold Federation.federatedEraseSubject at returned
  obtain ⟨ns, states, returned⟩ := bind_eq_ok returned
  obtain ⟨localBefore, trained, returned⟩ := bind_eq_ok returned
  obtain ⟨qs, _, returned⟩ := bind_eq_ok returned
  obtain ⟨globalBefore, _, returned⟩ := bind_eq_ok returned
  obtain ⟨log, found, returned⟩ := bind_eq_ok returned
  obtain ⟨erased, retrained, returned⟩ := bind_eq_ok returned
  obtain ⟨locals, collected, returned⟩ := bind_eq_ok returned
  obtain ⟨globalAfter, aggregated, returned⟩ := bind_eq_ok returned
  obtain ⟨goldLocals, goldTrained, returned⟩ := bind_eq_ok returned
  obtain ⟨gold, goldAggregated, returned⟩ := bind_eq_ok returned
  obtain ⟨made, certified, returned⟩ := bind_eq_ok returned
  cases returned
  rw [locals_erased trained found retrained] at collected
  rw [locals_gold, collected] at goldTrained
  cases goldTrained
  rw [aggregated] at goldAggregated
  cases goldAggregated
  constructor
  · rw [Federation.train, states, ok_bind, keys_withoutSubject]
    dsimp only
    rw [collected]
    exact aggregated
  · obtain ⟨provenance, _, built⟩ := bind_eq_ok certified
    cases built
    rfl

end

/-- The model after the erasure is the model trained without the subject; its certified
    distance is zero if all its entries are finite, and NaN otherwise; and logs that differ
    in the erased transitions alone give the same model. -/
theorem erasure_exact (py : Interpreter) (np : Float64) (rsa : RsaPss) (fed : Federation)
    (clientLogs : ClientLogs) (targetClient subjectId : String) (signer : Signer rsa)
    (clock : Clock) (before after : QTable) (certificate : ErasureCertificate)
    (returned : fed.federatedEraseSubject py np clientLogs targetClient subjectId signer clock =
      .ok (before, after, certificate)) :
    fed.train np (withoutSubject targetClient subjectId clientLogs) = .ok after ∧
    certificate.certifiedL2DistanceToRetrain =
      (if after.flatten.all Number.isFinite then .fin 0 else .nan) ∧
    ∀ (otherLogs : ClientLogs) (signer' : Signer rsa) (clock' : Clock) (before' after' : QTable)
      (certificate' : ErasureCertificate),
      withoutSubject targetClient subjectId otherLogs =
        withoutSubject targetClient subjectId clientLogs →
      fed.federatedEraseSubject py np otherLogs targetClient subjectId signer' clock' =
        .ok (before', after', certificate') →
      after' = after := by
  obtain ⟨trained, distance⟩ := erased_fields returned
  refine ⟨trained, distance.trans (np.norm_sub_self _), ?_⟩
  intro otherLogs signer' clock' before' after' certificate' same returned'
  have trained' := (erased_fields returned').1
  rw [same, trained] at trained'
  exact (Except.ok.inj trained').symm


/-! One client, one channel state and one action. -/

def sampleTransition (reward : Number) (subjectId : String) : Transition :=
  ⟨0, 0, reward, 0, subjectId⟩

def sampleLogs (erased kept : Number) : ClientLogs :=
  [("cell-0", [sampleTransition erased "subject-a", sampleTransition kept "subject-b"])]

def sampleFederation : Federation := { nChannels := 0 }

theorem sample_returns (erased kept : Number) (before after : QTable)
    (trained : sampleFederation.train exactFloat64 (sampleLogs erased kept) = .ok before)
    (retrained : sampleFederation.train exactFloat64
      (withoutSubject "cell-0" "subject-a" (sampleLogs erased kept)) = .ok after) :
    ∃ certificate, sampleFederation.federatedEraseSubject Evidence.sampleInterpreter
      exactFloat64 (sampleLogs erased kept) "cell-0" "subject-a" sampleSigner sampleClock =
        .ok (before, after, certificate) := by
  have short : intDigitsOk 1 = true := intDigitsOk_of_small (by decide)
  exact erasure_returns _ _ _ rfl short trained retrained

theorem erasure_exact_sample : ∃ before after certificate,
    sampleFederation.federatedEraseSubject Evidence.sampleInterpreter exactFloat64
      (sampleLogs (.fin 1) (.fin 2)) "cell-0" "subject-a" sampleSigner sampleClock =
        .ok (before, after, certificate) ∧
    after = [[.fin 0.3]] ∧ certificate.certifiedL2DistanceToRetrain = .fin 0 := by
  obtain ⟨certificate, returned⟩ := sample_returns (.fin 1) (.fin 2) [[.fin 0.44775]]
    [[.fin 0.3]] (by decide +kernel) (by decide +kernel)
  have exact_ := erasure_exact Evidence.sampleInterpreter exactFloat64 plainRsa sampleFederation
    (sampleLogs (.fin 1) (.fin 2)) "cell-0" "subject-a" sampleSigner sampleClock _ _ _ returned
  exact ⟨_, _, certificate, returned, rfl, exact_.2.1⟩

/-- An infinite reward of another subject: the certified distance is NaN. -/
theorem infinite_reward_uncertified : ∃ before after certificate,
    sampleFederation.federatedEraseSubject Evidence.sampleInterpreter exactFloat64
      (sampleLogs (.fin 1) (.inf false)) "cell-0" "subject-a" sampleSigner sampleClock =
        .ok (before, after, certificate) ∧
    certificate.certifiedL2DistanceToRetrain ≠ .fin 0 := by
  obtain ⟨certificate, returned⟩ := sample_returns (.fin 1) (.inf false)
    [[.inf false]] [[.inf false]] (by decide +kernel) (by decide +kernel)
  refine ⟨_, _, certificate, returned, ?_⟩
  rw [(erased_fields returned).2, exactFloat64.norm_sub_self]
  decide

end HorizonRic.Erasure
