import HorizonRic.Runtime.AtomicPromotion
import HorizonRic.Library.Coordinates
import Mathlib.Tactic.Linarith

/-!
The in-flight counters and the acquisitions they count. Releases are resolved by
SHA, so they count the right slot down as long as the acquired slot is the first
one with its SHA; where that holds of every release, every counter is exact.
-/
namespace HorizonRic.AtomicPromotion
open Coordinates Machine AtomicPromoter

variable {Model : Type}

/-- The acquisitions that returned the slot and are not released yet. -/
def AtomicPromoter.outstanding (p : AtomicPromoter Model) (slot : ℕ) : ℕ :=
  (p.acquired.map Acquisition.slot).count slot

theorem outstanding_setPhase {p : AtomicPromoter Model} {k : ℕ} {a : Acquisition}
    (found : p.acquired[k]? = some a) (phase : ReleasePhase) (slot : ℕ) :
    (p.setPhase k a phase).outstanding slot = p.outstanding slot := by
  have same : (p.acquired.set k { a with phase := phase }).map Acquisition.slot =
      p.acquired.map Acquisition.slot := map_set_same Acquisition.slot found rfl
  simp only [outstanding, setPhase, same]

theorem outstanding_eraseIdx {p : AtomicPromoter Model} {k : ℕ} {a : Acquisition}
    (found : p.acquired[k]? = some a) (slot : ℕ) :
    p.outstanding slot = ((p.acquired.eraseIdx k).map Acquisition.slot).count slot +
      if a.slot = slot then 1 else 0 := by
  obtain ⟨inside, entry⟩ := List.getElem?_eq_some_iff.mp found
  have perm := ((List.getElem_cons_eraseIdx_perm inside).map Acquisition.slot).symm
  rw [entry, List.map_cons] at perm
  rw [outstanding, perm.count_eq, List.count_cons]
  simp

/-- The acquired slot is still active or draining, and no slot before it has its SHA. -/
def Findable (p : AtomicPromoter Model) (a : Acquisition) (active : ℕ) : Prop :=
  ∃ earlier later, active :: p.draining = earlier ++ a.slot :: later ∧
    ∀ slot ∈ earlier, (p.heap slot).sha ≠ (p.heap a.slot).sha

/-- A release that searches finds the acquired slot first. -/
def Meets (p : AtomicPromoter Model) : Step Model → Prop
  | .release k => ∀ a active, p.acquired[k]? = some a → a.phase = .readActive active →
      Findable p a active
  | _ => True

structure Tracks (p : AtomicPromoter Model) : Prop where
  counted : ∀ slot, (p.heap slot).inFlight = p.outstanding slot
  active : p.slot < p.allocated
  slots : ∀ a ∈ p.acquired, a.slot < p.allocated
  shas : ∀ a ∈ p.acquired, a.sha = (p.heap a.slot).sha
  right : ∀ a ∈ p.acquired, ∀ candidate, a.phase = .found candidate → candidate = some a.slot

theorem search_findable {p : AtomicPromoter Model} {a : Acquisition} {active : ℕ}
    (findable : Findable p a active) (sha : a.sha = (p.heap a.slot).sha) :
    p.search active a.sha = some a.slot := by
  obtain ⟨earlier, later, candidates, before⟩ := findable
  rw [search, candidates, List.find?_eq_some_iff_append]
  refine ⟨by simp [sha], earlier, later, rfl, fun slot member => ?_⟩
  simpa [sha] using before slot member

theorem init_tracks (model : Model) (sha : String) (timeout : ℚ) :
    Tracks (init model sha timeout) := by
  constructor <;> simp [init, outstanding]

section
variable {p : AtomicPromoter Model} (tracks : Tracks p)
include tracks

theorem get_tracks : Tracks p.get := by
  constructor
  · intro slot
    by_cases here : slot = p.slot
    · subst here
      simp [AtomicPromoter.get, count, outstanding, tracks.counted p.slot]
    · simp [AtomicPromoter.get, count, outstanding, tracks.counted slot, here, Ne.symm here]
  · exact tracks.active
  · intro a member
    rcases List.mem_append.mp member with old | new
    · exact tracks.slots a old
    · rw [List.mem_singleton.mp new]
      exact tracks.active
  · intro a member
    have unchanged : (p.get.heap a.slot).sha = (p.heap a.slot).sha := by
      by_cases here : a.slot = p.slot
      · simp [AtomicPromoter.get, count, here]
      · simp [AtomicPromoter.get, count, here]
    rw [unchanged]
    rcases List.mem_append.mp member with old | new
    · exact tracks.shas a old
    · rw [List.mem_singleton.mp new]
  · intro a member candidate found
    rcases List.mem_append.mp member with old | new
    · exact tracks.right a old candidate found
    · rw [List.mem_singleton.mp new] at found
      cases found

theorem setPhase_tracks {k : ℕ} {a : Acquisition} (found : p.acquired[k]? = some a)
    {phase : ReleasePhase} (right : ∀ candidate, phase = .found candidate → candidate = some a.slot) :
    Tracks (p.setPhase k a phase) := by
  have member := List.mem_of_getElem? found
  have cases_ : ∀ b ∈ p.acquired.set k { a with phase := phase },
      b ∈ p.acquired ∨ b = { a with phase := phase } := fun b => List.mem_or_eq_of_mem_set
  constructor
  · intro slot
    rw [outstanding_setPhase found]
    exact tracks.counted slot
  · exact tracks.active
  · intro b among
    rcases cases_ b among with old | rfl
    · exact tracks.slots b old
    · exact tracks.slots a member
  · intro b among
    rcases cases_ b among with old | rfl
    · exact tracks.shas b old
    · exact tracks.shas a member
  · intro b among candidate phaseOf
    rcases cases_ b among with old | rfl
    · exact tracks.right b old candidate phaseOf
    · exact right candidate phaseOf

theorem countDown_tracks {k : ℕ} {a : Acquisition} (found : p.acquired[k]? = some a) :
    Tracks { p with heap := p.count a.slot (-1), acquired := p.acquired.eraseIdx k } := by
  have kept : ∀ b ∈ p.acquired.eraseIdx k, b ∈ p.acquired := fun b => List.mem_of_mem_eraseIdx
  constructor
  · intro slot
    have counts := tracks.counted slot
    rw [outstanding_eraseIdx found] at counts
    by_cases here : slot = a.slot
    · subst here
      simp [count, outstanding, counts]
    · simp [count, outstanding, counts, here, Ne.symm here]
  · exact tracks.active
  · exact fun b among => tracks.slots b (kept b among)
  · intro b among
    have unchanged : (p.count a.slot (-1) b.slot).sha = (p.heap b.slot).sha := by
      by_cases here : b.slot = a.slot
      · simp [count, here]
      · simp [count, here]
    rw [unchanged]
    exact tracks.shas b (kept b among)
  · exact fun b among => tracks.right b (kept b among)

theorem release_tracks {k : ℕ} {p' : AtomicPromoter Model} (met : Meets p (.release k))
    (next : p.release k = some p') : Tracks p' := by
  rw [release] at next
  cases found : p.acquired[k]? with
  | none =>
    rw [found] at next
    cases next
  | some a =>
    rw [found] at next
    have member := List.mem_of_getElem? found
    cases phase : a.phase with
    | held =>
      simp only [phase, Option.some.injEq] at next
      subst next
      exact setPhase_tracks tracks found fun candidate same => by cases same
    | readActive active =>
      simp only [phase, Option.some.injEq] at next
      subst next
      apply setPhase_tracks tracks found
      intro candidate same
      cases same
      exact search_findable (met a active found phase) (tracks.shas a member)
    | found candidate =>
      obtain rfl := tracks.right a member candidate phase
      simp only [phase, Option.some.injEq] at next
      subst next
      exact countDown_tracks tracks found

theorem outstanding_allocated : p.outstanding p.allocated = 0 := by
  rw [outstanding, List.count_eq_zero]
  intro member
  obtain ⟨a, among, same⟩ := List.mem_map.mp member
  exact absurd (tracks.slots a among) (by omega)

theorem swap_tracks (newModel : Model) (newSha : String) (kind : Kind) (start : ℚ) :
    Tracks (p.swap newModel newSha kind start) := by
  constructor
  · intro slot
    by_cases here : slot = p.allocated
    · subst here
      have none_ := outstanding_allocated tracks
      rw [outstanding] at none_
      simp [swap, outstanding, none_]
    · simpa [swap, outstanding, here] using tracks.counted slot
  · exact Nat.lt_succ_self _
  · exact fun a member => (tracks.slots a member).trans (Nat.lt_succ_self _)
  · intro a member
    have old : a.slot ≠ p.allocated := (tracks.slots a member).ne
    simpa [swap, old] using tracks.shas a member
  · exact tracks.right

end

theorem step_tracks {p p' : AtomicPromoter Model} {step : Step Model} (tracks : Tracks p)
    (met : Meets p step) (next : p.step step = some p') : Tracks p' := by
  cases step with
  | get =>
    cases next
    exact get_tracks tracks
  | release k => exact release_tracks tracks met next
  | promote newModel newSha start =>
    cases next
    exact swap_tracks tracks newModel newSha .promote start
  | startRollback =>
    cases next
    unfold startRollback
    cases p.previous with
    | none => exact tracks
    | some previous => exact { tracks with }
  | finishRollback k start =>
    simp only [AtomicPromoter.step, finishRollback] at next
    split at next
    · cases next
    · cases next
      exact { swap_tracks tracks _ _ .rollback start with }
  | poll k now =>
    simp only [AtomicPromoter.step, pollDrain] at next
    split at next
    · cases next
    · split at next
      · cases next
      · split at next <;> cases next <;> exact { tracks with }
  | finishDrain k now sinkError =>
    simp only [AtomicPromoter.step, finishDrain] at next
    split at next
    · cases next
    · split at next
      · cases next
        exact { tracks with }
      · cases next

/-- Every counter is exact, and a drain loop that ends before its deadline leaves nothing behind. -/
def Exact (p : AtomicPromoter Model) : Prop :=
  (∀ slot, (p.heap slot).inFlight = p.outstanding slot) ∧
    ∀ d ∈ p.drains, ∀ now, p.poll d now ≠ .again → now < d.start + p.drainTimeout →
      p.outstanding d.oldSlot = 0

theorem tracks_exact {p : AtomicPromoter Model} (tracks : Tracks p) : Exact p := by
  refine ⟨tracks.counted, fun d _ now left early => ?_⟩
  have counted := tracks.counted d.oldSlot
  unfold poll at left
  split_ifs at left with drained late
  · omega
  · exact absurd early (not_lt.mpr late)
  · exact absurd rfl left

/-- A release that does not find the acquired slot first leaves its counter up. -/
theorem misplaced_release {p : AtomicPromoter Model} (tracks : Tracks p) {k active : ℕ}
    {a : Acquisition} (found : p.acquired[k]? = some a) (phase : a.phase = .readActive active)
    (misplaced : ¬Findable p a active) :
    ∃ p₁ p₂, p.release k = some p₁ ∧ p₁.release k = some p₂ ∧ ¬Exact p₂ := by
  obtain ⟨inside, _⟩ := List.getElem?_eq_some_iff.mp found
  have sha := tracks.shas a (List.mem_of_getElem? found)
  have elsewhere : p.search active a.sha ≠ some a.slot := by
    intro same
    obtain ⟨_, earlier, later, candidates, before⟩ := List.find?_eq_some_iff_append.mp same
    exact misplaced ⟨earlier, later, candidates, fun slot member => by
      simpa [sha] using before slot member⟩
  let p₁ := p.setPhase k a (.found (p.search active a.sha))
  have first : p.release k = some p₁ := by simp [release, found, phase, p₁]
  have second : p₁.acquired[k]? = some { a with phase := .found (p.search active a.sha) } := by
    simp [p₁, setPhase, inside]
  -- the last step leaves the counter of the acquired slot as it is
  have finished : ∃ heap, p₁.release k =
      some { p₁ with heap := heap, acquired := p₁.acquired.eraseIdx k } ∧
        heap a.slot = p.heap a.slot := by
    cases chosen : p.search active a.sha with
    | none =>
      rw [chosen] at second
      exact ⟨p₁.heap, by simp [release, second], rfl⟩
    | some slot =>
      rw [chosen] at second elsewhere
      have other : a.slot ≠ slot := fun same => elsewhere (congrArg some same.symm)
      exact ⟨p₁.count slot (-1), by simp [release, second], by simp [count, other, p₁, setPhase]⟩
  obtain ⟨heap, last, unchanged⟩ := finished
  refine ⟨p₁, _, first, last, fun exact_ => ?_⟩
  have wrong : (heap a.slot).inFlight =
      (((p₁.acquired.eraseIdx k).map Acquisition.slot).count a.slot : ℕ) := exact_.1 a.slot
  have counted := tracks.counted a.slot
  have before := outstanding_setPhase found (.found (p.search active a.sha)) a.slot
  have released := outstanding_eraseIdx second a.slot
  simp only [if_pos] at released
  rw [unchanged, counted, ← before, released] at wrong
  omega

end HorizonRic.AtomicPromotion
