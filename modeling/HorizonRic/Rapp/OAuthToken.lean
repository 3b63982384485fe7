import HorizonRic.Python.Raises
import HorizonRic.Python.Value
import HorizonRic.Library.Machine
import HorizonRic.Evidence.Append
import Mathlib.Data.List.Chain
import Mathlib.Logic.Function.Basic

/-!
The cached OAuth2 token. A call looks at the clock once, tries the cache, and
otherwise takes a lock, tries the cache again by that first look and fetches. The
steps of any number of calls interleave wherever the code awaits.
-/
namespace HorizonRic.OAuthToken
open Py Machine

/-- `_OAuth2BearerAuth`: the token and when it is taken to expire. -/
structure OAuth2BearerAuth where
  token : Value
  expiryEpoch : Number

namespace OAuth2BearerAuth

def init : OAuth2BearerAuth := ⟨.null, .fin 0⟩

/-- The test of the cache, made before and under the lock. -/
def usable (auth : OAuth2BearerAuth) (now : ℚ) : Bool :=
  auth.token.truthy && Number.lt (.fin now) (auth.expiryEpoch - .fin 30)

/-- What is left of a fetch once the answer is here. A token whose lifetime cannot be read is
    stored, under the expiry of the token before it. -/
def store (py : Interpreter) (auth : OAuth2BearerAuth) (now : ℚ) (answer : Dict Value) :
    OAuth2BearerAuth × Except PyErr Value :=
  match Dict.get? "access_token" answer with
  | none => (auth, .error .keyError)
  | some token =>
    match (Dict.getD answer "expires_in" (.int 3600)).toFloat py with
    | .error e => (⟨token, auth.expiryEpoch⟩, .error e)
    | .ok expiresIn => (⟨token, .fin now + expiresIn⟩, .ok token)

end OAuth2BearerAuth

/-- Where a call of `_get_token` stands. `now` is its look at the clock. -/
inductive Phase where
  | idle
  | waiting (now : ℚ)
  | fetching (now since : ℚ)
  | returned (now time : ℚ) (token : Value)
  | raised (e : PyErr)
  | cancelled

/-- A token that the server issued to a call. No lifetime is one that cannot be read. -/
structure Grant where
  caller : ℕ
  start : ℚ
  issued : ℚ
  token : Value
  lifetime : Option Number

structure System where
  time : ℚ
  auth : OAuth2BearerAuth
  owner : Option ℕ
  phase : ℕ → Phase
  grants : List Grant

inductive Event where
  | tick (seconds : ℚ)
  | call (i : ℕ)
  | enter (i : ℕ)
  | fetched (i : ℕ) (issued : ℚ) (answer : Except PyErr (Dict Value))
  | cancel (i : ℕ)

namespace System

def start (time : ℚ) : System := ⟨time, .init, none, fun _ => .idle, []⟩

def move (s : System) (i : ℕ) (phase : Phase) : System :=
  { s with phase := Function.update s.phase i phase }

/-- The answer of the server, issued within the fetch. -/
def grant (py : Interpreter) (s : System) (i : ℕ) (now issued : ℚ) (answer : Dict Value) : List Grant :=
  match Dict.get? "access_token" answer with
  | none => s.grants
  | some token =>
    s.grants ++ [⟨i, now, issued, token,
      ((Dict.getD answer "expires_in" (.int 3600)).toFloat py).toOption⟩]

def step (py : Interpreter) (s : System) : Event → Option System
  | .tick seconds => if 0 ≤ seconds then some { s with time := s.time + seconds } else none
  | .call i =>
    match s.phase i with
    | .idle =>
      if s.auth.usable s.time then some (s.move i (.returned s.time s.time s.auth.token))
      else some (s.move i (.waiting s.time))
    | _ => none
  | .enter i =>
    match s.owner, s.phase i with
    | none, .waiting now =>
      if s.auth.usable now then some (s.move i (.returned now s.time s.auth.token))
      else some ({ s with owner := some i }.move i (.fetching now s.time))
    | _, _ => none
  | .fetched i issued answer =>
    match s.phase i with
    | .fetching now since =>
      if since ≤ issued ∧ issued ≤ s.time then
        match answer with
        | .error e => some ({ s with owner := none }.move i (.raised e))
        | .ok token =>
          some ({ s with
            owner := none, auth := (s.auth.store py now token).1
            grants := s.grant py i now issued token }.move i
              (match (s.auth.store py now token).2 with
                | .error e => .raised e
                | .ok token => .returned now s.time token))
      else none
    | _ => none
  | .cancel i =>
    match s.phase i with
    | .waiting _ => some (s.move i .cancelled)
    | .fetching .. => some ({ s with owner := none }.move i .cancelled)
    | _ => none

@[simp] theorem move_self (s : System) (i : ℕ) (phase : Phase) : (s.move i phase).phase i = phase :=
  Function.update_self ..

theorem move_ne (s : System) {i j : ℕ} (phase : Phase) (ne : j ≠ i) :
    (s.move i phase).phase j = s.phase j := Function.update_of_ne ne ..

end System

/-- By its own lifetime the token still lives; a lifetime that cannot be read says nothing. -/
def Grant.LivesAt (g : Grant) (time : ℚ) : Prop :=
  ∀ life, g.lifetime = some life → Number.lt (.fin time) (.fin g.issued + life) = true

/-- The call would not have been served by the token of the grant. -/
def Grant.Spent (g : Grant) (next : Grant) : Prop :=
  ∀ life, g.lifetime = some life → g.token.truthy = true →
    Number.lt (.fin next.start) (.fin g.start + life - .fin 30) = false

/-- The token is a token, and its lifetime is `seconds` at least. -/
def Grant.Lasts (g : Grant) (seconds : ℚ) : Prop :=
  g.token.truthy = true ∧ ∃ life, g.lifetime = some (.fin life) ∧ seconds ≤ life

/-- What a call may be in, with respect to the rest of the system. -/
def Consistent (s : System) (i : ℕ) : Phase → Prop
  | .idle | .raised _ | .cancelled => True
  | .waiting now => now ≤ s.time
  | .fetching now since => now ≤ since ∧ since ≤ s.time ∧ s.auth.usable now = false
  | .returned now time token => now ≤ time ∧ time ≤ s.time ∧
      ∃ g ∈ s.grants, g.token = token ∧ (g.caller = i ∨ g.LivesAt (now + 30))

/-- The cached token is the one issued last, with its expiry reckoned from the start of its call. -/
def Backed (s : System) : Prop :=
  (s.grants = [] ∧ s.auth.token = .null) ∨
    ∃ before g, s.grants = before ++ [g] ∧ g.token = s.auth.token ∧
      ∀ life, g.lifetime = some life → s.auth.expiryEpoch = .fin g.start + life

/-- The holder of the lock is fetching, and nobody else is. -/
structure Sound (s : System) : Prop where
  lock : ∀ i, s.owner = some i ↔ ∃ now since, s.phase i = .fetching now since
  calls : ∀ i, Consistent s i (s.phase i)
  issued : ∀ g ∈ s.grants, g.start ≤ g.issued
  backed : Backed s
  spent : s.grants.IsChain Grant.Spent

theorem start_sound (time : ℚ) : Sound (.start time) where
  lock i := by simp [System.start]
  calls i := trivial
  issued g member := by cases member
  backed := Or.inl ⟨rfl, rfl⟩
  spent := List.IsChain.nil

/-- Thirty seconds before the reckoned expiry is thirty seconds before the true one. -/
theorem lives_of_lt {start issued now : ℚ} (late : start ≤ issued) {life : Number}
    (before : Number.lt (.fin now) (.fin start + life - .fin 30) = true) :
    Number.lt (.fin (now + 30)) (.fin issued + life) = true := by
  cases life with
  | nan => cases before
  | inf negative => exact before
  | fin seconds =>
    simp only [Number.fin_add, Number.fin_sub, Number.lt, decide_eq_true_eq] at before ⊢
    linarith

section
variable {py : Interpreter} {s s' : System} {i : ℕ}

/-- What the cache serves was issued, and lives thirty seconds more. -/
theorem Sound.served (sound : Sound s) {now : ℚ} (usable : s.auth.usable now = true) :
    ∃ g ∈ s.grants, g.token = s.auth.token ∧ (g.caller = i ∨ g.LivesAt (now + 30)) := by
  rw [OAuth2BearerAuth.usable, Bool.and_eq_true] at usable
  obtain ⟨truthy, before⟩ := usable
  rcases sound.backed with ⟨_, null⟩ | ⟨others, g, grants, token, expiry⟩
  · rw [null] at truthy
    cases truthy
  · have member : g ∈ s.grants := by simp [grants]
    refine ⟨g, member, token, Or.inr ?_⟩
    intro life read
    rw [expiry life read] at before
    exact lives_of_lt (sound.issued g member) before

/-- A call moves on, and may take or leave the lock, while cache and grants stay. -/
theorem Sound.moved (sound : Sound s) {owner : Option ℕ} {phase : Phase}
    (others : ∀ j ≠ i, owner = some j ↔ s.owner = some j)
    (own : owner = some i ↔ ∃ now since, phase = .fetching now since)
    (consistent : Consistent s i phase) :
    Sound ({ s with owner := owner }.move i phase) where
  lock j := by
    by_cases same : j = i
    · subst same
      rw [System.move_self]
      exact own
    · rw [System.move_ne _ _ same]
      exact (others j same).trans (sound.lock j)
  calls j := by
    by_cases same : j = i
    · subst same
      rw [System.move_self]
      exact consistent
    · rw [System.move_ne _ _ same]
      exact sound.calls j
  issued := sound.issued
  backed := sound.backed
  spent := sound.spent

/-- A call outside the lock moves on outside of it. -/
theorem Sound.moved_outside (sound : Sound s) {phase : Phase}
    (outside : ∀ now since, s.phase i ≠ .fetching now since)
    (still : ∀ now since, phase ≠ .fetching now since) (consistent : Consistent s i phase) :
    Sound (s.move i phase) := by
  refine sound.moved (fun _ _ => Iff.rfl) ?_ consistent
  rw [sound.lock i]
  constructor
  · rintro ⟨now, since, here⟩
    exact absurd here (outside now since)
  · rintro ⟨now, since, here⟩
    exact absurd here (still now since)

/-- The holder of the lock leaves it. -/
theorem Sound.moved_out (sound : Sound s) {phase : Phase} (holds : s.owner = some i)
    (outside : ∀ now since, phase ≠ .fetching now since) (consistent : Consistent s i phase) :
    Sound ({ s with owner := none }.move i phase) := by
  refine sound.moved ?_ ?_ consistent
  · intro j other
    rw [holds]
    constructor
    · intro none_
      cases none_
    · intro same
      exact absurd (Option.some.inj same).symm other
  · constructor
    · intro none_
      cases none_
    · rintro ⟨now, since, here⟩
      exact absurd here (outside now since)

/-- Another call outside the lock stays as it is when a token is issued. -/
theorem Consistent.later {j : ℕ} {phase : Phase} (consistent : Consistent s j phase)
    (outside : ∀ now since, phase ≠ .fetching now since) (time : s.time ≤ s'.time)
    (grants : ∀ g ∈ s.grants, g ∈ s'.grants) : Consistent s' j phase := by
  cases phase with
  | idle => trivial
  | waiting now => exact le_trans consistent time
  | fetching now since => exact absurd rfl (outside now since)
  | returned now at_ token =>
    obtain ⟨early, past, g, member, rest⟩ := consistent
    exact ⟨early, le_trans past time, g, grants g member, rest⟩
  | raised e => trivial
  | cancelled => trivial

/-- The holder stores what the server issued. -/
theorem Sound.granted (sound : Sound s) {now since issued : ℚ}
    (fetching : s.phase i = .fetching now since) (within : since ≤ issued) {token : Value}
    {expiryEpoch : Number} {lifetime : Option Number} {phase : Phase}
    (expiry : ∀ life, lifetime = some life → expiryEpoch = .fin now + life)
    (ends : (∃ e, phase = .raised e) ∨ phase = .returned now s.time token) :
    Sound ({ s with
      owner := none, auth := ⟨token, expiryEpoch⟩
      grants := s.grants ++ [(⟨i, now, issued, token, lifetime⟩ : Grant)] }.move i phase) := by
  have holds : s.owner = some i := (sound.lock i).mpr ⟨now, since, fetching⟩
  have here := sound.calls i
  rw [fetching] at here
  obtain ⟨early, past, stale⟩ := here
  have outside : ∀ j ≠ i, ∀ now since, s.phase j ≠ .fetching now since := by
    intro j other now' since' inside
    have same : s.owner = some j := (sound.lock j).mpr ⟨now', since', inside⟩
    rw [holds] at same
    exact other (Option.some.inj same).symm
  refine ⟨?_, ?_, ?_, Or.inr ⟨s.grants, ⟨i, now, issued, token, lifetime⟩, rfl, rfl, expiry⟩, ?_⟩
  · intro j
    constructor
    · intro none_
      cases none_
    · rintro ⟨now', since', inside⟩
      by_cases same : j = i
      · subst same
        rw [System.move_self] at inside
        rcases ends with ⟨e, raised⟩ | returned
        · rw [raised] at inside
          cases inside
        · rw [returned] at inside
          cases inside
      · rw [System.move_ne _ _ same] at inside
        exact absurd inside (outside j same now' since')
  · intro j
    by_cases same : j = i
    · subst same
      rw [System.move_self]
      rcases ends with ⟨e, rfl⟩ | rfl
      · trivial
      · exact ⟨le_trans early past, le_rfl, ⟨j, now, issued, token, lifetime⟩,
          List.mem_append_right _ List.mem_cons_self, rfl, Or.inl rfl⟩
    · rw [System.move_ne _ _ same]
      exact (sound.calls j).later (outside j same) le_rfl
        (fun g member => List.mem_append_left _ member)
  · intro g member
    rcases List.mem_append.mp member with old | new
    · exact sound.issued g old
    · rw [List.mem_singleton.mp new]
      exact le_trans early within
  · refine List.IsChain.append sound.spent (List.IsChain.singleton _) ?_
    intro g last next first life read truthy
    cases first
    rcases sound.backed with ⟨empty, _⟩ | ⟨before, g', grants, token', expiry'⟩
    · rw [empty] at last
      cases last
    · rw [grants, List.getLast?_concat] at last
      cases last
      rw [OAuth2BearerAuth.usable, ← token', truthy, expiry' life read] at stale
      exact stale

theorem fetched_sound (sound : Sound s) {now since issued : ℚ}
    (fetching : s.phase i = .fetching now since) (within : since ≤ issued) (answer : Dict Value) :
    Sound ({ s with
      owner := none, auth := (s.auth.store py now answer).1
      grants := s.grant py i now issued answer }.move i
        (match (s.auth.store py now answer).2 with
          | .error e => .raised e
          | .ok token => .returned now s.time token)) := by
  have holds : s.owner = some i := (sound.lock i).mpr ⟨now, since, fetching⟩
  unfold OAuth2BearerAuth.store System.grant
  cases Dict.get? "access_token" answer with
  | none => exact sound.moved_out holds (fun _ _ same => nomatch same) trivial
  | some token =>
    cases (Dict.getD answer "expires_in" (.int 3600)).toFloat py with
    | error e =>
      refine sound.granted fetching within ?_ (Or.inl ⟨e, rfl⟩)
      intro life read
      cases read
    | ok expiresIn =>
      refine sound.granted fetching within ?_ (Or.inr rfl)
      intro life read
      cases read
      rfl

theorem tick_sound (sound : Sound s) {seconds : ℚ} (forward : 0 ≤ seconds) :
    Sound { s with time := s.time + seconds } := by
  have later : s.time ≤ s.time + seconds := by linarith
  refine ⟨sound.lock, ?_, sound.issued, sound.backed, sound.spent⟩
  intro j
  have here := sound.calls j
  cases phase : s.phase j with
  | fetching now since =>
    rw [phase] at here
    exact ⟨here.1, le_trans here.2.1 later, here.2.2⟩
  | _ =>
    rw [phase] at here
    refine here.later ?_ later (fun _ member => member)
    intro now since same
    cases same

theorem call_sound (sound : Sound s) (next : s.step py (.call i) = some s') : Sound s' := by
  rw [System.step] at next
  split at next
  · rename_i idle
    have outside : ∀ now since, s.phase i ≠ .fetching now since := by
      intro now since here
      rw [idle] at here
      cases here
    split at next
    · rename_i usable
      cases next
      refine sound.moved_outside outside (fun _ _ same => nomatch same) ?_
      exact ⟨le_rfl, le_rfl, sound.served usable⟩
    · cases next
      exact sound.moved_outside outside (fun _ _ same => nomatch same) (le_refl s.time)
  · cases next

theorem enter_sound (sound : Sound s) (next : s.step py (.enter i) = some s') : Sound s' := by
  rw [System.step] at next
  split at next
  · rename_i now free waiting
    have early : now ≤ s.time := by
      have here := sound.calls i
      rwa [waiting] at here
    split at next
    · rename_i usable
      cases next
      refine sound.moved_outside ?_ (fun _ _ same => nomatch same)
        ⟨early, le_rfl, sound.served usable⟩
      intro now' since' here
      rw [waiting] at here
      cases here
    · rename_i stale
      cases next
      refine sound.moved ?_ ?_ ⟨early, le_rfl, by simpa using stale⟩
      · intro j other
        rw [free]
        constructor
        · intro same
          exact absurd (Option.some.inj same).symm other
        · intro none_
          cases none_
      · exact ⟨fun _ => ⟨now, s.time, rfl⟩, fun _ => rfl⟩
  · cases next

theorem step_sound {e : Event} (sound : Sound s) (next : s.step py e = some s') : Sound s' := by
  cases e with
  | tick seconds =>
    rw [System.step] at next
    split at next
    · rename_i forward
      cases next
      exact tick_sound sound forward
    · cases next
  | call i => exact call_sound sound next
  | enter i => exact enter_sound sound next
  | fetched i issued answer =>
    rw [System.step] at next
    split at next
    · rename_i now since fetching
      split at next
      · rename_i within
        split at next
        · cases next
          have holds : s.owner = some i := (sound.lock i).mpr ⟨now, since, fetching⟩
          exact sound.moved_out holds (fun _ _ same => nomatch same) trivial
        · cases next
          exact fetched_sound sound fetching within.1 _
      · cases next
    · cases next
  | cancel i =>
    rw [System.step] at next
    split at next
    · rename_i now waiting
      cases next
      refine sound.moved_outside ?_ (fun _ _ same => nomatch same) trivial
      intro now' since' here
      rw [waiting] at here
      cases here
    · rename_i now since fetching
      cases next
      have holds : s.owner = some i := (sound.lock i).mpr ⟨now, since, fetching⟩
      exact sound.moved_out holds (fun _ _ same => nomatch same) trivial
    · cases next

end

/-- Long-lived tokens are fetched for calls that start far from each other. -/
theorem starts_apart {grants : List Grant} (spent : grants.IsChain Grant.Spent) {seconds : ℚ}
    (lasting : ∀ g ∈ grants, g.Lasts seconds) {first last : Grant}
    (begins : grants.head? = some first) (ends : grants.getLast? = some last) :
    (grants.length - 1) * (seconds - 30) ≤ last.start - first.start := by
  induction grants generalizing first with
  | nil => cases begins
  | cons g rest ih =>
    cases begins
    cases rest with
    | nil =>
      cases ends
      simp
    | cons g' rest =>
      rw [List.isChain_cons_cons] at spent
      obtain ⟨next, chain⟩ := spent
      rw [List.getLast?_cons_cons] at ends
      have later := ih chain (fun x member => lasting x (List.mem_cons_of_mem _ member)) rfl ends
      obtain ⟨truthy, life, read, long⟩ := lasting g List.mem_cons_self
      have apart := next (.fin life) read truthy
      simp only [Number.fin_add, Number.fin_sub, Number.lt, decide_eq_false_iff_not,
        not_lt] at apart
      simp only [List.length_cons] at later ⊢
      push_cast at later ⊢
      linarith

/-- However the calls interleave: at most one of them fetches at a time, and it holds the lock for
    which the others wait. A call returns the token that it fetched, or one that lives more than
    thirty seconds past the call's look at the clock. No token was fetched for a call that the token
    before it would have served, so tokens that last are fetched rarely. -/
theorem token_served (py : Interpreter) (time : ℚ) (events : List Event) (s : System)
    (reached : run (System.step py) (.start time) events = some s) :
    (∀ i now since j now' since', s.phase i = .fetching now since →
      s.phase j = .fetching now' since' → i = j) ∧
    (∀ i now, s.phase i = .waiting now →
      s.owner = none ∨ ∃ j now' since, s.owner = some j ∧ s.phase j = .fetching now' since) ∧
    (∀ i now returned token, s.phase i = .returned now returned token →
      ∃ g ∈ s.grants, g.token = token ∧ (g.caller = i ∨ g.LivesAt (now + 30))) ∧
    s.grants.IsChain Grant.Spent ∧
    ∀ seconds, (∀ g ∈ s.grants, g.Lasts seconds) → ∀ first last, s.grants.head? = some first →
      s.grants.getLast? = some last →
        (s.grants.length - 1) * (seconds - 30) ≤ last.start - first.start := by
  have sound : Sound s := run_invariant Sound (fun _ _ _ => step_sound) (start_sound time) reached
  refine ⟨?_, ?_, ?_, sound.spent, fun _ lasting _ _ => starts_apart sound.spent lasting⟩
  · intro i now since j now' since' left right
    have holds := (sound.lock i).mpr ⟨now, since, left⟩
    rw [(sound.lock j).mpr ⟨now', since', right⟩] at holds
    exact (Option.some.inj holds).symm
  · intro i now _
    cases owner : s.owner with
    | none => exact Or.inl rfl
    | some j =>
      obtain ⟨now', since, fetching⟩ := (sound.lock j).mp owner
      exact Or.inr ⟨j, now', since, rfl, fetching⟩
  · intro i now returned token here
    have consistent := sound.calls i
    rw [here] at consistent
    exact consistent.2.2

def sampleAnswer : Dict Value := [("access_token", .str "tok"), ("expires_in", .float (.fin 60))]

/-- Two calls start together. The answer takes a hundred seconds, and the second call is served by
    a token that is no longer valid when the call returns. -/
def slowAnswer : List Event :=
  [.call 0, .enter 0, .call 1, .tick 100, .fetched 0 1 (.ok sampleAnswer), .enter 1]

theorem token_served_late :
    ∃ s, run (System.step Evidence.sampleInterpreter) (.start 0) slowAnswer = some s ∧
      s.phase 1 = .returned 0 100 (.str "tok") ∧
      (∃ g ∈ s.grants, g.token = .str "tok" ∧ (g.caller = 1 ∨ g.LivesAt (0 + 30))) ∧
      ∀ g ∈ s.grants, ¬g.LivesAt 100 := by
  obtain ⟨s, reached, here, grants⟩ : ∃ s,
      run (System.step Evidence.sampleInterpreter) (.start 0) slowAnswer = some s ∧
      s.phase 1 = .returned 0 100 (.str "tok") ∧
      s.grants = [⟨0, 0, 1, .str "tok", some (.fin 60)⟩] := by
    have seen : (run (System.step Evidence.sampleInterpreter) (.start 0) slowAnswer).map
        (fun s => (s.phase 1, s.grants)) =
          some (.returned 0 100 (.str "tok"), [⟨0, 0, 1, .str "tok", some (.fin 60)⟩]) := by
      with_unfolding_all rfl
    obtain ⟨s, reached, same⟩ := Option.map_eq_some_iff.mp seen
    exact ⟨s, reached, (Prod.mk.inj same).1, (Prod.mk.inj same).2⟩
  refine ⟨s, reached, here, ?_, ?_⟩
  · exact (token_served Evidence.sampleInterpreter 0 slowAnswer s reached).2.2.1 1 0 100 _ here
  · intro g member lives
    rw [grants, List.mem_singleton] at member
    rw [member] at lives
    exact absurd (lives _ rfl) (by decide +kernel)

end HorizonRic.OAuthToken
