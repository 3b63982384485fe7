import HorizonRic.Security.Jwt
import HorizonRic.Python.Raises
import Mathlib.Tactic.Linarith

/-!
The rotation window. A ledger of all retirements, which never drops one, says
which keys verify at a time; pruning only drops keys that no later call would
have tried, so the manager answers as the ledger does.
-/
namespace HorizonRic.Jwt
open Py JWTManager

/-- What the token library promises: a token verifies under the key that minted it and no other,
    up to its expiry, for its audience and issuer. -/
structure Crypto.Documented (cr : Crypto) : Prop where
  decode_encode : ∀ {claims claims' privatePem signer key audience issuer now},
    cr.derivePublicPem privatePem = .ok signer →
      (cr.decode (cr.encode claims privatePem) key audience issuer now = .ok claims' ↔
        key = signer ∧ claims' = claims ∧ (∀ exp, claims.exp = some exp → intOf now ≤ exp) ∧
          (∀ aud, claims.aud = some aud → aud = audience) ∧ claims.iss = some issuer)

variable {cr : Crypto}

/-! The ledger. -/

/-- The signing key, and every retirement with its time. -/
structure Ledger (cr : Crypto) where
  active : cr.PublicPem
  retirements : List (cr.PublicPem × ℚ)

namespace Ledger

def step (l : Ledger cr) : Call cr → Ledger cr
  | .rotate newKey now _ =>
    match loadActiveKey newKey with
    | .error _ => l
    | .ok newActive => ⟨newActive.publicPem, l.retirements ++ [(l.active, now)]⟩
  | .mint .. => l
  | .verify .. => l

def run (l : Ledger cr) (calls : List (Call cr)) : Ledger cr := calls.foldl step l

/-- The retired keys whose window is open. -/
def liveRetired (l : Ledger cr) (window : ℤ) (now : ℚ) : List cr.PublicPem :=
  (l.retirements.filter fun x => now < x.2 + window).map Prod.fst

theorem mem_liveRetired {l : Ledger cr} {window : ℤ} {now : ℚ} {key : cr.PublicPem} :
    key ∈ l.liveRetired window now ↔ ∃ T, (key, T) ∈ l.retirements ∧ now < T + window := by
  simp [liveRetired]

end Ledger

/-- The ledger of a manager's calls. -/
def ledger (m : JWTManager cr) (calls : List (Call cr)) : Ledger cr :=
  Ledger.run ⟨m.active.publicPem, []⟩ calls

/-! The manager answers as the ledger does, whether or not its calls prune. -/

/-- A call that prunes or does not. -/
def JWTManager.stepPruning (m : JWTManager cr) : Call cr × Bool → JWTManager cr
  | (.rotate newKey now pruned, prunes) =>
    match loadActiveKey newKey with
    | .error _ => m
    | .ok newActive =>
      if prunes then (m.promote newActive now).pruneRetiredKeys pruned else m.promote newActive now
  | (.mint .., _) => m
  | (.verify _ r, prunes) => if prunes then m.pruneRetiredKeys r.pruned else m

theorem step_eq_stepPruning (m : JWTManager cr) (call : Call cr) :
    m.step call = m.stepPruning (call, true) := by
  cases call with
  | rotate newKey now pruned =>
    simp only [JWTManager.step, rotateSigningKey, JWTManager.stepPruning]
    cases loadActiveKey newKey with
    | error e => rfl
    | ok newActive => rfl
  | mint => rfl
  | verify => rfl

/-- From `time` on the manager tries the keys that the ledger says are live. -/
structure Agrees (m₀ m : JWTManager cr) (l : Ledger cr) (time : ℚ) : Prop where
  issuer : m.issuer = m₀.issuer
  audience : m.audience = m₀.audience
  window : m.overlapWindow = m₀.overlapWindow
  active : m.active.publicPem = l.active
  live : ∀ now, time ≤ now →
    (m.retired.filter (keeps now)).map ActiveKey.publicPem = l.liveRetired m₀.overlapWindow now

namespace Agrees
variable {m₀ m : JWTManager cr} {l : Ledger cr} {time : ℚ}

theorem later (agrees : Agrees m₀ m l time) {time' : ℚ} (le : time ≤ time') :
    Agrees m₀ m l time' :=
  { agrees with live := fun now after => agrees.live now (le.trans after) }

theorem prune (agrees : Agrees m₀ m l time) {pruned : ℚ} (le : time ≤ pruned) :
    Agrees m₀ (m.pruneRetiredKeys pruned) l pruned := by
  refine { agrees with live := fun now after => ?_ }
  rw [← agrees.live now (le.trans after), pruneRetiredKeys, List.filter_filter]
  congr 1
  apply List.filter_congr
  intro k _
  cases deadline : k.retireAt with
  | none => simp [keeps, deadline]
  | some retireAt =>
    have skew : (0 : ℚ) ≤ maxClockSkewSeconds := by norm_num [maxClockSkewSeconds]
    simp only [keeps, deadline, Bool.and_eq_left_iff_imp, decide_eq_true_eq]
    intro live
    linarith

theorem promote (agrees : Agrees m₀ m l time) (newActive : ActiveKey cr) (now : ℚ) :
    Agrees m₀ (m.promote newActive now)
      ⟨newActive.publicPem, l.retirements ++ [(l.active, now)]⟩ time := by
  refine { agrees with active := rfl, live := fun at_ after => ?_ }
  have old := agrees.live at_ after
  simp only [Ledger.liveRetired, JWTManager.promote, List.filter_append, List.map_append] at old ⊢
  rw [old, ← agrees.window, ← agrees.active]
  by_cases live : at_ < now + m.overlapWindow
  · simp [keeps, live]
  · simp [keeps, live]

theorem step (agrees : Agrees m₀ m l time) {call : Call cr} {finish : ℚ}
    (within : call.Within time finish) (prunes : Bool) :
    Agrees m₀ (m.stepPruning (call, prunes)) (l.step call) finish := by
  cases call with
  | rotate newKey now pruned =>
    obtain ⟨started, pruning, finished⟩ := within
    simp only [JWTManager.stepPruning, Ledger.step]
    cases loadActiveKey newKey with
    | error e => exact agrees.later (started.trans (pruning.trans finished))
    | ok newActive =>
      have promoted := agrees.promote newActive now
      cases prunes with
      | true => exact (promoted.prune (started.trans pruning)).later finished
      | false => exact promoted.later (started.trans (pruning.trans finished))
  | mint subject tenant roles ttl jti now => exact agrees.later (within.1.trans within.2)
  | verify token r =>
    obtain ⟨started, finished⟩ := within
    have passed : r.pruned ≤ finish := r.chosen.trans (r.started.trans (finished 0))
    cases prunes with
    | true => exact (agrees.prune started).later passed
    | false => exact agrees.later (started.trans passed)

theorem run (agrees : Agrees m₀ m l time) (calls : List (Call cr × Bool)) {finish : ℚ}
    (clock : Clock time (calls.map Prod.fst) finish) :
    Agrees m₀ (calls.foldl JWTManager.stepPruning m) (l.run (calls.map Prod.fst)) finish := by
  induction calls generalizing m l time with
  | nil => exact agrees.later clock
  | cons call rest ih =>
    obtain ⟨between, within, after⟩ := clock
    exact ih (agrees.step within call.2) after

theorem checkToken (agrees : Agrees m₀ m l time) (token : cr.Token) {r : Readings}
    (after : time ≤ r.now) :
    m.checkToken token r = tryKeys m₀.audience m₀.issuer token r.decoded
      (l.active :: l.liveRetired m₀.overlapWindow r.now) 0 none := by
  rw [JWTManager.checkToken, List.map_cons, agrees.live r.now after, agrees.audience,
    agrees.issuer, agrees.active]

theorem verifyToken (agrees : Agrees m₀ m l time) (token : cr.Token) {r : Readings}
    (after : time ≤ r.pruned) :
    (m.verifyToken token r).1 = tryKeys m₀.audience m₀.issuer token r.decoded
      (l.active :: l.liveRetired m₀.overlapWindow r.now) 0 none :=
  (agrees.prune after).checkToken token r.chosen

end Agrees

theorem run_eq_stepPruning (m : JWTManager cr) (calls : List (Call cr)) :
    m.run calls = (calls.map fun call => (call, true)).foldl JWTManager.stepPruning m := by
  rw [JWTManager.run, List.foldl_map]
  congr 1
  funext m call
  exact step_eq_stepPruning m call

theorem agrees_init {m : JWTManager cr} (fresh : m.retired = []) (time : ℚ) :
    Agrees m m ⟨m.active.publicPem, []⟩ time :=
  ⟨rfl, rfl, rfl, rfl, fun now _ => by simp [fresh, Ledger.liveRetired]⟩

theorem agrees_run {m : JWTManager cr} (fresh : m.retired = []) {calls : List (Call cr)}
    {start finish : ℚ} (clock : Clock start calls finish) :
    Agrees m (m.run calls) (ledger m calls) finish := by
  have all : (calls.map fun call => (call, true)).map Prod.fst = calls := by
    simp [Function.comp_def]
  have agrees := (agrees_init fresh start).run (calls.map fun call => (call, true)) (by rwa [all])
  rw [run_eq_stepPruning]
  rwa [all] at agrees

/-! Verdicts on tokens that this manager minted. -/

section
variable (documented : cr.Documented)
include documented

/-- The loop accepts a minted token when it tries its key before the expiry. -/
theorem tryKeys_ok {claims : Claims} {privatePem : cr.PrivatePem} {signer : cr.PublicPem}
    {audience issuer : String} {expiry : ℤ} (derived : cr.derivePublicPem privatePem = .ok signer)
    (exp : claims.exp = some expiry) (aud : claims.aud = some audience)
    (iss : claims.iss = some issuer) (required : requireClaims claims = .ok claims)
    (decoded : ℕ → ℚ) (keys : List cr.PublicPem) (i : ℕ) (lastErr : Option JWTError) :
    (∃ c, tryKeys audience issuer (cr.encode claims privatePem) decoded keys i lastErr = .ok c) ↔
      ∃ j, keys[j]? = some signer ∧ intOf (decoded (i + j)) ≤ expiry := by
  induction keys generalizing i lastErr with
  | nil =>
    cases lastErr with
    | none => simp [tryKeys]
    | some e => simp [tryKeys]
  | cons k keys ih =>
    have verdict : ∀ c, cr.decode (cr.encode claims privatePem) k audience issuer (decoded i) = .ok c ↔
        k = signer ∧ c = claims ∧ intOf (decoded i) ≤ expiry := by
      intro c
      rw [documented.decode_encode derived, exp, aud, iss]
      simp
    rw [tryKeys]
    cases answer : cr.decode (cr.encode claims privatePem) k audience issuer (decoded i) with
    | ok c =>
      obtain ⟨same, rfl, valid⟩ := (verdict c).mp answer
      constructor
      · intro _
        exact ⟨0, by simp [same], by simpa using valid⟩
      · intro _
        exact ⟨c, required⟩
    | error e =>
      have rejected : ¬(k = signer ∧ intOf (decoded i) ≤ expiry) := by
        intro both
        rw [(verdict claims).mpr ⟨both.1, rfl, both.2⟩] at answer
        cases answer
      rw [ih (i + 1) (some e)]
      constructor
      · rintro ⟨j, found, valid⟩
        exact ⟨j + 1, found, by rwa [show i + (j + 1) = i + 1 + j by omega]⟩
      · rintro ⟨j, found, valid⟩
        cases j with
        | zero =>
          simp only [List.getElem?_cons_zero, Option.some.injEq] at found
          exact absurd ⟨found, valid⟩ rejected
        | succ j => exact ⟨j, found, by rwa [show i + 1 + j = i + (j + 1) by omega]⟩

theorem tryKeys_rejects {claims : Claims} {privatePem : cr.PrivatePem} {signer : cr.PublicPem}
    {audience issuer : String} (derived : cr.derivePublicPem privatePem = .ok signer)
    (decoded : ℕ → ℚ) (keys : List cr.PublicPem) (absent : signer ∉ keys) (i : ℕ)
    (lastErr : Option JWTError) (c : Claims) :
    tryKeys audience issuer (cr.encode claims privatePem) decoded keys i lastErr ≠ .ok c := by
  induction keys generalizing i lastErr with
  | nil =>
    cases lastErr with
    | none => simp [tryKeys]
    | some e => simp [tryKeys]
  | cons k keys ih =>
    rw [tryKeys]
    cases answer : cr.decode (cr.encode claims privatePem) k audience issuer (decoded i) with
    | ok c' =>
      have same := ((documented.decode_encode derived).mp answer).1
      exact absurd (same ▸ List.mem_cons_self) absent
    | error e => exact ih (fun member => absent (List.mem_cons_of_mem _ member)) (i + 1) (some e)

end

/-! Keys through a run. -/

theorem Clock.append {before after : List (Call cr)} {start finish : ℚ}
    (clock : Clock start (before ++ after) finish) :
    ∃ between, Clock start before between ∧ Clock between after finish := by
  induction before generalizing start with
  | nil => exact ⟨start, le_rfl, clock⟩
  | cons call rest ih =>
    obtain ⟨next, within, rests⟩ := clock
    obtain ⟨between, first, second⟩ := ih rests
    exact ⟨between, ⟨next, within, first⟩, second⟩

theorem Call.Within.le {call : Call cr} {start finish : ℚ} (within : call.Within start finish) :
    start ≤ finish := by
  cases call with
  | rotate => exact within.1.trans (within.2.1.trans within.2.2)
  | mint => exact within.1.trans within.2
  | verify _ r => exact within.1.trans (r.chosen.trans (r.started.trans (within.2 0)))

theorem Clock.le {calls : List (Call cr)} {start finish : ℚ} (clock : Clock start calls finish) :
    start ≤ finish := by
  induction calls generalizing start with
  | nil => exact clock
  | cons call rest ih =>
    obtain ⟨next, within, rests⟩ := clock
    exact within.le.trans (ih rests)

/-- The call makes the key the signing key. -/
def Call.Promotes (key : cr.PublicPem) : Call cr → Prop
  | .rotate newKey _ _ => ∃ newActive, loadActiveKey newKey = .ok newActive ∧ newActive.publicPem = key
  | .mint .. => False
  | .verify .. => False

namespace Ledger

/-- A call changes the ledger only when it rotates to a key that loads. -/
theorem step_cases (l : Ledger cr) (call : Call cr) : l.step call = l ∨
    ∃ newKey now pruned newActive, call = .rotate newKey now pruned ∧
      loadActiveKey newKey = .ok newActive ∧
      l.step call = ⟨newActive.publicPem, l.retirements ++ [(l.active, now)]⟩ := by
  cases call with
  | rotate newKey now pruned =>
    cases loaded : loadActiveKey newKey with
    | error e => exact Or.inl (by simp [step, loaded])
    | ok newActive =>
      exact Or.inr ⟨newKey, now, pruned, newActive, rfl, loaded, by simp [step, loaded]⟩
  | mint => exact Or.inl rfl
  | verify => exact Or.inl rfl

/-- A key that signs keeps signing or is retired later. -/
theorem run_traced {l : Ledger cr} {key : cr.PublicPem} {since : ℚ}
    (traced : l.active = key ∨ ∃ T, since ≤ T ∧ (key, T) ∈ l.retirements)
    {calls : List (Call cr)} {start finish : ℚ} (from_ : since ≤ start)
    (clock : Clock start calls finish) :
    (l.run calls).active = key ∨ ∃ T, since ≤ T ∧ (key, T) ∈ (l.run calls).retirements := by
  induction calls generalizing l start with
  | nil => exact traced
  | cons call rest ih =>
    obtain ⟨next, within, rests⟩ := clock
    refine ih ?_ (from_.trans within.le) rests
    rcases l.step_cases call with same | ⟨newKey, now, pruned, newActive, rfl, _, changed⟩
    · rwa [same]
    · rw [changed]
      right
      rcases traced with rfl | ⟨T, after, member⟩
      · exact ⟨now, from_.trans within.1, List.mem_append_right _ List.mem_cons_self⟩
      · exact ⟨T, after, List.mem_append_left _ member⟩

theorem run_past {l : Ledger cr} {calls : List (Call cr)} {start finish : ℚ}
    (past : ∀ x ∈ l.retirements, x.2 ≤ start) (clock : Clock start calls finish) :
    ∀ x ∈ (l.run calls).retirements, x.2 ≤ finish := by
  induction calls generalizing l start with
  | nil => exact fun x member => (past x member).trans clock
  | cons call rest ih =>
    obtain ⟨next, within, rests⟩ := clock
    refine ih (fun x member => ?_) rests
    rcases l.step_cases call with same | ⟨newKey, now, pruned, newActive, rfl, _, changed⟩
    · rw [same] at member
      exact (past x member).trans within.le
    · rw [changed] at member
      rcases List.mem_append.mp member with old | new
      · exact (past x old).trans within.le
      · rw [List.mem_singleton.mp new]
        exact within.2.1.trans within.2.2

theorem run_retired {l : Ledger cr} {key : cr.PublicPem} {calls : List (Call cr)}
    (retired : l.active ≠ key) (unpromoted : ∀ call ∈ calls, ¬call.Promotes key) :
    (l.run calls).active ≠ key ∧
      ∀ T, (key, T) ∈ (l.run calls).retirements → (key, T) ∈ l.retirements := by
  induction calls generalizing l with
  | nil => exact ⟨retired, fun T member => member⟩
  | cons call rest ih =>
    have later : ∀ other ∈ rest, ¬other.Promotes key := fun other member =>
      unpromoted other (List.mem_cons_of_mem _ member)
    rcases l.step_cases call with same | ⟨newKey, now, pruned, newActive, rfl, loaded, changed⟩
    · rw [run, List.foldl_cons, same]
      exact ih retired later
    · have other : newActive.publicPem ≠ key := fun same =>
        unpromoted _ List.mem_cons_self ⟨newActive, loaded, same⟩
      rw [run, List.foldl_cons, changed]
      obtain ⟨still, old⟩ := ih (l := ⟨newActive.publicPem, l.retirements ++ [(l.active, now)]⟩)
        other later
      refine ⟨still, fun T member => ?_⟩
      rcases List.mem_append.mp (old T member) with before | new
      · exact before
      · exact absurd (Prod.mk.inj (List.mem_singleton.mp new)).1.symm retired

end Ledger

theorem ledger_append (m : JWTManager cr) (before after : List (Call cr)) :
    ledger m (before ++ after) = (ledger m before).run after := List.foldl_append

theorem intOf_near (t : ℚ) : t - 1 < intOf t ∧ (intOf t : ℚ) < t + 1 := by
  rw [intOf]
  split
  · have below := Int.floor_le (-t)
    have above := Int.lt_floor_add_one (-t)
    push_cast
    constructor <;> linarith
  · have below := Int.floor_le t
    have above := Int.lt_floor_add_one t
    constructor <;> linarith

/-- A minted token carries the claims that verification asks for. -/
theorem mintToken_ok {m : JWTManager cr} {subject tenant jti : String}
    {roles : Option (List String)} {ttlSeconds : ℤ} {now : ℚ} {token : cr.Token}
    (minted : m.mintToken subject tenant roles ttlSeconds jti now = .ok token) :
    ∃ claims : Claims, token = cr.encode claims m.active.privatePem ∧
      claims.exp = some (intOf now + ttlSeconds) ∧ claims.aud = some m.audience ∧
      claims.iss = some m.issuer ∧ requireClaims claims = .ok claims := by
  unfold mintToken at minted
  split_ifs at minted
  cases roles with
  | none => cases minted
  | some roles => exact ⟨_, (Except.ok.inj minted).symm, rfl, rfl, rfl, rfl⟩

def JWTManager.Verifies (m : JWTManager cr) (token : cr.Token) (r : Readings) : Prop :=
  ∃ claims, (m.verifyToken token r).1 = .ok claims

section
variable (documented : cr.Documented) {m₀ : JWTManager cr} (fresh : m₀.retired = [])
  {calls : List (Call cr)} {start finish : ℚ} (clock : Clock start calls finish)
include documented fresh clock

/-- A minted token verifies when its key is live and tried before its expiry. -/
theorem verifies_minted {before after : List (Call cr)} {subject tenant jti : String}
    {roles : Option (List String)} {ttlSeconds : ℤ} {mintedAt : ℚ} {token : cr.Token}
    (called : calls = before ++ .mint subject tenant roles ttlSeconds jti mintedAt :: after)
    (minted : (m₀.run before).mintToken subject tenant roles ttlSeconds jti mintedAt = .ok token)
    (r : Readings) (later : finish ≤ r.pruned) :
    (m₀.run calls).Verifies token r ↔
      ∃ j, ((ledger m₀ calls).active ::
          (ledger m₀ calls).liveRetired m₀.overlapWindow r.now)[j]? =
            some (m₀.run before).active.publicPem ∧
        intOf (r.decoded j) ≤ intOf mintedAt + ttlSeconds := by
  obtain ⟨claims, rfl, exp, aud, iss, required⟩ := mintToken_ok minted
  obtain ⟨between, first, _⟩ := (called ▸ clock).append
  have early := agrees_run fresh first
  have agrees := agrees_run fresh clock
  rw [early.audience] at aud
  rw [early.issuer] at iss
  rw [JWTManager.Verifies, agrees.verifyToken _ later]
  have accepted := tryKeys_ok documented (m₀.run before).active.derived exp aud iss required
    r.decoded ((ledger m₀ calls).active :: (ledger m₀ calls).liveRetired m₀.overlapWindow r.now) 0
    none
  simpa using accepted

theorem verifies_iff {before after : List (Call cr)} {subject tenant jti : String}
    {roles : Option (List String)} {ttlSeconds : ℤ} {mintedAt : ℚ} {token : cr.Token}
    (called : calls = before ++ .mint subject tenant roles ttlSeconds jti mintedAt :: after)
    (minted : (m₀.run before).mintToken subject tenant roles ttlSeconds jti mintedAt = .ok token)
    (t : ℚ) (later : finish ≤ t) :
    (m₀.run calls).Verifies token (.at t) ↔ intOf t ≤ intOf mintedAt + ttlSeconds ∧
      ((m₀.run before).active.publicPem = (m₀.run calls).active.publicPem ∨
        ∃ T, ((m₀.run before).active.publicPem, T) ∈ (ledger m₀ calls).retirements ∧
          t < T + m₀.overlapWindow) := by
  rw [verifies_minted documented fresh clock called minted (.at t) later,
    (agrees_run fresh clock).active, ← Ledger.mem_liveRetired, ← List.mem_cons,
    List.mem_iff_getElem?]
  constructor
  · rintro ⟨j, found, valid⟩
    exact ⟨valid, j, found⟩
  · rintro ⟨valid, j, found⟩
    exact ⟨j, found, valid⟩

/-- A window that covers the lifetime rejects no token before its expiry. -/
theorem verifies_before_expiry {before after : List (Call cr)} {subject tenant jti : String}
    {roles : Option (List String)} {ttlSeconds : ℤ} {mintedAt : ℚ} {token : cr.Token}
    (called : calls = before ++ .mint subject tenant roles ttlSeconds jti mintedAt :: after)
    (minted : (m₀.run before).mintToken subject tenant roles ttlSeconds jti mintedAt = .ok token)
    (covers : ttlSeconds + 60 ≤ m₀.overlapWindow) (r : Readings) (later : finish ≤ r.pruned)
    (unexpired : ∀ i, intOf (r.decoded i) ≤ intOf mintedAt + ttlSeconds) :
    (m₀.run calls).Verifies token r := by
  rw [verifies_minted documented fresh clock called minted r later]
  obtain ⟨between, first, next, within, rest⟩ := (called ▸ clock).append
  have early := agrees_run fresh first
  have traced := (ledger m₀ before).run_traced (Or.inl early.active.symm) within.2 rest
  have whole : ledger m₀ calls = (ledger m₀ before).run after := by
    rw [called, ledger_append]
    rfl
  rw [← whole] at traced
  rcases traced with signing | ⟨T, after_, member⟩
  · exact ⟨0, by simp [signing], unexpired 0⟩
  · have open_ : r.now < T + m₀.overlapWindow := by
      have expiry : (intOf (r.decoded 0) : ℚ) ≤ intOf mintedAt + ttlSeconds := by
        exact_mod_cast unexpired 0
      have window : (ttlSeconds : ℚ) + 60 ≤ m₀.overlapWindow := by exact_mod_cast covers
      have now := r.started
      have tried := (intOf_near (r.decoded 0)).1
      have mint := (intOf_near mintedAt).2
      linarith
    have live := Ledger.mem_liveRetired.mpr ⟨T, member, open_⟩
    obtain ⟨j, found⟩ := List.mem_iff_getElem?.mp (List.mem_cons_of_mem (ledger m₀ calls).active live)
    exact ⟨j, found, unexpired j⟩

/-- No token of a retired key verifies after its window. -/
theorem retired_rejected {before after : List (Call cr)}
    {newKey : Except PyErr cr.PrivatePem} {T pruned : ℚ} {newActive : ActiveKey cr}
    (called : calls = before ++ .rotate newKey T pruned :: after)
    (loaded : loadActiveKey newKey = .ok newActive)
    (replaced : newActive.publicPem ≠ (m₀.run before).active.publicPem)
    (unpromoted : ∀ call ∈ after, ¬call.Promotes (m₀.run before).active.publicPem)
    {claims : Claims} {privatePem : cr.PrivatePem}
    (key : cr.derivePublicPem privatePem = .ok (m₀.run before).active.publicPem) (r : Readings)
    (later : finish ≤ r.pruned) (closed : T + m₀.overlapWindow ≤ r.now) :
    ¬(m₀.run calls).Verifies (cr.encode claims privatePem) r := by
  obtain ⟨between, first, next, within, rest⟩ := (called ▸ clock).append
  have early := agrees_run fresh first
  have agrees := agrees_run fresh clock
  let l : Ledger cr := ⟨newActive.publicPem,
    (ledger m₀ before).retirements ++ [((ledger m₀ before).active, T)]⟩
  have whole : ledger m₀ calls = l.run after := by
    have rotated : (ledger m₀ before).step (.rotate newKey T pruned) = l := by
      simp [Ledger.step, loaded, l]
    rw [called, ledger_append, Ledger.run, List.foldl_cons, rotated]
    rfl
  obtain ⟨retired, old⟩ := l.run_retired replaced unpromoted
  rintro ⟨c, accepted⟩
  rw [agrees.verifyToken _ later] at accepted
  refine tryKeys_rejects documented key r.decoded _ ?_ 0 none c accepted
  rw [List.mem_cons, whole, not_or]
  refine ⟨retired.symm, fun live => ?_⟩
  obtain ⟨T', member, open_⟩ := Ledger.mem_liveRetired.mp live
  have notLater : T' ≤ T := by
    rcases List.mem_append.mp (old T' member) with before_ | at_
    · exact (Ledger.run_past (by simp) first _ before_).trans within.1
    · exact (Prod.mk.inj (List.mem_singleton.mp at_)).2.le
  linarith

omit documented in
/-- Whether earlier calls pruned makes no difference. -/
theorem pruning_irrelevant {flagged : List (Call cr × Bool)} (same : flagged.map Prod.fst = calls)
    (token : cr.Token) (r : Readings) (later : finish ≤ r.pruned) :
    ((flagged.foldl JWTManager.stepPruning m₀).verifyToken token r).1 =
      ((m₀.run calls).verifyToken token r).1 := by
  have skipped := (agrees_init fresh start).run flagged (by rwa [same])
  rw [same] at skipped
  rw [skipped.verifyToken token later, (agrees_run fresh clock).verifyToken token later]
  rfl

end

theorem rotate_failed (m : JWTManager cr) (newKey : Except PyErr cr.PrivatePem) (now pruned : ℚ)
    {e : PyErr} (raised : (m.rotateSigningKey newKey now pruned).1 = .error e) :
    (m.rotateSigningKey newKey now pruned).2 = m := by
  unfold rotateSigningKey at raised ⊢
  cases loaded : loadActiveKey newKey with
  | error e => rfl
  | ok newActive =>
    rw [loaded] at raised
    cases raised

theorem jwt_rotation_window (documented : cr.Documented)
    {signingKey : Except PyErr cr.PrivatePem} {issuer audience : String} {W : ℤ}
    {m₀ : JWTManager cr} (created : init signingKey issuer audience W = .ok m₀)
    {calls : List (Call cr)} {start finish : ℚ} (clock : Clock start calls finish) :
    (∀ before subject tenant roles ttlSeconds jti mintedAt after token,
      calls = before ++ .mint subject tenant roles ttlSeconds jti mintedAt :: after →
      (m₀.run before).mintToken subject tenant roles ttlSeconds jti mintedAt = .ok token →
        (∀ t, finish ≤ t → ((m₀.run calls).Verifies token (.at t) ↔
          intOf t ≤ intOf mintedAt + ttlSeconds ∧
            ((m₀.run before).active.publicPem = (m₀.run calls).active.publicPem ∨
              ∃ T, ((m₀.run before).active.publicPem, T) ∈ (ledger m₀ calls).retirements ∧
                t < T + W))) ∧
        (ttlSeconds + 60 ≤ W → ∀ r : Readings, finish ≤ r.pruned →
          (∀ i, intOf (r.decoded i) ≤ intOf mintedAt + ttlSeconds) →
            (m₀.run calls).Verifies token r)) ∧
    (∀ before newKey T pruned after newActive,
      calls = before ++ .rotate newKey T pruned :: after →
      loadActiveKey newKey = .ok newActive →
      newActive.publicPem ≠ (m₀.run before).active.publicPem →
      (∀ call ∈ after, ¬call.Promotes (m₀.run before).active.publicPem) →
        ∀ claims privatePem,
          cr.derivePublicPem privatePem = .ok (m₀.run before).active.publicPem →
            ∀ r : Readings, finish ≤ r.pruned → T + W + maxClockSkewSeconds < r.now →
              ¬(m₀.run calls).Verifies (cr.encode claims privatePem) r) ∧
    (∀ flagged : List (Call cr × Bool), flagged.map Prod.fst = calls →
      ∀ token (r : Readings), finish ≤ r.pruned →
        ((flagged.foldl JWTManager.stepPruning m₀).verifyToken token r).1 =
          ((m₀.run calls).verifyToken token r).1) ∧
    ∀ newKey now pruned e, ((m₀.run calls).rotateSigningKey newKey now pruned).1 = .error e →
      ((m₀.run calls).rotateSigningKey newKey now pruned).2 = m₀.run calls := by
  obtain ⟨active, _, constructed⟩ := bind_eq_ok created
  have fresh : m₀.retired = [] := by
    cases constructed
    rfl
  have window : m₀.overlapWindow = W := by
    cases constructed
    rfl
  subst window
  refine ⟨?_, ?_, ?_, ?_⟩
  · intro before subject tenant roles ttlSeconds jti mintedAt after token called minted
    constructor
    · exact verifies_iff documented fresh clock called minted
    · exact verifies_before_expiry documented fresh clock called minted
  · intro before newKey T pruned after newActive called loaded replaced unpromoted claims privatePem
      key r later closed
    apply retired_rejected documented fresh clock called loaded replaced unpromoted key r later
    have skew : (0 : ℚ) ≤ maxClockSkewSeconds := by norm_num [maxClockSkewSeconds]
    linarith
  · intro flagged same token r later
    exact pruning_irrelevant fresh clock same token r later
  · intro newKey now pruned e raised
    exact rotate_failed _ newKey now pruned raised

/-- Keys and tokens in the clear: the token names its key. -/
def plainCrypto : Crypto where
  PrivatePem := ℕ
  PublicPem := ℕ
  Token := Claims × ℕ
  derivePublicPem := .ok
  encode := fun claims key => (claims, key)
  decode := fun token key audience issuer now =>
    if token.2 ≠ key then .error .jwtError
    else if token.1.exp.any (· < intOf now) then .error .expiredSignatureError
    else if token.1.aud.any (· ≠ audience) then .error .jwtClaimsError
    else if token.1.iss ≠ some issuer then .error .jwtClaimsError
    else .ok token.1

theorem plainCrypto_documented : plainCrypto.Documented := by
  constructor
  intro claims claims' privatePem signer key audience issuer now derived
  obtain rfl : privatePem = signer := Except.ok.inj derived
  have expired : claims.exp.any (· < intOf now) = false ↔
      ∀ exp, claims.exp = some exp → intOf now ≤ exp := by
    cases claims.exp <;> simp
  have addressed : claims.aud.any (· ≠ audience) = false ↔
      ∀ aud, claims.aud = some aud → aud = audience := by
    cases claims.aud <;> simp
  rw [← expired, ← addressed]
  simp only [plainCrypto]
  split_ifs with other late elsewhere foreign
  · simp [Ne.symm other]
  · simp [late]
  · constructor
    · intro answer
      cases answer
    · rintro ⟨_, _, _, here, _⟩
      rw [elsewhere] at here
      cases here
  · simp [foreign]
  · constructor
    · intro answer
      exact ⟨(not_not.mp other).symm, (Except.ok.inj answer).symm, Bool.eq_false_iff.mpr late,
        Bool.eq_false_iff.mpr elsewhere, not_not.mp foreign⟩
    · rintro ⟨_, rfl, _⟩
      rfl

/-- A token survives a rotation. -/
theorem jwt_rotation_window_rotated :
    ∃ m : JWTManager plainCrypto, init (.ok (1 : ℕ)) "smo" "ric" 120 = .ok m ∧
      ∃ token, m.mintToken "operator" "tenant" (some []) 60 "id" 100 = .ok token ∧
        (m.run [.mint "operator" "tenant" (some []) 60 "id" 100,
          .rotate (.ok (2 : ℕ)) 110 110]).Verifies token (.at 150) := by
  let m : JWTManager plainCrypto := ⟨"smo", "ric", 120, ⟨(1 : ℕ), (1 : ℕ), none, rfl⟩, []⟩
  have created : init (.ok (1 : ℕ)) "smo" "ric" 120 = .ok m := rfl
  have clock : Clock 100 ([.mint "operator" "tenant" (some []) 60 "id" 100,
      .rotate (.ok (2 : ℕ)) 110 110] : List (Call plainCrypto)) 120 :=
    ⟨100, ⟨le_rfl, le_rfl⟩, 110, ⟨by norm_num, le_rfl, le_rfl⟩, by norm_num [Clock]⟩
  have minted := ((jwt_rotation_window plainCrypto_documented created clock).1 [] "operator"
    "tenant" (some []) 60 "id" 100 _ _ rfl rfl).2 (by norm_num)
  refine ⟨m, created, _, rfl, minted (.at 150) (by norm_num [Readings.at]) fun _ => ?_⟩
  norm_num [Readings.at, intOf]

end HorizonRic.Jwt
