import HorizonRic.Security.RequestGate

/-!
Who gets past the middleware, after any history of roles, tokens and keys. The
verdict on a token of this manager is read off its minting, the retirements of
keys and the bindings of the token's own tenant.
-/
namespace HorizonRic.RequestGate
open Py Jwt Rbac JWTManager

/-- The header of a request that carries the text of a token. -/
def bearerHeader (text : List Char) : String := String.ofList (bearer ++ ' ' :: text)

/-! The header. -/

theorem tokenChar_not_space {c : Char} (char : tokenChar c = true) : isStrSpace c = false := by
  rw [isStrSpace, decide_eq_false_iff_not]
  intro space
  have same : c = Char.ofNat c.toNat := (Char.ofNat_toNat c).symm
  have none_ : ∀ n ∈ spaceCodes, tokenChar (Char.ofNat n) = false := by decide
  rw [same, none_ _ space] at char
  cases char

theorem lstrip_token {text : List Char} (nonempty : text ≠ [])
    (chars : ∀ c ∈ text, tokenChar c = true) : lstrip text = text := by
  cases text with
  | nil => exact absurd rfl nonempty
  | cons c tail => exact lstrip_of_head tail (tokenChar_not_space (chars c List.mem_cons_self))

theorem bearerToken_header {text : List Char} (nonempty : text ≠ [])
    (chars : ∀ c ∈ text, tokenChar c = true) :
    bearerToken (bearer ++ ' ' :: text) = some text := by
  have start : lstrip (bearer ++ ' ' :: text) = bearer ++ ' ' :: text :=
    lstrip_of_head _ (by decide)
  have after : lstrip (' ' :: text) = text := by
    rw [lstrip, List.dropWhile_cons_of_pos (by decide)]
    exact lstrip_token nonempty chars
  have longer : text ≠ ' ' :: text := by
    intro same
    have length := congrArg List.length same
    simp at length
  have whole : text.takeWhile tokenChar = text := List.takeWhile_eq_self_iff.mpr chars
  have rest : text.dropWhile tokenChar = [] := List.dropWhile_eq_nil_iff.mpr chars
  have cut : (bearer ++ ' ' :: text).drop 6 = ' ' :: text := rfl
  have begins : bearer <+: bearer ++ ' ' :: text := List.prefix_append _ _
  simp only [bearerToken, start, if_pos begins, cut, after, if_neg longer, whole, rest,
    if_neg nonempty]
  rfl

section
variable {cr : Crypto} {parse : List Char → cr.Token} {lib : Library}

theorem token?_bearer {req : Request} {text : List Char} (nonempty : text ≠ [])
    (chars : ∀ c ∈ text, tokenChar c = true) (protected_ : isPublic req.path = false)
    (carried : req.authorization = some (bearerHeader text)) :
    req.token? parse = some (parse text) := by
  have given : bearerHeader text ≠ "" := by
    intro empty
    have letters := congrArg String.toList empty
    rw [bearerHeader, String.toList_ofList] at letters
    cases letters
  rw [Request.token?, protected_, carried, Option.getD_some, if_neg Bool.false_ne_true,
    if_neg given, bearerHeader, String.toList_ofList, bearerToken_header nonempty chars,
    Option.map_some]

/-! What a run leaves of the gate. -/

theorem step_jwt (g : Gate cr) (event : GateEvent cr) :
    (g.step parse lib event).jwt =
      match event.jwtCall parse with
      | none => g.jwt
      | some call => g.jwt.step call := by
  cases event with
  | jwt call => rfl
  | role change => rfl
  | request req =>
    cases carried : req.token? parse with
    | none => simp only [Gate.step, GateEvent.jwtCall, carried, (dispatch_untokened lib carried).1]; rfl
    | some token =>
      simp only [Gate.step, GateEvent.jwtCall, carried, dispatch_tokened carried]
      rfl

theorem step_rbac (g : Gate cr) (event : GateEvent cr) :
    (g.step parse lib event).rbac =
      match event.roleChange with
      | none => g.rbac
      | some change => g.rbac.step change := by
  cases event with
  | jwt call => rfl
  | role change => rfl
  | request req =>
    cases carried : req.token? parse with
    | none => simp only [Gate.step, GateEvent.roleChange, (dispatch_untokened lib carried).1]
    | some token => simp only [Gate.step, GateEvent.roleChange, dispatch_tokened carried]

/-- The token manager sees the calls and the tokens of requests, the roles see their changes. -/
theorem run_parts (parse : List Char → cr.Token) (lib : Library) (g : Gate cr) (events : List (GateEvent cr)) :
    (g.run parse lib events).jwt = g.jwt.run (events.filterMap (GateEvent.jwtCall parse)) ∧
      (g.run parse lib events).rbac = g.rbac.run (events.filterMap GateEvent.roleChange) := by
  induction events generalizing g with
  | nil => exact ⟨rfl, rfl⟩
  | cons event events ih =>
    obtain ⟨jwt, rbac⟩ := ih (g.step parse lib event)
    constructor
    · rw [Gate.run, List.foldl_cons, List.filterMap_cons]
      refine jwt.trans ?_
      rw [step_jwt]
      cases event.jwtCall parse with
      | none => rfl
      | some call => rfl
    · rw [Gate.run, List.foldl_cons, List.filterMap_cons]
      refine rbac.trans ?_
      rw [step_rbac]
      cases event.roleChange with
      | none => rfl
      | some change => rfl

/-! Verified claims. -/

theorem requireClaims_ok {claims claims' : Claims} (required : requireClaims claims = .ok claims') :
    claims' = claims ∧ claims.sub.isSome ∧ claims.tenant.isSome ∧ claims.roles.isSome := by
  unfold requireClaims at required
  split_ifs at required with sub tenant roles
  cases required
  simp only [Bool.not_eq_true, Option.isNone_eq_false_iff] at sub tenant roles
  exact ⟨rfl, sub, tenant, roles⟩

theorem isJWTError_raised (e : JWTError) : isJWTError e.raised = true := by
  cases e <;> rfl

/-- The keys are tried in order: the claims are what the first key that decodes gives. -/
theorem tryKeys_cases (audience issuer : String) (token : cr.Token) (decoded : ℕ → ℚ)
    (keys : List cr.PublicPem) (i : ℕ) (lastErr : Option JWTError)
    (tried : keys ≠ [] ∨ lastErr ≠ none) :
    (∃ j key claims, keys[j]? = some key ∧
      cr.decode token key audience issuer (decoded (i + j)) = .ok claims ∧
      requireClaims claims = .ok claims ∧
      tryKeys audience issuer token decoded keys i lastErr = .ok claims) ∨
    ∃ e, isJWTError e = true ∧ tryKeys audience issuer token decoded keys i lastErr = .error e := by
  induction keys generalizing i lastErr with
  | nil =>
    cases lastErr with
    | none => simp at tried
    | some e => exact Or.inr ⟨e.raised, isJWTError_raised e, rfl⟩
  | cons k keys ih =>
    rw [tryKeys]
    cases answer : cr.decode token k audience issuer (decoded i) with
    | ok claims =>
      cases required : requireClaims claims with
      | ok claims' =>
        obtain ⟨rfl, _⟩ := requireClaims_ok required
        exact Or.inl ⟨0, k, claims', rfl, answer, required, required⟩
      | error e =>
        refine Or.inr ⟨e, ?_, required⟩
        unfold requireClaims at required
        split_ifs at required <;> cases required <;> rfl
    | error e =>
      rcases ih (i + 1) (some e) (Or.inr (Option.some_ne_none e)) with
        ⟨j, key, claims, found, decodes, required, result⟩ | failed
      · refine Or.inl ⟨j + 1, key, claims, found, ?_, required, result⟩
        rwa [show i + (j + 1) = i + 1 + j by omega]
      · exact Or.inr failed

/-- Claims of a manager are decoded by its active key or one not yet retired. -/
theorem verifyToken_cases (m : JWTManager cr) (token : cr.Token) (r : Readings) :
    (∃ key claims time, (key = m.active.publicPem ∨
        ∃ k ∈ m.retired, k.publicPem = key ∧ keeps r.now k = true) ∧
      cr.decode token key m.audience m.issuer time = .ok claims ∧
      requireClaims claims = .ok claims ∧ (m.verifyToken token r).1 = .ok claims) ∨
    ∃ e, isJWTError e = true ∧ (m.verifyToken token r).1 = .error e := by
  have cases_ := tryKeys_cases m.audience m.issuer token r.decoded
    ((m.active :: (m.pruneRetiredKeys r.pruned).retired.filter (keeps r.now)).map
      ActiveKey.publicPem) 0 none (Or.inl (by simp))
  rcases cases_ with ⟨j, key, claims, found, decodes, required, result⟩ | failed
  · refine Or.inl ⟨key, claims, _, ?_, decodes, required, result⟩
    have member := List.mem_of_getElem? found
    rw [List.map_cons, List.mem_cons] at member
    rcases member with active | retired
    · exact Or.inl active
    · obtain ⟨k, live, same⟩ := List.mem_map.mp retired
      rw [pruneRetiredKeys, List.mem_filter, List.mem_filter] at live
      exact Or.inr ⟨k, live.1.1, same, live.2⟩
  · exact Or.inr failed

/-! The verdict. -/

/-- The principal of the claims. -/
def principalOf (claims : Claims) : Principal :=
  ⟨claims.sub.getD "", claims.tenant.getD "", claims.roles.getD [], claims.jti⟩

/-- The request does not name another tenant, and its subject may do what it asks for. -/
def Entitled (lib : Library) (rbac : Casbin) (changes : List RoleChange) (req : Request)
    (subject tenant : String) : Prop :=
  foreignTenant req.xTenant tenant = false ∧
    Permitted lib rbac changes subject tenant (objectOf req.path) (httpMethodToAction req.method)

theorem authorise_passed_iff (library : lib.Documented) (rbac : Casbin) (changes : List RoleChange)
    (req : Request) (claims : Claims) (p : Principal) :
    authorise lib (rbac.run changes) req claims = .passed (some p) ↔
      p = principalOf claims ∧
        Entitled lib rbac changes req (claims.sub.getD "") (claims.tenant.getD "") := by
  rw [Entitled, ← enforce_run library, authorise]
  split
  · rename_i foreign
    simp [foreign]
  · rename_i own
    split
    · rename_i allowed
      rw [allowed]
      simp [own, principalOf, eq_comm]
    · rename_i denied
      simp [denied]

theorem authorise_answers (rbac : Casbin) (req : Request) (claims : Claims) :
    authorise lib rbac req claims ≠ .passed none := by
  unfold authorise
  dsimp only
  split_ifs <;> simp

/-- A minted token carries its subject, tenant and roles. -/
theorem mintToken_claims {m : JWTManager cr} {subject tenant jti : String}
    {roles : Option (List String)} {ttlSeconds : ℤ} {now : ℚ} {token : cr.Token}
    (minted : m.mintToken subject tenant roles ttlSeconds jti now = .ok token) :
    ∃ claims : Claims, token = cr.encode claims m.active.privatePem ∧
      principalOf claims = ⟨subject, tenant, roles.getD [], some jti⟩ ∧
      claims.sub.getD "" = subject ∧ claims.tenant.getD "" = tenant := by
  unfold mintToken at minted
  split_ifs at minted
  cases roles with
  | none => cases minted
  | some roles => exact ⟨_, (Except.ok.inj minted).symm, rfl, rfl, rfl⟩

/-- Past a protected path there is a verified token, and its subject is entitled. -/
theorem passed_cases (library : lib.Documented) (rbac : Casbin) (changes : List RoleChange)
    {g : Gate cr} (roles : g.rbac = rbac.run changes) {req : Request}
    (protected_ : isPublic req.path = false) {p : Principal}
    (passed : (dispatch parse lib g req).1 = .ok (.passed (some p))) :
    Entitled lib rbac changes req p.subject p.tenant ∧
      ∃ token key claims time, req.token? parse = some token ∧ p = principalOf claims ∧
        cr.decode token key g.jwt.audience g.jwt.issuer time = .ok claims ∧
        (key = g.jwt.active.publicPem ∨
          ∃ k ∈ g.jwt.retired, k.publicPem = key ∧ keeps req.clock.now k = true) := by
  cases carried : req.token? parse with
  | none =>
    obtain ⟨detail, refused⟩ := (dispatch_untokened lib carried).2 protected_
    rw [refused] at passed
    cases passed
  | some token =>
    rw [dispatch_tokened carried] at passed
    rcases verifyToken_cases g.jwt token req.clock with
      ⟨key, claims, time, live, decodes, _, verified⟩ | ⟨e, caught, failed⟩
    · rw [verified, roles] at passed
      have allowed := Except.ok.inj passed
      obtain ⟨rfl, entitled⟩ := (authorise_passed_iff library _ _ _ _ _).mp allowed
      exact ⟨entitled, token, key, claims, time, rfl, rfl, decodes, live⟩
    · rw [failed] at passed
      simp [caught] at passed

theorem filterMap_split {events before after : List (GateEvent cr)} {call : Jwt.Call cr}
    (called : events = before ++ .jwt call :: after) :
    events.filterMap (GateEvent.jwtCall parse) = before.filterMap (GateEvent.jwtCall parse) ++
      call :: after.filterMap (GateEvent.jwtCall parse) := by
  rw [called, List.filterMap_append]
  rfl

/-! One operator of one tenant. -/

/-- Links found by following bindings. -/
def follows (links : List (String × String)) : ℕ → String → String → Bool
  | 0, name, role => name = role
  | n + 1, name, role =>
    name = role || links.any fun link => link.1 = name && follows links n link.2 role

def sampleLibrary : Library where
  hasLink links := follows links 10
  keyMatch key pattern :=
    if '*' ∈ pattern.toList then (pattern.toList.takeWhile (· ≠ '*')).isPrefixOf key.toList
    else key = pattern

theorem follows_iff {links : List (String × String)} {steps : ℕ} {name role : String} :
    follows links steps name role = true ↔
      ∃ n ≤ steps, Linked (fun user role => (user, role) ∈ links) n name role := by
  induction steps generalizing name with
  | zero => simp [follows, Linked]
  | succ steps ih =>
    rw [follows, Bool.or_eq_true, decide_eq_true_eq, List.any_eq_true]
    simp only [Bool.and_eq_true, decide_eq_true_eq, ih]
    constructor
    · rintro (rfl | ⟨⟨user, middle⟩, member, rfl, n, short, linked⟩)
      · exact ⟨0, Nat.zero_le _, rfl⟩
      · exact ⟨n + 1, Nat.succ_le_succ short, middle, member, linked⟩
    · rintro ⟨n, short, linked⟩
      cases n with
      | zero => exact Or.inl linked
      | succ n =>
        obtain ⟨middle, member, linked⟩ := linked
        exact Or.inr ⟨(name, middle), member, rfl, n, Nat.le_of_succ_le_succ short, linked⟩

theorem sampleLibrary_documented : sampleLibrary.Documented where
  hasLink_iff _ _ _ := follows_iff
  keyMatch_plain key pattern plain := by
    simp only [sampleLibrary, if_neg plain, decide_eq_true_eq]
  keyMatch_star key pattern before after shape none_ := by
    have star : '*' ∈ pattern.toList := by simp [shape]
    have start : pattern.toList.takeWhile (· ≠ '*') = before := by
      rw [shape, List.takeWhile_append_of_pos]
      · simp
      · intro c member
        have other : c ≠ '*' := fun same => none_ (same ▸ member)
        simpa using other
    simp only [sampleLibrary, if_pos star, start, List.isPrefixOf_iff_prefix]

def sampleManager : JWTManager plainCrypto := ⟨"smo", "ric", 120, ⟨(1 : ℕ), (1 : ℕ), none, rfl⟩, []⟩

def sampleToken : Claims × ℕ :=
  (⟨some "op", some "default", some ["operator"], some "smo", some "ric", some 100, some 160,
    some "id"⟩, 1)

/-- An operator is bound and gets a token. -/
def operatorBound : List (GateEvent plainCrypto) :=
  [.role (.add ⟨"op", "operator", "default"⟩),
    .jwt (.mint "op" "default" (some ["operator"]) 60 "id" 100)]

/-- The operator emits a policy. -/
def emitRequest : Request where
  path := "/policies/p1"
  method := "POST"
  authorization := some (bearerHeader ['t', 'o', 'k'])
  xTenant := some "default"
  clock := .at 120

theorem emitRequest_passed :
    (dispatch (fun _ => sampleToken) sampleLibrary (Gate.run (fun _ => sampleToken) sampleLibrary
      ⟨sampleManager, .seed⟩ operatorBound) emitRequest).1 =
      .ok (.passed (some ⟨"op", "default", ["operator"], some "id"⟩)) := by
  decide +kernel

/-! Admission. -/

/-- After any history of the gate, a request on a protected path is answered, and gets past it only
    with a token that a live key decodes, for its own tenant and by the roles of that tenant. With
    a token of this manager it gets past exactly when the token's key is live and tried before its
    expiry and the subject is entitled; it then has the principal that the token was minted for. -/
theorem request_admitted (documented : cr.Documented) (library : lib.Documented)
    {signingKey : Except PyErr cr.PrivatePem} {issuer audience : String} {W : ℤ} {m₀ : JWTManager cr} (created : init signingKey issuer audience W = .ok m₀)
    (rbac : Casbin) (events : List (GateEvent cr)) {start finish : ℚ}
    (clock : Clock start (events.filterMap (GateEvent.jwtCall parse)) finish) (req : Request)
    (later : finish ≤ req.clock.pruned) (protected_ : isPublic req.path = false) :
    (∃ response, (dispatch parse lib (Gate.run parse lib ⟨m₀, rbac⟩ events) req).1 = .ok response ∧
      response ≠ .passed none) ∧
    (∀ p, (dispatch parse lib (Gate.run parse lib ⟨m₀, rbac⟩ events) req).1 = .ok (.passed (some p)) →
      Entitled lib rbac (events.filterMap GateEvent.roleChange) req p.subject p.tenant ∧
      ∃ token key claims time, req.token? parse = some token ∧ p = principalOf claims ∧
        cr.decode token key audience issuer time = .ok claims ∧
        (key = (Gate.run parse lib ⟨m₀, rbac⟩ events).jwt.active.publicPem ∨
          ∃ k ∈ (Gate.run parse lib ⟨m₀, rbac⟩ events).jwt.retired, k.publicPem = key ∧
            keeps req.clock.now k = true)) ∧
    ∀ before subject tenant roles ttlSeconds jti mintedAt after text,
      events = before ++ .jwt (.mint subject tenant roles ttlSeconds jti mintedAt) :: after →
      (Gate.run parse lib ⟨m₀, rbac⟩ before).jwt.mintToken subject tenant roles ttlSeconds jti
        mintedAt = .ok (parse text) →
      text ≠ [] → (∀ c ∈ text, tokenChar c = true) →
      req.authorization = some (bearerHeader text) →
      ∀ p, (dispatch parse lib (Gate.run parse lib ⟨m₀, rbac⟩ events) req).1 = .ok (.passed (some p)) ↔
        p = ⟨subject, tenant, roles.getD [], some jti⟩ ∧
        (∃ j, ((ledger m₀ (events.filterMap (GateEvent.jwtCall parse))).active ::
            (ledger m₀ (events.filterMap (GateEvent.jwtCall parse))).liveRetired W
              req.clock.now)[j]? =
              some (Gate.run parse lib ⟨m₀, rbac⟩ before).jwt.active.publicPem ∧
            intOf (req.clock.decoded j) ≤ intOf mintedAt + ttlSeconds) ∧
        Entitled lib rbac (events.filterMap GateEvent.roleChange) req subject tenant := by
  obtain ⟨active, _, constructed⟩ := bind_eq_ok created
  have fresh : m₀.retired = [] := by
    cases constructed
    rfl
  have window : m₀.overlapWindow = W := by
    cases constructed
    rfl
  have agreed := agrees_run fresh clock
  have names : m₀.audience = audience ∧ m₀.issuer = issuer := by
    cases constructed
    exact ⟨rfl, rfl⟩
  obtain ⟨jwt, roles_⟩ := run_parts parse lib ⟨m₀, rbac⟩ events
  refine ⟨?_, ?_, ?_⟩
  · cases carried : req.token? parse with
    | none =>
      obtain ⟨detail, refused⟩ := (dispatch_untokened lib carried).2 protected_
      exact ⟨_, refused, fun same => nomatch same⟩
    | some token =>
      rw [dispatch_tokened carried]
      rcases verifyToken_cases (Gate.run parse lib ⟨m₀, rbac⟩ events).jwt token req.clock with
        ⟨key, claims, time, _, _, _, verified⟩ | ⟨e, caught, failed⟩
      · rw [verified]
        exact ⟨_, rfl, authorise_answers _ _ _⟩
      · rw [failed]
        exact ⟨_, if_pos caught, fun same => nomatch same⟩
  · intro p passed
    have cases_ := passed_cases library rbac _ roles_ protected_ passed
    rwa [jwt, agreed.audience, agreed.issuer, names.1, names.2, ← jwt] at cases_
  · intro before subject tenant roles ttlSeconds jti mintedAt after text called minted nonempty chars
      header p
    have carried : req.token? parse = some (parse text) :=
      token?_bearer nonempty chars protected_ header
    obtain ⟨claims, made, principal, sub, dom⟩ := mintToken_claims minted
    have earlier := (run_parts parse lib ⟨m₀, rbac⟩ before).1
    have minted' := minted
    rw [earlier] at minted'
    have verifies := verifies_minted documented fresh clock (filterMap_split called) minted'
      req.clock later
    rw [window, ← earlier, ← jwt] at verifies
    rw [dispatch_tokened carried]
    constructor
    · intro passed
      rcases verifyToken_cases (Gate.run parse lib ⟨m₀, rbac⟩ events).jwt (parse text) req.clock with
        ⟨key, claims', time, _, decodes, _, verified⟩ | ⟨e, caught, failed⟩
      · rw [verified] at passed
        have allowed := Except.ok.inj passed
        rw [made] at decodes
        obtain ⟨_, rfl, _⟩ := (documented.decode_encode
          (Gate.run parse lib ⟨m₀, rbac⟩ before).jwt.active.derived).mp decodes
        rw [roles_, authorise_passed_iff library, principal, sub, dom] at allowed
        exact ⟨allowed.1, verifies.mp ⟨_, verified⟩, allowed.2⟩
      · rw [failed] at passed
        simp [caught] at passed
    · rintro ⟨rfl, live, entitled⟩
      obtain ⟨claims', verified⟩ := verifies.mpr live
      have same : claims' = claims := by
        rcases verifyToken_cases (Gate.run parse lib ⟨m₀, rbac⟩ events).jwt (parse text)
          req.clock with
          ⟨key, claims'', time, _, decodes, _, verified'⟩ | ⟨e, _, failed⟩
        · rw [verified] at verified'
          rw [made, ← Except.ok.inj verified'] at decodes
          exact ((documented.decode_encode
            (Gate.run parse lib ⟨m₀, rbac⟩ before).jwt.active.derived).mp decodes).2.1
        · rw [verified] at failed
          cases failed
      rw [verified, same]
      refine congrArg Except.ok ?_
      rw [roles_, authorise_passed_iff library, principal, sub, dom]
      exact ⟨rfl, entitled⟩

theorem request_admitted_operator :
    (∃ response, (dispatch (fun _ => sampleToken) sampleLibrary (Gate.run (fun _ => sampleToken)
      sampleLibrary ⟨sampleManager, .seed⟩ operatorBound) emitRequest).1 = .ok response) ∧
    Entitled sampleLibrary .seed [.add ⟨"op", "operator", "default"⟩] emitRequest "op" "default" := by
  have created : init (.ok (1 : ℕ)) "smo" "ric" 120 = .ok sampleManager := rfl
  have minted_ : sampleManager.mintToken "op" "default" (some ["operator"]) 60 "id" 100 =
      (.ok sampleToken : Except PyErr (Claims × ℕ)) := by
    with_unfolding_all rfl
  have clock : Clock 100 (operatorBound.filterMap (GateEvent.jwtCall fun _ => sampleToken)) 120 :=
    ⟨110, ⟨le_rfl, by norm_num⟩, by norm_num [Clock]⟩
  have readable : ∀ c ∈ ['t', 'o', 'k'], tokenChar c = true := by
    rw [← List.all_eq_true]
    decide
  obtain ⟨⟨response, answered, _⟩, _, minted⟩ := request_admitted plainCrypto_documented
    sampleLibrary_documented created .seed operatorBound clock emitRequest
    (by norm_num [emitRequest, Readings.at]) (by decide +kernel)
  refine ⟨⟨response, answered⟩, ?_⟩
  exact ((minted [.role (.add ⟨"op", "operator", "default"⟩)] "op" "default" (some ["operator"]) 60
    "id" 100 [] ['t', 'o', 'k'] rfl minted_ (by decide) readable rfl _).mp
      emitRequest_passed).2.2

/-- With the shipped policy file, whatever happened before: who gets past with a method that emits
    or rolls back is an admin of the token's tenant, or an operator of it below `policies/`, by
    bindings of this tenant that stand. -/
theorem writes_admitted (library : lib.Documented) (m₀ : JWTManager cr)
    (events : List (GateEvent cr)) (req : Request) (protected_ : isPublic req.path = false)
    (writes : req.method.toUpper ∈ ["POST", "PUT", "PATCH", "DELETE"]) (p : Principal)
    (passed : (dispatch parse lib (Gate.run parse lib ⟨m₀, .seed⟩ events) req).1 =
      .ok (.passed (some p))) :
    p.tenant ∈ seedTenants ∧ ∃ n ≤ 10, ∃ role,
      Linked (fun user role => Held ⟨user, role, p.tenant⟩
        ((events.filterMap GateEvent.roleChange).filter fun change => change.tenant = p.tenant)
        False) n p.subject role ∧
      (role = "admin" ∨ role = "operator" ∧ "policies/".toList <+: (objectOf req.path).toList) := by
  have roles := (run_parts parse lib ⟨m₀, .seed⟩ events).2
  obtain ⟨⟨_, permitted⟩, _⟩ := passed_cases library .seed _ roles protected_ passed
  have action : httpMethodToAction req.method = "emit" ∨
      httpMethodToAction req.method = "rollback" := by
    simp only [List.mem_cons, List.not_mem_nil, or_false] at writes
    rcases writes with post | put | patch | delete
    · exact Or.inl (by rw [httpMethodToAction, post]; decide)
    · exact Or.inl (by rw [httpMethodToAction, put]; decide)
    · exact Or.inl (by rw [httpMethodToAction, patch]; decide)
    · exact Or.inr (by rw [httpMethodToAction, delete]; decide)
  obtain ⟨shipped, n, short, role, linked, writer⟩ := seed_writers library action permitted
  refine ⟨shipped, n, short, role, ?_, writer⟩
  rw [Linked.congr fun user role => held_of_tenant]
  exact linked

theorem writes_admitted_operator :
    "default" ∈ seedTenants ∧ ∃ n ≤ 10, ∃ role,
      Linked (fun user role => Held ⟨user, role, "default"⟩
        [.add ⟨"op", "operator", "default"⟩] False) n "op" role ∧
      (role = "admin" ∨ role = "operator" ∧
        "policies/".toList <+: (objectOf emitRequest.path).toList) :=
  writes_admitted sampleLibrary_documented sampleManager operatorBound emitRequest
    (by decide +kernel) (by decide +kernel) _ emitRequest_passed

end
end HorizonRic.RequestGate
