import HorizonRic.Python.TextFile
import HorizonRic.Security.Rbac
import HorizonRic.Security.RotationWindow

/-!
The middleware in front of every route: public paths, the bearer token, the tenant
of the request, and the roles of the subject. Requests come in between changes of
roles, tokens minted and rotations of the signing key.
-/
namespace HorizonRic.RequestGate
open Py Jwt Rbac

def publicPaths : List String :=
  ["/healthz", "/livez", "/readyz", "/openapi.json", "/docs", "/redoc"]

/-- Authenticated identity of a request. -/
structure Principal where
  subject : String
  tenant : String
  roles : List String
  jti : Option String
  deriving DecidableEq, Repr

/-- The headers are those the middleware reads; the clock is what it shows while it verifies. -/
structure Request where
  path : String
  method : String
  authorization : Option String
  xTenant : Option String
  clock : Readings

/-- The handler is called, with a principal unless the path is public, or the request is refused. -/
inductive Response where
  | passed (principal : Option Principal)
  | refused (statusCode : ℕ) (detail : String)
  deriving DecidableEq, Repr

def tokenChar (c : Char) : Bool := c.isAlphanum || c == '.' || c == '_' || c == '-'

def bearer : List Char := ['B', 'e', 'a', 'r', 'e', 'r']

/-- What `_BEARER_RE` takes for the token of a header. -/
def bearerToken (header : List Char) : Option (List Char) :=
  let start := lstrip header
  if bearer <+: start then
    let after := start.drop 6
    let token := (lstrip after).takeWhile tokenChar
    if lstrip after = after then none
    else if token = [] then none
    else if lstrip ((lstrip after).dropWhile tokenChar) = [] then some token
    else none
  else none

def isPublic (path : String) : Bool :=
  publicPaths.any fun p => path = p || (p ++ "/").toList.isPrefixOf path.toList

def httpMethodToAction (method : String) : String :=
  let m := method.toUpper
  if m = "GET" ∨ m = "HEAD" ∨ m = "OPTIONS" then "read"
  else if m = "POST" then "emit"
  else if m = "PUT" ∨ m = "PATCH" then "emit"
  else if m = "DELETE" then "rollback"
  else m.toLower

/-- `path.lstrip("/")`. -/
def objectOf (path : String) : String := String.ofList (path.toList.dropWhile (· = '/'))

/-- `except JWTError`, which its subclasses are. -/
def isJWTError (e : PyErr) : Bool :=
  e = JWTError.jwtError.raised || e = JWTError.expiredSignatureError.raised ||
    e = JWTError.jwtClaimsError.raised

/-- The request names another tenant than the token. -/
def foreignTenant (xTenant : Option String) (tenant : String) : Bool :=
  match xTenant with
  | none => false
  | some resource => resource ≠ "" && resource ≠ tenant

structure Gate (cr : Crypto) where
  jwt : JWTManager cr
  rbac : Casbin

section
variable {cr : Crypto} (parse : List Char → cr.Token) (lib : Library)

/-- What follows a verified token. -/
def authorise (rbac : Casbin) (req : Request) (claims : Claims) : Response :=
  let sub := claims.sub.getD ""
  let tokTenant := claims.tenant.getD ""
  let roles := claims.roles.getD []
  if foreignTenant req.xTenant tokTenant then .refused 403 "tenant mismatch"
  else if rbac.enforce lib sub tokTenant (objectOf req.path) (httpMethodToAction req.method) then
    .passed (some ⟨sub, tokTenant, roles, claims.jti⟩)
  else .refused 403 "forbidden"

def dispatch (g : Gate cr) (req : Request) : Except PyErr Response × Gate cr :=
  if isPublic req.path then (.ok (.passed none), g)
  else if req.authorization.getD "" = "" then
    (.ok (.refused 401 "missing Authorization header"), g)
  else match bearerToken (req.authorization.getD "").toList with
    | none => (.ok (.refused 401 "malformed Authorization header"), g)
    | some token =>
      let (verified, jwt) := g.jwt.verifyToken (parse token) req.clock
      match verified with
      | .error e =>
        (if isJWTError e then .ok (.refused 401 "invalid token") else .error e, { g with jwt := jwt })
      | .ok claims => (.ok (authorise lib g.rbac req claims), { g with jwt := jwt })

/-! Requests between other calls. -/

inductive GateEvent (cr : Crypto) where
  | jwt (call : Jwt.Call cr)
  | role (change : RoleChange)
  | request (req : Request)

def Gate.step (g : Gate cr) : GateEvent cr → Gate cr
  | .jwt call => { g with jwt := g.jwt.step call }
  | .role change => { g with rbac := g.rbac.step change }
  | .request req => (dispatch parse lib g req).2

def Gate.run (g : Gate cr) (events : List (GateEvent cr)) : Gate cr := events.foldl (Gate.step parse lib) g

/-- The token that a request has verified, if any. -/
def Request.token? (req : Request) : Option cr.Token :=
  if isPublic req.path then none
  else if req.authorization.getD "" = "" then none
  else (bearerToken (req.authorization.getD "").toList).map parse

/-- What an event asks of the token manager. -/
def GateEvent.jwtCall : GateEvent cr → Option (Jwt.Call cr)
  | .jwt call => some call
  | .role _ => none
  | .request req => (req.token? parse).map fun token => .verify token req.clock

def GateEvent.roleChange : GateEvent cr → Option RoleChange
  | .role change => some change
  | _ => none

variable {parse lib}

/-- A request without a token is answered at once. -/
theorem dispatch_untokened (lib : Library) {g : Gate cr} {req : Request} (none_ : req.token? parse = none) :
    (dispatch parse lib g req).2 = g ∧
      (isPublic req.path = false → ∃ detail, (dispatch parse lib g req).1 = .ok (.refused 401 detail)) := by
  unfold Request.token? at none_
  unfold dispatch
  split at none_
  · rename_i here
    rw [if_pos here]
    exact ⟨rfl, fun protected_ => by rw [here] at protected_; cases protected_⟩
  · rename_i here
    rw [if_neg here]
    split at none_
    · rename_i empty
      rw [if_pos empty]
      exact ⟨rfl, fun _ => ⟨_, rfl⟩⟩
    · rename_i given
      rw [if_neg given, Option.map_eq_none_iff.mp none_]
      exact ⟨rfl, fun _ => ⟨_, rfl⟩⟩

theorem dispatch_tokened {g : Gate cr} {req : Request} {token : cr.Token}
    (carried : req.token? parse = some token) :
    dispatch parse lib g req =
      (match (g.jwt.verifyToken token req.clock).1 with
        | .error e => if isJWTError e then .ok (.refused 401 "invalid token") else .error e
        | .ok claims => .ok (authorise lib g.rbac req claims),
      { g with jwt := (g.jwt.verifyToken token req.clock).2 }) := by
  unfold Request.token? at carried
  unfold dispatch
  split at carried
  · cases carried
  · rename_i here
    rw [if_neg here]
    split at carried
    · cases carried
    · rename_i given
      obtain ⟨text, read, rfl⟩ := Option.map_eq_some_iff.mp carried
      rw [if_neg given, read]
      dsimp only
      cases (g.jwt.verifyToken (parse text) req.clock).1 with
      | error e => rfl
      | ok claims => rfl

end
end HorizonRic.RequestGate
