import HorizonRic.Python.Number
import Mathlib.Data.Rat.Floor
import Mathlib.Order.Monotone.Defs

/-!
RS256 tokens and rotation of the signing key. The cryptography is a parameter:
reading a public key off a private one, encoding a token and decoding it.
-/
namespace HorizonRic.Jwt
open Py

/-- `int(x)` of a clock reading. -/
def intOf (t : ℚ) : ℤ := if t < 0 then -⌊-t⌋ else ⌊t⌋

def maxClockSkewSeconds : ℤ := 60

/-- `JWTError` and its subclasses. -/
inductive JWTError where
  | jwtError
  | expiredSignatureError
  | jwtClaimsError
  deriving DecidableEq, Repr

def JWTError.raised : JWTError → PyErr
  | .jwtError => .other "JWTError"
  | .expiredSignatureError => .other "ExpiredSignatureError"
  | .jwtClaimsError => .other "JWTClaimsError"

@[ext]
structure Claims where
  sub : Option String
  tenant : Option String
  roles : Option (List String)
  iss : Option String
  aud : Option String
  iat : Option ℤ
  exp : Option ℤ
  jti : Option String
  deriving DecidableEq, Repr

/-- The token library and the key format: RSA keys in `cryptography`, tokens in `jose`. -/
structure Crypto where
  PrivatePem : Type
  PublicPem : Type
  Token : Type
  derivePublicPem : PrivatePem → Except PyErr PublicPem
  encode : Claims → PrivatePem → Token
  decode : Token → PublicPem → (audience issuer : String) → (now : ℚ) → Except JWTError Claims

/-- A key with its public part; no deadline while it signs. -/
structure ActiveKey (cr : Crypto) where
  privatePem : cr.PrivatePem
  publicPem : cr.PublicPem
  retireAt : Option ℚ
  derived : cr.derivePublicPem privatePem = .ok publicPem

structure JWTManager (cr : Crypto) where
  issuer : String
  audience : String
  overlapWindow : ℤ
  active : ActiveKey cr
  retired : List (ActiveKey cr)

/-- What the clock shows during one `verify_token`: when pruning, when choosing the keys, and when
    decoding with each of them. -/
structure Readings where
  pruned : ℚ
  now : ℚ
  decoded : ℕ → ℚ
  chosen : pruned ≤ now
  started : now ≤ decoded 0
  later : Monotone decoded

/-- A call during which the clock stands at `t`. -/
def Readings.at (t : ℚ) : Readings where
  pruned := t
  now := t
  decoded := fun _ => t
  chosen := le_rfl
  started := le_rfl
  later := monotone_const

section
variable {cr : Crypto}

/-- The key in a file, if it can be read and holds an RSA private key. -/
def loadActiveKey (file : Except PyErr cr.PrivatePem) : Except PyErr (ActiveKey cr) :=
  match file with
  | .error e => .error e
  | .ok privatePem =>
    match derived : cr.derivePublicPem privatePem with
    | .error e => .error e
    | .ok publicPem => .ok ⟨privatePem, publicPem, none, derived⟩

namespace JWTManager

/-- The constructor. -/
def init (signingKey : Except PyErr cr.PrivatePem) (issuer audience : String)
    (overlapWindowSeconds : ℤ) : Except PyErr (JWTManager cr) := do
  let active ← loadActiveKey signingKey
  return { issuer, audience, overlapWindow := overlapWindowSeconds, active, retired := [] }

def mintToken (m : JWTManager cr) (subject tenant : String) (roles : Option (List String))
    (ttlSeconds : ℤ) (jti : String) (now : ℚ) : Except PyErr cr.Token :=
  if subject = "" then .error .valueError
  else if tenant = "" then .error .valueError
  else match roles with
    | none => .error .valueError
    | some roles =>
      let claims : Claims :=
        { sub := some subject, tenant := some tenant, roles := some roles, iss := some m.issuer,
          aud := some m.audience, iat := some (intOf now), exp := some (intOf now + ttlSeconds),
          jti := some jti }
      .ok (cr.encode claims m.active.privatePem)

/-- `k.retire_at is None or k.retire_at > cutoff`. -/
def keeps (cutoff : ℚ) (k : ActiveKey cr) : Bool :=
  match k.retireAt with
  | none => true
  | some retireAt => cutoff < retireAt

def pruneRetiredKeys (m : JWTManager cr) (now : ℚ) : JWTManager cr :=
  { m with retired := m.retired.filter (keeps (now - maxClockSkewSeconds)) }

/-- The claims that are required of every token. -/
def requireClaims (claims : Claims) : Except PyErr Claims :=
  if claims.sub.isNone then .error JWTError.jwtError.raised
  else if claims.tenant.isNone then .error JWTError.jwtError.raised
  else if claims.roles.isNone then .error JWTError.jwtError.raised
  else .ok claims

/-- The loop over the keys; `i` counts the keys tried. -/
def tryKeys (audience issuer : String) (token : cr.Token) (decoded : ℕ → ℚ) :
    List cr.PublicPem → ℕ → Option JWTError → Except PyErr Claims
  | [], _, none => .error (.other "AssertionError")
  | [], _, some lastErr => .error lastErr.raised
  | k :: keys, i, _ =>
    match cr.decode token k audience issuer (decoded i) with
    | .error e => tryKeys audience issuer token decoded keys (i + 1) (some e)
    | .ok claims => requireClaims claims

/-- `verify_token` after pruning. -/
def checkToken (m : JWTManager cr) (token : cr.Token) (r : Readings) : Except PyErr Claims :=
  let keysToTry := m.active :: m.retired.filter (keeps r.now)
  tryKeys m.audience m.issuer token r.decoded (keysToTry.map ActiveKey.publicPem) 0 none

def verifyToken (m : JWTManager cr) (token : cr.Token) (r : Readings) :
    Except PyErr Claims × JWTManager cr :=
  let m := m.pruneRetiredKeys r.pruned
  (m.checkToken token r, m)

/-- The new key signs; the previous one gets its deadline. -/
def promote (m : JWTManager cr) (newActive : ActiveKey cr) (now : ℚ) : JWTManager cr :=
  let previous := { m.active with retireAt := some (now + m.overlapWindow) }
  { m with retired := m.retired ++ [previous], active := newActive }

/-- The clock is read when the previous key gets its deadline and when pruning. -/
def rotateSigningKey (m : JWTManager cr) (newKey : Except PyErr cr.PrivatePem) (now pruned : ℚ) :
    Except PyErr Unit × JWTManager cr :=
  match loadActiveKey newKey with
  | .error e => (.error e, m)
  | .ok newActive => (.ok (), (m.promote newActive now).pruneRetiredKeys pruned)

end JWTManager

/-! Runs of calls under a clock. -/

inductive Call (cr : Crypto) where
  | rotate (newKey : Except PyErr cr.PrivatePem) (now pruned : ℚ)
  | mint (subject tenant : String) (roles : Option (List String)) (ttlSeconds : ℤ) (jti : String)
      (now : ℚ)
  | verify (token : cr.Token) (r : Readings)

def JWTManager.step (m : JWTManager cr) : Call cr → JWTManager cr
  | .rotate newKey now pruned => (m.rotateSigningKey newKey now pruned).2
  | .mint .. => m
  | .verify token r => (m.verifyToken token r).2

def JWTManager.run (m : JWTManager cr) (calls : List (Call cr)) : JWTManager cr :=
  calls.foldl JWTManager.step m

/-- The clock does not go back during a call. -/
def Call.Within (start finish : ℚ) : Call cr → Prop
  | .rotate _ now pruned => start ≤ now ∧ now ≤ pruned ∧ pruned ≤ finish
  | .mint _ _ _ _ _ now => start ≤ now ∧ now ≤ finish
  | .verify _ r => start ≤ r.pruned ∧ ∀ i, r.decoded i ≤ finish

/-- Nor from one call to the next. -/
def Clock : ℚ → List (Call cr) → ℚ → Prop
  | start, [], finish => start ≤ finish
  | start, call :: calls, finish => ∃ between, call.Within start between ∧ Clock between calls finish

end
end HorizonRic.Jwt
