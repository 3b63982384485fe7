import HorizonRic.Python.Number
import HorizonRic.Library.Coordinates

/-!
Verifiable two-server secure aggregation: fixed-point encoding into a prime
field, additive shares for two servers, one commitment per coordinate, and the
check of the servers' sum against the product of the commitments.
-/
namespace HorizonRic.VerifiableSecagg
open Py

/-- The modulus `P` and the order `Q` of the subgroup its generator spans. -/
structure ModpGroup where
  p : ℕ
  q : ℕ

def generator : ℤ := 2

/-- RFC 3526, group 14. -/
def rfc3526P : ℕ :=
  0xFFFFFFFFFFFFFFFFC90FDAA22168C234C4C6628B80DC1CD129024E088A67CC74020BBEA63B139B22514A08798E3404DDEF9519B3CD3A431B302B0A6DF25F14374FE1356D6D51C245E485B576625E7EC6F44C42E9A637ED6B0BFF5CB6F406B7EDEE386BFB5A899FA5AE9F24117C4B1FE649286651ECE45B3DC2007CB8A163BF0598DA48361C55D39A69163FA8FD24CF5F83655D23DCA3AD961C62F356208552BB9ED529077096966D670C354E4ABC9804F1746C08CA18217C32905E462E36CE3BE39E772C180E86039B2783A2EC07A28FB5C55DF06F4C52C9DE2BCBF6955817183995497CEA956AE515D2261898FA051015728E5A8AACAA68FFFFFFFFFFFFFFFF

def rfc3526 : ModpGroup := ⟨rfc3526P, (rfc3526P - 1) / 2⟩

/-- Fixed point with 16 fractional bits. -/
def quantScale : ℕ := 2 ^ 16

def quantize (x : ℚ) : ℤ := roundHalfEven (x * quantScale)

structure ClientContribution where
  shareA : List ℤ
  shareB : List ℤ
  commitments : List ℤ

structure AggregationResult where
  sumVector : List ℚ
  meanVector : List ℚ
  verified : Bool
  nClients : ℕ

namespace ModpGroup
variable (g : ModpGroup)

def encode (x : ℚ) : ℤ := quantize x % g.q

def decode (e : ℤ) : ℚ :=
  let e := e % g.q
  if (g.q : ℤ) / 2 < e then ((e - g.q : ℤ) : ℚ) / quantScale else (e : ℚ) / quantScale

/-- `pow(G, e, P)` for an exponent that is not negative. -/
def powG (e : ℤ) : ℤ := generator ^ e.toNat % g.p

def commitVector (values : List ℚ) : List ℤ := values.map fun v => g.powG (g.encode v)

/-- A mask from the bytes a generator draws. -/
def randBelow (draw : ℕ) : ℤ := (draw : ℤ) % g.q

def splitContribution (values : List ℚ) (draw : ℕ → ℕ) : ClientContribution :=
  let enc := values.map g.encode
  let a := (List.range values.length).map fun i => g.randBelow (draw i)
  let b := List.zipWith (fun e ai => (e - ai) % (g.q : ℤ)) enc a
  ⟨a, b, enc.map g.powG⟩

def addShares (a b : List ℤ) : List ℤ := List.zipWith (fun x y => (x + y) % (g.q : ℤ)) a b

def reconstructContribution (c : ClientContribution) : Except PyErr (List ℚ) :=
  if c.shareA.length ≠ c.shareB.length then .error .valueError
  else .ok ((g.addShares c.shareA c.shareB).map g.decode)

/-- The first share is copied as it is, the later ones are added modulo `Q`. -/
def serverSum : List (List ℤ) → Except PyErr (List ℤ)
  | [] => .error .valueError
  | first :: rest => .ok (rest.foldl g.addShares first)

def fieldSum (contributions : List ClientContribution) : Except PyErr (List ℤ) := do
  let sumA ← g.serverSum (contributions.map ClientContribution.shareA)
  let sumB ← g.serverSum (contributions.map ClientContribution.shareB)
  .ok (g.addShares sumA sumB)

/-- The product of the commitments of one coordinate. -/
def commitProduct (j : ℕ) : List (List ℤ) → ℤ → Except PyErr ℤ
  | [], prod => .ok prod
  | commitments :: rest, prod =>
    match commitments[j]? with
    | some c => commitProduct j rest (prod * c % g.p)
    | none => .error .indexError

/-- Coordinate after coordinate from `j` on, until one differs. -/
def checkSums (exponent : ℤ → ℤ) (commitments : List (List ℤ)) :
    ℕ → List ℤ → Except PyErr Bool
  | _, [] => .ok true
  | j, s :: rest => do
    let prod ← g.commitProduct j commitments 1
    if g.powG (exponent s) ≠ prod then .ok false
    else checkSums exponent commitments (j + 1) rest

def aggregate (contributions : List ClientContribution) : Except PyErr AggregationResult :=
  if contributions.isEmpty then .error .valueError
  else do
    let sums ← g.fieldSum contributions
    let verified ←
      g.checkSums id (contributions.map ClientContribution.commitments) 0 sums
    let decoded := sums.map g.decode
    let n := contributions.length
    .ok ⟨decoded, decoded.map (· / (n : ℚ)), verified, n⟩

def verifyAgainstCommitments (sums : List ℤ) (commitments : List (List ℤ)) :
    Except PyErr Bool :=
  g.checkSums (· % (g.q : ℤ)) commitments 0 sums

end ModpGroup
end HorizonRic.VerifiableSecagg
