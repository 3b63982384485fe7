import HorizonRic.Library.Machine
import Mathlib.Data.Rat.Defs
import Mathlib.Algebra.Order.Ring.Rat

/-!
The asynchronous circuit breaker around the state machine of the breaker
library, which is a parameter. A call passes the gate and starts the wrapped
call in one step; the result is reported in another, and other calls run in
between.
-/
namespace HorizonRic.CircuitBreaker

inductive CircuitState where
  | closed
  | open
  | halfOpen
  deriving DecidableEq, Repr

/-- The breaker library: `Breaker` is its object, with the state storage. -/
structure Pybreaker (Breaker : Type) where
  currentState : Breaker → CircuitState
  openedAt : Breaker → Option ℚ
  counter : Breaker → ℕ
  failMax : ℕ
  resetTimeout : ℚ
  halfOpen : Breaker → Breaker
  handleSuccess : Breaker → Breaker
  handleError : Breaker → ℚ → Breaker

inductive Exc where
  | httpStatusError (statusCode : ℤ)
  | timeoutException
  | connectError
  | networkError
  | remoteProtocolError
  | httpError
  | other (name : String)
  deriving DecidableEq, Repr

/-- What counts as a failure of the server: not a 4xx response. -/
def isFailure : Exc → Bool
  | .httpStatusError statusCode => 500 ≤ statusCode && statusCode < 600
  | .timeoutException => true
  | .connectError => true
  | .networkError => true
  | .remoteProtocolError => true
  | .httpError => true
  | .other _ => false

inductive Outcome where
  | returned
  | raised (exc : Exc)
  deriving DecidableEq, Repr

inductive Gate (β : Type) where
  | rejected
  | started (breaker : β)

variable {Breaker : Type} (py : Pybreaker Breaker)

/-- The gate of `call`, up to the start of the wrapped call. -/
def gate (breaker : Breaker) (now : ℚ) : Gate Breaker :=
  if py.currentState breaker = .open then
    match py.openedAt breaker with
    | some openedAt =>
      if now < openedAt + py.resetTimeout then .rejected else .started (py.halfOpen breaker)
    | none => .started (py.halfOpen breaker)
  else .started breaker

/-- The report of the result to the breaker. -/
def report (breaker : Breaker) (outcome : Outcome) (now : ℚ) : Breaker :=
  match outcome with
  | .returned => py.handleSuccess breaker
  | .raised exc => if isFailure exc then py.handleError breaker now else py.handleSuccess breaker

/-- The breaker and the wrapped calls that run. `trials` counts the calls started since the breaker
    entered HALF_OPEN, and `lastOpened` is when it last opened. -/
structure System (Breaker : Type) where
  breaker : Breaker
  running : ℕ
  trials : ℕ
  lastOpened : Option ℚ

inductive Event where
  | call (now : ℚ)
  | finish (outcome : Outcome) (now : ℚ)

def System.init (breaker : Breaker) : System Breaker where
  breaker := breaker
  running := 0
  trials := 0
  lastOpened := none

def System.step (s : System Breaker) : Event → Option (System Breaker)
  | .call now =>
    match gate py s.breaker now with
    | .rejected => some s
    | .started breaker =>
      let entered := py.currentState s.breaker = .open
      some { s with
        breaker := breaker
        running := s.running + 1
        trials := if entered then 1 else s.trials + 1 }
  | .finish outcome now =>
    if s.running = 0 then none
    else
      let breaker := report py s.breaker outcome now
      let opened := py.currentState s.breaker ≠ .open ∧ py.currentState breaker = .open
      some { s with
        breaker := breaker
        running := s.running - 1
        lastOpened := if opened then some now else s.lastOpened }

end HorizonRic.CircuitBreaker
