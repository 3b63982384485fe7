import HorizonRic.Python.Number

/-!
Async generators. A body that is resumed yields, returns, raises or still waits;
once it has returned or raised, the generator is finished and every later
`__anext__` raises `StopAsyncIteration`.
-/
namespace Py

/-- How a resumed body stops. -/
inductive Resumed (σ ε : Type) where
  | yields (e : ε) (rest : σ)
  | returns
  | raises (err : PyErr)

inductive AsyncGenerator (σ : Type) where
  | suspended (s : σ)
  | finished

/-- How an awaited `__anext__` ends. -/
inductive Anext (ε : Type) where
  | event (e : ε)
  | stopAsyncIteration
  | raised (err : PyErr)

namespace AsyncGenerator
variable {σ ε : Type}

/-- `__anext__`: none while the body waits. -/
def anext (body : σ → Option (Resumed σ ε)) :
    AsyncGenerator σ → Option (Anext ε × AsyncGenerator σ)
  | .finished => some (.stopAsyncIteration, .finished)
  | .suspended s =>
    match body s with
    | none => none
    | some (.yields e rest) => some (.event e, .suspended rest)
    | some .returns => some (.stopAsyncIteration, .finished)
    | some (.raises err) => some (.raised err, .finished)

@[simp] theorem anext_finished (body : σ → Option (Resumed σ ε)) :
    anext body .finished = some (.stopAsyncIteration, .finished) := rfl

/-- `async for` over the generator gets these and ends. -/
def Yields (body : σ → Option (Resumed σ ε)) : List ε → AsyncGenerator σ → Prop
  | [], g => ∃ g', g.anext body = some (.stopAsyncIteration, g')
  | e :: es, g => ∃ g', g.anext body = some (.event e, g') ∧ Yields body es g'

theorem Yields.congr {body : σ → Option (Resumed σ ε)} {es : List ε} {g g' : AsyncGenerator σ}
    (same : g.anext body = g'.anext body) (yields : Yields body es g') : Yields body es g := by
  cases es with
  | nil =>
    unfold Yields at yields ⊢
    rwa [same]
  | cons e es =>
    unfold Yields at yields ⊢
    rwa [same]

end AsyncGenerator
end Py
