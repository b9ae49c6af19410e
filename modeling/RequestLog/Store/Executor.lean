import RequestLog.Store.Row

/-!
# Asking a store

However a store is reached, a query is asked in the same way. It has to be
compiled for the store, every argument has to have a form in which the store can
be given it, the answer has to come in time, and every row of it has to hold what
was declared. The first of these that does not hold is the failure.
-/

namespace RequestLog

structure Executor (m : Type → Type) where
  backend : Backend
  fetch : Query → List Store.ResultColumn → m (Except Store.FetchError (List Store.Row))

structure Clock (m : Type → Type) where
  now : m Instant
  /-- Gives nothing when something takes more than a number of milliseconds. -/
  within : {α : Type} → Nat → m α → m (Option α)

namespace Store

variable {m : Type → Type} [Monad m]

/-- Arguments as a store is given them; a list cannot be given. -/
def bindArguments {α : Type} (b : Backend) (bind : Scalar → Option α)
    (args : List Scalar) : Except FetchError (List α) :=
  args.mapM fun s =>
    match bind s with
    | some a => .ok a
    | none => .error (.store b "list arguments cannot be bound directly" false)

/-- Something that is asked of a store, and has to be done in time. -/
def inTime {α : Type} (clock : Clock m) (b : Backend) (limit : Nat)
    (act : m (Except FetchError α)) : m (Except FetchError α) := do
  match ← clock.within limit act with
  | some result => return result
  | none => return .error (.timeout b (limit / 1000))

structure Asking (m : Type → Type) (argument answer : Type) where
  backend : Backend
  bind : Scalar → Option argument
  ask : String → List argument → m (Except FetchError answer)
  read : List ResultColumn → answer → Except FetchError (List Row)

def Asking.executor {argument answer : Type} (a : Asking m argument answer)
    (clock : Clock m) (limit : Nat) : Executor m where
  backend := a.backend
  fetch q columns := do
    match q.admittedBy a.backend with
    | .error e => return .error e
    | .ok () =>
        match bindArguments a.backend a.bind q.args with
        | .error e => return .error e
        | .ok args =>
            match ← inTime clock a.backend limit (a.ask q.text args) with
            | .error e => return .error e
            | .ok answer => return a.read columns answer

end Store

end RequestLog
