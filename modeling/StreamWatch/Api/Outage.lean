import StreamWatch.Api

/-!
# A status API with outages

An `Outage` makes chosen calls of another status API fail. Whether a call fails depends on the
request alone, and a call that fails does not reach the other API.
-/

namespace StreamWatch

/-- Which calls fail. -/
inductive FailingCalls where
  | none
  | all
  /-- The calls about streams of these names. -/
  | named (names : List String)
deriving DecidableEq

/-- Whether a call about a stream of this name fails. -/
def FailingCalls.includes (calls : FailingCalls) (name : String) : Bool :=
  match calls with
  | .none => false
  | .all => true
  | .named names => names.contains name

/-- Which calls of each kind fail. -/
structure Outage where
  creates : FailingCalls := .none
  updates : FailingCalls := .none
deriving DecidableEq

namespace Outage

/-- The failure of a call that does not get through. -/
def failure (call : String) : Failure :=
  ⟨.apiUnavailable, "Status API is unreachable", some call⟩

/-- The failure of a request, if it is one of the failing calls. -/
def failure? (o : Outage) : Request → Option Failure
  | .create report => if o.creates.includes report.key.name then some (failure "create") else none
  | .update _ report => if o.updates.includes report.key.name then some (failure "update") else none

/-- The API with the outage. -/
def applyTo {σ : Type} (o : Outage) (api : StatusApi σ) : StatusApi σ where
  answer request s :=
    match o.failure? request with
    | some failure => (.error failure, s)
    | none => api.answer request s

end Outage

end StreamWatch
