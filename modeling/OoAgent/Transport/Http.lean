import OoAgent.Python.Value

/-!
# HTTP and clocks as the agent sees them

The agent talks to one server through `httpx`.  What it can see of one request
is an `Outcome`: the request raised, or a response came back with a status, a
text and whatever `response.json()` makes of the body.  The network itself is a
stream of outcomes, one for each attempt, so a statement about every stream is a
statement about every server and every network.
-/

namespace OoAgent

/-- `time.monotonic()`, in nanoseconds. -/
abbrev Time := Nat

/-- A number of seconds on the monotonic clock. -/
def seconds (n : Nat) : Time := n * 1000000000

/-- The status of a final response; 1xx responses never reach the caller. -/
structure Status where
  code : Nat
  final : 200 ≤ code
  deriving DecidableEq, Repr

namespace Status

/-- 200. -/
def ok : Status := ⟨200, by decide⟩

/-- `status_code < 300`: a 2xx. -/
def accepted (s : Status) : Bool := decide (s.code < 300)

/-- `400 <= status_code < 500`. -/
def rejected (s : Status) : Bool := decide (400 ≤ s.code ∧ s.code < 500)

/-- `status_code in (401, 403, 410)`. -/
def auth (s : Status) : Bool := s.code ∈ [401, 403, 410]

/-- `status_code >= 400`. -/
def failed (s : Status) : Bool := decide (400 ≤ s.code)

/-- A 2xx or a 4xx: the caller is done with what it sent. -/
def definitive (s : Status) : Bool := s.accepted || s.rejected

theorem not_accepted_of_rejected {s : Status} (h : s.rejected = true) : s.accepted = false := by
  simp only [rejected, decide_eq_true_eq] at h
  simp only [accepted, decide_eq_false_iff_not]
  omega

end Status

/-- A final response. -/
structure Response where
  status : Status
  text : String
  /-- `response.json()`, `none` when it raises `ValueError`.  A body it raises over otherwise, as
  it does when that is nested too deeply, is a matter of the `Network` of a push, and for an
  enrolment a request that raised. -/
  json : Option Value

/-- What one request came to. -/
inductive Outcome where
  /-- The request raised; network errors vary. -/
  | exception
  | response (r : Response)

/-- The request got a 2xx or a 4xx. -/
def Outcome.definitive : Outcome → Bool
  | .exception => false
  | .response r => r.status.definitive

/-- An empty reply with the given status. -/
def Outcome.ofStatus (code : Nat) (h : 200 ≤ code := by decide) : Outcome :=
  .response { status := ⟨code, h⟩, text := "", json := none }

end OoAgent
