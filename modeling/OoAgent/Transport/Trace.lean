import OoAgent.Buffer.Queue
import OoAgent.Transport.Http

/-!
# What the daemon sink does to the outside world

Everything a run of the sink does that someone else can see is an `Event`: an
attempt to post a payload, a commit of the queue database, a request of the
enrolment conversation, a change of the token file, the start of an update
worker.  The log of a run is the list of its events in the order in which they
happened, so a process killed half way has done a prefix of it.

* `posts` — the attempts made for the payloads of interest; `Closed` and
  `Open` say whether they ended in an answer.
* `DiskQueue.commits` — the table as the committed events of a log leave it.
-/

namespace OoAgent

/-- Which path a payload was posted on: straight from the scheduler, or out of a
row of the queue. -/
inductive Origin where
  | live
  | queued (id : Nat)
  deriving DecidableEq, Repr

/-- A request of the enrolment conversation. -/
inductive EnrollRequest where
  /-- `POST /agent/v1/enroll`, with the one-time code when there is one. -/
  | post (code : Option String)
  /-- `GET /agent/v1/enroll/<id>`. -/
  | poll (id : String)
  deriving DecidableEq, Repr

/-- One thing the sink did. -/
inductive Event (α : Type) where
  /-- The sink was handed a payload to deliver. -/
  | handed (payload : α)
  /-- One attempt to post a payload with a bearer token. -/
  | post (origin : Origin) (token : String) (payload : α) (outcome : Outcome)
  /-- A commit of the queue: one row inserted, the given rows trimmed. -/
  | stored (row : Row α) (trimmed : List (Row α))
  /-- A commit of the queue: the rows with these ids deleted. -/
  | acked (ids : List Nat)
  /-- One request of the re-claim flow. -/
  | enroll (request : EnrollRequest) (outcome : Outcome)
  /-- The re-claim flow handed over a new token. -/
  | reenrolled (token : String)
  /-- The token file was removed. -/
  | removedToken
  /-- A self-update worker was started. -/
  | updateStarted (at_ : Time)
  /-- The call ended in an exception. -/
  | raised

variable {α : Type}

/-! ## Following a payload through a log -/

/-- The outcome of an attempt to post one of the payloads `me` picks out. -/
def Event.postOf (me : α → Bool) : Event α → Option Outcome
  | .post _ _ payload outcome => if me payload then some outcome else none
  | _ => none

/-- The outcomes of all attempts to post the payloads `me` picks out. -/
def posts (me : α → Bool) (log : List (Event α)) : List Outcome := log.filterMap (Event.postOf me)

/-- How many of the payloads `me` picks out an event trimmed. -/
def Event.trimsOf (me : α → Bool) : Event α → Nat
  | .stored _ trimmed => trimmed.countP (fun r => me r.payload)
  | _ => 0

/-- How many of the payloads `me` picks out were trimmed. -/
def trims (me : α → Bool) (log : List (Event α)) : Nat := (log.map (Event.trimsOf me)).sum

@[simp] theorem posts_append (me : α → Bool) (l m : List (Event α)) :
    posts me (l ++ m) = posts me l ++ posts me m := List.filterMap_append

@[simp] theorem trims_append (me : α → Bool) (l m : List (Event α)) :
    trims me (l ++ m) = trims me l + trims me m := by
  simp [trims]

/-- No attempt got an answer. -/
def Open (os : List Outcome) : Prop := ∀ o ∈ os, o.definitive = false

/-- The last attempt, and no earlier one, got an answer. -/
def Closed (os : List Outcome) : Prop :=
  ∃ before answer, os = before ++ [answer] ∧ Open before ∧ answer.definitive = true

@[simp] theorem open_nil : Open [] := by simp [Open]

theorem Open.append {l m : List Outcome} (hl : Open l) (hm : Open m) : Open (l ++ m) := by
  intro o ho
  rcases List.mem_append.1 ho with h | h
  · exact hl o h
  · exact hm o h

theorem Open.append_closed {l m : List Outcome} (hl : Open l) (hm : Closed m) :
    Closed (l ++ m) := by
  obtain ⟨before, answer, rfl, hb, ha⟩ := hm
  exact ⟨l ++ before, answer, by rw [List.append_assoc], hl.append hb, ha⟩

theorem Closed.not_open {l : List Outcome} (h : Closed l) : ¬ Open l := by
  obtain ⟨before, answer, rfl, -, ha⟩ := h
  intro hopen
  have := hopen answer (by simp)
  rw [ha] at this
  exact absurd this (by decide)

/-- The attempts one `push` makes for a payload, as events. -/
def attempts (origin : Origin) (token : String) (payload : α) (tries : List Outcome) :
    List (Event α) :=
  tries.map (Event.post origin token payload)

theorem posts_attempts (me : α → Bool) (origin : Origin) (token : String) (payload : α)
    (tries : List Outcome) :
    posts me (attempts origin token payload tries) = if me payload then tries else [] := by
  by_cases h : me payload <;> simp [posts, attempts, Event.postOf, List.filterMap_map, h,
    Function.comp_def]

@[simp] theorem trims_attempts (me : α → Bool) (origin : Origin) (token : String) (payload : α)
    (tries : List Outcome) : trims me (attempts origin token payload tries) = 0 := by
  simp [trims, attempts, Event.trimsOf, Function.comp_def]

/-! ## The committed table -/

namespace DiskQueue

/-- The table after one more event has been committed. -/
def commit (q : DiskQueue α) : Event α → DiskQueue α
  | .stored row trimmed => (q.insert row.ts row.payload).deleteIds (trimmed.map Row.id)
  | .acked ids => q.deleteIds ids
  | _ => q

/-- The table after all commits of a log. -/
def commits (q : DiskQueue α) (log : List (Event α)) : DiskQueue α := log.foldl commit q

theorem commits_append (q : DiskQueue α) (l m : List (Event α)) :
    q.commits (l ++ m) = (q.commits l).commits m := List.foldl_append

@[simp] theorem commits_attempts (q : DiskQueue α) (origin : Origin) (token : String)
    (payload : α) (tries : List Outcome) :
    q.commits (attempts origin token payload tries) = q := by
  induction tries with
  | nil => rfl
  | cons o tries ih => exact ih

end DiskQueue

end OoAgent
