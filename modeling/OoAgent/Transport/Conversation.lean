import OoAgent.Lib.Machine
import OoAgent.Transport.Enroll

/-!
# Whole enrolment conversations

`enroll()` runs a conversation in one call, the re-claim flow one request per
call.  This file says when each of them ends with a token.

* `pollLoop_token_iff`, `enroll_token` — a blocking run ends with a token exactly
  when some reply, after replies that keep it waiting, carries one.
* `reclaimMachine` — whole runs of the flow, with a log of its exchanges.
-/

namespace OoAgent

/-! ## The polling loop -/

/-- The loop reads a token off the reply `r` to this poll. -/
structure Reads (deadline : Time) (p : Poll) (r : Response) : Prop where
  inTime : p.now ≤ deadline
  reply : p.outcome = .response r
  ok : r.status.failed = false
  open_ : refused (statusOf r.data) = false

/-- The poll keeps the loop waiting: the token it reads is empty. -/
def Waits (deadline : Time) (p : Poll) : Prop := ∃ r, Reads deadline p r ∧ tokenOf r.data = ""

/-- The loop ends with a token at a poll after polls that keep it waiting. -/
structure Issues (deadline : Time) (polls before : List Poll) (r : Response) : Prop where
  split : ∃ p after, polls = before ++ p :: after ∧ Reads deadline p r
  waits : ∀ p ∈ before, Waits deadline p
  token : tokenOf r.data ≠ ""

theorem pollLoop_read {deadline : Time} {p : Poll} {r : Response} (h : Reads deadline p r)
    (ps : List Poll) :
    pollLoop deadline (p :: ps) =
      if tokenOf r.data ≠ "" then (.token (tokenOf r.data), 1)
      else ((pollLoop deadline ps).1, (pollLoop deadline ps).2 + 1) := by
  obtain ⟨hlate, hreply, hok, hopen⟩ := h
  simp [pollLoop, not_lt.2 hlate, hreply, hok, hopen]

theorem pollLoop_waits {deadline : Time} {before : List Poll}
    (h : ∀ p ∈ before, Waits deadline p) (ps : List Poll) :
    pollLoop deadline (before ++ ps) =
      ((pollLoop deadline ps).1, (pollLoop deadline ps).2 + before.length) := by
  induction before with
  | nil => rfl
  | cons p before ih =>
    obtain ⟨r, hreads, hempty⟩ := h p List.mem_cons_self
    have hrest := ih fun p hp => h p (List.mem_cons_of_mem _ hp)
    rw [List.cons_append, pollLoop_read hreads, if_neg (not_not.2 hempty), hrest,
      List.length_cons, Nat.add_assoc]

/-- **When the polling loop ends with a token.** -/
theorem pollLoop_token_iff {deadline : Time} {polls : List Poll} {t : String} {made : Nat} :
    pollLoop deadline polls = (.token t, made) ↔
      ∃ before r, Issues deadline polls before r ∧ tokenOf r.data = t ∧
        made = before.length + 1 := by
  constructor
  · intro h
    induction polls generalizing made with
    | nil => simp [pollLoop] at h
    | cons p polls ih =>
      by_cases hreads : ∃ r, Reads deadline p r
      · obtain ⟨r, hreads⟩ := hreads
        rw [pollLoop_read hreads] at h
        by_cases hempty : tokenOf r.data = ""
        · rw [if_neg (not_not.2 hempty)] at h
          obtain ⟨h1, rfl⟩ := Prod.mk.inj h
          obtain ⟨before, r', ⟨⟨p', after, hsplit, hreads'⟩, hwaits, htoken⟩, ht, hmade⟩ :=
            ih (Prod.ext h1 rfl)
          refine ⟨p :: before, r',
            ⟨⟨p', after, by rw [hsplit, List.cons_append], hreads'⟩, ?_, htoken⟩, ht, ?_⟩
          · intro q hq
            rcases List.mem_cons.1 hq with rfl | hq
            · exact ⟨r, hreads, hempty⟩
            · exact hwaits q hq
          · exact congrArg (· + 1) hmade
        · rw [if_pos hempty] at h
          obtain ⟨h1, rfl⟩ := Prod.mk.inj h
          exact ⟨[], r, ⟨⟨p, polls, rfl, hreads⟩, by simp, hempty⟩, Enrolled.token.inj h1, rfl⟩
      · exfalso
        simp only [pollLoop] at h
        split at h
        · exact absurd (congrArg Prod.fst h) (by simp)
        · rename_i hlate
          split at h
          · exact absurd (congrArg Prod.fst h) (by simp)
          · rename_i r hreply
            split at h
            · exact absurd (congrArg Prod.fst h) (by simp)
            · rename_i hok
              split at h
              · exact absurd (congrArg Prod.fst h) (by simp)
              · rename_i hopen
                exact hreads ⟨r, not_lt.1 hlate, hreply, by simpa using hok, by simpa using hopen⟩
  · rintro ⟨before, r, ⟨⟨p, after, rfl, hreads⟩, hwaits, htoken⟩, rfl, rfl⟩
    rw [pollLoop_waits hwaits, pollLoop_read hreads, if_pos htoken, Nat.add_comm]

/-! ## The blocking run -/

/-- A token that `if token_file: write_token(token_file, token)` can store. -/
def storable (tokenFile token : String) : Bool := decide (tokenFile = "") || ascii token

theorem returned_storeToken (files : Files) (tokenFile token : String) :
    (storeToken files tokenFile token).returned = storable tokenFile token := by
  unfold storeToken storable
  by_cases hfile : tokenFile = ""
  · simp [hfile]
  · rw [if_neg hfile, writeToken]
    cases hascii : ascii token <;> simp [hfile]

/-- The replies a blocking run is given: to its `POST`, and to its polls in order. -/
def script (posted : Outcome) (polls : List Poll) : List Outcome :=
  posted :: polls.map Poll.outcome

theorem enroll_response {r : Response} (hok : r.status.failed = false) (code tokenFile : String)
    (timeout start : Time) (polls : List Poll) (files : Files) :
    enroll code tokenFile timeout start (.response r) polls files =
      enrollAnswered code tokenFile (start + timeout) r polls files := by
  simp [enroll, hok]

/-- The end of a blocking run that is issued a token. -/
def issuedRun (code tokenFile : String) (files : Files) (id t : String) (made : Nat) : EnrollRun :=
  { result :=
      if (storeToken files tokenFile t).returned then .token t else .raised .encoding
    requests := enrollPost code :: List.replicate made (.poll id)
    files := (storeToken files tokenFile t).files }

/-- A token in the reply to the `POST` ends the run at once. -/
theorem enroll_immediate {code tokenFile : String} {timeout start : Time} {r : Response}
    (hok : r.status.failed = false) (htoken : tokenOf r.data ≠ "") (polls : List Poll)
    (files : Files) :
    enroll code tokenFile timeout start (.response r) polls files =
      issuedRun code tokenFile files (enrollIdOf r.data) (tokenOf r.data) 0 := by
  rw [enroll_response hok, enrollAnswered, if_neg fun h => htoken h.1]
  simp only [htoken, ne_eq, not_false_eq_true, if_true]
  rfl

/-- Without one, the run ends with the token the polling loop ends with. -/
theorem enroll_polled {code tokenFile : String} {timeout start : Time} {r : Response}
    (hok : r.status.failed = false) (hempty : tokenOf r.data = "") (hid : enrollIdOf r.data ≠ "")
    {polls before : List Poll} {r' : Response}
    (hissues : Issues (start + timeout) polls before r') (files : Files) :
    enroll code tokenFile timeout start (.response r) polls files =
      issuedRun code tokenFile files (enrollIdOf r.data) (tokenOf r'.data) (before.length + 1) := by
  have hloop := pollLoop_token_iff.2 ⟨before, r', hissues, rfl, rfl⟩
  rw [enroll_response hok, enrollAnswered, if_neg fun h => hid h.2]
  simp only [hempty, ne_eq, not_true_eq_false, if_false, hloop]
  rfl

/-- **A blocking run that returns a token**: either the `POST` was answered with it,
or one of the polls was. -/
theorem enroll_token {code tokenFile : String} {timeout start : Time} {posted : Outcome}
    {polls : List Poll} {files : Files} {t : String}
    (h : (enroll code tokenFile timeout start posted polls files).result = .token t) :
    storable tokenFile t = true ∧ ∃ r, posted = .response r ∧ r.status.failed = false ∧
      (tokenOf r.data = t ∧ t ≠ "" ∨
        tokenOf r.data = "" ∧ enrollIdOf r.data ≠ "" ∧
          ∃ before r', Issues (start + timeout) polls before r' ∧ tokenOf r'.data = t) := by
  have hstored : ∀ {id t' made}, (issuedRun code tokenFile files id t' made).result = .token t →
      storable tokenFile t = true ∧ t' = t := by
    intro id t' made h
    simp only [issuedRun] at h
    split at h
    · rename_i hreturned
      obtain rfl := Enrolled.token.inj h
      exact ⟨(returned_storeToken files tokenFile t').symm.trans hreturned, rfl⟩
    · exact absurd h (by simp)
  cases posted with
  | exception => exact absurd h (by simp [enroll])
  | response r =>
    cases hok : r.status.failed with
    | true => exact absurd h (by simp [enroll, hok])
    | false =>
      by_cases htoken : tokenOf r.data = ""
      · by_cases hid : enrollIdOf r.data = ""
        · rw [enroll_response hok, enrollAnswered, if_pos ⟨htoken, hid⟩] at h
          exact absurd h (by simp)
        · have hended : ∃ t' made, pollLoop (start + timeout) polls = (.token t', made) := by
            rw [enroll_response hok, enrollAnswered, if_neg fun h => hid h.2] at h
            simp only [htoken, ne_eq, not_true_eq_false, if_false] at h
            generalize pollLoop (start + timeout) polls = ended at h
            obtain ⟨result, made⟩ := ended
            cases result with
            | token t' => exact ⟨t', made, rfl⟩
            | raised e => exact absurd h (by simp)
            | waiting => exact absurd h (by simp)
          obtain ⟨t', made, hloop⟩ := hended
          obtain ⟨before, r', hissues, -, -⟩ := pollLoop_token_iff.1 hloop
          rw [enroll_polled hok htoken hid hissues] at h
          obtain ⟨hstorable, ht⟩ := hstored h
          exact ⟨hstorable, r, rfl, hok, .inr ⟨htoken, hid, before, r', hissues, ht⟩⟩
      · rw [enroll_immediate hok htoken] at h
        obtain ⟨hstorable, ht⟩ := hstored h
        exact ⟨hstorable, r, rfl, hok, .inl ⟨ht, ht ▸ htoken⟩⟩

/-! ## The flow -/

/-- One request of the flow, its reply, and what the call returned. -/
structure Exchange where
  request : EnrollRequest
  reply : Outcome
  token : Option String

/-- Whole runs of the flow: at each call the clock and what a request would come to. -/
def reclaimMachine : Machine (ReclaimFlow × Files) (Time × Outcome) Exchange :=
  ⟨fun s call =>
    let step := s.1.step s.2 call.1 call.2
    ((step.flow, step.files),
      step.request.toList.map fun request => ⟨request, call.2, step.token⟩)⟩

/-! ## A small conversation -/

/-- A 200 with a JSON object. -/
def jsonReply (items : List (Key × Value)) : Response :=
  { status := .ok, text := "", json := some (.dict items) }

/-- A poll that is answered at once. -/
def samplePoll (items : List (Key × Value)) : Poll := ⟨0, .response (jsonReply items)⟩

end OoAgent
