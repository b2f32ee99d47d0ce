import OoAgent.Transport.Agreement

/-!
# Where a token comes from

Both enrolments take `str()` of whatever JSON value the reply has under `"token"`.
For a string that is the string; for `null` it is `"None"`, for a number its
digits.  A token is therefore one the server issued exactly when no reply that is
read for a token has anything but a string there.

* `Carries` — the reply carries a token; `Textual` — reading it makes up none.
* `enroll_only_issued_iff`, `reclaim_only_issued_iff` — for the blocking run and for
  whole runs of the flow.
* `only_issued_tokens_iff` — **both at once**.
-/

namespace OoAgent

/-! ## One reply -/

/-- The reply carries the non-empty JSON string `t` as its token. -/
def Carries (r : Response) (t : String) : Prop :=
  Value.lookup r.data "token" = some (.str t) ∧ t ≠ ""

/-- The token field is absent, a JSON string, or a value whose `str()` cannot even be
stored. -/
def Textual (tokenFile : String) (r : Response) : Prop :=
  ∀ v, Value.lookup r.data "token" = some v →
    (∃ s, v = .str s) ∨ storable tokenFile v.toStr = false

/-- A token read off a textual reply is one the reply carries. -/
theorem Textual.carries {tokenFile : String} {r : Response} (h : Textual tokenFile r)
    (htoken : tokenOf r.data ≠ "") (hstorable : storable tokenFile (tokenOf r.data) = true) :
    Carries r (tokenOf r.data) := by
  unfold tokenOf Value.getD at htoken hstorable ⊢
  cases hfield : Value.lookup r.data "token" with
  | none =>
    rw [hfield] at htoken
    exact absurd rfl htoken
  | some v =>
    rw [hfield] at htoken hstorable
    rcases h v hfield with ⟨s, rfl⟩ | hnot
    · exact ⟨hfield, htoken⟩
    · exact absurd (hstorable.symm.trans hnot) (by simp)

/-- A reply that is not textual makes up a token: one it does not carry. -/
theorem made_up {tokenFile : String} {r : Response} (h : ¬ Textual tokenFile r) :
    tokenOf r.data ≠ "" ∧ storable tokenFile (tokenOf r.data) = true ∧ ∀ t, ¬ Carries r t := by
  simp only [Textual, not_forall, not_or, not_exists] at h
  obtain ⟨v, hfield, hnot, hstorable⟩ := h
  have htoken : tokenOf r.data = v.toStr := by
    rw [tokenOf, Value.getD, hfield]
    rfl
  rw [htoken]
  refine ⟨fun hempty => hnot "" (Value.toStr_eq_empty_iff.1 hempty), by simpa using hstorable, ?_⟩
  rintro t ⟨hcarries, -⟩
  exact hnot t (Option.some.inj (hfield.symm.trans hcarries))

/-! ## The law -/

/-- What a call may return after the replies it was given: a token some reply carried,
and nothing at all while the last reply carried none. -/
structure OnlyIssued (replies : List Outcome) (token : Option String) : Prop where
  issued : ∀ t, token = some t → ∃ r, .response r ∈ replies ∧ Carries r t
  pending : ∀ r, replies.getLast? = some (.response r) → (∀ t, ¬ Carries r t) → token = none

theorem OnlyIssued.none (replies : List Outcome) : OnlyIssued replies none where
  issued := fun _ h => absurd h (by simp)
  pending := fun _ _ _ => rfl

/-- A token the last reply carried. -/
theorem OnlyIssued.of_last {replies : List Outcome} {r : Response} {t : String}
    (hlast : replies.getLast? = some (.response r)) (h : Carries r t) :
    OnlyIssued replies (some t) where
  issued := by
    intro t' ht'
    obtain rfl := Option.some.inj ht'
    exact ⟨r, List.mem_of_getLast? hlast, h⟩
  pending := by
    intro r' hr' hnone
    obtain rfl := Outcome.response.inj (Option.some.inj (hlast.symm.trans hr'))
    exact absurd h (hnone t)

/-! ## The blocking run -/

/-- The token a blocking run returned, if it did. -/
def EnrollRun.token (run : EnrollRun) : Option String :=
  match run.result with
  | .token t => some t
  | _ => none

/-- The replies a blocking run was given. -/
def EnrollRun.consumed (run : EnrollRun) (posted : Outcome) (polls : List Poll) : List Outcome :=
  (script posted polls).take run.requests.length

/-- Every reply the blocking run reads for a token is textual: the one to the `POST`,
and the one to a poll after polls that kept it waiting. -/
structure TextualScript (tokenFile : String) (deadline : Time) (posted : Outcome)
    (polls : List Poll) : Prop where
  post : ∀ r, posted = .response r → r.status.failed = false → Textual tokenFile r
  poll : ∀ r, posted = .response r → r.status.failed = false → tokenOf r.data = "" →
    enrollIdOf r.data ≠ "" → ∀ before p after r', polls = before ++ p :: after →
      (∀ p ∈ before, Waits deadline p) → Reads deadline p r' → Textual tokenFile r'

theorem getLast?_consumed_issued {code tokenFile : String} {files : Files} {id t : String}
    {deadline : Time} {polls before : List Poll} {r' : Response}
    (h : Issues deadline polls before r') (posted : Outcome) :
    ((issuedRun code tokenFile files id t (before.length + 1)).consumed posted polls).getLast? =
      some (.response r') := by
  obtain ⟨⟨p, after, rfl, hreads⟩, -, -⟩ := h
  have hlen : (issuedRun code tokenFile files id t (before.length + 1)).requests.length =
      (before.map Poll.outcome).length + 1 + 1 := by simp [issuedRun]
  rw [EnrollRun.consumed, hlen, script, List.take_succ_cons, List.map_append, List.map_cons,
    List.take_length_add_append, List.take_succ_cons, List.take_zero, hreads.reply,
    ← List.cons_append, List.getLast?_concat]

theorem token_issuedRun {code tokenFile : String} {files : Files} {id t : String} {made : Nat}
    (h : storable tokenFile t = true) :
    (issuedRun code tokenFile files id t made).token = some t := by
  simp [issuedRun, EnrollRun.token, returned_storeToken, h]

/-- **A blocking run returns only tokens that were issued**, exactly when every reply
it reads for a token is textual. -/
theorem enroll_only_issued_iff (code tokenFile : String) (timeout start : Time) (posted : Outcome)
    (polls : List Poll) (files : Files) :
    OnlyIssued ((enroll code tokenFile timeout start posted polls files).consumed posted polls)
        (enroll code tokenFile timeout start posted polls files).token ↔
      TextualScript tokenFile (start + timeout) posted polls := by
  constructor
  · intro hlaw
    constructor
    · rintro r rfl hok
      by_contra hmade
      obtain ⟨htoken, hstorable, hnone⟩ := made_up hmade
      rw [enroll_immediate hok htoken, token_issuedRun hstorable] at hlaw
      exact absurd (hlaw.pending r rfl hnone) (by simp)
    · rintro r rfl hok hempty hid before p after r' rfl hwaits hreads
      by_contra hmade
      obtain ⟨htoken, hstorable, hnone⟩ := made_up hmade
      have hissues : Issues (start + timeout) (before ++ p :: after) before r' :=
        ⟨⟨p, after, rfl, hreads⟩, hwaits, htoken⟩
      rw [enroll_polled hok hempty hid hissues, token_issuedRun hstorable] at hlaw
      exact absurd (hlaw.pending r' (getLast?_consumed_issued hissues _) hnone) (by simp)
  · intro htextual
    cases hresult : (enroll code tokenFile timeout start posted polls files).token with
    | none => exact .none _
    | some t =>
      have hended : (enroll code tokenFile timeout start posted polls files).result = .token t := by
        unfold EnrollRun.token at hresult
        split at hresult
        · rename_i t' hended
          rw [hended, Option.some.inj hresult]
        · exact absurd hresult (by simp)
      obtain ⟨hstorable, r, rfl, hok, h⟩ := enroll_token hended
      rcases h with ⟨rfl, hne⟩ | ⟨hempty, hid, before, r', hissues, rfl⟩
      · rw [enroll_immediate hok hne]
        exact .of_last rfl ((htextual.post r rfl hok).carries hne hstorable)
      · obtain ⟨p, after, hsplit, hreads⟩ := hissues.split
        have hreply := htextual.poll r rfl hok hempty hid before p after r' hsplit hissues.waits
          hreads
        rw [enroll_polled hok hempty hid hissues]
        exact .of_last (getLast?_consumed_issued hissues _)
          (hreply.carries hissues.token hstorable)

/-! ## The flow -/

/-- What a call of the flow that returns a token has read it from. -/
theorem token_step {f : ReclaimFlow} {files : Files} {now : Time} {reply : Outcome} {t : String}
    (h : (f.step files now reply).token = some t) :
    ∃ r, reply = .response r ∧ r.status.failed = false ∧ refused (statusOf r.data) = false ∧
      tokenOf r.data = t ∧ t ≠ "" ∧ f.nextTry ≤ now ∧ f.enrollId ≠ "" ∧
      storable f.tokenFile t = true := by
  simp only [ReclaimFlow.step] at h
  cases hissued : (f.ask now reply).issued with
  | none =>
    rw [hissued] at h
    exact absurd h (by simp)
  | some t' =>
    simp only [hissued, returned_storeToken] at h
    split at h
    · rename_i hstorable
      obtain rfl := Option.some.inj h
      obtain ⟨r, hreply, hok, hopen, htoken, hne, hdue, hid⟩ := ReclaimFlow.issued_ask hissued
      exact ⟨r, hreply, hok, hopen, htoken, hne, hdue, hid, hstorable⟩
    · exact absurd h (by simp)

/-- The reply a call reads for a token is textual. -/
def TextualPoll (s : ReclaimFlow × Files) (call : Time × Outcome) : Prop :=
  s.1.nextTry ≤ call.1 → s.1.enrollId ≠ "" → ∀ r, call.2 = .response r →
    r.status.failed = false → refused (statusOf r.data) = false → Textual s.1.tokenFile r

/-- Every call of the run returns only what was issued in the run so far. -/
def ReclaimOnlyIssued (s : ReclaimFlow × Files) (calls : List (Time × Outcome)) : Prop :=
  ∀ before call after, calls = before ++ call :: after →
    OnlyIssued ((reclaimMachine.run s (before ++ [call])).2.map Exchange.reply)
      ((reclaimMachine.run s before).1.1.step (reclaimMachine.run s before).1.2 call.1 call.2).token

/-- The last reply of a run whose last call was due. -/
theorem getLast?_replies {s : ReclaimFlow × Files} {before : List (Time × Outcome)}
    {call : Time × Outcome} (hdue : (reclaimMachine.run s before).1.1.nextTry ≤ call.1) :
    ((reclaimMachine.run s (before ++ [call])).2.map Exchange.reply).getLast? = some call.2 := by
  have hlast : (reclaimMachine.step (reclaimMachine.run s before).1 call).2.map Exchange.reply =
      [call.2] := by
    show ((ReclaimFlow.step _ _ _ _).request.toList.map _).map _ = _
    rw [request_step hdue]
    rfl
  rw [Machine.run_concat, List.map_append, hlast, List.getLast?_concat]

/-- **The flow returns only tokens that were issued**, over whole runs, exactly when
every reply it reads for a token is textual. -/
theorem reclaim_only_issued_iff (s : ReclaimFlow × Files) (calls : List (Time × Outcome)) :
    ReclaimOnlyIssued s calls ↔ reclaimMachine.Along TextualPoll s calls := by
  rw [Machine.along_iff]
  constructor
  · intro hlaw before call after hsplit hdue hid r hreply hok hopen
    by_contra hmade
    obtain ⟨htoken, hstorable, hnone⟩ := made_up hmade
    have hcall := hlaw before call after hsplit
    have hlast := getLast?_replies hdue
    rw [hreply] at hlast hcall
    rw [step_poll hid hdue hok hopen, if_neg htoken] at hcall
    simp only [returned_storeToken, hstorable, if_true] at hcall
    exact absurd (hcall.pending r hlast hnone) (by simp)
  · intro htextual before call after hsplit
    cases htoken : ((reclaimMachine.run s before).1.1.step (reclaimMachine.run s before).1.2
        call.1 call.2).token with
    | none => exact .none _
    | some t =>
      obtain ⟨r, hreply, hok, hopen, rfl, hne, hdue, hid, hstorable⟩ := token_step htoken
      have hlast := getLast?_replies hdue
      rw [hreply] at hlast
      exact .of_last hlast
        ((htextual before call after hsplit hdue hid r hreply hok hopen).carries hne hstorable)

/-- **Only issued tokens**, for both enrolments and every conversation: exactly when no
reply that is read for a token has anything but a string there. -/
theorem only_issued_tokens_iff (code tokenFile : String) (timeout start : Time) (posted : Outcome)
    (polls : List Poll) (files : Files) (s : ReclaimFlow × Files) (calls : List (Time × Outcome)) :
    (OnlyIssued ((enroll code tokenFile timeout start posted polls files).consumed posted polls)
        (enroll code tokenFile timeout start posted polls files).token ↔
      TextualScript tokenFile (start + timeout) posted polls) ∧
      (ReclaimOnlyIssued s calls ↔ reclaimMachine.Along TextualPoll s calls) :=
  ⟨enroll_only_issued_iff code tokenFile timeout start posted polls files,
    reclaim_only_issued_iff s calls⟩

/-- **A made-up token**: a pending reply with a `null` token ends the run with
`"None"`. -/
theorem null_token_made_up :
    ¬ OnlyIssued
      ((enroll "" defaultTokenFile (seconds 1200) 0
        (.response (jsonReply [(.str "enroll_id", .str "e1")]))
        [samplePoll [(.str "status", .str "pending"), (.str "token", .none)]]
        (fun _ => none)).consumed (.response (jsonReply [(.str "enroll_id", .str "e1")]))
        [samplePoll [(.str "status", .str "pending"), (.str "token", .none)]])
      (enroll "" defaultTokenFile (seconds 1200) 0
        (.response (jsonReply [(.str "enroll_id", .str "e1")]))
        [samplePoll [(.str "status", .str "pending"), (.str "token", .none)]]
        (fun _ => none)).token := by
  intro h
  have hnone : (some "None" : Option String) = none := h.pending
    (jsonReply [(.str "status", .str "pending"), (.str "token", .none)]) rfl
    (by rintro t ⟨hfield, -⟩; exact absurd (Option.some.inj hfield) (by simp))
  exact absurd hnone (by simp)

end OoAgent
