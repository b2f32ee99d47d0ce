import OoAgent.Cli.Faults
import OoAgent.Transport.Issued
import OoAgent.Transport.TokenFile

/-!
# Handing over the token

The server hands a token out once.  `ReclaimFlow.step` reads it inside its `try` and stores
it behind it: when `write_token` raises, the value is never returned, `push_sink` never
adopts it, and the exception ends the daemon that held the only copy.

* `storeTokenUnder` — storing a token on a disk that can fail;
  `storeTokenUnder_refines` — this is what `write_token` does to the file.
* `handoverSink` — `push_sink` on such a disk, over whole runs.
* `handed_over_iff` — **a token that was handed over is adopted**, exactly when its reply is
  one the flow accepts and nothing on the disk fails.
* `gone_of_raised` — otherwise it is gone.
-/

namespace OoAgent

open PyOs

variable {α : Type}

/-! ## Storing a token -/

/-- `if token_file: write_token(token_file, token)`, with what goes wrong on the disk. -/
def storeTokenUnder (fault : Option WriteFault) (files : Files) (tokenFile token : String) :
    Written :=
  if tokenFile = "" then { files := files, returned := true }
  else
    match fault with
    | none => writeToken files tokenFile token
    | some .opening => { files := files, returned := false }
    | some (.writing taken) =>
      let text := if ascii token then String.ofList ((token ++ "\n").toList.take taken) else ""
      { files := Function.update files tokenFile (some text), returned := false }

/-- On a disk that does not fail a token is stored as before. -/
theorem storeTokenUnder_none (files : Files) (tokenFile token : String) :
    storeTokenUnder none files tokenFile token = storeToken files tokenFile token := rfl

/-- **What storing does to the file** is what `write_token` does. -/
theorem storeTokenUnder_refines {p : Process} {fault : Option WriteFault} {file : Option File}
    {files : Files} {path : String} (hpath : path ≠ "") (hfile : HeldAs file files path)
    (hopen : (p.openTruncate tokenMode file).isSome = true) (token : String) :
    (storeTokenUnder fault files path token).returned =
        (writeTokenFile p fault file token).returned ∧
      HeldAs (writeTokenFile p fault file token).file
        (storeTokenUnder fault files path token).files path := by
  obtain ⟨opened, hopen⟩ := Option.isSome_iff_exists.1 hopen
  unfold storeTokenUnder
  rw [if_neg hpath]
  cases fault with
  | none => exact writeTokenFile_refines hopen token
  | some fault =>
    cases fault with
    | opening => exact ⟨rfl, hfile⟩
    | writing taken =>
      have hopen' : openToken p (some (.writing taken)) file = some opened :=
        (openToken_of_ne (by simp)).trans hopen
      unfold HeldAs
      rw [writeTokenFile, hopen']
      cases hascii : ascii token with
      | false =>
        have hempty := Process.openTruncate_content hopen
        simp [textOf, hempty]
      | true =>
        have htext := textOf_take_bytesOf (toNat_lt_of_ascii (ascii_newline hascii)) taken
        simp [htext]

/-- A token is stored when there is no file to store it in, or nothing fails and it is
ASCII. -/
theorem returned_storeTokenUnder {fault : Option WriteFault} {files : Files}
    {tokenFile token : String} :
    (storeTokenUnder fault files tokenFile token).returned = true ↔
      tokenFile = "" ∨ (fault = none ∧ ascii token = true) := by
  unfold storeTokenUnder
  split
  · rename_i hempty
    simp [hempty]
  · rename_i hfile
    cases fault with
    | none => cases hascii : ascii token <;> simp [writeToken, hascii, hfile]
    | some fault => cases fault <;> simp [hfile]

/-! ## The sink -/

/-- A call of the sink, and what goes wrong on the disk should it store a token. -/
structure StoringCall (α : Type) where
  call : Call α
  fault : Option WriteFault

/-- `ReclaimFlow.step` on such a disk. -/
def ReclaimFlow.stepUnder (f : ReclaimFlow) (fault : Option WriteFault) (files : Files)
    (now : Time) (reply : Outcome) : Step :=
  let a := f.ask now reply
  match a.issued with
  | none => { flow := a.flow, request := a.request, files := files, token := none, raised := false }
  | some token =>
    let stored := storeTokenUnder fault files f.tokenFile token
    { flow := a.flow
      request := a.request
      files := stored.files
      token := if stored.returned then some token else none
      raised := !stored.returned }

theorem ReclaimFlow.stepUnder_none (f : ReclaimFlow) (files : Files) (now : Time)
    (reply : Outcome) : f.stepUnder none files now reply = f.step files now reply := rfl

/-- `push_sink` once the flow has returned. -/
def adopt (d : Daemon α) (s : ReclaimFlow.Step) (reply : Outcome) : Daemon α × List (Event α) :=
  match s.token with
  | none => ({ d with reclaim := some s.flow, files := s.files }, enrollEvents s reply)
  | some token =>
    ({ d with
        files := s.files
        client := { d.client with token := token }
        reclaim := none
        authFails := 0 },
      enrollEvents s reply ++ [.reenrolled token])

/-- The process after a call: an exception ends it. -/
def lifeAfter (raised : Bool) (d : Daemon α) : Life α :=
  if raised then .dead d.queue d.files else .alive d

@[simp] theorem lifeAfter_true (d : Daemon α) : lifeAfter true d = .dead d.queue d.files := rfl

@[simp] theorem lifeAfter_false (d : Daemon α) : lifeAfter false d = .alive d := rfl

/-- `push_sink`. -/
def pushSinkUnder [Payload α] (d : Daemon α) (c : StoringCall α) : Life α × List (Event α) :=
  match d.reclaim with
  | some flow =>
    let s := flow.stepUnder c.fault d.files c.call.now c.call.reply
    let adopted := adopt (d.atCall c.call) s c.call.reply
    (lifeAfter s.raised adopted.1, adopted.2)
  | none =>
    let pushed := pushCall (d.atCall c.call) c.call
    (.alive pushed.1, pushed.2)

/-- Whole runs of the sink. -/
def handoverSink [Payload α] : Machine (Life α) (StoringCall α) (Event α) where
  step
    | .dead file files, _ => (.dead file files, [])
    | .alive d, c => pushSinkUnder d c

/-- Where nothing goes wrong on the disk, a call that returns is one of `pushSink`. -/
theorem pushSinkUnder_none [Payload α] {d d' : Daemon α} {call : Call α} {log : List (Event α)}
    (h : pushSinkUnder d { call := call, fault := none } = (.alive d', log)) :
    pushSink d call = (d', log) := by
  unfold pushSinkUnder at h
  unfold pushSink
  cases hmode : d.reclaim with
  | none =>
    simp only [hmode] at h ⊢
    obtain ⟨halive, hlog⟩ := Prod.mk.inj h
    exact Prod.ext (Life.alive.inj halive) hlog
  | some flow =>
    simp only [hmode, ReclaimFlow.stepUnder_none] at h ⊢
    obtain ⟨halive, hlog⟩ := Prod.mk.inj h
    cases hraised : (flow.step d.files call.now call.reply).raised with
    | true =>
      rw [hraised, lifeAfter_true] at halive
      exact absurd halive (by simp)
    | false =>
      rw [hraised, lifeAfter_false] at halive
      exact Prod.ext (Life.alive.inj halive) hlog

/-! ## The law -/

/-- The poll of a call was answered with a token. -/
structure PollCarries (s : Life α) (c : StoringCall α) (d : Daemon α) (flow : ReclaimFlow)
    (r : Response) (token : String) : Prop where
  alive : s = .alive d
  mode : d.reclaim = some flow
  polled : ∃ id, (flow.ask c.call.now c.call.reply).request = some (.poll id)
  reply : c.call.reply = .response r
  carries : Carries r token

/-- **The token is handed over**: a call whose poll is answered with a token ends normally,
with the token in the client and the flow finished. -/
def HandedOver [Payload α] (s : Life α) (c : StoringCall α) : Prop :=
  ∀ d flow r token, PollCarries s c d flow r token →
    ∃ d', (handoverSink.step s c).1 = .alive d' ∧ d'.client.token = token ∧ d'.reclaim = none

/-- A reply with a token comes with a status the flow accepts, and nothing goes wrong when
the token is stored. -/
def Adoptable (s : Life α) (c : StoringCall α) : Prop :=
  ∀ d flow r token, PollCarries s c d flow r token →
    r.status.failed = false ∧ refused (statusOf r.data) = false ∧
      (flow.tokenFile = "" ∨ (c.fault = none ∧ ascii token = true))

theorem Carries.tokenOf_eq {r : Response} {token : String} (h : Carries r token) :
    tokenOf r.data = token := by
  rw [tokenOf, Value.getD, h.1]
  rfl

/-- The flow polls when its interval is over and it has an id. -/
theorem due_of_polled {flow : ReclaimFlow} {now : Time} {reply : Outcome} {id : String}
    (h : (flow.ask now reply).request = some (.poll id)) :
    flow.nextTry ≤ now ∧ flow.enrollId ≠ "" := by
  unfold ReclaimFlow.ask at h
  split at h
  · exact absurd h (by simp)
  · rename_i hdue
    simp only at h
    split at h
    · exact absurd h (by simp)
    · rename_i hid
      exact ⟨not_lt.1 hdue, hid⟩

/-- A call of the flow without a new token. -/
theorem stepUnder_pending {flow : ReclaimFlow} {fault : Option WriteFault} {files : Files}
    {now : Time} {reply : Outcome} (h : (flow.ask now reply).issued = none) :
    (flow.stepUnder fault files now reply).token = none ∧
      (flow.stepUnder fault files now reply).raised = false := by
  simp only [ReclaimFlow.stepUnder, h, and_self]

/-- A call of the flow with a new token. -/
theorem stepUnder_issued {flow : ReclaimFlow} {fault : Option WriteFault} {files : Files}
    {now : Time} {reply : Outcome} {t : String} (h : (flow.ask now reply).issued = some t) :
    let stored := storeTokenUnder fault files flow.tokenFile t
    (flow.stepUnder fault files now reply).token = (if stored.returned then some t else none) ∧
      (flow.stepUnder fault files now reply).raised = !stored.returned ∧
      (flow.stepUnder fault files now reply).files = stored.files := by
  simp only [ReclaimFlow.stepUnder, h, and_self]

section

variable {s : Life α} {c : StoringCall α} {d : Daemon α} {flow : ReclaimFlow} {r : Response}
  {token : String}

/-- A reply the flow accepts issues its token. -/
theorem issued_of_accepted (h : PollCarries s c d flow r token) (hok : r.status.failed = false)
    (hopen : refused (statusOf r.data) = false) :
    (flow.ask c.call.now (.response r)).issued = some token := by
  obtain ⟨id, hpolled⟩ := h.polled
  obtain ⟨hdue, hid⟩ := due_of_polled hpolled
  have htoken := h.carries.tokenOf_eq
  have hne : tokenOf r.data ≠ "" := by
    rw [htoken]
    exact h.carries.2
  rw [ask_issued hdue hid hok hopen hne, htoken]

variable [Payload α]

/-- The call whose poll was answered. -/
theorem step_of_pollCarries (h : PollCarries s c d flow r token) :
    handoverSink.step s c =
      let step := flow.stepUnder c.fault d.files c.call.now (.response r)
      let adopted := adopt (d.atCall c.call) step (.response r)
      (lifeAfter step.raised adopted.1, adopted.2) := by
  rw [h.alive]
  show pushSinkUnder d c = _
  simp only [pushSinkUnder, h.mode, h.reply]

/-- **One call**: its token is handed over exactly when the flow accepts the reply and the
token is stored. -/
theorem handed_over_call_iff (h : PollCarries s c d flow r token) :
    (∃ d', (handoverSink.step s c).1 = .alive d' ∧ d'.client.token = token ∧
        d'.reclaim = none) ↔
      r.status.failed = false ∧ refused (statusOf r.data) = false ∧
        (flow.tokenFile = "" ∨ (c.fault = none ∧ ascii token = true)) := by
  rw [step_of_pollCarries h, ← @returned_storeTokenUnder _ d.files]
  constructor
  · rintro ⟨d', halive, -, hmode⟩
    cases hissued : (flow.ask c.call.now (.response r)).issued with
    | none =>
      -- without a new token the flow goes on
      obtain ⟨htoken, hraised⟩ := @stepUnder_pending flow c.fault d.files _ _ hissued
      simp only [hraised, adopt, htoken, lifeAfter_false] at halive
      rw [← Life.alive.inj halive] at hmode
      exact absurd hmode (by simp)
    | some t =>
      obtain ⟨r', hreply, hok, hopen, htoken, -⟩ := ReclaimFlow.issued_ask hissued
      obtain rfl := Outcome.response.inj hreply
      obtain rfl : t = token := htoken.symm.trans h.carries.tokenOf_eq
      obtain ⟨-, hraised, -⟩ := @stepUnder_issued flow c.fault d.files _ _ _ hissued
      refine ⟨hok, hopen, ?_⟩
      by_contra hnot
      rw [Bool.not_eq_true] at hnot
      simp only [hraised, hnot, Bool.not_false, lifeAfter_true] at halive
      exact absurd halive (by simp)
  · rintro ⟨hok, hopen, hstored⟩
    obtain ⟨htoken, hraised, -⟩ :=
      @stepUnder_issued flow c.fault d.files _ _ _ (issued_of_accepted h hok hopen)
    rw [if_pos hstored] at htoken
    rw [hstored, Bool.not_true] at hraised
    simp only [hraised, adopt, htoken, lifeAfter_false]
    exact ⟨_, rfl, rfl, rfl⟩

/-- **A token whose file cannot be opened is gone**: the daemon is dead, and the files are as
they were. -/
theorem gone_of_raised (h : PollCarries s c d flow r token) (hok : r.status.failed = false)
    (hopen : refused (statusOf r.data) = false) (hfile : flow.tokenFile ≠ "")
    (hfault : c.fault = some .opening) :
    (handoverSink.step s c).1 = .dead d.queue d.files := by
  obtain ⟨htoken, hraised, hfiles⟩ :=
    @stepUnder_issued flow c.fault d.files _ _ _ (issued_of_accepted h hok hopen)
  have hstored : storeTokenUnder c.fault d.files flow.tokenFile token =
      { files := d.files, returned := false } := by
    rw [hfault]
    unfold storeTokenUnder
    rw [if_neg hfile]
  rw [hstored] at htoken hraised hfiles
  rw [step_of_pollCarries h]
  simp only [hraised, Bool.not_false, lifeAfter_true, adopt, htoken, hfiles, Bool.false_eq_true,
    if_false]
  rfl

end

/-- **A token that was handed over is adopted**, in every call of a run, exactly when every
reply with a token is one the flow accepts and nothing goes wrong when it is stored. -/
theorem handed_over_iff [Payload α] (s : Life α) (calls : List (StoringCall α)) :
    handoverSink.Along HandedOver s calls ↔ handoverSink.Along Adoptable s calls := by
  have hcall (s : Life α) (c : StoringCall α) : HandedOver s c ↔ Adoptable s c :=
    forall₄_congr fun _ _ _ _ => forall_congr' handed_over_call_iff
  rw [Machine.along_iff, Machine.along_iff]
  simp only [hcall]

/-! ## A read-only file system -/

/-- An unenrolled daemon that waits for its token. -/
def sampleWaiting : Daemon Int :=
  { sampleDaemon with
    client := { sampleClient with token := "" }
    reclaim := some { ReclaimFlow.init defaultTokenFile reclaimInterval with enrollId := "e1" } }

/-- The reply that hands the token out. -/
def sampleApproval : Response :=
  jsonReply [(.str "status", .str "approved"), (.str "token", .str "t1")]

/-- The call that receives it. -/
def sampleApprovalCall (fault : Option WriteFault) : StoringCall Int :=
  { call := sampleCall 1 (.response sampleApproval), fault := fault }

/-- **A token is lost** on a read-only file system. -/
theorem read_only_loses_token :
    ¬ handoverSink.Along HandedOver (.alive sampleWaiting)
      [sampleApprovalCall (some .opening)] := by
  intro h
  have hpoll : PollCarries (.alive sampleWaiting) (sampleApprovalCall (some .opening))
      sampleWaiting { ReclaimFlow.init defaultTokenFile reclaimInterval with enrollId := "e1" }
      sampleApproval "t1" :=
    { alive := rfl, mode := rfl, polled := ⟨"e1", rfl⟩, reply := rfl, carries := ⟨rfl, by decide⟩ }
  obtain ⟨-, -, hempty | ⟨hfault, -⟩⟩ :=
    (handed_over_call_iff hpoll).1 (h.1 _ _ _ _ hpoll)
  · exact absurd hempty (by decide)
  · exact absurd hfault (by decide)

end OoAgent
