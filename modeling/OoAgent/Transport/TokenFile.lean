import OoAgent.Python.Os
import OoAgent.Transport.Client

/-!
# Writing the token file

`write_token` "stores the agent token with owner-only permissions".  `os.open` truncates the
file before anything is encoded or written, and asks for `0o600` only when it creates the
file: a failure later on has already lost the old token, and an existing file keeps the
permission bits it had.

* `writeTokenFile`, `readTokenFile` — the two functions on one file, with every point at
  which writing can fail.
* `token_write_iff` — **all or nothing**, exactly when nothing had to be kept or nothing
  could go wrong.
* `writeTokenFile_refines` — where nothing fails this is `writeToken`.
-/

namespace OoAgent

open PyOs

/-! ## The two functions -/

/-- Where `write_token` can fail on its way. -/
inductive WriteFault where
  /-- `os.makedirs` or `os.open` raises. -/
  | opening
  /-- The file takes that many bytes; then writing or closing it raises. -/
  | writing (taken : Nat)
  deriving DecidableEq

/-- What `write_token` came to. -/
structure TokenWrite where
  file : Option File
  returned : Bool

/-- The mode `write_token` asks for. -/
def tokenMode : Mode := 0o600

/-- `os.open` in `write_token`; `none` when it raises. -/
def openToken (p : Process) (fault : Option WriteFault) (file : Option File) : Option File :=
  if fault = some .opening then none else p.openTruncate tokenMode file

/-- `write_token`. -/
def writeTokenFile (p : Process) (fault : Option WriteFault) (file : Option File)
    (token : String) : TokenWrite :=
  match openToken p fault file with
  | none => { file := file, returned := false }
  | some opened =>
    if ascii token then
      match fault with
      | some (.writing taken) =>
        { file := some { opened with content := (bytesOf (token ++ "\n")).take taken }
          returned := false }
      | _ =>
        { file := some { opened with content := bytesOf (token ++ "\n") }, returned := true }
    else { file := some opened, returned := false }

/-- `read_token`; `none` when it raises `UnicodeDecodeError`. -/
def readTokenFile (p : Process) : Option File → Option String
  | none => some ""
  | some f =>
    if p.mayRead f then
      if isAscii f.content then some (readBack (textOf f.content)) else none
    else some ""

/-- **All or nothing**: the token is stored and the file is its owner's only, or the token
that was there still is. -/
def AllOrNothing (p : Process) (fault : Option WriteFault) (file : Option File)
    (token : String) : Prop :=
  let written := writeTokenFile p fault file token
  if written.returned = true then
    readTokenFile p written.file = some token ∧ ∃ f, written.file = some f ∧ f.mode = 0o600
  else readTokenFile p written.file = readTokenFile p file

/-! ## Reading back -/

theorem toNat_lt_of_ascii {text : String} (h : ascii text = true) :
    ∀ c ∈ text.toList, c.toNat < 128 := by
  intro c hc
  exact of_decide_eq_true (List.all_eq_true.1 h c hc)

theorem ascii_newline {token : String} (h : ascii token = true) : ascii (token ++ "\n") = true := by
  simp only [ascii, String.toList_append, List.all_append, Bool.and_eq_true] at h ⊢
  exact ⟨h, by decide⟩

/-- What is read of a file that a part of an ASCII text got into. -/
theorem readTokenFile_take {p : Process} {f : File} {text : String} (h : ascii text = true)
    (k : Nat) :
    readTokenFile p (some { f with content := (bytesOf text).take k }) =
      some (if p.mayRead f then readBack (String.ofList (text.toList.take k)) else "") := by
  rw [readTokenFile, Process.mayRead_content]
  split
  · rw [isAscii_take_bytesOf (toNat_lt_of_ascii h), if_pos rfl,
      textOf_take_bytesOf (toNat_lt_of_ascii h)]
  · rfl

/-- The same for the whole text. -/
theorem readTokenFile_bytesOf {p : Process} {f : File} {text : String} (h : ascii text = true) :
    readTokenFile p (some { f with content := bytesOf text }) =
      some (if p.mayRead f then readBack text else "") := by
  have hall := @readTokenFile_take p f text h text.toList.length
  rw [List.take_length, String.ofList_toList] at hall
  rw [← hall, List.take_of_length_le (by simp [bytesOf])]

/-- An opened file holds no token. -/
theorem readTokenFile_opened {p : Process} {fault : Option WriteFault} {file : Option File}
    {opened : File} (h : openToken p fault file = some opened) :
    readTokenFile p (some opened) = some "" := by
  unfold openToken at h
  split at h
  · exact absurd h (by simp)
  · have hempty := Process.openTruncate_content h
    rw [readTokenFile, hempty]
    split <;> rfl

/-- A stripped text without a carriage return is what is read back of it. -/
theorem readBack_eq_self_iff {token : String}
    (hstrip : PyText.strip token.toList = token.toList) :
    readBack token = token ↔ '\r' ∉ token.toList := by
  constructor
  · intro h hmem
    rw [← h, readBack, String.toList_ofList] at hmem
    exact PyText.not_mem_translateNewlines _ (PyText.strip_subset _ hmem)
  · intro h
    rw [readBack, PyText.translateNewlines_of_not_mem h, hstrip, String.ofList_toList]

/-! ## The exact condition -/

/-- The first part of what is written, as it is read back. -/
def partRead (p : Process) (opened : File) (token : String) (taken : Nat) : String :=
  if p.mayRead opened then readBack (String.ofList ((token ++ "\n").toList.take taken)) else ""

/-- Writing goes well or loses nothing. -/
inductive Settles (p : Process) (file : Option File) (token : String) :
    Option WriteFault → Prop
  /-- The file cannot be opened: it stays as it is. -/
  | unopened {fault : Option WriteFault} (closed : openToken p fault file = none) :
      Settles p file token fault
  /-- The token cannot be encoded, and there was none before. -/
  | nothingLost {fault : Option WriteFault} (unencodable : ascii token = false)
      (empty : readTokenFile p file = some "") : Settles p file token fault
  /-- Writing fails, and as much as got into the file reads like what was there before. -/
  | sameAgain {taken : Nat} {opened : File} (encodable : ascii token = true)
      (isOpen : p.openTruncate tokenMode file = some opened)
      (same : readTokenFile p file = some (partRead p opened token taken)) :
      Settles p file token (some (.writing taken))
  /-- Nothing fails, no carriage return is in the token, and the file was the owner's only
  or is new and the process masks no bit of its owner. -/
  | stored {opened : File} (encodable : ascii token = true) (plain : '\r' ∉ token.toList)
      (isOpen : p.openTruncate tokenMode file = some opened) (ownerOnly : opened.mode = 0o600) :
      Settles p file token none

section

variable {p : Process} {fault : Option WriteFault} {file : Option File} {token : String}
  {opened : File}

/-- A fault of another kind lets the file be opened. -/
theorem openToken_of_ne (h : fault ≠ some .opening) :
    openToken p fault file = p.openTruncate tokenMode file := if_neg h

theorem ne_opening_of_openToken (h : openToken p fault file = some opened) :
    fault ≠ some .opening := by
  rintro rfl
  exact absurd h (by simp [openToken])

theorem allOrNothing_unopened (h : openToken p fault file = none) :
    AllOrNothing p fault file token := by
  simp [AllOrNothing, writeTokenFile, h]

theorem allOrNothing_unencodable (h : openToken p fault file = some opened)
    (hascii : ascii token = false) :
    AllOrNothing p fault file token ↔ readTokenFile p file = some "" := by
  simp only [AllOrNothing, writeTokenFile, h, hascii, Bool.false_eq_true, if_false,
    readTokenFile_opened h]
  exact eq_comm

theorem allOrNothing_failed {taken : Nat} (h : p.openTruncate tokenMode file = some opened)
    (hascii : ascii token = true) :
    AllOrNothing p (some (.writing taken)) file token ↔
      readTokenFile p file = some (partRead p opened token taken) := by
  have hopen : openToken p (some (.writing taken)) file = some opened :=
    (openToken_of_ne (by simp)).trans h
  simp only [AllOrNothing, writeTokenFile, hopen, hascii, if_true, Bool.false_eq_true, if_false,
    readTokenFile_take (ascii_newline hascii)]
  exact eq_comm

theorem allOrNothing_returned (h : p.openTruncate tokenMode file = some opened)
    (hascii : ascii token = true) (hstrip : PyText.strip token.toList = token.toList) :
    AllOrNothing p none file token ↔ '\r' ∉ token.toList ∧ opened.mode = 0o600 := by
  have hopen : openToken p none file = some opened := (openToken_of_ne (by simp)).trans h
  have hread : AllOrNothing p none file token ↔
      (if p.mayRead opened then readBack token else "") = token ∧ opened.mode = 0o600 := by
    simp only [AllOrNothing, writeTokenFile, hopen, hascii, if_true,
      readTokenFile_bytesOf (ascii_newline hascii), readBack_newline, Option.some_inj,
      exists_eq_left']
  rw [hread]
  constructor
  · rintro ⟨hback, hmode⟩
    rw [if_pos (Process.mayRead_of_openTruncate h hmode)] at hback
    exact ⟨(readBack_eq_self_iff hstrip).1 hback, hmode⟩
  · rintro ⟨hplain, hmode⟩
    rw [if_pos (Process.mayRead_of_openTruncate h hmode)]
    exact ⟨(readBack_eq_self_iff hstrip).2 hplain, hmode⟩

end

/-- **All or nothing**, exactly when writing goes well or loses nothing. -/
theorem token_write_iff {token : String} (hstrip : PyText.strip token.toList = token.toList)
    (p : Process) (fault : Option WriteFault) (file : Option File) :
    AllOrNothing p fault file token ↔ Settles p file token fault := by
  constructor
  · intro h
    cases hopen : openToken p fault file with
    | none => exact .unopened hopen
    | some opened =>
      cases hascii : ascii token with
      | false => exact .nothingLost hascii ((allOrNothing_unencodable hopen hascii).1 h)
      | true =>
        have hne := ne_opening_of_openToken hopen
        rw [openToken_of_ne hne] at hopen
        cases fault with
        | none =>
          obtain ⟨hplain, hmode⟩ := (allOrNothing_returned hopen hascii hstrip).1 h
          exact .stored hascii hplain hopen hmode
        | some fault =>
          cases fault with
          | opening => exact absurd rfl hne
          | writing taken =>
            exact .sameAgain hascii hopen ((allOrNothing_failed hopen hascii).1 h)
  · intro h
    cases h with
    | unopened closed => exact allOrNothing_unopened closed
    | nothingLost unencodable empty =>
      cases hopen : openToken p fault file with
      | none => exact allOrNothing_unopened hopen
      | some opened => exact (allOrNothing_unencodable hopen unencodable).2 empty
    | sameAgain encodable isOpen same => exact (allOrNothing_failed isOpen encodable).2 same
    | stored encodable plain isOpen ownerOnly =>
      exact (allOrNothing_returned isOpen encodable hstrip).2 ⟨plain, ownerOnly⟩

/-- An ordinary user with the usual mask. -/
def sampleUser : Process := { root := false, umask := 0o022 }

/-- A token file of this user. -/
def sampleTokenFile (mode : Mode) : File :=
  { content := bytesOf "t0\n", mode := mode, who := .owner }

theorem token_write_new : AllOrNothing sampleUser none none "t1" :=
  (token_write_iff (by decide) _ _ _).2
    (.stored (by decide) (by decide) rfl (by decide))

/-- **The old token is gone** when the disk is full, **and a readable file stays readable**
for everyone. -/
theorem token_write_loses :
    ¬ AllOrNothing sampleUser (some (.writing 0)) (some (sampleTokenFile 0o600)) "t1" ∧
      ¬ AllOrNothing sampleUser none (some (sampleTokenFile 0o644)) "t1" := by
  constructor
  · rw [allOrNothing_failed rfl (by decide)]
    decide +kernel
  · rw [allOrNothing_returned rfl (by decide) (by decide)]
    decide +kernel

/-! ## The file as text -/

section

variable {p : Process} {file : Option File} {files : Files} {path : String}

/-- The file holds what the text files on disk have under its path. -/
def HeldAs (file : Option File) (files : Files) (path : String) : Prop :=
  files path = file.map fun f => textOf f.content

/-- **Where nothing fails**, writing a token is what it is on text files. -/
theorem writeTokenFile_refines {opened : File}
    (hopen : p.openTruncate tokenMode file = some opened) (token : String) :
    (writeToken files path token).returned = (writeTokenFile p none file token).returned ∧
      HeldAs (writeTokenFile p none file token).file (writeToken files path token).files path := by
  have hopen' : openToken p none file = some opened := (openToken_of_ne (by simp)).trans hopen
  unfold HeldAs
  rw [writeToken, writeTokenFile, hopen']
  cases hascii : ascii token with
  | false =>
    have hempty := Process.openTruncate_content hopen
    simp [textOf, hempty]
  | true =>
    have htext := textOf_bytesOf (toNat_lt_of_ascii (ascii_newline hascii))
    simp [htext]

theorem ascii_textOf (bytes : List UInt8) : ascii (textOf bytes) = isAscii bytes := by
  unfold ascii textOf isAscii
  rw [String.toList_ofList, List.all_map]
  congr 1
  funext b
  have hvalid : b.toNat.isValidChar := .inl (b.toNat_lt.trans (by decide))
  simp [Char.toNat_ofNat, hvalid]

/-- **Reading a token** is what it is on text files, when the process may read the file. -/
theorem readTokenFile_refines (hfile : HeldAs file files path)
    (hread : ∀ f, file = some f → p.mayRead f = true) :
    readToken files path = readTokenFile p file := by
  unfold HeldAs at hfile
  rw [readToken, hfile]
  cases file with
  | none => rfl
  | some f =>
    rw [Option.map_some, readTokenFile, if_pos (hread f rfl)]
    simp only [ascii_textOf]

end

end OoAgent
