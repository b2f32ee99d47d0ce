import Mathlib

/-!
# Files with permission bits

What `os.open` and the ASCII codec do to one file: its bytes, its permission bits, and what
the process is to it.

* `File`, `Process` — a file, and who opens it.
* `Process.openTruncate` — `os.open(path, O_WRONLY | O_CREAT | O_TRUNC, mode)`: the mode
  counts for a new file only.
* `textOf_bytesOf` — ASCII text comes back as it was encoded.
-/

namespace PyOs

/-- The permission bits `rwxrwxrwx`. -/
abbrev Mode : Type := BitVec 9

/-- What a process is to a file. -/
inductive Who where
  | owner
  | group
  | other
  deriving DecidableEq

/-- The bit that lets it read. -/
def Who.readBit : Who → Nat
  | .owner => 8
  | .group => 5
  | .other => 2

/-- The bit that lets it write. -/
def Who.writeBit : Who → Nat
  | .owner => 7
  | .group => 4
  | .other => 1

/-- A regular file. -/
@[ext] structure File where
  content : List UInt8
  mode : Mode
  who : Who
  deriving DecidableEq

/-- A process. -/
structure Process where
  /-- Permission bits are not checked for it. -/
  root : Bool
  umask : Mode

namespace Process

def mayRead (p : Process) (f : File) : Bool := p.root || f.mode.getLsbD f.who.readBit

def mayWrite (p : Process) (f : File) : Bool := p.root || f.mode.getLsbD f.who.writeBit

/-- `os.open(path, os.O_WRONLY | os.O_CREAT | os.O_TRUNC, mode)`; `none` when the file may not
be written to. -/
def openTruncate (p : Process) (mode : Mode) : Option File → Option File
  | none => some { content := [], mode := mode &&& ~~~p.umask, who := .owner }
  | some f => if p.mayWrite f then some { f with content := [] } else none

variable {p : Process}

theorem mayRead_content (f : File) (content : List UInt8) :
    p.mayRead { f with content := content } = p.mayRead f := rfl

theorem openTruncate_content {mode : Mode} {file : Option File} {f : File}
    (h : p.openTruncate mode file = some f) : f.content = [] := by
  cases file with
  | none => rw [← Option.some.inj h]
  | some old =>
    rw [openTruncate] at h
    split at h
    · rw [← Option.some.inj h]
    · exact absurd h (by simp)

/-- Who may write to a file only its owner can use is its owner, and may read it. -/
theorem mayRead_of_openTruncate {mode : Mode} {file : Option File} {f : File}
    (h : p.openTruncate mode file = some f) (hmode : f.mode = 0o600) : p.mayRead f = true := by
  cases file with
  | none =>
    obtain rfl := Option.some.inj h
    simp only at hmode
    simp [mayRead, hmode, Who.readBit]
  | some old =>
    rw [openTruncate] at h
    split at h
    · rename_i hwrite
      obtain rfl := Option.some.inj h
      simp only at hmode
      simp only [mayWrite, mayRead, hmode, Bool.or_eq_true] at hwrite ⊢
      rcases hwrite with hroot | hbit
      · exact .inl hroot
      · cases hwho : old.who with
        | owner => exact .inr (by simp [Who.readBit])
        | group => simp [hwho, Who.writeBit] at hbit
        | other => simp [hwho, Who.writeBit] at hbit
    · exact absurd h (by simp)

end Process

/-! ## The ASCII codec -/

/-- The bytes of an ASCII text. -/
def bytesOf (text : String) : List UInt8 := text.toList.map fun c => UInt8.ofNat c.toNat

/-- The text of some bytes, one character for each. -/
def textOf (bytes : List UInt8) : String :=
  String.ofList (bytes.map fun b => Char.ofNat b.toNat)

/-- The bytes are those of an ASCII text. -/
def isAscii (bytes : List UInt8) : Bool := bytes.all fun b => decide (b.toNat < 128)

theorem charOf_byteOf {c : Char} (h : c.toNat < 128) :
    Char.ofNat (UInt8.ofNat c.toNat).toNat = c := by
  have hbyte : (UInt8.ofNat c.toNat).toNat = c.toNat := by
    rw [UInt8.toNat_ofNat']
    exact Nat.mod_eq_of_lt (by omega)
  rw [hbyte, Char.ofNat_toNat]

/-- **ASCII text comes back as it was encoded**, also when only a part of it did. -/
theorem textOf_take_bytesOf {text : String} (h : ∀ c ∈ text.toList, c.toNat < 128) (k : Nat) :
    textOf ((bytesOf text).take k) = String.ofList (text.toList.take k) := by
  unfold textOf bytesOf
  rw [← List.map_take, List.map_map]
  congr 1
  calc ((text.toList.take k).map _)
      = (text.toList.take k).map id := List.map_congr_left fun c hc =>
        charOf_byteOf (h c (List.mem_of_mem_take hc))
    _ = text.toList.take k := List.map_id _

theorem textOf_bytesOf {text : String} (h : ∀ c ∈ text.toList, c.toNat < 128) :
    textOf (bytesOf text) = text := by
  have hall := textOf_take_bytesOf h text.toList.length
  rwa [List.take_of_length_le (by simp [bytesOf]), List.take_length, String.ofList_toList] at hall

theorem isAscii_take_bytesOf {text : String} (h : ∀ c ∈ text.toList, c.toNat < 128) (k : Nat) :
    isAscii ((bytesOf text).take k) = true := by
  unfold isAscii bytesOf
  rw [List.all_eq_true]
  intro b hb
  obtain ⟨c, hc, rfl⟩ := List.mem_map.1 (List.mem_of_mem_take hb)
  have hlt := h c hc
  rw [UInt8.toNat_ofNat', decide_eq_true_eq]
  omega

end PyOs
