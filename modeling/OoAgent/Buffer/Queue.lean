import Mathlib

/-!
# The on-disk queue

`oo_agent/buffer/queue.py`: a table `queue (id INTEGER PRIMARY KEY
AUTOINCREMENT, ts INTEGER NOT NULL, payload TEXT NOT NULL)`.  A `DiskQueue`
holds the table's rows in the order of their ids together with the last id
handed out; that the ids increase and none lies above the last one is part of
the type, so every operation hands back a well-formed table.

A payload is whatever `json.dumps` and `json.loads` carry back and forth; the
queue only ever asks it for its `ts`.

* `rows_deleteIds_take` — deleting the rows peeked first is dropping them from the
  front.
* `rows_trim`, `countP_trim` — what `_trim` keeps, and that it loses nothing else.
* `countP_push` — a push neither loses nor doubles a row.
-/

namespace OoAgent

/-- A value of the `ts INTEGER NOT NULL` column. -/
inductive Ts where
  | number (q : ℚ)
  | text (s : String)
  deriving DecidableEq

/-- SQLite's `ts < cutoff`: numbers by value, text after every number. -/
def Ts.before : Ts → Int → Bool
  | .number q, cutoff => decide (q < cutoff)
  | .text _, _ => false

/-- The payloads a queue can store. -/
class Payload (α : Type) where
  /-- `payload["ts"]`, when there is one. -/
  ts? : α → Option Ts

/-- The smallest payload: nothing but a time stamp. -/
instance : Payload Int := ⟨fun ts => some (.number ts)⟩

/-- `int(x)` of a float: truncation towards zero. -/
def truncate (q : ℚ) : Int := if 0 ≤ q then q.floor else q.ceil

/-- A row of the table. -/
structure Row (α : Type) where
  id : Nat
  ts : Ts
  payload : α

/-- The queue table, the last id it gave out, and its two bounds. -/
@[ext] structure DiskQueue (α : Type) where
  /-- `SELECT * FROM queue ORDER BY id`. -/
  rows : List (Row α)
  /-- The AUTOINCREMENT counter. -/
  seq : Nat
  /-- `max_rows`. -/
  maxRows : Int
  /-- `max_age_hours * 3600`, in seconds. -/
  maxAge : ℚ
  /-- Ids increase along the queue. -/
  sorted : rows.Pairwise (fun r s => r.id < s.id)
  /-- No row has an id that was not given out. -/
  bounded : ∀ r ∈ rows, r.id ≤ seq

namespace DiskQueue

variable {α : Type}

/-! ## SQL -/

/-- `INSERT INTO queue (ts, payload) VALUES (?, ?)`. -/
def insert (q : DiskQueue α) (ts : Ts) (payload : α) : DiskQueue α where
  rows := q.rows ++ [⟨q.seq + 1, ts, payload⟩]
  seq := q.seq + 1
  maxRows := q.maxRows
  maxAge := q.maxAge
  sorted := by
    refine List.pairwise_append.2 ⟨q.sorted, List.pairwise_singleton _ _, ?_⟩
    intro r hr s hs
    obtain rfl := List.mem_singleton.1 hs
    exact Nat.lt_succ_of_le (q.bounded r hr)
  bounded := by
    intro r hr
    rcases List.mem_append.1 hr with hr | hr
    · exact Nat.le_succ_of_le (q.bounded r hr)
    · obtain rfl := List.mem_singleton.1 hr
      exact Nat.le_refl _

/-- `DELETE FROM queue WHERE ...`. -/
def delete (q : DiskQueue α) (p : Row α → Bool) : DiskQueue α where
  rows := q.rows.filter (fun r => !p r)
  seq := q.seq
  maxRows := q.maxRows
  maxAge := q.maxAge
  sorted := q.sorted.filter _
  bounded := fun r hr => q.bounded r (List.mem_of_mem_filter hr)

/-- `DELETE FROM queue WHERE id IN (...)`. -/
def deleteIds (q : DiskQueue α) (ids : List Nat) : DiskQueue α :=
  q.delete (fun r => decide (r.id ∈ ids))

/-! ## `DiskQueue` -/

/-- `len(queue)`. -/
def len (q : DiskQueue α) : Nat := q.rows.length

/-- `peek`: the oldest rows. -/
def peek (q : DiskQueue α) (limit : Nat) : List (Row α) := q.rows.take limit

/-- `ack`: delete rows that were delivered. -/
def ack (q : DiskQueue α) (rowIds : List Nat) : DiskQueue α :=
  if rowIds.isEmpty then q else q.deleteIds rowIds

/-- `ts < int(time.time() - max_age)`. -/
def isAged (q : DiskQueue α) (now : ℚ) (r : Row α) : Bool :=
  r.ts.before (truncate (now - q.maxAge))

/-- `len(queue) - max_rows`, when positive. -/
def excess (q : DiskQueue α) : Nat := (q.len - q.maxRows).toNat

/-- `_trim`: drop the aged rows, then the oldest ones over `max_rows`. -/
def trim (q : DiskQueue α) (now : ℚ) : DiskQueue α :=
  let q' := q.delete (q.isAged now)
  if 0 < q'.excess then q'.deleteIds ((q'.peek q'.excess).map Row.id) else q'

/-- The rows `_trim` drops. -/
def trimmed (q : DiskQueue α) (now : ℚ) : List (Row α) :=
  let q' := q.delete (q.isAged now)
  q.rows.filter (q.isAged now) ++ q'.peek q'.excess

/-- The row `push` inserts; `insertedAt` is the `time.time()` it falls back on. -/
def newRow [Payload α] (q : DiskQueue α) (payload : α) (insertedAt : ℚ) : Row α :=
  ⟨q.seq + 1, (Payload.ts? payload).getD (.number (truncate insertedAt)), payload⟩

/-- The table `push` trims. -/
def inserted [Payload α] (q : DiskQueue α) (payload : α) (insertedAt : ℚ) : DiskQueue α :=
  q.insert (q.newRow payload insertedAt).ts payload

/-- `push`: insert, trim, commit. -/
def push [Payload α] (q : DiskQueue α) (payload : α) (insertedAt trimmedAt : ℚ) : DiskQueue α :=
  (q.inserted payload insertedAt).trim trimmedAt

/-! ## What the operations do to the rows -/

@[simp] theorem rows_insert (q : DiskQueue α) (ts : Ts) (payload : α) :
    (q.insert ts payload).rows = q.rows ++ [⟨q.seq + 1, ts, payload⟩] := rfl

@[simp] theorem rows_delete (q : DiskQueue α) (p : Row α → Bool) :
    (q.delete p).rows = q.rows.filter (fun r => !p r) := rfl

@[simp] theorem deleteIds_nil (q : DiskQueue α) : q.deleteIds [] = q := by
  simp [deleteIds, delete]

/-- Acknowledging is deleting; acknowledging nothing touches nothing. -/
theorem ack_eq (q : DiskQueue α) (ids : List Nat) : q.ack ids = q.deleteIds ids := by
  cases ids with
  | nil => simp [ack]
  | cons i is => rfl

/-- The ids tell the rows apart. -/
theorem ids_nodup (q : DiskQueue α) : (q.rows.map Row.id).Nodup :=
  List.pairwise_map.2 (q.sorted.imp Nat.ne_of_lt)

/-- **Deleting the first rows by id drops them from the front.** -/
theorem rows_deleteIds_take (q : DiskQueue α) (n : Nat) :
    (q.deleteIds ((q.rows.take n).map Row.id)).rows = q.rows.drop n := by
  have hsplit : q.rows.take n ++ q.rows.drop n = q.rows := List.take_append_drop n q.rows
  have hsorted : (q.rows.take n ++ q.rows.drop n).Pairwise (fun r s => r.id < s.id) := by
    rw [hsplit]
    exact q.sorted
  have hlt := (List.pairwise_append.1 hsorted).2.2
  have hdrop : (q.rows.drop n).filter
      (fun r => !decide (r.id ∈ (q.rows.take n).map Row.id)) = q.rows.drop n := by
    refine List.filter_eq_self.2 fun r hr => ?_
    simp only [Bool.not_eq_true', decide_eq_false_iff_not, List.mem_map, not_exists, not_and]
    exact fun s hs heq => absurd (hlt s hs r hr) (by omega)
  have htake : (q.rows.take n).filter
      (fun r => !decide (r.id ∈ (q.rows.take n).map Row.id)) = [] := by
    refine List.filter_eq_nil_iff.2 fun r hr => ?_
    simp only [Bool.not_eq_true', decide_eq_false_iff_not, not_not]
    exact List.mem_map_of_mem hr
  calc (q.deleteIds ((q.rows.take n).map Row.id)).rows
      = (q.rows.take n ++ q.rows.drop n).filter
          (fun r => !decide (r.id ∈ (q.rows.take n).map Row.id)) := by
        rw [hsplit]
        rfl
    _ = q.rows.drop n := by rw [List.filter_append, htake, hdrop, List.nil_append]

/-- The queue without its first `n` rows. -/
def dropFront (q : DiskQueue α) (n : Nat) : DiskQueue α :=
  q.deleteIds ((q.rows.take n).map Row.id)

@[simp] theorem rows_dropFront (q : DiskQueue α) (n : Nat) :
    (q.dropFront n).rows = q.rows.drop n := q.rows_deleteIds_take n

@[simp] theorem dropFront_zero (q : DiskQueue α) : q.dropFront 0 = q := by
  simp [dropFront]

theorem dropFront_dropFront (q : DiskQueue α) (m n : Nat) :
    (q.dropFront m).dropFront n = q.dropFront (m + n) := by
  ext1
  · simp [List.drop_drop]
  · rfl
  · rfl
  · rfl

theorem len_dropFront (q : DiskQueue α) (n : Nat) : (q.dropFront n).len = q.len - n := by
  rw [len, rows_dropFront, List.length_drop, len]

theorem length_peek (q : DiskQueue α) (limit : Nat) : (q.peek limit).length = min limit q.len :=
  List.length_take

/-- Only an empty queue has nothing to show. -/
theorem rows_of_peek_isEmpty {q : DiskQueue α} {limit : Nat} (hlimit : 0 < limit)
    (h : (q.peek limit).isEmpty = true) : q.rows = [] := by
  rw [List.isEmpty_iff, peek, List.take_eq_nil_iff] at h
  exact h.resolve_left (Nat.ne_of_gt hlimit)

theorem take_peek {q : DiskQueue α} {limit n : Nat} (hn : n ≤ (q.peek limit).length) :
    (q.peek limit).take n = q.rows.take n := by
  rw [peek, List.length_take] at hn
  rw [peek, List.take_take, min_eq_left (hn.trans (Nat.min_le_left _ _))]

/-- Acknowledging the first of the rows shown drops them from the front of the queue. -/
theorem ack_take_peek {q : DiskQueue α} {limit n : Nat} (hn : n ≤ (q.peek limit).length) :
    q.ack (((q.peek limit).take n).map Row.id) = q.dropFront n := by
  rw [ack_eq, dropFront, take_peek hn]

/-- What is left behind the rows shown. -/
theorem rows_dropFront_peek (q : DiskQueue α) (limit : Nat) :
    (q.dropFront (q.peek limit).length).rows = q.rows.drop limit := by
  rw [rows_dropFront, length_peek]
  exact List.drop_eq_drop_min.symm

theorem len_dropFront_peek_lt {q : DiskQueue α} {limit : Nat}
    (h : ¬ (q.peek limit).isEmpty = true) :
    (q.dropFront (q.peek limit).length).len < q.len := by
  have hpos : 0 < (q.peek limit).length :=
    List.length_pos_of_ne_nil (mt List.isEmpty_iff.2 h)
  have hle := (q.length_peek limit).trans_le (min_le_right _ _)
  rw [len_dropFront]
  exact Nat.sub_lt (hpos.trans_le hle) hpos

/-- The rows `_trim` keeps: the young ones, less the oldest of them over `max_rows`. -/
theorem rows_trim (q : DiskQueue α) (now : ℚ) :
    (q.trim now).rows =
      (q.delete (q.isAged now)).rows.drop (q.delete (q.isAged now)).excess := by
  simp only [trim]
  split
  · exact rows_deleteIds_take _ _
  · rename_i hle
    rw [Nat.eq_zero_of_not_pos hle, List.drop_zero]

@[simp] theorem seq_trim (q : DiskQueue α) (now : ℚ) : (q.trim now).seq = q.seq := by
  simp only [trim]
  split <;> rfl

/-- `_trim` keeps the order of the rows it keeps. -/
theorem rows_trim_sublist (q : DiskQueue α) (now : ℚ) : (q.trim now).rows.Sublist q.rows := by
  rw [rows_trim]
  exact (List.drop_sublist _ _).trans List.filter_sublist

/-- A row `_trim` does not keep is one of those it drops. -/
theorem mem_trim_or_trimmed {q : DiskQueue α} {r : Row α} (h : r ∈ q.rows) (now : ℚ) :
    r ∈ (q.trim now).rows ∨ r ∈ q.trimmed now := by
  rw [rows_trim, trimmed]
  by_cases haged : q.isAged now r = true
  · exact .inr (List.mem_append_left _ (List.mem_filter.2 ⟨h, haged⟩))
  · have hyoung : r ∈ (q.delete (q.isAged now)).rows := List.mem_filter.2 ⟨h, by simpa using haged⟩
    rw [← List.take_append_drop (q.delete (q.isAged now)).excess
      (q.delete (q.isAged now)).rows] at hyoung
    rcases List.mem_append.1 hyoung with hcut | hkept
    · exact .inr (List.mem_append_right _ hcut)
    · exact .inl hkept

/-- **`_trim` splits the table**: a row is kept or dropped, never both and never
neither. -/
theorem countP_trim (q : DiskQueue α) (now : ℚ) (p : Row α → Bool) :
    (q.trim now).rows.countP p + (q.trimmed now).countP p = q.rows.countP p := by
  set q' := q.delete (q.isAged now) with hq'
  have hage : q.rows.countP p =
      (q.rows.filter (q.isAged now)).countP p + q'.rows.countP p := by
    simpa [hq'] using List.countP_eq_countP_filter_add q.rows p (q.isAged now)
  have hcut : (q'.peek q'.excess).countP p + (q'.rows.drop q'.excess).countP p =
      q'.rows.countP p := by
    rw [peek, ← List.countP_append, List.take_append_drop]
  rw [rows_trim, trimmed, ← hq', List.countP_append]
  omega

@[simp] theorem rows_inserted [Payload α] (q : DiskQueue α) (payload : α) (insertedAt : ℚ) :
    (q.inserted payload insertedAt).rows = q.rows ++ [q.newRow payload insertedAt] := rfl

/-- A push neither loses nor doubles a row: the old rows and the new one are in
the queue or among the trimmed ones, each once. -/
theorem countP_push [Payload α] (q : DiskQueue α) (payload : α) (insertedAt trimmedAt : ℚ)
    (p : Row α → Bool) :
    (q.push payload insertedAt trimmedAt).rows.countP p +
        ((q.inserted payload insertedAt).trimmed trimmedAt).countP p =
      q.rows.countP p + [q.newRow payload insertedAt].countP p := by
  rw [push, countP_trim, rows_inserted, List.countP_append]

end DiskQueue

/-- A queue with room for a hundred rows no more than a day old. -/
def sampleQueue : DiskQueue Int where
  rows := []
  seq := 0
  maxRows := 100
  maxAge := 86400
  sorted := List.Pairwise.nil
  bounded := by simp

end OoAgent
