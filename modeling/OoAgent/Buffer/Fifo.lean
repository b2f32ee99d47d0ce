import OoAgent.Buffer.Queue
import OoAgent.Lib.Machine
import OoAgent.Lib.Table

/-!
# The queue is a bounded FIFO list

The methods of `oo_agent/buffer/queue.py` statement by statement, on a table that keeps
its rows in no particular order, and what the class is for: a list that takes payloads
at its end, drops the aged ones wherever they stand and then the oldest ones over its
bound.

* `SqlQueue` — the source: every `ORDER BY` is one of its statements.
* `Fifo` — the purpose: a list and nothing else.
* `toDiskQueue_push`, `toDiskQueue_ack` — the table in the order of its ids is the
  `DiskQueue` the sink works with.
* `fifo_push`, `fifo_ack` — a `DiskQueue` is a `Fifo`.
* `queue_refines_fifo` — **the refinement** over all sequences of operations, with what
  follows for lengths and ids.
-/

namespace OoAgent

variable {α : Type}

/-! ## The source -/

/-- The database of a `DiskQueue` and its two bounds. -/
structure SqlQueue (α : Type) where
  /-- `queue (id, ts, payload)`. -/
  table : Table (Ts × α)
  /-- `max_rows`. -/
  maxRows : Int
  /-- `max_age_hours * 3600`, in seconds. -/
  maxAge : ℚ

namespace SqlQueue

/-- `_trim`. -/
def trim (q : SqlQueue α) (now : ℚ) : SqlQueue α :=
  let young := q.table.delete fun _ r => r.1.before (truncate (now - q.maxAge))
  let excess := (young.count - q.maxRows).toNat
  if 0 < excess then
    -- WHERE id IN (SELECT id FROM queue ORDER BY id LIMIT ?)
    let oldest := (young.select.take excess).map Prod.fst
    { q with table := young.delete fun id _ => decide (id ∈ oldest) }
  else { q with table := young }

/-- `push`; the two times are those of its two calls of `time.time()`. -/
def push [Payload α] (q : SqlQueue α) (payload : α) (insertedAt trimmedAt : ℚ) : SqlQueue α :=
  let ts := (Payload.ts? payload).getD (.number (truncate insertedAt))
  { q with table := q.table.insert (ts, payload) }.trim trimmedAt

/-- `peek`. -/
def peek (q : SqlQueue α) (limit : Nat) : List (Nat × α) :=
  (q.table.select.take limit).map fun (id, _, payload) => (id, payload)

/-- `ack`. -/
def ack (q : SqlQueue α) (rowIds : List Nat) : SqlQueue α :=
  if rowIds.isEmpty then q else { q with table := q.table.deleteMany rowIds }

/-- `len(queue)`. -/
def len (q : SqlQueue α) : Nat := q.table.count

end SqlQueue

/-! ## The purpose -/

/-- A bounded list of payloads with their numbers and time stamps. -/
structure Fifo (α : Type) where
  elements : List (Row α)
  /-- How many payloads were numbered so far. -/
  numbered : Nat
  maxRows : Nat
  maxAge : ℚ

namespace Fifo

/-- Remove elements from the front until at most `n` remain. -/
def dropUntil (n : Nat) : List (Row α) → List (Row α)
  | [] => []
  | r :: rs => if (r :: rs).length ≤ n then r :: rs else dropUntil n rs

/-- Append a payload, remove the aged elements, then those over the bound. -/
def push [Payload α] (f : Fifo α) (payload : α) (insertedAt trimmedAt : ℚ) : Fifo α :=
  let ts := (Payload.ts? payload).getD (.number (truncate insertedAt))
  let all := f.elements ++ [Row.mk (f.numbered + 1) ts payload]
  let young := all.filter fun r => !r.ts.before (truncate (trimmedAt - f.maxAge))
  { f with elements := dropUntil f.maxRows young, numbered := f.numbered + 1 }

/-- The first elements, in order, with their numbers. -/
def peek (f : Fifo α) (limit : Nat) : List (Nat × α) :=
  (f.elements.take (min limit f.elements.length)).map fun r => (r.id, r.payload)

/-- Remove the elements with the given numbers. -/
def ack (f : Fifo α) (ids : List Nat) : Fifo α :=
  { f with elements := f.elements.filter fun r => !decide (r.id ∈ ids) }

/-- How many elements there are. -/
def len (f : Fifo α) : Nat := f.elements.length

theorem dropUntil_eq (n : Nat) (l : List (Row α)) : dropUntil n l = l.drop (l.length - n) := by
  induction l with
  | nil => simp [dropUntil]
  | cons r rs ih =>
    rw [dropUntil]
    by_cases hle : (r :: rs).length ≤ n
    · rw [if_pos hle, Nat.sub_eq_zero_of_le hle, List.drop_zero]
    · have hlen : (r :: rs).length - n = rs.length - n + 1 := by
        rw [List.length_cons] at hle ⊢
        omega
      rw [if_neg hle, ih, hlen, List.drop_succ_cons]

theorem length_dropUntil_le (n : Nat) (l : List (Row α)) : (dropUntil n l).length ≤ n := by
  rw [dropUntil_eq, List.length_drop]
  omega

end Fifo

/-! ## From the table to the ordered queue -/

namespace SqlQueue

/-- A selected row. -/
def toRow : Nat × Ts × α → Row α
  | (id, ts, payload) => ⟨id, ts, payload⟩

/-- The table in the order of its ids. -/
def toDiskQueue (q : SqlQueue α) : DiskQueue α where
  rows := q.table.select.map toRow
  seq := q.table.seq
  maxRows := q.maxRows
  maxAge := q.maxAge
  sorted := List.pairwise_map.2 q.table.select_sorted
  bounded := by
    intro r hr
    obtain ⟨a, ha, rfl⟩ := List.mem_map.1 hr
    exact Table.select_le_seq ha

/-- A `DELETE` on the table deletes from the ordered queue. -/
theorem toDiskQueue_delete (q : SqlQueue α) (p : Row α → Bool) :
    { q with table := q.table.delete fun id r => p (toRow (id, r)) }.toDiskQueue =
      q.toDiskQueue.delete p := by
  ext1
  · show ((q.table.delete _).select).map toRow = (q.table.select.map toRow).filter _
    rw [Table.select_delete, List.filter_map]
    rfl
  · rfl
  · rfl
  · rfl

theorem toDiskQueue_insert (q : SqlQueue α) (ts : Ts) (payload : α) :
    { q with table := q.table.insert (ts, payload) }.toDiskQueue =
      q.toDiskQueue.insert ts payload := by
  ext1
  · show ((q.table.insert _).select).map toRow = q.table.select.map toRow ++ _
    rw [Table.select_insert, List.map_append]
    rfl
  · rfl
  · rfl
  · rfl

theorem len_toDiskQueue (q : SqlQueue α) : q.toDiskQueue.len = q.len := List.length_map _

/-- `_trim` on the table trims the ordered queue. -/
theorem toDiskQueue_trim (q : SqlQueue α) (now : ℚ) :
    (q.trim now).toDiskQueue = q.toDiskQueue.trim now := by
  let young : SqlQueue α :=
    { q with table := q.table.delete fun _ r => r.1.before (truncate (now - q.maxAge)) }
  have hyoung : young.toDiskQueue = q.toDiskQueue.delete (q.toDiskQueue.isAged now) :=
    toDiskQueue_delete q (q.toDiskQueue.isAged now)
  have hexcess : (q.toDiskQueue.delete (q.toDiskQueue.isAged now)).excess =
      (young.table.count - q.maxRows).toNat := by
    rw [← hyoung, DiskQueue.excess, len_toDiskQueue]
    rfl
  have holdest : ((q.toDiskQueue.delete (q.toDiskQueue.isAged now)).peek
      (young.table.count - q.maxRows).toNat).map Row.id =
        (young.table.select.take (young.table.count - q.maxRows).toNat).map Prod.fst := by
    rw [← hyoung, DiskQueue.peek]
    show ((young.table.select.map toRow).take _).map Row.id = _
    rw [← List.map_take, List.map_map]
    rfl
  simp only [trim, DiskQueue.trim, hexcess, holdest]
  split
  · rw [← hyoung]
    exact toDiskQueue_delete young fun r => decide
      (r.id ∈ (young.table.select.take (young.table.count - q.maxRows).toNat).map Prod.fst)
  · exact hyoung

theorem toDiskQueue_push [Payload α] (q : SqlQueue α) (payload : α) (insertedAt trimmedAt : ℚ) :
    (q.push payload insertedAt trimmedAt).toDiskQueue =
      q.toDiskQueue.push payload insertedAt trimmedAt := by
  rw [push, toDiskQueue_trim, toDiskQueue_insert]
  rfl

theorem toDiskQueue_ack (q : SqlQueue α) (ids : List Nat) :
    (q.ack ids).toDiskQueue = q.toDiskQueue.ack ids := by
  rw [ack, DiskQueue.ack]
  split
  · rfl
  · ext1
    · show (q.table.deleteMany ids).select.map toRow = (q.table.select.map toRow).filter _
      rw [Table.select_deleteMany, List.filter_map]
      rfl
    · exact Table.seq_deleteMany _ _
    · rfl
    · rfl

theorem peek_toDiskQueue (q : SqlQueue α) (limit : Nat) :
    q.peek limit = (q.toDiskQueue.peek limit).map fun r => (r.id, r.payload) := by
  show _ = ((q.table.select.map toRow).take limit).map _
  rw [peek, ← List.map_take, List.map_map]
  rfl

end SqlQueue

/-! ## From the ordered queue to the list -/

namespace DiskQueue

/-- An ordered queue as a list. -/
def toFifo (q : DiskQueue α) : Fifo α :=
  { elements := q.rows, numbered := q.seq, maxRows := q.maxRows.toNat, maxAge := q.maxAge }

theorem maxRows_trim (q : DiskQueue α) (now : ℚ) :
    (q.trim now).maxRows = q.maxRows ∧ (q.trim now).maxAge = q.maxAge := by
  simp only [trim]
  split <;> exact ⟨rfl, rfl⟩

/-- **A push is the push of the list.** -/
theorem fifo_push [Payload α] (q : DiskQueue α) (payload : α) (insertedAt trimmedAt : ℚ) :
    (q.push payload insertedAt trimmedAt).toFifo = q.toFifo.push payload insertedAt trimmedAt := by
  have hseq : (q.push payload insertedAt trimmedAt).seq = q.seq + 1 := seq_trim _ _
  obtain ⟨hmaxRows, hmaxAge⟩ : (q.push payload insertedAt trimmedAt).maxRows = q.maxRows ∧
      (q.push payload insertedAt trimmedAt).maxAge = q.maxAge := maxRows_trim _ _
  have hrows : (q.push payload insertedAt trimmedAt).rows =
      Fifo.dropUntil q.maxRows.toNat ((q.rows ++ [q.newRow payload insertedAt]).filter
        fun r => !r.ts.before (truncate (trimmedAt - q.maxAge))) := by
    have hexcess : ∀ (l : List (Row α)), l.drop ((l.length : Int) - q.maxRows).toNat =
        l.drop (l.length - q.maxRows.toNat) := by
      intro l
      rcases lt_or_ge q.maxRows 0 with hneg | hpos
      · -- a negative bound: nothing is kept either way
        rw [List.drop_eq_nil_of_le (by omega), List.drop_eq_nil_of_le (by omega)]
      · congr 1
        omega
    rw [push, rows_trim, Fifo.dropUntil_eq]
    exact hexcess _
  simp only [toFifo, Fifo.push, hrows, hseq, hmaxRows, hmaxAge]
  rfl

theorem fifo_ack (q : DiskQueue α) (ids : List Nat) : (q.ack ids).toFifo = q.toFifo.ack ids := by
  rw [ack_eq]
  rfl

theorem fifo_peek (q : DiskQueue α) (limit : Nat) :
    (q.peek limit).map (fun r => (r.id, r.payload)) = q.toFifo.peek limit := by
  show (q.rows.take limit).map _ = (q.rows.take (min limit q.rows.length)).map _
  rw [← List.take_eq_take_min]

end DiskQueue

/-! ## Runs -/

/-- An operation of the queue. -/
inductive QueueOp (α : Type) where
  | push (payload : α) (insertedAt trimmedAt : ℚ)
  | peek (limit : Nat)
  | ack (ids : List Nat)
  | len

/-- What an operation shows. -/
inductive Seen (α : Type) where
  | rows (rows : List (Nat × α))
  | count (n : Nat)

namespace SqlQueue

/-- The source, as a machine that logs what its operations show. -/
def machine [Payload α] : Machine (SqlQueue α) (QueueOp α) (Seen α) where
  step q
    | .push payload insertedAt trimmedAt => (q.push payload insertedAt trimmedAt, [])
    | .peek limit => (q, [.rows (q.peek limit)])
    | .ack ids => (q.ack ids, [])
    | .len => (q, [.count q.len])

/-- The table of the source as a list. -/
def toFifo (q : SqlQueue α) : Fifo α := q.toDiskQueue.toFifo

end SqlQueue

/-- The list, as a machine that logs what its operations show. -/
def Fifo.machine [Payload α] : Machine (Fifo α) (QueueOp α) (Seen α) where
  step f
    | .push payload insertedAt trimmedAt => (f.push payload insertedAt trimmedAt, [])
    | .peek limit => (f, [.rows (f.peek limit)])
    | .ack ids => (f.ack ids, [])
    | .len => (f, [.count f.len])

section Runs

variable [Payload α]

namespace SqlQueue

theorem toFifo_push (q : SqlQueue α) (payload : α) (insertedAt trimmedAt : ℚ) :
    (q.push payload insertedAt trimmedAt).toFifo = q.toFifo.push payload insertedAt trimmedAt := by
  rw [toFifo, toDiskQueue_push, DiskQueue.fifo_push]
  rfl

/-- **One operation**: the source and the list show the same and stay together. -/
theorem refines_step (q : SqlQueue α) (op : QueueOp α) :
    Fifo.machine.step q.toFifo op =
      ((SqlQueue.machine.step q op).1.toFifo, (SqlQueue.machine.step q op).2) := by
  cases op with
  | push payload insertedAt trimmedAt =>
    exact congrArg (fun f => (f, [])) (q.toFifo_push payload insertedAt trimmedAt).symm
  | peek limit =>
    have hpeek : q.toFifo.peek limit = q.peek limit := by
      rw [peek_toDiskQueue, DiskQueue.fifo_peek]
      rfl
    exact congrArg (fun rows => (q.toFifo, [Seen.rows rows])) hpeek
  | ack ids =>
    have hack : q.toFifo.ack ids = (q.ack ids).toFifo := by
      rw [toFifo, toFifo, toDiskQueue_ack, DiskQueue.fifo_ack]
    exact congrArg (fun f => (f, [])) hack
  | len => exact congrArg (fun n => (q.toFifo, [Seen.count n])) q.len_toDiskQueue

/-- No operation changes the bounds. -/
theorem bounds_step (q : SqlQueue α) (op : QueueOp α) :
    (machine.step q op).1.maxRows = q.maxRows := by
  cases op with
  | push payload insertedAt trimmedAt =>
    show (trim _ _).maxRows = _
    simp only [trim]
    split <;> rfl
  | peek limit => rfl
  | ack ids =>
    show (q.ack ids).maxRows = _
    unfold ack
    split <;> rfl
  | len => rfl

theorem bounds_run (q : SqlQueue α) (ops : List (QueueOp α)) :
    (SqlQueue.machine.run q ops).1.maxRows = q.maxRows :=
  SqlQueue.machine.run_invariant' (I := fun s _ => s.maxRows = q.maxRows)
    (fun s _ op h => (bounds_step s op).trans h) ops rfl

/-- After a push the length is within the bound. -/
theorem len_push_le (q : SqlQueue α) (payload : α) (insertedAt trimmedAt : ℚ) :
    (q.push payload insertedAt trimmedAt).len ≤ q.maxRows.toNat := by
  have hlen : (q.push payload insertedAt trimmedAt).len =
      (q.push payload insertedAt trimmedAt).toFifo.len := (len_toDiskQueue _).symm
  rw [hlen, toFifo_push]
  exact Fifo.length_dropUntil_le _ _

omit [Payload α] in
theorem later_trim (q : SqlQueue α) (now : ℚ) : q.table.Later (q.trim now).table := by
  simp only [trim]
  split
  · exact (Table.later_delete _ _).trans (Table.later_delete _ _)
  · exact Table.later_delete _ _

/-- One operation is a few statements on the table. -/
theorem later_step (q : SqlQueue α) (op : QueueOp α) :
    q.table.Later (machine.step q op).1.table := by
  cases op with
  | push payload insertedAt trimmedAt =>
    have hinsert := q.table.later_insert
      ((Payload.ts? payload).getD (.number (truncate insertedAt)), payload)
    exact hinsert.trans (later_trim { q with table := q.table.insert _ } trimmedAt)
  | peek limit => exact .refl _
  | ack ids =>
    show q.table.Later (q.ack ids).table
    unfold ack
    split
    · exact .refl _
    · exact Table.later_deleteMany _ _
  | len => exact .refl _

theorem later_run (q : SqlQueue α) (ops : List (QueueOp α)) :
    q.table.Later (SqlQueue.machine.run q ops).1.table :=
  SqlQueue.machine.run_invariant' (I := fun s _ => q.table.Later s.table)
    (fun s _ op h => h.trans (later_step s op)) ops (.refl _)

end SqlQueue

/-- **The disk queue refines a bounded FIFO list**: all its operations show what those of
the list show.  So after every push it is within its bound, ids increase along it,
and an id that was handed out keeps its row until that is deleted, for good. -/
theorem queue_refines_fifo (q : SqlQueue α) (ops : List (QueueOp α)) :
    (SqlQueue.machine.run q ops).2 = (Fifo.machine.run q.toFifo ops).2 ∧
      (SqlQueue.machine.run q ops).1.toFifo = (Fifo.machine.run q.toFifo ops).1 ∧
      (∀ before payload insertedAt trimmedAt,
        ops = before ++ [.push payload insertedAt trimmedAt] →
          (SqlQueue.machine.run q ops).1.len ≤ q.maxRows.toNat) ∧
      ((SqlQueue.machine.run q ops).1.table.select.map Prod.fst).Pairwise (· < ·) ∧
      ∀ before after, ops = before ++ after →
        ∀ id ≤ (SqlQueue.machine.run q before).1.table.seq,
          (SqlQueue.machine.run q ops).1.table.find id = none ∨
            (SqlQueue.machine.run q ops).1.table.find id =
              (SqlQueue.machine.run q before).1.table.find id := by
  have hrun := SqlQueue.machine.run_simulates SqlQueue.refines_step q ops
  refine ⟨(congrArg Prod.snd hrun).symm, (congrArg Prod.fst hrun).symm, ?_,
    List.pairwise_map.2 (Table.select_sorted _), ?_⟩
  · rintro before payload insertedAt trimmedAt rfl
    rw [Machine.run_concat, ← SqlQueue.bounds_run q before]
    exact SqlQueue.len_push_le _ _ _ _
  · rintro before after rfl id hid
    rw [Machine.run_append]
    exact (SqlQueue.later_run _ after).kept id hid

end Runs

end OoAgent
