import Mathlib.Data.List.Basic
import Mathlib.Order.Lattice
import VisionApi.Foundation.Calendar
import VisionApi.Foundation.Digits
import VisionApi.Foundation.Fallible
import VisionApi.Foundation.Run

/-!
# The partitions of the audit table

The table is partitioned by month.  A row that no month holds goes to the DEFAULT
partition; a month can be created only while none of its rows is there.

This is the part of Postgres that the migration and the maintenance script rely on:
routing a row, creating a partition with its checks, and dropping one.  A timestamp is
an element of a linear order, and `Zone` gives the instant at which each date begins, as
the session that runs the statements has it.  The bounds of a partition are dates.

The functions of the migration are written as their bodies run, a loop over offsets of
months and a loop over the partitions, and raise where a statement does.  A maintenance
run is one transaction: if it raises, the table is as it was before.

A history inserts rows and runs maintenance, on days that do not go back.  Dates are not
bounded here.  Postgres raises `timestamp out of range` after the year 294276, so that
the model is about histories that end before that year.
-/

namespace VisionApi.Partitions

open Foundation

/-! ## Texts -/

/-- `to_char(date, 'YYYY_MM')`; a year before year one is counted backwards. -/
def toChar (date : Date) : String :=
  let shown := if date.year ≤ 0 then 1 - date.year else date.year
  String.ofList (padded 4 shown.toNat ++ '_' :: padded 2 date.month)

/-- `right(text, count)`. -/
def right (text : String) (count : ℕ) : List Char :=
  text.toList.drop (text.toList.length - count)

/-- A number of as many digits as there are. -/
def readNumber (text : List Char) : Option (ℕ × List Char) :=
  let digits := text.takeWhile Char.isDigit
  if digits = [] then none
  else some (Nat.ofDigitChars 10 digits 0, text.dropWhile Char.isDigit)

/-- `to_date(text, 'YYYY_MM')`. -/
def toDate (text : List Char) : Option Date :=
  match readNumber text with
  | some (year, '_' :: rest) =>
      match readNumber rest with
      | some (month, _) =>
          if 1 ≤ month ∧ month ≤ 12 then some (Date.first (year * 12 + (month - 1))) else none
      | none => none
  | _ => none

/-- The name of the partition of a month. -/
def partName (monthStart : Date) : String :=
  "inference_logs_" ++ toChar monthStart

/-! ## The table -/

variable {Timestamp : Type} [LinearOrder Timestamp]

/-- The time zone of the sessions: the instant at which each date begins. -/
structure Zone (Timestamp : Type) [LinearOrder Timestamp] where
  midnight : Date → Timestamp
  increasing : ∀ {left right : Date}, left.Before right → midnight left < midnight right

/-- A partition `FOR VALUES FROM (lower) TO (upper)`. -/
structure Partition (Timestamp : Type) where
  name : String
  lower : Date
  upper : Date
  rows : List Timestamp

/-- `inference_logs`. -/
structure AuditTable (Timestamp : Type) where
  partitions : List (Partition Timestamp)
  defaultRows : List Timestamp

/-- What a statement raises. -/
inductive PgError where
  /-- A row of the DEFAULT partition lies in the new range. -/
  | checkViolation
  | overlap
  | invalidDatetime

variable (zone : Zone Timestamp)

/-- The range between two dates holds the instant. -/
def Zone.holds (lower upper : Date) (instant : Timestamp) : Bool :=
  decide (zone.midnight lower ≤ instant) && decide (instant < zone.midnight upper)

/-- The first partition whose range holds the row takes it. -/
def route (row : Timestamp) : List (Partition Timestamp) → Option (List (Partition Timestamp))
  | [] => none
  | part :: parts =>
      if zone.holds part.lower part.upper row then
        some ({ part with rows := part.rows ++ [row] } :: parts)
      else (route row parts).map (part :: ·)

/-- `INSERT`. -/
def AuditTable.insert (table : AuditTable Timestamp) (row : Timestamp) : AuditTable Timestamp :=
  match route zone row table.partitions with
  | some partitions => { table with partitions }
  | none => { table with defaultRows := table.defaultRows ++ [row] }

/-- `CREATE TABLE .. PARTITION OF inference_logs`. -/
def AuditTable.createPartition (table : AuditTable Timestamp) (name : String) (lower upper : Date) :
    Except PgError (AuditTable Timestamp) :=
  if table.partitions.any fun part =>
      decide (zone.midnight lower < zone.midnight part.upper) &&
        decide (zone.midnight part.lower < zone.midnight upper) then
    .error .overlap
  else if table.defaultRows.any (zone.holds lower upper) then
    .error .checkViolation
  else
    .ok { table with partitions := table.partitions ++ [⟨name, lower, upper, []⟩] }

/-! ## Maintenance -/

/-- One round of the loops that create partitions, with the name it created. -/
def AuditTable.createMonth (table : AuditTable Timestamp) (today : Date) (offset : ℤ) :
    Except PgError (AuditTable Timestamp × List String) := do
  let monthStart := (today.addMonths offset).truncMonth
  let monthEnd := monthStart.addMonths 1
  let name := partName monthStart
  if table.partitions.any fun part => part.name = name then .ok (table, [])
  else
    let next ← table.createPartition zone name monthStart monthEnd
    .ok (next, [name])

/-- The loop over the months to create. -/
def AuditTable.createMonths (today : Date) :
    AuditTable Timestamp → List ℤ → Except PgError (AuditTable Timestamp × List String)
  | table, [] => .ok (table, [])
  | table, offset :: offsets => do
      let (next, created) ← table.createMonth zone today offset
      let (last, others) ← createMonths today next offsets
      .ok (last, created ++ others)

/-- `create_inference_log_partitions`. -/
def AuditTable.createPartitions (table : AuditTable Timestamp) (today : Date) (monthsAhead : ℕ) :
    Except PgError (AuditTable Timestamp × List String) :=
  table.createMonths zone today ((List.range (monthsAhead + 1)).map Int.ofNat)

/-- The loop of `drop_expired_inference_logs`: what is kept, and the names that are dropped. -/
def dropBefore (cutoff : Date) :
    List (Partition Timestamp) → Except PgError (List (Partition Timestamp) × List String)
  | [] => .ok ([], [])
  | part :: parts =>
      match toDate (right part.name 7) with
      | none => .error .invalidDatetime
      | some partDate => do
          let (kept, dropped) ← dropBefore cutoff parts
          if partDate.Before cutoff then .ok (kept, part.name :: dropped)
          else .ok (part :: kept, dropped)

/-- `drop_expired_inference_logs`. -/
def AuditTable.dropExpired (table : AuditTable Timestamp) (today : Date) (retainMonths : ℕ) :
    Except PgError (AuditTable Timestamp × List String) := do
  let cutoff := (today.addMonths (-retainMonths)).truncMonth
  let (kept, dropped) ← dropBefore cutoff table.partitions
  .ok ({ table with partitions := kept }, dropped)

/-- The arguments of the script. -/
structure Args where
  monthsAhead : ℕ
  retainMonths : ℕ
  dryRun : Bool

/-- What a maintenance run reports. -/
structure Report where
  created : List String
  dropped : List String
  defaultPartitionRows : ℕ

/-- `maintain`, in one transaction. -/
def AuditTable.maintain (table : AuditTable Timestamp) (today : Date) (args : Args) :
    Except PgError (AuditTable Timestamp × Report) := do
  if args.dryRun then .ok (table, ⟨[], [], table.defaultRows.length⟩)
  else
    let (grown, created) ← table.createPartitions zone today args.monthsAhead
    let (kept, dropped) ← grown.dropExpired today args.retainMonths
    .ok (kept, ⟨created, dropped, kept.defaultRows.length⟩)

/-- `upgrade`: the DEFAULT partition, the months around today, then the rows of the old table. -/
def upgrade (today : Date) (rows : List Timestamp) : Except PgError (AuditTable Timestamp) := do
  let (table, _) ← (AuditTable.mk [] []).createMonths zone today
    [-6, -5, -4, -3, -2, -1, 0, 1, 2, 3]
  .ok (rows.foldl (AuditTable.insert zone) table)

/-! ## Histories -/

/-- A row is inserted, or maintenance runs. -/
inductive Event (Timestamp : Type) where
  | insert (today : Date) (row : Timestamp)
  | maintain (today : Date) (args : Args)

/-- The table, and the date of the last event. -/
structure History (Timestamp : Type) where
  today : Date
  table : AuditTable Timestamp

/-- Dates do not go back; a transaction that fails leaves the table as it is. -/
def step (history : History Timestamp) : Event Timestamp → Option (History Timestamp)
  | .insert today row =>
      if today.Before history.today then none
      else some ⟨today, history.table.insert zone row⟩
  | .maintain today args =>
      if today.Before history.today then none
      else
        match history.table.maintain zone today args with
        | .ok (table, _) => some ⟨today, table⟩
        | .error _ => some ⟨today, history.table⟩

end VisionApi.Partitions
