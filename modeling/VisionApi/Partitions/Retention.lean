import Mathlib.Data.Int.Order.Basic
import VisionApi.Partitions.Names

/-!
# What retention drops

A partition is dropped by the month its name spells.  For the years with four
digits that is the month it holds.

`dropExpired` compares the first day of that month with the cutoff, the first of the
month `retain_months` before today.  As the partition of a month ends where the next one
begins, the comparison is right exactly if all instants of the partition lie before the
cutoff (`holds_before_iff`).

The theorem is about any table whose partitions were created by the code, on any days:
what is dropped are the partitions that lie before the cutoff and no others.  The small
table at the end has partitions on both sides of it.
-/

namespace VisionApi.Partitions

open Foundation

variable {Timestamp : Type}

/-- The partition that the loops create at an offset from a day. -/
def CreatedOn (day : Date) (offset : ℤ) (part : Partition Timestamp) : Prop :=
  let monthStart := (day.addMonths offset).truncMonth
  part.name = partName monthStart ∧ part.lower = monthStart ∧ part.upper = monthStart.addMonths 1

/-- The partition of a month. -/
structure MadeFor (month : ℤ) (part : Partition Timestamp) : Prop where
  name : part.name = partName (Date.first month)
  lower : part.lower = Date.first month
  upper : part.upper = Date.first (month + 1)

/-- A partition created for an offset is that of the month at the offset. -/
theorem createdOn_iff {day : Date} {offset : ℤ} {part : Partition Timestamp} :
    CreatedOn day offset part ↔ MadeFor (day.index + offset) part := by
  simp only [CreatedOn, Date.truncMonth_addMonths, Date.addMonths_first]
  constructor
  · rintro ⟨name, lower, upper⟩
    exact ⟨name, lower, upper⟩
  · rintro ⟨name, lower, upper⟩
    exact ⟨name, lower, upper⟩

/-! ## Dropping -/

section Dropping

variable {cutoff : Date} {parts : List (Partition Timestamp)}

theorem dropBefore_cons {part : Partition Timestamp} {partDate : Date}
    (spelled : toDate (right part.name 7) = some partDate)
    {kept : List (Partition Timestamp)} {dropped : List String}
    (rest : dropBefore cutoff parts = .ok (kept, dropped)) :
    dropBefore cutoff (part :: parts) =
      if partDate.Before cutoff then .ok (kept, part.name :: dropped)
      else .ok (part :: kept, dropped) := by
  unfold dropBefore
  rw [spelled, rest]
  rfl

/-- What is dropped, where every name spells a month. -/
theorem dropBefore_eq (dateOf : Partition Timestamp → Date)
    (spell : ∀ part ∈ parts, toDate (right part.name 7) = some (dateOf part)) :
    dropBefore cutoff parts = .ok (parts.filter fun part => ¬(dateOf part).Before cutoff,
      (parts.filter fun part => (dateOf part).Before cutoff).map Partition.name) := by
  induction parts with
  | nil => rfl
  | cons part parts ih =>
      rw [List.forall_mem_cons] at spell
      rw [dropBefore_cons spell.1 (ih spell.2)]
      by_cases expired : (dateOf part).Before cutoff
      · rw [List.filter_cons_of_neg (by simpa using expired),
          List.filter_cons_of_pos (by simpa using expired)]
        exact if_pos expired
      · rw [List.filter_cons_of_pos (by simpa using expired),
          List.filter_cons_of_neg (by simpa using expired)]
        exact if_neg expired

/-- What is dropped and what is kept. -/
theorem dropExpired_eq {table : AuditTable Timestamp} {today : Date} {retainMonths : ℕ}
    (dateOf : Partition Timestamp → Date)
    (spell : ∀ part ∈ table.partitions, toDate (right part.name 7) = some (dateOf part)) :
    table.dropExpired today retainMonths =
      .ok ({ table with partitions := table.partitions.filter fun part =>
          ¬(dateOf part).Before (Date.first (today.index - retainMonths)) },
        (table.partitions.filter fun part =>
          (dateOf part).Before (Date.first (today.index - retainMonths))).map Partition.name) := by
  simp only [AuditTable.dropExpired, Date.truncMonth_addMonths, ← Int.sub_eq_add_neg,
    dropBefore_eq dateOf spell]
  rfl

variable [LinearOrder Timestamp] {zone : Zone Timestamp}

/-- Every instant of a month lies before the start of another exactly for an earlier month. -/
theorem holds_before_iff {month other : ℤ} :
    (∀ instant, zone.holds (Date.first month) (Date.first (month + 1)) instant = true →
      instant < zone.midnight (Date.first other)) ↔ month < other := by
  have isRange : zone.midnight (Date.first month) < zone.midnight (Date.first (month + 1)) :=
    zone.increasing (Date.before_first_iff.mpr (by omega))
  constructor
  · intro each
    have first := each (zone.midnight (Date.first month)) (by simp [Zone.holds, isRange])
    have ordered : month < other ∨ other = month ∨ other < month := by omega
    rcases ordered with earlier | rfl | later
    · exact earlier
    · exact absurd first (lt_irrefl _)
    · exact absurd first (zone.increasing (Date.before_first_iff.mpr later)).asymm
  · intro earlier instant isHeld
    simp only [Zone.holds, Bool.and_eq_true, decide_eq_true_eq] at isHeld
    have ordered : month + 1 < other ∨ other = month + 1 := by omega
    rcases ordered with next | rfl
    · exact isHeld.2.trans (zone.increasing (Date.before_first_iff.mpr next))
    · exact isHeld.2

end Dropping

/-- Retention drops a monthly partition exactly when every instant it can hold lies before the
first day of the month that many months before the current one, and keeps the DEFAULT partition. -/
theorem dropExpired_iff [LinearOrder Timestamp] (zone : Zone Timestamp)
    (table : AuditTable Timestamp) (today : Date) (retainMonths : ℕ)
    (monthly : ∀ part ∈ table.partitions, ∃ day offset, CreatedOn day offset part ∧
      1 ≤ part.lower.year ∧ part.lower.year ≤ 9999) :
    ∃ kept dropped, table.dropExpired today retainMonths = .ok (kept, dropped) ∧
      kept.defaultRows = table.defaultRows ∧
      (∀ part ∈ kept.partitions, part ∈ table.partitions) ∧
      ∀ part ∈ table.partitions, (part ∉ kept.partitions ↔
        ∀ instant, zone.holds part.lower part.upper instant = true →
          instant < zone.midnight (Date.first (today.index - retainMonths))) := by
  have made : ∀ part ∈ table.partitions, MadeFor part.lower.index part ∧
      toDate (right part.name 7) = some part.lower := by
    intro part isPart
    rcases monthly part isPart with ⟨day, offset, created, anno, short⟩
    rcases createdOn_iff.mp created with ⟨name, lower, upper⟩
    rw [lower, Date.first_year] at anno short
    refine ⟨?_, ?_⟩
    · rw [lower, Date.index_first]
      exact ⟨name, lower, upper⟩
    · rw [name, toDate_right_partName (by omega), spelled_of_lt (by omega) (by omega), lower]
  refine ⟨_, _, dropExpired_eq Partition.lower fun part isPart => (made part isPart).2, rfl, ?_, ?_⟩
  · intro part isKept
    exact (List.mem_filter.mp isKept).1
  · intro part isPart
    rcases (made part isPart).1 with ⟨_, lower, upper⟩
    have expired : part ∉ table.partitions.filter (fun part =>
        ¬part.lower.Before (Date.first (today.index - retainMonths))) ↔
        part.lower.Before (Date.first (today.index - retainMonths)) := by
      simp [List.mem_filter, isPart]
    rw [expired, lower, upper, Date.before_first_iff, holds_before_iff]

/-! ## A small table -/

/-- Days, with 31 of them in each month. -/
def smallMidnight (date : Date) : ℤ :=
  (date.year * 12 + date.month) * 31 + date.day

theorem smallMidnight_increasing {left right : Date} (before : left.Before right) :
    smallMidnight left < smallMidnight right := by
  have leftMonth := left.month_valid
  have rightMonth := right.month_valid
  have leftDay : 1 ≤ left.day ∧ left.day ≤ 31 :=
    ⟨left.day_valid.1, left.day_valid.2.trans (daysInMonth_le _ _)⟩
  have rightDay : 1 ≤ right.day ∧ right.day ≤ 31 :=
    ⟨right.day_valid.1, right.day_valid.2.trans (daysInMonth_le _ _)⟩
  simp only [Date.Before] at before
  simp only [smallMidnight]
  omega

/-- A zone in which days are numbered. -/
def smallZone : Zone ℤ where
  midnight := smallMidnight
  increasing := smallMidnight_increasing

/-- 14 September 2026. -/
def smallDay : Date where
  year := 2026
  month := 9
  day := 14
  month_valid := by decide
  day_valid := by decide

/-- The empty partition of a month. -/
def monthPartition (month : ℤ) : Partition Timestamp :=
  ⟨partName (Date.first month), Date.first month, Date.first (month + 1), []⟩

theorem madeFor_monthPartition (month : ℤ) :
    MadeFor month (monthPartition month : Partition Timestamp) :=
  ⟨rfl, rfl, rfl⟩

/-- March and September 2026. -/
def smallAuditTable : AuditTable ℤ :=
  ⟨[monthPartition (smallDay.index + -6), monthPartition (smallDay.index + 0)], []⟩

/-- Six months after 14 September 2026 less one month, March has expired. -/
theorem dropExpired_small :
    ∃ kept dropped, smallAuditTable.dropExpired (smallDay.addMonths 1) 6 = .ok (kept, dropped) ∧
      monthPartition (smallDay.index + -6) ∉ kept.partitions := by
  have monthly : ∀ part ∈ smallAuditTable.partitions, ∃ day offset, CreatedOn day offset part ∧
      1 ≤ part.lower.year ∧ part.lower.year ≤ 9999 := by
    intro part isPart
    rcases List.mem_cons.mp isPart with rfl | isLast
    · exact ⟨smallDay, -6, createdOn_iff.mpr (madeFor_monthPartition _), by decide, by decide⟩
    · cases List.mem_singleton.mp isLast
      exact ⟨smallDay, 0, createdOn_iff.mpr (madeFor_monthPartition _), by decide, by decide⟩
  rcases dropExpired_iff smallZone smallAuditTable (smallDay.addMonths 1) 6 monthly with
    ⟨kept, dropped, ran, _, _, exactly⟩
  refine ⟨kept, dropped, ran, ?_⟩
  apply (exactly _ List.mem_cons_self).mpr
  exact holds_before_iff.mpr (by decide)

end VisionApi.Partitions
