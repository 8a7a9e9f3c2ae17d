import Mathlib.Data.List.Nodup
import VisionApi.Partitions.Retention

/-!
# Maintenance over a history

The partitions are a list of distinct months.  Maintenance adds the current month
and those ahead, unless a row of the DEFAULT partition is in the way.

`Represents` says that a table has the partitions of certain months and no others.  Under
it a month can be created if it is there already or no row of the DEFAULT partition lies
in it (`createMonth_known`, `createMonth_blocked`, `createMonth_fresh`); creating one
month changes nothing for the others, so that the loop succeeds exactly if no month of
it is blocked.

A run that is blocked raises and is rolled back, and so is every later run until the row
is moved by hand: this is why an interval without maintenance is not made up for.
`Unobstructed` is the condition on a single event.  `Sound` is the invariant of the
history, and the recovery is stated for each event from a state that some events have
led to.  The two small histories at the end are a lapse with and without such a row.
-/

namespace VisionApi.Partitions

open Foundation

variable {Timestamp : Type}

/-! ## The months of a table -/

/-- What a partition is apart from its rows. -/
def Partition.shape (part : Partition Timestamp) : String × Date × Date :=
  (part.name, part.lower, part.upper)

/-- The name and the bounds of the partition of a month. -/
def monthShape (month : ℤ) : String × Date × Date :=
  (partName (Date.first month), Date.first month, Date.first (month + 1))

theorem madeFor_iff {month : ℤ} {part : Partition Timestamp} :
    MadeFor month part ↔ monthShape month = part.shape := by
  simp only [monthShape, Partition.shape, Prod.mk.injEq]
  constructor
  · intro made
    exact ⟨made.name.symm, made.lower.symm, made.upper.symm⟩
  · rintro ⟨name, lower, upper⟩
    exact ⟨name.symm, lower.symm, upper.symm⟩

/-- The partitions of the table are those of distinct months from year one on. -/
structure Represents (table : AuditTable Timestamp) (months : List ℤ) : Prop where
  shapes : table.partitions.map Partition.shape = months.map monthShape
  distinct : months.Nodup
  anno : ∀ month ∈ months, 12 ≤ month

section Represents

variable {table : AuditTable Timestamp} {months : List ℤ} {month : ℤ}

theorem Represents.exists_month (represents : Represents table months) {part : Partition Timestamp}
    (isPart : part ∈ table.partitions) : ∃ month ∈ months, MadeFor month part := by
  have isShape : part.shape ∈ table.partitions.map Partition.shape := List.mem_map_of_mem isPart
  rw [represents.shapes] at isShape
  rcases List.mem_map.mp isShape with ⟨month, isMonth, same⟩
  exact ⟨month, isMonth, madeFor_iff.mpr same⟩

theorem Represents.exists_part (represents : Represents table months) (isMonth : month ∈ months) :
    ∃ part ∈ table.partitions, MadeFor month part := by
  have isShape : monthShape month ∈ months.map monthShape := List.mem_map_of_mem isMonth
  rw [← represents.shapes] at isShape
  rcases List.mem_map.mp isShape with ⟨part, isPart, same⟩
  exact ⟨part, isPart, madeFor_iff.mpr same.symm⟩

/-- A month has a partition exactly when it is among the months. -/
theorem Represents.range_iff (represents : Represents table months) :
    (∃ part ∈ table.partitions, part.lower = Date.first month ∧
      part.upper = Date.first (month + 1)) ↔ month ∈ months := by
  constructor
  · rintro ⟨part, isPart, lower, _⟩
    rcases represents.exists_month isPart with ⟨known, isKnown, made⟩
    cases Date.first_injective (made.lower.symm.trans lower)
    exact isKnown
  · intro isMonth
    rcases represents.exists_part isMonth with ⟨part, isPart, made⟩
    exact ⟨part, isPart, made.lower, made.upper⟩

/-- A name is taken exactly when its month is among the months. -/
theorem Represents.name_iff (represents : Represents table months) (anno : 12 ≤ month) :
    (table.partitions.any fun part => part.name = partName (Date.first month)) = true ↔
      month ∈ months := by
  simp only [List.any_eq_true, decide_eq_true_eq]
  constructor
  · rintro ⟨part, isPart, isName⟩
    rcases represents.exists_month isPart with ⟨known, isKnown, made⟩
    cases partName_injective (represents.anno known isKnown) anno (made.name.symm.trans isName)
    exact isKnown
  · intro isMonth
    rcases represents.exists_part isMonth with ⟨part, isPart, made⟩
    exact ⟨part, isPart, made.name⟩

/-- A missing month has no partition of its name. -/
theorem Represents.fresh_iff (represents : Represents table months) {month : ℤ}
    (anno : 12 ≤ month) :
    (∀ part ∈ table.partitions, part.name ≠ partName (Date.first month)) ↔ month ∉ months := by
  rw [← represents.name_iff anno]
  simp

end Represents

/-! ## Dropping months -/

section Dropping

variable {table : AuditTable Timestamp} {months : List ℤ}

theorem dropExpired_represents (represents : Represents table months) (today : Date)
    (retainMonths : ℕ) :
    ∃ kept dropped, table.dropExpired today retainMonths = .ok (kept, dropped) ∧
      Represents kept (months.filter fun month => ¬spelled month < today.index - retainMonths) ∧
      kept.defaultRows = table.defaultRows := by
  have spell : ∀ part ∈ table.partitions, toDate (right part.name 7) =
      some (Date.first (spelled part.lower.index)) := by
    intro part isPart
    rcases represents.exists_month isPart with ⟨month, isMonth, made⟩
    rw [made.name, made.lower, Date.index_first]
    exact toDate_right_partName (represents.anno month isMonth)
  refine ⟨_, _, dropExpired_eq (fun part => Date.first (spelled part.lower.index)) spell, ?_, rfl⟩
  constructor
  · have commutes := congrArg (List.filter fun shape =>
      ¬spelled shape.2.1.index < today.index - retainMonths) represents.shapes
    simp only [List.filter_map] at commutes
    simp only [Date.before_first_iff]
    refine Eq.trans commutes ?_
    congr 1
    apply List.filter_congr
    intro month _
    simp only [Function.comp_apply, monthShape, Date.index_first]
  · exact represents.distinct.filter _
  · intro month isMonth
    exact represents.anno month (List.mem_filter.mp isMonth).1

end Dropping

variable [LinearOrder Timestamp] {zone : Zone Timestamp}

/-! ## Rows -/

section Rows

variable {table : AuditTable Timestamp} {months : List ℤ}

theorem shapes_route {row : Timestamp} {parts next : List (Partition Timestamp)}
    (routed : route zone row parts = some next) :
    next.map Partition.shape = parts.map Partition.shape := by
  induction parts generalizing next with
  | nil => cases routed
  | cons part parts ih =>
      simp only [route] at routed
      split at routed
      · cases routed
        rfl
      · rcases Option.map_eq_some_iff.mp routed with ⟨rest, isRest, rfl⟩
        rw [List.map_cons, List.map_cons, ih isRest]

/-- Inserting a row changes no partition but its rows. -/
theorem Represents.insert (represents : Represents table months) (row : Timestamp) :
    Represents (table.insert zone row) months := by
  simp only [AuditTable.insert]
  split
  · rename_i partitions routed
    exact ⟨(shapes_route routed).trans represents.shapes, represents.distinct, represents.anno⟩
  · exact ⟨represents.shapes, represents.distinct, represents.anno⟩

theorem Represents.foldl_insert (represents : Represents table months) (rows : List Timestamp) :
    Represents (rows.foldl (AuditTable.insert zone) table) months := by
  induction rows generalizing table with
  | nil => exact represents
  | cons row rows ih => exact ih (represents.insert row)

/-- Different months hold different instants. -/
theorem not_both_hold {left right : ℤ} (apart : left ≠ right) (instant : Timestamp) :
    ¬(zone.holds (Date.first left) (Date.first (left + 1)) instant = true ∧
      zone.holds (Date.first right) (Date.first (right + 1)) instant = true) := by
  have ordered : ∀ {earlier later : ℤ}, earlier < later →
      zone.holds (Date.first earlier) (Date.first (earlier + 1)) instant = true →
      zone.holds (Date.first later) (Date.first (later + 1)) instant = true → False := by
    intro earlier later before isEarlier isLater
    have below := holds_before_iff.mpr before instant isEarlier
    simp only [Zone.holds, Bool.and_eq_true, decide_eq_true_eq] at isLater
    exact absurd below isLater.1.not_gt
  rintro ⟨isLeft, isRight⟩
  rcases Int.lt_or_gt_of_ne apart with before | after
  · exact ordered before isLeft isRight
  · exact ordered after isRight isLeft

/-- No instant lies in two partitions. -/
theorem Represents.disjoint (represents : Represents table months) :
    table.partitions.Pairwise fun left right => ∀ instant,
      ¬(zone.holds left.lower left.upper instant = true ∧
        zone.holds right.lower right.upper instant = true) := by
  have apart : (months.map monthShape).Pairwise fun left right => ∀ instant,
      ¬(zone.holds left.2.1 left.2.2 instant = true ∧
        zone.holds right.2.1 right.2.2 instant = true) := by
    apply List.pairwise_map.mpr
    apply represents.distinct.imp
    intro left right different instant
    exact not_both_hold different instant
  rw [← represents.shapes] at apart
  exact List.pairwise_map.mp apart

end Rows

/-! ## Creating months -/

/-- A row of the DEFAULT partition lies in the month. -/
def Blocked (zone : Zone Timestamp) (table : AuditTable Timestamp) (month : ℤ) : Prop :=
  ∃ row ∈ table.defaultRows,
    zone.holds (Date.first month) (Date.first (month + 1)) row = true

section Creating

variable {table : AuditTable Timestamp} {months : List ℤ} {today : Date}

theorem overlap_iff {left right : ℤ} :
    (zone.midnight (Date.first left) < zone.midnight (Date.first (right + 1)) ∧
      zone.midnight (Date.first right) < zone.midnight (Date.first (left + 1))) ↔ left = right := by
  have starts : ∀ {earlier later : ℤ}, earlier < later →
      zone.midnight (Date.first earlier) < zone.midnight (Date.first later) :=
    fun before => zone.increasing (Date.before_first_iff.mpr before)
  have ordered : ∀ {month other : ℤ},
      zone.midnight (Date.first month) < zone.midnight (Date.first other) → month < other := by
    intro month other before
    rcases lt_trichotomy month other with earlier | rfl | later
    · exact earlier
    · exact absurd before (lt_irrefl _)
    · exact absurd before (starts later).asymm
  constructor
  · rintro ⟨first, second⟩
    have below := ordered first
    have above := ordered second
    omega
  · rintro rfl
    exact ⟨starts (by omega), starts (by omega)⟩

theorem Represents.no_overlap (represents : Represents table months) {month : ℤ}
    (fresh : month ∉ months) : (table.partitions.any fun part =>
      decide (zone.midnight (Date.first month) < zone.midnight part.upper) &&
        decide (zone.midnight part.lower < zone.midnight (Date.first (month + 1)))) = false := by
  apply List.any_eq_false.mpr
  intro part isPart
  rcases represents.exists_month isPart with ⟨known, isKnown, made⟩
  rw [made.lower, made.upper, Bool.and_eq_true, decide_eq_true_eq, decide_eq_true_eq, overlap_iff]
  rintro rfl
  exact fresh isKnown

/-- A month that has a partition is left alone. -/
theorem createMonth_known (represents : Represents table months) {offset : ℤ}
    (anno : 12 ≤ today.index + offset) (known : today.index + offset ∈ months) :
    table.createMonth zone today offset = .ok (table, []) := by
  have taken := (represents.name_iff anno).mpr known
  simp only [AuditTable.createMonth, Date.truncMonth_addMonths, taken, if_true]

/-- A row in the DEFAULT partition prevents the creation of its month. -/
theorem createMonth_blocked (represents : Represents table months) {offset : ℤ}
    (anno : 12 ≤ today.index + offset) (fresh : today.index + offset ∉ months)
    (blocked : Blocked zone table (today.index + offset)) :
    table.createMonth zone today offset = .error .checkViolation := by
  have notTaken := eq_false_of_ne_true (mt (represents.name_iff anno).mp fresh)
  have violated : table.defaultRows.any (zone.holds (Date.first (today.index + offset))
      (Date.first (today.index + offset + 1))) = true := List.any_eq_true.mpr blocked
  simp only [AuditTable.createMonth, Date.truncMonth_addMonths, notTaken, Bool.false_eq_true,
    if_false, AuditTable.createPartition, Date.addMonths_first, represents.no_overlap fresh,
    violated, if_true]
  rfl

/-- Any other month is created. -/
theorem createMonth_fresh (represents : Represents table months) {offset : ℤ}
    (anno : 12 ≤ today.index + offset) (fresh : today.index + offset ∉ months)
    (free : ¬Blocked zone table (today.index + offset)) :
    ∃ next created, table.createMonth zone today offset = .ok (next, created) ∧
      Represents next (months ++ [today.index + offset]) ∧
      next.defaultRows = table.defaultRows := by
  have notTaken := eq_false_of_ne_true (mt (represents.name_iff anno).mp fresh)
  have accepted : table.defaultRows.any (zone.holds (Date.first (today.index + offset))
      (Date.first (today.index + offset + 1))) = false :=
    eq_false_of_ne_true (mt List.any_eq_true.mp free)
  simp only [AuditTable.createMonth, Date.truncMonth_addMonths, notTaken, Bool.false_eq_true,
    if_false, AuditTable.createPartition, Date.addMonths_first, represents.no_overlap fresh,
    accepted]
  refine ⟨_, _, rfl, ?_, rfl⟩
  constructor
  · rw [List.map_append, represents.shapes, List.map_append]
    rfl
  · rw [← List.concat_eq_append]
    exact represents.distinct.concat fresh
  · intro month isMonth
    rcases List.mem_append.mp isMonth with isOld | isNew
    · exact represents.anno month isOld
    · cases List.mem_singleton.mp isNew
      exact anno

/-- Several months are created exactly if each of them is. -/
theorem createMonths_cons_ok_iff {offset : ℤ} {offsets : List ℤ} {last : AuditTable Timestamp}
    {names : List String} :
    table.createMonths zone today (offset :: offsets) = .ok (last, names) ↔
      ∃ next created others, table.createMonth zone today offset = .ok (next, created) ∧
        next.createMonths zone today offsets = .ok (last, others) ∧ names = created ++ others := by
  simp only [AuditTable.createMonths, bind_ok_iff]
  constructor
  · rintro ⟨⟨next, created⟩, first, ⟨later, others⟩, rest, ⟨⟩⟩
    exact ⟨next, created, others, first, rest, rfl⟩
  · rintro ⟨next, created, others, first, rest, rfl⟩
    exact ⟨(next, created), first, (last, others), rest, rfl⟩

/-- The loop adds the months of its offsets, and no others. -/
theorem createMonths_represents (represents : Represents table months) {offsets : List ℤ}
    (anno : ∀ offset ∈ offsets, 12 ≤ today.index + offset) {last : AuditTable Timestamp}
    {names : List String} (ran : table.createMonths zone today offsets = .ok (last, names)) :
    ∃ later, Represents last later ∧ last.defaultRows = table.defaultRows ∧ ∀ month,
      month ∈ later ↔ month ∈ months ∨ ∃ offset ∈ offsets, month = today.index + offset := by
  induction offsets generalizing table months names with
  | nil =>
      cases ran
      exact ⟨months, represents, rfl, by simp⟩
  | cons offset offsets ih =>
      rw [List.forall_mem_cons] at anno
      rcases createMonths_cons_ok_iff.mp ran with ⟨next, created, others, first, rest, _⟩
      by_cases known : today.index + offset ∈ months
      · cases (createMonth_known represents anno.1 known).symm.trans first
        rcases ih represents anno.2 rest with ⟨later, isLater, sameRows, exactly⟩
        refine ⟨later, isLater, sameRows, ?_⟩
        intro month
        rw [exactly, List.exists_mem_cons_iff]
        constructor
        · rintro (isOld | isNew)
          · exact Or.inl isOld
          · exact Or.inr (Or.inr isNew)
        · rintro (isOld | rfl | isNew)
          · exact Or.inl isOld
          · exact Or.inl known
          · exact Or.inr isNew
      · by_cases blocked : Blocked zone table (today.index + offset)
        · cases (createMonth_blocked represents anno.1 known blocked).symm.trans first
        · rcases createMonth_fresh represents anno.1 known blocked with
            ⟨grown, grownNames, alsoFirst, isGrown, sameRows⟩
          cases alsoFirst.symm.trans first
          rcases ih isGrown anno.2 rest with ⟨later, isLater, alsoSameRows, exactly⟩
          refine ⟨later, isLater, alsoSameRows.trans sameRows, ?_⟩
          intro month
          rw [exactly, List.exists_mem_cons_iff, List.mem_append, List.mem_singleton, or_assoc]

theorem createMonths_cons_succeeds_iff {offset : ℤ} {offsets : List ℤ} :
    Succeeds (table.createMonths zone today (offset :: offsets)) ↔
      ∃ next created, table.createMonth zone today offset = .ok (next, created) ∧
        Succeeds (next.createMonths zone today offsets) := by
  constructor
  · rintro ⟨⟨last, names⟩, ran⟩
    rcases createMonths_cons_ok_iff.mp ran with ⟨next, created, others, first, rest, _⟩
    exact ⟨next, created, first, _, rest⟩
  · rintro ⟨next, created, first, ⟨last, others⟩, rest⟩
    exact ⟨_, createMonths_cons_ok_iff.mpr ⟨next, created, others, first, rest, rfl⟩⟩

/-- The months are created exactly when none that is missing is blocked. -/
theorem createMonths_succeeds_iff (represents : Represents table months) {offsets : List ℤ}
    (anno : ∀ offset ∈ offsets, 12 ≤ today.index + offset) :
    Succeeds (table.createMonths zone today offsets) ↔
      ∀ offset ∈ offsets, today.index + offset ∉ months →
        ¬Blocked zone table (today.index + offset) := by
  induction offsets generalizing table months with
  | nil => exact ⟨fun _ => List.forall_mem_nil _, fun _ => ⟨_, rfl⟩⟩
  | cons offset offsets ih =>
      rw [List.forall_mem_cons] at anno ⊢
      rw [createMonths_cons_succeeds_iff]
      by_cases known : today.index + offset ∈ months
      · rw [createMonth_known represents anno.1 known, ← ih represents anno.2]
        constructor
        · rintro ⟨_, _, ⟨⟩, rest⟩
          exact ⟨absurd known, rest⟩
        · rintro ⟨_, rest⟩
          exact ⟨table, [], rfl, rest⟩
      · by_cases blocked : Blocked zone table (today.index + offset)
        · rw [createMonth_blocked represents anno.1 known blocked]
          constructor
          · rintro ⟨_, _, ⟨⟩, _⟩
          · rintro ⟨free, _⟩
            exact absurd blocked (free known)
        · rcases createMonth_fresh represents anno.1 known blocked with
            ⟨grown, grownNames, first, isGrown, sameRows⟩
          have sameBlocked : ∀ month, Blocked zone grown month ↔ Blocked zone table month := by
            intro month
            rw [Blocked, Blocked, sameRows]
          have restIff := ih isGrown anno.2
          simp only [sameBlocked, List.mem_append, List.mem_singleton, not_or] at restIff
          rw [first]
          constructor
          · rintro ⟨_, _, ⟨⟩, rest⟩
            refine ⟨fun _ => blocked, ?_⟩
            intro other isOther fresh
            by_cases same : today.index + other = today.index + offset
            · rw [same]
              exact blocked
            · exact restIff.mp rest other isOther ⟨fresh, same⟩
          · rintro ⟨_, free⟩
            refine ⟨grown, grownNames, rfl, restIff.mpr ?_⟩
            intro other isOther fresh
            exact free other isOther fresh.1

end Creating

/-! ## Histories -/

/-- A maintenance run succeeds, and afterwards the current month and those ahead have partitions,
which are pairwise disjoint. -/
def Recovers (zone : Zone Timestamp) (before : History Timestamp) (event : Event Timestamp)
    (after : History Timestamp) : Prop :=
  match event with
  | .insert _ _ => True
  | .maintain today args =>
      Succeeds (before.table.maintain zone today args) ∧ (args.dryRun = false →
        (∀ ahead : ℕ, ahead ≤ args.monthsAhead → ∃ part ∈ after.table.partitions,
          part.lower = Date.first (today.index + ahead) ∧
            part.upper = Date.first (today.index + ahead + 1)) ∧
        after.table.partitions.Pairwise fun left right => ∀ instant,
          ¬(zone.holds left.lower left.upper instant = true ∧
            zone.holds right.lower right.upper instant = true))

/-- Before a maintenance run, no row of the DEFAULT partition lies in the current month or one of
those ahead that has no partition, and the name of none of these spells an expired month. -/
def Unobstructed (zone : Zone Timestamp) (before : History Timestamp) (event : Event Timestamp)
    (_ : History Timestamp) : Prop :=
  match event with
  | .insert _ _ => True
  | .maintain today args => args.dryRun = false → ∀ ahead : ℕ, ahead ≤ args.monthsAhead →
      ((∀ part ∈ before.table.partitions, part.name ≠ partName (Date.first (today.index + ahead))) →
        ¬Blocked zone before.table (today.index + ahead)) ∧
      ¬spelled (today.index + ahead) < today.index - args.retainMonths

/-- The last date is in year one or later, and the partitions are months. -/
structure Sound (history : History Timestamp) : Prop where
  anno : 12 ≤ history.today.index
  represents : ∃ months, Represents history.table months

section Step

variable {table : AuditTable Timestamp} {months : List ℤ} {today : Date} {args : Args}

/-- The offsets run from zero to the number of months ahead. -/
theorem mem_offsets_iff {monthsAhead : ℕ} {offset : ℤ} :
    offset ∈ (List.range (monthsAhead + 1)).map Int.ofNat ↔
      ∃ ahead : ℕ, ahead ≤ monthsAhead ∧ (ahead : ℤ) = offset := by
  simp only [List.mem_map, List.mem_range, Nat.lt_succ_iff]
  rfl

theorem anno_offsets {monthsAhead : ℕ} (anno : 12 ≤ today.index) :
    ∀ offset ∈ (List.range (monthsAhead + 1)).map Int.ofNat, 12 ≤ today.index + offset := by
  intro offset isOffset
  rcases mem_offsets_iff.mp isOffset with ⟨ahead, _, rfl⟩
  omega

/-- A real run creates, drops and reports. -/
theorem maintain_ok_iff (real : args.dryRun = false) {next : AuditTable Timestamp}
    {report : Report} : table.maintain zone today args = .ok (next, report) ↔
      ∃ grown created dropped, table.createPartitions zone today args.monthsAhead =
          .ok (grown, created) ∧
        grown.dropExpired today args.retainMonths = .ok (next, dropped) ∧
        report = ⟨created, dropped, next.defaultRows.length⟩ := by
  simp only [AuditTable.maintain, real, Bool.false_eq_true, if_false, bind_ok_iff]
  constructor
  · rintro ⟨⟨grown, created⟩, creates, ⟨kept, dropped⟩, drops, ⟨⟩⟩
    exact ⟨grown, created, dropped, creates, drops, rfl⟩
  · rintro ⟨grown, created, dropped, creates, drops, rfl⟩
    exact ⟨(grown, created), creates, (next, dropped), drops, rfl⟩

/-- What a maintenance run does to the months. -/
theorem maintain_represents (represents : Represents table months) (anno : 12 ≤ today.index)
    (real : args.dryRun = false) {next : AuditTable Timestamp} {report : Report}
    (ran : table.maintain zone today args = .ok (next, report)) :
    ∃ later, Represents next later ∧ ∀ month, month ∈ later ↔
      (month ∈ months ∨ ∃ ahead : ℕ, ahead ≤ args.monthsAhead ∧ month = today.index + ahead) ∧
        ¬spelled month < today.index - args.retainMonths := by
  rcases (maintain_ok_iff real).mp ran with ⟨grown, created, dropped, creates, drops, _⟩
  rcases createMonths_represents represents (anno_offsets anno) creates with
    ⟨between, isGrown, _, exactly⟩
  rcases dropExpired_represents isGrown today args.retainMonths with
    ⟨kept, _, alsoDrops, isKept, _⟩
  cases alsoDrops.symm.trans drops
  refine ⟨_, isKept, ?_⟩
  intro month
  have inLoop : (∃ offset ∈ (List.range (args.monthsAhead + 1)).map Int.ofNat,
      month = today.index + offset) ↔
      ∃ ahead : ℕ, ahead ≤ args.monthsAhead ∧ month = today.index + ahead := by
    constructor
    · rintro ⟨offset, isOffset, rfl⟩
      rcases mem_offsets_iff.mp isOffset with ⟨ahead, isAhead, rfl⟩
      exact ⟨ahead, isAhead, rfl⟩
    · rintro ⟨ahead, isAhead, rfl⟩
      exact ⟨ahead, mem_offsets_iff.mpr ⟨ahead, isAhead, rfl⟩, rfl⟩
  rw [List.mem_filter, exactly, inLoop, decide_eq_true_eq]

/-- A maintenance run succeeds exactly when no missing month is blocked. -/
theorem maintain_succeeds_iff (zone : Zone Timestamp) (represents : Represents table months)
    (anno : 12 ≤ today.index) (real : args.dryRun = false) :
    Succeeds (table.maintain zone today args) ↔ ∀ ahead : ℕ, ahead ≤ args.monthsAhead →
      today.index + ahead ∉ months → ¬Blocked zone table (today.index + ahead) := by
  have creates : Succeeds (table.maintain zone today args) ↔
      Succeeds (table.createPartitions zone today args.monthsAhead) := by
    constructor
    · rintro ⟨⟨next, report⟩, ran⟩
      rcases (maintain_ok_iff real).mp ran with ⟨grown, created, _, creates, _, _⟩
      exact ⟨_, creates⟩
    · rintro ⟨⟨grown, created⟩, creates⟩
      rcases createMonths_represents represents (anno_offsets anno) creates with
        ⟨between, isGrown, _, _⟩
      rcases dropExpired_represents isGrown today args.retainMonths with
        ⟨kept, dropped, drops, _, _⟩
      exact ⟨_, (maintain_ok_iff real).mpr ⟨grown, created, dropped, creates, drops, rfl⟩⟩
  rw [creates, AuditTable.createPartitions,
    createMonths_succeeds_iff represents (anno_offsets anno)]
  constructor
  · intro free ahead isAhead
    exact free ahead (mem_offsets_iff.mpr ⟨ahead, isAhead, rfl⟩)
  · intro free offset isOffset
    rcases mem_offsets_iff.mp isOffset with ⟨ahead, isAhead, rfl⟩
    exact free ahead isAhead

/-- A real maintenance run recovers exactly when nothing is in its way. -/
theorem maintain_recovers_iff (zone : Zone Timestamp) (represents : Represents table months)
    (anno : 12 ≤ today.index) (real : args.dryRun = false) :
    (∃ next report, table.maintain zone today args = .ok (next, report) ∧
      ∀ ahead : ℕ, ahead ≤ args.monthsAhead → ∃ part ∈ next.partitions,
        part.lower = Date.first (today.index + ahead) ∧
          part.upper = Date.first (today.index + ahead + 1)) ↔
      ∀ ahead : ℕ, ahead ≤ args.monthsAhead →
        (today.index + ahead ∉ months → ¬Blocked zone table (today.index + ahead)) ∧
          ¬spelled (today.index + ahead) < today.index - args.retainMonths := by
  constructor
  · rintro ⟨next, report, ran, present⟩ ahead isAhead
    rcases maintain_represents represents anno real ran with ⟨later, isLater, exactly⟩
    have isThere := isLater.range_iff.mp (present ahead isAhead)
    refine ⟨?_, ((exactly _).mp isThere).2⟩
    exact (maintain_succeeds_iff zone represents anno real).mp ⟨_, ran⟩ ahead isAhead
  · intro unobstructed
    rcases (maintain_succeeds_iff zone represents anno real).mpr
      (fun ahead isAhead => (unobstructed ahead isAhead).1) with ⟨⟨next, report⟩, ran⟩
    rcases maintain_represents represents anno real ran with ⟨later, isLater, exactly⟩
    refine ⟨next, report, ran, ?_⟩
    intro ahead isAhead
    apply isLater.range_iff.mpr
    exact (exactly _).mpr ⟨Or.inr ⟨ahead, isAhead, rfl⟩, (unobstructed ahead isAhead).2⟩

theorem recovers_iff {before after : History Timestamp} {event : Event Timestamp}
    (sound : Sound before) (stepped : step zone before event = some after) :
    Recovers zone before event after ↔ Unobstructed zone before event after := by
  cases event with
  | insert today row => exact Iff.rfl
  | maintain today args =>
      rcases sound with ⟨annoBefore, months, represents⟩
      simp only [step] at stepped
      split at stepped
      · cases stepped
      · rename_i ordered
        have anno : 12 ≤ today.index := annoBefore.trans (Date.index_le_of_not_before ordered)
        simp only [Recovers, Unobstructed]
        cases real : args.dryRun with
        | true =>
            simp [AuditTable.maintain, real]
        | false =>
            have recovers := maintain_recovers_iff zone represents anno real
            constructor
            · rintro ⟨⟨⟨next, report⟩, ran⟩, rest⟩ _ ahead isAhead
              rw [ran] at stepped
              cases stepped
              have each := recovers.mp ⟨next, report, ran, (rest rfl).1⟩ ahead isAhead
              rw [represents.fresh_iff (by omega)]
              exact each
            · intro unobstructed
              have each := unobstructed rfl
              rcases recovers.mpr (by
                intro ahead isAhead
                rw [← represents.fresh_iff (by omega)]
                exact each ahead isAhead) with ⟨next, report, ran, present⟩
              rw [ran] at stepped
              cases stepped
              rcases maintain_represents represents anno real ran with ⟨later, isLater, _⟩
              exact ⟨⟨_, ran⟩, fun _ => ⟨present, isLater.disjoint⟩⟩

/-- Each event keeps a history sound. -/
theorem Sound.step {before after : History Timestamp} {event : Event Timestamp}
    (sound : Sound before) (stepped : step zone before event = some after) : Sound after := by
  rcases sound with ⟨anno, months, represents⟩
  cases event with
  | insert today row =>
      simp only [Partitions.step] at stepped
      split at stepped
      · cases stepped
      · rename_i ordered
        cases stepped
        exact ⟨anno.trans (Date.index_le_of_not_before ordered), months, represents.insert row⟩
  | maintain today args =>
      simp only [Partitions.step] at stepped
      split at stepped
      · cases stepped
      · rename_i ordered
        have later : 12 ≤ today.index := anno.trans (Date.index_le_of_not_before ordered)
        split at stepped
        · rename_i table report ran
          cases stepped
          cases real : args.dryRun with
          | true =>
              simp only [AuditTable.maintain, real, if_true] at ran
              cases ran
              exact ⟨later, months, represents⟩
          | false =>
              rcases maintain_represents represents later real ran with ⟨kept, isKept, _⟩
              exact ⟨later, kept, isKept⟩
        · cases stepped
          exact ⟨later, months, represents⟩

end Step

/-! ## The migration -/

/-- The offsets of the months that the migration creates. -/
def initialOffsets : List ℤ :=
  [-6, -5, -4, -3, -2, -1, 0, 1, 2, 3]

/-- The migration succeeds: it inserts the rows into partitions of the months around its day. -/
theorem upgrade_eq (zone : Zone Timestamp) (today : Date) (anno : 18 ≤ today.index)
    (rows : List Timestamp) :
    ∃ table months, upgrade zone today rows = .ok (rows.foldl (AuditTable.insert zone) table) ∧
      Represents table months ∧ table.defaultRows = [] ∧
      ∀ month, month ∈ months ↔ ∃ offset ∈ initialOffsets, month = today.index + offset := by
  have empty : Represents (⟨[], []⟩ : AuditTable Timestamp) [] :=
    ⟨rfl, List.nodup_nil, List.forall_mem_nil _⟩
  have inYears : ∀ offset ∈ initialOffsets, 12 ≤ today.index + offset := by
    intro offset isOffset
    simp only [initialOffsets, List.mem_cons, List.not_mem_nil, or_false] at isOffset
    omega
  have free : ∀ offset ∈ initialOffsets, today.index + offset ∉ ([] : List ℤ) →
      ¬Blocked zone (⟨[], []⟩ : AuditTable Timestamp) (today.index + offset) := by
    rintro offset _ _ ⟨row, isRow, _⟩
    cases isRow
  rcases (createMonths_succeeds_iff empty inYears).mpr free with ⟨⟨table, created⟩, ran⟩
  rcases createMonths_represents empty inYears ran with ⟨months, represents, noRows, exactly⟩
  refine ⟨table, months, ?_, represents, noRows, ?_⟩
  · simp only [initialOffsets] at ran
    simp only [upgrade, ran]
    rfl
  · intro month
    rw [exactly]
    simp

/-- Every maintenance run of a history after the migration recovers exactly when each of them is
unobstructed; the clock of the database starts in 1970. -/
theorem maintenance_recovers_iff (zone : Zone Timestamp) (start : Date) (clock : 1970 ≤ start.year)
    (rows : List Timestamp) (table : AuditTable Timestamp)
    (migrated : upgrade zone start rows = .ok table) (events : List (Event Timestamp)) :
    EachStep (step zone) (Recovers zone) ⟨start, table⟩ events ↔
      EachStep (step zone) (Unobstructed zone) ⟨start, table⟩ events := by
  have isMonth := start.month_valid
  have anno : 18 ≤ start.index := by
    simp only [Date.index]
    omega
  rcases upgrade_eq zone start anno rows with ⟨initial, months, ran, represents, _, _⟩
  cases migrated.symm.trans ran
  apply eachStep_iff Sound (fun _ => True)
  · intro before event after sound _ stepped
    exact recovers_iff sound stepped
  · intro before event after sound _ stepped _
    exact sound.step stepped
  · exact ⟨le_trans (by decide) anno, months, represents.foldl_insert rows⟩
  · exact fun _ _ => trivial

/-! ## Lapses -/

/-- A row of a month without a partition goes to the DEFAULT partition. -/
theorem Represents.insert_default {table : AuditTable Timestamp} {months : List ℤ} {month : ℤ}
    (represents : Represents table months) (fresh : month ∉ months) {row : Timestamp}
    (isHeld : zone.holds (Date.first month) (Date.first (month + 1)) row = true) :
    (table.insert zone row).defaultRows = table.defaultRows ++ [row] := by
  have unrouted : ∀ parts : List (Partition Timestamp), (∀ part ∈ parts, part ∈ table.partitions) →
      route zone row parts = none := by
    intro parts
    induction parts with
    | nil => exact fun _ => rfl
    | cons part parts ih =>
        intro areParts
        rw [List.forall_mem_cons] at areParts
        rcases represents.exists_month areParts.1 with ⟨known, isKnown, made⟩
        have elsewhere : ¬zone.holds part.lower part.upper row = true := by
          intro alsoHeld
          rw [made.lower, made.upper] at alsoHeld
          have apart : known ≠ month := by
            rintro rfl
            exact fresh isKnown
          exact not_both_hold apart row ⟨alsoHeld, isHeld⟩
        rw [route, if_neg elsewhere, ih areParts.2]
        rfl
  simp only [AuditTable.insert, unrouted table.partitions fun _ isPart => isPart]

/-- A day four months later. -/
def lapseDay : Date :=
  smallDay.addMonths 4

/-- A run whose date does not go back is made, whatever becomes of it. -/
theorem maintain_enabled (zone : Zone Timestamp) {today : Date} (history : History Timestamp)
    (ordered : ¬today.Before history.today) (args : Args) :
    ∃ next, step zone history (.maintain today args) = some next := by
  simp only [step, if_neg ordered]
  split
  · exact ⟨_, rfl⟩
  · exact ⟨_, rfl⟩

/-- An instant of the year before. -/
def oldRow : ℤ :=
  smallZone.midnight (Date.first (smallDay.index - 12))

/-- After a lapse of four months, with a row of the year before in the DEFAULT partition, the run
adds the months from that day on. -/
theorem maintenance_recovers_lapse :
    ∃ table later, upgrade smallZone smallDay [] = .ok table ∧
      exec (step smallZone) ⟨smallDay, table⟩
        [.insert smallDay oldRow, .maintain lapseDay ⟨3, 6, false⟩] = some later ∧
      (∃ part ∈ later.table.partitions, part.lower = Date.first lapseDay.index) ∧
      EachStep (step smallZone) (Recovers smallZone) ⟨smallDay, table⟩
        [.insert smallDay oldRow, .maintain lapseDay ⟨3, 6, false⟩] := by
  have isHeld : smallZone.holds (Date.first (smallDay.index - 12))
      (Date.first (smallDay.index - 12 + 1)) oldRow = true := by decide
  have isIndex : smallDay.index = 24320 := rfl
  have isLater : lapseDay.index = 24324 := rfl
  rcases upgrade_eq smallZone smallDay (by decide) [] with
    ⟨table, months, ran, represents, noRows, exactly⟩
  have fresh : smallDay.index - 12 ∉ months := by
    rw [exactly]
    decide
  have inserted : (table.insert smallZone oldRow).defaultRows = [oldRow] := by
    rw [represents.insert_default fresh isHeld]
    exact congrArg (· ++ [oldRow]) noRows
  have stepped : step smallZone ⟨smallDay, table⟩ (.insert smallDay oldRow) =
      some ⟨smallDay, table.insert smallZone oldRow⟩ := rfl
  have recovers : EachStep (step smallZone) (Recovers smallZone) ⟨smallDay, table⟩
      [.insert smallDay oldRow, .maintain lapseDay ⟨3, 6, false⟩] := by
    apply (maintenance_recovers_iff smallZone smallDay (by decide) [] table ran _).mpr
    intro before enabled
    cases stepped.symm.trans enabled
    refine ⟨trivial, ?_⟩
    intro after _
    refine ⟨?_, trivial⟩
    intro _ ahead isAhead
    have isAhead : ahead ≤ 3 := isAhead
    constructor
    · rintro _ ⟨row, isRow, alsoHeld⟩
      rw [inserted, List.mem_singleton] at isRow
      subst isRow
      exact not_both_hold (by omega) oldRow ⟨alsoHeld, isHeld⟩
    · rw [spelled_of_lt (by omega) (by omega)]
      omega
  have ordered : ¬lapseDay.Before smallDay := by decide
  rcases maintain_enabled smallZone ⟨smallDay, table.insert smallZone oldRow⟩ ordered
    ⟨3, 6, false⟩ with ⟨later, enabled⟩
  rcases (((recovers _ stepped).2 _ enabled).1.2 rfl).1 0 (Nat.zero_le _) with
    ⟨part, isPart, lower, _⟩
  refine ⟨table, later, ran, ?_, ⟨part, isPart, ?_⟩, recovers⟩
  · simp only [exec, stepped, enabled, Option.bind_some]
  · simpa using lower

/-- The first instant of its month. -/
def lapseRow : ℤ :=
  smallZone.midnight (Date.first lapseDay.index)

/-- Four months after the migration, a row of that month stops the maintenance. -/
theorem lapse_stops_maintenance :
    ¬∀ (rows : List ℤ) (table : AuditTable ℤ) (events : List (Event ℤ)),
      upgrade smallZone smallDay rows = .ok table →
        EachStep (step smallZone) (Recovers smallZone) ⟨smallDay, table⟩ events := by
  intro always
  have isHeld : smallZone.holds (Date.first lapseDay.index) (Date.first (lapseDay.index + 1))
      lapseRow = true := rfl
  rcases upgrade_eq smallZone smallDay (by decide) [] with
    ⟨table, months, ran, represents, _, exactly⟩
  have fresh : lapseDay.index ∉ months := by
    rw [exactly]
    decide
  have inserted := represents.insert_default fresh isHeld
  have stepped : step smallZone ⟨smallDay, table⟩ (.insert lapseDay lapseRow) =
      some ⟨lapseDay, table.insert smallZone lapseRow⟩ := rfl
  have recovers := (always [] table
    [.insert lapseDay lapseRow, .maintain lapseDay ⟨3, 6, false⟩] ran _ stepped).2
  rcases maintain_enabled smallZone ⟨lapseDay, table.insert smallZone lapseRow⟩
    lapseDay.not_before_self ⟨3, 6, false⟩ with ⟨next, enabled⟩
  have succeeds := (recovers next enabled).1.1
  have free := (maintain_succeeds_iff smallZone (represents.insert lapseRow) (by decide) rfl).mp
    succeeds 0 (Nat.zero_le _) fresh
  apply free
  refine ⟨lapseRow, ?_, isHeld⟩
  rw [inserted]
  exact List.mem_append_right _ List.mem_cons_self

end VisionApi.Partitions
