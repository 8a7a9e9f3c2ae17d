import VisionApi.Partitions.Maintenance

/-!
# The rows of the audit table

Creating partitions moves no row, and retention drops exactly the rows of monthly
partitions that lie before its cutoff.  Over a whole history no other row is lost,
and the downgrade copies out all that is left.

Rows are compared as lists up to permutation, so that equal timestamps count as often
as they occur.  Two invariants carry the history: every row of a monthly partition lies
in its range (`InRange`), which makes the rows that retention drops those of a time
span, and the partitions are those of distinct months.

A row is accounted for if it is in the table, or lies before the cutoff of a run that
was carried out.  `Stored` puts the invariants and the account together; each event
keeps it, and the whole history keeps it by induction on the events.  As the names of
the partitions keep the year modulo ten thousand, all months have years of four digits.
-/

namespace VisionApi.Partitions

open Foundation

variable {Timestamp : Type}

/-! ## Rows of a table -/

/-- The rows of the monthly partitions. -/
def AuditTable.monthlyRows (table : AuditTable Timestamp) : List Timestamp :=
  table.partitions.flatMap Partition.rows

/-- `SELECT .. FROM inference_logs` -/
def AuditTable.rows (table : AuditTable Timestamp) : List Timestamp :=
  table.monthlyRows ++ table.defaultRows

/-- `downgrade`: the rows of the plain table. -/
def downgrade (table : AuditTable Timestamp) : List Timestamp :=
  table.rows

variable [LinearOrder Timestamp] (zone : Zone Timestamp)

/-- Every row of a monthly partition lies in its range. -/
def InRange (table : AuditTable Timestamp) : Prop :=
  ∀ part ∈ table.partitions, ∀ row ∈ part.rows,
    zone.holds part.lower part.upper row = true

variable {zone} {table : AuditTable Timestamp}

/-! ## Inserting -/

section Insert

variable {row : Timestamp}

theorem flatMap_route {parts next : List (Partition Timestamp)}
    (routed : route zone row parts = some next) :
    (next.flatMap Partition.rows).Perm (row :: parts.flatMap Partition.rows) := by
  induction parts generalizing next with
  | nil => cases routed
  | cons part parts ih =>
      simp only [route] at routed
      split at routed
      · cases routed
        simp only [List.flatMap_cons, List.append_assoc, List.singleton_append]
        exact List.perm_middle
      · rcases Option.map_eq_some_iff.mp routed with ⟨rest, isRest, rfl⟩
        simp only [List.flatMap_cons]
        exact ((ih isRest).append_left part.rows).trans List.perm_middle

theorem inRange_route {parts next : List (Partition Timestamp)}
    (inRange : ∀ part ∈ parts, ∀ row ∈ part.rows, zone.holds part.lower part.upper row = true)
    (routed : route zone row parts = some next) :
    ∀ part ∈ next, ∀ row ∈ part.rows, zone.holds part.lower part.upper row = true := by
  induction parts generalizing next with
  | nil => cases routed
  | cons part parts ih =>
      rw [List.forall_mem_cons] at inRange
      simp only [route] at routed
      split at routed
      · rename_i holds
        cases routed
        rw [List.forall_mem_cons]
        refine ⟨?_, inRange.2⟩
        intro other isRow
        rcases List.mem_append.mp isRow with isOld | isNew
        · exact inRange.1 other isOld
        · rw [List.mem_singleton.mp isNew]
          exact holds
      · rcases Option.map_eq_some_iff.mp routed with ⟨rest, isRest, rfl⟩
        rw [List.forall_mem_cons]
        exact ⟨inRange.1, ih inRange.2 isRest⟩

/-- An inserted row is added, to one partition. -/
theorem rows_insert (table : AuditTable Timestamp) (row : Timestamp) :
    (table.insert zone row).rows.Perm (row :: table.rows) := by
  simp only [AuditTable.insert, AuditTable.rows, AuditTable.monthlyRows]
  split
  · rename_i partitions routed
    exact (flatMap_route routed).append_right table.defaultRows
  · rw [← List.append_assoc]
    exact List.perm_append_singleton row _

/-- An inserted row keeps the rows in their ranges. -/
theorem InRange.insert (inRange : InRange zone table) (row : Timestamp) :
    InRange zone (table.insert zone row) := by
  simp only [AuditTable.insert]
  split
  · rename_i partitions routed
    exact inRange_route inRange routed
  · exact inRange

theorem rows_foldl_insert (table : AuditTable Timestamp) (rows : List Timestamp) :
    (rows.foldl (AuditTable.insert zone) table).rows.Perm (rows ++ table.rows) := by
  induction rows generalizing table with
  | nil => exact List.Perm.refl _
  | cons row rows ih =>
      have first : (table.insert zone row).rows.Perm (row :: table.rows) := rows_insert table row
      exact (ih _).trans ((first.append_left rows).trans List.perm_middle)

theorem InRange.foldl_insert (inRange : InRange zone table) (rows : List Timestamp) :
    InRange zone (rows.foldl (AuditTable.insert zone) table) := by
  induction rows generalizing table with
  | nil => exact inRange
  | cons row rows ih => exact ih (inRange.insert row)

end Insert

/-! ## Creating -/

section Create

variable {today : Date} {next : AuditTable Timestamp} {names : List String}

/-- The rows stay where they are. -/
structure SameRows (zone : Zone Timestamp) (before after : AuditTable Timestamp) : Prop where
  monthly : after.monthlyRows = before.monthlyRows
  default : after.defaultRows = before.defaultRows
  inRange : InRange zone before → InRange zone after

theorem createMonth_sameRows {offset : ℤ}
    (ran : table.createMonth zone today offset = .ok (next, names)) :
    SameRows zone table next := by
  simp only [AuditTable.createMonth] at ran
  split at ran
  · cases ran
    exact ⟨rfl, rfl, id⟩
  · rcases bind_ok_iff.mp ran with ⟨grown, created, returned⟩
    cases returned
    simp only [AuditTable.createPartition] at created
    split at created
    · cases created
    · split at created
      · cases created
      · cases created
        refine ⟨by simp [AuditTable.monthlyRows], rfl, ?_⟩
        intro inRange part isPart row isRow
        rcases List.mem_append.mp isPart with isOld | isNew
        · exact inRange part isOld row isRow
        · rw [List.mem_singleton.mp isNew] at isRow
          cases isRow

theorem createMonths_sameRows {offsets : List ℤ}
    (ran : table.createMonths zone today offsets = .ok (next, names)) :
    SameRows zone table next := by
  induction offsets generalizing table names with
  | nil =>
      cases ran
      exact ⟨rfl, rfl, id⟩
  | cons offset offsets ih =>
      rcases createMonths_cons_ok_iff.mp ran with ⟨grown, created, others, first, rest, _⟩
      have here : SameRows zone table grown := createMonth_sameRows first
      have later : SameRows zone grown next := ih rest
      exact ⟨later.monthly.trans here.monthly, later.default.trans here.default,
        fun inRange => later.inRange (here.inRange inRange)⟩

end Create

/-! ## Dropping -/

section Drop

variable {months : List ℤ}

/-- The first instant that a maintenance run retains. -/
def cutoff (zone : Zone Timestamp) (today : Date) (retainMonths : ℕ) : Timestamp :=
  zone.midnight (Date.first (today.index - retainMonths))

/-- A partition lies before the cutoff or after it, with all its rows. -/
theorem rows_filter {month other : ℤ} {part : Partition Timestamp} (made : MadeFor month part)
    (inRange : ∀ row ∈ part.rows, zone.holds part.lower part.upper row = true) :
    part.rows.filter (fun row => zone.midnight (Date.first other) ≤ row) =
      if month < other then [] else part.rows := by
  rw [made.lower, made.upper] at inRange
  split
  · rename_i earlier
    apply List.filter_eq_nil_iff.mpr
    intro row isRow
    rw [decide_eq_true_eq, not_le]
    exact holds_before_iff.mpr earlier row (inRange row isRow)
  · rename_i notEarlier
    apply List.filter_eq_self.mpr
    intro row isRow
    have isHeld := inRange row isRow
    simp only [Zone.holds, Bool.and_eq_true, decide_eq_true_eq] at isHeld
    rw [decide_eq_true_eq]
    have ordered : other < month ∨ other = month := by omega
    rcases ordered with before | rfl
    · exact (zone.increasing (Date.before_first_iff.mpr before)).le.trans isHeld.1
    · exact isHeld.1

omit [LinearOrder Timestamp] in
/-- Dropping whole partitions filters the rows where no partition is kept in part. -/
theorem flatMap_rows_filter {parts : List (Partition Timestamp)} {keeps : Timestamp → Bool}
    {drops : Partition Timestamp → Prop} [DecidablePred drops]
    (whole : ∀ part ∈ parts, part.rows.filter keeps = if drops part then [] else part.rows) :
    (parts.filter fun part => ¬drops part).flatMap Partition.rows =
      (parts.flatMap Partition.rows).filter keeps := by
  induction parts with
  | nil => rfl
  | cons part parts ih =>
      rw [List.forall_mem_cons] at whole
      rw [List.flatMap_cons, List.filter_append, whole.1, ← ih whole.2]
      by_cases dropped : drops part
      · simp [dropped]
      · simp [dropped]

/-- Retention drops exactly the rows of monthly partitions before its cutoff. -/
theorem dropExpired_rows (represents : Represents table months)
    (short : ∀ month ∈ months, month < 120000) (inRange : InRange zone table) (today : Date)
    (retainMonths : ℕ) {kept : AuditTable Timestamp} {dropped : List String}
    (ran : table.dropExpired today retainMonths = .ok (kept, dropped)) :
    kept.monthlyRows =
        table.monthlyRows.filter (fun row => cutoff zone today retainMonths ≤ row) ∧
      kept.defaultRows = table.defaultRows ∧ InRange zone kept := by
  have spell : ∀ part ∈ table.partitions, toDate (right part.name 7) = some part.lower := by
    intro part isPart
    rcases represents.exists_month isPart with ⟨month, isMonth, made⟩
    rw [made.name, made.lower, toDate_right_partName (represents.anno month isMonth),
      spelled_of_lt (represents.anno month isMonth) (short month isMonth)]
  cases ran.symm.trans (dropExpired_eq Partition.lower spell)
  refine ⟨?_, rfl, ?_⟩
  · apply flatMap_rows_filter
    intro part isPart
    rcases represents.exists_month isPart with ⟨month, _, made⟩
    simp only [made.lower, Date.before_first_iff]
    exact rows_filter made (inRange part isPart)
  · intro part isPart
    exact inRange part (List.mem_filter.mp isPart).1

end Drop

/-! ## Histories -/

/-- The months that an event creates have years of four digits. -/
def InFourDigits : Event Timestamp → Prop
  | .insert _ _ => True
  | .maintain today args => today.index + args.monthsAhead < 120000

/-- The rows that some events insert. -/
def inserted : List (Event Timestamp) → List Timestamp
  | [] => []
  | .insert _ row :: events => row :: inserted events
  | .maintain _ _ :: events => inserted events

omit [LinearOrder Timestamp] in
theorem inserted_cons (event : Event Timestamp) (events : List (Event Timestamp)) :
    inserted (event :: events) = inserted [event] ++ inserted events := by
  cases event with
  | insert today row => rfl
  | maintain today args => rfl

/-- The event is a maintenance run whose cutoff the row lies before. -/
def Expires (zone : Zone Timestamp) (event : Event Timestamp) (row : Timestamp) : Prop :=
  match event with
  | .insert _ _ => False
  | .maintain today args => args.dryRun = false ∧ row < cutoff zone today args.retainMonths

/-- A maintenance run that is neither a dry one nor rolled back. -/
def CarriedOut (zone : Zone Timestamp) (table : AuditTable Timestamp) (today : Date)
    (args : Args) : Prop :=
  args.dryRun = false ∧ Succeeds (table.maintain zone today args)

/-- An insert adds its row; a maintenance run drops, if it is carried out, exactly the expired rows
of monthly partitions. -/
def Accounts (zone : Zone Timestamp) (before : History Timestamp) (event : Event Timestamp)
    (after : History Timestamp) : Prop :=
  match event with
  | .insert _ row => after.table.rows.Perm (row :: before.table.rows)
  | .maintain today args =>
      (CarriedOut zone before.table today args →
        after.table.monthlyRows = before.table.monthlyRows.filter
            (fun row => cutoff zone today args.retainMonths ≤ row) ∧
          after.table.defaultRows = before.table.defaultRows) ∧
      (¬CarriedOut zone before.table today args → after.table = before.table)

/-- Every row is in a partition of its month or in the DEFAULT one. -/
structure Stored (zone : Zone Timestamp) (history : History Timestamp) : Prop where
  anno : 12 ≤ history.today.index
  represents : ∃ months, Represents history.table months ∧ ∀ month ∈ months, month < 120000
  inRange : InRange zone history.table

section Histories

/-- A maintenance run keeps what is stored, but for what it drops. -/
theorem maintain_stored {today : Date} {args : Args} {months : List ℤ}
    (represents : Represents table months) (short : ∀ month ∈ months, month < 120000)
    (inRange : InRange zone table) (anno : 12 ≤ today.index) (real : args.dryRun = false)
    (ahead : today.index + args.monthsAhead < 120000) {next : AuditTable Timestamp}
    {report : Report} (ran : table.maintain zone today args = .ok (next, report)) :
    (next.monthlyRows = table.monthlyRows.filter
        (fun row => cutoff zone today args.retainMonths ≤ row) ∧
      next.defaultRows = table.defaultRows) ∧ Stored zone ⟨today, next⟩ := by
  rcases maintain_represents represents anno real ran with ⟨later, isLater, exactly⟩
  have laterShort : ∀ month ∈ later, month < 120000 := by
    intro month isMonth
    rcases ((exactly month).mp isMonth).1 with isOld | ⟨offset, isOffset, rfl⟩
    · exact short month isOld
    · omega
  rcases (maintain_ok_iff real).mp ran with ⟨grown, created, dropped, creates, drops, _⟩
  have same : SameRows zone table grown := createMonths_sameRows creates
  rcases createMonths_represents represents (anno_offsets anno) creates with
    ⟨between, isGrown, _, months⟩
  have grownShort : ∀ month ∈ between, month < 120000 := by
    intro month isMonth
    rcases (months month).mp isMonth with isOld | ⟨offset, isOffset, rfl⟩
    · exact short month isOld
    · rcases mem_offsets_iff.mp isOffset with ⟨distance, isDistance, rfl⟩
      omega
  have kept := dropExpired_rows isGrown grownShort (same.inRange inRange) today
    args.retainMonths drops
  rw [same.monthly, same.default] at kept
  exact ⟨⟨kept.1, kept.2.1⟩, anno, ⟨later, isLater, laterShort⟩, kept.2.2⟩

/-- Every step accounts for its rows. -/
theorem Stored.step {before after : History Timestamp} {event : Event Timestamp}
    (stored : Stored zone before) (short : InFourDigits event)
    (stepped : step zone before event = some after) :
    Accounts zone before event after ∧ Stored zone after := by
  rcases stored with ⟨anno, ⟨months, represents, isShort⟩, inRange⟩
  cases event with
  | insert today row =>
      simp only [Partitions.step] at stepped
      split at stepped
      · cases stepped
      · rename_i ordered
        cases stepped
        exact ⟨rows_insert before.table row, anno.trans (Date.index_le_of_not_before ordered),
          ⟨months, represents.insert row, isShort⟩, inRange.insert row⟩
  | maintain today args =>
      simp only [Partitions.step] at stepped
      split at stepped
      · cases stepped
      · rename_i ordered
        have later : 12 ≤ today.index := anno.trans (Date.index_le_of_not_before ordered)
        have unchanged : Stored zone ⟨today, before.table⟩ :=
          ⟨later, ⟨months, represents, isShort⟩, inRange⟩
        split at stepped
        · rename_i table report ran
          cases stepped
          cases real : args.dryRun with
          | true =>
              simp only [AuditTable.maintain, real, if_true] at ran
              cases ran
              refine ⟨⟨?_, fun _ => rfl⟩, unchanged⟩
              rintro ⟨notDry, _⟩
              cases real.symm.trans notDry
          | false =>
              rcases maintain_stored represents isShort inRange later real short ran with
                ⟨drops, stored⟩
              exact ⟨⟨fun _ => drops, fun aborted => absurd ⟨real, _, ran⟩ aborted⟩, stored⟩
        · rename_i error failed
          cases stepped
          refine ⟨⟨?_, fun _ => rfl⟩, unchanged⟩
          rintro ⟨_, succeeds⟩
          rw [failed] at succeeds
          exact absurd succeeds (not_succeeds_error error)

/-- What is not in the table any more was dropped by a maintenance run as expired. -/
theorem Accounts.conserves {before after : History Timestamp} {event : Event Timestamp}
    (accounts : Accounts zone before event after) :
    ∃ dropped, (after.table.rows ++ dropped).Perm (inserted [event] ++ before.table.rows) ∧
      ∀ row ∈ dropped, Expires zone event row := by
  cases event with
  | insert today row =>
      refine ⟨[], ?_, List.forall_mem_nil _⟩
      rw [List.append_nil]
      exact accounts
  | maintain today args =>
      by_cases carriedOut : CarriedOut zone before.table today args
      · rcases accounts.1 carriedOut with ⟨monthly, default⟩
        refine ⟨before.table.monthlyRows.filter fun row =>
          !decide (cutoff zone today args.retainMonths ≤ row), ?_, ?_⟩
        · have parts := List.filter_append_perm
            (fun row => decide (cutoff zone today args.retainMonths ≤ row))
            before.table.monthlyRows
          simp only [AuditTable.rows, monthly, default, inserted, List.nil_append,
            List.append_assoc]
          apply (List.Perm.append_left _ List.perm_append_comm).trans
          rw [← List.append_assoc]
          exact parts.append_right before.table.defaultRows
        · intro row isRow
          have expired := (List.mem_filter.mp isRow).2
          rw [Bool.not_eq_true', decide_eq_false_iff_not, not_le] at expired
          exact ⟨carriedOut.1, expired⟩
      · refine ⟨[], ?_, List.forall_mem_nil _⟩
        rw [List.append_nil, accounts.2 carriedOut]
        exact List.Perm.refl _

/-- Every step of a run accounts for its rows. -/
theorem Stored.accounts {history : History Timestamp} {events : List (Event Timestamp)}
    (stored : Stored zone history) (short : ∀ event ∈ events, InFourDigits event) :
    EachStep (Partitions.step zone) (Accounts zone) history events := by
  induction events generalizing history with
  | nil => trivial
  | cons event events ih =>
      rw [List.forall_mem_cons] at short
      intro next stepped
      rcases stored.step short.1 stepped with ⟨accounts, nextStored⟩
      exact ⟨accounts, ih nextStored short.2⟩

/-- Over a run, what was in the table and what was inserted is in the table or has expired. -/
theorem Stored.conserves {history final : History Timestamp} {events : List (Event Timestamp)}
    (stored : Stored zone history) (short : ∀ event ∈ events, InFourDigits event)
    (ran : exec (Partitions.step zone) history events = some final) :
    ∃ dropped, (final.table.rows ++ dropped).Perm (inserted events ++ history.table.rows) ∧
      ∀ row ∈ dropped, ∃ event ∈ events, Expires zone event row := by
  induction events generalizing history with
  | nil =>
      cases ran
      exact ⟨[], by simp [inserted], List.forall_mem_nil _⟩
  | cons event events ih =>
      rw [List.forall_mem_cons] at short
      simp only [exec, Option.bind_eq_some_iff] at ran
      rcases ran with ⟨next, stepped, rest⟩
      rcases stored.step short.1 stepped with ⟨accounts, nextStored⟩
      rcases accounts.conserves with ⟨now, sameNow, expiredNow⟩
      rcases ih nextStored short.2 rest with ⟨later, sameLater, expiredLater⟩
      refine ⟨later ++ now, ?_, ?_⟩
      · calc (final.table.rows ++ (later ++ now)).Perm
              (inserted events ++ next.table.rows ++ now) := by
                rw [← List.append_assoc]
                exact sameLater.append_right now
          List.Perm _ (inserted events ++ (inserted [event] ++ history.table.rows)) := by
                rw [List.append_assoc]
                exact sameNow.append_left _
          List.Perm _ (inserted (event :: events) ++ history.table.rows) := by
                rw [inserted_cons event events, ← List.append_assoc]
                exact List.perm_append_comm.append_right _
      · intro row isRow
        rcases List.mem_append.mp isRow with isLater | isNow
        · rcases expiredLater row isLater with ⟨other, isOther, expires⟩
          exact ⟨other, List.mem_cons_of_mem _ isOther, expires⟩
        · exact ⟨event, List.mem_cons_self, expiredNow row isNow⟩

end Histories

/-- The migration stores the rows of the old table. -/
theorem upgrade_stored (zone : Zone Timestamp) (start : Date) (clock : 1970 ≤ start.year)
    (short : start.index + 3 < 120000) (rows : List Timestamp) {table : AuditTable Timestamp}
    (migrated : upgrade zone start rows = .ok table) :
    table.rows.Perm rows ∧ Stored zone ⟨start, table⟩ := by
  have isMonth := start.month_valid
  have anno : 18 ≤ start.index := by
    simp only [Date.index]
    omega
  have inYears : ∀ offset ∈ initialOffsets,
      12 ≤ start.index + offset ∧ start.index + offset < 120000 := by
    intro offset isOffset
    simp only [initialOffsets, List.mem_cons, List.not_mem_nil, or_false] at isOffset
    omega
  have empty : Represents (⟨[], []⟩ : AuditTable Timestamp) [] :=
    ⟨rfl, List.nodup_nil, List.forall_mem_nil _⟩
  rcases bind_ok_iff.mp migrated with ⟨⟨initial, names⟩, ran, returned⟩
  cases returned
  have same : SameRows zone ⟨[], []⟩ initial := createMonths_sameRows ran
  rcases createMonths_represents empty (fun offset isOffset => (inYears offset isOffset).1) ran with
    ⟨months, represents, _, exactly⟩
  have noRows : initial.rows = [] := by
    rw [AuditTable.rows, same.monthly, same.default]
    rfl
  refine ⟨?_, le_trans (by decide) anno, ⟨months, represents.foldl_insert rows, ?_⟩, ?_⟩
  · have inserts := @rows_foldl_insert Timestamp _ zone initial rows
    rwa [noRows, List.append_nil] at inserts
  · intro month isMonth
    rcases (exactly month).mp isMonth with isOld | ⟨offset, isOffset, rfl⟩
    · cases isOld
    · exact (inYears offset isOffset).2
  · exact (same.inRange (List.forall_mem_nil _)).foldl_insert rows

/-- From the migration on, whatever is inserted and whichever maintenance runs are carried out, each
step adds its row or drops exactly the expired rows of monthly partitions, so that every row of the
old table and every inserted row is in the table or has expired; the downgrade copies out the
former. -/
theorem audit_rows_conserved (zone : Zone Timestamp) (start : Date) (clock : 1970 ≤ start.year)
    (short : start.index + 3 < 120000) (rows : List Timestamp) (table : AuditTable Timestamp)
    (migrated : upgrade zone start rows = .ok table) (events : List (Event Timestamp))
    (alsoShort : ∀ event ∈ events, InFourDigits event) :
    EachStep (step zone) (Accounts zone) ⟨start, table⟩ events ∧
      ∀ final, exec (step zone) ⟨start, table⟩ events = some final →
        ∃ dropped, (downgrade final.table ++ dropped).Perm (inserted events ++ rows) ∧
          ∀ row ∈ dropped, ∃ event ∈ events, Expires zone event row := by
  rcases upgrade_stored zone start clock short rows migrated with ⟨sameRows, stored⟩
  refine ⟨stored.accounts alsoShort, ?_⟩
  intro final ran
  rcases stored.conserves alsoShort ran with ⟨dropped, same, expired⟩
  exact ⟨dropped, same.trans (sameRows.append_left _), expired⟩

/-- A row of the old table, five months before the migration, expires four months after it. -/
theorem audit_rows_conserved_small :
    ∃ table final, upgrade smallZone smallDay [smallMidnight (Date.first 24315)] = .ok table ∧
      exec (step smallZone) ⟨smallDay, table⟩ [.maintain lapseDay ⟨3, 4, false⟩] = some final ∧
      downgrade final.table = [] ∧
      ∃ dropped : List ℤ, dropped.Perm [smallMidnight (Date.first 24315)] ∧ ∀ row ∈ dropped,
        ∃ event ∈ [Event.maintain lapseDay ⟨3, 4, false⟩], Expires smallZone event row := by
  have ran : ∃ table final,
      upgrade smallZone smallDay [smallMidnight (Date.first 24315)] = .ok table ∧
      exec (step smallZone) ⟨smallDay, table⟩ [.maintain lapseDay ⟨3, 4, false⟩] = some final ∧
      downgrade final.table = [] := ⟨_, _, rfl, rfl, rfl⟩
  rcases ran with ⟨table, final, migrated, executed, isEmpty⟩
  have short : ∀ event ∈ [Event.maintain lapseDay ⟨3, 4, false⟩],
      @InFourDigits ℤ event := by
    intro event isEvent
    rw [List.mem_singleton.mp isEvent]
    have isIndex : lapseDay.index = 24324 := rfl
    simp [InFourDigits, isIndex]
  have conserved := (audit_rows_conserved smallZone smallDay (by decide) (by decide) _ table
    migrated _ short).2 final executed
  rw [isEmpty] at conserved
  exact ⟨table, final, migrated, executed, isEmpty, conserved⟩

end VisionApi.Partitions
