import VisionApi.Foundation.Fallible
import VisionApi.Foundation.Floats

/-!
# The processors that a session may use

`available_cpus` sizes the thread pool of every session from the affinity of the
process and the quota of its cgroup, which two interfaces describe in text files.

The files may be absent, unreachable, unreadable or hold any text.  Converting a text
to a number is a parameter (`Numerals`), since `float()` and `int()` accept more than
digits; the arithmetic on the numbers is that of 64-bit floats.  Some exceptions are
caught around the reader, and a division by zero and an overflow are not: `Breaks` says
on which contents one of them escapes.

`Quotes` is the specification: the number of whole processors that the files grant, by
the second version of the interface or, without its file, by the first one.  The result
is exact.  Where nothing escapes, the number of threads is at least one, at most the
affinity, and at most the quota where there is one.
-/

namespace VisionApi.Models

open Foundation

/-! ## Reading the quota -/

/-- What reading the quota raises. -/
inductive CpuError where
  | osError
  | valueError
  | zeroDivisionError
  | overflowError
deriving DecidableEq

/-- The exception of an error in float arithmetic. -/
def FloatError.toCpuError : FloatError → CpuError
  | .zeroDivision => .zeroDivisionError
  | .overflow => .overflowError
  | .notANumber => .valueError

/-- A file of the cgroup; where it is `unreachable` the test that it exists raises. -/
inductive CgroupFile where
  | absent
  | unreachable
  | unreadable
  | undecodable
  | text (content : String)
deriving DecidableEq

namespace CgroupFile

/-- `path.exists()` -/
def exists? : CgroupFile → Except CpuError Bool
  | .absent => .ok false
  | .unreachable => .error .osError
  | _ => .ok true

/-- `read_text`; the `UnicodeDecodeError` of a text that is not UTF-8 is a `ValueError`. -/
def readText : CgroupFile → Except CpuError String
  | .text content => .ok content
  | .undecodable => .error .valueError
  | _ => .error .osError

end CgroupFile

/-- The three files that describe a quota. -/
structure CgroupFiles where
  v2Quota : CgroupFile
  v1Quota : CgroupFile
  v1Period : CgroupFile
deriving DecidableEq

/-- `float` and `int` of a text; `none` is a `ValueError`. -/
structure Numerals where
  float : String → Option Double
  int : String → Option ℤ

/-- What `str.split()` splits at. -/
def isWhitespace (char : Char) : Bool :=
  let code := char.toNat
  (9 ≤ code && code ≤ 13) || (28 ≤ code && code ≤ 32) || code == 133 || code == 160 ||
    code == 5760 || (8192 ≤ code && code ≤ 8202) || code == 8232 || code == 8233 ||
    code == 8239 || code == 8287 || code == 12288

/-- `text.split()`. -/
def words (text : String) : List String :=
  ((text.toList.splitOnP isWhitespace).filter fun word => !word.isEmpty).map String.ofList

/-- A conversion that may fail. -/
def orValueError {Value : Type} : Option Value → Except CpuError Value
  | some value => .ok value
  | none => .error .valueError

/-- The quota of the second interface: a quota and a period, or `max`. -/
def readV2 (numerals : Numerals) (file : CgroupFile) : Except CpuError (Option ℤ) := do
  match words (← file.readText) with
  | [rawQuota, rawPeriod] =>
      if rawQuota = "max" then return none
      else
        let quota ← orValueError (numerals.float rawQuota)
        let period ← orValueError (numerals.float rawPeriod)
        let whole ← (quota.intQuotient period).mapError FloatError.toCpuError
        return some (max 1 whole)
  | _ => throw .valueError

/-- The quota of the older interface, where a negative one means that there is none. -/
def readV1 (numerals : Numerals) (quotaFile periodFile : CgroupFile) :
    Except CpuError (Option ℤ) := do
  let micros ← orValueError (numerals.int (← quotaFile.readText))
  if micros ≤ 0 then return none
  else
    let period ← orValueError (numerals.int (← periodFile.readText))
    if period = 0 then throw .zeroDivisionError
    else return some (max 1 (micros.fdiv period))

/-- The body of the `try` of `_cgroup_cpu_quota`. -/
def readQuota (numerals : Numerals) (files : CgroupFiles) : Except CpuError (Option ℤ) := do
  if ← files.v2Quota.exists? then
    readV2 numerals files.v2Quota
  else if ← files.v1Quota.exists? then
    if ← files.v1Period.exists? then
      readV1 numerals files.v1Quota files.v1Period
    else return none
  else return none

/-- `except (OSError, ValueError)`. -/
def CpuError.isCaught : CpuError → Bool
  | .osError => true
  | .valueError => true
  | _ => false

/-- The quota, or none if reading it raises what is caught. -/
def cgroupCpuQuota (numerals : Numerals) (files : CgroupFiles) : Except CpuError (Option ℤ) :=
  match readQuota numerals files with
  | .ok quota => .ok quota
  -- Neither `ZeroDivisionError` nor `OverflowError` is listed.
  | .error error => if error.isCaught then .ok none else .error error

/-- `limit or 1`; the affinity is `none` on a platform that has none. -/
def hostLimit (affinity cpuCount : Option ℕ) : ℕ :=
  let limit := (affinity.or cpuCount).getD 0
  if limit = 0 then 1 else limit

/-- The number of processors, within the affinity and the quota. -/
def availableCpus (numerals : Numerals) (affinity cpuCount : Option ℕ) (files : CgroupFiles) :
    Except CpuError ℤ := do
  let limit : ℤ := hostLimit affinity cpuCount
  match ← cgroupCpuQuota numerals files with
  | none => return max 1 limit
  | some quota => return max 1 (min limit quota)

/-! ## Errors that are not caught -/

section Reading

variable {numerals : Numerals} {files : CgroupFiles} {file quotaFile periodFile : CgroupFile}
  {error : CpuError}

/-- A period of zero, or a quotient that no integer is the integer part of. -/
inductive Breaks (numerals : Numerals) (files : CgroupFiles) : Prop where
  | v2 {text rawQuota rawPeriod : String} {quota period : Double}
      (hasText : files.v2Quota = .text text) (twoWords : words text = [rawQuota, rawPeriod])
      (capped : rawQuota ≠ "max") (isQuota : numerals.float rawQuota = some quota)
      (isPeriod : numerals.float rawPeriod = some period) (raises : quota.Raises period)
  | v1 {quotaText periodText : String} {micros : ℤ} (noV2 : files.v2Quota = .absent)
      (hasQuota : files.v1Quota = .text quotaText) (hasPeriod : files.v1Period = .text periodText)
      (isQuota : numerals.int quotaText = some micros) (capped : 0 < micros)
      (isPeriod : numerals.int periodText = some 0)

theorem exists?_error (fails : file.exists? = .error error) : error.isCaught = true := by
  cases file <;> cases fails
  rfl

theorem readText_error (fails : file.readText = .error error) : error.isCaught = true := by
  cases file <;> cases fails <;> rfl

/-- A file is read exactly if it holds a text. -/
theorem readText_ok {content : String} : file.readText = .ok content ↔ file = .text content := by
  cases file <;> simp [CgroupFile.readText]

/-- A file does not exist exactly if it is absent. -/
theorem exists?_false : file.exists? = .ok false ↔ file = .absent := by
  cases file <;> simp [CgroupFile.exists?]

theorem orValueError_error {Value : Type} {value : Option Value}
    (fails : orValueError value = .error error) : error.isCaught = true := by
  cases value <;> cases fails
  rfl

theorem orValueError_ok {Value : Type} {option : Option Value} {value : Value} :
    orValueError option = .ok value ↔ option = some value := by
  cases option <;> simp [orValueError]

/-- Where it raises, division raises what is not caught. -/
theorem intQuotient_uncaught {quota period : Double}
    (fails : (quota.intQuotient period).mapError FloatError.toCpuError = .error error) :
    error.isCaught = false ↔ quota.Raises period := by
  rcases Double.intQuotient_cases quota period with
    ⟨raises, other, isError, isNumber⟩ | ⟨accepted, isError | ⟨whole, isWhole⟩⟩
  · rw [isError] at fails
    cases fails
    apply iff_of_true _ raises
    cases other with
    | zeroDivision => rfl
    | overflow => rfl
    | notANumber => exact absurd rfl isNumber
  · rw [isError] at fails
    cases fails
    apply iff_of_false _ accepted
    simp [FloatError.toCpuError, CpuError.isCaught]
  · rw [isWhole] at fails
    cases fails

theorem intQuotient_raises {quota period : Double} (raises : quota.Raises period) :
    ∃ error, (quota.intQuotient period).mapError FloatError.toCpuError = .error error := by
  rcases Double.intQuotient_cases quota period with ⟨_, error, isError, _⟩ | ⟨accepted, _⟩
  · exact ⟨_, by rw [isError]; rfl⟩
  · exact absurd raises accepted

/-! ### The newer interface -/

/-- An exception that escapes comes from the division of two numbers. -/
theorem readV2_uncaught (fails : readV2 numerals file = .error error)
    (uncaught : error.isCaught = false) :
    ∃ text rawQuota rawPeriod quota period, file = .text text ∧
      words text = [rawQuota, rawPeriod] ∧ rawQuota ≠ "max" ∧
      numerals.float rawQuota = some quota ∧ numerals.float rawPeriod = some period ∧
      quota.Raises period := by
  simp only [readV2, bind_error_iff] at fails
  rcases fails with noText | ⟨text, hasText, fails⟩
  · simp [readText_error noText] at uncaught
  split at fails
  · rename_i rawQuota rawPeriod twoWords
    split at fails
    · cases fails
    · rename_i capped
      simp only [bind_error_iff, orValueError_ok] at fails
      rcases fails with noQuota | ⟨quota, isQuota, noPeriod | ⟨period, isPeriod, fails⟩⟩
      · simp [orValueError_error noQuota] at uncaught
      · simp [orValueError_error noPeriod] at uncaught
      · rcases fails with raised | ⟨whole, _, fails⟩
        · exact ⟨text, rawQuota, rawPeriod, quota, period, readText_ok.mp hasText, twoWords,
            capped, isQuota, isPeriod, (intQuotient_uncaught raised).mp uncaught⟩
        · cases fails
  · cases fails
    cases uncaught

/-- What is read from a quota and a period. -/
theorem readV2_two_words {text rawQuota rawPeriod : String} {quota period : Double}
    (twoWords : words text = [rawQuota, rawPeriod]) (capped : rawQuota ≠ "max")
    (isQuota : numerals.float rawQuota = some quota)
    (isPeriod : numerals.float rawPeriod = some period) :
    readV2 numerals (.text text) =
      ((quota.intQuotient period).mapError FloatError.toCpuError).map
        fun whole => some (max 1 whole) := by
  simp only [readV2, CgroupFile.readText, bind, Except.bind, twoWords, if_neg capped, isQuota,
    isPeriod, orValueError]
  rfl

/-! ### The older interface -/

theorem readV1_uncaught (fails : readV1 numerals quotaFile periodFile = .error error)
    (uncaught : error.isCaught = false) :
    ∃ quotaText periodText micros, quotaFile = .text quotaText ∧ periodFile = .text periodText ∧
      numerals.int quotaText = some micros ∧ 0 < micros ∧ numerals.int periodText = some 0 := by
  simp only [readV1, bind_error_iff, orValueError_ok] at fails
  rcases fails with noText | ⟨quotaText, hasQuota, noQuota | ⟨micros, isQuota, fails⟩⟩
  · simp [readText_error noText] at uncaught
  · simp [orValueError_error noQuota] at uncaught
  split at fails
  · cases fails
  · rename_i capped
    simp only [bind_error_iff, orValueError_ok] at fails
    rcases fails with noText | ⟨periodText, hasPeriod, noPeriod | ⟨period, isPeriod, fails⟩⟩
    · simp [readText_error noText] at uncaught
    · simp [orValueError_error noPeriod] at uncaught
    split at fails
    · rename_i isZero
      subst period
      exact ⟨quotaText, periodText, micros, readText_ok.mp hasQuota, readText_ok.mp hasPeriod,
        isQuota, lt_of_not_ge capped, isPeriod⟩
    · cases fails

theorem readV1_capped {quotaText periodText : String} {micros period : ℤ}
    (isQuota : numerals.int quotaText = some micros) (capped : 0 < micros)
    (isPeriod : numerals.int periodText = some period) :
    readV1 numerals (.text quotaText) (.text periodText) =
      if period = 0 then .error .zeroDivisionError
      else .ok (some (max 1 (micros.fdiv period))) := by
  simp only [readV1, CgroupFile.readText, bind, Except.bind, isQuota, isPeriod, orValueError,
    if_neg (not_le.mpr capped)]
  rfl

/-! ### Both -/

theorem readQuota_v2 {text : String} (hasText : files.v2Quota = .text text) :
    readQuota numerals files = readV2 numerals (.text text) := by
  rw [readQuota, hasText]
  rfl

theorem readQuota_v1 {quotaText periodText : String} (noV2 : files.v2Quota = .absent)
    (hasQuota : files.v1Quota = .text quotaText) (hasPeriod : files.v1Period = .text periodText) :
    readQuota numerals files = readV1 numerals (.text quotaText) (.text periodText) := by
  rw [readQuota, noV2, hasQuota, hasPeriod]
  rfl

/-- An exception escapes exactly where the files break the reader. -/
theorem breaks_iff : Breaks numerals files ↔
    ∃ error, readQuota numerals files = .error error ∧ error.isCaught = false := by
  constructor
  · intro breaks
    cases breaks with
    | v2 hasText twoWords capped isQuota isPeriod raises =>
        rcases intQuotient_raises raises with ⟨error, raised⟩
        refine ⟨error, ?_, (intQuotient_uncaught raised).mpr raises⟩
        rw [readQuota_v2 hasText, readV2_two_words twoWords capped isQuota isPeriod, raised]
        rfl
    | v1 noV2 hasQuota hasPeriod isQuota capped isPeriod =>
        refine ⟨.zeroDivisionError, ?_, rfl⟩
        rw [readQuota_v1 noV2 hasQuota hasPeriod, readV1_capped isQuota capped isPeriod]
        rfl
  · rintro ⟨error, fails, uncaught⟩
    simp only [readQuota, bind_error_iff] at fails
    rcases fails with noFile | ⟨hasV2, isThere, fails⟩
    · simp [exists?_error noFile] at uncaught
    cases hasV2 with
    | true =>
        rcases readV2_uncaught fails uncaught with ⟨text, rawQuota, rawPeriod, quota, period,
          hasText, twoWords, capped, isQuota, isPeriod, raises⟩
        exact .v2 hasText twoWords capped isQuota isPeriod raises
    | false =>
        simp only [Bool.false_eq_true, if_false, bind_error_iff] at fails
        rcases fails with noFile | ⟨hasV1, _, fails⟩
        · simp [exists?_error noFile] at uncaught
        cases hasV1 with
        | false => cases fails
        | true =>
            simp only [if_true, bind_error_iff] at fails
            rcases fails with noFile | ⟨hasPeriod, _, fails⟩
            · simp [exists?_error noFile] at uncaught
            cases hasPeriod with
            | false => cases fails
            | true =>
                rcases readV1_uncaught fails uncaught with
                  ⟨quotaText, periodText, micros, isText, isPeriodText, isQuota, capped, isZero⟩
                exact .v1 (exists?_false.mp isThere) isText isPeriodText isQuota capped isZero

end Reading

/-! ## The result -/

section Result

variable {numerals : Numerals} {files : CgroupFiles} {affinity : ℕ} {cpuCount : Option ℕ}

/-- The files parse as a positive quota and a positive period, whose quotient is rounded down.  The
quotient of two floats is a float, that of two integers is exact. -/
inductive Quotes (numerals : Numerals) (files : CgroupFiles) : ℤ → Prop where
  | v2 {text rawQuota rawPeriod : String} {quota quotient : ℚ} {period : Double}
      (hasText : files.v2Quota = .text text) (twoWords : words text = [rawQuota, rawPeriod])
      (capped : rawQuota ≠ "max") (isQuota : numerals.float rawQuota = some (.finite quota))
      (positive : 0 < quota) (isPeriod : numerals.float rawPeriod = some period)
      (periodPositive : period.Positive)
      (divides : (Double.finite quota).div period = .ok (.finite quotient)) :
      Quotes numerals files ⌊quotient⌋
  | v1 {quotaText periodText : String} {micros period : ℤ} (noV2 : files.v2Quota = .absent)
      (hasQuota : files.v1Quota = .text quotaText) (hasPeriod : files.v1Period = .text periodText)
      (isQuota : numerals.int quotaText = some micros) (positive : 0 < micros)
      (isPeriod : numerals.int periodText = some period) (periodPositive : 0 < period) :
      Quotes numerals files ⌊(micros : ℚ) / period⌋

theorem readQuota_of_quotes {whole : ℤ} (quotes : Quotes numerals files whole) :
    readQuota numerals files = .ok (some (max 1 whole)) := by
  cases quotes with
  | v2 hasText twoWords capped isQuota positive isPeriod periodPositive divides =>
      rw [readQuota_v2 hasText, readV2_two_words twoWords capped isQuota isPeriod,
        Double.intQuotient_of_positive positive periodPositive divides]
      rfl
  | @v1 _ _ micros period noV2 hasQuota hasPeriod isQuota positive isPeriod periodPositive =>
      have floor : ⌊(micros : ℚ) / period⌋ = micros.fdiv period := by
        rw [Int.floor_div_cast_of_nonneg periodPositive.le, Int.floor_intCast,
          Int.fdiv_eq_ediv_of_nonneg _ periodPositive.le]
      rw [readQuota_v1 noV2 hasQuota hasPeriod, readV1_capped isQuota positive isPeriod,
        if_neg periodPositive.ne', floor]

/-- An integer between 1 and the affinity is returned, which is that of the quota where the files
parse. -/
def Bounded (numerals : Numerals) (affinity : ℕ) (cpuCount : Option ℕ) (files : CgroupFiles) :
    Prop :=
  ∃ cpus, availableCpus numerals (some affinity) cpuCount files = .ok cpus ∧
    1 ≤ cpus ∧ cpus ≤ affinity ∧
    ∀ whole, Quotes numerals files whole → cpus = max 1 (min (affinity : ℤ) whole)

theorem availableCpus_of_quota {quota : Option ℤ}
    (found : cgroupCpuQuota numerals files = .ok quota) (positive : 1 ≤ affinity) :
    availableCpus numerals (some affinity) cpuCount files =
      .ok (max 1 (quota.elim (affinity : ℤ) (min (affinity : ℤ)))) := by
  have limit : hostLimit (some affinity) cpuCount = affinity := by
    have notZero : affinity ≠ 0 := by omega
    simp [hostLimit, notZero]
  simp only [availableCpus, found, limit, bind, Except.bind]
  cases quota with
  | none => rfl
  | some quota => rfl

theorem bounded_of_quota {quota : Option ℤ} (found : cgroupCpuQuota numerals files = .ok quota)
    (positive : 1 ≤ affinity)
    (quoted : ∀ whole, Quotes numerals files whole → quota = some (max 1 whole)) :
    Bounded numerals affinity cpuCount files := by
  refine ⟨_, availableCpus_of_quota found positive, le_max_left _ _, ?_, ?_⟩
  · cases quota with
    | none => simp; omega
    | some quota => simp; omega
  · intro whole quotes
    rw [quoted whole quotes]
    simp only [Option.elim]
    omega

/-- The number of processors is found unless a period is zero or the quotient is infinite. -/
theorem availableCpus_bounded_iff (positive : 1 ≤ affinity) :
    Bounded numerals affinity cpuCount files ↔ ¬Breaks numerals files := by
  rcases isRead : readQuota numerals files with error | quota
  · rcases isCaught : error.isCaught with _ | _
    · have breaks : Breaks numerals files := breaks_iff.mpr ⟨error, isRead, isCaught⟩
      apply iff_of_false _ (not_not.mpr breaks)
      rintro ⟨cpus, returns, _⟩
      simp [availableCpus, cgroupCpuQuota, isRead, isCaught, bind, Except.bind] at returns
    · apply iff_of_true
      · have found : cgroupCpuQuota numerals files = .ok none := by
          simp [cgroupCpuQuota, isRead, isCaught]
        apply bounded_of_quota found positive
        intro whole quotes
        rw [readQuota_of_quotes quotes] at isRead
        cases isRead
      · intro breaks
        rcases breaks_iff.mp breaks with ⟨other, alsoRead, uncaught⟩
        rw [isRead] at alsoRead
        cases alsoRead
        simp [isCaught] at uncaught
  · apply iff_of_true
    · have found : cgroupCpuQuota numerals files = .ok quota := by
        simp [cgroupCpuQuota, isRead]
      apply bounded_of_quota found positive
      intro whole quotes
      rw [readQuota_of_quotes quotes] at isRead
      cases isRead
      rfl
    · intro breaks
      rcases breaks_iff.mp breaks with ⟨other, alsoRead, _⟩
      rw [isRead] at alsoRead
      cases alsoRead

/-- Of whole microseconds the quotient is exact. -/
theorem quotes_of_microseconds {text rawQuota rawPeriod : String} {quota period : ℕ}
    (hasText : files.v2Quota = .text text) (twoWords : words text = [rawQuota, rawPeriod])
    (capped : rawQuota ≠ "max") (isQuota : numerals.float rawQuota = some (.finite quota))
    (isPeriod : numerals.float rawPeriod = some (.finite period)) (positive : 0 < quota)
    (periodPositive : 0 < period) (short : 2 * quota < 2 ^ 53) :
    Quotes numerals files ((quota / period : ℕ) : ℤ) := by
  rw [← floor_nearest_div (K := ℚ) positive periodPositive short]
  apply Quotes.v2 hasText twoWords capped isQuota _ isPeriod _
    (Double.div_of_short periodPositive short)
  · exact_mod_cast positive
  · have cast : (0 : ℚ) < period := by exact_mod_cast periodPositive
    exact cast

end Result

/-! ## Decimal numerals -/

/-- A number of digits only. -/
def decimal (text : String) : Option ℕ :=
  if !text.isEmpty && text.toList.all Char.isDigit then some (Nat.ofDigitChars 10 text.toList 0)
  else none

/-- Numbers written with digits. -/
def decimalNumerals : Numerals where
  float := fun text => (decimal text).map fun value => .finite value
  int := fun text => (decimal text).map fun value => value

/-- A quota of two processors. -/
theorem availableCpus_bounded_two :
    Bounded decimalNumerals 8 none ⟨.text "200000 100000", .absent, .absent⟩ := by
  apply (availableCpus_bounded_iff (by omega)).mpr
  intro breaks
  cases breaks with
  | @v2 text rawQuota rawPeriod quota period hasText twoWords _ isQuota isPeriod raises =>
      cases hasText
      have isWords : words "200000 100000" = ["200000", "100000"] := by decide
      rw [isWords] at twoWords
      cases twoWords
      have quotaRead : decimalNumerals.float "200000" = some (.finite ((200000 : ℕ) : ℚ)) := rfl
      have periodRead : decimalNumerals.float "100000" = some (.finite ((100000 : ℕ) : ℚ)) := rfl
      rw [quotaRead] at isQuota
      rw [periodRead] at isPeriod
      cases isQuota
      cases isPeriod
      exact Double.not_raises_of_short (by omega) (by omega) raises
  | v1 noV2 => cases noV2

/-- A period of zero is an error that is not caught. -/
theorem availableCpus_zero_period :
    availableCpus decimalNumerals (some 8) none ⟨.text "50000 0", .absent, .absent⟩ =
        .error .zeroDivisionError ∧
      ¬Bounded decimalNumerals 8 none ⟨.text "50000 0", .absent, .absent⟩ := by
  have raised : availableCpus decimalNumerals (some 8) none
      ⟨.text "50000 0", .absent, .absent⟩ = .error .zeroDivisionError := rfl
  refine ⟨raised, ?_⟩
  rintro ⟨cpus, returns, _⟩
  rw [raised] at returns
  cases returns

end VisionApi.Models
