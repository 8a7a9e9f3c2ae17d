import Mathlib.Logic.Function.Basic
import VisionApi.Foundation.Digits
import VisionApi.Foundation.Fallible
import VisionApi.Foundation.Floats
import VisionApi.Foundation.Search

/-!
# Figures quoted in documents

`sync_docs` writes the table of measured latencies between two markers of every
document that quotes them, or only checks that the table there is current.

Texts are lists of characters, read with universal newlines.  A document is what comes
before the first marker, a region, and what comes after the second one (`delegated`),
where the parts are such that searching finds these markers (`Delegates`).  Applying a
block replaces the region and nothing else (`applyBlock_delegated`), and the result is
again of this form if the block has no markers.

Hence applying the block a second time changes nothing.  What the script writes has no
markers because labels, numbers and the rest of a row have none (`plain_render`): a
plain text has no angle bracket that could begin a marker.  Only that the formatting of
numbers is plain is assumed, as part of `Formats`.

The loop over the documents writes one after the other, so that after a call that
returns all of them are fresh, and fresh documents are neither stale nor written.
-/

namespace VisionApi.Docs

open Foundation

/-- The characters of a text. -/
abbrev Text := List Char

/-- The marker in front of the region. -/
def beginMarker : Text := "<!-- BEGIN:headline-latency -->".toList

/-- The marker behind it. -/
def endMarker : Text := "<!-- END:headline-latency -->".toList

/-- The line that warns of edits. -/
def notice : Text :=
  "<!-- Generated by scripts/sync_docs.py; edits here are overwritten. -->".toList

/-- The documents that quote the table. -/
def targets : List String :=
  ["README.md", "docs/README.md", "docs/technical-writeup.md", "benchmarks/ANALYSIS.md"]

/-- Why the script ends. -/
inductive SyncError where
  | systemExit (message : String)
  | fileNotFound (path : String)
  | division (error : FloatError)
deriving DecidableEq

/-! ## The table -/

/-- A row of the measured results, as far as it is read. -/
structure ResultRow where
  model : String
  backend : String
  precision : String
  batchSize : ℤ
  meanMs : Double
  throughputIps : Double

/-- What is formatted as a number has no bracket and no line break in it. -/
def Plain (text : Text) : Prop :=
  '<' ∉ text ∧ '\r' ∉ text

/-- The formats `:.2f` and `:,.0f`. -/
structure Formats where
  fixed : Double → Text
  grouped : Double → Text
  fixed_plain : ∀ value, Plain (fixed value)
  grouped_plain : ∀ value, Plain (grouped value)

/-- The batch size that is quoted. -/
def batchSize : ℤ := ((32 : ℕ) : ℤ)

/-- The backends of the table with their labels. -/
def tableRows : List (String × String × String) :=
  [("pytorch-cuda", "fp32", "PyTorch eager FP32"),
    ("pytorch-cuda", "bf16", "PyTorch eager bf16"),
    ("onnxruntime-tensorrt", "fp16", "**TensorRT FP16**"),
    ("onnxruntime-cuda", "fp32", "ONNX Runtime CUDA FP32"),
    ("onnxruntime-cpu", "int8", "ONNX Runtime CPU INT8")]

/-- `indexed.get((backend, precision))`; the last of several such rows stays in the dictionary. -/
def indexed (results : List ResultRow) (backend precision : String) : Option ResultRow :=
  results.reverse.find? fun row =>
    row.model == "classifier" && row.batchSize == batchSize && row.backend == backend &&
      row.precision == precision

/-- A text in bold. -/
def bold (text : Text) : Text :=
  "**".toList ++ text ++ "**".toList

/-- A cell of a row that may be in bold. -/
def cell (isBold : Bool) (text : Text) : Text :=
  if isBold then bold text else text

/-- The line of a backend, with its speedup over the baseline. -/
def renderRow (formats : Formats) (label : String) (baseline row : ResultRow) :
    Except SyncError Text := do
  let speedup ← (baseline.meanMs.div row.meanMs).mapError .division
  let isBold := "**".toList.isPrefixOf label.toList
  return "| ".toList ++ label.toList ++ " | ".toList ++
    cell isBold (formats.fixed row.meanMs ++ " ms".toList) ++ " | ".toList ++
    cell isBold (formats.grouped row.throughputIps ++ " img/s".toList) ++ " | ".toList ++
    cell isBold (formats.fixed speedup ++ "x".toList) ++ " |".toList

/-- The lines of the backends that were measured. -/
def renderRows (formats : Formats) (results : List ResultRow) (baseline : ResultRow) :
    List (String × String × String) → Except SyncError (List Text)
  | [] => .ok []
  | (backend, precision, label) :: rows =>
      match indexed results backend precision with
      | none => renderRows formats results baseline rows
      | some row => do
          let line ← renderRow formats label baseline row
          let lines ← renderRows formats results baseline rows
          return line :: lines

/-- The head of the table. -/
def tableHead : List Text :=
  ["| Backend | Latency | Throughput | Speedup |".toList, "| --- | ---: | ---: | ---: |".toList]

/-- The table, if there is a baseline. -/
def render (formats : Formats) (results : List ResultRow) : Except SyncError Text :=
  match indexed results "pytorch-cuda" "fp32" with
  | none =>
      .error (.systemExit ("benchmarks/results.json has no pytorch-cuda fp32 row at batch 32; " ++
        "the speedup column has no baseline to divide by."))
  | some baseline => do
      let lines ← renderRows formats results baseline tableRows
      return ['\n'].intercalate (tableHead ++ lines)

/-! ## The block of a document -/

/-- What is written between the markers. -/
def generated (block : Text) : Text :=
  '\n' :: (notice ++ '\n' :: '\n' :: (block ++ ['\n', '\n']))

/-- Replace what is between the markers. -/
def applyBlock (text block : Text) (path : String) : Except SyncError Text :=
  match find beginMarker text, find endMarker text with
  | some start, some stop =>
      if stop < start then
        .error (.systemExit (path ++ " has " ++ String.ofList endMarker ++ " before " ++
          String.ofList beginMarker))
      else
        .ok (text.take (start + beginMarker.length) ++ generated block ++ text.drop stop)
  | _, _ =>
      .error (.systemExit (path ++ " has no " ++ String.ofList beginMarker ++ " / " ++
        String.ofList endMarker ++ " block"))

/-! ## The script -/

/-- `read_text` turns every line break into `\n`. -/
def universalNewlines : Text → Text
  | [] => []
  | '\r' :: '\n' :: rest => '\n' :: universalNewlines rest
  | '\r' :: rest => '\n' :: universalNewlines rest
  | char :: rest => char :: universalNewlines rest

/-- The contents of the documents by path. -/
abbrev Documents := String → Option Text

/-- The loop over the documents, with those that were stale. -/
def syncDocuments (check : Bool) (block : Text) :
    List String → Documents → Except SyncError (List String) × Documents
  | [], documents => (.ok [], documents)
  | path :: paths, documents =>
      match documents path with
      | none => (.error (.fileNotFound path), documents)
      | some content =>
          match applyBlock (universalNewlines content) block path with
          | .error error => (.error error, documents)
          | .ok updated =>
              if universalNewlines content = updated then
                syncDocuments check block paths documents
              else
                let written :=
                  if check then documents else Function.update documents path (some updated)
                let rest := syncDocuments check block paths written
                (rest.1.map (path :: ·), rest.2)

/-- The exit status and what is printed. -/
structure Outcome where
  status : ℕ
  printed : List String
deriving DecidableEq

/-- What is printed about the stale documents. -/
def report (check : Bool) (stale : List String) : Outcome :=
  let listed := stale.map fun path => "  " ++ path
  if check && !stale.isEmpty then
    ⟨1, "Out of date with benchmarks/results.json:" :: listed ++
      ["\nRegenerate with:  uv run python scripts/sync_docs.py"]⟩
  else if !stale.isEmpty then ⟨0, "Updated:" :: listed⟩
  else ⟨0, ["All documents are current."]⟩

/-- `main`; the results are `none` where their file does not exist. -/
def main (formats : Formats) (check : Bool) (path : String) (results : Option (List ResultRow))
    (documents : Documents) : Except SyncError Outcome × Documents :=
  match results with
  | none =>
      (.error (.systemExit (path ++ " not found. Generate it with:\n" ++
        "  uv run python -m models.optimisation.run_benchmarks --models all")), documents)
  | some rows =>
      match render formats rows with
      | .error error => (.error error, documents)
      | .ok block =>
          let synced := syncDocuments check block targets documents
          (synced.1.map (report check), synced.2)

/-! ## Regenerating a block -/

section Block

variable {text before region after block : Text} {path : String}

/-- No marker occurs in the block. -/
def NoMarkers (block : Text) : Prop :=
  ¬beginMarker <:+: block ∧ ¬endMarker <:+: block

/-- The first `BEGIN` comes before the first `END`. -/
def Marked (text : Text) : Prop :=
  ∃ start stop, find beginMarker text = some start ∧ find endMarker text = some stop ∧ start < stop

/-- The text before and including the first `BEGIN`. -/
def upToBegin (text : Text) : Option Text :=
  (find beginMarker text).map fun start => text.take (start + beginMarker.length)

/-- The text from the first `END` onward. -/
def fromEnd (text : Text) : Option Text :=
  (find endMarker text).map fun stop => text.drop stop

/-- A document with its region between the first markers. -/
def delegated (before region after : Text) : Text :=
  before ++ beginMarker ++ region ++ endMarker ++ after

/-- The markers around the region are the first ones. -/
structure Delegates (before region : Text) : Prop where
  first_begin : FirstAfter beginMarker before
  first_end : FirstAfter endMarker (before ++ beginMarker ++ region)

theorem beginMarker_ne_nil : beginMarker ≠ [] := by
  decide

theorem endMarker_ne_nil : endMarker ≠ [] := by
  decide

/-- The first marker is found where it stands. -/
theorem find_begin (delegates : Delegates before region) :
    find beginMarker (delegated before region after) = some before.length := by
  have found := find_append (region ++ endMarker ++ after) delegates.first_begin
  simpa only [delegated, List.append_assoc] using found

/-- The second marker is found where it stands. -/
theorem find_end (delegates : Delegates before region) :
    find endMarker (delegated before region after) =
      some (before ++ beginMarker ++ region).length :=
  find_append after delegates.first_end

theorem upToBegin_delegated (delegates : Delegates before region) :
    upToBegin (delegated before region after) = some (before ++ beginMarker) := by
  have size : before.length + beginMarker.length = (before ++ beginMarker).length := by
    rw [List.length_append]
  rw [upToBegin, find_begin delegates, Option.map_some, size, delegated, List.append_assoc,
    List.append_assoc, List.take_left]

theorem fromEnd_delegated (delegates : Delegates before region) :
    fromEnd (delegated before region after) = some (endMarker ++ after) := by
  rw [fromEnd, find_end delegates, Option.map_some, delegated,
    List.append_assoc (before ++ beginMarker ++ region), List.drop_left]

theorem applyBlock_delegated (delegates : Delegates before region) :
    applyBlock (delegated before region after) block path =
      .ok (delegated before (generated block) after) := by
  have head : upToBegin (delegated before region after) = some (before ++ beginMarker) :=
    upToBegin_delegated delegates
  have tail : fromEnd (delegated before region after) = some (endMarker ++ after) :=
    fromEnd_delegated delegates
  rw [upToBegin, find_begin delegates, Option.map_some, Option.some.injEq] at head
  rw [fromEnd, find_end delegates, Option.map_some, Option.some.injEq] at tail
  have ordered : ¬(before ++ beginMarker ++ region).length < before.length := by
    simp only [List.length_append]
    omega
  simp only [applyBlock, find_begin delegates, find_end delegates, if_neg ordered, head, tail]
  simp only [delegated, List.append_assoc]

/-- The generated region is found again. -/
theorem delegates_generated (delegates : Delegates before region) (plain : NoMarkers block) :
    Delegates before (generated block) := by
  refine ⟨delegates.first_begin, ?_⟩
  -- The marker has no line break, so an occurrence lies between two of them.
  have newline : '\n' ∉ endMarker := by decide
  intro occurs
  have parts : before ++ beginMarker ++ generated block ++ endMarker.dropLast =
      (before ++ beginMarker) ++ '\n' :: (notice ++ '\n' :: ([] ++ '\n' :: (block ++ '\n' ::
        ([] ++ '\n' :: endMarker.dropLast)))) := by
    simp [generated]
  rw [parts] at occurs
  rcases infix_of_separator newline occurs with inHead | occurs
  · apply delegates.first_end
    rw [List.append_assoc (before ++ beginMarker)]
    exact inHead.trans (List.prefix_append _ _).isInfix
  rcases infix_of_separator newline occurs with inNotice | occurs
  · have colon : ':' ∈ endMarker := by decide
    have noColon : ':' ∉ notice := by decide
    exact noColon (inNotice.subset colon)
  rcases infix_of_separator newline occurs with inNothing | occurs
  · exact absurd inNothing (by decide)
  rcases infix_of_separator newline occurs with inBlock | occurs
  · exact plain.2 inBlock
  rcases infix_of_separator newline occurs with inNothing | inMarker
  · exact absurd inNothing (by decide)
  · exact absurd inMarker.length_le (by decide)

theorem eq_delegated_of_marked (marked : Marked text) :
    ∃ before region after, text = delegated before region after ∧ Delegates before region := by
  rcases marked with ⟨start, stop, foundBegin, foundEnd, ordered⟩
  rcases eq_append_of_find beginMarker_ne_nil foundBegin with
    ⟨before, rest, isText, rfl, firstBegin⟩
  rcases eq_append_of_find endMarker_ne_nil foundEnd with ⟨outer, after, isAlso, rfl, firstEnd⟩
  have apart : (before ++ beginMarker).length ≤ outer.length := by
    have both : before ++ beginMarker ++ rest = outer ++ endMarker ++ after :=
      isText.symm.trans isAlso
    have bracket : endMarker.head? = some '<' := by decide
    exact length_le_of_occurrences bracket (by decide) both ordered
  have first : before ++ beginMarker <+: text := ⟨rest, isText.symm⟩
  have second : outer <+: text := ⟨endMarker ++ after, by rw [isAlso, List.append_assoc]⟩
  rcases List.prefix_of_prefix_length_le first second apart with ⟨region, rfl⟩
  exact ⟨before, region, after, isAlso, firstBegin, firstEnd⟩

/-- What a block can be written over starts before it ends. -/
theorem marked_of_applyBlock {updated : Text} (applied : applyBlock text block path = .ok updated) :
    Marked text := by
  rw [applyBlock] at applied
  split at applied
  · rename_i start stop foundBegin foundEnd
    split at applied
    · cases applied
    · rename_i notBefore
      refine ⟨start, stop, foundBegin, foundEnd, lt_of_le_of_ne (not_lt.mp notBefore) ?_⟩
      rintro rfl
      rcases eq_append_of_find beginMarker_ne_nil foundBegin with ⟨before, rest, isText, isStart, _⟩
      rcases eq_append_of_find endMarker_ne_nil foundEnd with ⟨outer, after, isAlso, isStop, _⟩
      have both : before ++ (beginMarker ++ rest) = outer ++ (endMarker ++ after) := by
        rw [← List.append_assoc, ← List.append_assoc, ← isText, ← isAlso]
      have same := (List.append_inj both (isStart.trans isStop.symm)).2
      have sixth : (beginMarker ++ rest)[5]? = (endMarker ++ after)[5]? := by rw [same]
      rw [List.getElem?_append_left (by decide), List.getElem?_append_left (by decide)] at sixth
      exact absurd sixth (by decide)
  · cases applied

/-- Writing a block over a document leaves all but the block as it was, and a second block replaces
the first one as it would have replaced what was there. -/
theorem applyBlock_regenerates (marked : Marked text) (plain : NoMarkers block) (path : String) :
    ∃ updated, applyBlock text block path = .ok updated ∧
      upToBegin updated = upToBegin text ∧ fromEnd updated = fromEnd text ∧
      ∀ other otherPath, applyBlock updated other otherPath = applyBlock text other otherPath := by
  rcases eq_delegated_of_marked marked with ⟨before, region, after, rfl, delegates⟩
  have generates := delegates_generated delegates plain
  refine ⟨_, applyBlock_delegated delegates, ?_, ?_, ?_⟩
  · rw [upToBegin_delegated delegates, upToBegin_delegated generates]
  · rw [fromEnd_delegated delegates, fromEnd_delegated generates]
  · intro other otherPath
    rw [applyBlock_delegated delegates, applyBlock_delegated generates]

/-- A second application changes nothing. -/
theorem applyBlock_idempotent {updated : Text} (plain : NoMarkers block)
    (applied : applyBlock text block path = .ok updated) :
    applyBlock updated block path = .ok updated := by
  rcases applyBlock_regenerates (marked_of_applyBlock applied) plain path with
    ⟨also, alsoApplied, _, _, same⟩
  rw [applied, Except.ok.injEq] at alsoApplied
  rw [alsoApplied, same, applied, alsoApplied]

end Block

/-! ## Texts without brackets -/

section Rendering

variable {formats : Formats} {results : List ResultRow}

theorem plain_append {left right : Text} :
    Plain (left ++ right) ↔ Plain left ∧ Plain right := by
  simp only [Plain, List.mem_append, not_or]
  tauto

theorem plain_of_all {text : Text}
    (all : text.all (fun char => char != '<' && char != '\r') = true) : Plain text := by
  rw [List.all_eq_true] at all
  constructor
  · intro isBracket
    simpa using all _ isBracket
  · intro isReturn
    simpa using all _ isReturn

/-- A plain text has no markers. -/
theorem Plain.noMarkers {block : Text} (plain : Plain block) : NoMarkers block := by
  constructor
  · intro occurs
    exact plain.1 (occurs.subset (by decide))
  · intro occurs
    exact plain.1 (occurs.subset (by decide))

theorem plain_cell {text : Text} (isBold : Bool) (plain : Plain text) :
    Plain (cell isBold text) := by
  have stars : Plain "**".toList := plain_of_all rfl
  cases isBold with
  | false => exact plain
  | true => exact plain_append.mpr ⟨plain_append.mpr ⟨stars, plain⟩, stars⟩

theorem plain_intercalate {lines : List Text} (plain : ∀ line ∈ lines, Plain line) :
    Plain (['\n'].intercalate lines) := by
  have newline : Plain ['\n'] := plain_of_all rfl
  induction lines with
  | nil => exact ⟨List.not_mem_nil, List.not_mem_nil⟩
  | cons line lines ih =>
      have first := plain line List.mem_cons_self
      have rest := ih fun other isLater => plain other (List.mem_cons_of_mem _ isLater)
      cases lines with
      | nil =>
          rw [List.intercalate_singleton]
          exact first
      | cons next lines =>
          rw [List.intercalate_cons_cons, plain_append, plain_append]
          exact ⟨⟨first, newline⟩, rest⟩

theorem plain_renderRow {label : String} {baseline row : ResultRow} {line : Text}
    (isPlain : Plain label.toList)
    (rendered : renderRow formats label baseline row = .ok line) : Plain line := by
  rw [renderRow, bind_ok_iff] at rendered
  rcases rendered with ⟨speedup, _, isLine⟩
  cases isLine
  simp only [plain_append]
  have latency : Plain (formats.fixed row.meanMs ++ " ms".toList) :=
    plain_append.mpr ⟨formats.fixed_plain _, plain_of_all rfl⟩
  have throughput : Plain (formats.grouped row.throughputIps ++ " img/s".toList) :=
    plain_append.mpr ⟨formats.grouped_plain _, plain_of_all rfl⟩
  have ratio : Plain (formats.fixed speedup ++ "x".toList) :=
    plain_append.mpr ⟨formats.fixed_plain _, plain_of_all rfl⟩
  have bar : Plain " | ".toList := plain_of_all rfl
  refine ⟨⟨⟨⟨⟨⟨⟨⟨?_, isPlain⟩, bar⟩, plain_cell _ latency⟩, bar⟩, plain_cell _ throughput⟩, bar⟩,
    plain_cell _ ratio⟩, ?_⟩
  · exact plain_of_all rfl
  · exact plain_of_all rfl

theorem plain_renderRows {baseline : ResultRow} {rows : List (String × String × String)}
    {lines : List Text} (labels : ∀ row ∈ rows, Plain row.2.2.toList)
    (rendered : renderRows formats results baseline rows = .ok lines) :
    ∀ line ∈ lines, Plain line := by
  induction rows generalizing lines with
  | nil =>
      cases rendered
      intro line isLine
      cases isLine
  | cons row rows ih =>
      have rest : ∀ row ∈ rows, Plain row.2.2.toList :=
        fun other isLater => labels other (List.mem_cons_of_mem _ isLater)
      rcases row with ⟨backend, precision, label⟩
      rw [renderRows] at rendered
      split at rendered
      · exact ih rest rendered
      · simp only [bind_ok_iff] at rendered
        rcases rendered with ⟨line, isLine, more, areLines, isAll⟩
        cases isAll
        intro other isOther
        rcases List.mem_cons.mp isOther with rfl | isLater
        · exact plain_renderRow (labels _ List.mem_cons_self) isLine
        · exact ih rest areLines other isLater

/-- The table is plain. -/
theorem plain_render {block : Text} (rendered : render formats results = .ok block) :
    Plain block := by
  rw [render] at rendered
  split at rendered
  · cases rendered
  · rw [bind_ok_iff] at rendered
    rcases rendered with ⟨lines, areLines, isBlock⟩
    cases isBlock
    have labels : ∀ row ∈ tableRows, Plain row.2.2.toList := by
      unfold Plain
      decide
    have heads : ∀ line ∈ tableHead, Plain line := by
      unfold Plain
      decide
    apply plain_intercalate
    intro line isLine
    rcases List.mem_append.mp isLine with isHead | isRow
    · exact heads line isHead
    · exact plain_renderRows labels areLines line isRow

end Rendering

/-! ## Checking after writing -/

section Checking

variable {text block : Text} {path : String} {paths : List String} {documents : Documents}

theorem not_mem_universalNewlines (text : Text) : '\r' ∉ universalNewlines text := by
  fun_induction universalNewlines text with
  | case1 => simp
  | case2 rest ih => simp [ih]
  | case3 rest notPair ih => simp [ih]
  | case4 char rest notPair notReturn ih =>
      rw [List.mem_cons, not_or]
      exact ⟨fun isReturn => notReturn isReturn.symm, ih⟩

theorem universalNewlines_of_not_mem (noReturn : '\r' ∉ text) : universalNewlines text = text := by
  fun_induction universalNewlines text with
  | case1 => rfl
  | case2 rest ih => exact absurd List.mem_cons_self noReturn
  | case3 rest notPair ih => exact absurd List.mem_cons_self noReturn
  | case4 char rest notPair notReturn ih => rw [ih (List.not_mem_of_not_mem_cons noReturn)]

/-- A document that was written has no carriage returns. -/
theorem not_mem_applyBlock {updated : Text} (plain : Plain block) (noReturn : '\r' ∉ text)
    (applied : applyBlock text block path = .ok updated) : '\r' ∉ updated := by
  rcases eq_delegated_of_marked (marked_of_applyBlock applied) with
    ⟨before, region, after, rfl, delegates⟩
  rw [applyBlock_delegated delegates, Except.ok.injEq] at applied
  subst updated
  have inBegin : '\r' ∉ beginMarker := by decide
  have inEnd : '\r' ∉ endMarker := by decide
  have inNotice : '\r' ∉ notice := by decide
  have inGenerated : '\r' ∉ generated block := by
    simp [generated, inNotice, plain.2]
  simp only [delegated, List.mem_append, not_or] at noReturn ⊢
  exact ⟨⟨⟨⟨noReturn.1.1.1.1, inBegin⟩, inGenerated⟩, inEnd⟩, noReturn.2⟩

/-- The document has the block. -/
def Fresh (block : Text) (documents : Documents) (path : String) : Prop :=
  ∃ content, documents path = some content ∧
    applyBlock (universalNewlines content) block path = .ok (universalNewlines content)

/-- A document is fresh once it was written. -/
theorem fresh_written {content updated : Text} (plain : Plain block)
    (applied : applyBlock (universalNewlines content) block path = .ok updated) :
    Fresh block (Function.update documents path (some updated)) path := by
  have noReturn := not_mem_applyBlock plain (not_mem_universalNewlines content) applied
  refine ⟨updated, Function.update_self .., ?_⟩
  rw [universalNewlines_of_not_mem noReturn]
  exact applyBlock_idempotent plain.noMarkers applied

/-- After a call that returns, every document is fresh. -/
theorem fresh_of_sync {stale : List String} {written : Documents} (plain : Plain block)
    (synced : syncDocuments false block paths documents = (.ok stale, written)) :
    (∀ path ∈ paths, Fresh block written path) ∧
      ∀ path, Fresh block documents path → Fresh block written path := by
  induction paths generalizing documents stale with
  | nil =>
      cases synced
      exact ⟨fun path isPath => absurd isPath List.not_mem_nil, fun _ fresh => fresh⟩
  | cons path paths ih =>
      rw [syncDocuments] at synced
      split at synced
      · cases synced
      rename_i content isDocument
      split at synced
      · cases synced
      rename_i updated applied
      split at synced
      · rename_i isCurrent
        rcases ih synced with ⟨rest, kept⟩
        refine ⟨?_, kept⟩
        intro other isOther
        rcases List.mem_cons.mp isOther with rfl | isLater
        · exact kept other ⟨content, isDocument, by rw [applied, ← isCurrent]⟩
        · exact rest other isLater
      · have freshHere : Fresh block (Function.update documents path (some updated)) path :=
          fresh_written plain applied
        simp only [Bool.false_eq_true, if_false, Prod.mk.injEq] at synced
        rcases map_ok_iff.mp synced.1 with ⟨later, isLater, _⟩
        rcases ih (Prod.ext isLater synced.2) with ⟨rest, kept⟩
        refine ⟨?_, ?_⟩
        · intro other isOther
          rcases List.mem_cons.mp isOther with rfl | isLater
          · exact kept other freshHere
          · exact rest other isLater
        · intro other fresh
          apply kept
          by_cases isHere : other = path
          · rw [isHere]
            exact freshHere
          · rcases fresh with ⟨text, isText, applies⟩
            exact ⟨text, (Function.update_of_ne isHere ..).trans isText, applies⟩

/-- Fresh documents are left alone. -/
theorem sync_of_fresh {check : Bool} (fresh : ∀ path ∈ paths, Fresh block documents path) :
    syncDocuments check block paths documents = (.ok [], documents) := by
  induction paths with
  | nil => rfl
  | cons path paths ih =>
      rcases fresh path List.mem_cons_self with ⟨content, isDocument, applied⟩
      simp only [syncDocuments, isDocument, applied, if_true]
      exact ih fun other isLater => fresh other (List.mem_cons_of_mem _ isLater)

theorem sync_of_marked {check : Bool} (plain : Plain block)
    (marked : ∀ path ∈ paths, ∃ content, documents path = some content ∧
      Marked (universalNewlines content)) :
    ∃ stale written, syncDocuments check block paths documents = (.ok stale, written) := by
  induction paths generalizing documents with
  | nil => exact ⟨_, _, rfl⟩
  | cons path paths ih =>
      rcases marked path List.mem_cons_self with ⟨content, isDocument, isMarked⟩
      have later := fun other isLater => marked other (List.mem_cons_of_mem path isLater)
      rcases applyBlock_regenerates isMarked plain.noMarkers path with ⟨updated, applied, _⟩
      have alsoMarked := marked_of_applyBlock (applyBlock_idempotent plain.noMarkers applied)
      have noReturn := not_mem_applyBlock plain (not_mem_universalNewlines content) applied
      simp only [syncDocuments, isDocument, applied]
      split
      · exact ih later
      · have writtenMarked : ∀ other ∈ paths, ∃ text,
            (if check then documents else Function.update documents path (some updated)) other =
              some text ∧ Marked (universalNewlines text) := by
          intro other isLater
          cases check with
          | true => exact later other isLater
          | false =>
              by_cases isHere : other = path
              · refine ⟨updated, by simp [isHere], ?_⟩
                rw [universalNewlines_of_not_mem noReturn]
                exact alsoMarked
              · rcases later other isLater with ⟨text, isText, textMarked⟩
                exact ⟨text, by simp [isHere, isText], textMarked⟩
        rcases ih writtenMarked with ⟨stale, written, synced⟩
        rw [synced]
        exact ⟨_, _, rfl⟩

variable {formats : Formats} {results : Option (List ResultRow)} {resultsPath : String}

theorem check_after_write {outcome : Outcome} {written : Documents}
    (returned : main formats false resultsPath results documents = (.ok outcome, written)) :
    main formats true resultsPath results written =
      (.ok ⟨0, ["All documents are current."]⟩, written) := by
  cases results with
  | none => cases returned
  | some rows =>
      simp only [main] at returned ⊢
      split at returned
      · cases returned
      rename_i block rendered
      rw [Prod.mk.injEq] at returned
      rcases map_ok_iff.mp returned.1 with ⟨stale, isStale, _⟩
      have fresh := (fresh_of_sync (plain_render rendered) (Prod.ext isStale returned.2)).1
      simp only [sync_of_fresh fresh]
      rfl

/-- Where the results render and every document has the markers in order, a run returns. -/
theorem main_returns {check : Bool} {rows : List ResultRow}
    (rendered : render formats rows = .ok block)
    (marked : ∀ path ∈ targets, ∃ content, documents path = some content ∧
      Marked (universalNewlines content)) :
    ∃ outcome written,
      main formats check resultsPath (some rows) documents = (.ok outcome, written) := by
  have returns : ∃ stale written,
      syncDocuments check block targets documents = (.ok stale, written) :=
    sync_of_marked (plain_render rendered) marked
  rcases returns with ⟨stale, written, synced⟩
  refine ⟨report check stale, written, ?_⟩
  simp only [main, rendered, synced]
  rfl

/-- Regenerating is idempotent and touches only the block, so a check after writing the same
results reports nothing. -/
theorem sync_idempotent (formats : Formats) :
    (∀ text block other path, Marked text → NoMarkers block → NoMarkers other →
      ∃ updated, applyBlock text block path = .ok updated ∧
        applyBlock updated block path = .ok updated ∧
        upToBegin updated = upToBegin text ∧ fromEnd updated = fromEnd text ∧
        applyBlock updated other path = applyBlock text other path) ∧
      ∀ resultsPath results documents outcome written,
        main formats false resultsPath results documents = (.ok outcome, written) →
          main formats true resultsPath results written =
            (.ok ⟨0, ["All documents are current."]⟩, written) := by
  constructor
  · intro text block other path marked plain _
    rcases applyBlock_regenerates marked plain path with ⟨updated, applied, head, tail, replaces⟩
    exact ⟨updated, applied, applyBlock_idempotent plain applied, head, tail, replaces other path⟩
  · intro resultsPath results documents outcome written returned
    exact check_after_write returned

end Checking

/-! ## A document with an old table -/

/-- The number with as many digits after the point, as `:.2f` and `:.0f` write one that is not
negative. -/
def decimals (digits : ℕ) : Double → Text
  | .finite value =>
      let scaled := (roundHalfEven (value * 10 ^ digits)).toNat
      Nat.toDigits 10 (scaled / 10 ^ digits) ++
        if digits = 0 then [] else '.' :: padded digits (scaled % 10 ^ digits)
  | .nan => "nan".toList
  | .infinite _ => "inf".toList

theorem plain_of_isDigit {text : Text} (digits : ∀ char ∈ text, char.isDigit = true) :
    Plain text :=
  ⟨fun isChar => absurd (digits _ isChar) (by decide),
    fun isChar => absurd (digits _ isChar) (by decide)⟩

theorem plain_decimals (digits : ℕ) (value : Double) : Plain (decimals digits value) := by
  cases value with
  | nan => exact show Plain "nan".toList from ⟨by decide, by decide⟩
  | infinite negative => exact show Plain "inf".toList from ⟨by decide, by decide⟩
  | finite value =>
      have whole : ∀ number, Plain (Nat.toDigits 10 number) := by
        intro number
        apply plain_of_isDigit
        intro char isChar
        exact Nat.isDigit_of_mem_toDigits (by decide) (by decide) isChar
      have padding : ∀ number, Plain (padded digits number) :=
        fun number => plain_of_isDigit fun char isChar => isDigit_of_mem_padded isChar
      rw [decimals, plain_append]
      refine ⟨whole _, ?_⟩
      split
      · exact ⟨List.not_mem_nil, List.not_mem_nil⟩
      · simpa [Plain] using padding _

/-- The formats of numbers below a thousand, which have no groups. -/
def smallFormats : Formats where
  fixed := decimals 2
  grouped := decimals 0
  fixed_plain := plain_decimals 2
  grouped_plain := plain_decimals 0

/-- A document with another table. -/
def oldDocument : Text :=
  "# Latency\n\n".toList ++ beginMarker ++ "\nold\n".toList ++ endMarker ++ "\n\nMore.\n".toList

/-- All documents quote the figures, and are out of date. -/
def oldDocuments : Documents :=
  fun path => if path ∈ targets then some oldDocument else none

/-- The baseline and one faster backend. -/
def smallResults : List ResultRow :=
  [⟨"classifier", "pytorch-cuda", "fp32", batchSize, .finite 10, .finite 640⟩,
    ⟨"classifier", "onnxruntime-tensorrt", "fp16", batchSize, .finite (5 / 2), .finite 900⟩]

/-- The old document is regenerated twice, and all of them are current after they were written. -/
theorem sync_idempotent_latency :
    (∃ updated, applyBlock oldDocument "| a |".toList "README.md" = .ok updated ∧
      updated ≠ oldDocument ∧ applyBlock updated "| a |".toList "README.md" = .ok updated ∧
      applyBlock updated "| b |".toList "README.md" =
        applyBlock oldDocument "| b |".toList "README.md") ∧
    ∃ outcome written,
      main smallFormats false "benchmarks/results.json" (some smallResults) oldDocuments =
        (.ok outcome, written) ∧
      outcome.printed = "Updated:" :: targets.map (fun path => "  " ++ path) ∧
      main smallFormats true "benchmarks/results.json" (some smallResults) written =
        (.ok ⟨0, ["All documents are current."]⟩, written) := by
  have marked : Marked oldDocument := ⟨11, 47, by decide +kernel, by decide +kernel, by decide⟩
  have plain : NoMarkers "| a |".toList ∧ NoMarkers "| b |".toList := by
    refine ⟨⟨?_, ?_⟩, ?_, ?_⟩ <;> decide +kernel
  have changes : applyBlock oldDocument "| a |".toList "README.md" ≠ .ok oldDocument := by
    decide +kernel
  have regenerates := sync_idempotent smallFormats
  constructor
  · rcases regenerates.1 _ _ _ "README.md" marked plain.1 plain.2 with
      ⟨updated, applied, again, _, _, other⟩
    refine ⟨updated, applied, ?_, again, other⟩
    rintro rfl
    exact changes applied
  · have printed : (main smallFormats false "benchmarks/results.json" (some smallResults)
        oldDocuments).1 = .ok ⟨0, "Updated:" :: targets.map fun path => "  " ++ path⟩ := by
      decide +kernel
    exact ⟨_, _, Prod.ext printed rfl, rfl,
      regenerates.2 _ _ _ _ _ (Prod.ext printed rfl)⟩

end VisionApi.Docs
