import VisionApi.Foundation.Fallible
import VisionApi.Foundation.Rewind
import VisionApi.Training.Metrics

/-!
# Calibration and accuracy of a quantized model

The calibrator asks a reader for batches and may rewind it.  The accuracy of an ONNX
model is measured on a prefix of a data set, batch by batch.

Both readers of the source have the same attributes and the same generator, so they are
one structure with a function that reads an item.  Reading may raise, and an exception
ends a generator: the images collected so far are lost and the next request finds
nothing.  `passFrom` is the sequence of what a generator hands out, and each request
takes one off it (`resume_eq`); `pass` says the same without the buffer.

The accuracy adds up over batches.  As the session treats each image alone, a batch
contributes the counts of its own samples, and the batches are a partition of the
prefix whatever their size.  That the best class of a row is among the top ones is
taken from the theory of rankings without ties.

Stacking images of unequal shapes raises in the source and is not modelled.
-/

namespace VisionApi.Optimisation

open Foundation

variable {Item Image Label Error : Type}

/-! ## Calibration readers -/

/-- The attributes of both readers: the items are the indices of the samples or the paths of the
images, and the iterator holds those the generator has yet to read. -/
structure CalibrationReader (Item Image Error : Type) where
  items : List Item
  read : Item → Except Error Image
  inputName : String
  batchSize : ℕ
  iterator : Option (List Item)

/-- `dataset[index]` may raise. -/
structure Dataset (Image Label Error : Type) where
  length : ℕ
  get : ℕ → Except Error (Image × Label)

/-- A reader of the first samples of a data set. -/
def tensorDatasetCalibrationReader (dataset : Dataset Image Label Error) (inputName : String)
    (numSamples batchSize : ℕ) : CalibrationReader ℕ Image Error where
  items := List.range (min numSamples dataset.length)
  read index := (dataset.get index).map Prod.fst
  inputName := inputName
  batchSize := batchSize
  iterator := none

/-- A reader of the first of some image files. -/
def imageFileCalibrationReader {Path Bytes : Type} (paths : List Path) (inputName : String)
    (readBytes : Path → Except Error Bytes) (preprocess : Bytes → Except Error Image)
    (numSamples batchSize : ℕ) : CalibrationReader Path Image Error where
  items := paths.take numSamples
  read path := readBytes path >>= preprocess
  inputName := inputName
  batchSize := batchSize
  iterator := none

/-- The generator up to its next `yield`, with the items after it.  An exception ends it. -/
def resume (read : Item → Except Error Image) (batchSize : ℕ) :
    List Image → List Item → Except Error (Option (List Image)) × List Item
  | buffer, [] => (.ok (if buffer.isEmpty then none else some buffer), [])
  | buffer, item :: items =>
      match read item with
      | .error error => (.error error, [])
      | .ok image =>
          if (buffer ++ [image]).length = batchSize then (.ok (some (buffer ++ [image])), items)
          else resume read batchSize (buffer ++ [image]) items

/-- What the calibrator is handed. -/
abbrev Feed (Image Error : Type) := Except Error (Option (Dict String (List Image)))

/-- A batch under the name of the input. -/
def feed (inputName : String) (batch : Except Error (Option (List Image))) : Feed Image Error :=
  batch.map fun images => images.map fun batch => [(inputName, batch)]

namespace CalibrationReader

/-- The next batch, from a new generator if there is none. -/
def getNext (reader : CalibrationReader Item Image Error) :
    Feed Image Error × CalibrationReader Item Image Error :=
  let (batch, items) := resume reader.read reader.batchSize [] (reader.iterator.getD reader.items)
  (feed reader.inputName batch, { reader with iterator := some items })

/-- Forget the generator. -/
def rewind (reader : CalibrationReader Item Image Error) : CalibrationReader Item Image Error :=
  { reader with iterator := none }

/-- What `get_next` returns, called and interleaved with `rewind`. -/
def answers (reader : CalibrationReader Item Image Error) : List Request → List (Feed Image Error)
  | [] => []
  | .next :: requests =>
      let (answer, reader) := reader.getNext
      answer :: reader.answers requests
  | .rewind :: requests => reader.rewind.answers requests

end CalibrationReader

/-! ## One pass -/

/-- The images up to the first item that cannot be read, and what is raised there. -/
def readAll (read : Item → Except Error Image) : List Item → List Image × Option Error
  | [] => ([], none)
  | item :: items =>
      match read item with
      | .error error => ([], some error)
      | .ok image =>
          let (images, failure) := readAll read items
          (image :: images, failure)

/-- The batches of the images; if an item cannot be read, the full ones before it, and what is
raised. -/
def pass (read : Item → Except Error Image) (batchSize : ℕ) (items : List Item) :
    List (Except Error (List Image)) :=
  match readAll read items with
  | (images, none) => (batches batchSize images).map .ok
  | (images, some error) =>
      ((batches batchSize images).filter fun batch => batch.length = batchSize).map .ok ++
        [.error error]

/-- The pass of a generator that has collected some images of a batch. -/
def passFrom (read : Item → Except Error Image) (batchSize : ℕ) :
    List Image → List Item → List (Except Error (List Image))
  | buffer, [] => if buffer.isEmpty then [] else [.ok buffer]
  | buffer, item :: items =>
      match read item with
      | .error error => [.error error]
      | .ok image =>
          if (buffer ++ [image]).length = batchSize then
            .ok (buffer ++ [image]) :: passFrom read batchSize [] items
          else passFrom read batchSize (buffer ++ [image]) items

section Passes

variable {read : Item → Except Error Image} {batchSize : ℕ} {buffer : List Image}
  {items : List Item}

/-- Each call takes the first batch off the pass. -/
theorem resume_eq (read : Item → Except Error Image) (batchSize : ℕ) (buffer : List Image)
    (items : List Item) :
    (resume read batchSize buffer items).1 =
        ((passFrom read batchSize buffer items).head?.elim (.ok none) fun batch =>
          batch.map some) ∧
      passFrom read batchSize [] (resume read batchSize buffer items).2 =
        (passFrom read batchSize buffer items).tail := by
  induction items generalizing buffer with
  | nil =>
      simp only [resume, passFrom]
      split
      · exact ⟨rfl, rfl⟩
      · exact ⟨rfl, rfl⟩
  | cons item items ih =>
      simp only [resume, passFrom]
      split
      · exact ⟨rfl, rfl⟩
      · split
        · exact ⟨rfl, rfl⟩
        · exact ih _

/-- The batch that is collected when an item cannot be read is lost. -/
theorem passFrom_eq (incomplete : buffer.length = batchSize → buffer = []) :
    passFrom read batchSize buffer items =
      match readAll read items with
      | (images, none) => (batchesFrom batchSize buffer images).map .ok
      | (images, some error) =>
          ((batchesFrom batchSize buffer images).filter fun batch =>
            batch.length = batchSize).map .ok ++ [.error error] := by
  induction items generalizing buffer with
  | nil =>
      simp only [passFrom, readAll, batchesFrom]
      split
      · rfl
      · rfl
  | cons item items ih =>
      rcases outcome : read item with error | image
      · simp only [passFrom, readAll, outcome, batchesFrom]
        by_cases empty : buffer = []
        · simp [empty]
        · have notFull : buffer.length ≠ batchSize := fun full => empty (incomplete full)
          simp [empty, notFull]
      · by_cases full : (buffer ++ [image]).length = batchSize
        · have rest := @ih [] fun _ => rfl
          rcases remaining : readAll read items with ⟨images, _ | error⟩
          · rw [remaining] at rest
            simp only [passFrom, readAll, outcome, remaining, batchesFrom, if_pos full, rest,
              List.map_cons]
          · rw [remaining] at rest
            simp only [passFrom, readAll, outcome, remaining, batchesFrom, if_pos full, rest]
            rw [List.filter_cons_of_pos (by simpa using full)]
            rfl
        · have rest := @ih (buffer ++ [image]) fun isFull => absurd isFull full
          rcases remaining : readAll read items with ⟨images, _ | error⟩
          · rw [remaining] at rest
            simp only [passFrom, readAll, outcome, remaining, batchesFrom, if_neg full, rest]
          · rw [remaining] at rest
            simp only [passFrom, readAll, outcome, remaining, batchesFrom, if_neg full, rest]

/-- From an empty buffer both descriptions of a pass agree. -/
theorem passFrom_nil (read : Item → Except Error Image) (batchSize : ℕ) (items : List Item) :
    passFrom read batchSize [] items = pass read batchSize items :=
  passFrom_eq fun _ => rfl

end Passes

/-! ## Requests -/

section Requests

variable {reader : CalibrationReader Item Image Error}

/-- The generator of a reader. -/
def CalibrationReader.source (reader : CalibrationReader Item Image Error) :
    Source (List Item) (Feed Image Error) where
  start := reader.items
  next items :=
    let (batch, rest) := resume reader.read reader.batchSize [] items
    (feed reader.inputName batch, rest)

/-- The answer after a number of others of the same pass. -/
def CalibrationReader.nth (reader : CalibrationReader Item Image Error) (count : ℕ) :
    Feed Image Error :=
  match (pass reader.read reader.batchSize reader.items)[count]? with
  | none => .ok none
  | some batch => feed reader.inputName (batch.map some)

theorem pass_after (reader : CalibrationReader Item Image Error) (count : ℕ) :
    pass reader.read reader.batchSize (reader.source.after count) =
      (pass reader.read reader.batchSize reader.items).drop count := by
  induction count with
  | zero => rfl
  | succ count ih =>
      have taken := (resume_eq reader.read reader.batchSize [] (reader.source.after count)).2
      rw [passFrom_nil, passFrom_nil, ih, List.tail_drop] at taken
      exact taken

theorem output_source (reader : CalibrationReader Item Image Error) (count : ℕ) :
    reader.source.output count = reader.nth count := by
  have handed := (resume_eq reader.read reader.batchSize [] (reader.source.after count)).1
  rw [passFrom_nil, pass_after, List.head?_drop] at handed
  have isOutput : reader.source.output count = feed reader.inputName
      (resume reader.read reader.batchSize [] (reader.source.after count)).1 := rfl
  rw [isOutput, handed, CalibrationReader.nth]
  rcases (pass reader.read reader.batchSize reader.items)[count]? with nothing | batch
  · rfl
  · rfl

theorem answers_eq_serve (reader : CalibrationReader Item Image Error) (requests : List Request) :
    reader.answers requests = reader.source.serve reader.iterator requests := by
  induction requests generalizing reader with
  | nil => rfl
  | cons request requests ih =>
      cases request with
      | next =>
          simp only [CalibrationReader.answers, Source.serve, ih]
          rfl
      | rewind =>
          simp only [CalibrationReader.answers, Source.serve, ih]
          rfl

/-- However a new reader is asked and rewound, each answer is the batch of the pass at the number of
batches since the last rewinding, and nothing after the pass. -/
theorem answers_eq_cursor (isNew : reader.iterator = none) (requests : List Request) :
    reader.answers requests = cursor reader.nth 0 requests := by
  have outputs : reader.source.output = reader.nth := funext (output_source reader)
  rw [answers_eq_serve, isNew, Source.serve_eq_cursor, outputs]

/-- The last of three samples cannot be read. -/
def threeSamples : Dataset ℕ Bool String :=
  ⟨3, fun index => if index < 2 then .ok (index, true) else .error "truncated"⟩

/-- Two requests are answered, then none, and after rewinding the first again. -/
theorem answers_eq_cursor_threeSamples :
    (tensorDatasetCalibrationReader threeSamples "images" 256 2).answers
        [.next, .next, .next, .rewind, .next] =
      cursor (tensorDatasetCalibrationReader threeSamples "images" 256 2).nth 0
        [.next, .next, .next, .rewind, .next] :=
  answers_eq_cursor rfl _

end Requests

/-! ## Accuracy -/

section Accuracy

open Training

variable {classes : ℕ} {Score : Type} [LinearOrder Score]

/-- Why there is no accuracy. -/
inductive EvaluationError where
  /-- The `ValueError` of a `range` without step. -/
  | value
  | zeroDivision

/-- The counters of the loop. -/
structure Counts where
  correctTop1 : ℕ
  correctTop5 : ℕ
  total : ℕ

/-- `range(0, limit, batch_size)`. -/
def starts (limit batchSize : ℕ) : List ℕ :=
  (List.range ((limit + batchSize - 1) / batchSize)).map (· * batchSize)

/-- The body of the loop.  The session maps the images of a batch to their logits. -/
def countBatch (session : List Image → List (Row classes Score))
    (dataset : List (Image × Fin classes)) (limit batchSize : ℕ) (counts : Counts) (start : ℕ) :
    Counts :=
  let samples := (dataset.take (min (start + batchSize) limit)).drop start
  let targets := samples.map Prod.snd
  let logits := session (samples.map Prod.fst)
  let top5 := logits.map fun row => topkRow row (min 5 classes)
  { correctTop1 := counts.correctTop1 +
      (List.zipWith (fun indices target => indices.head? == some target) top5 targets).count true
    correctTop5 := counts.correctTop5 +
      (List.zipWith (fun indices target => indices.any (· == target)) top5 targets).count true
    total := counts.total + targets.length }

/-- The accuracy on the first samples, in batches. -/
def evaluateOnnxAccuracy (session : List Image → List (Row classes Score))
    (dataset : List (Image × Fin classes)) (numSamples batchSize : ℕ) :
    Except EvaluationError (Dict String ℚ) :=
  let limit := min numSamples dataset.length
  if batchSize = 0 then .error .value
  else
    let counts := (starts limit batchSize).foldl (countBatch session dataset limit batchSize)
      ⟨0, 0, 0⟩
    if counts.total = 0 then .error .zeroDivision
    else .ok [("acc_top1", (counts.correctTop1 : ℚ) / counts.total),
      ("acc_top5", (counts.correctTop5 : ℚ) / counts.total), ("num_samples", counts.total)]

/-! ### The batches are a partition -/

theorem flatten_chunks {Sample : Type} (batchSize count : ℕ) (samples : List Sample) :
    ((List.range count).map fun index =>
      (samples.drop (index * batchSize)).take batchSize).flatten =
        samples.take (count * batchSize) := by
  induction count with
  | zero => simp
  | succ count ih =>
      rw [List.range_succ, List.map_append, List.flatten_append, ih, Nat.add_mul, Nat.one_mul,
        List.take_add]
      simp

/-- The chunks that the loop takes are the samples. -/
theorem flatten_starts {Sample : Type} {batchSize : ℕ} (positive : 0 < batchSize)
    (samples : List Sample) :
    ((starts samples.length batchSize).map fun start =>
      (samples.drop start).take batchSize).flatten = samples := by
  have chunks := flatten_chunks batchSize ((samples.length + batchSize - 1) / batchSize) samples
  rw [starts, List.map_map]
  refine chunks.trans (List.take_of_length_le ?_)
  have rounded := Nat.lt_div_mul_add (a := samples.length + batchSize - 1) positive
  omega

/-! ### The counts -/

variable {session : List Image → List (Row classes Score)} {forward : Image → Row classes Score}
  {dataset : List (Image × Fin classes)}

/-- A sample with the logits of its image. -/
def withLogits (forward : Image → Row classes Score) (sample : Image × Fin classes) :
    Row classes Score × Fin classes :=
  (forward sample.1, sample.2)

theorem head?_topkRow {row : Row classes Score} (untied : Function.Injective row)
    (target : Fin classes) :
    ((topkRow row (min 5 classes)).head? == some target) = inTop 1 (row, target) := by
  have hasClass : 0 < classes := target.pos
  have cut : (topkRow row (min 5 classes)).take 1 = topkRow row 1 := by
    rw [topkRow, List.take_take, topkRow]
    congr 1
    omega
  rw [Bool.eq_iff_iff, beq_iff_eq, inTop, decide_eq_true_eq, ← mem_topkRow_iff untied, ← cut]
  rcases topkRow row (min 5 classes) with _ | ⟨first, rest⟩
  · simp
  · simp [eq_comm]

theorem any_topkRow {row : Row classes Score} (untied : Function.Injective row)
    (target : Fin classes) :
    (topkRow row (min 5 classes)).any (· == target) = inTop (min 5 classes) (row, target) := by
  rw [Bool.eq_iff_iff, inTop, decide_eq_true_eq, ← mem_topkRow_iff untied]
  simp

theorem count_zipWith {Sample First Second : Type} (test : First → Second → Bool)
    (first : Sample → First) (second : Sample → Second) (samples : List Sample) :
    (List.zipWith test (samples.map first) (samples.map second)).count true =
      samples.countP fun sample => test (first sample) (second sample) := by
  induction samples with
  | nil => rfl
  | cons sample samples ih =>
      rw [List.map_cons, List.map_cons, List.zipWith_cons_cons, List.count_cons, List.countP_cons,
        ih]
      simp

/-- What a session adds up that treats each image alone. -/
theorem countBatch_eq (rowWise : ∀ images, session images = images.map forward)
    {limit batchSize start : ℕ}
    (untied : ∀ sample ∈ dataset.take limit, Function.Injective (forward sample.1))
    (counts : Counts) :
    countBatch session dataset limit batchSize counts start =
      let chunk := (((dataset.take limit).drop start).take batchSize).map (withLogits forward)
      ⟨counts.correctTop1 + chunk.countP (inTop 1),
        counts.correctTop5 + chunk.countP (inTop (min 5 classes)),
        counts.total + chunk.length⟩ := by
  have isChunk : (dataset.take (min (start + batchSize) limit)).drop start =
      ((dataset.take limit).drop start).take batchSize := by
    rw [List.take_drop, List.take_take]
  have chunkUntied : ∀ sample ∈ ((dataset.take limit).drop start).take batchSize,
      Function.Injective (forward sample.1) := by
    intro sample isSample
    exact untied sample (List.mem_of_mem_drop (List.mem_of_mem_take isSample))
  simp only [countBatch, isChunk, rowWise, List.map_map, Function.comp_def, count_zipWith,
    List.countP_map, List.length_map]
  congr 2
  · apply List.countP_congr
    intro sample isSample
    rw [head?_topkRow (chunkUntied sample isSample)]
    rfl
  · apply List.countP_congr
    intro sample isSample
    rw [any_topkRow (chunkUntied sample isSample)]
    rfl

theorem foldl_countBatch (rowWise : ∀ images, session images = images.map forward) {limit : ℕ}
    (untied : ∀ sample ∈ dataset.take limit, Function.Injective (forward sample.1))
    (batchSize : ℕ) (positions : List ℕ) (counts : Counts) :
    positions.foldl (countBatch session dataset limit batchSize) counts =
      let chunks := ((positions.map fun start =>
        ((dataset.take limit).drop start).take batchSize).flatten).map (withLogits forward)
      ⟨counts.correctTop1 + chunks.countP (inTop 1),
        counts.correctTop5 + chunks.countP (inTop (min 5 classes)),
        counts.total + chunks.length⟩ := by
  induction positions generalizing counts with
  | nil => rfl
  | cons start positions ih =>
      rw [List.foldl_cons, countBatch_eq rowWise untied, ih]
      simp only [List.map_cons, List.flatten_cons, List.map_append, List.countP_append,
        List.length_append, Nat.add_assoc]

/-- The accuracy is that of the first samples, for every batch size; without samples or with a batch
size of zero the measurement fails. -/
theorem evaluateOnnxAccuracy_eq (rowWise : ∀ images, session images = images.map forward)
    {numSamples : ℕ}
    (untied : ∀ sample ∈ dataset.take numSamples, Function.Injective (forward sample.1))
    (batchSize : ℕ) :
    evaluateOnnxAccuracy session dataset numSamples batchSize =
      if batchSize = 0 then .error .value
      else if dataset.take numSamples = [] then .error .zeroDivision
      else .ok (accuracy ((dataset.take numSamples).map (withLogits forward)) ++
        [("num_samples", ((dataset.take numSamples).length : ℚ))]) := by
  have cut : dataset.take (min numSamples dataset.length) = dataset.take numSamples := by
    rw [← List.take_take, List.take_length]
  by_cases noSize : batchSize = 0
  · simp [evaluateOnnxAccuracy, noSize]
  · have positive : 0 < batchSize := by omega
    have limitUntied : ∀ sample ∈ dataset.take (min numSamples dataset.length),
        Function.Injective (forward sample.1) := by
      rwa [cut]
    have counted := foldl_countBatch rowWise limitUntied batchSize
      (starts (min numSamples dataset.length) batchSize) ⟨0, 0, 0⟩
    have isLength : min numSamples dataset.length = (dataset.take numSamples).length := by simp
    have partitions := flatten_starts positive (dataset.take numSamples)
    rw [← isLength] at partitions
    simp only [cut, partitions, Nat.zero_add] at counted
    simp only [evaluateOnnxAccuracy, if_neg noSize, counted, List.length_map]
    by_cases noSamples : dataset.take numSamples = []
    · simp [noSamples]
    · have some_samples : (dataset.take numSamples).length ≠ 0 := by
        simpa using noSamples
      rw [if_neg some_samples, if_neg noSamples]
      simp [accuracy, scores, rate]

/-- Two classes, of which the model predicts the one it is shown. -/
def shown (image : Fin 2) : Row 2 ℤ :=
  fun index => if index = image then 1 else 0

/-- Two of three are right, in batches of two. -/
theorem evaluateOnnxAccuracy_eq_shown :
    evaluateOnnxAccuracy (fun images => images.map shown) [(0, 0), (1, 1), (0, 1)] 2000 2 =
      .ok (accuracy [(shown 0, 0), (shown 1, 1), (shown 0, 1)] ++ [("num_samples", 3)]) := by
  have injective : ∀ image first second, shown image first = shown image second →
      first = second := by decide
  have untied : ∀ sample ∈ ([(0, 0), (1, 1), (0, 1)] : List (Fin 2 × Fin 2)).take 2000,
      Function.Injective (shown sample.1) := fun sample _ _ _ same => injective sample.1 _ _ same
  have measured := evaluateOnnxAccuracy_eq (fun _ => rfl) untied 2
  simpa [withLogits] using measured

end Accuracy

end VisionApi.Optimisation
