import VisionApi.Detect.Boxes
import VisionApi.Inference.Attempt
import VisionApi.Similarity.Index

/-!
# Naming what the index finds

`find_similar` embeds an upload, searches the index and turns the rows that FAISS
returns into results.  Pillow, ONNX Runtime and FAISS are parameters; scores are
exact.

The loop over the hits is `collectResults`: rows below zero and scores below the
threshold are skipped, the rest are numbered from one.  Lists are indexed as Python does,
so a negative label would be read from the end of the class names; this is where a result
can name the wrong class.  `Nameable` says for one hit that its label
is not negative, or happens to be read as a class of that very name, that the row has a
path and that its score is in bounds.

`collectResults_eq` reduces the loop to mapping one hit, and `similarImage_ok_iff` says
what a result is.  The theorem about the service adds that it returns at all: the call
returns and every result has the label, the path and the class of its row exactly if all
selected hits are nameable.
-/

namespace VisionApi.Similarity

open Foundation Models Inference
open Detect (roundTo)

universe u

variable {V : Type u} {Session Tensor Logits Score K : Type} [Field K] [LinearOrder K]

/-- `items[index]`: a negative index counts from the end. -/
def listItem {Item : Type} (items : List Item) (index : ℤ) : Option Item :=
  if 0 ≤ index then items[index.toNat]?
  else if index.natAbs ≤ items.length then items[items.length - index.natAbs]?
  else none

/-- `SimilarImage`, whose similarity is checked. -/
structure SimilarImage (K : Type) [Field K] [LinearOrder K] where
  rank : ℕ
  similarity : K
  label : String
  classId : ℤ
  reference : String
  bounds : -1 ≤ similarity ∧ similarity ≤ 1

/-- What FAISS returns for one query: the scores and the row numbers, padded with `-1`. -/
abbrev Hits (K : Type) := List (K × ℤ)

/-- `SimilarityService` in a process with the given limit of Pillow. -/
structure SimilarityService (V : Type u) (Session : Type) where
  models : ModelService Session
  index : SimilarityIndex V
  limits : Limits
  pillowLimit : ℤ
  classNames : List String

/-- `SimilarityResponse`, without the time. -/
structure SimilarityResponse (K : Type) [Field K] [LinearOrder K] where
  results : List (SimilarImage K)
  indexSize : ℕ
  correlationId : String
  modelName : String
  modelVersion : String
  backend : String

/-! ## The loop -/

/-- An item of a list, or the `IndexError`. -/
def itemOrRaise {Item : Type} (items : List Item) (index : ℤ) : Except Failure Item :=
  match listItem items index with
  | some item => .ok item
  | none => .error (.other "IndexError: list index out of range")

/-- `class_names[label] if label < len(class_names) else str(label)` -/
def labelFor (classNames : List String) (label : ℤ) : Except Failure String :=
  if label < classNames.length then itemOrRaise classNames label else .ok (toString label)

variable [FloorRing K]

/-- The result for a hit. -/
def similarImage (index : SimilarityIndex V) (classNames : List String) (rank : ℕ)
    (hit : K × ℤ) : Except Failure (SimilarImage K) := do
  let classId ← itemOrRaise index.labels hit.2
  let label ← labelFor classNames classId
  let reference ← itemOrRaise index.paths hit.2
  if bounds : -1 ≤ roundTo 6 hit.1 ∧ roundTo 6 hit.1 ≤ 1 then
    .ok ⟨rank, roundTo 6 hit.1, label, classId, reference, bounds⟩
  else .error (.value "1 validation error for SimilarImage")

/-- The loop of `find_similar` over the hits, with the results so far. -/
def collectResults (index : SimilarityIndex V) (classNames : List String) (minSimilarity : K) :
    Hits K → List (SimilarImage K) → Except Failure (List (SimilarImage K))
  | [], results => .ok results
  | hit :: hits, results =>
      if hit.2 < 0 ∨ hit.1 < minSimilarity then
        collectResults index classNames minSimilarity hits results
      else do
        let image ← similarImage index classNames (results.length + 1) hit
        collectResults index classNames minSimilarity hits (results ++ [image])

/-- `index.search` of FAISS, for the first row of the query. -/
abbrev Faiss (V : Type u) (Logits K : Type) := Index V → List Logits → ℤ → Except Failure (Hits K)

/-- `_work`: embed the upload and search the index. -/
def SimilarityService.work (service : SimilarityService V Session)
    (engine : Engine Session Tensor Logits Score) (search : Faiss V Logits K)
    (model : LoadedModel Session) (image : Bytes) (topK : ℤ) : Except Failure (Hits K) := do
  let array ← preprocessImage engine service.pillowLimit model.imageSize image
  let embedding ← runModel engine model [array]
  search service.index.index embedding topK

/-- Embed, search and collect. -/
def SimilarityService.findSimilar (service : SimilarityService V Session)
    (engine : Engine Session Tensor Logits Score) (search : Faiss V Logits K) (image : Bytes)
    (correlationId : String) (topK : ℤ) (minSimilarity : K) :
    Except Failure (SimilarityResponse K) := do
  let _ ← (validateImageUpload engine.toPillow service.pillowLimit image
    service.limits.maxUploadBytes service.limits.maxImagePixels).mapError Failure.api
  let model ← (service.models.get embedderName none).mapError notFoundFailure
  let hits ← service.work engine search model image topK
  let results ← collectResults service.index service.classNames minSimilarity hits []
  return ⟨results, service.index.index.ntotal, correlationId, model.name, model.version,
    model.backend.value⟩

/-! ## The right images -/

/-- The hits that are rows of the index and similar enough. -/
def selected (minSimilarity : K) (hits : Hits K) : Hits K :=
  hits.filter fun hit => 0 ≤ hit.2 && minSimilarity ≤ hit.1

/-- The name of a class, or the label itself where there is no such class. -/
def className (classNames : List String) (label : ℤ) : String :=
  if 0 ≤ label then (classNames[label.toNat]?).getD (toString label) else toString label

/-- A result is what its hit stands for. -/
structure NamesHit (index : SimilarityIndex V) (classNames : List String)
    (ranked : (K × ℤ) × ℕ) (image : SimilarImage K) : Prop where
  rank : image.rank = ranked.2
  similarity : image.similarity = roundTo 6 ranked.1.1
  classId : index.labels[ranked.1.2.toNat]? = some image.classId
  label : image.label = className classNames image.classId
  reference : index.paths[ranked.1.2.toNat]? = some image.reference

/-- The results are the selected hits, in order and ranked without gaps. -/
def NamesRight (index : SimilarityIndex V) (classNames : List String) (minSimilarity : K)
    (hits : Hits K) (results : List (SimilarImage K)) : Prop :=
  List.Forall₂ (NamesHit index classNames) ((selected minSimilarity hits).zipIdx 1) results

/-- The similarity is in its bounds once rounded, the manifest has a path for the row, and its label
is not negative, or names by accident a class called like it. -/
structure Nameable (index : SimilarityIndex V) (classNames : List String) (hit : K × ℤ) :
    Prop where
  bounds : -1 ≤ roundTo 6 hit.1 ∧ roundTo 6 hit.1 ≤ 1
  path : hit.2.toNat < index.paths.length
  label : ∀ label, index.labels[hit.2.toNat]? = some label →
    0 ≤ label ∨ listItem classNames label = some (toString label)

variable {index : SimilarityIndex V} {classNames : List String} {minSimilarity : K}

omit [FloorRing K] [Field K] in
/-- The selected hits are rows that score enough. -/
theorem mem_selected {hits : Hits K} {hit : K × ℤ} :
    hit ∈ selected minSimilarity hits ↔ hit ∈ hits ∧ 0 ≤ hit.2 ∧ minSimilarity ≤ hit.1 := by
  simp [selected]

/-- An item is returned exactly if there is one. -/
theorem itemOrRaise_ok_iff {Item : Type} {items : List Item} {position : ℤ} {item : Item} :
    itemOrRaise items position = .ok item ↔ listItem items position = some item := by
  unfold itemOrRaise
  cases listItem items position with
  | none => simp
  | some found => simp

/-- From zero on, positions count from the front. -/
theorem listItem_of_nonneg {Item : Type} (items : List Item) {position : ℤ}
    (nonneg : 0 ≤ position) : listItem items position = items[position.toNat]? :=
  if_pos nonneg

/-- The loop is one over the selected hits, each with its rank. -/
theorem collectResults_eq (index : SimilarityIndex V) (classNames : List String)
    (minSimilarity : K) (hits : Hits K) (results : List (SimilarImage K)) :
    collectResults index classNames minSimilarity hits results =
      (((selected minSimilarity hits).zipIdx (results.length + 1)).mapM fun ranked =>
        similarImage index classNames ranked.2 ranked.1).map (results ++ ·) := by
  induction hits generalizing results with
  | nil => simp [collectResults, selected, Except.map, pure, Except.pure]
  | cons hit hits ih =>
      by_cases skipped : hit.2 < 0 ∨ hit.1 < minSimilarity
      · have passedOver : selected minSimilarity (hit :: hits) = selected minSimilarity hits := by
          apply List.filter_cons_of_neg
          simpa [or_iff_not_imp_left, not_lt] using skipped
        rw [collectResults, if_pos skipped, passedOver]
        exact ih results
      · have kept : selected minSimilarity (hit :: hits) =
            hit :: selected minSimilarity hits := by
          apply List.filter_cons_of_pos
          simpa [not_or] using skipped
        rw [collectResults, if_neg skipped, kept, List.zipIdx_cons, List.mapM_cons]
        cases similarImage index classNames (results.length + 1) hit with
        | error error => rfl
        | ok image =>
            change collectResults index classNames minSimilarity hits (results ++ [image]) = _
            rw [ih, List.length_append]
            change Except.map _
              (((selected minSimilarity hits).zipIdx (results.length + 1 + 1)).mapM _) = _
            cases ((selected minSimilarity hits).zipIdx (results.length + 1 + 1)).mapM
                fun ranked : (K × ℤ) × ℕ => similarImage index classNames ranked.2 ranked.1 with
            | error error => rfl
            | ok images => exact congrArg Except.ok (List.append_assoc results [image] images)

/-- A class is named as the code does wherever its label is not negative. -/
theorem labelFor_eq_className_iff {label : ℤ} :
    labelFor classNames label = .ok (className classNames label) ↔
      0 ≤ label ∨ listItem classNames label = some (toString label) := by
  by_cases nonneg : 0 ≤ label
  · simp only [nonneg, true_or, iff_true, labelFor, className, if_true]
    split
    · rename_i known
      have inNames : label.toNat < classNames.length := by omega
      rw [itemOrRaise_ok_iff, listItem_of_nonneg _ nonneg, List.getElem?_eq_getElem inNames]
      rfl
    · rename_i unknown
      have outside : classNames.length ≤ label.toNat := by omega
      rw [List.getElem?_eq_none outside]
      rfl
  · have below : label < (classNames.length : ℤ) := by omega
    rw [labelFor, className, if_pos below, if_neg nonneg, itemOrRaise_ok_iff]
    simp only [nonneg, false_or]

/-- What a result is. -/
theorem similarImage_ok_iff {rank : ℕ} {hit : K × ℤ} {image : SimilarImage K} :
    similarImage index classNames rank hit = .ok image ↔
      listItem index.labels hit.2 = some image.classId ∧
        labelFor classNames image.classId = .ok image.label ∧
        listItem index.paths hit.2 = some image.reference ∧
        image.similarity = roundTo 6 hit.1 ∧ image.rank = rank := by
  simp only [similarImage, bind_ok_iff, itemOrRaise_ok_iff]
  constructor
  · rintro ⟨classId, isLabel, label, isName, reference, isPath, returned⟩
    split at returned
    · cases returned
      exact ⟨isLabel, isName, isPath, rfl, rfl⟩
    · cases returned
  · rintro ⟨isLabel, isName, isPath, isSimilarity, isRank⟩
    refine ⟨_, isLabel, _, isName, _, isPath, ?_⟩
    rcases image with ⟨rank', similarity, label, classId, reference, bounds⟩
    cases isSimilarity
    cases isRank
    exact dif_pos bounds

/-- A row of the index gets the right result exactly when it is nameable. -/
theorem exists_namesHit_iff {ranked : (K × ℤ) × ℕ} (inIndex : 0 ≤ ranked.1.2)
    (labelled : ranked.1.2.toNat < index.labels.length) :
    (∃ image, similarImage index classNames ranked.2 ranked.1 = .ok image ∧
      NamesHit index classNames ranked image) ↔ Nameable index classNames ranked.1 := by
  rcases ranked with ⟨⟨score, row⟩, rank⟩
  have isLabel := List.getElem?_eq_getElem labelled
  constructor
  · rintro ⟨image, made, named⟩
    rcases similarImage_ok_iff.mp made with ⟨_, isName, _, isSimilarity, _⟩
    refine ⟨?_, ?_, ?_⟩
    · rw [← isSimilarity]
      exact image.bounds
    · exact (List.getElem?_eq_some_iff.mp named.reference).1
    · intro label isFound
      cases isFound.symm.trans named.classId
      rw [named.label] at isName
      exact labelFor_eq_className_iff.mp isName
  · rintro ⟨bounds, path, label⟩
    have isPath := List.getElem?_eq_getElem path
    refine ⟨⟨rank, roundTo 6 score, className classNames index.labels[row.toNat],
      index.labels[row.toNat], index.paths[row.toNat], bounds⟩, ?_,
      ⟨rfl, rfl, isLabel, rfl, isPath⟩⟩
    refine similarImage_ok_iff.mpr ⟨?_, ?_, ?_, rfl, rfl⟩
    · rw [listItem_of_nonneg _ inIndex]
      exact isLabel
    · exact labelFor_eq_className_iff.mpr (label _ isLabel)
    · rw [listItem_of_nonneg _ inIndex]
      exact isPath

/-- The loop names every selected hit right exactly when each is nameable. -/
theorem collectResults_namesRight_iff {hits : Hits K}
    (valid : ∀ hit ∈ hits, 0 ≤ hit.2 → hit.2.toNat < index.labels.length) :
    (∃ results, collectResults index classNames minSimilarity hits [] = .ok results ∧
      NamesRight index classNames minSimilarity hits results) ↔
        ∀ hit ∈ selected minSimilarity hits, Nameable index classNames hit := by
  have isMapM : ∀ results, collectResults index classNames minSimilarity hits [] = .ok results ↔
      ((selected minSimilarity hits).zipIdx 1).mapM (fun ranked =>
        similarImage index classNames ranked.2 ranked.1) = .ok results := by
    intro results
    rw [collectResults_eq, map_ok_iff]
    simp
  simp only [isMapM, NamesRight]
  rw [exists_mapM_forall₂_iff]
  have each : ∀ ranked ∈ (selected minSimilarity hits).zipIdx 1,
      ((∃ image, similarImage index classNames ranked.2 ranked.1 = .ok image ∧
        NamesHit index classNames ranked image) ↔ Nameable index classNames ranked.1) := by
    intro ranked isRanked
    rcases mem_selected.mp (List.fst_mem_of_mem_zipIdx isRanked) with ⟨isHit, inIndex, _⟩
    exact exists_namesHit_iff inIndex (valid ranked.1 isHit inIndex)
  constructor
  · intro named hit isSelected
    rw [← List.zipIdx_map_fst 1 (selected minSimilarity hits)] at isSelected
    rcases List.mem_map.mp isSelected with ⟨ranked, isRanked, rfl⟩
    exact (each ranked isRanked).mp (named ranked isRanked)
  · intro nameable ranked isRanked
    exact (each ranked isRanked).mpr (nameable ranked.1 (List.fst_mem_of_mem_zipIdx isRanked))

/-! ## The service -/

/-- The upload is valid, the embedder is loaded, and FAISS returns the hits. -/
structure Searched (service : SimilarityService V Session)
    (engine : Engine Session Tensor Logits Score) (search : Faiss V Logits K) (image : Bytes)
    (topK : ℤ) (hits : Hits K) : Prop where
  validated : Succeeds (validateImageUpload engine.toPillow service.pillowLimit image
    service.limits.maxUploadBytes service.limits.maxImagePixels)
  found : ∃ model, service.models.get embedderName none = .ok model ∧
    service.work engine search model image topK = .ok hits

/-- Every row number is the padding or a row of the index. -/
def ValidRows (index : Index V) (hits : Hits K) : Prop :=
  ∀ hit ∈ hits, hit.2 = -1 ∨ (0 ≤ hit.2 ∧ hit.2 < index.ntotal)

theorem labels_of_load {artefacts : Artefacts V} (loaded : load artefacts = .ok index) :
    index.index.ntotal = index.labels.length := by
  unfold load at loaded
  split at loaded
  · split at loaded
    · cases loaded
    · rename_i agree
      cases loaded
      exact not_not.mp agree
  · cases loaded

/-- After a search, the response is the results of the loop. -/
theorem findSimilar_ok_iff {service : SimilarityService V Session}
    {engine : Engine Session Tensor Logits Score} {search : Faiss V Logits K} {image : Bytes}
    {topK : ℤ} {hits : Hits K} (searched : Searched service engine search image topK hits)
    (correlationId : String) (minSimilarity : K) (wanted : List (SimilarImage K) → Prop) :
    (∃ response, service.findSimilar engine search image correlationId topK minSimilarity =
        .ok response ∧ wanted response.results) ↔
      ∃ results, collectResults service.index service.classNames minSimilarity hits [] =
        .ok results ∧ wanted results := by
  rcases searched.validated with ⟨metadata, validated⟩
  rcases searched.found with ⟨model, resolved, found⟩
  have rest : service.findSimilar engine search image correlationId topK minSimilarity = (do
      let results ← collectResults service.index service.classNames minSimilarity hits []
      return ⟨results, service.index.index.ntotal, correlationId, model.name, model.version,
        model.backend.value⟩) := by
    simp only [SimilarityService.findSimilar, validated, resolved, Except.mapError]
    change (service.work engine search model image topK >>= _) = _
    rw [found]
    rfl
  rw [rest]
  constructor
  · rintro ⟨response, returned, isWanted⟩
    rcases bind_ok_iff.mp returned with ⟨results, collected, ⟨⟩⟩
    exact ⟨results, collected, isWanted⟩
  · rintro ⟨results, collected, isWanted⟩
    exact ⟨_, bind_ok_iff.mpr ⟨results, collected, rfl⟩, isWanted⟩

/-- A search names the right images exactly when every selected hit is nameable. -/
theorem findSimilar_namesRight_iff {service : SimilarityService V Session}
    {engine : Engine Session Tensor Logits Score} {search : Faiss V Logits K} {image : Bytes}
    {topK : ℤ} {hits : Hits K} {artefacts : Artefacts V}
    (loaded : load artefacts = .ok service.index)
    (searched : Searched service engine search image topK hits)
    (valid : ValidRows service.index.index hits) (correlationId : String) (minSimilarity : K) :
    (∃ response, service.findSimilar engine search image correlationId topK minSimilarity =
        .ok response ∧
      NamesRight service.index service.classNames minSimilarity hits response.results) ↔
    ∀ hit ∈ selected minSimilarity hits, Nameable service.index service.classNames hit := by
  rw [findSimilar_ok_iff searched]
  apply collectResults_namesRight_iff
  intro hit isHit inIndex
  rw [← labels_of_load loaded]
  rcases valid hit isHit with padding | ⟨_, below⟩
  · omega
  · omega

/-! ## An appended image -/

/-- The metadata of an index with one image. -/
def smallMetadata : IndexMetadata :=
  ⟨1, 384, "cosine", "tiny-imagenet-embedder:v1", 224, "IndexFlatIP"⟩

/-- A registered embedder. -/
def smallEmbedder : LoadedModel Unit :=
  { smallModel with name := embedderName, task := .embedding }

/-- A service whose index has one image. -/
def smallSimilarity (label : ℤ) : SimilarityService Unit Unit where
  models := ⟨⟨[], .onnx, true⟩, [("tiny-imagenet-embedder:v1", smallEmbedder)],
    [("tiny-imagenet-embedder", "v1")]⟩
  index := ⟨⟨384, [()]⟩, [label], ["new/1.jpg"], smallMetadata⟩
  limits := ⟨10485760, 25000000, 32⟩
  pillowLimit := 25000000
  classNames := ["goldfish"]

/-- A search that finds this image. -/
def smallSearch : Faiss Unit Unit ℚ :=
  fun _ _ _ => .ok [(1, 0)]

theorem searched_small (label : ℤ) :
    Searched (smallSimilarity label) smallEngine smallSearch [0] 1 [(1, 0)] where
  validated := ⟨_, rfl⟩
  found := ⟨smallEmbedder, rfl, rfl⟩

/-- An image that is appended without a label is called a goldfish. -/
theorem findSimilar_unlabelled :
    ¬∃ response, (smallSimilarity (-1)).findSimilar smallEngine smallSearch [0] "c" 1 0 =
        .ok response ∧
      NamesRight (smallSimilarity (-1)).index (smallSimilarity (-1)).classNames 0 [((1 : ℚ), 0)]
        response.results := by
  rw [findSimilar_ok_iff (searched_small (-1)), collectResults_namesRight_iff]
  · intro nameable
    have isSelected : ((1 : ℚ), (0 : ℤ)) ∈ selected 0 [((1 : ℚ), 0)] := by
      simp [selected]
    rcases (nameable _ isSelected).label (-1) rfl with nonneg | accident
    · cases nonneg
    · exact absurd accident (by decide)
  · intro hit isHit _
    rw [List.mem_singleton.mp isHit]
    exact Nat.one_pos

/-- Three images, the last of a class without a name. -/
def threeImages : SimilarityService Unit Unit :=
  { smallSimilarity 0 with
    index := ⟨⟨384, [(), (), ()]⟩, [1, 0, 7], ["a.jpg", "b.jpg", "c.jpg"],
      { smallMetadata with numVectors := 3 }⟩
    classNames := ["goldfish", "shark"] }

/-- The files of an index with three images. -/
def threeArtefacts : Artefacts Unit :=
  ⟨some threeImages.index.index, some ⟨[1, 0, 7], ["a.jpg", "b.jpg", "c.jpg"]⟩,
    some threeImages.index.metadata, []⟩

/-- The three rows by descending score, and one padding. -/
def threeHits : Hits ℚ :=
  [(1, 0), (1 / 2, 2), (1 / 4, 1), (-1, -1)]

/-- A search that finds them. -/
def threeSearch : Faiss Unit Unit ℚ :=
  fun _ _ _ => .ok threeHits

/-- Of four hits the two similar ones are named, the second by the label of its class. -/
theorem findSimilar_labelled :
    selected (1 / 3) threeHits = [(1, 0), (1 / 2, 2)] ∧
      threeImages.classNames[7]? = none ∧
      ∃ response, threeImages.findSimilar smallEngine threeSearch [0] "c" 4 (1 / 3) =
          .ok response ∧
        NamesRight threeImages.index threeImages.classNames (1 / 3) threeHits
          response.results := by
  have similar : selected (1 / 3) threeHits = [(1, 0), (1 / 2, 2)] := by
    decide +kernel
  have loaded : load threeArtefacts = .ok threeImages.index := rfl
  have searched : Searched threeImages smallEngine threeSearch [0] 4 threeHits :=
    ⟨⟨_, rfl⟩, smallEmbedder, rfl, rfl⟩
  have valid : ValidRows threeImages.index.index threeHits := by
    unfold ValidRows
    decide +kernel
  refine ⟨similar, rfl, (findSimilar_namesRight_iff loaded searched valid "c" (1 / 3)).mpr ?_⟩
  intro hit isSelected
  rw [similar] at isSelected
  have isKnown : hit = (1, 0) ∨ hit = (1 / 2, 2) := by
    simpa using isSelected
  rcases isKnown with rfl | rfl
  · refine ⟨by decide +kernel, by decide, ?_⟩
    rintro label ⟨⟩
    exact Or.inl zero_le_one
  · refine ⟨by decide +kernel, by decide, ?_⟩
    rintro label ⟨⟩
    exact Or.inl (by decide)

end VisionApi.Similarity
