import VisionApi.Foundation.Fallible
import VisionApi.Foundation.JsonRoundTrip
import VisionApi.Similarity.Index

/-!
# The files `append_to_index` leaves behind

The artefacts as files: the bytes of the index and the texts of the manifest and
the metadata, each of which may be missing or hold any JSON.  The checks come
before the first write, but serialising the manifest, reading the metadata and
looking its entries up come after one.

`prepareAppend` is the part before the first write and `commitAppend` the part with the
writes; together they are the function of the source.  The outcome has the writes that
were performed and the result, so a call that raises shows how far it came.

A call that raises must leave the files as they were.  In the first part it does.  In the
second part it has written by then, and the files are the same only if the writes wrote
what was there (`Unmoved`), or if nothing raises (`Finishes`).  The theorem puts these
conditions on the files and the arguments, with the libraries as parameters: `Lawful`
asks only that what FAISS and `json` write can be read back.
-/

namespace VisionApi.Similarity

open Foundation

variable {V Bytes Number : Type}

/-- What the function raises. -/
inductive AppendError where
  | fileNotFound (message : String)
  | value (message : String)
  | runtime (message : String)
  | index (message : String)
  | key (name : String)
  | type
  | attribute
  | recursion
deriving DecidableEq

/-- `faiss`, `json` and the norm test.  A `Number` is a leaf that is not of another JSON type: a
float or, in an argument, an object `json.dumps` may refuse. -/
structure ArtefactLibrary (V Bytes Number : Type) where
  /-- The norm is within `1e-3` of one. -/
  unitNorm : V → Bool
  readIndex : Bytes → Except AppendError (Index V)
  writeIndex : Index V → Bytes
  loads : String → Except AppendError (Json Number)
  /-- `json.dumps` with `indent=2`. -/
  dumps : Json Number → Except AppendError String

/-- The three files, each of which may be missing. -/
structure Directory (Bytes : Type) where
  index : Option Bytes
  manifest : Option String
  metadata : Option String
deriving DecidableEq

/-- A contiguous `float32` array; `vectors` are its slices along the last axis. -/
structure NdArray (V : Type) where
  shape : List ℕ
  vectors : List V

/-- What `append_to_index` returns; four of its fields are whatever the metadata holds. -/
structure AppendedMetadata (Number : Type) where
  numVectors : ℕ
  embeddingDim : ℕ
  metric : Json Number
  sourceModel : Json Number
  imageSize : Json Number
  indexType : Json Number

/-! ## Before the first write -/

/-- `shape[1]`. -/
def NdArray.width (embeddings : NdArray V) : Except AppendError ℕ :=
  match embeddings.shape with
  | _ :: width :: _ => .ok width
  | _ => .error (.index "tuple index out of range")

/-- `index.add(embeddings)`. -/
def Index.add (index : Index V) (embeddings : NdArray V) : Except AppendError (Index V) :=
  match embeddings.shape with
  | [_, _] => .ok ⟨index.dimension, index.vectors ++ embeddings.vectors⟩
  | _ => .error (.value "too many values to unpack (expected 2)")

/-- A value that is subscripted with a text, or assigned to under one. -/
def asDict : Json Number → Except AppendError (List (String × Json Number))
  | .object members => .ok members
  | _ => .error .type

/-- `manifest[key].extend(items)`. -/
def extendColumn (manifest : List (String × Json Number)) (key : String)
    (items : List (Json Number)) : Except AppendError (List (String × Json Number)) :=
  match Dict.get? manifest key with
  | none => .error (.key key)
  | some (.array known) => .ok (Dict.set manifest key (.array (known ++ items)))
  | some _ => .error .attribute

/-- `len(manifest["labels"])`, once it has been extended. -/
def labelCount (manifest : List (String × Json Number)) : ℕ :=
  match Dict.get? manifest "labels" with
  | some (.array labels) => labels.length
  | _ => 0

/-- Raise unless a condition holds. -/
def ensure (condition : Bool) (error : AppendError) : Except AppendError Unit :=
  if condition then .ok () else .error error

/-- `read_text()` of a file. -/
def readText (artifactsDir name : String) : Option String → Except AppendError String
  | some text => .ok text
  | none =>
      .error (.fileNotFound
        ("[Errno 2] No such file or directory: '" ++ artifactsDir ++ "/" ++ name ++ "'"))

/-- `read_index`, where the existence of the file is checked first. -/
def indexBytes (artifactsDir : String) : Option Bytes → Except AppendError Bytes
  | some bytes => .ok bytes
  | none =>
      .error (.fileNotFound ("No index at " ++ artifactsDir ++
        "/similarity.index. Build one first with scripts/build_similarity_index.py."))

/-- The grown index and the extended manifest, in memory. -/
structure Prepared (V Number : Type) where
  index : Index V
  manifest : List (String × Json Number)

variable (library : ArtefactLibrary V Bytes Number) (artifactsDir : String)
  (directory : Directory Bytes)

/-- `append_to_index` up to its consistency check. -/
def prepareAppend (embeddings : NdArray V) (labels paths : List (Json Number)) :
    Except AppendError (Prepared V Number) := do
  let bytes ← indexBytes artifactsDir directory.index
  ensure (embeddings.vectors.all library.unitNorm)
    (.value ("New embeddings are not unit-norm; inner product would no longer " ++
      "equal cosine similarity for these rows only, making their scores " ++
      "incomparable with the rest of the index."))
  let index ← library.readIndex bytes
  let width ← embeddings.width
  ensure (index.dimension == width)
    (.value ("Index has dimension " ++ toString index.dimension ++
      " but the new embeddings have " ++ toString width ++
      ". They come from a different model."))
  let text ← readText artifactsDir "similarity_manifest.json" directory.manifest
  let value ← library.loads text
  let grown ← index.add embeddings
  let manifest ← asDict value
  let manifest ← extendColumn manifest "labels" labels
  let manifest ← extendColumn manifest "paths" paths
  ensure (grown.ntotal == labelCount manifest)
    (.runtime ("Index and manifest diverged: " ++ toString grown.ntotal ++
      " vectors against " ++ toString (labelCount manifest) ++
      " entries. Neither has been written."))
  return ⟨grown, manifest⟩

/-! ## The writes -/

/-- The writing of one file. -/
inductive FileWrite (Bytes : Type) where
  | index (content : Bytes)
  | manifest (content : String)
  | metadata (content : String)

/-- The writes a call performs, in order, and how it ends. -/
structure AppendOutcome (Bytes Number : Type) where
  writes : List (FileWrite Bytes)
  result : Except AppendError (AppendedMetadata Number)

/-- The files after a write. -/
def Directory.perform (directory : Directory Bytes) : FileWrite Bytes → Directory Bytes
  | .index content => { directory with index := some content }
  | .manifest content => { directory with manifest := some content }
  | .metadata content => { directory with metadata := some content }

/-- The files after several writes. -/
def Directory.performAll (directory : Directory Bytes) (writes : List (FileWrite Bytes)) :
    Directory Bytes :=
  writes.foldl Directory.perform directory

/-- The metadata with the new size, and its text. -/
def updateMetadata (index : Index V) :
    Except AppendError (List (String × Json Number) × String) := do
  let text ← readText artifactsDir "similarity_metadata.json" directory.metadata
  let value ← library.loads text
  let metadata ← asDict value
  let metadata := Dict.set metadata "num_vectors" (.int index.ntotal)
  let written ← library.dumps (.object metadata)
  return (metadata, written)

/-- `metadata[key]`. -/
def lookup (metadata : List (String × Json Number)) (key : String) :
    Except AppendError (Json Number) :=
  match Dict.get? metadata key with
  | some value => .ok value
  | none => .error (.key key)

/-- What is returned, read from the new metadata. -/
def appendedMetadata (index : Index V) (metadata : List (String × Json Number)) :
    Except AppendError (AppendedMetadata Number) := do
  let metric ← lookup metadata "metric"
  let sourceModel ← lookup metadata "source_model"
  let imageSize ← lookup metadata "image_size"
  let indexType ← lookup metadata "index_type"
  return ⟨index.ntotal, index.dimension, metric, sourceModel, imageSize, indexType⟩

/-- `append_to_index` from its first write on.  The metadata are read after two writes to other
files. -/
def commitAppend (prepared : Prepared V Number) : AppendOutcome Bytes Number :=
  let index := FileWrite.index (library.writeIndex prepared.index)
  match library.dumps (.object prepared.manifest) with
  | .error error => ⟨[index], .error error⟩
  | .ok manifest =>
      match updateMetadata library artifactsDir directory prepared.index with
      | .error error => ⟨[index, .manifest manifest], .error error⟩
      | .ok (metadata, written) =>
          ⟨[index, .manifest manifest, .metadata written],
            appendedMetadata prepared.index metadata⟩

/-- The checks and then the writes. -/
def Directory.appendToIndex (embeddings : NdArray V) (labels paths : List (Json Number)) :
    AppendOutcome Bytes Number :=
  match prepareAppend library artifactsDir directory embeddings labels paths with
  | .error error => ⟨[], .error error⟩
  | .ok prepared => commitAppend library artifactsDir directory prepared

/-! ## When the checks pass -/

section Checks

variable {artifactsDir}

@[simp]
theorem ensure_ok_iff {condition : Bool} {error : AppendError} {done : Unit} :
    ensure condition error = .ok done ↔ condition = true := by
  cases condition with
  | false => simp [ensure]
  | true => simp [ensure]

@[simp]
theorem readText_ok_iff {name text : String} {file : Option String} :
    readText artifactsDir name file = .ok text ↔ file = some text := by
  cases file with
  | none => simp [readText]
  | some found => simp [readText]

@[simp]
theorem indexBytes_ok_iff {file : Option Bytes} {bytes : Bytes} :
    indexBytes artifactsDir file = .ok bytes ↔ file = some bytes := by
  cases file with
  | none => simp [indexBytes]
  | some found => simp [indexBytes]

@[simp]
theorem asDict_ok_iff {value : Json Number} {members : List (String × Json Number)} :
    asDict value = .ok members ↔ value = .object members := by
  cases value with
  | object found => simp [asDict]
  | null | bool | int | float | string | array => simp [asDict]

theorem extendColumn_ok_iff {manifest extended : List (String × Json Number)} {key : String}
    {items : List (Json Number)} : extendColumn manifest key items = .ok extended ↔
      ∃ known, Dict.get? manifest key = some (.array known) ∧
        extended = Dict.set manifest key (.array (known ++ items)) := by
  unfold extendColumn
  split
  · rename_i absent
    simp [absent]
  · rename_i known isKnown
    simp [isKnown, eq_comm]
  · rename_i value other isValue
    simp only [isValue, Option.some.injEq, reduceCtorEq, false_iff]
    rintro ⟨known, rfl, _⟩
    exact other known rfl

end Checks

/-- What the checks ask of the files and the arguments: a readable index, unit-norm vectors in a
matrix of its width, and a manifest whose two lists grow to the size of the index. -/
structure Appendable (embeddings : NdArray V) (labels : List (Json Number)) (index : Index V)
    (manifest : List (String × Json Number)) (oldLabels oldPaths : List (Json Number)) : Prop where
  hasIndex : ∃ bytes, directory.index = some bytes ∧ library.readIndex bytes = .ok index
  unitNorm : embeddings.vectors.all library.unitNorm = true
  shape : ∃ count, embeddings.shape = [count, index.dimension]
  hasManifest : ∃ text, directory.manifest = some text ∧
    library.loads text = .ok (.object manifest)
  hasLabels : Dict.get? manifest "labels" = some (.array oldLabels)
  hasPaths : Dict.get? manifest "paths" = some (.array oldPaths)
  count : index.ntotal + embeddings.vectors.length = oldLabels.length + labels.length

/-- The index and the manifest with the new vectors, labels and paths. -/
def grow (embeddings : NdArray V) (labels paths : List (Json Number)) (index : Index V)
    (manifest : List (String × Json Number)) (oldLabels oldPaths : List (Json Number)) :
    Prepared V Number :=
  ⟨⟨index.dimension, index.vectors ++ embeddings.vectors⟩,
    Dict.set (Dict.set manifest "labels" (.array (oldLabels ++ labels))) "paths"
      (.array (oldPaths ++ paths))⟩

theorem ntotal_grow (embeddings : NdArray V) (labels paths : List (Json Number))
    (index : Index V) (manifest : List (String × Json Number))
    (oldLabels oldPaths : List (Json Number)) :
    (grow embeddings labels paths index manifest oldLabels oldPaths).index.ntotal =
      index.ntotal + embeddings.vectors.length :=
  List.length_append

theorem labelCount_grow (embeddings : NdArray V) (labels paths : List (Json Number))
    (index : Index V) (manifest : List (String × Json Number))
    (oldLabels oldPaths : List (Json Number)) :
    labelCount (grow embeddings labels paths index manifest oldLabels oldPaths).manifest =
      oldLabels.length + labels.length := by
  have apart : "labels" ≠ "paths" := by decide
  simp only [labelCount, grow]
  rw [Dict.get?_set_ne _ apart, Dict.get?_set_self]
  exact List.length_append

variable {library artifactsDir directory}

theorem width_of_add {index grown : Index V} {embeddings : NdArray V} {width : ℕ}
    (added : index.add embeddings = .ok grown) (isWidth : embeddings.width = .ok width) :
    (∃ count, embeddings.shape = [count, width]) ∧
      grown = ⟨index.dimension, index.vectors ++ embeddings.vectors⟩ := by
  unfold Index.add at added
  split at added
  · rename_i count other shape
    cases added
    simp only [NdArray.width, shape, Except.ok.injEq] at isWidth
    subst isWidth
    exact ⟨⟨count, shape⟩, rfl⟩
  · cases added

/-- The checks pass on what they ask for and on nothing else. -/
theorem prepareAppend_ok_iff {embeddings : NdArray V} {labels paths : List (Json Number)}
    {prepared : Prepared V Number} :
    prepareAppend library artifactsDir directory embeddings labels paths = .ok prepared ↔
      ∃ index manifest oldLabels oldPaths,
        Appendable library directory embeddings labels index manifest oldLabels oldPaths ∧
        prepared = grow embeddings labels paths index manifest oldLabels oldPaths := by
  have apart : "paths" ≠ "labels" := by decide
  simp only [prepareAppend, bind_ok_iff, indexBytes_ok_iff, ensure_ok_iff, readText_ok_iff,
    asDict_ok_iff, extendColumn_ok_iff, beq_iff_eq]
  constructor
  · rintro ⟨bytes, isIndex, _, norms, index, reads, width, isWidth, _, sameWidth, text, isManifest,
      value, loads, grown, added, manifest, rfl, _, ⟨oldLabels, hasLabels, rfl⟩, _,
      ⟨oldPaths, hasPaths, rfl⟩, _, counts, returned⟩
    rcases width_of_add added isWidth with ⟨shape, rfl⟩
    subst sameWidth
    rw [Dict.get?_set_ne _ apart] at hasPaths
    refine ⟨index, manifest, oldLabels, oldPaths, ?_, (Except.ok.inj returned).symm⟩
    refine ⟨⟨bytes, isIndex, reads⟩, norms, shape, ⟨text, isManifest, loads⟩, hasLabels, hasPaths,
      ?_⟩
    rw [← ntotal_grow embeddings labels paths index manifest oldLabels oldPaths,
      ← labelCount_grow embeddings labels paths index manifest oldLabels oldPaths]
    exact counts
  · rintro ⟨index, manifest, oldLabels, oldPaths, appendable, rfl⟩
    rcases appendable.hasIndex with ⟨bytes, isIndex, reads⟩
    rcases appendable.hasManifest with ⟨text, isManifest, loads⟩
    rcases appendable.shape with ⟨count, shape⟩
    refine ⟨bytes, isIndex, (), appendable.unitNorm, index, reads, index.dimension,
      by simp [NdArray.width, shape], (), rfl, text, isManifest, _, loads, _,
      by rw [Index.add, shape], manifest, rfl, _, ⟨oldLabels, appendable.hasLabels, rfl⟩, _,
      ⟨oldPaths, ?_, rfl⟩, (), ?_, rfl⟩
    · rw [Dict.get?_set_ne _ apart]
      exact appendable.hasPaths
    · change (grow embeddings labels paths index manifest oldLabels oldPaths).index.ntotal =
        labelCount (grow embeddings labels paths index manifest oldLabels oldPaths).manifest
      rw [ntotal_grow, labelCount_grow]
      exact appendable.count

/-! ## After the first write -/

variable (library directory)

/-- The metadata with the size of an index. -/
def resized (index : Index V) (metadata : List (String × Json Number)) :
    List (String × Json Number) :=
  Dict.set metadata "num_vectors" (.int index.ntotal)

/-- The entries of the metadata that are returned as they are. -/
def returnedKeys : List String :=
  ["metric", "source_model", "image_size", "index_type"]

/-- The metadata file holds a dictionary that can be written with the new size. -/
def Rewrites (index : Index V) (metadata : List (String × Json Number)) (written : String) : Prop :=
  ∃ text, directory.metadata = some text ∧ library.loads text = .ok (.object metadata) ∧
    library.dumps (.object (resized index metadata)) = .ok written

/-- What the call needs once it has begun to write: a manifest that can be written, and metadata
that can be rewritten and have every entry it returns. -/
structure Finishes (prepared : Prepared V Number) : Prop where
  manifest : Succeeds (library.dumps (.object prepared.manifest))
  metadata : ∃ metadata written, Rewrites library directory prepared.index metadata written ∧
    ∀ key ∈ returnedKeys, (Dict.get? metadata key).isSome = true

/-- Every file the call gets to write already has the content it writes. -/
structure Unmoved (prepared : Prepared V Number) : Prop where
  index : directory.index = some (library.writeIndex prepared.index)
  manifest : ∀ text, library.dumps (.object prepared.manifest) = .ok text →
    directory.manifest = some text
  metadata : ∀ metadata written, Succeeds (library.dumps (.object prepared.manifest)) →
    Rewrites library directory prepared.index metadata written → directory.metadata = some written

variable {library directory}

/-- The metadata are rewritten with the new sizes. -/
theorem updateMetadata_ok_iff {index : Index V} {metadata : List (String × Json Number)}
    {written : String} :
    updateMetadata library artifactsDir directory index = .ok (metadata, written) ↔
      ∃ members, Rewrites library directory index members written ∧
        metadata = resized index members := by
  simp only [updateMetadata, bind_ok_iff, readText_ok_iff, asDict_ok_iff]
  constructor
  · rintro ⟨text, isMetadata, value, loads, members, rfl, other, dumps, returned⟩
    cases returned
    exact ⟨members, ⟨text, isMetadata, loads, dumps⟩, rfl⟩
  · rintro ⟨members, ⟨text, isMetadata, loads, dumps⟩, rfl⟩
    exact ⟨text, isMetadata, _, loads, members, rfl, written, dumps, rfl⟩

theorem lookup_succeeds_iff {metadata : List (String × Json Number)} {key : String} :
    Succeeds (lookup metadata key) ↔ (Dict.get? metadata key).isSome = true := by
  unfold lookup
  cases Dict.get? metadata key with
  | none => simp
  | some value => simp

/-- The result is returned exactly if its entries are there. -/
theorem appendedMetadata_succeeds_iff {index : Index V} {metadata : List (String × Json Number)} :
    Succeeds (appendedMetadata index metadata) ↔
      ∀ key ∈ returnedKeys, (Dict.get? metadata key).isSome = true := by
  simp only [appendedMetadata, bind_succeeds_iff, returnedKeys, List.forall_mem_cons,
    List.not_mem_nil, false_imp_iff, implies_true, and_true, ← lookup_succeeds_iff]
  constructor
  · rintro ⟨_, metric, _, sourceModel, _, imageSize, _, indexType, _⟩
    exact ⟨⟨_, metric⟩, ⟨_, sourceModel⟩, ⟨_, imageSize⟩, ⟨_, indexType⟩⟩
  · rintro ⟨⟨_, metric⟩, ⟨_, sourceModel⟩, ⟨_, imageSize⟩, ⟨_, indexType⟩⟩
    exact ⟨_, metric, _, sourceModel, _, imageSize, _, indexType, succeeds_ok _⟩

/-- The new sizes leave the other entries alone. -/
theorem get?_resized {index : Index V} {metadata : List (String × Json Number)} {key : String}
    (returned : key ∈ returnedKeys) :
    Dict.get? (resized index metadata) key = Dict.get? metadata key := by
  apply Dict.get?_set_ne
  rintro rfl
  exact absurd returned (by decide)

/-- The metadata that are rewritten, and their text, are the only ones. -/
theorem Rewrites.unique {index : Index V} {metadata other : List (String × Json Number)}
    {written text : String} (first : Rewrites library directory index metadata written)
    (second : Rewrites library directory index other text) : other = metadata ∧ text = written := by
  rcases first with ⟨source, isSource, loads, dumps⟩
  rcases second with ⟨source', isSource', loads', dumps'⟩
  cases isSource.symm.trans isSource'
  cases loads.symm.trans loads'
  cases dumps.symm.trans dumps'
  exact ⟨rfl, rfl⟩

/-- Once it has begun to write, the call returns exactly when it finds what it needs. -/
theorem commitAppend_succeeds_iff {prepared : Prepared V Number} :
    Succeeds (commitAppend library artifactsDir directory prepared).result ↔
      Finishes library directory prepared := by
  unfold commitAppend
  split
  · rename_i error dumps
    simp only [not_succeeds_error, false_iff]
    rintro ⟨⟨manifest, dumped⟩, _⟩
    cases dumps.symm.trans dumped
  · rename_i manifest dumps
    split
    · rename_i error updates
      simp only [not_succeeds_error, false_iff]
      rintro ⟨_, metadata, written, rewrites, _⟩
      cases updates.symm.trans (updateMetadata_ok_iff.mpr ⟨metadata, rewrites, rfl⟩)
    · rename_i metadata written updates
      rcases updateMetadata_ok_iff.mp updates with ⟨members, rewrites, rfl⟩
      rw [appendedMetadata_succeeds_iff]
      constructor
      · intro present
        refine ⟨⟨manifest, dumps⟩, members, written, rewrites, ?_⟩
        intro key returned
        have found := present key returned
        rw [get?_resized returned] at found
        exact found
      · rintro ⟨_, other, text, second, present⟩ key returned
        rcases rewrites.unique second with ⟨rfl, rfl⟩
        rw [get?_resized returned]
        exact present key returned

/-- When writes leave the files as they are. -/
theorem Directory.performAll_eq_iff {files : Directory Bytes} {index : Bytes} :
    (files.performAll [.index index] = files ↔ files.index = some index) ∧
    (∀ manifest, files.performAll [.index index, .manifest manifest] = files ↔
      files.index = some index ∧ files.manifest = some manifest) ∧
    (∀ manifest metadata,
      files.performAll [.index index, .manifest manifest, .metadata metadata] = files ↔
        files.index = some index ∧ files.manifest = some manifest ∧
          files.metadata = some metadata) := by
  rcases files with ⟨oldIndex, oldManifest, oldMetadata⟩
  simp [performAll, perform, eq_comm]

/-- The files are as before exactly when every write is of what is there. -/
theorem commitAppend_unchanged_iff {prepared : Prepared V Number} :
    directory.performAll (commitAppend library artifactsDir directory prepared).writes =
      directory ↔ Unmoved library directory prepared := by
  unfold commitAppend
  split
  · rename_i error dumps
    rw [Directory.performAll_eq_iff.1]
    constructor
    · intro same
      refine ⟨same, ?_, ?_⟩
      · intro text dumped
        cases dumps.symm.trans dumped
      · rintro metadata written ⟨text, dumped⟩
        cases dumps.symm.trans dumped
    · exact Unmoved.index
  · rename_i manifest dumps
    split
    · rename_i error updates
      rw [Directory.performAll_eq_iff.2.1]
      constructor
      · rintro ⟨sameIndex, sameManifest⟩
        refine ⟨sameIndex, ?_, ?_⟩
        · intro text dumped
          cases dumps.symm.trans dumped
          exact sameManifest
        · intro metadata written _ rewrites
          cases updates.symm.trans (updateMetadata_ok_iff.mpr ⟨metadata, rewrites, rfl⟩)
      · intro unmoved
        exact ⟨unmoved.index, unmoved.manifest manifest dumps⟩
    · rename_i metadata written updates
      rcases updateMetadata_ok_iff.mp updates with ⟨members, rewrites, rfl⟩
      rw [Directory.performAll_eq_iff.2.2]
      constructor
      · rintro ⟨sameIndex, sameManifest, sameMetadata⟩
        refine ⟨sameIndex, ?_, ?_⟩
        · intro text dumped
          cases dumps.symm.trans dumped
          exact sameManifest
        · intro other text _ second
          rcases rewrites.unique second with ⟨_, rfl⟩
          exact sameMetadata
      · intro unmoved
        exact ⟨unmoved.index, unmoved.manifest manifest dumps,
          unmoved.metadata members written ⟨manifest, dumps⟩ rewrites⟩

/-- Where a written index reads back, files that do not move have been given no vectors. -/
theorem Unmoved.adds_nothing {embeddings : NdArray V} {labels paths : List (Json Number)}
    {index : Index V} {manifest : List (String × Json Number)}
    {oldLabels oldPaths : List (Json Number)}
    (readsBack : ∀ index, library.readIndex (library.writeIndex index) = .ok index)
    (appendable : Appendable library directory embeddings labels index manifest oldLabels oldPaths)
    (unmoved : Unmoved library directory
      (grow embeddings labels paths index manifest oldLabels oldPaths)) :
    embeddings.vectors = [] := by
  rcases appendable.hasIndex with ⟨bytes, isIndex, reads⟩
  cases isIndex.symm.trans unmoved.index
  have same := Except.ok.inj (reads.symm.trans (readsBack _))
  have sameVectors : index.vectors = index.vectors ++ embeddings.vectors :=
    congrArg Index.vectors same
  exact List.append_right_eq_self.mp sameVectors.symm

/-! ## The typed artefacts -/

/-- The entries of the manifest. -/
def manifestMembers (manifest : Manifest) : List (String × Json Number) :=
  [("labels", .array (manifest.labels.map .int)), ("paths", .array (manifest.paths.map .string))]

/-- `IndexMetadata.as_dict`. -/
def metadataMembers (metadata : IndexMetadata) : List (String × Json Number) :=
  [("num_vectors", .int metadata.numVectors), ("embedding_dim", .int metadata.embeddingDim),
    ("metric", .string metadata.metric), ("source_model", .string metadata.sourceModel),
    ("image_size", .int metadata.imageSize), ("index_type", .string metadata.indexType)]

/-- Indexes, manifests and metadata can be written and are read back. -/
structure ArtefactLibrary.Lawful (library : ArtefactLibrary V Bytes Number) : Prop where
  index : ∀ index, library.readIndex (library.writeIndex index) = .ok index
  manifest : ∀ manifest, ∃ text, library.dumps (.object (manifestMembers manifest)) = .ok text ∧
    library.loads text = .ok (.object (manifestMembers manifest))
  metadata : ∀ metadata, ∃ text, library.dumps (.object (metadataMembers metadata)) = .ok text ∧
    library.loads text = .ok (.object (metadataMembers metadata))

/-- The library whose `json` is the reader and writer of this development, on files that hold
their index as it is. -/
def ArtefactLibrary.ofText (floats : Json.FloatText Number) (unitNorm : V → Bool) :
    ArtefactLibrary V (Index V) Number where
  unitNorm := unitNorm
  readIndex := .ok
  writeIndex := id
  loads text :=
    match Json.loads floats text with
    | some value => .ok value
    | none => .error (.value "JSONDecodeError")
  dumps value := .ok (Json.dumps floats .spaced value)

/-- The JSON that is written can be read back. -/
theorem ArtefactLibrary.loads_ofText {floats : Json.FloatText Number} {unitNorm : V → Bool}
    {value : Json Number} (wellFormed : Json.WellFormed floats value) :
    (ofText floats unitNorm).loads (Json.dumps floats .spaced value) = .ok value := by
  simp only [ofText, Json.loads_dumps wellFormed]

theorem wellFormed_manifestMembers (floats : Json.FloatText Number) (manifest : Manifest) :
    Json.WellFormed floats (.object (manifestMembers manifest)) := by
  refine .object _ (by simp [manifestMembers]) ?_
  simp only [manifestMembers, List.forall_mem_cons, List.not_mem_nil, false_imp_iff, implies_true,
    and_true]
  constructor
  · apply Json.WellFormed.array
    intro item isItem
    rcases List.mem_map.mp isItem with ⟨label, _, rfl⟩
    exact .int label
  · apply Json.WellFormed.array
    intro item isItem
    rcases List.mem_map.mp isItem with ⟨path, _, rfl⟩
    exact .string path

theorem wellFormed_metadataMembers (floats : Json.FloatText Number) (metadata : IndexMetadata) :
    Json.WellFormed floats (.object (metadataMembers metadata)) := by
  refine .object _ (by simp [metadataMembers]) ?_
  simp only [metadataMembers, List.forall_mem_cons, List.not_mem_nil, false_imp_iff, implies_true,
    and_true]
  exact ⟨.int _, .int _, .string _, .string _, .int _, .string _⟩

theorem ArtefactLibrary.ofText_lawful (floats : Json.FloatText Number) (unitNorm : V → Bool) :
    (ofText floats unitNorm).Lawful where
  index _ := rfl
  manifest manifest := ⟨_, rfl, loads_ofText (wellFormed_manifestMembers floats manifest)⟩
  metadata metadata := ⟨_, rfl, loads_ofText (wellFormed_metadataMembers floats metadata)⟩

/-! ## Atomicity -/

/-- A call that raises leaves the three files as they were. -/
def AtomicOnError (directory : Directory Bytes) (outcome : AppendOutcome Bytes Number) : Prop :=
  (∃ error, outcome.result = .error error) → directory.performAll outcome.writes = directory

theorem appendToIndex_of_appendable {embeddings : NdArray V} {labels paths : List (Json Number)}
    {index : Index V} {manifest : List (String × Json Number)}
    {oldLabels oldPaths : List (Json Number)}
    (appendable :
      Appendable library directory embeddings labels index manifest oldLabels oldPaths) :
    Directory.appendToIndex library artifactsDir directory embeddings labels paths =
      commitAppend library artifactsDir directory
        (grow embeddings labels paths index manifest oldLabels oldPaths) := by
  unfold Directory.appendToIndex
  rw [prepareAppend_ok_iff.mpr ⟨_, _, _, _, appendable, rfl⟩]

/-- A failed call leaves the files alone exactly when the checks do not pass, or the rest of the
call goes through, or it rewrites nothing but what is there. -/
theorem appendToIndex_atomic_iff (library : ArtefactLibrary V Bytes Number) (artifactsDir : String)
    (directory : Directory Bytes) (embeddings : NdArray V) (labels paths : List (Json Number)) :
    AtomicOnError directory
        (Directory.appendToIndex library artifactsDir directory embeddings labels paths) ↔
      ∀ index manifest oldLabels oldPaths,
        Appendable library directory embeddings labels index manifest oldLabels oldPaths →
        Finishes library directory
            (grow embeddings labels paths index manifest oldLabels oldPaths) ∨
          Unmoved library directory
            (grow embeddings labels paths index manifest oldLabels oldPaths) := by
  unfold AtomicOnError Directory.appendToIndex
  split
  · rename_i error fails
    constructor
    · intro _ index manifest oldLabels oldPaths appendable
      cases fails.symm.trans (prepareAppend_ok_iff.mpr ⟨_, _, _, _, appendable, rfl⟩)
    · intro _ _
      rfl
  · rename_i prepared passes
    rw [commitAppend_unchanged_iff]
    constructor
    · intro atomic index manifest oldLabels oldPaths appendable
      cases passes.symm.trans (prepareAppend_ok_iff.mpr ⟨_, _, _, _, appendable, rfl⟩)
      rcases isResult : (commitAppend library artifactsDir directory _).result with error | returned
      · exact Or.inr (atomic ⟨error, isResult⟩)
      · exact Or.inl (commitAppend_succeeds_iff.mp ⟨returned, isResult⟩)
    · rintro safe ⟨error, raised⟩
      rcases prepareAppend_ok_iff.mp passes with
        ⟨index, manifest, oldLabels, oldPaths, appendable, rfl⟩
      rcases safe index manifest oldLabels oldPaths appendable with finishes | unmoved
      · rcases commitAppend_succeeds_iff.mpr finishes with ⟨returned, isReturned⟩
        cases raised.symm.trans isReturned
      · exact unmoved

/-- No text is a float. -/
def noFloats : Json.FloatText Empty where
  write value := nomatch value
  read _ := none

/-- An index of one vector with its manifest, and no metadata. -/
def withoutMetadata : Directory (Index ℤ) where
  index := some ⟨1, [1]⟩
  manifest := some (Json.dumps noFloats .spaced (.object (manifestMembers ⟨[0], ["a.jpg"]⟩)))
  metadata := none

/-- Without the metadata a call fails with the index and the manifest written. -/
theorem appendToIndex_without_metadata :
    ¬AtomicOnError withoutMetadata
      (Directory.appendToIndex (.ofText noFloats fun value => value * value = 1) "artifacts"
        withoutMetadata ⟨[1, 1], [-1]⟩ [.int 1] [.string "b.jpg"]) := by
  have appendable : Appendable (.ofText noFloats fun value : ℤ => value * value = 1)
      withoutMetadata ⟨[1, 1], [-1]⟩ [.int 1] ⟨1, [1]⟩ (manifestMembers ⟨[0], ["a.jpg"]⟩)
      [.int 0] [.string "a.jpg"] := by
    refine ⟨⟨_, rfl, rfl⟩, rfl, ⟨1, rfl⟩, ⟨_, rfl, ?_⟩, rfl, rfl, rfl⟩
    exact ArtefactLibrary.loads_ofText (wellFormed_manifestMembers noFloats _)
  intro atomic
  rw [appendToIndex_of_appendable appendable] at atomic
  have unmoved := commitAppend_unchanged_iff.mp (atomic ⟨_, rfl⟩)
  have noVectors :=
    unmoved.adds_nothing (ArtefactLibrary.ofText_lawful noFloats _).index appendable
  cases noVectors

end VisionApi.Similarity
