import VisionApi.Foundation.Run
import Mathlib.Data.Int.Notation
import Mathlib.Data.Nat.Notation

/-!
# The similarity index on disk

`build_index`, `append_to_index` and `update_index_labels` keep three files: the
FAISS index with the vectors, a manifest with a label and a path for each row,
and metadata.  A call is modelled by the list of file writes it performs, in
order, and by how it ends; a call that is interrupted has performed a prefix.
Vectors are of any type with a test for unit norm.

The state has the files and, beside them, what was supplied for each vector of the index.
This second part is not in the source; it is what the labels of the index are compared
with.  A write changes both at once, so that a prefix of the writes leaves them in step.

`load` is the startup of the service.  It compares the number of vectors with the number
of labels and nothing else, and the metadata is required but not read.
-/

namespace VisionApi.Similarity

universe u

/-- `faiss.IndexFlatIP`. -/
structure Index (V : Type u) where
  dimension : ℕ
  vectors : List V

/-- The number of vectors. -/
def Index.ntotal {V : Type u} (index : Index V) : ℕ :=
  index.vectors.length

/-- A label and a path for each row. -/
structure Manifest where
  labels : List ℤ
  paths : List String
deriving DecidableEq

/-- What the metadata say about the index. -/
structure IndexMetadata where
  numVectors : ℕ
  embeddingDim : ℕ
  metric : String
  sourceModel : String
  imageSize : ℤ
  indexType : String

/-- An array of embeddings; `dimension` is `shape[1]`. -/
structure Embeddings (V : Type u) where
  dimension : ℕ
  vectors : List V

/-- What was supplied for a vector of the index: its labels and paths, the latest first. -/
structure Row (V : Type u) where
  vector : V
  labels : List ℤ
  paths : List String

/-- The artefacts directory, with the history of the rows of the index on disk. -/
structure Artefacts (V : Type u) where
  index : Option (Index V)
  manifest : Option Manifest
  metadata : Option IndexMetadata
  rows : List (Row V)

/-- No files. -/
def Artefacts.empty (V : Type u) : Artefacts V :=
  ⟨none, none, none, []⟩

/-- A file with its content. -/
inductive File (V : Type u) where
  | index (content : Index V)
  | manifest (content : Manifest)
  | metadata (content : IndexMetadata)

/-- The write of one file, and the history of the rows after it. -/
structure Write (V : Type u) where
  file : File V
  rows : List (Row V)

/-- What a call raises. -/
inductive OpError where
  | fileNotFound (message : String)
  | value (message : String)
  | runtime (message : String)
  | index (message : String)

/-- The writes a call performs and how it ends. -/
structure Outcome (V : Type u) (Result : Type) where
  writes : List (Write V)
  result : Except OpError Result

variable {V : Type u}

/-- The files after a write. -/
def Artefacts.perform (s : Artefacts V) (write : Write V) : Artefacts V :=
  match write.file with
  | .index content => { s with index := some content, rows := write.rows }
  | .manifest content => { s with manifest := some content, rows := write.rows }
  | .metadata content => { s with metadata := some content, rows := write.rows }

/-- The files after several writes. -/
def Artefacts.performAll (s : Artefacts V) : List (Write V) → Artefacts V
  | [] => s
  | write :: writes => (s.perform write).performAll writes

/-- A call that raises before its first write. -/
def raises {Result : Type} (error : OpError) : Outcome V Result :=
  ⟨[], .error error⟩

/-- The rows of vectors supplied together with labels and paths. -/
def newRows (vectors : List V) (labels : List ℤ) (paths : List String) : List (Row V) :=
  vectors.mapIdx fun position vector =>
    ⟨vector, labels[position]?.toList, paths[position]?.toList⟩

/-- Check the arguments, then write all three files. -/
def buildIndex (unitNorm : V → Bool) (embeddings : Embeddings V) (labels : List ℤ)
    (paths : List String) (sourceModel : String) (imageSize : ℤ) : Outcome V IndexMetadata :=
  if embeddings.vectors.all unitNorm then
    let index : Index V := ⟨embeddings.dimension, embeddings.vectors⟩
    let metadata : IndexMetadata :=
      ⟨index.ntotal, embeddings.dimension, "cosine", sourceModel, imageSize, "IndexFlatIP"⟩
    let rows := newRows embeddings.vectors labels paths
    ⟨[⟨.index index, rows⟩, ⟨.manifest ⟨labels, paths⟩, rows⟩, ⟨.metadata metadata, rows⟩],
      .ok metadata⟩
  else
    raises (.value
      "Embeddings are not unit-norm, so inner product will not equal cosine similarity.")

/-- Check the arguments and the files, then add vectors and extend the manifest. -/
def appendToIndex (unitNorm : V → Bool) (s : Artefacts V) (embeddings : Embeddings V)
    (labels : List ℤ) (paths : List String) : Outcome V IndexMetadata :=
  match s.index with
  | none =>
      raises (.fileNotFound
        "No index. Build one first with scripts/build_similarity_index.py.")
  | some index =>
      if !embeddings.vectors.all unitNorm then
        raises (.value ("New embeddings are not unit-norm; inner product would no longer " ++
          "equal cosine similarity for these rows only, making their scores " ++
          "incomparable with the rest of the index."))
      else if index.dimension ≠ embeddings.dimension then
        raises (.value ("Index has dimension " ++ toString index.dimension ++
          " but the new embeddings have " ++ toString embeddings.dimension ++
          ". They come from a different model."))
      else
        match s.manifest with
        | none => raises (.fileNotFound "similarity_manifest.json")
        | some manifest =>
            let grown : Index V := ⟨index.dimension, index.vectors ++ embeddings.vectors⟩
            let extended : Manifest := ⟨manifest.labels ++ labels, manifest.paths ++ paths⟩
            if grown.ntotal ≠ extended.labels.length then
              raises (.runtime ("Index and manifest diverged: " ++ toString grown.ntotal ++
                " vectors against " ++ toString extended.labels.length ++
                " entries. Neither has been written."))
            else
              let rows := s.rows ++ newRows embeddings.vectors labels paths
              let written : List (Write V) := [⟨.index grown, rows⟩, ⟨.manifest extended, rows⟩]
              match s.metadata with
              | none => ⟨written, .error (.fileNotFound "similarity_metadata.json")⟩
              | some metadata =>
                  let metadata := { metadata with numVectors := grown.ntotal }
                  ⟨written ++ [⟨.metadata metadata, rows⟩],
                    .ok { metadata with embeddingDim := grown.dimension }⟩

/-- A loop of `update_index_labels` over one column of the manifest, counting the changes. -/
def updateColumn {Value : Type} [DecidableEq Value] :
    List (ℤ × Value) → List Value → ℕ → Except OpError (List Value × ℕ)
  | [], column, changed => .ok (column, changed)
  | (row, value) :: updates, column, changed =>
      match column[row.toNat]? with
      | none => .error (.index "list index out of range")
      | some old =>
          if old ≠ value then updateColumn updates (column.set row.toNat value) (changed + 1)
          else updateColumn updates column changed

/-- The history of the rows after some of them have been supplied with a value. -/
def supply {Value : Type} (push : Value → Row V → Row V) :
    List (ℤ × Value) → List (Row V) → List (Row V)
  | [], rows => rows
  | (row, value) :: updates, rows => supply push updates (rows.modify row.toNat (push value))

/-- A label is supplied for the vector of a row. -/
def pushLabel (label : ℤ) (row : Row V) : Row V :=
  { row with labels := label :: row.labels }

/-- A path is supplied for the vector of a row. -/
def pushPath (path : String) (row : Row V) : Row V :=
  { row with paths := path :: row.paths }

/-- The positions of updates that are not rows. -/
def outOfRange (size : ℕ) (updates : List (ℤ × ℤ)) (pathUpdates : List (ℤ × String)) : List ℤ :=
  (updates.map Prod.fst ++ pathUpdates.map Prod.fst).eraseDups.filter
    fun row => !(0 ≤ row && row < (size : ℤ))

/-- `update_index_labels`; no path updates are an empty dictionary. -/
def updateIndexLabels (s : Artefacts V) (updates : List (ℤ × ℤ))
    (pathUpdates : List (ℤ × String)) : Outcome V ℕ :=
  match s.index, s.manifest with
  | some index, some manifest =>
      let size := index.ntotal
      let outside := outOfRange size updates pathUpdates
      if outside ≠ [] then
        raises (.index ("Row numbers outside the index (size " ++ toString size ++ "): " ++
          toString ((outside.mergeSort fun a b => a ≤ b).take 10) ++
          ". Writing them would desynchronise the manifest from the index and " ++
          "mislabel every subsequent result."))
      else
        match updateColumn updates manifest.labels 0 with
        | .error error => raises error
        | .ok (labels, changed) =>
            match updateColumn pathUpdates manifest.paths changed with
            | .error error => raises error
            | .ok (paths, changed) =>
                if labels.length ≠ size ∨ paths.length ≠ size then
                  raises (.runtime ("Manifest length (" ++ toString labels.length ++ " labels, " ++
                    toString paths.length ++ " paths) does not match the index (" ++
                    toString size ++ "). Nothing has been written."))
                else
                  ⟨[⟨.manifest ⟨labels, paths⟩,
                      supply pushPath pathUpdates (supply pushLabel updates s.rows)⟩], .ok changed⟩
  | _, _ => raises (.fileNotFound "No index or manifest")

/-! ## Calls -/

/-- A call of one of the three functions. -/
inductive Call (V : Type u) where
  | build (embeddings : Embeddings V) (labels : List ℤ) (paths : List String)
      (sourceModel : String) (imageSize : ℤ)
  | append (embeddings : Embeddings V) (labels : List ℤ) (paths : List String)
  | update (updates : List (ℤ × ℤ)) (pathUpdates : List (ℤ × String))

/-- An outcome without its result. -/
def Outcome.forget {Result : Type} (outcome : Outcome V Result) : Outcome V Unit :=
  ⟨outcome.writes, outcome.result.map fun _ => ()⟩

/-- The outcome of a call. -/
def Call.outcome (unitNorm : V → Bool) (s : Artefacts V) : Call V → Outcome V Unit
  | .build embeddings labels paths sourceModel imageSize =>
      (buildIndex unitNorm embeddings labels paths sourceModel imageSize).forget
  | .append embeddings labels paths => (appendToIndex unitNorm s embeddings labels paths).forget
  | .update updates pathUpdates => (updateIndexLabels s updates pathUpdates).forget

/-- A call that runs to its end, or is interrupted after some of its writes. -/
structure Event (V : Type u) where
  call : Call V
  interrupted : Option ℕ

/-- The writes of a call, up to where it is interrupted. -/
def Event.writes (unitNorm : V → Bool) (s : Artefacts V) (event : Event V) : List (Write V) :=
  let outcome := event.call.outcome unitNorm s
  match event.interrupted with
  | none => outcome.writes
  | some count => outcome.writes.take count

/-- A call is performed, wholly or partly. -/
def step (unitNorm : V → Bool) (s : Artefacts V) (event : Event V) : Option (Artefacts V) :=
  some (s.performAll (event.writes unitNorm s))

/-! ## Loading -/

/-- A loaded `SimilarityIndex`. -/
structure SimilarityIndex (V : Type u) where
  index : Index V
  labels : List ℤ
  paths : List String
  metadata : IndexMetadata

/-- `ModelUnavailableError` with its message and the missing files. -/
structure Unavailable where
  message : String
  missing : List String

/-- The names of the files that are missing. -/
def missingFiles (s : Artefacts V) : List String :=
  (if s.index.isNone then ["similarity.index"] else []) ++
    (if s.manifest.isNone then ["similarity_manifest.json"] else []) ++
    if s.metadata.isNone then ["similarity_metadata.json"] else []

/-- Load the three files, which must be there and have one size. -/
def load (s : Artefacts V) : Except Unavailable (SimilarityIndex V) :=
  match s.index, s.manifest, s.metadata with
  | some index, some manifest, some metadata =>
      if index.ntotal ≠ manifest.labels.length then
        .error ⟨"Similarity index has " ++ toString index.ntotal ++
          " vectors but the manifest describes " ++ toString manifest.labels.length ++
          ". They are out of sync.", []⟩
      else
        .ok ⟨index, manifest.labels, manifest.paths, metadata⟩
  | _, _, _ =>
      .error ⟨"Similarity index not found. Build it with " ++
        "`python scripts/build_similarity_index.py`.", missingFiles s⟩

end VisionApi.Similarity
