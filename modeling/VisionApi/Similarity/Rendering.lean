import VisionApi.Similarity.Append

/-!
# The typed artefacts as files

On files that hold well-formed artefacts `append_to_index` performs the writes
of the typed model, in its order, and returns where it does.

The model of the files takes any bytes and any JSON; the typed model has a manifest and
metadata.  `Renders` relates a state of the one to a state of the other, file by file,
through what the libraries read from them.  Related writes keep related states related
(`Renders.perform`), so that it is enough to compare the lists of writes.

Of what can fail on the files after the first write, only a missing metadata file is left
once the others hold what the code has written: this is `commit_without_metadata`, and the
typed call raises there too.
-/

namespace VisionApi.Similarity

open Foundation

variable {V Bytes Number : Type}

/-! ## Files that hold typed artefacts -/

/-- A file is there when its content is, and holds it. -/
def Holds {Content Stored : Type} (reads : Stored → Content → Prop) :
    Option Content → Option Stored → Prop
  | none, none => True
  | some content, some stored => reads stored content
  | _, _ => False

variable (library : ArtefactLibrary V Bytes Number)

/-- A text is read as a manifest. -/
def ReadsManifest (text : String) (manifest : Manifest) : Prop :=
  library.loads text = .ok (.object (manifestMembers manifest))

/-- A text is read as metadata. -/
def ReadsMetadata (text : String) (metadata : IndexMetadata) : Prop :=
  library.loads text = .ok (.object (metadataMembers metadata))

/-- The files hold typed artefacts. -/
structure Renders (s : Artefacts V) (directory : Directory Bytes) : Prop where
  index : Holds (fun bytes index => library.readIndex bytes = .ok index) s.index directory.index
  manifest : Holds (ReadsManifest library) s.manifest directory.manifest
  metadata : Holds (ReadsMetadata library) s.metadata directory.metadata

/-- Two writes of the same file with the same content. -/
def RendersWrite (write : Write V) : FileWrite Bytes → Prop
  | .index bytes => ∃ index, write.file = .index index ∧ library.readIndex bytes = .ok index
  | .manifest text => ∃ manifest, write.file = .manifest manifest ∧
      ReadsManifest library text manifest
  | .metadata text => ∃ metadata, write.file = .metadata metadata ∧
      ReadsMetadata library text metadata

/-- Embeddings as an array of two axes. -/
def matrix (embeddings : Embeddings V) : NdArray V :=
  ⟨[embeddings.vectors.length, embeddings.dimension], embeddings.vectors⟩

variable {library} {s : Artefacts V} {directory : Directory Bytes}

theorem holds_some_iff {Content Stored : Type} {reads : Stored → Content → Prop}
    {content : Content} {stored : Option Stored} :
    Holds reads (some content) stored ↔ ∃ found, stored = some found ∧ reads found content := by
  cases stored with
  | none => simp [Holds]
  | some found => simp [Holds]

theorem holds_stored_iff {Content Stored : Type} {reads : Stored → Content → Prop}
    {content : Option Content} {stored : Stored} :
    Holds reads content (some stored) ↔ ∃ found, content = some found ∧ reads stored found := by
  cases content with
  | none => simp [Holds]
  | some found => simp [Holds]

/-- Related writes keep the files related. -/
theorem Renders.perform {write : Write V} {written : FileWrite Bytes}
    (renders : Renders library s directory) (same : RendersWrite library write written) :
    Renders library (s.perform write) (directory.perform written) := by
  rcases renders with ⟨index, manifest, metadata⟩
  cases written with
  | index bytes =>
      rcases same with ⟨content, isFile, reads⟩
      simp only [Artefacts.perform, isFile]
      exact ⟨reads, manifest, metadata⟩
  | manifest text =>
      rcases same with ⟨content, isFile, reads⟩
      simp only [Artefacts.perform, isFile]
      exact ⟨index, reads, metadata⟩
  | metadata text =>
      rcases same with ⟨content, isFile, reads⟩
      simp only [Artefacts.perform, isFile]
      exact ⟨index, manifest, reads⟩

/-- The files hold the typed artefacts after every write of a call. -/
theorem Renders.performAll {writes : List (Write V)} {written : List (FileWrite Bytes)}
    (renders : Renders library s directory)
    (same : List.Forall₂ (RendersWrite library) writes written) :
    Renders library (s.performAll writes) (directory.performAll written) := by
  induction same generalizing s directory with
  | nil => exact renders
  | cons first rest ih => exact ih (renders.perform first)

/-! ## The call -/

theorem metadataMembers_resized (index : Index V) (metadata : IndexMetadata) :
    (resized index (metadataMembers metadata) : List (String × Json Number)) =
      metadataMembers { metadata with numVectors := index.ntotal } := by
  simp [resized, metadataMembers, Dict.set]

theorem grow_members (embeddings : Embeddings V) (labels : List ℤ) (paths : List String)
    (index : Index V) (manifest : Manifest) :
    (grow (matrix embeddings) (labels.map .int) (paths.map .string) index
        (manifestMembers manifest) (manifest.labels.map .int) (manifest.paths.map .string) :
      Prepared V Number) =
      ⟨⟨index.dimension, index.vectors ++ embeddings.vectors⟩,
        manifestMembers ⟨manifest.labels ++ labels, manifest.paths ++ paths⟩⟩ := by
  simp [grow, manifestMembers, Dict.set, matrix]

/-- The same writes, and the same way to end. -/
structure Simulates (library : ArtefactLibrary V Bytes Number) (outcome : Outcome V IndexMetadata)
    (files : AppendOutcome Bytes Number) : Prop where
  writes : List.Forall₂ (RendersWrite library) outcome.writes files.writes
  returns : Succeeds outcome.result ↔ Succeeds files.result

variable {artifactsDir : String} {embeddings : Embeddings V} {labels : List ℤ}
  {paths : List String}

/-- What the checks of the typed model ask for. -/
theorem appendable_iff (renders : Renders library s directory) {index : Index V}
    {members : List (String × Json Number)} {oldLabels oldPaths : List (Json Number)} :
    Appendable library directory (matrix embeddings) (labels.map .int) index members oldLabels
        oldPaths ↔
      ∃ manifest, s.index = some index ∧ s.manifest = some manifest ∧
        embeddings.vectors.all library.unitNorm = true ∧
        index.dimension = embeddings.dimension ∧
        index.ntotal + embeddings.vectors.length = manifest.labels.length + labels.length ∧
        members = manifestMembers manifest ∧ oldLabels = manifest.labels.map .int ∧
        oldPaths = manifest.paths.map .string := by
  constructor
  · rintro ⟨⟨bytes, isBytes, reads⟩, norms, ⟨rows, shape⟩, ⟨text, isText, loads⟩, hasLabels,
      hasPaths, count⟩
    have hasIndex := renders.index
    have hasManifest := renders.manifest
    rw [isBytes, holds_stored_iff] at hasIndex
    rw [isText, holds_stored_iff] at hasManifest
    rcases hasIndex with ⟨found, isIndex, readsFound⟩
    rcases hasManifest with ⟨manifest, isManifest, loadsFound⟩
    cases reads.symm.trans readsFound
    cases loads.symm.trans loadsFound
    cases hasLabels
    cases hasPaths
    have dimension : embeddings.dimension = index.dimension :=
      (List.cons.inj (List.cons.inj shape).2).1
    refine ⟨manifest, isIndex, isManifest, norms, dimension.symm, ?_, rfl, rfl, rfl⟩
    simpa [matrix] using count
  · rintro ⟨manifest, isIndex, isManifest, norms, dimension, count, rfl, rfl, rfl⟩
    have hasIndex := renders.index
    have hasManifest := renders.manifest
    rw [isIndex, holds_some_iff] at hasIndex
    rw [isManifest, holds_some_iff] at hasManifest
    refine ⟨hasIndex, norms, ⟨embeddings.vectors.length, ?_⟩, hasManifest, rfl, rfl, ?_⟩
    · rw [dimension]
      rfl
    · simpa [matrix] using count

/-- Both refuse before the first write. -/
theorem simulates_raises {error : OpError}
    (refused : ∀ index members oldLabels oldPaths,
      ¬Appendable library directory (matrix embeddings) (labels.map .int) index members oldLabels
        oldPaths) :
    Simulates library (raises error) (Directory.appendToIndex library artifactsDir directory
      (matrix embeddings) (labels.map .int) (paths.map .string)) := by
  unfold Directory.appendToIndex
  split
  · exact ⟨.nil, by simp [raises]⟩
  · rename_i prepared passes
    rcases prepareAppend_ok_iff.mp passes with ⟨index, members, oldLabels, oldPaths, appendable, _⟩
    exact absurd appendable (refused index members oldLabels oldPaths)

theorem hasReturnedKeys (metadata : IndexMetadata) :
    ∀ key ∈ returnedKeys,
      (Dict.get? (metadataMembers metadata : List (String × Json Number)) key).isSome = true := by
  simp only [returnedKeys, List.forall_mem_cons]
  exact ⟨rfl, rfl, rfl, rfl, List.forall_mem_nil _⟩

/-- Without metadata a call writes two files and raises. -/
theorem commit_without_metadata (lawful : library.Lawful) (renders : Renders library s directory)
    (index : Index V) (manifest : Manifest) (rows : List (Row V)) (error : OpError)
    (noMetadata : s.metadata = none) :
    Simulates library ⟨[⟨.index index, rows⟩, ⟨.manifest manifest, rows⟩], .error error⟩
      (commitAppend library artifactsDir directory ⟨index, manifestMembers manifest⟩) := by
  rcases lawful.manifest manifest with ⟨text, dumps, loads⟩
  have absent := renders.metadata
  rw [noMetadata] at absent
  cases isMetadata : directory.metadata with
  | some other =>
      rw [isMetadata] at absent
      exact absent.elim
  | none =>
      simp only [commitAppend, dumps, updateMetadata, isMetadata]
      refine ⟨.cons ⟨_, rfl, lawful.index _⟩ (.cons ⟨_, rfl, loads⟩ .nil), ?_⟩
      exact iff_of_false (not_succeeds_error _) (not_succeeds_error _)

/-- With metadata a call writes all three files and returns. -/
theorem commit_with_metadata (lawful : library.Lawful) (renders : Renders library s directory)
    (index : Index V) (manifest : Manifest) (rows : List (Row V)) {metadata : IndexMetadata}
    (returned : IndexMetadata) (isMetadata : s.metadata = some metadata) :
    Simulates library
      ⟨[⟨.index index, rows⟩, ⟨.manifest manifest, rows⟩,
        ⟨.metadata { metadata with numVectors := index.ntotal }, rows⟩], .ok returned⟩
      (commitAppend library artifactsDir directory ⟨index, manifestMembers manifest⟩) := by
  rcases lawful.manifest manifest with ⟨text, dumps, loads⟩
  rcases lawful.metadata { metadata with numVectors := index.ntotal } with
    ⟨written, dumpsMetadata, loadsMetadata⟩
  have stored := renders.metadata
  rw [isMetadata, holds_some_iff] at stored
  rcases stored with ⟨before, isStored, reads⟩
  have updates : updateMetadata library artifactsDir directory index =
      .ok (metadataMembers { metadata with numVectors := index.ntotal }, written) := by
    refine updateMetadata_ok_iff.mpr ⟨metadataMembers metadata, ⟨before, isStored, reads, ?_⟩, ?_⟩
    · rw [metadataMembers_resized]
      exact dumpsMetadata
    · exact (metadataMembers_resized index metadata).symm
  simp only [commitAppend, dumps, updates]
  refine ⟨.cons ⟨_, rfl, lawful.index _⟩ (.cons ⟨_, rfl, loads⟩
    (.cons ⟨_, rfl, loadsMetadata⟩ .nil)), ?_⟩
  apply iff_of_true (succeeds_ok _)
  exact appendedMetadata_succeeds_iff.mpr (hasReturnedKeys _)

/-- A call on the files performs the writes of the typed call. -/
theorem appendToIndex_renders (lawful : library.Lawful) (renders : Renders library s directory)
    (embeddings : Embeddings V) (labels : List ℤ) (paths : List String) :
    Simulates library (appendToIndex library.unitNorm s embeddings labels paths)
      (Directory.appendToIndex library artifactsDir directory (matrix embeddings) (labels.map .int)
        (paths.map .string)) := by
  simp only [appendToIndex]
  split
  · rename_i noIndex
    apply simulates_raises
    intro index members oldLabels oldPaths appendable
    rcases (appendable_iff renders).mp appendable with ⟨manifest, isIndex, _⟩
    cases noIndex.symm.trans isIndex
  · rename_i index isIndex
    split
    · rename_i failing
      apply simulates_raises
      intro other members oldLabels oldPaths appendable
      rcases (appendable_iff renders).mp appendable with ⟨_, _, _, norms, _⟩
      simp [norms] at failing
    · rename_i passing
      split
      · rename_i differ
        apply simulates_raises
        intro other members oldLabels oldPaths appendable
        rcases (appendable_iff renders).mp appendable with ⟨_, isOther, _, _, dimension, _⟩
        cases isIndex.symm.trans isOther
        exact differ dimension
      · rename_i dimension
        split
        · rename_i noManifest
          apply simulates_raises
          intro other members oldLabels oldPaths appendable
          rcases (appendable_iff renders).mp appendable with ⟨manifest, _, isManifest, _⟩
          cases noManifest.symm.trans isManifest
        · rename_i manifest isManifest
          split
          · rename_i diverged
            apply simulates_raises
            intro other members oldLabels oldPaths appendable
            rcases (appendable_iff renders).mp appendable with
              ⟨found, isOther, isFound, _, _, count, _⟩
            cases isIndex.symm.trans isOther
            cases isManifest.symm.trans isFound
            apply diverged
            simpa [Index.ntotal] using count
          · rename_i agree
            have count : index.ntotal + embeddings.vectors.length =
                manifest.labels.length + labels.length := by
              simpa [Index.ntotal] using agree
            have norms : embeddings.vectors.all library.unitNorm = true := by
              simpa using passing
            rw [appendToIndex_of_appendable ((appendable_iff renders).mpr
              ⟨manifest, isIndex, isManifest, norms, not_not.mp dimension, count, rfl, rfl, rfl⟩),
              grow_members]
            split
            · rename_i noMetadata
              exact commit_without_metadata lawful renders _ _ _ _ noMetadata
            · rename_i metadata isMetadata
              exact commit_with_metadata lawful renders _ _ _ _ isMetadata

end VisionApi.Similarity
