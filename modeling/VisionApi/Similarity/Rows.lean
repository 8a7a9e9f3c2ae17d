import VisionApi.Similarity.Index
import Mathlib.Data.List.Forall2

/-!
# Rows keep what was supplied for them

A manifest represents the rows of the index when its labels and paths are the
latest ones supplied for each vector.  Calls keep it so as long as the lists
they are given match the embeddings; an interrupted rebuild of the same size may
leave the manifest of another build in place.

This is about calls that are not interrupted.  `build_cases`, `append_cases` and
`update_cases` say what each call can do, its guards included, and nothing below them
unfolds a function of the source.  From them it follows when a call returns, and for one
that returns, when the manifest still represents the rows.

A column of the manifest and the newest entries of the rows are compared position by
position, so both come down to lists of the same length: for a build the labels and paths
must be as many as the vectors, for an append only what is added.  The source checks the
labels and not the paths, which is the condition `Matches`.
-/

namespace VisionApi.Similarity

open Foundation

universe u

variable {V : Type u}

/-! ## Histories of rows -/

@[simp]
theorem newRows_length (vectors : List V) (labels : List ℤ) (paths : List String) :
    (newRows vectors labels paths).length = vectors.length := by
  simp [newRows]

@[simp]
theorem newRows_vector (vectors : List V) (labels : List ℤ) (paths : List String) :
    (newRows vectors labels paths).map Row.vector = vectors := by
  apply List.ext_getElem?
  intro position
  simp [newRows, Function.comp_def]

theorem newRows_getElem? (vectors : List V) (labels : List ℤ) (paths : List String)
    (position : ℕ) :
    (newRows vectors labels paths)[position]? = vectors[position]?.map fun vector =>
      ⟨vector, labels[position]?.toList, paths[position]?.toList⟩ := by
  simp [newRows]

/-- A supplied column is that of the new rows exactly when it has one entry for each vector. -/
theorem newRows_column_iff {Value : Type} {vectors : List V} {labels : List ℤ}
    {paths : List String} {column : List Value} {head : Row V → Option Value}
    (supplied : ∀ (position : ℕ) (vector : V),
      head ⟨vector, labels[position]?.toList, paths[position]?.toList⟩ = column[position]?) :
    column.map some = (newRows vectors labels paths).map head ↔
      column.length = vectors.length := by
  constructor
  · intro same
    have lengths := congrArg List.length same
    simpa using lengths
  · intro lengths
    apply List.ext_getElem?
    intro position
    simp only [List.getElem?_map, newRows_getElem?, Option.map_map, Function.comp_def, supplied]
    rcases Nat.lt_or_ge position column.length with inside | outside
    · have vectorInside : position < vectors.length := by omega
      simp [List.getElem?_eq_getElem inside, List.getElem?_eq_getElem vectorInside]
    · have vectorOutside : vectors.length ≤ position := by omega
      simp [List.getElem?_eq_none outside, List.getElem?_eq_none vectorOutside]

/-- Whether or not an update changes the column, the others are made to the column with it. -/
theorem updateColumn_cons {Value : Type} [DecidableEq Value] {updates : List (ℤ × Value)}
    {row : ℤ} {value : Value} {column updated : List Value} {before after : ℕ}
    (ok : updateColumn ((row, value) :: updates) column before = .ok (updated, after)) :
    ∃ between,
      updateColumn updates (column.set row.toNat value) between = .ok (updated, after) := by
  simp only [updateColumn] at ok
  split at ok
  · cases ok
  · rename_i old found
    split at ok
    · exact ⟨_, ok⟩
    · rename_i same
      rw [not_not] at same
      have unchanged : column.set row.toNat value = column := by
        rcases List.getElem?_eq_some_iff.mp found with ⟨inside, isOld⟩
        rw [← same, ← isOld, List.set_getElem_self]
      rw [unchanged]
      exact ⟨_, ok⟩

theorem updateColumn_length {Value : Type} [DecidableEq Value] {updates : List (ℤ × Value)}
    {column updated : List Value} {before after : ℕ}
    (ok : updateColumn updates column before = .ok (updated, after)) :
    updated.length = column.length := by
  induction updates generalizing column before with
  | nil =>
      simp only [updateColumn, Except.ok.injEq, Prod.mk.injEq] at ok
      rw [← ok.1]
  | cons update updates ih =>
      rcases updateColumn_cons ok with ⟨between, rest⟩
      rw [ih rest, List.length_set]

section Supply

variable {Value : Type} {Column : Type*}

/-- Supplying one column of the rows leaves the others alone. -/
theorem map_supply_frame (push : Value → Row V → Row V) {column : Row V → Column}
    (frame : ∀ value row, column (push value row) = column row)
    (updates : List (ℤ × Value)) (rows : List (Row V)) :
    (supply push updates rows).map column = rows.map column := by
  induction updates generalizing rows with
  | nil => rfl
  | cons update updates ih =>
      rcases update with ⟨row, value⟩
      rw [supply, ih]
      apply List.ext_getElem?
      intro position
      simp only [List.getElem?_map, List.getElem?_modify]
      split <;> simp [Function.comp_def, frame]

/-- A column of the manifest follows the rows it is updated with. -/
theorem map_supply_head [DecidableEq Value] (push : Value → Row V → Row V)
    {head : Row V → Option Value}
    (pushed : ∀ value row, head (push value row) = some value)
    {updates : List (ℤ × Value)} {rows : List (Row V)} {column updated : List Value}
    {before after : ℕ} (represents : column.map some = rows.map head)
    (ok : updateColumn updates column before = .ok (updated, after)) :
    updated.map some = (supply push updates rows).map head := by
  induction updates generalizing rows column before with
  | nil =>
      simp only [updateColumn, Except.ok.injEq, Prod.mk.injEq] at ok
      rw [← ok.1]
      exact represents
  | cons update updates ih =>
      rcases update with ⟨row, value⟩
      have next : (column.set row.toNat value).map some =
          (rows.modify row.toNat (push value)).map head := by
        have lengths : column.length = rows.length := by
          simpa using congrArg List.length represents
        apply List.ext_getElem?
        intro position
        have here := congrArg (fun entries => entries[position]?) represents
        simp only [List.getElem?_map] at here
        simp only [List.getElem?_map, List.getElem?_set, List.getElem?_modify]
        by_cases same : row.toNat = position
        · subst same
          rcases Nat.lt_or_ge row.toNat column.length with inside | outside
          · have rowInside : row.toNat < rows.length := by omega
            simp [inside, List.getElem?_eq_getElem rowInside, pushed]
          · have rowOutside : rows.length ≤ row.toNat := by omega
            simpa [List.getElem?_eq_none rowOutside] using outside
        · simpa [same] using here
      rcases updateColumn_cons ok with ⟨between, rest⟩
      exact ih next rest

end Supply

/-! ## What a call can do -/

section Cases

variable {unitNorm : V → Bool} {s : Artefacts V}

/-- The index with vectors added. -/
def grown (index : Index V) (embeddings : Embeddings V) : Index V :=
  ⟨index.dimension, index.vectors ++ embeddings.vectors⟩

/-- The manifest with labels and paths added. -/
def extended (manifest : Manifest) (labels : List ℤ) (paths : List String) : Manifest :=
  ⟨manifest.labels ++ labels, manifest.paths ++ paths⟩

theorem build_cases (unitNorm : V → Bool) (embeddings : Embeddings V) (labels : List ℤ)
    (paths : List String) (sourceModel : String) (imageSize : ℤ) :
    (∃ error, buildIndex unitNorm embeddings labels paths sourceModel imageSize = raises error) ∨
      ∃ metadata,
        buildIndex unitNorm embeddings labels paths sourceModel imageSize =
          ⟨[⟨.index ⟨embeddings.dimension, embeddings.vectors⟩,
              newRows embeddings.vectors labels paths⟩,
            ⟨.manifest ⟨labels, paths⟩, newRows embeddings.vectors labels paths⟩,
            ⟨.metadata metadata, newRows embeddings.vectors labels paths⟩], .ok metadata⟩ := by
  simp only [buildIndex]
  split
  · exact .inr ⟨_, rfl⟩
  · exact .inl ⟨_, rfl⟩

/-- An append raises before its first write, or the manifest has as many labels as vectors. -/
theorem append_cases (unitNorm : V → Bool) (s : Artefacts V) (embeddings : Embeddings V)
    (labels : List ℤ) (paths : List String) :
    (∃ error, appendToIndex unitNorm s embeddings labels paths = raises error) ∨
      ∃ index manifest, s.index = some index ∧ s.manifest = some manifest ∧
        index.ntotal + embeddings.vectors.length = manifest.labels.length + labels.length ∧
        ∃ rest result,
          appendToIndex unitNorm s embeddings labels paths =
            ⟨[⟨.index (grown index embeddings),
                s.rows ++ newRows embeddings.vectors labels paths⟩,
              ⟨.manifest (extended manifest labels paths),
                s.rows ++ newRows embeddings.vectors labels paths⟩] ++ rest, result⟩ ∧
          ((s.metadata = none ∧ rest = [] ∧ ∃ error, result = .error error) ∨
            s.metadata.isSome ∧ ∃ metadata returned,
              rest = [⟨.metadata metadata,
                s.rows ++ newRows embeddings.vectors labels paths⟩] ∧
              result = .ok returned) := by
  simp only [appendToIndex]
  split
  · exact .inl ⟨_, rfl⟩
  · rename_i index isIndex
    split
    · exact .inl ⟨_, rfl⟩
    · split
      · exact .inl ⟨_, rfl⟩
      · split
        · exact .inl ⟨_, rfl⟩
        · rename_i manifest isManifest
          split
          · exact .inl ⟨_, rfl⟩
          · rename_i agree
            have total : index.ntotal + embeddings.vectors.length =
                manifest.labels.length + labels.length := by
              simpa [Index.ntotal] using agree
            refine .inr ⟨index, manifest, isIndex, isManifest, total, ?_⟩
            split
            · rename_i noMetadata
              exact ⟨[], _, rfl, .inl ⟨noMetadata, rfl, _, rfl⟩⟩
            · rename_i metadata isMetadata
              exact ⟨_, _, rfl, .inr ⟨by simp [isMetadata], _, _, rfl, rfl⟩⟩

/-- An update raises before its write, or writes a manifest of the size of the index. -/
theorem update_cases (s : Artefacts V) (updates : List (ℤ × ℤ))
    (pathUpdates : List (ℤ × String)) :
    (∃ error, updateIndexLabels s updates pathUpdates = raises error) ∨
      ∃ index manifest labels relabelled paths changed,
        s.index = some index ∧ s.manifest = some manifest ∧
        updateColumn updates manifest.labels 0 = .ok (labels, relabelled) ∧
        updateColumn pathUpdates manifest.paths relabelled = .ok (paths, changed) ∧
        labels.length = index.ntotal ∧ paths.length = index.ntotal ∧
        updateIndexLabels s updates pathUpdates =
          ⟨[⟨.manifest ⟨labels, paths⟩,
            supply pushPath pathUpdates (supply pushLabel updates s.rows)⟩], .ok changed⟩ := by
  simp only [updateIndexLabels]
  split
  · rename_i index manifest isIndex isManifest
    split
    · exact .inl ⟨_, rfl⟩
    · split
      · exact .inl ⟨_, rfl⟩
      · rename_i labels relabelled labelsOk
        split
        · exact .inl ⟨_, rfl⟩
        · rename_i paths changed pathsOk
          split
          · exact .inl ⟨_, rfl⟩
          · rename_i sized
            simp only [not_or, not_not] at sized
            exact .inr ⟨index, manifest, labels, relabelled, paths, changed, isIndex, isManifest,
              labelsOk, pathsOk, sized.1, sized.2, rfl⟩
  · exact .inl ⟨_, rfl⟩

end Cases

/-! ## The representation -/

/-- The manifest has the latest label and path supplied for each vector of the index. -/
structure Represents (s : Artefacts V) (index : Index V) (manifest : Manifest) : Prop where
  vectors : index.vectors = s.rows.map Row.vector
  labels : manifest.labels.map some = s.rows.map fun row => row.labels.head?
  paths : manifest.paths.map some = s.rows.map fun row => row.paths.head?

/-- Both columns have an entry for each vector. -/
theorem Represents.lengths {s : Artefacts V} {index : Index V} {manifest : Manifest}
    (represents : Represents s index manifest) :
    manifest.labels.length = index.ntotal ∧ manifest.paths.length = index.ntotal := by
  have vectors := congrArg List.length represents.vectors
  have labels := congrArg List.length represents.labels
  have paths := congrArg List.length represents.paths
  simp only [List.length_map] at vectors labels paths
  simp only [Index.ntotal]
  omega

/-- The index and its manifest are there and belong together. -/
def Paired (s : Artefacts V) : Prop :=
  ∃ index manifest, s.index = some index ∧ s.manifest = some manifest ∧
    index.ntotal = manifest.labels.length ∧ index.ntotal = manifest.paths.length ∧
    Represents s index manifest

/-- Nothing has been built yet, or the three files are there and the rows are paired. -/
def Aligned (s : Artefacts V) : Prop :=
  (s.index = none ∧ s.manifest = none) ∨ Paired s ∧ s.metadata.isSome

/-- A call returns. -/
def Returns (unitNorm : V → Bool) (s : Artefacts V) (call : Call V) : Prop :=
  (call.outcome unitNorm s).result = .ok ()

/-- A call that passes its own checks is given one label and one path for each embedding. -/
def Matches (unitNorm : V → Bool) (s : Artefacts V) : Call V → Prop
  | .build embeddings labels paths _ _ =>
      embeddings.vectors.all unitNorm = true →
        labels.length = embeddings.vectors.length ∧ paths.length = embeddings.vectors.length
  | .append embeddings labels paths =>
      embeddings.vectors.all unitNorm = true →
        s.index.map Index.dimension = some embeddings.dimension →
          labels.length = embeddings.vectors.length → paths.length = embeddings.vectors.length
  | .update _ _ => True

/-- The artefacts after a call that runs to its end. -/
def after (unitNorm : V → Bool) (s : Artefacts V) (call : Call V) : Artefacts V :=
  s.performAll (call.outcome unitNorm s).writes

variable {unitNorm : V → Bool} {s : Artefacts V}

theorem paired_of_represents {index : Index V} {manifest : Manifest}
    (isIndex : s.index = some index) (isManifest : s.manifest = some manifest)
    (represents : Represents s index manifest) : Paired s :=
  ⟨index, manifest, isIndex, isManifest, represents.lengths.1.symm, represents.lengths.2.symm,
    represents⟩

theorem not_returns_of_raises {call : Call V} {error : OpError}
    (raised : call.outcome unitNorm s = raises error) : ¬Returns unitNorm s call := by
  simp [Returns, raised, raises]

/-- A call that raises changes nothing. -/
theorem after_of_raised {call : Call V} {error : OpError}
    (raised : call.outcome unitNorm s = raises error) : after unitNorm s call = s := by
  simp [after, raised, raises, Artefacts.performAll]

theorem forget_raises {Result : Type} {outcome : Outcome V Result} {error : OpError}
    (raised : outcome = raises error) : outcome.forget = raises error := by
  simp [raised, raises, Outcome.forget, Except.map]

/-- A build returns exactly if its checks pass. -/
theorem returns_build_iff {embeddings : Embeddings V} {labels : List ℤ} {paths : List String}
    {sourceModel : String} {imageSize : ℤ} :
    Returns unitNorm s (.build embeddings labels paths sourceModel imageSize) ↔
      embeddings.vectors.all unitNorm = true := by
  simp only [Returns, Call.outcome, buildIndex]
  split
  · rename_i unit
    simp [Outcome.forget, Except.map, unit]
  · rename_i notUnit
    simp [Outcome.forget, Except.map, raises, notUnit]

/-- A build that returns pairs the files exactly if there are as many paths. -/
theorem build_paired_iff {embeddings : Embeddings V} {labels : List ℤ} {paths : List String}
    {sourceModel : String} {imageSize : ℤ}
    (returns : Returns unitNorm s (.build embeddings labels paths sourceModel imageSize)) :
    (Paired (after unitNorm s (.build embeddings labels paths sourceModel imageSize)) ↔
      labels.length = embeddings.vectors.length ∧ paths.length = embeddings.vectors.length) ∧
    (after unitNorm s (.build embeddings labels paths sourceModel imageSize)).metadata.isSome := by
  rcases build_cases unitNorm embeddings labels paths sourceModel imageSize with
    ⟨error, raised⟩ | ⟨metadata, built⟩
  · exact absurd returns (not_returns_of_raises (forget_raises raised))
  · have result : after unitNorm s (.build embeddings labels paths sourceModel imageSize) =
        ⟨some ⟨embeddings.dimension, embeddings.vectors⟩, some ⟨labels, paths⟩, some metadata,
          newRows embeddings.vectors labels paths⟩ := by
      simp [after, Call.outcome, built, Outcome.forget, Artefacts.performAll, Artefacts.perform]
    rw [result]
    refine ⟨⟨?_, ?_⟩, rfl⟩
    · rintro ⟨index, manifest, ⟨⟩, ⟨⟩, labelCount, pathCount, _⟩
      exact ⟨labelCount.symm, pathCount.symm⟩
    · rintro ⟨labelCount, pathCount⟩
      apply paired_of_represents rfl rfl
      refine ⟨(newRows_vector ..).symm, ?_, ?_⟩
      · exact (newRows_column_iff fun _ _ => by simp).mpr labelCount
      · exact (newRows_column_iff fun _ _ => by simp).mpr pathCount

/-- From aligned artefacts an append returns exactly when it is given vectors that fit the index
and a label for each. -/
theorem returns_append_iff {embeddings : Embeddings V} {labels : List ℤ} {paths : List String}
    (aligned : Aligned s) :
    Returns unitNorm s (.append embeddings labels paths) ↔
      embeddings.vectors.all unitNorm = true ∧
        s.index.map Index.dimension = some embeddings.dimension ∧
        labels.length = embeddings.vectors.length := by
  rcases aligned with ⟨noIndex, _⟩ |
    ⟨⟨index, manifest, isIndex, isManifest, labelCount, _⟩, hasMetadata⟩
  · simp [Returns, Call.outcome, appendToIndex, noIndex, raises, Outcome.forget, Except.map]
  · rcases Option.isSome_iff_exists.mp hasMetadata with ⟨metadata, isMetadata⟩
    simp only [Returns, Call.outcome, appendToIndex, isIndex, isManifest, isMetadata]
    by_cases unit : embeddings.vectors.all unitNorm = true
    · by_cases dimension : index.dimension = embeddings.dimension
      · by_cases count : labels.length = embeddings.vectors.length
        · simp only [Index.ntotal] at labelCount
          simp [unit, dimension, count, labelCount, Index.ntotal, Outcome.forget, Except.map]
        · have differ : ¬embeddings.vectors.length = labels.length := fun same => count same.symm
          simp only [Index.ntotal] at labelCount
          simp [unit, dimension, count, differ, labelCount, Index.ntotal, Outcome.forget,
            Except.map, raises]
      · simp [unit, dimension, Outcome.forget, Except.map, raises]
    · simp [unit, Outcome.forget, Except.map, raises]

/-- An append that returns does so under the same condition. -/
theorem append_paired_iff {embeddings : Embeddings V} {labels : List ℤ} {paths : List String}
    (aligned : Aligned s) (returns : Returns unitNorm s (.append embeddings labels paths)) :
    (Paired (after unitNorm s (.append embeddings labels paths)) ↔
      paths.length = embeddings.vectors.length) ∧
    (after unitNorm s (.append embeddings labels paths)).metadata.isSome := by
  rcases append_cases unitNorm s embeddings labels paths with
    ⟨error, raised⟩ | ⟨index, manifest, isIndex, isManifest, total, rest, result, appended, last⟩
  · exact absurd returns (not_returns_of_raises (forget_raises raised))
  · rcases last with ⟨_, _, error, rfl⟩ | ⟨_, metadata, returned, rfl, rfl⟩
    · simp [Returns, Call.outcome, appended, Outcome.forget, Except.map] at returns
    · have result : after unitNorm s (.append embeddings labels paths) =
          ⟨some (grown index embeddings), some (extended manifest labels paths), some metadata,
            s.rows ++ newRows embeddings.vectors labels paths⟩ := by
        simp [after, Call.outcome, appended, Outcome.forget, Artefacts.performAll,
          Artefacts.perform]
      rcases aligned with ⟨noIndex, _⟩ | ⟨⟨_, _, sameIndex, sameManifest, labelCount, pathCount,
        represents⟩, _⟩
      · simp [noIndex] at isIndex
      · rw [isIndex] at sameIndex
        rw [isManifest] at sameManifest
        cases sameIndex
        cases sameManifest
        rw [result]
        refine ⟨⟨?_, ?_⟩, rfl⟩
        · rintro ⟨_, _, ⟨⟩, ⟨⟩, _, allPaths, _⟩
          simp only [Index.ntotal, grown, extended, List.length_append] at allPaths pathCount
          omega
        · intro pathMatch
          have labelMatch : labels.length = embeddings.vectors.length := by omega
          have newLabels : labels.map some =
              (newRows embeddings.vectors labels paths).map fun row => row.labels.head? :=
            (newRows_column_iff fun _ _ => by simp).mpr labelMatch
          have newPaths : paths.map some =
              (newRows embeddings.vectors labels paths).map fun row => row.paths.head? :=
            (newRows_column_iff fun _ _ => by simp).mpr pathMatch
          apply paired_of_represents rfl rfl
          refine ⟨?_, ?_, ?_⟩
          · simp [grown, represents.vectors]
          · simp only [extended, List.map_append, represents.labels, newLabels]
          · simp only [extended, List.map_append, represents.paths, newPaths]

theorem update_paired {updates : List (ℤ × ℤ)} {pathUpdates : List (ℤ × String)}
    (aligned : Aligned s) (returns : Returns unitNorm s (.update updates pathUpdates)) :
    Paired (after unitNorm s (.update updates pathUpdates)) ∧
      (after unitNorm s (.update updates pathUpdates)).metadata.isSome := by
  rcases update_cases s updates pathUpdates with ⟨error, raised⟩ |
    ⟨index, manifest, labels, relabelled, paths, changed, isIndex, isManifest, labelsOk, pathsOk,
      _, _, updated⟩
  · exact absurd returns (not_returns_of_raises (forget_raises raised))
  · have result : after unitNorm s (.update updates pathUpdates) =
        { s with
          manifest := some ⟨labels, paths⟩
          rows := supply pushPath pathUpdates (supply pushLabel updates s.rows) } := by
      simp [after, Call.outcome, updated, Outcome.forget, Artefacts.performAll, Artefacts.perform]
    rw [result]
    rcases aligned with ⟨noIndex, _⟩ | ⟨⟨_, _, sameIndex, sameManifest, _, _, represents⟩,
      isMetadata⟩
    · simp [noIndex] at isIndex
    · rw [isIndex] at sameIndex
      rw [isManifest] at sameManifest
      cases sameIndex
      cases sameManifest
      have vectors : (supply pushPath pathUpdates (supply pushLabel updates s.rows)).map
          Row.vector = s.rows.map Row.vector :=
        (map_supply_frame pushPath (fun _ _ => rfl) _ _).trans
          (map_supply_frame pushLabel (fun _ _ => rfl) _ _)
      have labelHeads : (supply pushPath pathUpdates (supply pushLabel updates s.rows)).map
          (fun row => row.labels.head?) =
            (supply pushLabel updates s.rows).map fun row => row.labels.head? :=
        map_supply_frame pushPath (fun _ _ => rfl) _ _
      have pathHeads : (supply pushLabel updates s.rows).map (fun row => row.paths.head?) =
          s.rows.map fun row => row.paths.head? :=
        map_supply_frame pushLabel (fun _ _ => rfl) _ _
      have updatedLabels : labels.map some =
          (supply pushLabel updates s.rows).map fun row => row.labels.head? :=
        map_supply_head pushLabel (fun _ _ => rfl) represents.labels labelsOk
      have updatedPaths : paths.map some =
          (supply pushPath pathUpdates (supply pushLabel updates s.rows)).map
            fun row => row.paths.head? :=
        map_supply_head pushPath (fun _ _ => rfl) (represents.paths.trans pathHeads.symm) pathsOk
      refine ⟨paired_of_represents isIndex rfl ?_, isMetadata⟩
      exact ⟨represents.vectors.trans vectors.symm, updatedLabels.trans labelHeads.symm,
        updatedPaths⟩

/-- From aligned artefacts a call that raises has written nothing. -/
theorem after_of_not_returns {call : Call V} (aligned : Aligned s)
    (raised : ¬Returns unitNorm s call) : after unitNorm s call = s := by
  cases call with
  | build embeddings labels paths sourceModel imageSize =>
      rcases build_cases unitNorm embeddings labels paths sourceModel imageSize with
        ⟨error, fails⟩ | ⟨metadata, built⟩
      · exact after_of_raised (forget_raises fails)
      · simp [Returns, Call.outcome, built, Outcome.forget, Except.map] at raised
  | append embeddings labels paths =>
      rcases append_cases unitNorm s embeddings labels paths with
        ⟨error, fails⟩ | ⟨_, _, isIndex, _, _, rest, result, appended, last⟩
      · exact after_of_raised (forget_raises fails)
      · rcases last with ⟨noMetadata, _, _, _⟩ | ⟨_, _, _, _, rfl⟩
        · rcases aligned with ⟨noIndex, _⟩ | ⟨_, isMetadata⟩
          · simp [noIndex] at isIndex
          · simp [noMetadata] at isMetadata
        · simp [Returns, Call.outcome, appended, Outcome.forget, Except.map] at raised
  | update updates pathUpdates =>
      rcases update_cases s updates pathUpdates with
        ⟨error, fails⟩ | ⟨_, _, _, _, _, _, _, _, _, _, _, _, updated⟩
      · exact after_of_raised (forget_raises fails)
      · simp [Returns, Call.outcome, updated, Outcome.forget, Except.map] at raised

/-- From aligned artefacts a call leaves the rows paired, if it returns, exactly when its lists
match. -/
theorem paired_after_iff (aligned : Aligned s) (call : Call V) :
    (Returns unitNorm s call → Paired (after unitNorm s call)) ↔ Matches unitNorm s call := by
  cases call with
  | build embeddings labels paths sourceModel imageSize =>
      rw [Matches, ← returns_build_iff]
      exact forall_congr' fun returns => (build_paired_iff returns).1
  | append embeddings labels paths =>
      constructor
      · intro paired unit dimension count
        have returns : Returns unitNorm s (.append embeddings labels paths) :=
          (returns_append_iff aligned).mpr ⟨unit, dimension, count⟩
        exact (append_paired_iff aligned returns).1.mp (paired returns)
      · intro same returns
        rcases (returns_append_iff aligned).mp returns with ⟨unit, dimension, count⟩
        exact (append_paired_iff aligned returns).1.mpr (same unit dimension count)
  | update updates pathUpdates =>
      exact iff_of_true (fun returns => (update_paired aligned returns).1) trivial

theorem aligned_after (aligned : Aligned s) {call : Call V} (same : Matches unitNorm s call) :
    Aligned (after unitNorm s call) := by
  by_cases returns : Returns unitNorm s call
  · refine .inr ⟨(paired_after_iff aligned call).mpr same returns, ?_⟩
    cases call with
    | build => exact (build_paired_iff returns).2
    | append => exact (append_paired_iff aligned returns).2
    | update => exact (update_paired aligned returns).2
  · rw [after_of_not_returns aligned returns]
    exact aligned

/-! ## Sequences of calls -/

/-- A call on the directory that runs to its end. -/
def callStep (unitNorm : V → Bool) (s : Artefacts V) (call : Call V) : Option (Artefacts V) :=
  step unitNorm s ⟨call, none⟩

/-- From an empty directory every call that returns leaves the rows paired exactly when every call
that passes its own checks is given one label and one path for each embedding. -/
theorem paired_iff_matches (unitNorm : V → Bool) (calls : List (Call V)) :
    EachStep (callStep unitNorm)
        (fun before call after => Returns unitNorm before call → Paired after)
        (Artefacts.empty V) calls ↔
      EachStep (callStep unitNorm) (fun before call _ => Matches unitNorm before call)
        (Artefacts.empty V) calls := by
  apply eachStep_iff Aligned (fun _ => True) _ _ (.inl ⟨rfl, rfl⟩) fun _ _ => trivial
  · rintro before call _ aligned - ⟨⟩
    exact paired_after_iff aligned call
  · rintro before call _ aligned - ⟨⟩ same
    exact aligned_after aligned same

/-- An append with a label but no path for its vector returns and leaves the paths short. -/
theorem append_without_path_returns :
    ¬∀ calls : List (Call Unit),
      EachStep (callStep fun _ => true)
        (fun before call after => Returns (fun _ => true) before call → Paired after)
        (Artefacts.empty Unit) calls := by
  intro always
  have each := always [.build ⟨1, [()]⟩ [0] ["a.jpg"] "embedder" 224, .append ⟨1, [()]⟩ [1] []]
  rcases ((each _ rfl).2 _ rfl).1 rfl with ⟨_, _, ⟨⟩, ⟨⟩, _, paths, _⟩
  cases paths

end VisionApi.Similarity
