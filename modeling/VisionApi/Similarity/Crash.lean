import VisionApi.Similarity.Rows

/-!
# Crash consistency of the artefacts

A loaded index serves what was supplied for its vectors.  Calls interrupted
between two writes keep it so, with one exception: a rebuild interrupted after
writing the index, over a complete set of artefacts of the same size, leaves the
manifest of the earlier build beside the new vectors, and `load` compares sizes
only.

What was supplied is kept as a ghost: each row has the list of labels and of paths that
calls supplied for its vector, newest first.  `Served` compares the loaded index with
it.  `Recoverable` is the invariant; it is about the files as they are, whether or not
they can be loaded.

There is one lemma for each call, about the files it leaves when it is finished or
interrupted (`finished_build`, `finished_append`, `finished_update`), and they meet in
`recoverable_step`.  Since only a rebuild can break the invariant, `TornRebuild` is a
condition on one event and the files before it, and the run is covered by induction.
-/

namespace VisionApi.Similarity

open Foundation

universe u

variable {V : Type u}

/-! ## Supplied columns -/

section Supplied

variable {Value : Type}

/-- Every entry of a column was supplied for its row. -/
abbrev Supplied (column : List Value) (histories : List (List Value)) : Prop :=
  List.Forall₂ (fun value history => value ∈ history) column histories

/-- Of the columns of the size of new rows, only the supplied one was supplied for them. -/
theorem supplied_toList_iff {column given : List Value} {size : ℕ}
    {histories : List (List Value)} (givenSize : given.length = size)
    (columnSize : column.length = size) (sized : histories.length = size)
    (areGiven : ∀ (position : ℕ) (history : List Value),
      histories[position]? = some history → history = given[position]?.toList) :
    Supplied column histories ↔ column = given := by
  constructor
  · intro supplied
    apply List.ext_getElem (columnSize.trans givenSize.symm)
    intro position inColumn inGiven
    have inHistories : position < histories.length := by omega
    have member := (List.forall₂_iff_get.mp supplied).2 position inColumn inHistories
    have history := areGiven position _ (List.getElem?_eq_getElem inHistories)
    simp only [List.get_eq_getElem, history, List.getElem?_eq_getElem inGiven,
      Option.toList_some, List.mem_singleton] at member
    exact member
  · rintro rfl
    refine List.forall₂_iff_get.mpr ⟨columnSize.trans sized.symm, ?_⟩
    intro position inColumn inHistories
    have history := areGiven position _ (List.getElem?_eq_getElem inHistories)
    simp only [List.get_eq_getElem, history, List.getElem?_eq_getElem inColumn,
      Option.toList_some, List.mem_singleton]

/-- The entries of an updated column are still ones supplied for their rows. -/
theorem supplied_supply [DecidableEq Value] (push : Value → Row V → Row V)
    {history : Row V → List Value}
    (pushed : ∀ value row, history (push value row) = value :: history row)
    {updates : List (ℤ × Value)} {rows : List (Row V)} {column updated : List Value}
    {before after : ℕ} (supplied : Supplied column (rows.map history))
    (ok : updateColumn updates column before = .ok (updated, after)) :
    Supplied updated ((supply push updates rows).map history) := by
  induction updates generalizing rows column before with
  | nil =>
      simp only [updateColumn, Except.ok.injEq, Prod.mk.injEq] at ok
      rw [← ok.1]
      exact supplied
  | cons update updates ih =>
      rcases update with ⟨row, value⟩
      have next : Supplied (column.set row.toNat value)
          ((rows.modify row.toNat (push value)).map history) := by
        rcases List.forall₂_iff_get.mp supplied with ⟨lengths, members⟩
        refine List.forall₂_iff_get.mpr ⟨by simpa using lengths, ?_⟩
        intro position inColumn inRows
        simp only [List.length_set] at inColumn
        have inHistories : position < (rows.map history).length := by omega
        have member := members position inColumn inHistories
        simp only [List.get_eq_getElem, List.getElem_map] at member
        simp only [List.get_eq_getElem, List.getElem_set, List.getElem_map, List.getElem_modify]
        split
        · simp [pushed]
        · exact member
      rcases updateColumn_cons ok with ⟨between, rest⟩
      exact ih next rest

end Supplied

/-! ## What load serves -/

/-- Vectors of the rows, each with a label and a path supplied for it. -/
structure Served (s : Artefacts V) (loaded : SimilarityIndex V) : Prop where
  vectors : loaded.index.vectors = s.rows.map Row.vector
  labels : Supplied loaded.labels (s.rows.map Row.labels)
  paths : Supplied loaded.paths (s.rows.map Row.paths)

/-- What is loaded, if anything, serves what was supplied. -/
def LoadServes (s : Artefacts V) : Prop :=
  ∀ loaded, load s = .ok loaded → Served s loaded

/-- The index on disk has the vectors of the rows. -/
def HasVectors (s : Artefacts V) : Prop :=
  ∀ index, s.index = some index → index.vectors = s.rows.map Row.vector

/-- The manifest has as many labels as paths. -/
def HasColumns (s : Artefacts V) : Prop :=
  ∀ manifest, s.manifest = some manifest → manifest.labels.length = manifest.paths.length

/-- What every reachable state keeps: `load` raises or serves what was supplied. -/
structure Recoverable (s : Artefacts V) : Prop where
  vectors : HasVectors s
  columns : HasColumns s
  serves : LoadServes s

variable {unitNorm : V → Bool} {s : Artefacts V}

theorem loadServes_iff (vectors : HasVectors s) :
    LoadServes s ↔ ∀ index manifest, s.index = some index → s.manifest = some manifest →
      s.metadata.isSome → index.ntotal = manifest.labels.length →
      Supplied manifest.labels (s.rows.map Row.labels) ∧
        Supplied manifest.paths (s.rows.map Row.paths) := by
  constructor
  · intro serves index manifest isIndex isManifest hasMetadata agree
    rcases Option.isSome_iff_exists.mp hasMetadata with ⟨metadata, isMetadata⟩
    have served := serves ⟨index, manifest.labels, manifest.paths, metadata⟩ (by
      simp [load, isIndex, isManifest, isMetadata, agree])
    exact ⟨served.labels, served.paths⟩
  · intro supplied loaded isLoaded
    simp only [load] at isLoaded
    split at isLoaded
    · rename_i index manifest metadata isIndex isManifest isMetadata
      split at isLoaded
      · cases isLoaded
      · rename_i agree
        rw [not_not] at agree
        cases isLoaded
        rcases supplied index manifest isIndex isManifest (by simp [isMetadata]) agree with
          ⟨labels, paths⟩
        exact ⟨vectors index isIndex, labels, paths⟩
    · cases isLoaded

theorem loadServes_of_no_metadata (noMetadata : s.metadata = none) : LoadServes s := by
  intro loaded isLoaded
  simp [load, noMetadata] at isLoaded

theorem recoverable_of_supplied {index : Index V} {manifest : Manifest}
    (isIndex : s.index = some index) (isManifest : s.manifest = some manifest)
    (vectors : index.vectors = s.rows.map Row.vector)
    (labels : Supplied manifest.labels (s.rows.map Row.labels))
    (paths : Supplied manifest.paths (s.rows.map Row.paths)) : Recoverable s := by
  have hasVectors : HasVectors s := by
    intro other isOther
    cases isIndex.symm.trans isOther
    exact vectors
  refine ⟨hasVectors, ?_, (loadServes_iff hasVectors).mpr ?_⟩
  · intro other isOther
    cases isManifest.symm.trans isOther
    have labelCount := labels.length_eq
    have pathCount := paths.length_eq
    simp only [List.length_map] at labelCount pathCount
    exact labelCount.trans pathCount.symm
  · intro _ other _ isOther _ _
    cases isManifest.symm.trans isOther
    exact ⟨labels, paths⟩

/-! ## Interrupted calls -/

/-- One label and one path for each embedding. -/
def Call.WellFormed : Call V → Prop
  | .build embeddings labels paths _ _ =>
      labels.length = embeddings.vectors.length ∧ paths.length = embeddings.vectors.length
  | .append embeddings labels paths =>
      labels.length = embeddings.vectors.length ∧ paths.length = embeddings.vectors.length
  | .update _ _ => True

/-- A build interrupted between index and manifest, over a complete set of artefacts whose manifest
has the size of the new index but other entries. -/
def TornRebuild (unitNorm : V → Bool) (s : Artefacts V) (event : Event V) : Prop :=
  match event.call with
  | .build embeddings labels paths _ _ =>
      event.interrupted = some 1 ∧ embeddings.vectors.all unitNorm = true ∧
        s.metadata.isSome ∧ ∃ manifest, s.manifest = some manifest ∧
          manifest.labels.length = embeddings.vectors.length ∧ manifest ≠ ⟨labels, paths⟩
  | _ => False

/-- The artefacts after the writes of an event. -/
def finished (unitNorm : V → Bool) (s : Artefacts V) (event : Event V) : Artefacts V :=
  s.performAll (event.writes unitNorm s)

/-- A call that raises before its first write changes nothing. -/
theorem finished_of_raised {call : Call V} {error : OpError}
    (raised : call.outcome unitNorm s = raises error) (interrupted : Option ℕ) :
    finished unitNorm s ⟨call, interrupted⟩ = s := by
  cases interrupted with
  | none => simp [finished, Event.writes, raised, raises, Artefacts.performAll]
  | some count => simp [finished, Event.writes, raised, raises, Artefacts.performAll]

/-- A call that runs to its end is one interrupted after all of its writes. -/
theorem finished_of_partly {property : Artefacts V → Prop} {call : Call V}
    (partly : ∀ count, property (finished unitNorm s ⟨call, some count⟩))
    (interrupted : Option ℕ) : property (finished unitNorm s ⟨call, interrupted⟩) := by
  cases interrupted with
  | some count => exact partly count
  | none => simpa [finished, Event.writes] using partly (call.outcome unitNorm s).writes.length

section NewRows

variable {vectors : List V} {labels : List ℤ} {paths : List String}

/-- A column is supplied to new rows that keep another one only if it is that one. -/
theorem supplied_newRows_iff {Value : Type} {column given : List Value}
    {history : Row V → List Value} (givenSize : given.length = vectors.length)
    (columnSize : column.length = vectors.length)
    (isGiven : ∀ (position : ℕ) (vector : V),
      history ⟨vector, labels[position]?.toList, paths[position]?.toList⟩ =
        given[position]?.toList) :
    Supplied column ((newRows vectors labels paths).map history) ↔ column = given := by
  apply supplied_toList_iff givenSize columnSize (by simp)
  intro position kept isKept
  simp only [List.getElem?_map, newRows_getElem?, Option.map_map,
    Option.map_eq_some_iff] at isKept
  rcases isKept with ⟨vector, _, rfl⟩
  exact isGiven position vector

theorem supplied_newRows_labels_iff {column : List ℤ} (labelCount : labels.length = vectors.length)
    (columnSize : column.length = vectors.length) :
    Supplied column ((newRows vectors labels paths).map Row.labels) ↔ column = labels :=
  supplied_newRows_iff labelCount columnSize fun _ _ => rfl

theorem supplied_newRows_paths_iff {column : List String}
    (pathCount : paths.length = vectors.length) (columnSize : column.length = vectors.length) :
    Supplied column ((newRows vectors labels paths).map Row.paths) ↔ column = paths :=
  supplied_newRows_iff pathCount columnSize fun _ _ => rfl

end NewRows

/-- Artefacts that are recoverable unless something has happened. -/
structure RecoverableUnless (torn : Prop) (s : Artefacts V) : Prop where
  vectors : HasVectors s
  columns : HasColumns s
  serves_iff : LoadServes s ↔ ¬torn

/-- What is recoverable is so unless anything. -/
theorem Recoverable.unless {torn : Prop} (recoverable : Recoverable s) (notTorn : ¬torn) :
    RecoverableUnless torn s :=
  ⟨recoverable.vectors, recoverable.columns, iff_of_true recoverable.serves notTorn⟩

theorem RecoverableUnless.recoverable {torn : Prop} (kept : RecoverableUnless torn s)
    (notTorn : ¬torn) : Recoverable s :=
  ⟨kept.vectors, kept.columns, kept.serves_iff.mpr notTorn⟩

/-- After the first write of a build the manifest still is the one of the state before. -/
theorem torn_serves_iff {embeddings : Embeddings V} {labels : List ℤ} {paths : List String}
    (recoverable : Recoverable s) (labelCount : labels.length = embeddings.vectors.length)
    (pathCount : paths.length = embeddings.vectors.length) :
    RecoverableUnless
      (s.metadata.isSome ∧ ∃ manifest, s.manifest = some manifest ∧
        manifest.labels.length = embeddings.vectors.length ∧ manifest ≠ ⟨labels, paths⟩)
      { s with
        index := some ⟨embeddings.dimension, embeddings.vectors⟩
        rows := newRows embeddings.vectors labels paths } := by
  have vectors : HasVectors { s with
      index := some ⟨embeddings.dimension, embeddings.vectors⟩
      rows := newRows embeddings.vectors labels paths } := by
    rintro _ ⟨⟩
    exact (newRows_vector ..).symm
  have served : ∀ manifest, s.manifest = some manifest →
      manifest.labels.length = embeddings.vectors.length →
      (Supplied manifest.labels ((newRows embeddings.vectors labels paths).map Row.labels) ∧
        Supplied manifest.paths ((newRows embeddings.vectors labels paths).map Row.paths) ↔
        manifest = ⟨labels, paths⟩) := by
    intro manifest isManifest sized
    have columns := recoverable.columns manifest isManifest
    rw [supplied_newRows_labels_iff labelCount sized,
      supplied_newRows_paths_iff pathCount (columns.symm.trans sized)]
    cases manifest
    simp
  refine ⟨vectors, recoverable.columns, (loadServes_iff vectors).trans ⟨?_, ?_⟩⟩
  · rintro supplied ⟨hasMetadata, manifest, isManifest, sized, differs⟩
    apply differs
    apply (served manifest isManifest sized).mp
    exact supplied _ manifest rfl isManifest hasMetadata sized.symm
  · rintro notTorn _ manifest ⟨⟩ isManifest hasMetadata sized
    apply (served manifest isManifest sized.symm).mpr
    by_contra differs
    exact notTorn ⟨hasMetadata, manifest, isManifest, sized.symm, differs⟩

/-- An index written together with its manifest is served, whatever the metadata. -/
theorem recoverable_built {embeddings : Embeddings V} {labels : List ℤ} {paths : List String}
    (labelCount : labels.length = embeddings.vectors.length)
    (pathCount : paths.length = embeddings.vectors.length) (known : Option IndexMetadata) :
    Recoverable ⟨some ⟨embeddings.dimension, embeddings.vectors⟩, some ⟨labels, paths⟩, known,
      newRows embeddings.vectors labels paths⟩ := by
  have labelled : Supplied labels ((newRows embeddings.vectors labels paths).map Row.labels) :=
    (supplied_newRows_labels_iff labelCount labelCount).mpr rfl
  have located : Supplied paths ((newRows embeddings.vectors labels paths).map Row.paths) :=
    (supplied_newRows_paths_iff pathCount pathCount).mpr rfl
  have vectors := (newRows_vector embeddings.vectors labels paths).symm
  exact recoverable_of_supplied rfl rfl vectors labelled located

/-- A build leaves the files recoverable unless it is a torn rebuild. -/
theorem finished_build {embeddings : Embeddings V} {labels : List ℤ} {paths : List String}
    {sourceModel : String} {imageSize : ℤ} (recoverable : Recoverable s)
    (labelCount : labels.length = embeddings.vectors.length)
    (pathCount : paths.length = embeddings.vectors.length) (interrupted : Option ℕ) :
    RecoverableUnless
      (TornRebuild unitNorm s ⟨.build embeddings labels paths sourceModel imageSize, interrupted⟩)
      (finished unitNorm s
        ⟨.build embeddings labels paths sourceModel imageSize, interrupted⟩) := by
  rcases build_cases unitNorm embeddings labels paths sourceModel imageSize with
    ⟨error, raised⟩ | ⟨metadata, built⟩
  · have fails : (Call.build embeddings labels paths sourceModel imageSize).outcome unitNorm s =
        raises error := forget_raises raised
    rw [finished_of_raised fails]
    apply recoverable.unless
    intro torn
    exact not_returns_of_raises fails (returns_build_iff.mpr torn.2.1)
  · have returns : Returns unitNorm s
        (.build embeddings labels paths sourceModel imageSize) := by
      simp [Returns, Call.outcome, built, Outcome.forget, Except.map]
    have unit := returns_build_iff.mp returns
    have complete := recoverable_built labelCount pathCount
    have writes : ((Call.build embeddings labels paths sourceModel imageSize).outcome
        unitNorm s).writes =
        [⟨.index ⟨embeddings.dimension, embeddings.vectors⟩,
            newRows embeddings.vectors labels paths⟩,
          ⟨.manifest ⟨labels, paths⟩, newRows embeddings.vectors labels paths⟩,
          ⟨.metadata metadata, newRows embeddings.vectors labels paths⟩] := by
      simp [Call.outcome, built, Outcome.forget]
    rcases interrupted with _ | _ | _ | _ | count
    · apply Recoverable.unless
      · simpa [finished, Event.writes, writes, Artefacts.performAll, Artefacts.perform] using
          complete (some metadata)
      · simp [TornRebuild]
    · exact recoverable.unless (by simp [TornRebuild])
    · have torn := torn_serves_iff recoverable labelCount pathCount
      simpa [finished, Event.writes, writes, Artefacts.performAll, Artefacts.perform, TornRebuild,
        unit] using torn
    · apply Recoverable.unless
      · simpa [finished, Event.writes, writes, Artefacts.performAll, Artefacts.perform] using
          complete s.metadata
      · simp [TornRebuild]
    · apply Recoverable.unless
      · simpa [finished, Event.writes, writes, Artefacts.performAll, Artefacts.perform] using
          complete (some metadata)
      · simp [TornRebuild]

section Append

variable {index : Index V} {manifest : Manifest} {embeddings : Embeddings V} {labels : List ℤ}
  {paths : List String}

/-- Until the manifest is written the sizes differ, unless nothing was appended. -/
theorem recoverable_grown (recoverable : Recoverable s) (isIndex : s.index = some index)
    (isManifest : s.manifest = some manifest) (agree : index.ntotal = manifest.labels.length) :
    Recoverable { s with
      index := some (grown index embeddings)
      rows := s.rows ++ newRows embeddings.vectors labels paths } := by
  have vectors : HasVectors { s with
      index := some (grown index embeddings)
      rows := s.rows ++ newRows embeddings.vectors labels paths } := by
    rintro _ ⟨⟩
    simp [grown, recoverable.vectors index isIndex]
  refine ⟨vectors, recoverable.columns, (loadServes_iff vectors).mpr ?_⟩
  rintro _ other ⟨⟩ isOther hasMetadata sized
  cases isManifest.symm.trans isOther
  have nothing : embeddings.vectors = [] := by
    apply List.eq_nil_of_length_eq_zero
    simp only [Index.ntotal, grown, List.length_append] at sized agree
    omega
  have supplied := (loadServes_iff recoverable.vectors).mp recoverable.serves index manifest
    isIndex isManifest hasMetadata agree
  simpa [nothing, newRows] using supplied

theorem recoverable_extended (recoverable : Recoverable s) (isIndex : s.index = some index)
    (isManifest : s.manifest = some manifest) (agree : index.ntotal = manifest.labels.length)
    (labelCount : labels.length = embeddings.vectors.length)
    (pathCount : paths.length = embeddings.vectors.length) {metadata : Option IndexMetadata}
    (known : metadata.isSome → s.metadata.isSome) :
    Recoverable ⟨some (grown index embeddings), some (extended manifest labels paths), metadata,
      s.rows ++ newRows embeddings.vectors labels paths⟩ := by
  have vectors : (grown index embeddings).vectors =
      (s.rows ++ newRows embeddings.vectors labels paths).map Row.vector := by
    simp [grown, recoverable.vectors index isIndex]
  rcases metadata with _ | metadata
  · refine ⟨?_, ?_, loadServes_of_no_metadata rfl⟩
    · rintro _ ⟨⟩
      exact vectors
    · rintro _ ⟨⟩
      have columns := recoverable.columns manifest isManifest
      simp only [extended, List.length_append]
      omega
  · have supplied := (loadServes_iff recoverable.vectors).mp recoverable.serves index manifest
      isIndex isManifest (known rfl) agree
    have labelled : Supplied labels ((newRows embeddings.vectors labels paths).map Row.labels) :=
      (supplied_newRows_labels_iff labelCount labelCount).mpr rfl
    have located : Supplied paths ((newRows embeddings.vectors labels paths).map Row.paths) :=
      (supplied_newRows_paths_iff pathCount pathCount).mpr rfl
    apply recoverable_of_supplied rfl rfl vectors
    · simpa [extended] using List.rel_append supplied.1 labelled
    · simpa [extended] using List.rel_append supplied.2 located

theorem finished_append (recoverable : Recoverable s)
    (labelCount : labels.length = embeddings.vectors.length)
    (pathCount : paths.length = embeddings.vectors.length) (interrupted : Option ℕ) :
    Recoverable (finished unitNorm s ⟨.append embeddings labels paths, interrupted⟩) := by
  rcases append_cases unitNorm s embeddings labels paths with
    ⟨error, raised⟩ | ⟨index, manifest, isIndex, isManifest, total, rest, result, appended, last⟩
  · have fails : (Call.append embeddings labels paths).outcome unitNorm s = raises error :=
      forget_raises raised
    rw [finished_of_raised fails]
    exact recoverable
  · have agree : index.ntotal = manifest.labels.length := by omega
    have writes : ((Call.append embeddings labels paths).outcome unitNorm s).writes =
        [⟨.index (grown index embeddings), s.rows ++ newRows embeddings.vectors labels paths⟩,
          ⟨.manifest (extended manifest labels paths),
            s.rows ++ newRows embeddings.vectors labels paths⟩] ++ rest := by
      simp [Call.outcome, appended, Outcome.forget]
    apply finished_of_partly
    intro count
    simp only [finished, Event.writes, writes]
    rcases count with _ | _ | count
    · exact recoverable
    · exact recoverable_grown recoverable isIndex isManifest agree
    · have written : ∀ metadata : Option IndexMetadata,
          (metadata.isSome → s.metadata.isSome) →
          Recoverable ⟨some (grown index embeddings), some (extended manifest labels paths),
            metadata, s.rows ++ newRows embeddings.vectors labels paths⟩ := fun _ =>
        recoverable_extended recoverable isIndex isManifest agree labelCount pathCount
      rcases last with ⟨_, rfl, _⟩ | ⟨hasMetadata, metadata, _, rfl, _⟩
      · simpa [Artefacts.performAll, Artefacts.perform] using written s.metadata id
      · rcases count with _ | count
        · exact written s.metadata id
        · simpa [Artefacts.performAll, Artefacts.perform] using
            written (some metadata) fun _ => hasMetadata

end Append

/-- A manifest updated together with its rows is served. -/
theorem recoverable_updated {updates : List (ℤ × ℤ)} {pathUpdates : List (ℤ × String)}
    {index : Index V} {manifest : Manifest} {labels : List ℤ} {paths : List String}
    {relabelled changed : ℕ} (recoverable : Recoverable s) (isIndex : s.index = some index)
    (isManifest : s.manifest = some manifest)
    (labelsOk : updateColumn updates manifest.labels 0 = .ok (labels, relabelled))
    (pathsOk : updateColumn pathUpdates manifest.paths relabelled = .ok (paths, changed))
    (labelCount : labels.length = index.ntotal) (pathCount : paths.length = index.ntotal) :
    Recoverable { s with
      manifest := some ⟨labels, paths⟩
      rows := supply pushPath pathUpdates (supply pushLabel updates s.rows) } := by
  have vectors : (supply pushPath pathUpdates (supply pushLabel updates s.rows)).map Row.vector =
      s.rows.map Row.vector :=
    (map_supply_frame pushPath (fun _ _ => rfl) _ _).trans
      (map_supply_frame pushLabel (fun _ _ => rfl) _ _)
  have histories : (supply pushPath pathUpdates (supply pushLabel updates s.rows)).map
      Row.labels = (supply pushLabel updates s.rows).map Row.labels :=
    map_supply_frame pushPath (fun _ _ => rfl) _ _
  have pathHistories : (supply pushLabel updates s.rows).map Row.paths = s.rows.map Row.paths :=
    map_supply_frame pushLabel (fun _ _ => rfl) _ _
  have hasVectors : HasVectors { s with
      manifest := some ⟨labels, paths⟩
      rows := supply pushPath pathUpdates (supply pushLabel updates s.rows) } := by
    intro other isOther
    exact (recoverable.vectors other isOther).trans vectors.symm
  refine ⟨hasVectors, ?_, (loadServes_iff hasVectors).mpr ?_⟩
  · rintro _ ⟨⟩
    exact labelCount.trans pathCount.symm
  · rintro other _ isOther ⟨⟩ hasMetadata sized
    cases isIndex.symm.trans isOther
    have agree : index.ntotal = manifest.labels.length :=
      labelCount.symm.trans (updateColumn_length labelsOk)
    have supplied := (loadServes_iff recoverable.vectors).mp recoverable.serves index manifest
      isIndex isManifest hasMetadata agree
    constructor
    · rw [histories]
      exact supplied_supply pushLabel (fun _ _ => rfl) supplied.1 labelsOk
    · apply supplied_supply pushPath (fun _ _ => rfl) _ pathsOk
      rw [pathHistories]
      exact supplied.2

theorem finished_update {updates : List (ℤ × ℤ)} {pathUpdates : List (ℤ × String)}
    (recoverable : Recoverable s) (interrupted : Option ℕ) :
    Recoverable (finished unitNorm s ⟨.update updates pathUpdates, interrupted⟩) := by
  rcases update_cases s updates pathUpdates with ⟨error, raised⟩ |
    ⟨index, manifest, labels, relabelled, paths, changed, isIndex, isManifest, labelsOk, pathsOk,
      labelCount, pathCount, updated⟩
  · have fails : (Call.update updates pathUpdates).outcome unitNorm s = raises error :=
      forget_raises raised
    rw [finished_of_raised fails]
    exact recoverable
  · have written := recoverable_updated recoverable isIndex isManifest labelsOk pathsOk labelCount
      pathCount
    have writes : ((Call.update updates pathUpdates).outcome unitNorm s).writes =
        [⟨.manifest ⟨labels, paths⟩,
          supply pushPath pathUpdates (supply pushLabel updates s.rows)⟩] := by
      simp [Call.outcome, updated, Outcome.forget]
    apply finished_of_partly
    intro count
    simp only [finished, Event.writes, writes]
    rcases count with _ | count
    · exact recoverable
    · simpa [Artefacts.performAll, Artefacts.perform] using written

/-- One event on recoverable artefacts leaves them recoverable unless it is a torn rebuild. -/
theorem recoverable_step (recoverable : Recoverable s) {event : Event V}
    (wellFormed : event.call.WellFormed) :
    RecoverableUnless (TornRebuild unitNorm s event) (finished unitNorm s event) := by
  rcases event with ⟨call, interrupted⟩
  cases call with
  | build embeddings labels paths sourceModel imageSize =>
      exact finished_build recoverable wellFormed.1 wellFormed.2 interrupted
  | append embeddings labels paths =>
      exact (finished_append recoverable wellFormed.1 wellFormed.2 interrupted).unless id
  | update updates pathUpdates => exact (finished_update recoverable interrupted).unless id

theorem recoverable_empty : Recoverable (Artefacts.empty V) := by
  refine ⟨?_, ?_, loadServes_of_no_metadata rfl⟩
  · rintro _ ⟨⟩
  · rintro _ ⟨⟩

/-- From an empty directory, along any well-formed calls with any interruptions, `load` raises or
serves what was supplied after every one of them exactly when none is a torn rebuild. -/
theorem load_serves_iff (unitNorm : V → Bool) (events : List (Event V))
    (wellFormed : ∀ event ∈ events, event.call.WellFormed) :
    EachStep (step unitNorm) (fun _ _ after => LoadServes after) (Artefacts.empty V) events ↔
      EachStep (step unitNorm) (fun before event _ => ¬TornRebuild unitNorm before event)
        (Artefacts.empty V) events := by
  apply eachStep_iff Recoverable (fun event => event.call.WellFormed) _ _ recoverable_empty
    wellFormed
  · rintro before event _ recoverable isWellFormed ⟨⟩
    exact (recoverable_step recoverable isWellFormed).serves_iff
  · rintro before event _ recoverable isWellFormed ⟨⟩ notTorn
    exact (recoverable_step recoverable isWellFormed).recoverable notTorn

/-- A build, an append interrupted before its manifest, and a rebuild of another size interrupted
there too. -/
theorem load_serves_interrupted :
    EachStep (step fun _ : ℕ => true) (fun _ _ after => LoadServes after) (Artefacts.empty ℕ)
      [⟨.build ⟨1, [7]⟩ [0] ["a.jpg"] "embedder" 224, none⟩,
        ⟨.append ⟨1, [8]⟩ [1] ["b.jpg"], some 1⟩,
        ⟨.build ⟨1, [9, 10]⟩ [2, 3] ["c.jpg", "d.jpg"] "embedder" 224, some 1⟩] := by
  refine (load_serves_iff _ _ ?_).mpr ?_
  · simp [Call.WellFormed]
  · rintro _ ⟨⟩
    refine ⟨by simp [TornRebuild], ?_⟩
    rintro _ ⟨⟩
    refine ⟨id, ?_⟩
    rintro _ ⟨⟩
    refine ⟨?_, trivial⟩
    rintro ⟨_, _, _, manifest, ⟨⟩, sized, _⟩
    cases sized

/-- A rebuild of the same size interrupted after its index serves the new vector with the label
of the old one. -/
theorem interrupted_rebuild_mislabels :
    ¬∀ events : List (Event ℕ), (∀ event ∈ events, event.call.WellFormed) →
      EachStep (step fun _ => true) (fun _ _ after => LoadServes after) (Artefacts.empty ℕ)
        events := by
  intro always
  have each := always
    [⟨.build ⟨1, [7]⟩ [0] ["a.jpg"] "embedder" 224, none⟩,
      ⟨.build ⟨1, [8]⟩ [1] ["b.jpg"] "embedder" 224, some 1⟩] (by simp [Call.WellFormed])
  have served := ((each _ rfl).2 _ rfl).1 _ rfl
  rcases served.labels with _ | ⟨here, _⟩
  revert here
  decide

end VisionApi.Similarity
