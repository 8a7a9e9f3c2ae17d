import Mathlib.Data.Rat.Init
import VisionApi.Foundation.Json
import Mathlib.Logic.Function.Defs

/-!
# Artefacts of a model version

The artefacts directory holds exported graphs under `onnx/`, with their labels
and metrics.  A version keeps its files in `onnx/<version>/`; the default
version may also use the flat layout.

A path is the list of its components, and the files of a deployment are what a loader
finds: which paths exist, and what reading the labels and the metrics leads to.  The
labels hold JSON values, since the loader takes them as they come.

The two resolving functions of the source test one path each.  `Layout` names the two
places a file can come from, so that the lemmas below say of each resolved path which
layout it belongs to.
-/

namespace VisionApi.Models

open Foundation

/-- A path by its components; a version is one component. -/
abbrev Path := List String

/-- A path as a text. -/
def pathString (path : Path) : String :=
  "/".intercalate path

/-- `labels.json`; its lists are whatever JSON they are, the loaders do not look at them. -/
structure Labels where
  classNames : Json ℚ
  wnids : Json ℚ
  imageSize : ℤ

/-- The artefacts directory as the loaders read it.  A metric that is not a number has no
value here. -/
structure Files where
  present : Path → Bool
  labels : Path → Except String Labels
  metrics : Path → Except String (List (String × Option ℚ))

/-- The version that may use the flat layout. -/
def defaultVersion : String := "v1"

/-- The versioned graph, or the flat one of the default version. -/
def resolveVersionedArtifact (files : Files) (onnxDir : Path) (filename version : String) :
    Path :=
  let versioned := onnxDir ++ [version, filename]
  if files.present versioned || version ≠ defaultVersion then versioned else onnxDir ++ [filename]

/-- The versioned file, or the flat one of the default version, if either is there. -/
def resolveVersionedMetadata (files : Files) (artifactsDir : Path) (filename version : String) :
    Option Path :=
  let versioned := artifactsDir ++ ["onnx", version, filename]
  let flat := artifactsDir ++ [filename]
  if files.present versioned then some versioned
  else if version = defaultVersion && files.present flat then some flat
  else none

/-! ## Layouts -/

/-- The two places the files of a version may be in. -/
inductive Layout where
  | versioned
  | flat
deriving DecidableEq

/-- The path of a graph in a layout. -/
def Layout.graph (artifactsDir : Path) (version filename : String) : Layout → Path
  | .versioned => artifactsDir ++ ["onnx", version, filename]
  | .flat => artifactsDir ++ ["onnx", filename]

/-- The path of a label or metric file in a layout. -/
def Layout.metadata (artifactsDir : Path) (version filename : String) : Layout → Path
  | .versioned => artifactsDir ++ ["onnx", version, filename]
  | .flat => artifactsDir ++ [filename]

/-- The layout an existence check selects. -/
def Layout.ofVersioned (present : Bool) : Layout :=
  if present then .versioned else .flat

variable {files : Files} {artifactsDir : Path} {filename version : String}

theorem Layout.metadata_injective :
    Function.Injective (metadata artifactsDir version filename) := by
  intro left right same
  cases left with
  | versioned =>
      cases right with
      | versioned => rfl
      | flat => simp [metadata] at same
  | flat =>
      cases right with
      | versioned => simp [metadata] at same
      | flat => rfl

/-- Any version but the default one is read from its own directory. -/
theorem resolveVersionedArtifact_of_ne (pinned : version ≠ defaultVersion) :
    resolveVersionedArtifact files (artifactsDir ++ ["onnx"]) filename version =
      Layout.versioned.graph artifactsDir version filename := by
  simp [resolveVersionedArtifact, pinned, Layout.graph]

/-- The graph of the default version is in the layout of its own existence check. -/
theorem resolveVersionedArtifact_default :
    resolveVersionedArtifact files (artifactsDir ++ ["onnx"]) filename defaultVersion =
      (Layout.ofVersioned
        (files.present (Layout.versioned.graph artifactsDir defaultVersion filename))).graph
          artifactsDir defaultVersion filename := by
  simp only [resolveVersionedArtifact, Layout.graph, List.append_assoc, List.cons_append,
    List.nil_append]
  cases files.present (artifactsDir ++ ["onnx", defaultVersion, filename]) with
  | true => rfl
  | false => rfl

/-- A version other than the default has its files in its own directory. -/
theorem resolveVersionedMetadata_of_ne {path : Path} (pinned : version ≠ defaultVersion)
    (resolved : resolveVersionedMetadata files artifactsDir filename version = some path) :
    path = Layout.versioned.metadata artifactsDir version filename := by
  simp only [resolveVersionedMetadata] at resolved
  split at resolved
  · exact (Option.some.inj resolved).symm
  · simp [pinned] at resolved

theorem resolveVersionedMetadata_default {path : Path}
    (resolved : resolveVersionedMetadata files artifactsDir filename defaultVersion = some path) :
    path = (Layout.ofVersioned
      (files.present (Layout.versioned.metadata artifactsDir defaultVersion filename))).metadata
        artifactsDir defaultVersion filename := by
  simp only [resolveVersionedMetadata] at resolved
  simp only [Layout.metadata]
  split at resolved
  · rename_i there
    rw [there]
    exact (Option.some.inj resolved).symm
  · rename_i missing
    simp only [Option.ite_none_right_eq_some, Option.some.injEq] at resolved
    rw [Bool.not_eq_true] at missing
    rw [missing]
    exact resolved.2.symm

end VisionApi.Models
