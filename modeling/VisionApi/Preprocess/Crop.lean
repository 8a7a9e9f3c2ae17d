import VisionApi.Foundation.Floats
import VisionApi.Preprocess.Geometry

/-!
# The serving crop lies in the resized image

The crop ratio leaves a margin of a seventh around the crop.  Rounding the long
edge and the offsets of the crop does not use it up, however small the image or
extreme its aspect ratio.  The numbers on the way fit into a float unless an edge
has hundreds of digits.

That a crop fits is a matter of the resized size alone: `Covers` asks both edges to be
at least the size of the crop, and the offsets are then halves of what is left, rounded
to the nearest integer, which neither falls below zero nor exceeds the margin.

The short edge is the target, which is at least the size (`le_resizeTarget`), and the
long edge is at least the short one before it is rounded.  For the numbers in between,
`Representable` says that the two quotients are below the bound of a float; only a
quotient can overflow, since the integers of the source are exact.
-/

namespace VisionApi.Preprocess

open Foundation

/-- A square of the given size fits into the image. -/
def Size.Covers (image : Size) (size : ℤ) : Prop :=
  size ≤ image.width ∧ size ≤ image.height

/-- Every pixel of the box is one of the image. -/
structure Box.Within (box : Box) (image : Size) : Prop where
  left : 0 ≤ box.left
  top : 0 ≤ box.top
  right : box.right ≤ image.width
  bottom : box.bottom ≤ image.height

/-- The width and height of a box. -/
def Box.size (box : Box) : Size :=
  ⟨box.right - box.left, box.bottom - box.top⟩

/-! ## Cropping -/

/-- A rounded half of the margin leaves the crop inside. -/
theorem cropOffset_within {dimension size : ℤ} (fits : size ≤ dimension) :
    0 ≤ roundHalfEven (trueDiv (dimension - size) 2) ∧
      roundHalfEven (trueDiv (dimension - size) 2) + size ≤ dimension := by
  have half : 0 ≤ roundHalfEven (trueDiv (dimension - size) 2) ∧
      roundHalfEven (trueDiv (dimension - size) 2) ≤ dimension - size :=
    roundHalfEven_nearest_half (by omega) (sub_nonneg.mpr fits)
  omega

/-- The crop of an image that covers it lies inside. -/
theorem centerCrop_within {image : Size} {size : ℤ} (covers : image.Covers size) :
    (centerCrop image size).Within image where
  left := (cropOffset_within covers.1).1
  top := (cropOffset_within covers.2).1
  right := (cropOffset_within covers.1).2
  bottom := (cropOffset_within covers.2).2

@[simp]
theorem centerCrop_size (image : Size) (size : ℤ) :
    (centerCrop image size).size = ⟨size, size⟩ := by
  simp [centerCrop, Box.size]

/-! ## Resizing -/

/-- The resized image covers the crop. -/
theorem resizeShortEdge_covers {imageSize : ℤ} {image : Size} (positive : 1 ≤ imageSize)
    (wide : 1 ≤ image.width) (high : 1 ≤ image.height) :
    (resizeShortEdge image (resizeTarget imageSize)).Covers imageSize := by
  have short := le_resizeTarget positive
  have rounded : imageSize ≤ roundHalfEven (longEdge imageSize image) :=
    le_roundHalfEven (le_longEdge positive wide high)
  have long := rounded.trans (le_max_right 1 _)
  rw [resizeShortEdge_eq]
  split
  · exact ⟨short, long⟩
  · exact ⟨long, short⟩

/-! ## Numbers that fit into a float -/

/-- The short edge before it is rounded to a float. -/
def targetQuotient (imageSize : ℤ) : ℚ :=
  nearest 53 (imageSize : ℚ) / cropRatio

/-- The long edge before it is rounded to a float. -/
def longQuotient (imageSize : ℤ) (image : Size) : ℚ :=
  ((resizeTarget imageSize * max image.width image.height : ℤ) : ℚ) /
    (min image.width image.height : ℤ)

/-- No number that the geometry is computed with is too large for a float. -/
structure Representable (imageSize : ℤ) (image : Size) : Prop where
  converted : (imageSize : ℚ) < overflowBound
  target : targetQuotient imageSize < overflowBound
  long : longQuotient imageSize image < overflowBound

theorem targetQuotient_pos {imageSize : ℤ} (positive : 1 ≤ imageSize) :
    0 < targetQuotient imageSize := by
  have size : (1 : ℚ) ≤ imageSize := by exact_mod_cast positive
  have converted : (imageSize : ℚ) - imageSize / 2 ^ 53 ≤ nearest 53 (imageSize : ℚ) :=
    nearest_ge (by linarith)
  apply div_pos
  · norm_num at converted
    linarith
  · norm_num [cropRatio]

theorem longQuotient_pos {imageSize : ℤ} {image : Size} (positive : 1 ≤ imageSize)
    (wide : 1 ≤ image.width) (high : 1 ≤ image.height) : 0 < longQuotient imageSize image := by
  have target : 1 ≤ resizeTarget imageSize := positive.trans (le_resizeTarget positive)
  apply div_pos
  · exact_mod_cast Int.mul_pos (by omega) (by omega)
  · exact_mod_cast (show 0 < min image.width image.height by omega)

theorem resizeTarget_le_nearest (imageSize : ℤ) :
    (resizeTarget imageSize : ℚ) ≤ nearest 53 (targetQuotient imageSize) :=
  Int.floor_le _

theorem nearest_lt {x : ℚ} (positive : 0 < x) (small : x < overflowBound) :
    nearest 53 x + 1 / 2 < 2 * overflowBound := by
  have error : |nearest 53 x - x| ≤ x / 2 ^ 53 := abs_nearest_sub_le positive
  rw [abs_le] at error
  have power : (2 : ℚ) ≤ 2 ^ 970 := le_self_pow₀ one_le_two (by omega)
  have bound := power.trans pow_le_overflowBound
  norm_num at error
  linarith [error.2]

/-- Halving an edge of the resized image does not overflow. -/
theorem Representable.resized_lt {imageSize : ℤ} {image : Size}
    (representable : Representable imageSize image) (positive : 1 ≤ imageSize)
    (wide : 1 ≤ image.width) (high : 1 ≤ image.height) :
    ((resizeShortEdge image (resizeTarget imageSize)).width : ℚ) < 2 * overflowBound ∧
      ((resizeShortEdge image (resizeTarget imageSize)).height : ℚ) < 2 * overflowBound := by
  have short : (resizeTarget imageSize : ℚ) < 2 * overflowBound := by
    have rounded := nearest_lt (targetQuotient_pos positive) representable.target
    linarith [resizeTarget_le_nearest imageSize]
  have long : ((max 1 (roundHalfEven (longEdge imageSize image)) : ℤ) : ℚ) <
      2 * overflowBound := by
    have float : longEdge imageSize image = nearest 53 (longQuotient imageSize image) := rfl
    have rounded := nearest_lt (longQuotient_pos positive wide high) representable.long
    have error := abs_roundHalfEven_sub_le (longEdge imageSize image)
    have one : (1 : ℚ) ≤ imageSize := by exact_mod_cast positive
    rw [abs_le] at error
    push_cast
    apply max_lt
    · linarith [representable.converted]
    · linarith [error.2]
  rw [resizeShortEdge_eq]
  split
  · exact ⟨short, long⟩
  · exact ⟨long, short⟩

/-- The target is at most twice the size, before it is rounded and after. -/
theorem resizeTarget_le {imageSize : ℤ} (positive : 1 ≤ imageSize) :
    targetQuotient imageSize ≤ 2 * imageSize ∧ (resizeTarget imageSize : ℚ) ≤ 2 * imageSize := by
  have size : (0 : ℚ) < imageSize := by exact_mod_cast positive
  have converted : |nearest 53 (imageSize : ℚ) - imageSize| ≤ imageSize / 2 ^ 53 :=
    abs_nearest_sub_le size
  have divided : |nearest 53 (targetQuotient imageSize) - targetQuotient imageSize| ≤
      targetQuotient imageSize / 2 ^ 53 := abs_nearest_sub_le (targetQuotient_pos positive)
  have quotient : targetQuotient imageSize = nearest 53 (imageSize : ℚ) / (7 / 8) := rfl
  have floor := resizeTarget_le_nearest imageSize
  rw [abs_le] at converted divided
  norm_num at converted divided quotient
  constructor
  · linarith [converted.2]
  · linarith [converted.2, divided.2]

/-- Numbers of a size that images have are far from the bound. -/
theorem representable_of_small {imageSize : ℤ} {image : Size} (positive : 1 ≤ imageSize)
    (wide : 1 ≤ image.width) (high : 1 ≤ image.height) (small : imageSize ≤ 2 ^ 200)
    (few : max image.width image.height ≤ 2 ^ 200) : Representable imageSize image := by
  obtain ⟨quotient, target⟩ := resizeTarget_le positive
  have size : (imageSize : ℚ) ≤ 2 ^ 200 := by exact_mod_cast small
  have longest : ((max image.width image.height : ℤ) : ℚ) ≤ 2 ^ 200 := by exact_mod_cast few
  have shortest : (1 : ℚ) ≤ (min image.width image.height : ℤ) := by
    exact_mod_cast (show 1 ≤ min image.width image.height by omega)
  have product : (0 : ℚ) ≤ (resizeTarget imageSize * max image.width image.height : ℤ) := by
    have atLeast := le_resizeTarget positive
    exact_mod_cast Int.mul_nonneg (by omega) (by omega)
  have bound : (2 : ℚ) * 2 ^ 200 * 2 ^ 200 < overflowBound := by
    calc (2 : ℚ) * 2 ^ 200 * 2 ^ 200 = 2 ^ 401 := by rw [← pow_succ', ← pow_add]
      _ < 2 ^ 970 := pow_lt_pow_right₀ one_lt_two (by omega)
      _ ≤ overflowBound := pow_le_overflowBound
  have half : (2 : ℚ) * 2 ^ 200 < overflowBound :=
    (le_mul_of_one_le_right (by positivity) (one_le_pow₀ one_le_two)).trans_lt bound
  have long : longQuotient imageSize image ≤ 2 * 2 ^ 200 * 2 ^ 200 := by
    calc longQuotient imageSize image
        ≤ (resizeTarget imageSize * max image.width image.height : ℤ) :=
          div_le_self product shortest
      _ = (resizeTarget imageSize : ℚ) * (max image.width image.height : ℤ) := Int.cast_mul _ _
      _ ≤ 2 * 2 ^ 200 * 2 ^ 200 :=
          mul_le_mul (by linarith) longest (by exact_mod_cast (by omega)) (by positivity)
  constructor
  · linarith
  · linarith
  · exact long.trans_lt bound

/-! ## The geometry of serving -/

section Serving

variable {config : PreprocessConfig} {image : Size}

theorem preprocessImage_resized (ratio : config.cropRatio = cropRatio) :
    (preprocessImage config image).resized =
      resizeShortEdge image (resizeTarget config.imageSize) := by
  simp only [preprocessImage, ratio, int_intCast]
  rfl

theorem preprocessImage_covers (ratio : config.cropRatio = cropRatio)
    (positive : 1 ≤ config.imageSize) (wide : 1 ≤ image.width) (high : 1 ≤ image.height) :
    (preprocessImage config image).resized.Covers config.imageSize := by
  rw [preprocessImage_resized ratio]
  exact resizeShortEdge_covers positive wide high

theorem preprocessImage_within (ratio : config.cropRatio = cropRatio)
    (positive : 1 ≤ config.imageSize) (wide : 1 ≤ image.width) (high : 1 ≤ image.height) :
    (preprocessImage config image).box.Within (preprocessImage config image).resized :=
  centerCrop_within (preprocessImage_covers ratio positive wide high)

end Serving

end VisionApi.Preprocess
