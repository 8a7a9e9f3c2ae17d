import VisionApi.Foundation.Rounding
import Mathlib.Data.Rat.Floor

/-!
# The geometry of preprocessing

`preprocess_image` resizes the short edge and crops the centre with NumPy and
Pillow, `build_eval_transform` does so with torchvision.  The sizes and boxes of
both are computed here with Python's numbers: integers are exact, a quotient is
rounded to a double.  `v2.Resize` and `v2.CenterCrop` follow their documented
behaviour.

Both agree on the short edge and on how the crop is centred.  They differ on the long
edge, which the serving path rounds to the nearest integer and torchvision truncates;
so the whole geometry agrees exactly if the quotient is rounded down
(`round_eq_int_iff`).  The comparison is between floats, and for sizes below `2 ^ 53`
it is reduced to the remainder of a division of naturals (`roundsDown_longEdge`).

Where the long edge differs by one the box may still be the same, but the resized image
is not, and with it the pixels.
-/

namespace VisionApi.Preprocess

open Foundation

/-- The size of an image. -/
structure Size where
  width : ℤ
  height : ℤ
deriving DecidableEq

/-- A box by its edges. -/
structure Box where
  left : ℤ
  top : ℤ
  right : ℤ
  bottom : ℤ
deriving DecidableEq

/-- The size after resizing, whether it is padded, and the box that is cropped. -/
structure Geometry where
  resized : Size
  padded : Bool
  box : Box
deriving DecidableEq

/-- `n / d` on Python integers. -/
def trueDiv (n d : ℤ) : ℚ :=
  nearest 53 ((n : ℚ) / d)

/-- `n / x` on a Python integer and a float. -/
def floatDiv (n : ℤ) (x : ℚ) : ℚ :=
  nearest 53 (nearest 53 (n : ℚ) / x)

/-- `int(x)` truncates. -/
def int (x : ℚ) : ℤ :=
  if 0 ≤ x then ⌊x⌋ else ⌈x⌉

/-! ## Serving -/

/-- The share of the short edge that the crop keeps. -/
def cropRatio : ℚ := 7 / 8

/-- The settings of preprocessing that decide on sizes. -/
structure PreprocessConfig where
  imageSize : ℤ := 224
  cropRatio : ℚ := Preprocess.cropRatio

/-- The short edge becomes the target, the long one is rounded. -/
def resizeShortEdge (image : Size) (target : ℤ) : Size :=
  if image.width ≤ image.height then
    ⟨target, max 1 (roundHalfEven (trueDiv (image.height * target) image.width))⟩
  else
    ⟨max 1 (roundHalfEven (trueDiv (image.width * target) image.height)), target⟩

/-- A square in the centre. -/
def centerCrop (image : Size) (size : ℤ) : Box :=
  let left := roundHalfEven (trueDiv (image.width - size) 2)
  let top := roundHalfEven (trueDiv (image.height - size) 2)
  ⟨left, top, left + size, top + size⟩

/-- The geometry of `preprocess_image`. -/
def preprocessImage (config : PreprocessConfig) (image : Size) : Geometry :=
  let resizeTarget := int ⌊floatDiv config.imageSize config.cropRatio⌋
  let resized := resizeShortEdge image resizeTarget
  ⟨resized, false, centerCrop resized config.imageSize⟩

/-! ## Training -/

/-- `v2.Resize` with one requested size: the long edge is truncated. -/
def resize (image : Size) (requested : ℤ) : Size :=
  let short := min image.width image.height
  let long := max image.width image.height
  let newLong := int (trueDiv (requested * long) short)
  if image.width ≤ image.height then ⟨requested, newLong⟩ else ⟨newLong, requested⟩

/-- `v2.CenterCrop`, which pads an image smaller than the crop. -/
def centerCropV2 (image : Size) (size : ℤ) : Bool × Box :=
  let left := int (roundHalfEven (trueDiv (image.width - size) 2))
  let top := int (roundHalfEven (trueDiv (image.height - size) 2))
  (image.width < size || image.height < size, ⟨left, top, left + size, top + size⟩)

/-- The geometry of `build_eval_transform`. -/
def buildEvalTransform (imageSize : ℤ) (image : Size) : Geometry :=
  let resizeTo := ⌊floatDiv imageSize 0.875⌋
  let resized := resize image resizeTo
  let (padded, box) := centerCropV2 resized imageSize
  ⟨resized, padded, box⟩

/-! ## Agreement -/

/-- The requested short edge. -/
def resizeTarget (imageSize : ℤ) : ℤ :=
  ⌊floatDiv imageSize cropRatio⌋

/-- The long edge before it is rounded to an integer. -/
def longEdge (imageSize : ℤ) (image : Size) : ℚ :=
  trueDiv (resizeTarget imageSize * max image.width image.height) (min image.width image.height)

theorem int_of_nonneg {x : ℚ} (nonneg : 0 ≤ x) : int x = ⌊x⌋ :=
  if_pos nonneg

@[simp]
theorem int_intCast (k : ℤ) : int (k : ℚ) = k := by
  simp [int]

theorem nearest_ge {x : ℚ} (positive : 0 < x) : x - x / 2 ^ 53 ≤ nearest 53 x := by
  have error : |nearest 53 x - x| ≤ x / 2 ^ 53 := abs_nearest_sub_le positive
  rw [abs_le] at error
  linarith [error.1]

/-- The short edge is a little over `8 / 7` of the crop. -/
theorem floatDiv_ge {imageSize : ℤ} (positive : 1 ≤ imageSize) :
    (imageSize : ℚ) * (8 / 7) * (1 - 1 / 2 ^ 53) ^ 2 ≤ floatDiv imageSize cropRatio := by
  have size : (1 : ℚ) ≤ imageSize := by exact_mod_cast positive
  have converted := nearest_ge (x := (imageSize : ℚ)) (by linarith)
  have quotientPositive : 0 < nearest 53 (imageSize : ℚ) / cropRatio :=
    div_pos (by norm_num at converted ⊢; linarith) (by norm_num [cropRatio])
  have divided := nearest_ge quotientPositive
  rw [floatDiv]
  rw [cropRatio] at divided ⊢
  norm_num at converted divided ⊢
  linarith

/-- The target is at least the size of the crop. -/
theorem le_resizeTarget {imageSize : ℤ} (positive : 1 ≤ imageSize) :
    imageSize ≤ resizeTarget imageSize := by
  have size : (1 : ℚ) ≤ imageSize := by exact_mod_cast positive
  have large := floatDiv_ge positive
  rw [resizeTarget, Int.le_floor]
  norm_num at large
  linarith

/-- The resized image is never smaller than the crop. -/
theorem le_nearest_long {imageSize : ℤ} {x : ℚ} (positive : 1 ≤ imageSize)
    (long : (resizeTarget imageSize : ℚ) ≤ x) : (imageSize : ℚ) ≤ nearest 53 x := by
  have size : (1 : ℚ) ≤ imageSize := by exact_mod_cast positive
  have crop : (imageSize : ℚ) ≤ resizeTarget imageSize := by
    exact_mod_cast le_resizeTarget positive
  obtain ⟨n, rfl⟩ := Int.eq_ofNat_of_zero_le (by omega : 0 ≤ imageSize)
  rw [Int.cast_natCast] at *
  rcases lt_or_ge (2 * n) (2 ^ 53) with small | huge
  · obtain ⟨k, grid⟩ : ∃ k : ℤ, (n : ℚ) = k * 2 ^ lastExponent 53 (n : ℚ) :=
      natCast_grid (by omega) small
    exact le_nearest (by norm_num) (by linarith) grid (crop.trans long)
  · -- Here the relative error is far below the margin of the crop ratio.
    have huge : (2 : ℚ) ^ 53 ≤ 2 * n := by exact_mod_cast huge
    have target := floatDiv_ge positive
    have floor := Int.sub_one_lt_floor (floatDiv (n : ℤ) cropRatio)
    have rounded := nearest_ge (x := x) (by linarith)
    rw [resizeTarget] at long
    rw [Int.cast_natCast] at target
    norm_num at huge target rounded
    linarith

/-- The long edge is at least the size of the crop before it is rounded. -/
theorem le_longEdge {imageSize : ℤ} {image : Size} (positive : 1 ≤ imageSize)
    (wide : 1 ≤ image.width) (high : 1 ≤ image.height) :
    (imageSize : ℚ) ≤ longEdge imageSize image := by
  apply le_nearest_long positive
  have short : 0 < min image.width image.height := by omega
  have target : 1 ≤ resizeTarget imageSize := positive.trans (le_resizeTarget positive)
  rw [le_div_iff₀ (by exact_mod_cast short)]
  norm_cast
  exact Int.mul_le_mul_of_nonneg_left (by omega) (by omega)

/-- Rounding and truncating the long edge agree when it rounds down. -/
theorem round_eq_int_iff {x : ℚ} (atLeastOne : 1 ≤ x) :
    max 1 (roundHalfEven x) = int x ↔ RoundsDown x := by
  have one : (1 : ℤ) ≤ roundHalfEven x := le_roundHalfEven (by exact_mod_cast atLeastOne)
  rw [max_eq_right one, int_of_nonneg (by linarith), roundHalfEven_eq_floor_iff]

/-- The short edge is the target and the long edge is rounded. -/
theorem resizeShortEdge_eq (imageSize : ℤ) (image : Size) :
    resizeShortEdge image (resizeTarget imageSize) =
      if image.width ≤ image.height then
        ⟨resizeTarget imageSize, max 1 (roundHalfEven (longEdge imageSize image))⟩
      else
        ⟨max 1 (roundHalfEven (longEdge imageSize image)), resizeTarget imageSize⟩ := by
  unfold resizeShortEdge longEdge
  split
  · rename_i tall
    simp only [max_eq_right tall, min_eq_left tall, mul_comm image.height]
  · rename_i broad
    have broad := (not_le.mp broad).le
    simp only [max_eq_left broad, min_eq_right broad, mul_comm image.width]

theorem resize_eq_iff {imageSize : ℤ} {image : Size} (positive : 1 ≤ imageSize)
    (wide : 1 ≤ image.width) (high : 1 ≤ image.height) :
    resizeShortEdge image (resizeTarget imageSize) = resize image (resizeTarget imageSize) ↔
      RoundsDown (longEdge imageSize image) := by
  have size : (1 : ℚ) ≤ imageSize := by exact_mod_cast positive
  have atLeastOne := size.trans (le_longEdge positive wide high)
  rw [← round_eq_int_iff atLeastOne, resizeShortEdge_eq]
  unfold resize
  split
  · simp only [Size.mk.injEq, true_and]
    rfl
  · simp only [Size.mk.injEq, and_true]
    rfl

/-- An image that `v2.Resize` made is not padded, and both crops take the same box. -/
theorem centerCropV2_resize {imageSize : ℤ} {image : Size} (positive : 1 ≤ imageSize)
    (wide : 1 ≤ image.width) (high : 1 ≤ image.height) :
    centerCropV2 (resize image (resizeTarget imageSize)) imageSize =
      (false, centerCrop (resize image (resizeTarget imageSize)) imageSize) := by
  have short := le_resizeTarget positive
  have long : imageSize ≤ int (longEdge imageSize image) := by
    have size : (1 : ℚ) ≤ imageSize := by exact_mod_cast positive
    have edge := le_longEdge positive wide high
    rw [int_of_nonneg (by linarith), Int.le_floor]
    exact edge
  have fits : imageSize ≤ (resize image (resizeTarget imageSize)).width ∧
      imageSize ≤ (resize image (resizeTarget imageSize)).height := by
    simp only [resize]
    split
    · exact ⟨short, long⟩
    · exact ⟨long, short⟩
  simp only [centerCropV2, centerCrop, int_intCast, Prod.mk.injEq, and_true]
  simp only [Bool.or_eq_false_iff, decide_eq_false_iff_not]
  omega

theorem resizeTarget_eq {n : ℕ} (positive : 1 ≤ n) (small : 16 * n < 2 ^ 53) :
    resizeTarget n = ((8 * n / 7 : ℕ) : ℤ) := by
  have exactSize : nearest 53 (n : ℚ) = n := nearest_natCast (by omega) (by omega)
  have quotient : (n : ℚ) / cropRatio = ((8 * n : ℕ) : ℚ) / (7 : ℕ) := by
    rw [cropRatio]
    push_cast
    ring
  rw [resizeTarget, floatDiv, Int.cast_natCast, exactSize, quotient]
  exact floor_nearest_div (by omega) (by norm_num) (by omega)

theorem roundsDown_longEdge {n w h : ℕ} (positive : 1 ≤ n) (wide : 1 ≤ w) (high : 1 ≤ h)
    (small : 16 * n * max w h < 2 ^ 53) :
    RoundsDown (longEdge n ⟨w, h⟩) ↔
      2 * (8 * n / 7 * max w h % min w h) < min w h ∨
        2 * (8 * n / 7 * max w h % min w h) = min w h ∧
          Even (8 * n / 7 * max w h / min w h) := by
  have target : 16 * n < 2 ^ 53 := lt_of_le_of_lt (Nat.le_mul_of_pos_right _ (by omega)) small
  have whole : 0 < 8 * n / 7 := by omega
  have product : 2 * (8 * n / 7 * max w h) < 2 ^ 53 := by
    refine lt_of_le_of_lt ?_ small
    rw [← mul_assoc]
    exact Nat.mul_le_mul_right _ (by omega)
  rw [longEdge, resizeTarget_eq positive target, trueDiv]
  have casts : (((8 * n / 7 : ℕ) : ℤ) * max (w : ℤ) h : ℤ) = ((8 * n / 7 * max w h : ℕ) : ℤ) := by
    push_cast
    rfl
  have shortCast : (min (w : ℤ) h : ℤ) = ((min w h : ℕ) : ℤ) := by
    push_cast
    rfl
  simp only [casts, shortCast, Int.cast_natCast]
  exact roundsDown_nearest_div (Nat.mul_pos whole (by omega)) (by omega) product

/-- Serving and training crop the same box out of the same resized image exactly when the long
edge rounds down; below `2 ^ 53` this is a condition on integers. -/
theorem preprocessImage_eq_iff (n w h : ℕ) (positive : 1 ≤ n) (wide : 1 ≤ w) (high : 1 ≤ h) :
    (preprocessImage { imageSize := n } ⟨w, h⟩ = buildEvalTransform n ⟨w, h⟩ ↔
      RoundsDown (longEdge n ⟨w, h⟩)) ∧
    (16 * n * max w h < 2 ^ 53 →
      (preprocessImage { imageSize := n } ⟨w, h⟩ = buildEvalTransform n ⟨w, h⟩ ↔
        2 * (8 * n / 7 * max w h % min w h) < min w h ∨
          2 * (8 * n / 7 * max w h % min w h) = min w h ∧
            Even (8 * n / 7 * max w h / min w h))) := by
  have agrees : preprocessImage { imageSize := n } ⟨w, h⟩ = buildEvalTransform n ⟨w, h⟩ ↔
      RoundsDown (longEdge n ⟨w, h⟩) := by
    have positive : (1 : ℤ) ≤ n := by exact_mod_cast positive
    have wide : (1 : ℤ) ≤ w := by exact_mod_cast wide
    have high : (1 : ℤ) ≤ h := by exact_mod_cast high
    have ratio : (0.875 : ℚ) = cropRatio := by norm_num [cropRatio]
    have crop : centerCropV2 (resize ⟨w, h⟩ (resizeTarget n)) n =
        (false, centerCrop (resize ⟨w, h⟩ (resizeTarget n)) n) :=
      centerCropV2_resize positive wide high
    rw [← resize_eq_iff positive wide high]
    simp only [preprocessImage, buildEvalTransform, ratio, int_intCast]
    change Geometry.mk (resizeShortEdge ⟨w, h⟩ (resizeTarget n)) false
        (centerCrop (resizeShortEdge ⟨w, h⟩ (resizeTarget n)) n) =
      Geometry.mk (resize ⟨w, h⟩ (resizeTarget n))
        (centerCropV2 (resize ⟨w, h⟩ (resizeTarget n)) n).1
        (centerCropV2 (resize ⟨w, h⟩ (resizeTarget n)) n).2 ↔ _
    rw [crop]
    constructor
    · intro same
      exact congrArg Geometry.resized same
    · intro same
      rw [same]
  refine ⟨agrees, fun small => agrees.trans ?_⟩
  exact roundsDown_longEdge positive wide high small

/-- A landscape image, a portrait one whose long edge is a tie, and one that differs. -/
theorem preprocessImage_eq_examples :
    preprocessImage { imageSize := 224 } ⟨300, 200⟩ = buildEvalTransform 224 ⟨300, 200⟩ ∧
      preprocessImage { imageSize := 224 } ⟨512, 513⟩ = buildEvalTransform 224 ⟨512, 513⟩ ∧
      preprocessImage { imageSize := 224 } ⟨640, 427⟩ ≠ buildEvalTransform 224 ⟨640, 427⟩ := by
  refine ⟨?_, ?_, ?_⟩
  · exact ((preprocessImage_eq_iff 224 300 200 (by omega) (by omega) (by omega)).2
      (by decide)).mpr (by decide)
  · exact ((preprocessImage_eq_iff 224 512 513 (by omega) (by omega) (by omega)).2
      (by decide)).mpr (by decide)
  · intro same
    have rounds := ((preprocessImage_eq_iff 224 640 427 (by omega) (by omega) (by omega)).2
      (by decide)).mp same
    revert rounds
    decide

/-- An image of 3 by 5 pixels is resized to a height of 427 when serving and 426 in training. -/
theorem preprocessImage_differs :
    ¬∀ imageSize width height : ℕ, 1 ≤ imageSize → 1 ≤ width → 1 ≤ height →
      preprocessImage { imageSize } ⟨width, height⟩ =
        buildEvalTransform imageSize ⟨width, height⟩ := by
  intro always
  have same := always 224 3 5 (by omega) (by omega) (by omega)
  revert same
  decide +kernel

end VisionApi.Preprocess
