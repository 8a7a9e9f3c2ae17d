import Mathlib.Data.Fin.VecNotation
import VisionApi.Foundation.Floats
import VisionApi.Inference.Service
import VisionApi.Preprocess.Crop

/-!
# From an upload to the input of the model

`preprocess_image` decodes an image, resizes it, crops its centre and normalises
it.  Pillow is a parameter with the documented behaviour of its operations: a
crop is described only for a box inside the image, since outside it Pillow
invents black pixels.  A number too large for a float is an error.

`Imaging` has the operations together with what is assumed of their results: opening
gives the size of the header, resizing gives the size that is asked for, converting
keeps the size, and a crop has the pixels of its box.  Whether any of them fails is left
open.

The theorem has three parts.  The call returns exactly if the operations on the way do,
for sizes that fit into floats; it then returns an array of the configured size; and
every value is a normalised pixel of the resized image, none an invented one.  That the
box lies inside was shown for the sizes alone and is used here.

The instance at the end is an image of one colour.
-/

namespace VisionApi.Preprocess

open Foundation Inference Models

/-! ## Python's numbers -/

/-- `n / d` on Python integers. -/
def divide (n d : ℤ) : Except Failure ℚ :=
  if d = 0 then .error (.other "ZeroDivisionError: division by zero")
  else if overflowBound ≤ |(n : ℚ) / d| then
    .error (.other "OverflowError: integer division result too large for a float")
  else .ok (trueDiv n d)

/-- `int(np.floor(n / x))` on a Python integer and a float. -/
def floorDivide (n : ℤ) (x : ℚ) : Except Failure ℤ :=
  if overflowBound ≤ |(n : ℚ)| then
    .error (.other "OverflowError: int too large to convert to float")
  else if x = 0 then .error (.other "ZeroDivisionError: float division by zero")
  else if overflowBound ≤ |nearest 53 (n : ℚ) / x| then
    .error (.other "OverflowError: cannot convert float infinity to integer")
  else .ok (int ⌊floatDiv n x⌋)

/-- The nearest number of 24 binary digits. -/
def float32 (x : ℚ) : ℚ :=
  nearest 24 x

/-! ## Images and arrays -/

/-- Images of Pillow, with the pixels that an RGB image has. -/
structure Imaging (Image : Type) extends Inference.Pillow where
  /-- `Image.open`. -/
  read : Bytes → Except Failure Image
  mode : Image → String
  convert : Image → String → Except Failure Image
  size : Image → Size
  pixel : Image → ℤ → ℤ → Fin 3 → UInt8
  /-- `Image.resize` with bilinear resampling. -/
  resize : Image → Size → Except Failure Image
  crop : Image → Box → Except Failure Image
  size_read : ∀ data header image, toPillow.header data = .ok header → read data = .ok image →
    size image = ⟨header.width, header.height⟩
  size_convert : ∀ image mode converted, convert image mode = .ok converted →
    size converted = size image
  size_resize : ∀ image requested resized, resize image requested = .ok resized →
    size resized = requested
  size_crop : ∀ image box cropped, crop image box = .ok cropped → size cropped = box.size
  pixel_crop : ∀ image box cropped, box.Within (size image) → crop image box = .ok cropped →
    ∀ x y channel, 0 ≤ x → x < box.size.width → 0 ≤ y → y < box.size.height →
      pixel cropped x y channel = pixel image (box.left + x) (box.top + y) channel

/-- An array of one image: its shape and its values by channel, row and column. -/
structure ImageArray where
  shape : List ℤ
  value : Fin 3 → ℕ → ℕ → ℚ

/-- The arrays of a batch. -/
structure BatchArray where
  shape : List ℤ
  images : List ImageArray

/-- The means of the channels. -/
def imagenetMean : Fin 3 → ℚ :=
  ![nearest 53 0.485, nearest 53 0.456, nearest 53 0.406]

/-- The standard deviations of the channels. -/
def imagenetStd : Fin 3 → ℚ :=
  ![nearest 53 0.229, nearest 53 0.224, nearest 53 0.225]

/-- `PreprocessConfig` with the statistics of the training. -/
structure ArrayConfig extends PreprocessConfig where
  mean : Fin 3 → ℚ := imagenetMean
  std : Fin 3 → ℚ := imagenetStd

/-- A byte of a channel with the given statistics, whose deviation is not zero. -/
def normalise (mean std : ℚ) (byte : UInt8) : ℚ :=
  float32 (float32 (float32 ((byte.toNat : ℚ) / 255) - float32 mean) / float32 std)

/-- Stack the arrays of a batch, which must have one shape. -/
def stackBatch : List ImageArray → Except Failure BatchArray
  | [] => .error (.value "Cannot stack an empty batch")
  | first :: rest =>
      if ∀ array ∈ rest, array.shape = first.shape then
        .ok ⟨(first :: rest).length :: first.shape, first :: rest⟩
      else .error (.value "all input arrays must have the same shape")

/-- Arrays are stacked when there are any and they have one shape. -/
theorem stackBatch_ok_iff {arrays : List ImageArray} {stacked : BatchArray} :
    stackBatch arrays = .ok stacked ↔ arrays ≠ [] ∧
      ∃ shape, (∀ array ∈ arrays, array.shape = shape) ∧
        stacked = ⟨arrays.length :: shape, arrays⟩ := by
  cases arrays with
  | nil => simp [stackBatch]
  | cons first rest =>
      simp only [stackBatch, List.forall_mem_cons]
      split
      · rename_i same
        constructor
        · intro returned
          exact ⟨List.cons_ne_nil _ _, first.shape, ⟨rfl, same⟩, (Except.ok.inj returned).symm⟩
        · rintro ⟨_, _, ⟨rfl, _⟩, rfl⟩
          rfl
      · rename_i ragged
        constructor
        · rintro ⟨⟩
        · rintro ⟨_, _, ⟨rfl, same⟩, _⟩
          exact absurd same ragged

namespace Imaging

variable {Image : Type} (imaging : Imaging Image)

/-- Open the bytes and convert the image to RGB. -/
def decodeImage (data : Bytes) : Except Failure Image := do
  let opened ← imaging.read data
  if imaging.mode opened ≠ "RGB" then imaging.convert opened "RGB" else .ok opened

/-- Resize the image so that its short edge is the target. -/
def resizeShortEdge (image : Image) (target : ℤ) : Except Failure Image :=
  let width := (imaging.size image).width
  let height := (imaging.size image).height
  if width ≤ height then do
    let quotient ← divide (height * target) width
    imaging.resize image ⟨target, max 1 (roundHalfEven quotient)⟩
  else do
    let quotient ← divide (width * target) height
    imaging.resize image ⟨max 1 (roundHalfEven quotient), target⟩

/-- Cut a square out of the centre. -/
def centerCrop (image : Image) (size : ℤ) : Except Failure Image := do
  let left ← divide ((imaging.size image).width - size) 2
  let top ← divide ((imaging.size image).height - size) 2
  imaging.crop image ⟨roundHalfEven left, roundHalfEven top, roundHalfEven left + size,
    roundHalfEven top + size⟩

/-- The normalised pixels of an image. -/
def toNormalisedArray (image : Image) (mean std : Fin 3 → ℚ) : ImageArray where
  shape := [3, (imaging.size image).height, (imaging.size image).width]
  value channel y x := normalise (mean channel) (std channel) (imaging.pixel image x y channel)

/-- Decode, resize, crop and normalise. -/
def preprocessImage (data : Bytes) (config : ArrayConfig) : Except Failure ImageArray := do
  let image ← imaging.decodeImage data
  let resizeTarget ← floorDivide config.imageSize config.cropRatio
  let resized ← imaging.resizeShortEdge image resizeTarget
  let cropped ← imaging.centerCrop resized config.imageSize
  .ok (imaging.toNormalisedArray cropped config.mean config.std)

end Imaging

/-! ## Numbers that fit into a float -/

/-- A division returns exactly if the quotient fits into a float. -/
theorem divide_ok_iff {n d : ℤ} {quotient : ℚ} (nonzero : d ≠ 0) :
    divide n d = .ok quotient ↔ |(n : ℚ) / d| < overflowBound ∧ quotient = trueDiv n d := by
  simp only [divide, if_neg nonzero]
  split
  · rename_i large
    simp [large.not_gt]
  · rename_i small
    simp [not_le.mp small, eq_comm]

theorem divide_bind_ok_iff {Value : Type} {n d : ℤ} {next : ℚ → Except Failure Value}
    {value : Value} (nonneg : 0 ≤ n) (positive : 0 < d) :
    (divide n d >>= next) = .ok value ↔
      (n : ℚ) / d < overflowBound ∧ next (trueDiv n d) = .ok value := by
  have quotient : (0 : ℚ) ≤ (n : ℚ) / d :=
    div_nonneg (by exact_mod_cast nonneg) (by exact_mod_cast positive.le)
  simp only [bind_ok_iff, divide_ok_iff positive.ne', abs_of_nonneg quotient]
  constructor
  · rintro ⟨_, ⟨small, rfl⟩, returned⟩
    exact ⟨small, returned⟩
  · rintro ⟨small, returned⟩
    exact ⟨_, ⟨small, rfl⟩, returned⟩

theorem divide_half {dimension size : ℤ} (fits : size ≤ dimension) (positive : 0 ≤ size)
    (small : (dimension : ℚ) < 2 * overflowBound) :
    divide (dimension - size) 2 = .ok (trueDiv (dimension - size) 2) := by
  apply (divide_ok_iff two_ne_zero).mpr
  have nonneg : (0 : ℚ) ≤ ((dimension - size : ℤ) : ℚ) / (2 : ℤ) :=
    div_nonneg (by exact_mod_cast sub_nonneg.mpr fits) (by norm_num)
  have size : (0 : ℚ) ≤ size := by exact_mod_cast positive
  refine ⟨?_, rfl⟩
  rw [abs_of_nonneg nonneg]
  push_cast
  linarith

theorem floorDivide_ok_iff {imageSize target : ℤ} (positive : 1 ≤ imageSize) :
    floorDivide imageSize cropRatio = .ok target ↔
      ((imageSize : ℚ) < overflowBound ∧ targetQuotient imageSize < overflowBound) ∧
        target = resizeTarget imageSize := by
  have size : (0 : ℚ) ≤ imageSize := by exact_mod_cast (show 0 ≤ imageSize by omega)
  have ratio : cropRatio ≠ 0 := by norm_num [cropRatio]
  have quotient : |nearest 53 (imageSize : ℚ) / cropRatio| = targetQuotient imageSize :=
    abs_of_pos (targetQuotient_pos positive)
  simp only [floorDivide, abs_of_nonneg size, quotient, ratio, if_false, int_intCast]
  split
  · rename_i large
    simp [large.not_gt]
  · rename_i converted
    split
    · rename_i large
      simp [large.not_gt]
    · rename_i small
      simp [not_le.mp converted, not_le.mp small, resizeTarget, eq_comm]

namespace Imaging

variable {Image : Type} {imaging : Imaging Image} {image resized cropped : Image}

/-! ## The operations on images -/

theorem decodeImage_size {data : Bytes} {header : Header}
    (isHeader : imaging.header data = .ok header)
    (decoded : imaging.decodeImage data = .ok image) :
    imaging.size image = ⟨header.width, header.height⟩ := by
  simp only [decodeImage, bind_ok_iff] at decoded
  rcases decoded with ⟨opened, isOpened, converted⟩
  have size := imaging.size_read data header opened isHeader isOpened
  split at converted
  · rw [imaging.size_convert opened "RGB" image converted, size]
  · cases converted
    exact size

/-- Resizing returns exactly if the long edge fits and the image is resized. -/
theorem resizeShortEdge_ok_iff {imageSize : ℤ} (positive : 1 ≤ imageSize)
    (wide : 1 ≤ (imaging.size image).width) (high : 1 ≤ (imaging.size image).height) :
    imaging.resizeShortEdge image (resizeTarget imageSize) = .ok resized ↔
      longQuotient imageSize (imaging.size image) < overflowBound ∧
        imaging.resize image (Preprocess.resizeShortEdge (imaging.size image)
          (resizeTarget imageSize)) = .ok resized := by
  have target := le_resizeTarget positive
  simp only [resizeShortEdge, Preprocess.resizeShortEdge, longQuotient]
  split
  · rename_i tall
    rw [max_eq_right tall, min_eq_left tall, mul_comm (resizeTarget imageSize)]
    exact divide_bind_ok_iff (Int.mul_nonneg (by omega) (by omega)) (by omega)
  · rename_i broad
    have broad := (not_le.mp broad).le
    rw [max_eq_left broad, min_eq_right broad, mul_comm (resizeTarget imageSize)]
    exact divide_bind_ok_iff (Int.mul_nonneg (by omega) (by omega)) (by omega)

theorem centerCrop_eq {size : ℤ} (covers : (imaging.size image).Covers size) (positive : 0 ≤ size)
    (wide : ((imaging.size image).width : ℚ) < 2 * overflowBound)
    (high : ((imaging.size image).height : ℚ) < 2 * overflowBound) :
    imaging.centerCrop image size =
      imaging.crop image (Preprocess.centerCrop (imaging.size image) size) := by
  simp only [centerCrop, divide_half covers.1 positive wide, divide_half covers.2 positive high]
  rfl

/-! ## The whole pipeline -/

/-- The geometry of `preprocess_image` on a decoded image. -/
def geometry (imaging : Imaging Image) (config : ArrayConfig) (image : Image) : Geometry :=
  Preprocess.preprocessImage config.toPreprocessConfig (imaging.size image)

/-- The array is a square of the resized image, pixel by pixel. -/
structure Shows (imaging : Imaging Image) (config : ArrayConfig) (image : Image)
    (array : ImageArray) : Prop where
  shape : array.shape = [3, config.imageSize, config.imageSize]
  pixels : ∃ resized, imaging.resize image (imaging.geometry config image).resized = .ok resized ∧
    ∀ channel (y x : ℕ), (y : ℤ) < config.imageSize → (x : ℤ) < config.imageSize →
      array.value channel y x = normalise (config.mean channel) (config.std channel)
        (imaging.pixel resized ((imaging.geometry config image).box.left + x)
          ((imaging.geometry config image).box.top + y) channel)

section Pipeline

variable {data : Bytes} {config : ArrayConfig} {array : ImageArray}

/-- The pipeline gives the crop of the resized image, unless a number overflows or Pillow fails. -/
theorem preprocessImage_ok_iff (decoded : imaging.decodeImage data = .ok image)
    (ratio : config.cropRatio = cropRatio) (positive : 1 ≤ config.imageSize)
    (wide : 1 ≤ (imaging.size image).width) (high : 1 ≤ (imaging.size image).height) :
    imaging.preprocessImage data config = .ok array ↔
      Representable config.imageSize (imaging.size image) ∧ ∃ resized cropped,
        imaging.resize image (imaging.geometry config image).resized = .ok resized ∧
          imaging.crop resized (imaging.geometry config image).box = .ok cropped ∧
            array = imaging.toNormalisedArray cropped config.mean config.std := by
  have covers := resizeShortEdge_covers positive wide high
  have resizedSize : (Preprocess.preprocessImage config.toPreprocessConfig
      (imaging.size image)).resized = Preprocess.resizeShortEdge (imaging.size image)
        (resizeTarget config.imageSize) := preprocessImage_resized ratio
  have isBox : (imaging.geometry config image).box =
      Preprocess.centerCrop (imaging.geometry config image).resized config.imageSize := rfl
  rw [isBox, geometry, resizedSize]
  simp only [preprocessImage, decoded, bind_ok_iff, ratio, Except.ok.injEq, exists_eq_left',
    floorDivide_ok_iff positive]
  constructor
  · rintro ⟨_, ⟨⟨converted, fits⟩, rfl⟩, resized, isResized, cropped, isCropped, rfl⟩
    obtain ⟨long, isResized⟩ := (resizeShortEdge_ok_iff positive wide high).mp isResized
    have representable : Representable config.imageSize (imaging.size image) :=
      ⟨converted, fits, long⟩
    have bounds := representable.resized_lt positive wide high
    have size := imaging.size_resize _ _ _ isResized
    rw [← size] at covers bounds
    rw [centerCrop_eq covers (by omega) bounds.1 bounds.2, size] at isCropped
    exact ⟨representable, resized, cropped, isResized, isCropped, rfl⟩
  · rintro ⟨representable, resized, cropped, isResized, isCropped, rfl⟩
    have bounds := representable.resized_lt positive wide high
    have size := imaging.size_resize _ _ _ isResized
    rw [← size] at covers bounds isCropped
    refine ⟨_, ⟨⟨representable.converted, representable.target⟩, rfl⟩, resized, ?_, cropped, ?_,
      rfl⟩
    · exact (resizeShortEdge_ok_iff positive wide high).mpr ⟨representable.long, isResized⟩
    · rw [centerCrop_eq covers (by omega) bounds.1 bounds.2]
      exact isCropped

theorem shows_of_crop (ratio : config.cropRatio = cropRatio) (positive : 1 ≤ config.imageSize)
    (wide : 1 ≤ (imaging.size image).width) (high : 1 ≤ (imaging.size image).height)
    (isResized : imaging.resize image (imaging.geometry config image).resized = .ok resized)
    (isCropped : imaging.crop resized (imaging.geometry config image).box = .ok cropped) :
    imaging.Shows config image (imaging.toNormalisedArray cropped config.mean config.std) := by
  have within : (imaging.geometry config image).box.Within (imaging.size resized) := by
    rw [imaging.size_resize _ _ _ isResized]
    exact preprocessImage_within ratio positive wide high
  have box : (imaging.geometry config image).box.size = ⟨config.imageSize, config.imageSize⟩ :=
    centerCrop_size _ _
  have size := imaging.size_crop _ _ _ isCropped
  rw [box] at size
  constructor
  · simp only [toNormalisedArray, size]
  · refine ⟨resized, isResized, ?_⟩
    intro channel y x inRows inColumns
    simp only [toNormalisedArray]
    rw [imaging.pixel_crop _ _ _ within isCropped]
    · omega
    · simpa [box] using inColumns
    · omega
    · simpa [box] using inRows

theorem shows_of_ok (decoded : imaging.decodeImage data = .ok image)
    (ratio : config.cropRatio = cropRatio) (positive : 1 ≤ config.imageSize)
    (wide : 1 ≤ (imaging.size image).width) (high : 1 ≤ (imaging.size image).height)
    (returned : imaging.preprocessImage data config = .ok array) :
    imaging.Shows config image array := by
  obtain ⟨_, resized, cropped, isResized, isCropped, rfl⟩ :=
    (preprocessImage_ok_iff decoded ratio positive wide high).mp returned
  exact shows_of_crop ratio positive wide high isResized isCropped

end Pipeline

end Imaging

/-! ## One colour -/

/-- An image of one colour. -/
structure OneColour where
  size : Size
  colour : Fin 3 → UInt8

/-- A grey image of 3 by 5 pixels in the PPM format. -/
def greyFile : Bytes :=
  "P6 3 5 255\n".toUTF8.toList ++ List.replicate 45 128

namespace OneColour

/-- Opening an image of one colour. -/
def read (data : Bytes) : Except Failure OneColour :=
  if data = greyFile then .ok ⟨⟨3, 5⟩, fun _ => 128⟩
  else .error (.other "UnidentifiedImageError")

/-- The header of the file. -/
def header (data : Bytes) : Except OpenError Header :=
  if data = greyFile then .ok ⟨some "PPM", 3, 5, "RGB"⟩ else .error .unidentified

/-- A crop that is padded is not of one colour. -/
def crop (image : OneColour) (box : Box) : Except Failure OneColour :=
  if (0 ≤ box.left ∧ 0 ≤ box.top) ∧ box.right ≤ image.size.width ∧ box.bottom ≤ image.size.height
  then .ok ⟨box.size, image.colour⟩
  else .error (.other "padded")

theorem read_size (data : Bytes) (found : Header) (image : OneColour)
    (isHeader : header data = .ok found) (isImage : read data = .ok image) :
    image.size = ⟨found.width, found.height⟩ := by
  simp only [header, read] at isHeader isImage
  split at isImage
  · rename_i isGrey
    rw [if_pos isGrey] at isHeader
    cases isHeader
    cases isImage
    rfl
  · cases isImage

theorem crop_eq {image cropped : OneColour} {box : Box} (isCropped : crop image box = .ok cropped) :
    cropped = ⟨box.size, image.colour⟩ := by
  simp only [crop] at isCropped
  split at isCropped
  · exact (Except.ok.inj isCropped).symm
  · cases isCropped

theorem crop_of_within {image : OneColour} {box : Box} (within : box.Within image.size) :
    crop image box = .ok ⟨box.size, image.colour⟩ :=
  if_pos ⟨⟨within.left, within.top⟩, within.right, within.bottom⟩

/-- Pillow where it reads the grey image only; resizing keeps the colour. -/
def imaging : Imaging OneColour where
  header := header
  read := read
  mode _ := "RGB"
  convert image _ := .ok image
  size := size
  pixel image _ _ channel := image.colour channel
  resize image requested := .ok ⟨requested, image.colour⟩
  crop := crop
  size_read := read_size
  size_convert _ _ _ isConverted := congrArg size (Except.ok.inj isConverted).symm
  size_resize _ _ _ isResized := congrArg size (Except.ok.inj isResized).symm
  size_crop _ _ _ isCropped := congrArg size (crop_eq isCropped)
  pixel_crop _ _ _ _ isCropped _ _ channel _ _ _ _ :=
    congrFun (congrArg colour (crop_eq isCropped)) channel

end OneColour

namespace Imaging

section Pipeline

variable {Image : Type} {imaging : Imaging Image} {image : Image} {data : Bytes}
  {config : ArrayConfig}

/-- The crop lies in the resized image, so an array that is returned shows pixels of it only; one
is returned unless a number overflows or Pillow fails. -/
theorem preprocessImage_never_pads (decoded : imaging.decodeImage data = .ok image)
    (ratio : config.cropRatio = cropRatio) (positive : 1 ≤ config.imageSize)
    (wide : 1 ≤ (imaging.size image).width) (high : 1 ≤ (imaging.size image).height) :
    (config.imageSize ≤ (imaging.geometry config image).resized.width ∧
      config.imageSize ≤ (imaging.geometry config image).resized.height) ∧
    (0 ≤ (imaging.geometry config image).box.left ∧
      0 ≤ (imaging.geometry config image).box.top ∧
      (imaging.geometry config image).box.left + config.imageSize ≤
        (imaging.geometry config image).resized.width ∧
      (imaging.geometry config image).box.top + config.imageSize ≤
        (imaging.geometry config image).resized.height) ∧
    (∀ array, imaging.preprocessImage data config = .ok array →
      imaging.Shows config image array) ∧
    (Succeeds (imaging.preprocessImage data config) ↔
      Representable config.imageSize (imaging.size image) ∧ ∃ resized,
        imaging.resize image (imaging.geometry config image).resized = .ok resized ∧
          Succeeds (imaging.crop resized (imaging.geometry config image).box)) := by
  have within := preprocessImage_within ratio positive wide high
  refine ⟨preprocessImage_covers ratio positive wide high, ?_, ?_, ?_⟩
  · exact ⟨within.left, within.top, within.right, within.bottom⟩
  · intro array returned
    exact shows_of_ok decoded ratio positive wide high returned
  · simp only [Succeeds, preprocessImage_ok_iff decoded ratio positive wide high]
    constructor
    · rintro ⟨_, representable, resized, cropped, isResized, isCropped, _⟩
      exact ⟨representable, resized, isResized, cropped, isCropped⟩
    · rintro ⟨representable, resized, isResized, cropped, isCropped⟩
      exact ⟨_, representable, resized, cropped, isResized, isCropped, rfl⟩

end Pipeline

/-- A small grey image. -/
theorem preprocessImage_never_pads_grey :
    ∃ array, OneColour.imaging.preprocessImage greyFile {} = .ok array ∧
      array.shape = [3, 224, 224] ∧
      ∀ channel (y x : ℕ), y < 224 → x < 224 →
        array.value channel y x =
          normalise (imagenetMean channel) (imagenetStd channel) 128 := by
  have decoded : OneColour.imaging.decodeImage greyFile = .ok ⟨⟨3, 5⟩, fun _ => 128⟩ := by
    simp only [decodeImage, OneColour.imaging, OneColour.read, if_true]
    rfl
  have isDefault : ({} : ArrayConfig).cropRatio = cropRatio := rfl
  obtain ⟨_, ⟨left, top, right, bottom⟩, shows, returns⟩ :=
    preprocessImage_never_pads decoded isDefault (by decide) (by decide) (by decide)
  have representable : Representable 224 ⟨3, 5⟩ :=
    representable_of_small (by omega) (by decide) (by decide) (by norm_num) (by norm_num)
  obtain ⟨array, returned⟩ := returns.mpr
    ⟨representable, _, rfl, _, OneColour.crop_of_within ⟨left, top, right, bottom⟩⟩
  obtain ⟨shape, resized, isResized, pixels⟩ := shows array returned
  cases isResized
  refine ⟨array, returned, shape, ?_⟩
  intro channel y x inRows inColumns
  exact pixels channel y x (Int.ofNat_lt.mpr inRows) (Int.ofNat_lt.mpr inColumns)

/-! ## Serving -/

section Serving

variable {Image Session Logits Score : Type} {imaging : Imaging Image}

/-- The pipeline in place of the pixels of an engine. -/
def engine (imaging : Imaging Image)
    (runtime : Engine Session ImageArray Logits Score) : Engine Session ImageArray Logits Score :=
  { runtime with
    toPillow := imaging.toPillow
    pixels := fun data imageSize => imaging.preprocessImage data { imageSize } }

variable {runtime : Engine Session ImageArray Logits Score} {model : LoadedModel Session}
  {limit maxBytes maxPixels : ℤ}

/-- A valid upload that is preprocessed is decoded and shown to the model without padding. -/
theorem shows_of_valid {data : Bytes} {metadata : ImageMetadata} {array : ImageArray}
    (positive : 1 ≤ model.imageSize)
    (valid : Valid imaging.toPillow data maxBytes maxPixels metadata)
    (returned : Inference.preprocessImage (imaging.engine runtime) limit model.imageSize data =
      .ok array) :
    ∃ image, imaging.decodeImage data = .ok image ∧
      imaging.Shows { imageSize := model.imageSize } image array := by
  have preprocessed : imaging.preprocessImage data { imageSize := model.imageSize } =
      .ok array := by
    simp only [Inference.preprocessImage] at returned
    split at returned
    · cases returned
    · cases returned
    · cases returned
    · exact returned
  have steps := preprocessed
  simp only [preprocessImage, bind_ok_iff] at steps
  obtain ⟨image, decoded, _⟩ := steps
  obtain ⟨header, isHeader, rfl⟩ := valid.header
  have size := decodeImage_size isHeader decoded
  have least := valid.least
  simp only [minDimension] at least
  refine ⟨image, decoded, shows_of_ok decoded rfl positive ?_ ?_ preprocessed⟩
  · rw [size]
    simp only
    omega
  · rw [size]
    simp only
    omega

/-- The model runs on a stack of squares of the uploads, none of them padded. -/
theorem runBatch_never_pads {images : List Bytes} {rows : List Logits}
    (positive : 1 ≤ model.imageSize)
    (valid : ∀ data ∈ images, ∃ metadata,
      Valid imaging.toPillow data maxBytes maxPixels metadata)
    (ran : runBatch (imaging.engine runtime) limit model images = .ok rows) :
    ∃ batch, List.Forall₂ (fun data array => ∃ image, imaging.decodeImage data = .ok image ∧
        imaging.Shows { imageSize := model.imageSize } image array) images batch ∧
      stackBatch batch =
        .ok ⟨[images.length, 3, model.imageSize, model.imageSize], batch⟩ ∧
      runModel (imaging.engine runtime) model batch = .ok rows := by
  obtain ⟨nonempty, batch, preprocessed, returned⟩ := runBatch_ok_iff.mp ran
  have shown : List.Forall₂ (fun data array => ∃ image, imaging.decodeImage data = .ok image ∧
      imaging.Shows { imageSize := model.imageSize } image array) images batch := by
    have each := (List.forall₂_and_left _ _).mpr ⟨valid, mapM_ok_iff.mp preprocessed⟩
    apply each.imp
    rintro data array ⟨⟨metadata, isValid⟩, isArray⟩
    exact shows_of_valid positive isValid isArray
  have shapes : List.Forall₂ (fun array (_ : Bytes) =>
      array.shape = [3, model.imageSize, model.imageSize] ∧ True) batch images := by
    apply List.Forall₂.flip
    apply shown.imp
    rintro data array ⟨image, _, shows⟩
    exact ⟨shows.shape, trivial⟩
  refine ⟨batch, shown, stackBatch_ok_iff.mpr ⟨?_, [3, model.imageSize, model.imageSize], ?_, ?_⟩,
    returned⟩
  · rintro rfl
    exact nonempty (List.forall₂_nil_right_iff.mp shown)
  · exact ((List.forall₂_and_left _ _).mp shapes).1
  · rw [shown.length_eq]

end Serving

end Imaging

end VisionApi.Preprocess
