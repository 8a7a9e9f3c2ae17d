import VisionApi.Foundation.Fallible
import VisionApi.Foundation.Rounding
import Mathlib.Data.Rat.Floor

/-!
# Validation of uploads

An upload is checked by its size, then by the header that Pillow reads, without
decoding it.  The threshold above which Pillow refuses an image is a setting of
the process; it is set in the API and has its default in the worker.

The errors are those of the API, with the codes, messages and details of the source.
Pillow is a function from the bytes to the header that it reads; `Pillow.open` adds the
guard against decompression bombs, which refuses what has more than twice the pixels
of the threshold.

`Valid` collects what an upload must satisfy, and `validateImageUpload_ok_iff` says
that nothing else is asked.  Whether the guard can refuse an image that passes the
limit on pixels depends on the process: `Roomy` is the relation of both limits under
which it does not, and both processes have it for the settings they run with.
-/

namespace VisionApi.Inference

open Foundation

/-! ## Errors -/

/-- A value among the details of an error. -/
inductive Detail where
  | number (value : ℤ)
  | text (value : String)
  | texts (values : List String)
  | null
deriving DecidableEq

/-- The body of an error response with its status. -/
structure ApiError where
  statusCode : ℕ
  code : String
  message : String
  details : List (String × Detail)
deriving DecidableEq

/-- The image cannot be used. -/
def invalidImageError (message : String) (details : List (String × Detail)) : ApiError :=
  ⟨422, "invalid_image", message, details⟩

/-- The format is not accepted. -/
def unsupportedFormatError (message : String) (details : List (String × Detail)) : ApiError :=
  ⟨422, "unsupported_format", message, details⟩

/-- The upload is too large. -/
def payloadTooLargeError (message : String) (details : List (String × Detail)) : ApiError :=
  ⟨413, "payload_too_large", message, details⟩

/-- The batch has too many images. -/
def batchTooLargeError (message : String) (details : List (String × Detail)) : ApiError :=
  ⟨422, "batch_too_large", message, details⟩

/-- There is no such model or version. -/
def modelNotFoundError (message : String) (details : List (String × Detail)) : ApiError :=
  ⟨404, "model_not_found", message, details⟩

/-- The model cannot be served. -/
def modelUnavailableError (message : String) (details : List (String × Detail)) : ApiError :=
  ⟨503, "model_unavailable", message, details⟩

/-- An exception; `ValidationError` of a response model is a `ValueError`. -/
inductive Failure where
  | api (error : ApiError)
  | httpStatus (status : ℕ)
  | request
  | value (message : String)
  | other (message : String)
deriving DecidableEq

/-! ## Pillow -/

/-- A byte string. -/
abbrev Bytes := List UInt8

/-- What `Image.open` reads from a header. -/
structure Header where
  format : Option String
  width : ℕ
  height : ℕ
  mode : String

/-- How `Image.open` fails. -/
inductive OpenError where
  | unidentified
  | bomb
  | other

/-- The headers Pillow recognises; `none` stands for another exception than
`UnidentifiedImageError`. -/
structure Pillow where
  header : Bytes → Except OpenError Header

/-- The default of `Image.MAX_IMAGE_PIXELS`. -/
def defaultMaxImagePixels : ℤ := 89478485

/-- `Image.open` with `Image.MAX_IMAGE_PIXELS` set to `limit`. -/
def Pillow.open (pillow : Pillow) (limit : ℤ) (data : Bytes) : Except OpenError Header := do
  let header ← pillow.header data
  if (max 1 header.width * max 1 header.height : ℤ) > 2 * limit then .error .bomb
  else .ok header

/-! ## The checks -/

/-- What is known of an image from its header. -/
structure ImageMetadata where
  format : String
  width : ℕ
  height : ℕ
  mode : String
  sizeBytes : ℕ

/-- The number of pixels of an image. -/
def ImageMetadata.pixels (metadata : ImageMetadata) : ℕ :=
  metadata.width * metadata.height

/-- The formats that are accepted. -/
def supportedFormats : List String := ["BMP", "JPEG", "PNG", "WEBP"]

/-- The least side of an image. -/
def minDimension : ℕ := 16

/-- The greatest side of an image. -/
def maxDimension : ℕ := 10000

/-- `str.upper()`, for ASCII. -/
def upper (text : String) : String :=
  String.ofList (text.toList.map Char.toUpper)

/-- Bytes in MiB with one decimal, as in `{size / 1024 / 1024:.1f}`. -/
def mebibytes (size : ℤ) : String :=
  let tenths := (roundHalfEven ((|size| * 10 : ℚ) / (1024 * 1024))).toNat
  (if size < 0 then "-" else "") ++ toString (tenths / 10) ++ "." ++ toString (tenths % 10)

/-- Digits in groups of three; the fuel is at least the number of groups. -/
def groupDigits : ℕ → ℕ → String
  | 0, rest => toString rest
  | fuel + 1, rest =>
      if rest < 1000 then toString rest
      else
        let last := toString (rest % 1000)
        groupDigits fuel (rest / 1000) ++ "," ++ "".pushn '0' (3 - last.length) ++ last

/-- A number with thousands separators, as in `{pixels:,}`. -/
def grouped (number : ℤ) : String :=
  (if number < 0 then "-" else "") ++ groupDigits number.natAbs number.natAbs

/-- The upload is neither empty nor too large. -/
def validateUploadSize (data : Bytes) (maxBytes : ℤ) : Except ApiError Unit :=
  if (data.length : ℤ) > maxBytes then
    .error (payloadTooLargeError
      ("Upload is " ++ mebibytes data.length ++ " MiB, which exceeds the " ++
        mebibytes maxBytes ++ " MiB limit.")
      [("size_bytes", .number data.length), ("max_bytes", .number maxBytes)])
  else if data = [] then
    .error (invalidImageError "The uploaded file is empty." [])
  else
    .ok ()

/-- The metadata of an upload, if Pillow reads its header. -/
def inspectImage (pillow : Pillow) (limit : ℤ) (data : Bytes) : Except ApiError ImageMetadata :=
  match pillow.open limit data with
  | .ok header =>
      .ok ⟨upper (header.format.getD ""), header.width, header.height, header.mode,
        data.length⟩
  | .error .unidentified =>
      .error (invalidImageError "The uploaded file could not be identified as an image." [])
  | .error .bomb =>
      .error (invalidImageError
        "The image declares dimensions large enough to be a decompression bomb." [])
  | .error .other =>
      .error (invalidImageError "The uploaded file could not be read as an image." [])

/-- The format is one of the supported ones. -/
def validateFormat (metadata : ImageMetadata) : Except ApiError Unit :=
  if metadata.format ∉ supportedFormats then
    .error (unsupportedFormatError
      ("Format " ++ (if metadata.format = "" then "unknown" else metadata.format) ++
        " is not supported.")
      [("detected_format", if metadata.format = "" then .null else .text metadata.format),
        ("supported_formats", .texts supportedFormats)])
  else
    .ok ()

/-- Neither side nor the number of pixels is out of bounds. -/
def validateDimensions (metadata : ImageMetadata) (maxPixels : ℤ) : Except ApiError Unit :=
  let size := toString metadata.width ++ "x" ++ toString metadata.height
  let edges := [("width", Detail.number metadata.width), ("height", .number metadata.height)]
  if metadata.width < minDimension ∨ metadata.height < minDimension then
    .error (invalidImageError
      ("Image is " ++ size ++ "; the minimum is " ++ toString minDimension ++ "x" ++
        toString minDimension ++ ".") edges)
  else if metadata.width > maxDimension ∨ metadata.height > maxDimension then
    .error (invalidImageError
      ("Image is " ++ size ++ "; the maximum edge length is " ++ toString maxDimension ++ ".")
      edges)
  else if (metadata.pixels : ℤ) > maxPixels then
    .error (invalidImageError
      ("Image has " ++ grouped metadata.pixels ++ " pixels, exceeding the " ++
        grouped maxPixels ++ " pixel limit.")
      [("pixels", .number metadata.pixels), ("max_pixels", .number maxPixels)])
  else
    .ok ()

/-- `validate_image_upload` in a process with the given Pillow limit. -/
def validateImageUpload (pillow : Pillow) (limit : ℤ) (data : Bytes) (maxBytes maxPixels : ℤ) :
    Except ApiError ImageMetadata := do
  validateUploadSize data maxBytes
  let metadata ← inspectImage pillow limit data
  validateFormat metadata
  validateDimensions metadata maxPixels
  .ok metadata

/-! ## What is accepted -/

/-- An upload that passes every check, and its metadata. -/
structure Valid (pillow : Pillow) (data : Bytes) (maxBytes maxPixels : ℤ)
    (metadata : ImageMetadata) : Prop where
  size : (data.length : ℤ) ≤ maxBytes
  nonempty : data ≠ []
  header : ∃ header, pillow.header data = .ok header ∧
    metadata = ⟨upper (header.format.getD ""), header.width, header.height, header.mode,
      data.length⟩
  format : metadata.format ∈ supportedFormats
  least : minDimension ≤ metadata.width ∧ minDimension ≤ metadata.height
  greatest : metadata.width ≤ maxDimension ∧ metadata.height ≤ maxDimension
  pixels : (metadata.pixels : ℤ) ≤ maxPixels

/-- Pillow does not refuse an image that the other checks accept. -/
def Roomy (limit maxPixels : ℤ) : Prop :=
  ∀ width height : ℕ, width ≤ maxDimension → height ≤ maxDimension →
    (width * height : ℤ) ≤ maxPixels → (width * height : ℤ) ≤ 2 * limit

/-- The API sets the limit of Pillow to the one that is checked. -/
theorem roomy_api (maxPixels : ℤ) : Roomy maxPixels maxPixels := by
  intro width height _ _ few
  have positive : (0 : ℤ) ≤ width * height := by positivity
  omega

/-- The worker has the default limit, which no image of the greatest size reaches. -/
theorem roomy_worker (maxPixels : ℤ) : Roomy defaultMaxImagePixels maxPixels := by
  intro width height wide high _
  have area : width * height ≤ maxDimension * maxDimension := Nat.mul_le_mul wide high
  have small : maxDimension * maxDimension ≤ 2 * 89478485 := by decide
  have bound : ((width * height : ℕ) : ℤ) ≤ 2 * defaultMaxImagePixels := by
    simp only [defaultMaxImagePixels]
    omega
  push_cast at bound
  exact bound

section Valid

variable {pillow : Pillow} {limit : ℤ} {data : Bytes} {maxBytes maxPixels : ℤ}
  {metadata : ImageMetadata}

theorem validateUploadSize_ok_iff :
    validateUploadSize data maxBytes = .ok () ↔ (data.length : ℤ) ≤ maxBytes ∧ data ≠ [] := by
  simp only [validateUploadSize]
  split
  · rename_i large
    simp only [reduceCtorEq, false_iff]
    omega
  · rename_i notLarge
    split
    · rename_i empty
      simp [empty]
    · rename_i notEmpty
      simp only [true_iff]
      exact ⟨by omega, notEmpty⟩

theorem validateFormat_ok_iff :
    validateFormat metadata = .ok () ↔ metadata.format ∈ supportedFormats := by
  simp only [validateFormat]
  split
  · rename_i unsupported
    simpa using unsupported
  · rename_i supported
    simpa using supported

theorem validateDimensions_ok_iff :
    validateDimensions metadata maxPixels = .ok () ↔
      (minDimension ≤ metadata.width ∧ minDimension ≤ metadata.height) ∧
        (metadata.width ≤ maxDimension ∧ metadata.height ≤ maxDimension) ∧
        (metadata.pixels : ℤ) ≤ maxPixels := by
  simp only [validateDimensions]
  split
  · simp only [reduceCtorEq, false_iff]
    omega
  · split
    · simp only [reduceCtorEq, false_iff]
      omega
    · split
      · simp only [reduceCtorEq, false_iff]
        omega
      · simp only [true_iff]
        omega

theorem open_ok_iff {header : Header} :
    pillow.open limit data = .ok header ↔
      pillow.header data = .ok header ∧
        (max 1 header.width * max 1 header.height : ℤ) ≤ 2 * limit := by
  simp only [Pillow.open]
  cases pillow.header data with
  | error error => simp [bind, Except.bind]
  | ok found =>
      simp only [bind, Except.bind, Except.ok.injEq]
      split
      · rename_i bomb
        simp only [reduceCtorEq, false_iff]
        rintro ⟨rfl, few⟩
        omega
      · rename_i few
        simp only [Except.ok.injEq]
        constructor
        · rintro rfl
          exact ⟨rfl, by omega⟩
        · exact fun same => same.1

theorem inspectImage_ok_iff :
    inspectImage pillow limit data = .ok metadata ↔
      ∃ header, pillow.open limit data = .ok header ∧
        metadata = ⟨upper (header.format.getD ""), header.width, header.height, header.mode,
          data.length⟩ := by
  simp only [inspectImage]
  cases pillow.open limit data with
  | ok header => simp [eq_comm]
  | error error => cases error <;> simp

/-- What is accepted does not depend on the limit of Pillow when it is roomy. -/
theorem validateImageUpload_ok_iff (roomy : Roomy limit maxPixels) :
    validateImageUpload pillow limit data maxBytes maxPixels = .ok metadata ↔
      Valid pillow data maxBytes maxPixels metadata := by
  simp only [validateImageUpload, bind_ok_iff, inspectImage_ok_iff, open_ok_iff]
  constructor
  · rintro ⟨_, sized, _, ⟨header, ⟨isHeader, _⟩, rfl⟩, _, supported, _, dimensions, ⟨⟩⟩
    rcases validateUploadSize_ok_iff.mp sized with ⟨size, nonempty⟩
    rcases validateDimensions_ok_iff.mp dimensions with ⟨least, greatest, pixels⟩
    exact ⟨size, nonempty, ⟨header, isHeader, rfl⟩, validateFormat_ok_iff.mp supported, least,
      greatest, pixels⟩
  · intro valid
    rcases valid.header with ⟨header, isHeader, rfl⟩
    have least := valid.least
    have few := roomy header.width header.height valid.greatest.1 valid.greatest.2 (by
      simpa [ImageMetadata.pixels] using valid.pixels)
    have wide : max 1 header.width = header.width := by
      simp only [minDimension] at least
      omega
    have high : max 1 header.height = header.height := by
      simp only [minDimension] at least
      omega
    refine ⟨(), validateUploadSize_ok_iff.mpr ⟨valid.size, valid.nonempty⟩, _,
      ⟨header, ⟨isHeader, ?_⟩, rfl⟩, (), validateFormat_ok_iff.mpr valid.format, (),
      validateDimensions_ok_iff.mpr ⟨valid.least, valid.greatest, valid.pixels⟩, rfl⟩
    rw [wide, high]
    exact few

/-- The errors of the checks. -/
theorem validateImageUpload_code {error : ApiError}
    (raised : validateImageUpload pillow limit data maxBytes maxPixels = .error error) :
    error.code ∈ ["payload_too_large", "invalid_image", "unsupported_format"] := by
  simp only [validateImageUpload, bind_error_iff] at raised
  rcases raised with tooLarge | ⟨_, _, unreadable | ⟨metadata, _, noFormat | ⟨_, _, noSize |
    ⟨_, _, ⟨⟩⟩⟩⟩⟩
  · simp only [validateUploadSize] at tooLarge
    split at tooLarge
    · cases tooLarge
      simp [payloadTooLargeError]
    · split at tooLarge
      · cases tooLarge
        simp [invalidImageError]
      · cases tooLarge
  · simp only [inspectImage] at unreadable
    split at unreadable
    · cases unreadable
    all_goals
      cases unreadable
      simp [invalidImageError]
  · simp only [validateFormat] at noFormat
    split at noFormat
    · cases noFormat
      simp [unsupportedFormatError]
    · cases noFormat
  · simp only [validateDimensions] at noSize
    split at noSize
    · cases noSize
      simp [invalidImageError]
    · split at noSize
      · cases noSize
        simp [invalidImageError]
      · split at noSize
        · cases noSize
          simp [invalidImageError]
        · cases noSize

/-- A valid upload can be opened again where Pillow has room. -/
theorem Valid.open_ok (valid : Valid pillow data maxBytes maxPixels metadata)
    (roomy : Roomy limit maxPixels) : Succeeds (pillow.open limit data) := by
  have validated := (validateImageUpload_ok_iff roomy).mpr valid
  simp only [validateImageUpload, bind_ok_iff, inspectImage_ok_iff] at validated
  rcases validated with ⟨_, _, _, ⟨header, opened, _⟩, _⟩
  exact ⟨header, opened⟩

end Valid

end VisionApi.Inference
