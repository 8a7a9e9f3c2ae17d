import Mathlib.Data.List.Basic
import VisionApi.Foundation.Run

/-!
# Downloads that resume

`download` streams into a `.part` file beside the destination and renames it at the
end.  A later call asks the server for the bytes that are missing.

The server is a function from the start of the requested range, if there is one, to a
response, and `Server.Conforms` says that it serves one content: all of it with a 200,
or the rest of it from the start with a 206.  An interrupted attempt leaves the
opened file with a prefix of what was streamed.

Over any attempts the `.part` file is a prefix of the content (`HoldsPrefix`), by
induction on the run.  A call that holds such a prefix ends with the whole content
exactly if the server does not refuse the range, which it does where nothing is
missing: a file that was complete before the rename is answered with a 416.
-/

namespace VisionApi.Datasets

open Foundation

variable {Byte : Type}

/-! ## The download -/

/-- A response and the chunks of its body; a chunk may be empty. -/
structure Response (Byte : Type) where
  status : ℕ
  chunks : List (List Byte)

/-- What a server answers to a request without a `Range`, or with `bytes={start}-`. -/
structure Server (Byte : Type) where
  respond : Option ℕ → Response Byte

/-- The `.part` file and the destination. -/
structure Files (Byte : Type) where
  part : Option (List Byte)
  destination : Option (List Byte)
deriving DecidableEq

/-- The `HTTPError` of `raise_for_status`. -/
structure HttpError where
  status : ℕ
deriving DecidableEq

/-- `raise_for_status`. -/
def Response.raises (response : Response Byte) : Bool :=
  decide (400 ≤ response.status) && decide (response.status < 600)

/-- How much of the `.part` file is kept. -/
def existingBytes (resume : Bool) (files : Files Byte) : ℕ :=
  if resume then (files.part.map List.length).getD 0 else 0

/-- The request, and the `.part` file as it is opened for appending or for writing. -/
def openPart (server : Server Byte) (resume : Bool) (files : Files Byte) :
    Except HttpError (List Byte × List (List Byte)) :=
  let existing := existingBytes resume files
  let response := server.respond (if existing ≠ 0 then some existing else none)
  -- A server that ignores the `Range` answers 200.
  let existing := if existing ≠ 0 ∧ response.status = 200 then 0 else existing
  if response.raises then .error ⟨response.status⟩
  else .ok (if existing ≠ 0 then files.part.getD [] else [], response.chunks)

/-- An empty chunk is not written. -/
def writeChunk (written chunk : List Byte) : List Byte :=
  if chunk.isEmpty then written else written ++ chunk

/-- `download`; what it raises before the file is opened leaves the files as they are. -/
def download (server : Server Byte) (resume : Bool) (files : Files Byte) :
    Except HttpError Unit × Files Byte :=
  match openPart server resume files with
  | .error error => (.error error, files)
  | .ok (opened, chunks) => (.ok (), ⟨none, some (chunks.foldl writeChunk opened)⟩)

/-- A call that is interrupted before the rename: before the file is opened, or after some number
of bytes has reached it. -/
structure Attempt (Byte : Type) where
  server : Server Byte
  resume : Bool
  stop : Option ℕ

/-- The files after an attempt that was stopped within the stream. -/
def Attempt.leaves (attempt : Attempt Byte) (files : Files Byte) : Files Byte :=
  match attempt.stop, openPart attempt.server attempt.resume files with
  | some count, .ok (opened, chunks) =>
      { files with part := some (opened ++ chunks.flatten.take count) }
  | _, _ => files

/-- Attempts follow one another on the same files. -/
def attemptStep (files : Files Byte) (attempt : Attempt Byte) : Option (Files Byte) :=
  some (attempt.leaves files)

theorem foldl_writeChunk (opened : List Byte) (chunks : List (List Byte)) :
    chunks.foldl writeChunk opened = opened ++ chunks.flatten := by
  induction chunks generalizing opened with
  | nil => simp
  | cons chunk chunks ih =>
      rw [List.foldl_cons, ih, List.flatten_cons, writeChunk]
      cases chunk with
      | nil => rfl
      | cons byte bytes => simp

/-! ## Conforming servers -/

section Conforming

variable {content : List Byte} {server : Server Byte} {files : Files Byte} {resume : Bool}

/-- A server with this content, which may ignore the `Range` of a request. -/
structure Server.Conforms (server : Server Byte) (content : List Byte) : Prop where
  whole : (server.respond none).status = 200 ∧ (server.respond none).chunks.flatten = content
  range : ∀ start, 0 < start →
    ((server.respond (some start)).status = 200 ∧
        (server.respond (some start)).chunks.flatten = content) ∨
      (start < content.length ∧ (server.respond (some start)).status = 206 ∧
        (server.respond (some start)).chunks.flatten = content.drop start) ∨
      (content.length ≤ start ∧ (server.respond (some start)).status = 416)

/-- The `.part` file holds the beginning of the content, if it exists. -/
def HoldsPrefix (content : List Byte) (files : Files Byte) : Prop :=
  files.part.getD [] <+: content

theorem length_part (files : Files Byte) :
    (files.part.map List.length).getD 0 = (files.part.getD []).length := by
  cases files.part with
  | none => rfl
  | some bytes => rfl

/-- The `Range` of a resumed call is refused when nothing is missing. -/
def Refused (server : Server Byte) (resume : Bool) (files : Files Byte) : Prop :=
  existingBytes resume files ≠ 0 ∧
    (server.respond (some (existingBytes resume files))).status = 416

/-- Where the server does not refuse the `Range`, the opened file and the body are together the
content. -/
theorem openPart_cases (conforms : server.Conforms content) (holds : HoldsPrefix content files) :
    (∃ opened chunks, openPart server resume files = .ok (opened, chunks) ∧
        opened ++ chunks.flatten = content ∧ ¬Refused server resume files) ∨
      (openPart server resume files = .error ⟨416⟩ ∧ Refused server resume files) := by
  by_cases fresh : existingBytes resume files = 0
  · left
    have accepted : (server.respond none).raises = false := by
      simp [Response.raises, conforms.whole.1]
    refine ⟨[], (server.respond none).chunks, ?_, conforms.whole.2, ?_⟩
    · simp [openPart, fresh, accepted]
    · intro refused
      exact refused.1 fresh
  · have resumes : existingBytes resume files = (files.part.getD []).length := by
      rw [← length_part]
      simp only [existingBytes] at fresh ⊢
      split at fresh
      · rename_i isResumed
        rw [if_pos isResumed]
      · exact absurd rfl fresh
    rcases conforms.range _ (Nat.pos_of_ne_zero fresh) with
      ⟨isWhole, body⟩ | ⟨_, isPartial, body⟩ | ⟨_, refuses⟩
    · left
      refine ⟨[], (server.respond (some (existingBytes resume files))).chunks, ?_, body, ?_⟩
      · simp [openPart, fresh, isWhole, Response.raises]
      · intro refused
        have both := isWhole.symm.trans refused.2
        cases both
    · left
      refine ⟨files.part.getD [], (server.respond (some (existingBytes resume files))).chunks,
        ?_, ?_, ?_⟩
      · simp [openPart, fresh, isPartial, Response.raises]
      · rw [body, resumes]
        rcases holds with ⟨rest, isContent⟩
        rw [← isContent, List.drop_left]
      · intro refused
        have both := isPartial.symm.trans refused.2
        cases both
    · right
      refine ⟨?_, fresh, refuses⟩
      simp [openPart, fresh, refuses, Response.raises]

/-- From a prefix the download completes exactly if the range is not refused. -/
theorem download_of_held (conforms : server.Conforms content)
    (holds : HoldsPrefix content files) :
    download server resume files = (.ok (), ⟨none, some content⟩) ↔
      ¬Refused server resume files := by
  rcases @openPart_cases Byte content server files resume conforms holds with
    ⟨opened, chunks, isOpen, together, accepted⟩ | ⟨raised, refused⟩
  · apply iff_of_true _ accepted
    simp only [download, isOpen, foldl_writeChunk, together]
  · apply iff_of_false _ (not_not.mpr refused)
    simp only [download, raised]
    rintro ⟨⟩

/-- An attempt leaves a prefix of the content. -/
theorem holdsPrefix_of_attempt {attempt : Attempt Byte} (conforms : attempt.server.Conforms content)
    (holds : HoldsPrefix content files) : HoldsPrefix content (attempt.leaves files) := by
  rcases attempt with ⟨server, resume, stop⟩
  cases stop with
  | none => exact holds
  | some count =>
      rcases @openPart_cases Byte content server files resume conforms holds with
        ⟨opened, chunks, isOpen, together, _⟩ | ⟨raised, _⟩
      · simp only [Attempt.leaves, isOpen]
        rw [HoldsPrefix, Option.getD_some, ← together, List.prefix_append_right_inj]
        exact List.take_prefix count _
      · simp only [Attempt.leaves, raised]
        exact holds

/-- Interrupted calls, each with a conforming server, leave the beginning of the content. -/
theorem holdsPrefix_of_run {start finish : Files Byte} (holds : HoldsPrefix content start)
    (run : Run attemptStep (fun _ attempt _ => attempt.server.Conforms content) start finish) :
    HoldsPrefix content finish := by
  apply run.invariant holds
  intro before attempt after holdsBefore conforms left
  cases left
  exact holdsPrefix_of_attempt conforms holdsBefore

/-- With the first `k` bytes in the `.part` file, a call that resumes leaves the content and no
`.part` file, unless all bytes are there and the server refuses to send none. -/
theorem download_completes_iff {k : ℕ} (conforms : server.Conforms content)
    (inside : k ≤ content.length) (held : files.part = some (content.take k)) :
    download server true files = (.ok (), ⟨none, some content⟩) ↔
      ¬(0 < k ∧ k = content.length ∧ (server.respond (some k)).status = 416) := by
  have holds : HoldsPrefix content files := by
    rw [HoldsPrefix, held, Option.getD_some]
    exact List.take_prefix k content
  have existing : existingBytes true files = k := by
    simp [existingBytes, held, Nat.min_eq_left inside]
  rw [download_of_held conforms holds, Refused, existing]
  apply not_congr
  constructor
  · rintro ⟨positive, refuses⟩
    refine ⟨Nat.pos_of_ne_zero positive, ?_, refuses⟩
    rcases conforms.range k (Nat.pos_of_ne_zero positive) with
      ⟨isWhole, _⟩ | ⟨_, isPartial, _⟩ | ⟨beyond, _⟩
    · have both := isWhole.symm.trans refuses
      cases both
    · have both := isPartial.symm.trans refuses
      cases both
    · exact Nat.le_antisymm inside beyond
  · rintro ⟨positive, _, refuses⟩
    exact ⟨Nat.ne_of_gt positive, refuses⟩

end Conforming

/-! ## A server that honours ranges -/

/-- A server that answers ranges, and 416 to one without bytes. -/
def rangeServer (content : List Byte) : Server Byte where
  respond := fun start =>
    match start with
    | none => ⟨200, [content]⟩
    | some start =>
        if start < content.length then ⟨206, [content.drop start]⟩ else ⟨416, []⟩

theorem rangeServer_conforms (content : List Byte) : (rangeServer content).Conforms content := by
  constructor
  · exact ⟨rfl, List.append_nil content⟩
  · intro start _
    right
    by_cases inside : start < content.length
    · left
      simp [rangeServer, inside]
    · right
      simp [rangeServer, inside, Nat.le_of_not_lt inside]

theorem download_completes_second_half :
    download (rangeServer [true, false]) true ⟨some [true], none⟩ =
      (.ok (), ⟨none, some [true, false]⟩) := by
  have held : (⟨some [true], none⟩ : Files Bool).part = some ([true, false].take 1) := rfl
  apply (download_completes_iff (rangeServer_conforms [true, false]) _ held).mpr
  · decide
  · decide

/-- An interruption just before the rename leaves all bytes, and every later call fails without
changing anything. -/
theorem download_fails_on_complete_part :
    (rangeServer [true, false]).Conforms [true, false] ∧
      Attempt.leaves ⟨rangeServer [true, false], true, some 2⟩ ⟨none, none⟩ =
        ⟨some [true, false], none⟩ ∧
      download (rangeServer [true, false]) true ⟨some [true, false], none⟩ =
        (.error ⟨416⟩, ⟨some [true, false], none⟩) :=
  ⟨rangeServer_conforms _, rfl, rfl⟩

end VisionApi.Datasets
