import Electrosphere.Backends.AgentFiles

/-!
# Restoring a workspace through a terminal

`restoreWorkspace` announces how many characters follow, reads the archive
piece by piece, and sends each piece as base64.  The command in the guest reads
as many characters as were announced and decodes them as one text.
-/

namespace Electrosphere

open Foundation Agent

/-- The length of the buffer. -/
def restoreBufferBytes : Nat := 192 * 1024

/-- `Math.ceil(tarBytes / 3) * 4`, the argument of `head -c`. -/
def encodedBytes (tarBytes : Nat) : Nat := (tarBytes + 2) / 3 * 4

/-- How many bytes a read at an offset may return of those requested. -/
abbrev ShortReads := Nat → Nat → Nat

/-- The answer to the text that is sent at an offset. -/
abbrev WriteAnswers := Nat → Text → Except Thrown Unit

/-- `source.read` with a position. -/
def readAt (archive : Bytes) (reads : ShortReads) (offset requested : Nat) :
    Bytes :=
  ((archive.drop offset).take requested).take (reads offset requested)

/-- The loop over the archive: the texts that are sent, and the offset at
which it ends. -/
def sendArchive (archive : Bytes) (tarBytes : Nat) (reads : ShortReads)
    (write : WriteAnswers) (offset : Nat) : List Text × Except Thrown Nat :=
  if offset < tarBytes then
    let chunk := readAt archive reads offset
      (min restoreBufferBytes (tarBytes - offset))
    if chunk = [] then ([], .ok offset)
    else
      let text := Base64.encodeStandard chunk
      match write offset text with
      | .error thrown => ([text], .error thrown)
      | .ok _ =>
          let (texts, result) :=
            sendArchive archive tarBytes reads write (offset + chunk.length)
          (text :: texts, result)
  else ([], .ok offset)
termination_by tarBytes - offset
decreasing_by
  have some := List.length_pos_of_ne_nil ‹_›
  change tarBytes - (offset + chunk.length) < tarBytes - offset
  omega

/-- The part of `restoreWorkspace` that feeds the command. -/
def restoreWorkspace (archive : Bytes) (tarBytes : Nat) (reads : ShortReads)
    (write : WriteAnswers) : List Text × Except Thrown Unit :=
  match sendArchive archive tarBytes reads write 0 with
  | (texts, .error thrown) => (texts, .error thrown)
  | (texts, .ok offset) =>
      if offset ≠ tarBytes then
        (texts, .error (.coded .backendError
          "Workspace restore archive changed while reading"))
      else (texts, .ok ())

/-- What `head -c` lets through. -/
def announced (tarBytes : Nat) (texts : List Text) : Text :=
  texts.flatten.take (encodedBytes tarBytes)

/-! ## The pieces -/

/-- The archive in pieces of the buffer's length. -/
def restorePieces (archive : Bytes) : List Bytes :=
  if archive = [] then []
  else
    archive.take restoreBufferBytes ::
      restorePieces (archive.drop restoreBufferBytes)
termination_by archive.length
decreasing_by
  have some := List.length_pos_of_ne_nil ‹_›
  rw [List.length_drop, restoreBufferBytes]
  omega

def restoreTexts (archive : Bytes) : List Text :=
  (restorePieces archive).map Base64.encodeStandard

theorem restoreTexts_cons {archive : Bytes} (nonempty : archive ≠ []) :
    restoreTexts archive =
      Base64.encodeStandard (archive.take restoreBufferBytes) ::
        restoreTexts (archive.drop restoreBufferBytes) := by
  rw [restoreTexts, restorePieces, if_neg nonempty]
  rfl

/-- The pieces are encoded as the whole is: each but the last has a length
that is divisible by three. -/
theorem flatten_restoreTexts (archive : Bytes) :
    (restoreTexts archive).flatten = Base64.encodeStandard archive := by
  induction archive using restorePieces.induct with
  | case1 =>
      rw [restoreTexts, restorePieces, if_pos rfl]
      rfl
  | case2 archive nonempty induction =>
      rw [restoreTexts_cons nonempty, List.flatten_cons, induction]
      by_cases long : restoreBufferBytes ≤ archive.length
      · have whole : 3 ∣ (archive.take restoreBufferBytes).length := by
          rw [List.length_take, Nat.min_eq_left long]
          decide
        rw [← Base64.encodeStandard_append _ whole, List.take_append_drop]
      · have all := Nat.le_of_not_le long
        rw [List.take_of_length_le all, List.drop_eq_nil_of_le all]
        exact List.append_nil _

/-- What the texts of an archive are to the guest. -/
structure Carries (archive : Bytes) (texts : List Text) : Prop where
  length : texts.flatten.length = encodedBytes archive.length
  padding : ∃ digits count, texts.flatten = digits ++ List.replicate count '=' ∧
    '=' ∉ digits ∧ count ≤ 2
  whole : announced archive.length texts = texts.flatten
  decoded : Base64.decodeStandard (announced archive.length texts) = archive

theorem restoreTexts_carries (archive : Bytes) :
    Carries archive (restoreTexts archive) := by
  have text := flatten_restoreTexts archive
  have length : (restoreTexts archive).flatten.length =
      encodedBytes archive.length := by
    rw [text, Base64.length_encodeStandard]
    rfl
  have whole : announced archive.length (restoreTexts archive) =
      (restoreTexts archive).flatten :=
    List.take_of_length_le (Nat.le_of_eq length)
  constructor
  · exact length
  · refine ⟨_, _, text, Base64.not_mem_digits archive, ?_⟩
    have few := Base64.length_padding_le archive
    rw [Base64.padding, List.length_replicate] at few
    exact few
  · exact whole
  · rw [whole, text, Base64.decodeStandard_encodeStandard]

/-! ## The loop -/

/-- Each read returns as much as it is asked for. -/
def FullReads (reads : ShortReads) : Prop :=
  ∀ offset requested, reads offset requested = requested

theorem readAt_full {reads : ShortReads} (full : FullReads reads)
    (archive : Bytes) (offset : Nat) :
    readAt archive reads offset
        (min restoreBufferBytes (archive.length - offset)) =
      (archive.drop offset).take restoreBufferBytes := by
  rw [readAt, full, List.take_take, Nat.min_self, ← List.length_drop,
    Nat.min_comm, List.take_eq_take_iff]
  omega

/-- A text that is refused ends the loop, and nothing else does. -/
theorem sendArchive_full {archive : Bytes} {reads : ShortReads}
    (full : FullReads reads) (write : WriteAnswers) (offset : Nat)
    (within : offset ≤ archive.length) :
    (∃ thrown place text, write place text = .error thrown ∧
      (sendArchive archive archive.length reads write offset).2 =
        .error thrown ∧
      (sendArchive archive archive.length reads write offset).1 <+:
        restoreTexts (archive.drop offset)) ∨
    sendArchive archive archive.length reads write offset =
      (restoreTexts (archive.drop offset), .ok archive.length) := by
  generalize isLeft : archive.length - offset = left
  induction left using Nat.strong_induction_on generalizing offset with
  | _ left induction =>
      rw [sendArchive]
      by_cases more : offset < archive.length
      · have nonempty : archive.drop offset ≠ [] := by
          rw [ne_eq, List.drop_eq_nil_iff]
          omega
        have chunk := readAt_full full archive offset
        have some : (archive.drop offset).take restoreBufferBytes ≠ [] := by
          rw [ne_eq, List.take_eq_nil_iff, not_or]
          exact ⟨by decide, nonempty⟩
        have moved : (archive.drop offset).drop restoreBufferBytes =
            archive.drop (offset +
              ((archive.drop offset).take restoreBufferBytes).length) := by
          rw [← List.drop_drop, List.length_take]
          by_cases long : restoreBufferBytes ≤ (archive.drop offset).length
          · rw [Nat.min_eq_left long]
          · have all := Nat.le_of_not_le long
            rw [Nat.min_eq_right all, List.drop_eq_nil_of_le all,
              List.drop_length]
        have progress := List.length_pos_of_ne_nil some
        have atMost : ((archive.drop offset).take
            restoreBufferBytes).length ≤ archive.length - offset := by
          rw [← List.length_drop, List.length_take]
          exact Nat.min_le_right _ _
        rw [if_pos more, chunk]
        dsimp only
        rw [if_neg some, restoreTexts_cons nonempty, moved]
        generalize ((archive.drop offset).take restoreBufferBytes).length =
          count at progress atMost
        cases answer : write offset (Base64.encodeStandard
            ((archive.drop offset).take restoreBufferBytes)) with
        | error thrown =>
            refine .inl ⟨thrown, _, _, answer, rfl, ?_⟩
            exact List.cons_prefix_cons.mpr ⟨rfl, List.nil_prefix⟩
        | ok =>
            have later := induction (archive.length - (offset + count))
              (by omega) (offset + count) (by omega) rfl
            rcases later with refused | sent
            · obtain ⟨thrown, place, text, isRefused, ends, before⟩ := refused
              refine .inl ⟨thrown, place, text, isRefused, ends, ?_⟩
              exact List.cons_prefix_cons.mpr ⟨rfl, before⟩
            · right
              dsimp only
              rw [sent]
      · have all : offset = archive.length := by omega
        rw [if_neg more, all, List.drop_length, restoreTexts, restorePieces,
          if_pos rfl]
        exact .inr rfl

/-- What is sent of an archive is what the guest's command waits for, unless
the guest refuses a text. -/
theorem restoreWorkspace_carries {archive : Bytes} {reads : ShortReads}
    (full : FullReads reads) (write : WriteAnswers) :
    ∃ texts, Carries archive texts ∧
      ((restoreWorkspace archive archive.length reads write =
          (texts, .ok ())) ∨
        ∃ thrown offset text, write offset text = .error thrown ∧
          (restoreWorkspace archive archive.length reads write).2 =
            .error thrown ∧
          (restoreWorkspace archive archive.length reads write).1 <+:
            texts) := by
  refine ⟨restoreTexts archive, restoreTexts_carries archive, ?_⟩
  have run := sendArchive_full full write 0 (Nat.zero_le archive.length)
  rw [List.drop_zero] at run
  rw [restoreWorkspace]
  rcases run with refused | sent
  · obtain ⟨thrown, offset, text, isRefused, ends, before⟩ := refused
    generalize sendArchive archive archive.length reads write 0 = outcome
      at ends before
    obtain ⟨texts, result⟩ := outcome
    cases ends
    exact .inr ⟨thrown, offset, text, isRefused, rfl, before⟩
  · left
    rw [sent]
    exact if_neg (by simp)

/-- An archive of 402 empty blocks. -/
def zeroArchive : Bytes := List.replicate 205824 0

/-- More than one piece, and no refusal. -/
theorem restoreWorkspace_carries_zeros :
    restoreBufferBytes < zeroArchive.length ∧
      ∃ texts, Carries zeroArchive texts ∧
        restoreWorkspace zeroArchive zeroArchive.length
          (fun _ requested => requested) (fun _ _ => .ok ()) =
            (texts, .ok ()) := by
  have full : FullReads fun _ requested => requested := fun _ _ => rfl
  refine ⟨?_, ?_⟩
  · rw [zeroArchive, List.length_replicate]
    decide
  · obtain ⟨texts, carries, sent | refused⟩ :=
      @restoreWorkspace_carries zeroArchive _ full fun _ _ => .ok ()
    · exact ⟨texts, carries, sent⟩
    · obtain ⟨thrown, offset, text, isRefused, -⟩ := refused
      cases isRefused

end Electrosphere
