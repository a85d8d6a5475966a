import Electrosphere.Agent.LineEdits

/-!
# The lines of an edited file

An edit whose content ends in a line feed is meant to leave the other lines
alone.  It does, unless it inserts something after a last line that has no line
feed of its own.
-/

namespace Electrosphere.Agent

open Foundation

/-! ## Texts of lines -/

/-- The text of a line. -/
def chomp (line : Bytes) : Bytes :=
  if line.getLast? = some 0x0A then line.dropLast else line

/-- The texts of the lines of a file. -/
def lineTexts (bytes : Bytes) : List Bytes := (byteLines bytes).map chomp

/-- Empty, or with a line feed at the end. -/
def Terminated (bytes : Bytes) : Prop :=
  bytes = [] ∨ bytes.getLast? = some 0x0A

instance decidableTerminated (bytes : Bytes) : Decidable (Terminated bytes) :=
  inferInstanceAs (Decidable (_ ∨ _))

section Lines

variable {bytes first second line : Bytes} {lines : List Bytes}

/-- A line feed at the end keeps the lines before it apart from others. -/
theorem byteLines_append (terminated : Terminated first) (second : Bytes) :
    byteLines (first ++ second) = byteLines first ++ byteLines second := by
  induction first with
  | nil => rfl
  | cons byte first induction =>
      have ended : (byte :: first).getLast? = some 0x0A := by
        cases terminated with
        | inl none => cases none
        | inr ended => exact ended
      cases first with
      | nil =>
          have isFeed : byte = 0x0A := by simpa using ended
          rw [isFeed]
          rfl
      | cons next first =>
          have rest := induction (.inr (List.getLast?_cons_cons ▸ ended))
          by_cases isFeed : byte = 0x0A
          · rw [isFeed, List.cons_append, byteLines_feed, byteLines_feed, rest]
            rfl
          · cases split : byteLines (next :: first) with
            | nil => exact (byteLines_ne_nil (List.cons_ne_nil _ _) split).elim
            | cons line lines =>
                rw [split] at rest
                rw [List.cons_append, byteLines_letter isFeed rest,
                  byteLines_letter isFeed split]
                rfl

theorem lineTexts_append (terminated : Terminated first) (second : Bytes) :
    lineTexts (first ++ second) = lineTexts first ++ lineTexts second := by
  rw [lineTexts, byteLines_append terminated, List.map_append]
  rfl

theorem Terminated.append (terminated : Terminated first)
    (other : Terminated second) : Terminated (first ++ second) := by
  cases other with
  | inl none =>
      rw [none, List.append_nil]
      exact terminated
  | inr ended =>
      right
      rw [List.getLast?_append, ended]
      rfl

/-- The first line, and the lines of the rest. -/
theorem byteLines_cons (isLines : byteLines bytes = line :: lines) :
    byteLines line = [line] ∧ byteLines lines.flatten = lines ∧
      line ≠ [] ∧ (lines ≠ [] → line.getLast? = some 0x0A) := by
  induction bytes generalizing line lines with
  | nil => cases isLines
  | cons byte bytes induction =>
      by_cases isFeed : byte = 0x0A
      · rw [isFeed, byteLines_feed] at isLines
        obtain ⟨isLine, isRest⟩ := List.cons.inj isLines
        rw [← isLine, ← isRest, flatten_byteLines]
        exact ⟨rfl, rfl, List.cons_ne_nil _ _, fun _ => rfl⟩
      · cases split : byteLines bytes with
        | nil =>
            have none : bytes = [] := by
              by_contra some
              exact byteLines_ne_nil some split
            have single : byteLines [byte] = [[byte]] := by
              rw [byteLines, splitInclusive, if_neg isFeed]
              rfl
            rw [none, single] at isLines
            obtain ⟨isLine, isRest⟩ := List.cons.inj isLines
            rw [← isLine, ← isRest]
            exact ⟨single, rfl, List.cons_ne_nil _ _, fun more => absurd rfl more⟩
        | cons first others =>
            obtain ⟨whole, rest, nonempty, ended⟩ := induction split
            rw [byteLines_letter isFeed split] at isLines
            obtain ⟨isLine, isRest⟩ := List.cons.inj isLines
            rw [← isLine, ← isRest]
            refine ⟨byteLines_letter isFeed whole, rest,
              List.cons_ne_nil _ _, ?_⟩
            intro more
            rw [List.getLast?_cons, ended more]
            rfl

theorem lineTexts_of_whole (whole : byteLines line = [line]) :
    lineTexts line = [chomp line] := by
  rw [lineTexts, whole]
  rfl

/-- A line without a line feed at the end has none. -/
theorem feed_not_mem (whole : byteLines line = [line])
    (unended : line.getLast? ≠ some 0x0A) : (0x0A : UInt8) ∉ line := by
  intro member
  obtain ⟨before, after, isLine, inside⟩ := List.eq_append_cons_of_mem member
  have split := splitInclusive_line inside after
  rw [← isLine] at split
  have none := (List.cons.inj (split.symm.trans whole)).2
  have empty : after = [] := by
    by_contra some
    exact byteLines_ne_nil some none
  rw [isLine, empty, List.getLast?_concat] at unended
  exact unended rfl

/-- What is put behind such a line becomes part of it. -/
theorem length_lineTexts_append (whole : byteLines line = [line])
    (nonempty : line ≠ []) (unended : line.getLast? ≠ some 0x0A)
    (some : second ≠ []) :
    (lineTexts (line ++ second)).length = (lineTexts second).length := by
  rw [lineTexts, byteLines,
    splitInclusive_append nonempty (feed_not_mem whole unended), lineTexts,
    List.length_map, List.length_map, byteLines]
  cases split : splitInclusive (0x0A : UInt8) second with
  | nil => exact (byteLines_ne_nil some split).elim
  | cons first others => rfl

end Lines

/-! ## The lines that the edits mean -/

/-- The texts that a covered line becomes, each a line of its own. -/
def EditSpec.textLines (edit : EditSpec) (number : Nat) (line : Bytes) :
    List Bytes :=
  match EditKind.parse edit.kind with
  | some .replace =>
      if number = edit.startLine then lineTexts edit.bytes else []
  | some .delete => []
  | some .insertBefore => lineTexts edit.bytes ++ [chomp line]
  | some .insertAfter => chomp line :: lineTexts edit.bytes
  | none => [chomp line]

def textLines (edits : List EditSpec) (number : Nat) (line : Bytes) :
    List Bytes :=
  match edits.find? fun edit => decide (edit.Covers number) with
  | some edit => edit.textLines number line
  | none => [chomp line]

def textLinesFrom (edits : List EditSpec) : Nat → List Bytes → List Bytes
  | _, [] => []
  | passed, line :: lines =>
      textLines edits (passed + 1) line ++
        textLinesFrom edits (passed + 1) lines

/-- Content put behind a line that has no line feed. -/
def EditSpec.Merges (edit : EditSpec) (line : Bytes) : Prop :=
  EditKind.parse edit.kind = some .insertAfter ∧ edit.bytes ≠ [] ∧
    line.getLast? ≠ some 0x0A

section Texts

variable {edit : EditSpec} {edits : List EditSpec} {number passed : Nat}
  {line : Bytes} {lines : List Bytes}

theorem EditSpec.terminated_contribution (terminated : Terminated edit.bytes)
    (ended : line.getLast? = some 0x0A) :
    Terminated (edit.contribution number line) := by
  unfold EditSpec.contribution
  split
  · split
    · exact terminated
    · exact .inl rfl
  · exact .inl rfl
  · exact terminated.append (.inr ended)
  · exact Terminated.append (.inr ended) terminated
  · exact .inr ended

theorem EditSpec.lineTexts_contribution (terminated : Terminated edit.bytes)
    (whole : byteLines line = [line]) (nonempty : line ≠ []) :
    lineTexts (edit.contribution number line) = edit.textLines number line ↔
      ¬ edit.Merges line := by
  have single := lineTexts_of_whole whole
  unfold EditSpec.contribution EditSpec.textLines EditSpec.Merges
  cases isKind : EditKind.parse edit.kind with
  | none =>
      refine iff_of_true single ?_
      rintro ⟨isAfter, -⟩
      cases isAfter
  | some kind =>
      cases kind with
      | replace =>
          refine iff_of_true ?_ ?_
          · dsimp only
            split <;> rfl
          · rintro ⟨isAfter, -⟩
            cases isAfter
      | delete =>
          refine iff_of_true rfl ?_
          rintro ⟨isAfter, -⟩
          cases isAfter
      | insertBefore =>
          refine iff_of_true ?_ ?_
          · dsimp only
            rw [lineTexts_append terminated, single]
          · rintro ⟨isAfter, -⟩
            cases isAfter
      | insertAfter =>
          dsimp only
          by_cases ended : line.getLast? = some 0x0A
          · refine iff_of_true ?_ (fun merges => merges.2.2 ended)
            rw [lineTexts_append (.inr ended), single]
            rfl
          · by_cases none : edit.bytes = []
            · refine iff_of_true ?_ (fun merges => merges.2.1 none)
              rw [none, List.append_nil, single]
              rfl
            · refine iff_of_false ?_ (fun kept => kept ⟨rfl, none, ended⟩)
              intro same
              have length := length_lineTexts_append whole nonempty ended none
              rw [same, List.length_cons] at length
              omega

theorem terminated_contribution
    (terminated : ∀ edit ∈ edits, Terminated edit.bytes)
    (ended : line.getLast? = some 0x0A) :
    Terminated (contribution edits number line) := by
  unfold contribution
  split
  · rename_i edit found
    exact EditSpec.terminated_contribution
      (terminated edit (List.mem_of_find?_eq_some found)) ended
  · exact .inr ended

theorem lineTexts_contribution
    (terminated : ∀ edit ∈ edits, Terminated edit.bytes)
    (whole : byteLines line = [line]) (nonempty : line ≠ []) :
    lineTexts (contribution edits number line) = textLines edits number line ↔
      ∀ edit, edits.find? (fun edit => decide (edit.Covers number)) =
        some edit → ¬ edit.Merges line := by
  unfold contribution textLines
  cases found : edits.find? fun edit => decide (edit.Covers number) with
  | none =>
      refine iff_of_true (lineTexts_of_whole whole) ?_
      intro edit isEdit
      cases isEdit
  | some edit =>
      dsimp only
      rw [EditSpec.lineTexts_contribution
        (terminated edit (List.mem_of_find?_eq_some found)) whole nonempty]
      constructor
      · intro apart other isOther
        cases isOther
        exact apart
      · intro apart
        exact apart edit rfl

/-- The lines stay apart unless something is put behind the last one. -/
theorem lineTexts_editedFrom
    (terminated : ∀ edit ∈ edits, Terminated edit.bytes)
    (whole : byteLines lines.flatten = lines) :
    lineTexts (editedFrom edits passed lines) =
        textLinesFrom edits passed lines ↔
      ∀ last ∈ lines.getLast?, ∀ edit,
        edits.find? (fun edit => decide (edit.Covers (passed + lines.length))) =
          some edit → ¬ edit.Merges last := by
  induction lines generalizing passed with
  | nil =>
      refine iff_of_true rfl ?_
      intro last isLast
      cases isLast
  | cons line lines induction =>
      obtain ⟨single, rest, nonempty, ended⟩ := byteLines_cons whole
      cases lines with
      | nil =>
          rw [editedFrom, editedFrom, List.append_nil, textLinesFrom,
            textLinesFrom, List.append_nil,
            lineTexts_contribution terminated single nonempty]
          simp
      | cons next lines =>
          have isEnded := ended (List.cons_ne_nil _ _)
          have first : lineTexts (contribution edits (passed + 1) line) =
              textLines edits (passed + 1) line := by
            apply (lineTexts_contribution terminated single nonempty).mpr
            intro edit found merges
            exact merges.2.2 isEnded
          rw [editedFrom, textLinesFrom,
            lineTexts_append (terminated_contribution terminated isEnded),
            first, List.append_right_inj, induction rest,
            List.getLast?_cons_cons, List.length_cons (a := line),
            Nat.add_assoc, Nat.add_comm 1]

end Texts

/-- Every line that the edits keep or insert is a line of the new file, in
order and with its text. -/
def KeepsLines (bytes : Bytes) (edits : List EditSpec) (new : Bytes) : Prop :=
  lineTexts new = textLinesFrom edits 0 (byteLines bytes)

/-- Something is inserted behind a last line that has no line feed. -/
def ExtendsLastLine (bytes : Bytes) (edits : List EditSpec) : Prop :=
  bytes.getLast? ≠ some 0x0A ∧ ∃ edit ∈ edits,
    EditKind.parse edit.kind = some .insertAfter ∧
      edit.startLine = (byteLines bytes).length ∧ edit.bytes ≠ []

section Answer

variable {library : WriteLibrary} {bytes new : Bytes} {expectedDigest : Text}
  {edits : List EditSpec} {response : FileResponse}

theorem getLast?_of_last {lines : List Bytes} {last : Bytes}
    (whole : byteLines lines.flatten = lines)
    (isLast : lines.getLast? = some last) :
    lines.flatten.getLast? = last.getLast? := by
  induction lines with
  | nil => cases isLast
  | cons line lines induction =>
      obtain ⟨-, rest, nonempty, -⟩ := byteLines_cons whole
      cases lines with
      | nil =>
          cases isLast
          simp
      | cons next lines =>
          have tail := induction rest (List.getLast?_cons_cons ▸ isLast)
          obtain ⟨-, -, nextNonempty, -⟩ := byteLines_cons rest
          have some : (next :: lines).flatten ≠ [] := by
            rw [List.flatten_cons]
            exact List.append_ne_nil_of_left_ne_nil nextNonempty _
          rw [List.flatten_cons, List.getLast?_append, tail]
          cases found : last.getLast? with
          | none =>
              rw [found] at tail
              exact (some (List.getLast?_eq_none_iff.mp tail)).elim
          | some byte => rfl

theorem AcceptedEdits.keeps_iff (accepted : AcceptedEdits edits)
    (terminated : ∀ edit ∈ edits, Terminated edit.bytes) :
    KeepsLines bytes edits (edited edits (byteLines bytes)) ↔
      ¬ ExtendsLastLine bytes edits := by
  have whole : byteLines (byteLines bytes).flatten = byteLines bytes := by
    rw [flatten_byteLines]
  rw [KeepsLines, edited, lineTexts_editedFrom terminated whole, Nat.zero_add]
  -- An insertion names one line.
  have single : ∀ edit ∈ edits, EditKind.parse edit.kind = some .insertAfter →
      edit.lastLine = edit.startLine := by
    intro edit member kind
    cases accepted.shape edit member with
    | replace other | delete other | insertBefore other =>
        rw [kind] at other
        cases other
    | insertAfter kind endLine => rw [EditSpec.lastLine, endLine, Option.getD_none]
  constructor
  · rintro apart ⟨unended, edit, member, kind, named, some⟩
    have isLast := single edit member kind
    have positive := accepted.positive edit member
    have covers : edit.Covers (byteLines bytes).length := by
      unfold EditSpec.Covers
      omega
    cases last : (byteLines bytes).getLast? with
    | none =>
        rw [List.getLast?_eq_none_iff.mp last, List.length_nil] at named
        omega
    | some line =>
        have same := getLast?_of_last whole last
        rw [flatten_byteLines] at same
        apply apart line last edit (accepted.find?_eq member covers)
        exact ⟨kind, some, same ▸ unended⟩
  · rintro kept line last edit found ⟨kind, some, unended⟩
    have member := List.mem_of_find?_eq_some found
    have isCovered := List.find?_some found
    have covers : edit.Covers (byteLines bytes).length :=
      of_decide_eq_true isCovered
    have isLast := single edit member kind
    have same := getLast?_of_last whole last
    rw [flatten_byteLines] at same
    refine kept ⟨same ▸ unended, edit, member, kind, ?_, some⟩
    have first := covers.1
    have second := covers.2
    omega

/-- An edit leaves the other lines alone exactly if it puts nothing behind a
last line without line feed. -/
theorem keepsLines_iff
    (done : editBytes library bytes expectedDigest edits =
      some (.ok (new, response)))
    (terminated : ∀ edit ∈ edits, Terminated edit.bytes) :
    KeepsLines bytes edits new ↔ ¬ ExtendsLastLine bytes edits := by
  have outcome := editBytes_ok done
  rw [outcome.isEdited]
  exact outcome.accepted.keeps_iff terminated

end Answer

/-! ### A file of one line -/

def oneDigest : WriteLibrary where
  sha256 bytes :=
    if bytes = [0x61, 0x0A] then .ofOneLine
    else if bytes = [0x61] then .ofLetter
    else if bytes = [0x61, 0x0A, 0x62, 0x0A] then .ofTwoLines
    else if bytes = [0x61, 0x62, 0x0A] then
      { hex :=
          "a63d8014dba891345b30174df2b2a57efbb65b4f9f09b98f245d1b3192277ece"
        isHex := by decide }
    else .ofNothing
  chunk := .canonical
  quoted path := String.ofList path

def insertion : EditSpec where
  kind := "insert_after"
  startLine := 1
  content := some "b\n".toList

theorem insertion_terminated : ∀ edit ∈ [insertion], Terminated edit.bytes := by
  decide

theorem inserted_ended :
    ∃ response, editBytes oneDigest (Utf8.encode "a\n".toList)
        (fileDigest oneDigest [0x61, 0x0A]) [insertion] =
      some (.ok (Utf8.encode "a\nb\n".toList, response)) :=
  ⟨_, rfl⟩

theorem inserted_unended :
    ∃ response, editBytes oneDigest (Utf8.encode "a".toList)
        (fileDigest oneDigest [0x61]) [insertion] =
      some (.ok (Utf8.encode "ab\n".toList, response)) :=
  ⟨_, rfl⟩

theorem keepsLines_ended :
    KeepsLines (Utf8.encode "a\n".toList) [insertion]
      (Utf8.encode "a\nb\n".toList) := by
  obtain ⟨response, done⟩ := inserted_ended
  apply (keepsLines_iff done insertion_terminated).mpr
  intro longer
  exact longer.1 (by decide)

theorem not_keepsLines_unended :
    ¬ ∀ library bytes expectedDigest edits new response,
      editBytes library bytes expectedDigest edits =
        some (.ok (new, response)) →
      (∀ edit ∈ edits, Terminated edit.bytes) → KeepsLines bytes edits new := by
  intro keeps
  obtain ⟨response, done⟩ := inserted_unended
  have kept := keeps _ _ _ _ _ _ done insertion_terminated
  unfold KeepsLines at kept
  revert kept
  decide

end Electrosphere.Agent
