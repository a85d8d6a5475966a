import Electrosphere.Agent.FileEdit

/-!
# What the line edits of a file compute

Every line of the file contributes to the new file: itself, unless an edit
covers it.  Splicing from the last edit to the first puts the contributions
together, since what stands before a splice is as it was.
-/

namespace Electrosphere.Agent

open Foundation

/-! ## What the edits mean -/

namespace EditSpec

variable (edit : EditSpec)

def Covers (line : Nat) : Prop :=
  edit.startLine ≤ line ∧ line ≤ edit.lastLine

instance decidableCovers (line : Nat) : Decidable (edit.Covers line) :=
  inferInstanceAs (Decidable (_ ∧ _))

def bytes : Bytes := Utf8.encode (edit.content.getD [])

/-- What a covered line becomes. -/
def contribution (number : Nat) (line : Bytes) : Bytes :=
  match EditKind.parse edit.kind with
  | some .replace => if number = edit.startLine then edit.bytes else []
  | some .delete => []
  | some .insertBefore => edit.bytes ++ line
  | some .insertAfter => line ++ edit.bytes
  | none => line

def Disjoint (other : EditSpec) : Prop :=
  edit.lastLine < other.startLine ∨ other.lastLine < edit.startLine

end EditSpec

def contribution (edits : List EditSpec) (number : Nat) (line : Bytes) :
    Bytes :=
  match edits.find? fun edit => decide (edit.Covers number) with
  | some edit => edit.contribution number line
  | none => line

/-- What the lines after the first few become. -/
def editedFrom (edits : List EditSpec) : Nat → List Bytes → Bytes
  | _, [] => []
  | passed, line :: lines =>
      contribution edits (passed + 1) line ++
        editedFrom edits (passed + 1) lines

/-- The file that the edits specify. -/
def edited (edits : List EditSpec) (lines : List Bytes) : Bytes :=
  editedFrom edits 0 lines

section Contributions

variable {edits : List EditSpec} {edit : EditSpec} {passed number : Nat}
  {lines first second : List Bytes} {line : Bytes}

theorem editedFrom_append :
    editedFrom edits passed (first ++ second) =
      editedFrom edits passed first ++
        editedFrom edits (passed + first.length) second := by
  induction first generalizing passed with
  | nil => rfl
  | cons line first induction =>
      rw [List.cons_append, editedFrom, editedFrom, induction,
        List.append_assoc, List.length_cons, Nat.add_assoc,
        Nat.add_comm first.length]

theorem contribution_of_uncovered
    (uncovered : ∀ edit ∈ edits, ¬ edit.Covers number) :
    contribution edits number line = line := by
  have none : edits.find? (fun edit => decide (edit.Covers number)) = none := by
    apply List.find?_eq_none.mpr
    intro edit member covers
    exact uncovered edit member (of_decide_eq_true covers)
  rw [contribution, none]

theorem contribution_of_covered (covers : edit.Covers number) :
    contribution (edit :: edits) number line =
      edit.contribution number line := by
  simp only [contribution, List.find?_cons, decide_eq_true covers]

theorem contribution_of_not_covered (other : ¬ edit.Covers number) :
    contribution (edit :: edits) number line =
      contribution edits number line := by
  simp only [contribution, List.find?_cons, decide_eq_false other]

/-- Lines that no edit names. -/
theorem editedFrom_of_uncovered
    (uncovered : ∀ edit ∈ edits, ∀ number, passed < number →
      number ≤ passed + lines.length → ¬ edit.Covers number) :
    editedFrom edits passed lines = lines.flatten := by
  induction lines generalizing passed with
  | nil => rfl
  | cons line lines induction =>
      rw [editedFrom, List.flatten_cons, contribution_of_uncovered, induction]
      · intro edit member number after inside
        apply uncovered edit member number (by omega)
        rw [List.length_cons]
        omega
      · intro edit member
        apply uncovered edit member _ (Nat.lt_succ_self _)
        rw [List.length_cons]
        omega

/-- Lines after those that the first edit names. -/
theorem editedFrom_past (past : edit.lastLine ≤ passed) :
    editedFrom (edit :: edits) passed lines = editedFrom edits passed lines := by
  induction lines generalizing passed with
  | nil => rfl
  | cons line lines induction =>
      have other : ¬ edit.Covers (passed + 1) := by
        intro covers
        have last := covers.2
        omega
      rw [editedFrom, editedFrom, contribution_of_not_covered other,
        induction (by omega)]

end Contributions

/-! ## Where the lines begin -/

theorem byteLines_feed (bytes : Bytes) :
    byteLines (0x0A :: bytes) = [0x0A] :: byteLines bytes := by
  rw [byteLines, splitInclusive, if_pos rfl]
  rfl

theorem flatten_byteLines (bytes : Bytes) : (byteLines bytes).flatten = bytes :=
  flatten_splitInclusive _ _

theorem byteLines_ne_nil {bytes : Bytes} (some : bytes ≠ []) :
    byteLines bytes ≠ [] := by
  cases bytes with
  | nil => exact (some rfl).elim
  | cons byte bytes => exact splitInclusive_ne_nil _ _ _

/-- Any other byte belongs to the line after it. -/
theorem byteLines_letter {byte : UInt8} (other : byte ≠ 0x0A) {bytes line : Bytes}
    {lines : List Bytes} (isLines : byteLines bytes = line :: lines) :
    byteLines (byte :: bytes) = (byte :: line) :: lines := by
  unfold byteLines at isLines ⊢
  rw [splitInclusive, if_neg other, isLines]

/-- The offsets of lines that stand one after the other. -/
def offsets : Nat → List Bytes → List Nat
  | _, [] => []
  | offset, line :: lines => offset :: offsets (offset + line.length) lines

theorem length_offsets (offset : Nat) (lines : List Bytes) :
    (offsets offset lines).length = lines.length := by
  induction lines generalizing offset with
  | nil => rfl
  | cons line lines induction =>
      rw [offsets, List.length_cons, List.length_cons, induction]

theorem getElem?_offsets (offset : Nat) {lines : List Bytes} {index : Nat}
    (inside : index < lines.length) :
    (offsets offset lines)[index]? =
      some (offset + (lines.take index).flatten.length) := by
  induction lines generalizing offset index with
  | nil => cases inside
  | cons line lines induction =>
      cases index with
      | zero => rfl
      | succ index =>
          rw [offsets, List.getElem?_cons_succ,
            induction _ (Nat.lt_of_succ_lt_succ inside), List.take_succ_cons,
            List.flatten_cons, List.length_append, Nat.add_assoc]

theorem cons_startsAfter (index : Nat) {bytes : Bytes} (some : bytes ≠ [])
    {length : Nat} (isLength : length = index + bytes.length) :
    index :: startsAfter length index bytes =
      offsets index (byteLines bytes) := by
  induction bytes generalizing index with
  | nil => exact (some rfl).elim
  | cons byte bytes induction =>
      rw [List.length_cons] at isLength
      cases bytes with
      | nil =>
          have last : ¬ (byte = 0x0A ∧ index + 1 < length) := by
            rw [isLength]
            simp
          rw [startsAfter, if_neg last, startsAfter, byteLines, splitInclusive]
          split <;> rfl
      | cons next bytes =>
          have rest := induction (index + 1) (List.cons_ne_nil _ _)
            (by rw [isLength]; omega)
          have more : index + 1 < length := by
            rw [isLength, List.length_cons]
            omega
          by_cases ends : byte = 0x0A
          · rw [startsAfter, if_pos ⟨ends, more⟩, rest, ends, byteLines_feed]
            rfl
          · have isLine : ¬ (byte = 0x0A ∧ index + 1 < length) :=
              fun both => ends both.1
            rw [startsAfter, if_neg isLine]
            cases split : byteLines (next :: bytes) with
            | nil => exact (byteLines_ne_nil (List.cons_ne_nil _ _) split).elim
            | cons line lines =>
                rw [split, offsets] at rest
                have tail := List.tail_eq_of_cons_eq rest
                rw [byteLines_letter ends split, tail, offsets,
                  List.length_cons]
                congr 2
                omega

theorem lineStarts_eq (bytes : Bytes) :
    lineStarts bytes = offsets 0 (byteLines bytes) := by
  by_cases none : bytes = []
  · rw [lineStarts, if_pos none, none]
    rfl
  · rw [lineStarts, if_neg none]
    exact cons_startsAfter 0 none (Nat.zero_add _).symm

theorem length_lineStarts (bytes : Bytes) :
    (lineStarts bytes).length = (byteLines bytes).length := by
  rw [lineStarts_eq, length_offsets]

theorem getElem?_lineStarts {bytes : Bytes} {index : Nat}
    (inside : index < (byteLines bytes).length) :
    (lineStarts bytes)[index]? =
      some ((byteLines bytes).take index).flatten.length := by
  rw [lineStarts_eq, getElem?_offsets 0 inside, Nat.zero_add]

/-! ## What the checks let through -/

/-- The fields that each kind of edit has. -/
inductive EditSpec.Shape (edit : EditSpec) : Prop where
  | replace {finish : Nat} {text : Text}
      (kind : EditKind.parse edit.kind = some .replace)
      (endLine : edit.endLine = some finish)
      (content : edit.content = some text)
  | delete {finish : Nat} (kind : EditKind.parse edit.kind = some .delete)
      (endLine : edit.endLine = some finish) (content : edit.content = none)
  | insertBefore {text : Text}
      (kind : EditKind.parse edit.kind = some .insertBefore)
      (endLine : edit.endLine = none) (content : edit.content = some text)
  | insertAfter {text : Text}
      (kind : EditKind.parse edit.kind = some .insertAfter)
      (endLine : edit.endLine = none) (content : edit.content = some text)

theorem EditSpec.checkFields_ok_iff {edit : EditSpec} :
    edit.checkFields = .ok () ↔ edit.Shape := by
  constructor
  · intro checked
    unfold EditSpec.checkFields at checked
    cases kind : EditKind.parse edit.kind with
    | none => simp [kind] at checked
    | some kind' =>
        cases endLine : edit.endLine with
        | none =>
            cases content : edit.content with
            | none => cases kind' <;> simp [kind, endLine, content] at checked
            | some text =>
                cases kind' with
                | replace => simp [kind, endLine] at checked
                | delete => simp [kind, endLine] at checked
                | insertBefore => exact .insertBefore kind endLine content
                | insertAfter => exact .insertAfter kind endLine content
        | some finish =>
            cases content : edit.content with
            | none =>
                cases kind' with
                | replace => simp [kind, content] at checked
                | delete => exact .delete kind endLine content
                | insertBefore => simp [kind, endLine] at checked
                | insertAfter => simp [kind, endLine] at checked
            | some text =>
                cases kind' with
                | replace => exact .replace kind endLine content
                | delete => simp [kind, content] at checked
                | insertBefore => simp [kind, endLine] at checked
                | insertAfter => simp [kind, endLine] at checked
  · intro shape
    cases shape with
    | replace kind endLine content =>
        simp [EditSpec.checkFields, kind, endLine, content]
    | delete kind endLine content =>
        simp [EditSpec.checkFields, kind, endLine, content]
    | insertBefore kind endLine content =>
        simp [EditSpec.checkFields, kind, endLine, content]
    | insertAfter kind endLine content =>
        simp [EditSpec.checkFields, kind, endLine, content]

structure Accepted (lineCount previousEnd : Nat) (edit : EditSpec) : Prop where
  after : previousEnd < edit.startLine
  ordered : edit.startLine ≤ edit.lastLine
  inside : edit.lastLine ≤ lineCount
  shape : edit.Shape

theorem checkEdits_cons_ok_iff {lineCount previousEnd : Nat} {edit : EditSpec}
    {edits : List EditSpec} :
    checkEdits lineCount previousEnd (edit :: edits) = .ok () ↔
      Accepted lineCount previousEnd edit ∧
        checkEdits lineCount edit.lastLine edits = .ok () := by
  constructor
  · intro checked
    rw [checkEdits] at checked
    split at checked
    case isTrue => cases checked
    case isFalse inRange =>
      split at checked
      case isTrue => cases checked
      case isFalse valid =>
        split at checked
        case h_1 => cases checked
        case h_2 fields =>
          refine ⟨?_, checked⟩
          constructor
          · omega
          · omega
          · omega
          · exact EditSpec.checkFields_ok_iff.mp fields
  · rintro ⟨⟨after, ordered, inside, shape⟩, rest⟩
    rw [checkEdits, if_neg (by omega), if_neg (by omega),
      EditSpec.checkFields_ok_iff.mpr shape]
    exact rest

theorem accepted_of_checked {lineCount previousEnd : Nat}
    {edits : List EditSpec}
    (checked : checkEdits lineCount previousEnd edits = .ok ()) :
    ∀ edit ∈ edits, Accepted lineCount previousEnd edit := by
  induction edits generalizing previousEnd with
  | nil =>
      intro edit member
      cases member
  | cons first edits induction =>
      obtain ⟨accepted, rest⟩ := checkEdits_cons_ok_iff.mp checked
      intro edit member
      cases List.mem_cons.mp member with
      | inl isFirst =>
          rw [isFirst]
          exact accepted
      | inr later =>
          have facts := induction rest edit later
          have ordered := accepted.ordered
          have after := accepted.after
          have behind := facts.after
          exact { facts with after := by omega }

/-- Accepted edits name lines one after the other. -/
theorem pairwise_of_checked {lineCount previousEnd : Nat}
    {edits : List EditSpec}
    (checked : checkEdits lineCount previousEnd edits = .ok ()) :
    edits.Pairwise fun left right => left.lastLine < right.startLine := by
  induction edits generalizing previousEnd with
  | nil => exact List.Pairwise.nil
  | cons first edits induction =>
      obtain ⟨accepted, rest⟩ := checkEdits_cons_ok_iff.mp checked
      apply List.Pairwise.cons
      · intro edit member
        exact (accepted_of_checked rest edit member).after
      · exact induction rest

/-- Nothing else is checked. -/
theorem checked_of_accepted {lineCount previousEnd : Nat}
    {edits : List EditSpec}
    (each : ∀ edit ∈ edits, Accepted lineCount previousEnd edit)
    (apart : edits.Pairwise fun left right => left.lastLine < right.startLine) :
    checkEdits lineCount previousEnd edits = .ok () := by
  induction edits generalizing previousEnd with
  | nil => rfl
  | cons first edits induction =>
      obtain ⟨before, rest⟩ := List.pairwise_cons.mp apart
      apply checkEdits_cons_ok_iff.mpr
      refine ⟨each first List.mem_cons_self, induction ?_ rest⟩
      intro edit member
      exact { each edit (List.mem_cons_of_mem _ member) with
        after := before edit member }

/-! ## One splice -/

theorem take_of_le {α : Type} (items : List α) {first last : Nat}
    (ordered : first ≤ last) :
    items.take last = items.take first ++ (items.take last).drop first := by
  have taken : (items.take last).take first = items.take first := by
    rw [List.take_take, Nat.min_eq_left ordered]
  rw [← taken]
  exact (List.take_append_drop _ _).symm

theorem drop_of_le {α : Type} (items : List α) {first last : Nat}
    (ordered : first ≤ last) :
    items.drop first = (items.take last).drop first ++ items.drop last := by
  by_cases short : items.length ≤ last
  · rw [List.take_of_length_le short, List.drop_of_length_le short,
      List.append_nil]
  · have within : first ≤ (items.take last).length := by
      rw [List.length_take]
      omega
    have parts := congrArg (List.drop first) (List.take_append_drop last items)
    rw [List.drop_append_of_le_length within] at parts
    exact parts.symm

theorem splice_middle (before middle after replacement : Bytes) :
    splice (before ++ middle ++ after) before.length (before ++ middle).length
        replacement =
      some (before ++ replacement ++ after) := by
  have within : before.length ≤ (before ++ middle).length ∧
      (before ++ middle).length ≤ (before ++ middle ++ after).length := by
    simp only [List.length_append]
    omega
  rw [splice, if_pos within, List.drop_left, List.append_assoc before middle,
    List.take_left]

section Splice

variable {bytes after : Bytes} {edit : EditSpec} {edits : List EditSpec}
  {previousEnd passed : Nat}

/-- Lines that an edit leaves nothing of. -/
theorem editedFrom_absorbed
    (absorbs : ∀ number line, edit.startLine < number →
      edit.contribution number line = []) {lines : List Bytes}
    (started : edit.startLine ≤ passed)
    (named : passed + lines.length ≤ edit.lastLine) :
    editedFrom (edit :: edits) passed lines = [] := by
  induction lines generalizing passed with
  | nil => rfl
  | cons line lines induction =>
      rw [List.length_cons] at named
      have covers : edit.Covers (passed + 1) := by
        constructor
        · omega
        · omega
      rw [editedFrom, contribution_of_covered covers, absorbs _ _ (by omega),
        induction (by omega) (by omega)]
      rfl

/-- The lines that an edit names become what it says. -/
theorem editedFrom_named (shape : edit.Shape) (line : Bytes)
    (others : List Bytes) (positive : 0 < edit.startLine)
    (named : edit.startLine + others.length = edit.lastLine) :
    editedFrom (edit :: edits) (edit.startLine - 1) (line :: others) =
      edit.contribution edit.startLine line := by
  have isStart : edit.startLine - 1 + 1 = edit.startLine := by omega
  have covers : edit.Covers edit.startLine := by
    constructor
    · exact Nat.le_refl _
    · omega
  have rest : editedFrom (edit :: edits) edit.startLine others = [] := by
    cases shape with
    | replace kind endLine =>
        apply editedFrom_absorbed _ (Nat.le_refl _) (Nat.le_of_eq named)
        intro number line later
        have other : number ≠ edit.startLine := by omega
        simp only [EditSpec.contribution, kind, if_neg other]
    | delete kind endLine =>
        apply editedFrom_absorbed _ (Nat.le_refl _) (Nat.le_of_eq named)
        intro number line later
        simp only [EditSpec.contribution, kind]
    | insertBefore kind endLine =>
        rw [EditSpec.lastLine, endLine, Option.getD_none] at named
        rw [List.length_eq_zero_iff.mp (by omega : others.length = 0)]
        rfl
    | insertAfter kind endLine =>
        rw [EditSpec.lastLine, endLine, Option.getD_none] at named
        rw [List.length_eq_zero_iff.mp (by omega : others.length = 0)]
        rfl
  rw [editedFrom, isStart, contribution_of_covered covers, rest,
    List.append_nil]

/-- The end of a line, while everything up to it is as it was. -/
theorem lineEnd_eq {line : Nat} (inside : line ≤ (byteLines bytes).length)
    (last : line = (byteLines bytes).length → after = []) :
    lineEnd (lineStarts bytes)
        (((byteLines bytes).take line).flatten ++ after) line =
      some ((byteLines bytes).take line).flatten.length := by
  rw [lineEnd, length_lineStarts]
  by_cases before : line < (byteLines bytes).length
  · rw [if_pos before, getElem?_lineStarts before]
  · rw [if_neg before, last (by omega), List.append_nil]

theorem EditSpec.apply_eq (edits : List EditSpec)
    (accepted : Accepted (byteLines bytes).length previousEnd edit)
    (last : edit.lastLine = (byteLines bytes).length → after = []) :
    edit.apply (lineStarts bytes)
        (((byteLines bytes).take edit.lastLine).flatten ++ after) =
      some (((byteLines bytes).take (edit.startLine - 1)).flatten ++
        editedFrom (edit :: edits) (edit.startLine - 1)
          (((byteLines bytes).take edit.lastLine).drop (edit.startLine - 1)) ++
        after) := by
  have isAfter := accepted.after
  have ordered := accepted.ordered
  have inside := accepted.inside
  have finish := lineEnd_eq inside last
  generalize isLines : byteLines bytes = lines at *
  have start : (lineStarts bytes)[edit.startLine - 1]? =
      some (lines.take (edit.startLine - 1)).flatten.length := by
    rw [← isLines]
    exact getElem?_lineStarts (by rw [isLines]; omega)
  have earlier : edit.startLine - 1 ≤ edit.lastLine := by omega
  have parts := take_of_le lines earlier
  have length : ((lines.take edit.lastLine).drop
      (edit.startLine - 1)).length = edit.lastLine - (edit.startLine - 1) := by
    rw [List.length_drop, List.length_take]
    omega
  generalize lines.take (edit.startLine - 1) = before at *
  generalize (lines.take edit.lastLine).drop (edit.startLine - 1) = named at *
  rw [parts] at finish ⊢
  cases named with
  | nil =>
      rw [List.length_nil] at length
      omega
  | cons line others =>
      rw [List.length_cons] at length
      rw [editedFrom_named accepted.shape line others (by omega) (by omega),
        List.flatten_append] at *
      cases accepted.shape with
      | replace kind endLine =>
          rw [EditSpec.lastLine, endLine, Option.getD_some] at finish
          simp only [EditSpec.apply, EditSpec.span, start, kind, endLine,
            Option.bind_eq_bind, Option.bind_some, finish]
          rw [splice_middle, EditSpec.contribution, kind]
          simp only [if_true, EditSpec.bytes]
      | delete kind endLine =>
          rw [EditSpec.lastLine, endLine, Option.getD_some] at finish
          simp only [EditSpec.apply, EditSpec.span, start, kind, endLine,
            Option.bind_eq_bind, Option.bind_some, finish]
          rw [splice_middle, EditSpec.contribution, kind]
          rfl
      | insertBefore kind endLine =>
          have single : others = [] := by
            rw [EditSpec.lastLine, endLine, Option.getD_none] at length
            exact List.length_eq_zero_iff.mp (by omega)
          have whole := splice_middle before.flatten []
            ((line :: others).flatten ++ after) edit.bytes
          rw [List.append_nil, ← List.append_assoc before.flatten] at whole
          simp only [EditSpec.apply, EditSpec.span, start, kind,
            Option.bind_eq_bind, Option.bind_some]
          refine whole.trans ?_
          rw [EditSpec.contribution, kind, single, List.flatten_singleton]
          simp only [List.append_assoc]
      | insertAfter kind endLine =>
          rw [EditSpec.lastLine, endLine, Option.getD_none] at finish
          have single : others = [] := by
            rw [EditSpec.lastLine, endLine, Option.getD_none] at length
            exact List.length_eq_zero_iff.mp (by omega)
          have whole := splice_middle (before.flatten ++ (line :: others).flatten)
            [] after edit.bytes
          rw [List.append_nil] at whole
          simp only [EditSpec.apply, EditSpec.span, start, kind,
            Option.bind_eq_bind, Option.bind_some, finish]
          refine whole.trans ?_
          rw [EditSpec.contribution, kind, single, List.flatten_singleton]
          simp only [List.append_assoc]

/-- All the splices, for edits after the lines passed. -/
theorem applyEdits_eq {edits : List EditSpec}
    (checked : checkEdits (byteLines bytes).length passed edits = .ok ())
    (within : passed ≤ (byteLines bytes).length) :
    applyEdits (lineStarts bytes) bytes edits =
      some (((byteLines bytes).take passed).flatten ++
        editedFrom edits passed ((byteLines bytes).drop passed)) := by
  induction edits generalizing passed with
  | nil =>
      have none : editedFrom [] passed ((byteLines bytes).drop passed) =
          ((byteLines bytes).drop passed).flatten :=
        editedFrom_of_uncovered (by simp)
      rw [applyEdits, none, ← List.flatten_append, List.take_append_drop,
        flatten_byteLines]
  | cons edit edits induction =>
      obtain ⟨accepted, rest⟩ := checkEdits_cons_ok_iff.mp checked
      have after := accepted.after
      have ordered := accepted.ordered
      have inside := accepted.inside
      have ended : edit.lastLine = (byteLines bytes).length →
          editedFrom edits edit.lastLine
            ((byteLines bytes).drop edit.lastLine) = [] := by
        intro last
        rw [last, List.drop_length]
        rfl
      rw [applyEdits, induction rest inside, Option.bind_some,
        EditSpec.apply_eq edits accepted ended]
      have before : passed ≤ edit.startLine - 1 := by omega
      have earlier : edit.startLine - 1 ≤ edit.lastLine := by omega
      generalize byteLines bytes = lines at *
      have gap : editedFrom (edit :: edits) passed
            ((lines.take (edit.startLine - 1)).drop passed) =
          ((lines.take (edit.startLine - 1)).drop passed).flatten := by
        apply editedFrom_of_uncovered
        intro other member number later inGap covers
        rw [List.length_drop, List.length_take] at inGap
        have starts := covers.1
        cases List.mem_cons.mp member with
        | inl isEdit =>
            rw [isEdit] at starts
            omega
        | inr isLater =>
            have behind := (accepted_of_checked rest other isLater).after
            omega
      have gapLength : passed +
          ((lines.take (edit.startLine - 1)).drop passed).length =
            edit.startLine - 1 := by
        rw [List.length_drop, List.length_take]
        omega
      have namedLength : edit.startLine - 1 +
          ((lines.take edit.lastLine).drop (edit.startLine - 1)).length =
            edit.lastLine := by
        rw [List.length_drop, List.length_take]
        omega
      have front : (lines.take (edit.startLine - 1)).flatten =
          (lines.take passed).flatten ++
            ((lines.take (edit.startLine - 1)).drop passed).flatten := by
        rw [← List.flatten_append, ← take_of_le lines before]
      rw [drop_of_le lines before, drop_of_le lines earlier, editedFrom_append,
        gap, gapLength, editedFrom_append, namedLength,
        editedFrom_past (Nat.le_refl _), front]
      simp only [List.append_assoc]

end Splice

/-! ## The order of the list -/

theorem byLines_total (left right : EditSpec) :
    byLines left right ∨ byLines right left := by
  unfold byLines
  omega

instance totalByLines : Std.Total byLines := ⟨byLines_total⟩

instance transByLines : IsTrans EditSpec byLines where
  trans left middle right := by
    unfold byLines
    omega

section Order

variable {edits other : List EditSpec} {edit : EditSpec} {lineCount : Nat}

theorem EditSpec.Disjoint.symm {left right : EditSpec}
    (disjoint : left.Disjoint right) : right.Disjoint left :=
  Or.symm disjoint

instance symmDisjoint : Std.Symm EditSpec.Disjoint where
  symm _ _ := EditSpec.Disjoint.symm

/-- A list whose sorted form has passed the checks. -/
structure AcceptedEdits (edits : List EditSpec) : Prop where
  disjoint : edits.Pairwise EditSpec.Disjoint
  positive : ∀ edit ∈ edits, 0 < edit.startLine
  ordered : ∀ edit ∈ edits, edit.startLine ≤ edit.lastLine
  shape : ∀ edit ∈ edits, edit.Shape

theorem AcceptedEdits.of_perm {other : List EditSpec}
    (accepted : AcceptedEdits edits) (perm : other.Perm edits) :
    AcceptedEdits other where
  disjoint :=
    (perm.pairwise_iff EditSpec.Disjoint.symm).mpr accepted.disjoint
  positive edit member := accepted.positive edit (perm.mem_iff.mp member)
  ordered edit member := accepted.ordered edit (perm.mem_iff.mp member)
  shape edit member := accepted.shape edit (perm.mem_iff.mp member)

/-- Exactly these lists pass, once they are sorted. -/
theorem checkEdits_sorted_ok_iff :
    checkEdits lineCount 0 (edits.insertionSort byLines) = .ok () ↔
      AcceptedEdits edits ∧ ∀ edit ∈ edits, edit.lastLine ≤ lineCount := by
  have perm := List.perm_insertionSort byLines edits
  constructor
  · intro checked
    have each := accepted_of_checked checked
    have sorted : AcceptedEdits (edits.insertionSort byLines) := by
      constructor
      · apply (pairwise_of_checked checked).imp
        intro left right before
        exact Or.inl before
      · intro edit member
        exact (each edit member).after
      · intro edit member
        exact (each edit member).ordered
      · intro edit member
        exact (each edit member).shape
    refine ⟨sorted.of_perm perm.symm, ?_⟩
    intro edit member
    exact (each edit (perm.mem_iff.mpr member)).inside
  · rintro ⟨accepted, inside⟩
    have sorted := accepted.of_perm perm
    apply checked_of_accepted
    · intro edit member
      exact
        { after := sorted.positive edit member
          ordered := sorted.ordered edit member
          inside := inside edit (perm.mem_iff.mp member)
          shape := sorted.shape edit member }
    · have ascending := List.pairwise_insertionSort byLines edits
      apply (ascending.and sorted.disjoint).imp_of_mem
      rintro left right isLeft isRight ⟨before, disjoint⟩
      have first := sorted.ordered left isLeft
      have second := sorted.ordered right isRight
      unfold byLines at before
      unfold EditSpec.Disjoint at disjoint
      omega

/-- No two edits cover one line. -/
theorem AcceptedEdits.eq_of_covers (accepted : AcceptedEdits edits)
    {left right : EditSpec} (isLeft : left ∈ edits) (isRight : right ∈ edits)
    {number : Nat} (first : left.Covers number) (second : right.Covers number) :
    left = right := by
  by_contra different
  have disjoint := accepted.disjoint.forall isLeft isRight different
  unfold EditSpec.Disjoint at disjoint
  unfold EditSpec.Covers at first second
  omega

theorem AcceptedEdits.find?_eq (accepted : AcceptedEdits edits)
    (member : edit ∈ edits) {number : Nat} (covers : edit.Covers number) :
    edits.find? (fun edit => decide (edit.Covers number)) = some edit := by
  cases search : edits.find? (fun edit => decide (edit.Covers number)) with
  | none =>
      have uncovered := List.find?_eq_none.mp search edit member
      exact absurd (decide_eq_true covers) uncovered
  | some first =>
      have firstCovers := List.find?_some search
      rw [accepted.eq_of_covers (List.mem_of_find?_eq_some search) member
        (of_decide_eq_true firstCovers) covers]

theorem AcceptedEdits.contribution_eq
    (accepted : AcceptedEdits edits) (member : edit ∈ edits)
    {number : Nat} (covers : edit.Covers number) (line : Bytes) :
    contribution edits number line = edit.contribution number line := by
  rw [contribution, accepted.find?_eq member covers]

theorem AcceptedEdits.contribution_perm
    (accepted : AcceptedEdits edits)
    (accepted' : AcceptedEdits other) (perm : other.Perm edits)
    (number : Nat) (line : Bytes) :
    contribution other number line = contribution edits number line := by
  by_cases covered : ∃ edit ∈ edits, edit.Covers number
  · obtain ⟨edit, member, covers⟩ := covered
    rw [accepted.contribution_eq member covers,
      accepted'.contribution_eq (perm.mem_iff.mpr member) covers]
  · have uncovered : ∀ edit ∈ edits, ¬ edit.Covers number :=
      fun edit member covers => covered ⟨edit, member, covers⟩
    rw [contribution_of_uncovered uncovered, contribution_of_uncovered]
    intro edit member
    exact uncovered edit (perm.mem_iff.mp member)

theorem AcceptedEdits.editedFrom_perm
    (accepted : AcceptedEdits edits)
    (accepted' : AcceptedEdits other) (perm : other.Perm edits)
    (passed : Nat) (lines : List Bytes) :
    editedFrom other passed lines = editedFrom edits passed lines := by
  induction lines generalizing passed with
  | nil => rfl
  | cons line lines induction =>
      rw [editedFrom, editedFrom, induction,
        accepted.contribution_perm accepted' perm]

/-- Sorting forgets the order of an accepted list. -/
theorem AcceptedEdits.insertionSort_eq
    (accepted : AcceptedEdits edits) (perm : other.Perm edits) :
    other.insertionSort byLines = edits.insertionSort byLines := by
  have left := List.perm_insertionSort byLines other
  have right := List.perm_insertionSort byLines edits
  have antisymm : ∀ first second, first ∈ other.insertionSort byLines →
      second ∈ edits.insertionSort byLines → byLines first second →
      byLines second first → first = second := by
    intro first second isFirst isSecond forth back
    by_contra different
    have member : first ∈ edits :=
      perm.mem_iff.mp (left.mem_iff.mp isFirst)
    have member' : second ∈ edits := right.mem_iff.mp isSecond
    have disjoint := accepted.disjoint.forall member member' different
    have ordered := accepted.ordered first member
    have ordered' := accepted.ordered second member'
    unfold EditSpec.Disjoint at disjoint
    unfold byLines at forth back
    omega
  exact List.Perm.eq_of_pairwise antisymm
    (List.pairwise_insertionSort byLines other)
    (List.pairwise_insertionSort byLines edits)
    (left.trans (perm.trans right.symm))

end Order

/-! ## The answer -/

theorem length_byteLines {bytes : Bytes} (some : bytes ≠ []) :
    (byteLines bytes).length +
        (if bytes.getLast? = Option.some 0x0A then 1 else 0) =
      1 + bytes.count 0x0A := by
  induction bytes with
  | nil => exact (some rfl).elim
  | cons byte bytes induction =>
      cases bytes with
      | nil =>
          by_cases ends : byte = 0x0A
          · rw [ends]
            decide
          · simp [byteLines, splitInclusive, ends]
      | cons next bytes =>
          have rest := induction (List.cons_ne_nil _ _)
          have last : (byte :: next :: bytes).getLast? =
              (next :: bytes).getLast? := List.getLast?_cons_cons
          rw [last]
          by_cases ends : byte = 0x0A
          · rw [ends, byteLines_feed, List.length_cons, List.count_cons_self]
            omega
          · rw [List.count_cons_of_ne ends]
            cases split : byteLines (next :: bytes) with
            | nil => exact (byteLines_ne_nil (List.cons_ne_nil _ _) split).elim
            | cons line lines =>
                rw [split] at rest
                rw [byteLines_letter ends split]
                exact rest

theorem linesAfter_eq (bytes : Bytes) :
    linesAfter bytes = (byteLines bytes).length := by
  by_cases none : bytes = []
  · rw [linesAfter, if_pos none, none]
    rfl
  · have count := length_byteLines none
    rw [linesAfter, if_neg none]
    omega

section Answer

variable {library : WriteLibrary} {bytes : Bytes} {expectedDigest : Text}
  {edits : List EditSpec}

theorem applyEdits_sorted
    (checked : checkEdits (lineStarts bytes).length 0
      (edits.insertionSort byLines) = .ok ()) :
    applyEdits (lineStarts bytes) bytes (edits.insertionSort byLines) =
      some (edited edits (byteLines bytes)) := by
  have accepted := (checkEdits_sorted_ok_iff.mp checked).1
  have perm := List.perm_insertionSort byLines edits
  rw [length_lineStarts] at checked
  rw [applyEdits_eq checked (Nat.zero_le _), edited,
    accepted.editedFrom_perm (accepted.of_perm perm) perm]
  rfl

theorem contentBytes_perm {other : List EditSpec} (perm : other.Perm edits) :
    contentBytes other = contentBytes edits :=
  ((perm.filterMap _).map _).sum_nat

/-- What an answer without failure holds. -/
structure EditOutcome (library : WriteLibrary) (bytes : Bytes)
    (edits : List EditSpec) (new : Bytes) (response : FileResponse) :
    Prop where
  accepted : AcceptedEdits edits
  isEdited : new = edited edits (byteLines bytes)
  linesBefore : response.linesBefore = some (byteLines bytes).length
  linesAfter : response.linesAfter = some (byteLines new).length
  digest : response.digest = some (fileDigest library new)

/-- The file is the expected text, and the edits fit it. -/
structure EditsFit (library : WriteLibrary) (bytes : Bytes)
    (expectedDigest : Text) (edits : List EditSpec) : Prop where
  expected : fileDigest library bytes = expectedDigest
  text : (fromUtf8 bytes).isSome
  short : contentBytes edits ≤ maxEditContentBytes
  accepted : AcceptedEdits edits
  inside : ∀ edit ∈ edits, edit.lastLine ≤ (byteLines bytes).length
  size : (edited edits (byteLines bytes)).length ≤ maxEditFileBytes

/-- Nothing panics, and what fits is not refused. -/
theorem editBytes_cases (library : WriteLibrary) (bytes : Bytes)
    (expectedDigest : Text) (edits : List EditSpec) :
    (¬ EditsFit library bytes expectedDigest edits ∧ ∃ failure,
      editBytes library bytes expectedDigest edits = some (.error failure)) ∨
    (EditsFit library bytes expectedDigest edits ∧ ∃ new response,
      editBytes library bytes expectedDigest edits =
        some (.ok (new, response)) ∧
      EditOutcome library bytes edits new response) := by
  unfold editBytes
  by_cases stale : fileDigest library bytes ≠ expectedDigest
  · rw [if_pos stale]
    exact .inl ⟨fun fit => stale fit.expected, _, rfl⟩
  rw [if_neg stale]
  by_cases noText : (fromUtf8 bytes).isNone
  · rw [if_pos noText]
    refine .inl ⟨?_, _, rfl⟩
    intro fit
    have text := fit.text
    rw [Option.isNone_iff_eq_none.mp noText] at text
    cases text
  rw [if_neg noText]
  by_cases long : maxEditContentBytes < contentBytes edits
  · rw [if_pos long]
    exact .inl ⟨fun fit => absurd fit.short (Nat.not_le_of_lt long), _, rfl⟩
  rw [if_neg long]
  dsimp only
  have passes : checkEdits (byteLines bytes).length 0
        (edits.insertionSort byLines) = .ok () ↔ _ :=
    checkEdits_sorted_ok_iff
  rw [length_lineStarts]
  cases checked : checkEdits (byteLines bytes).length 0
      (edits.insertionSort byLines) with
  | error failure =>
      refine .inl ⟨?_, _, rfl⟩
      intro fit
      rw [passes.mpr ⟨fit.accepted, fit.inside⟩] at checked
      cases checked
  | ok passed =>
      obtain ⟨accepted, inside⟩ := passes.mp checked
      rw [← length_lineStarts] at checked
      dsimp only
      rw [applyEdits_sorted checked]
      dsimp only
      by_cases large :
          maxEditFileBytes < (edited edits (byteLines bytes)).length
      · rw [if_pos large]
        exact .inl ⟨fun fit => absurd fit.size (Nat.not_le_of_lt large), _, rfl⟩
      · rw [if_neg large]
        refine .inr ⟨?_, _, _, rfl, ?_⟩
        · constructor
          · exact not_not.mp stale
          · exact Option.isSome_iff_ne_none.mpr
              fun none => noText (Option.isNone_iff_eq_none.mpr none)
          · exact Nat.le_of_not_lt long
          · exact accepted
          · exact inside
          · exact Nat.le_of_not_lt large
        · constructor
          · exact accepted
          · rfl
          · rfl
          · rw [linesAfter_eq]
          · rfl

theorem editBytes_ok {new : Bytes} {response : FileResponse}
    (done : editBytes library bytes expectedDigest edits =
      some (.ok (new, response))) :
    EditOutcome library bytes edits new response := by
  cases editBytes_cases library bytes expectedDigest edits with
  | inl failed =>
      obtain ⟨-, failure, failed⟩ := failed
      rw [failed] at done
      cases done
  | inr edited =>
      obtain ⟨-, _, _, isDone, outcome⟩ := edited
      rw [isDone] at done
      cases done
      exact outcome

theorem editBytes_perm (accepted : AcceptedEdits edits)
    {other : List EditSpec} (perm : other.Perm edits) :
    editBytes library bytes expectedDigest other =
      editBytes library bytes expectedDigest edits := by
  unfold editBytes
  rw [contentBytes_perm perm, accepted.insertionSort_eq perm]

end Answer

end Electrosphere.Agent
