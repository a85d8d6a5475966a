import Electrosphere.Agent.Executions
import Electrosphere.Agent.FileGlob
import Electrosphere.Agent.FileRead
import Electrosphere.Domain.SessionManager

/-!
# Paths on the host and in the guest

The tools accept paths below `/workspace` and send what is left of them to the
guest, which checks it again.
-/

namespace Electrosphere

open Foundation Agent

/-! ## Normalisation on the host -/

def workspaceRoot : Text := "/workspace".toList

def hasUnsafeComponent (path : Text) : Bool :=
  (path.splitOn '/').any fun component =>
    component == [] || component == ['.'] || component == ['.', '.']

/-- `includes('\0') || includes('://')`. -/
def isInvalid (path : Text) : Bool :=
  path.contains (Char.ofNat 0) || decide ("://".toList <:+: path)

/-- What is left of a path below `/workspace`. -/
def insideWorkspace (outside : String) (path : Text) : Except Thrown Text :=
  if "/workspace/".toList <+: path then .ok (path.drop "/workspace/".length)
  else if path.head? = some '/' then .error (.coded .invalidArgument outside)
  else .ok path

def checkPath (normalized : Text) (allowRoot : Bool) : Except Thrown Text :=
  if normalized = [] then
    if allowRoot then .ok []
    else
      .error (.coded .invalidArgument
        "Workspace root is not valid for this operation")
  else if hasUnsafeComponent normalized then
    .error (.coded .invalidArgument "Path contains an unsafe component")
  else .ok normalized

def normalizeWorkspacePath (path : Text) (allowRoot : Bool) :
    Except Thrown Text :=
  if isInvalid path then .error (.coded .invalidArgument "Path is invalid")
  else if path = ['.'] ∨ path = workspaceRoot then checkPath [] allowRoot
  else
    match insideWorkspace "Absolute paths must be inside /workspace" path with
    | .error error => .error error
    | .ok normalized => checkPath normalized allowRoot

/-- The pattern of every file. -/
def everyFile : Text := "**/*".toList

def normalizeWorkspacePattern (pattern : Text) : Except Thrown Text :=
  if isInvalid pattern then .error (.coded .invalidArgument "Pattern is invalid")
  else if pattern = ['.'] ∨ pattern = workspaceRoot then .ok everyFile
  else
    match insideWorkspace "Absolute patterns must be inside /workspace" pattern
    with
    | .error error => .error error
    | .ok normalized =>
        if normalized = [] ∨ hasUnsafeComponent normalized then
          .error (.coded .invalidArgument "Pattern contains an unsafe component")
        else .ok normalized

/-- The `workdir` that the tool `shell` makes of a normalised path. -/
def shellWorkdir (relativeWorkdir : Text) : String :=
  if relativeWorkdir = [] then "/workspace"
  else "/workspace/" ++ String.ofList relativeWorkdir

/-! ## Where a path leads -/

/-- The directory that names lead to from another. -/
def descend (location : List Text) : List Text → List Text
  | [] => location
  | name :: rest =>
      if name = [] ∨ name = ['.'] then descend location rest
      else if name = ['.', '.'] then descend location.dropLast rest
      else descend (location ++ [name]) rest

/-- A path, joined to a directory, leads out of it nowhere on the way. -/
def StaysInside (root : List Text) (path : Text) : Prop :=
  ∀ count, root <+: descend root ((path.splitOn '/').take count)

/-- What a normalisation on the host and the check of the guest owe each
other. -/
structure PathAgreement (normalize : Text → Except Thrown Text)
    (accepts : Text → FileResult Unit) : Prop where
  idempotent : ∀ path normalized, normalize path = .ok normalized →
    normalize normalized = .ok normalized
  accepted : ∀ path normalized, normalize path = .ok normalized →
    accepts normalized = .ok ()
  confined : ∀ path normalized, normalize path = .ok normalized →
    StaysInside ["workspace".toList] normalized
  unchanged : ∀ path, accepts path = .ok () → ¬ "://".toList <:+: path →
    normalize path = .ok path

/-! ## Safe paths -/

/-- A text that both sides take as the path of something in the workspace. -/
structure SafePath (path : Text) : Prop where
  notEmpty : path ≠ []
  valid : isInvalid path = false
  safe : hasUnsafeComponent path = false

theorem isInvalid_eq_false_iff {path : Text} :
    isInvalid path = false ↔
      Char.ofNat 0 ∉ path ∧ ¬ "://".toList <:+: path := by
  simp [isInvalid]

theorem isInvalid_of_suffix {path rest : Text} (isSuffix : rest <:+ path)
    (valid : isInvalid path = false) : isInvalid rest = false := by
  rw [isInvalid_eq_false_iff] at valid ⊢
  constructor
  · intro member
    exact valid.1 (isSuffix.subset member)
  · intro isInfix
    exact valid.2 (isInfix.trans isSuffix.isInfix)

theorem mem_components {path component : Text}
    (safe : hasUnsafeComponent path = false)
    (member : component ∈ path.splitOn '/') :
    component ≠ [] ∧ component ≠ ['.'] ∧ component ≠ ['.', '.'] := by
  have passes := List.any_eq_false.mp safe component member
  simpa [not_or, and_assoc] using passes

theorem insideWorkspace_suffix {outside : String} {path normalized : Text}
    (inside : insideWorkspace outside path = .ok normalized) :
    normalized <:+ path := by
  rw [insideWorkspace] at inside
  split at inside
  · cases inside
    exact List.drop_suffix _ _
  · split at inside
    · cases inside
    · cases inside
      exact List.suffix_refl _

namespace SafePath

variable {path : Text}

theorem head_ne (safePath : SafePath path) : path.head? ≠ some '/' := by
  intro isSlash
  cases path with
  | nil => cases isSlash
  | cons character rest =>
      cases isSlash
      have split : ('/' :: rest).splitOn '/' = [] :: rest.splitOn '/' := by
        rw [List.splitOn_cons_eq_if_modifyHead]
        simp
      have member : [] ∈ ('/' :: rest).splitOn '/' := by
        rw [split]
        exact List.mem_cons_self
      exact (mem_components safePath.safe member).1 rfl

theorem ne_here (safePath : SafePath path) : path ≠ ['.'] := by
  rintro rfl
  exact absurd safePath.safe (by decide)

theorem ne_root (safePath : SafePath path) : path ≠ workspaceRoot := by
  rintro rfl
  exact safePath.head_ne rfl

theorem insideWorkspace_eq (safePath : SafePath path) (outside : String) :
    insideWorkspace outside path = .ok path := by
  have notBelow : ¬ "/workspace/".toList <+: path := by
    rintro ⟨rest, rfl⟩
    exact safePath.head_ne rfl
  rw [insideWorkspace, if_neg notBelow, if_neg safePath.head_ne]

theorem normalizeWorkspacePath_eq (safePath : SafePath path)
    (allowRoot : Bool) : normalizeWorkspacePath path allowRoot = .ok path := by
  have notRoot : ¬ (path = ['.'] ∨ path = workspaceRoot) :=
    not_or.mpr ⟨safePath.ne_here, safePath.ne_root⟩
  rw [normalizeWorkspacePath, safePath.valid, if_neg Bool.false_ne_true,
    if_neg notRoot, safePath.insideWorkspace_eq]
  dsimp only
  rw [checkPath, if_neg safePath.notEmpty, safePath.safe,
    if_neg Bool.false_ne_true]

theorem normalizeWorkspacePattern_eq (safePath : SafePath path) :
    normalizeWorkspacePattern path = .ok path := by
  have notRoot : ¬ (path = ['.'] ∨ path = workspaceRoot) :=
    not_or.mpr ⟨safePath.ne_here, safePath.ne_root⟩
  have accepted : ¬ (path = [] ∨ hasUnsafeComponent path = true) := by
    rw [safePath.safe]
    exact not_or.mpr ⟨safePath.notEmpty, Bool.false_ne_true⟩
  rw [normalizeWorkspacePattern, safePath.valid, if_neg Bool.false_ne_true,
    if_neg notRoot, safePath.insideWorkspace_eq]
  dsimp only
  rw [if_neg accepted]

theorem no_nul (safePath : SafePath path) :
    path.contains (Char.ofNat 0) = false := by
  have absent := (isInvalid_eq_false_iff.mp safePath.valid).1
  simpa using absent

theorem validateRelative_eq (safePath : SafePath path) (allowRoot : Bool) :
    validateRelative path allowRoot = .ok () := by
  have safe := safePath.safe
  rw [hasUnsafeComponent] at safe
  have relative : (path.head? == some '/') = false := by
    rw [beq_eq_false_iff_ne]
    exact safePath.head_ne
  rw [validateRelative, if_neg safePath.notEmpty, safePath.no_nul, relative,
    safe]
  rfl

theorem validatePattern_eq (safePath : SafePath path) :
    validatePattern path = .ok () := by
  have safe := safePath.safe
  rw [hasUnsafeComponent] at safe
  have relative : ¬ (path = [] ∨ path.head? = some '/' ∨
      path.contains (Char.ofNat 0) = true) := by
    rw [safePath.no_nul]
    exact not_or.mpr ⟨safePath.notEmpty,
      not_or.mpr ⟨safePath.head_ne, Bool.false_ne_true⟩⟩
  rw [validatePattern, if_neg relative, safe]
  rfl

end SafePath

theorem prefix_descend {root names : List Text}
    (safe : ∀ name ∈ names, name ≠ [] ∧ name ≠ ['.'] ∧ name ≠ ['.', '.']) :
    root <+: descend root names := by
  induction names generalizing root with
  | nil => exact List.prefix_refl root
  | cons name names induction =>
      obtain ⟨notEmpty, notHere, notUp⟩ := safe name List.mem_cons_self
      have later : root ++ [name] <+: descend (root ++ [name]) names :=
        induction fun next member =>
          safe next (List.mem_cons_of_mem name member)
      rw [descend, if_neg (not_or.mpr ⟨notEmpty, notHere⟩), if_neg notUp]
      exact (List.prefix_append root [name]).trans later

theorem staysInside_of_safe {path : Text}
    (safe : hasUnsafeComponent path = false) (root : List Text) :
    StaysInside root path := by
  intro count
  apply prefix_descend
  intro name member
  exact mem_components safe (List.mem_of_mem_take member)

theorem staysInside_nil (root : List Text) : StaysInside root [] := by
  intro count
  rw [List.splitOn_nil]
  cases count with
  | zero => exact List.prefix_refl root
  | succ count => simp [descend]

/-! ## What the normalisations return -/

theorem checkPath_cases {normalized path : Text} {allowRoot : Bool}
    (valid : isInvalid normalized = false)
    (checks : checkPath normalized allowRoot = .ok path) :
    (path = [] ∧ allowRoot = true) ∨ SafePath path := by
  rw [checkPath] at checks
  by_cases empty : normalized = []
  · rw [if_pos empty] at checks
    cases allowRoot with
    | false => cases checks
    | true =>
        cases checks
        exact .inl ⟨rfl, rfl⟩
  · rw [if_neg empty] at checks
    cases safe : hasUnsafeComponent normalized with
    | true =>
        rw [safe] at checks
        cases checks
    | false =>
        rw [safe] at checks
        cases checks
        exact .inr ⟨empty, valid, safe⟩

theorem normalizeWorkspacePath_cases {path normalized : Text}
    {allowRoot : Bool}
    (returns : normalizeWorkspacePath path allowRoot = .ok normalized) :
    (normalized = [] ∧ allowRoot = true) ∨ SafePath normalized := by
  rw [normalizeWorkspacePath] at returns
  cases valid : isInvalid path with
  | true =>
      rw [valid] at returns
      cases returns
  | false =>
      rw [valid, if_neg Bool.false_ne_true] at returns
      split at returns
      · exact checkPath_cases (by decide) returns
      · split at returns
        · cases returns
        · next rest inside =>
            have isSuffix := insideWorkspace_suffix inside
            exact checkPath_cases (isInvalid_of_suffix isSuffix valid) returns

theorem safePath_everyFile : SafePath everyFile where
  notEmpty := by decide
  valid := by decide
  safe := by decide

theorem normalizeWorkspacePattern_safe {pattern normalized : Text}
    (returns : normalizeWorkspacePattern pattern = .ok normalized) :
    SafePath normalized := by
  rw [normalizeWorkspacePattern] at returns
  cases valid : isInvalid pattern with
  | true =>
      rw [valid] at returns
      cases returns
  | false =>
      rw [valid, if_neg Bool.false_ne_true] at returns
      split at returns
      · cases returns
        exact safePath_everyFile
      · split at returns
        · cases returns
        · next rest inside =>
            split at returns
            · cases returns
            · next accepted =>
                cases returns
                obtain ⟨notEmpty, safe⟩ := not_or.mp accepted
                exact ⟨notEmpty,
                  isInvalid_of_suffix (insideWorkspace_suffix inside) valid,
                  Bool.eq_false_iff.mpr safe⟩

/-! ## What the guest accepts -/

theorem validateRelative_cases {path : Text} {allowRoot : Bool}
    (accepts : validateRelative path allowRoot = .ok ())
    (noScheme : ¬ "://".toList <:+: path) :
    (path = [] ∧ allowRoot = true) ∨ SafePath path := by
  rw [validateRelative] at accepts
  by_cases empty : path = []
  · cases allowRoot with
    | false =>
        rw [if_pos empty] at accepts
        cases accepts
    | true => exact .inl ⟨empty, rfl⟩
  · rw [if_neg empty] at accepts
    split at accepts
    · cases accepts
    · next relative =>
        split at accepts
        · cases accepts
        · next safe =>
            right
            constructor
            · exact empty
            · rw [isInvalid_eq_false_iff]
              have noNul : Char.ofNat 0 ∉ path := by
                simp only [Bool.or_eq_true, not_or] at relative
                simpa using relative.1
              exact ⟨noNul, noScheme⟩
            · exact Bool.eq_false_iff.mpr safe

theorem validatePattern_safe {pattern : Text}
    (accepts : validatePattern pattern = .ok ())
    (noScheme : ¬ "://".toList <:+: pattern) : SafePath pattern := by
  rw [validatePattern] at accepts
  split at accepts
  · cases accepts
  · next relative =>
      obtain ⟨notEmpty, rest⟩ := not_or.mp relative
      have noNul := (not_or.mp rest).2
      split at accepts
      · cases accepts
      · next safe =>
          constructor
          · exact notEmpty
          · rw [isInvalid_eq_false_iff]
            exact ⟨by simpa using noNul, noScheme⟩
          · exact Bool.eq_false_iff.mpr safe

/-! ## Agreement -/

theorem pathAgreement (allowRoot : Bool) :
    PathAgreement (normalizeWorkspacePath · allowRoot)
      (validateRelative · allowRoot) := by
  have root : allowRoot = true →
      normalizeWorkspacePath [] allowRoot = .ok [] := by
    rintro rfl
    rfl
  constructor
  · intro path normalized returns
    rcases normalizeWorkspacePath_cases returns with ⟨rfl, allowed⟩ | safePath
    · exact root allowed
    · exact safePath.normalizeWorkspacePath_eq allowRoot
  · intro path normalized returns
    rcases normalizeWorkspacePath_cases returns with ⟨rfl, rfl⟩ | safePath
    · rfl
    · exact safePath.validateRelative_eq allowRoot
  · intro path normalized returns
    rcases normalizeWorkspacePath_cases returns with ⟨rfl, -⟩ | safePath
    · exact staysInside_nil _
    · exact staysInside_of_safe safePath.safe _
  · intro path accepts noScheme
    rcases validateRelative_cases accepts noScheme with ⟨rfl, allowed⟩ | safePath
    · exact root allowed
    · exact safePath.normalizeWorkspacePath_eq allowRoot

theorem patternAgreement :
    PathAgreement normalizeWorkspacePattern validatePattern := by
  constructor
  · intro pattern normalized returns
    exact (normalizeWorkspacePattern_safe returns).normalizeWorkspacePattern_eq
  · intro pattern normalized returns
    exact (normalizeWorkspacePattern_safe returns).validatePattern_eq
  · intro pattern normalized returns
    exact staysInside_of_safe (normalizeWorkspacePattern_safe returns).safe _
  · intro pattern accepts noScheme
    exact (validatePattern_safe accepts noScheme).normalizeWorkspacePattern_eq

theorem validCwd_shellWorkdir (path : Text) :
    Guest.validCwd (shellWorkdir path) = true := by
  rw [shellWorkdir]
  split
  · decide
  · rw [Guest.validCwd, String.toList_append, String.toList_ofList]
    simp

theorem workspace_paths_agree (allowRoot : Bool) :
    PathAgreement (normalizeWorkspacePath · allowRoot)
        (validateRelative · allowRoot) ∧
      PathAgreement normalizeWorkspacePattern validatePattern ∧
      ∀ path normalized, normalizeWorkspacePath path allowRoot = .ok normalized →
        Guest.validCwd (shellWorkdir normalized) = true := by
  refine ⟨pathAgreement allowRoot, patternAgreement, ?_⟩
  intro path normalized _
  exact validCwd_shellWorkdir normalized

end Electrosphere
