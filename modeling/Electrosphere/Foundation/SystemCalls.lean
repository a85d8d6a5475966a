import Electrosphere.Foundation.FileSystem

/-!
# System calls on a file system

A call names what it works on by a path, which the kernel resolves one name
after the other: `..` leads to the directory above the one actually reached,
and a symbolic link is replaced by its target.  A process without privileges
needs the owner's permissions.
-/

namespace Foundation

namespace FileSystem

inductive Errno where
  | noEntry
  | alreadyExists
  | notDirectory
  | accessDenied
  | notPermitted
  | nameTooLong
  | tooManyLinks
  deriving DecidableEq

/-- A process owns the files it works on.  File systems refuse some names. -/
structure Process where
  privileged : Bool
  now : Timestamp
  refuses : Location → Bool

namespace Process

/-- `S_IXUSR` -/
def maySearch (mode : Nat) : Bool := mode.testBit 6

/-- `S_IWUSR` -/
def mayWrite (mode : Nat) : Bool := mode.testBit 7

/-- Whether names in a directory can be looked up. -/
def mayEnter (process : Process) (fs : FileSystem) (location : Location) :
    Bool :=
  process.privileged ||
    match fs.node location with
    | some (.directory mode _) => maySearch mode
    | _ => false

/-- Whether names in a directory can be added and removed. -/
def mayChange (process : Process) (fs : FileSystem) (location : Location) :
    Bool :=
  process.privileged ||
    match fs.node location with
    | some (.directory mode _) => mayWrite mode && maySearch mode
    | _ => false

end Process

/-- The number of symbolic links that one path may lead through. -/
def maxLinks : Nat := 40

/-- The location that a path leads to.  Only its last name may be absent. -/
def resolve (process : Process) (fs : FileSystem) (follow : Bool)
    (links : Nat) (location : Location) (names : List Name) :
    Except Errno Location :=
  match names with
  | [] => .ok location
  | name :: rest =>
      if name = [] ∨ name = here then
        resolve process fs follow links location rest
      else if process.mayEnter fs location = false then .error .accessDenied
      else if name = up then
        resolve process fs follow links location.dropLast rest
      else
        match fs.node (location ++ [name]) with
        | none =>
            if rest = [] then .ok (location ++ [name]) else .error .noEntry
        | some (.directory _ _) =>
            resolve process fs follow links (location ++ [name]) rest
        | some (.symlink target _) =>
            if rest = [] ∧ follow = false then .ok (location ++ [name])
            else
              match links with
              | 0 => .error .tooManyLinks
              | links + 1 =>
                  resolve process fs follow links
                    (if target.head? = some slash then [] else location)
                    (components target ++ rest)
        | some _ =>
            if rest = [] then .ok (location ++ [name])
            else .error .notDirectory
termination_by (links, names.length)

/-- A new node under a name that is still free. -/
def create (process : Process) (fs : FileSystem) (location : Location)
    (held : Node) (extra : List Inode) : Except Errno FileSystem :=
  if (fs.node location).isSome then .error .alreadyExists
  else if process.mayChange fs location.dropLast = false then
    .error .accessDenied
  else if process.refuses location then .error .nameTooLong
  else if possible : fs.Free location.dropLast (location.getLastD []) ∧
      held.Fits (fs.inodes ++ extra).length then
    .ok ((fs.place _ _ held extra possible.1 possible.2).adjust
      location.dropLast id fun _ => process.now)
  else .error .noEntry

section Calls

variable (process : Process) (fs : FileSystem) (base : Location)

def mkdir (path : List Name) (mode : Nat) : Except Errno FileSystem := do
  let location ← resolve process fs false maxLinks base path
  create process fs location (.directory mode process.now) []

/-- `open` with `O_CREAT | O_EXCL | O_NOFOLLOW`. -/
def createFile (path : List Name) (mode : Nat) : Except Errno FileSystem := do
  let location ← resolve process fs false maxLinks base path
  create process fs location (.file fs.inodes.length)
    [{ mode, mtime := process.now, content := [] }]

def symlink (target : List UInt8) (path : List Name) :
    Except Errno FileSystem := do
  let location ← resolve process fs false maxLinks base path
  create process fs location (.symlink target process.now) []

def link (existing path : List Name) : Except Errno FileSystem := do
  let source ← resolve process fs false maxLinks base existing
  let location ← resolve process fs false maxLinks base path
  match fs.node source with
  | some (.file inode) => create process fs location (.file inode) []
  | some _ => .error .notPermitted
  | none => .error .noEntry

def setAttributes (follow : Bool) (path : List Name) (mode : Nat → Nat)
    (mtime : Timestamp → Timestamp) : Except Errno FileSystem := do
  let location ← resolve process fs follow maxLinks base path
  if (fs.node location).isSome then .ok (fs.adjust location mode mtime)
  else .error .noEntry

def chmod (path : List Name) (mode : Nat) : Except Errno FileSystem :=
  setAttributes process fs base true path (fun _ => mode) id

def utimes (path : List Name) (time : Timestamp) : Except Errno FileSystem :=
  setAttributes process fs base true path id fun _ => time

def lutimes (path : List Name) (time : Timestamp) : Except Errno FileSystem :=
  setAttributes process fs base false path id fun _ => time

end Calls

/-! ## Resolving without links -/

section Resolve

variable {process : Process} {fs : FileSystem} {follow : Bool} {links : Nat}
  {base location : Location} {name : Name} {names rest : List Name}

@[simp] theorem resolve_nil :
    resolve process fs follow links location [] = .ok location := by
  rw [resolve]

theorem resolve_enter (valid : ValidName name)
    (enters : process.mayEnter fs location = true)
    (isDirectory : fs.isDirectory (location ++ [name]) = true) :
    resolve process fs follow links location (name :: rest) =
      resolve process fs follow links (location ++ [name]) rest := by
  obtain ⟨mode, mtime, found⟩ := FileSystem.isDirectory_iff.mp isDirectory
  rw [resolve, if_neg (by simp [valid.notEmpty, valid.notHere]),
    if_neg (by simp [enters]), if_neg valid.notUp, found]

theorem resolve_last (valid : ValidName name)
    (enters : process.mayEnter fs location = true)
    (stays : follow = false ∨ fs.isSymlink (location ++ [name]) = false) :
    resolve process fs follow links location [name] =
      .ok (location ++ [name]) := by
  rw [resolve, if_neg (by simp [valid.notEmpty, valid.notHere]),
    if_neg (by simp [enters]), if_neg valid.notUp]
  cases found : fs.node (location ++ [name]) with
  | none => rfl
  | some held =>
      cases held with
      | directory mode mtime => exact resolve_nil
      | file inode => rfl
      | other mode mtime => rfl
      | symlink target mtime =>
          have isFalse : follow = false := by
            apply stays.resolve_right
            rw [isSymlink, found]
            simp
          simp only [isFalse, and_self, if_true]

/-- A path through directories leads where its names say. -/
theorem resolve_concat {directory : List Name} (valid : ValidName name)
    (enters : ∀ above, above <+: directory →
      process.mayEnter fs (base ++ above) = true)
    (isDirectory : fs.isDirectory (base ++ directory) = true)
    (stays : follow = false ∨
      fs.isSymlink (base ++ directory ++ [name]) = false) :
    resolve process fs follow links base (directory ++ [name]) =
      .ok (base ++ directory ++ [name]) := by
  induction directory generalizing base with
  | nil =>
      rw [List.append_nil] at stays ⊢
      apply resolve_last valid _ stays
      have entered := enters [] List.nil_prefix
      rwa [List.append_nil] at entered
  | cons first directory induction =>
      have split : base ++ first :: directory = base ++ [first] ++ directory := by
        simp
      rw [split] at isDirectory stays ⊢
      have firstValid : ValidName first := by
        apply validName_of_mem (isSome_of_isDirectory isDirectory)
        simp
      have firstDirectory : fs.isDirectory (base ++ [first]) = true := by
        by_cases last : directory = []
        · rwa [last, List.append_nil] at isDirectory
        · exact isDirectory_of_append last (isSome_of_isDirectory isDirectory)
      have entered := enters [] List.nil_prefix
      rw [List.append_nil] at entered
      rw [List.cons_append, resolve_enter firstValid entered firstDirectory]
      apply induction _ isDirectory stays
      intro above isAbove
      have enters := enters (first :: above)
        (List.cons_prefix_cons.mpr ⟨rfl, isAbove⟩)
      rwa [List.append_cons] at enters

/-- A path that meets no link leads where its names say, if anywhere. -/
theorem eq_of_resolve (valid : ∀ name ∈ names, ValidName name)
    (noLink : ∀ above, above <+: names → (above ≠ names ∨ follow = true) →
      fs.isSymlink (base ++ above) = false)
    (resolved : resolve process fs follow links base names = .ok location) :
    location = base ++ names := by
  induction names generalizing base with
  | nil =>
      rw [resolve_nil] at resolved
      cases resolved
      rw [List.append_nil]
  | cons first rest induction =>
      obtain ⟨firstValid, restValid⟩ := List.forall_mem_cons.mp valid
      have later (next : resolve process fs follow links (base ++ [first])
          rest = .ok location) : location = base ++ first :: rest := by
        rw [induction restValid _ next]
        · simp
        · intro above isAbove strict
          have noLink := noLink (first :: above)
            (List.cons_prefix_cons.mpr ⟨rfl, isAbove⟩)
            (strict.imp_left fun different same => different
              (List.cons.inj same).2)
          rwa [List.append_cons] at noLink
      rw [resolve, if_neg (by simp [firstValid.notEmpty, firstValid.notHere])]
        at resolved
      split at resolved
      · cases resolved
      rw [if_neg firstValid.notUp] at resolved
      split at resolved
      · split at resolved
        case isTrue isLast =>
          cases resolved
          rw [isLast]
        case isFalse => cases resolved
      · exact later resolved
      · rename_i target mtime found
        split at resolved
        case isTrue isLast =>
          cases resolved
          rw [isLast.1]
        case isFalse follows =>
          have isLink : fs.isSymlink (base ++ [first]) = true := by
            rw [isSymlink, found]
          rw [noLink [first] (List.cons_prefix_cons.mpr
            ⟨rfl, List.nil_prefix⟩) ?_] at isLink
          · cases isLink
          · by_cases isLast : rest = []
            · right
              simpa [isLast] using follows
            · left
              simpa using Ne.symm isLast
      · split at resolved
        case isTrue isLast =>
          cases resolved
          rw [isLast]
        case isFalse => cases resolved

end Resolve

end FileSystem

end Foundation
