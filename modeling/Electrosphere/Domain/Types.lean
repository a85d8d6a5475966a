import Mathlib.Data.Finset.Attr

/-!
# Vocabulary of the daemon

The closed string types of the source become enumerations, digests carry the
proof that they are written in hexadecimal digits, and thrown values are kept
apart as service errors and plain errors, because the code normalises the
latter when it stores or reports them.
-/

namespace Electrosphere

/-- A content digest `sha256:…`, given by the text after its prefix.  The
length of the text is left open so that a collision-free digest can exist. -/
structure Digest where
  hex : String
  isHex : hex.toList.all (fun letter =>
    letter.isDigit || ('a' ≤ letter && letter ≤ 'f')) = true
  deriving DecidableEq

namespace Digest

def text (digest : Digest) : String := "sha256:" ++ digest.hex

theorem ext {left right : Digest} (same : left.hex = right.hex) :
    left = right := by
  cases left
  cases right
  simpa using same

/-- No digest contains the separator of the hashed messages. -/
theorem nul_not_mem_text (digest : Digest) :
    '\x00' ∉ digest.text.toList := by
  have hexadecimal := digest.isHex
  rw [List.all_eq_true] at hexadecimal
  intro member
  simp only [text, String.toList_append, List.mem_append] at member
  rcases member with inPrefix | inHex
  · revert inPrefix
    decide
  · have := hexadecimal _ inHex
    revert this
    decide

theorem text_injective {left right : Digest} (same : left.text = right.text) :
    left = right := by
  apply ext
  have lists := congrArg String.toList same
  simp only [text, String.toList_append, List.append_cancel_left_eq] at lists
  exact String.toList_inj.mp lists

/-! SHA-256 of the short files that the sample runs share. -/

def ofNothing : Digest where
  hex := "e3b0c44298fc1c149afbf4c8996fb92427ae41e4649b934ca495991b7852b855"
  isHex := by decide

/-- Of the file `a`. -/
def ofLetter : Digest where
  hex := "ca978112ca1bbdcafac231b39a23dc4da786eff8147c4e72b9807785afee48bb"
  isHex := by decide

/-- Of one line, `a`. -/
def ofOneLine : Digest where
  hex := "87428fc522803d31065e7bce3cf03fe475096631e5e07bbd7a0fde60c4cf25c7"
  isHex := by decide

/-- Of two lines, `a` and `b`. -/
def ofTwoLines : Digest where
  hex := "911169ddaaf146aff539f58c26c489af3b892dff0fe283c1c264c65ae5aa59a2"
  isHex := by decide

end Digest

/-- A value of `randomUUID`.  Identifiers are drawn from a counter, so two
draws never coincide. -/
abbrev Uuid := Nat

abbrev ThreadId := String
abbrev TurnId := String
abbrev InstanceId := Uuid
abbrev WorkspaceId := Uuid
abbrev LeaseId := Uuid

inductive Backend where
  | docker
  | firecracker
  deriving DecidableEq

/-- `TurnMode` of a turn and `SandboxKind` of an instance. -/
inductive TurnMode where
  | instant
  | durable
  deriving DecidableEq

inductive InstanceState where
  | provisioning
  | ready
  | running
  | committing
  | terminating
  | terminated
  | failed
  | lost
  deriving DecidableEq

inductive TurnState where
  | starting
  | opened
  | finishing
  | finished
  | failed
  deriving DecidableEq

inductive NetworkProfile where
  | none
  | egress
  deriving DecidableEq

structure ResourceProfile where
  memoryMiB : Nat
  vcpus : Nat
  diskMiB : Nat
  pidsMax : Nat
  timeoutMs : Nat
  deriving DecidableEq

/-- `DEFAULT_RESOURCE_PROFILE`. -/
def ResourceProfile.default : ResourceProfile :=
  { memoryMiB := 512, vcpus := 1, diskMiB := 1024, pidsMax := 128,
    timeoutMs := 0 }

/-- `EMPTY_CONTRACT_DIGEST`. -/
def emptyContractDigest : Digest :=
  ⟨"51f89ad00a9aa7d89091a52d3b49a5da84067536a9532cd883115d19d15ecbf6",
    by decide⟩

inductive ErrorCode where
  | invalidArgument
  | authRequired
  | forbidden
  | notFound
  | instanceBusy
  | headConflict
  | threadBusy
  | turnClosed
  | snapshotLimit
  | snapshotUnsupportedEntry
  | backendError
  | backendUnavailable
  | executionTimedOut
  | storageExhausted
  | sessionCapacity
  | sessionStdinClosed
  deriving DecidableEq

/-- The `details` the domain services attach to an error. -/
inductive ErrorDetails where
  | headConflict (capturedCommit : Digest) (currentHead : Option Digest)
  | currentDigest (digest : Digest)
  deriving DecidableEq

structure ServiceError where
  code : ErrorCode
  message : String
  details : Option ErrorDetails := none
  deriving DecidableEq

/-- A thrown value: a `ServiceError`, or any other error by its message. -/
inductive Thrown where
  | service (error : ServiceError)
  | plain (message : String)
  deriving DecidableEq

namespace Thrown

def coded (code : ErrorCode) (message : String) : Thrown :=
  .service { code, message }

/-- `error instanceof Error ? error.message : String(error)`. -/
def message : Thrown → String
  | .service error => error.message
  | .plain message => message

/-- `serviceError`: errors of other classes become `BACKEND_ERROR`. -/
def serviceError : Thrown → ServiceError
  | .service error => error
  | .plain message => { code := .backendError, message }

def code (thrown : Thrown) : ErrorCode := thrown.serviceError.code

end Thrown

/-- `CfsObject`: a stored archive of a workspace tree. -/
structure CfsObject where
  treeDigest : Digest
  path : String
  sizeBytes : Nat
  deriving DecidableEq

/-- `TURN_IDENTIFIER_PATTERN`: a letter or digit, then at most 255 letters,
digits, dots, underscores, colons or hyphens. -/
def isTurnIdentifier (value : String) : Bool :=
  match value.toList with
  | [] => false
  | first :: rest =>
      first.isAlphanum && decide (rest.length ≤ 255) &&
        rest.all fun letter =>
          letter.isAlphanum || letter == '.' || letter == '_' ||
            letter == ':' || letter == '-'

/-- `validateIdentifier`. -/
def validateIdentifier (name value : String) : Except Thrown Unit :=
  if isTurnIdentifier value then .ok ()
  else .error (.coded .invalidArgument (name ++ " is invalid"))

/-- The primary key of a turn. -/
structure TurnKey where
  threadId : ThreadId
  turnId : TurnId
  deriving DecidableEq

/-- `turnKey`: the text under which the service's maps file a turn. -/
def TurnKey.text (key : TurnKey) : String :=
  key.threadId ++ "\x00" ++ key.turnId

theorem nul_not_mem_identifier {value : String}
    (valid : isTurnIdentifier value = true) : '\x00' ∉ value.toList := by
  unfold isTurnIdentifier at valid
  cases letters : value.toList with
  | nil => simp
  | cons first rest =>
      simp only [letters, Bool.and_eq_true, List.all_eq_true] at valid
      obtain ⟨⟨firstValid, _⟩, restValid⟩ := valid
      intro member
      rcases List.mem_cons.mp member with same | later
      · subst same
        revert firstValid
        decide
      · have := restValid _ later
        revert this
        decide

end Electrosphere
