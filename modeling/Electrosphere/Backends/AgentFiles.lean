import Electrosphere.Agent.Files

/-!
# The daemon's side of the file requests

`AgentFileClient` checks what the guest agent answers before it hands it on.
-/

namespace Electrosphere

open Foundation Agent

def maxEncodedResponseBytes : Nat := 1500000

/-- The service error for a refusal of the guest agent. -/
def agentError (failure : FileFailure) : Thrown :=
  match failure.code with
  | none => .coded .backendError failure.message
  | some code =>
      if code ∈ ["INVALID_ARGUMENT", "PATH_OUTSIDE_WORKSPACE",
          "FILE_TOO_LARGE", "REGEX_LIMIT"] then
        .coded .invalidArgument failure.message
      else if code ∈ ["FILE_NOT_FOUND", "TRANSFER_NOT_FOUND"] then
        .coded .notFound failure.message
      else if code ∈ ["TRANSFER_CAPACITY", "STORAGE_EXHAUSTED"] then
        .coded .storageExhausted failure.message
      else if code = "INVALID_EDIT" then
        .coded .headConflict failure.message
      else if code = "BACKEND_UNAVAILABLE" then
        .coded .backendUnavailable failure.message
      else if code = "SNAPSHOT_LIMIT" then
        .coded .snapshotLimit failure.message
      else if code = "SNAPSHOT_UNSUPPORTED_ENTRY" then
        .coded .snapshotUnsupportedEntry failure.message
      else .coded .backendError failure.message

def requireOk {α : Type} : FileResult α → Except Thrown α
  | .ok value => .ok value
  | .error failure => .error (agentError failure)

/-- The length of an answer as the daemon encodes it again. -/
def responseBytes (response : FileResponse) : Nat :=
  Json.size (Json.object (("ok", Json.boolean true) :: response.fields))

def guardEncodedResponse (response : FileResponse) (operation : String) :
    Except Thrown Unit :=
  if maxEncodedResponseBytes < responseBytes response then
    .error (.coded .backendError
      ("Guest agent " ++ operation ++ " response exceeds transport-safe limit"))
  else .ok ()

/-- `DIGEST_PATTERN`. -/
def isDigest (value : Text) : Bool :=
  let digits := value.drop 7
  value.take 7 == "sha256:".toList && decide (digits.length = 64) &&
    digits.all fun letter =>
      letter.isDigit || ('a' ≤ letter && letter ≤ 'f')

def requireDigest (value : Option Text) (operation : String) :
    Except Thrown Text :=
  match value with
  | some digest =>
      if isDigest digest then .ok digest
      else
        .error (.coded .backendError
          ("Guest agent " ++ operation ++ " returned an invalid digest"))
  | none =>
      .error (.coded .backendError
        ("Guest agent " ++ operation ++ " returned an invalid digest"))

def requireNumber (value : Option Nat) (operation : String) :
    Except Thrown Nat :=
  match value with
  | some number =>
      if number ≤ maxSafeInteger then .ok number
      else
        .error (.coded .backendError
          ("Guest agent " ++ operation ++ " returned an invalid number"))
  | none =>
      .error (.coded .backendError
        ("Guest agent " ++ operation ++ " returned an invalid number"))

structure FileReadResult where
  path : Text
  lines : Option (List Text)
  entries : Option (List Entry)
  isDirectory : Bool
  size : Option Nat
  digest : Option Text
  nextOffset : Option Nat
  truncated : Bool
  nextCursor : Option Text

/-- An optional field, checked when it is there. -/
def whenPresent {α β : Type} (value : Option α)
    (require : Option α → Except Thrown β) : Except Thrown (Option β) :=
  match value with
  | none => .ok none
  | some value => (require (some value)).map some

/-- A string that JavaScript takes for true. -/
def truthy (value : Option Text) : Option Text :=
  value.filter fun text => !text.isEmpty

/-- The fields that `AgentFileClient.read` hands on. -/
def fileReadResult (path : Text) (response : FileResponse) :
    Except Thrown FileReadResult :=
  let isDirectory := response.isDirectory.getD false
  if isDirectory && response.entries.isNone then
    .error (.coded .backendError "Guest agent directory read omitted entries")
  else if !isDirectory && (response.lines.isNone || response.size.isNone ||
      (truthy response.digest).isNone) then
    .error (.coded .backendError
      "Guest agent file read omitted required fields")
  else do
    let size ← whenPresent response.size (requireNumber · "file read")
    let digest ← whenPresent (truthy response.digest)
      (requireDigest · "file read")
    let nextOffset ← whenPresent response.nextOffset
      (requireNumber · "file read")
    .ok
      { path
        lines := response.lines
        entries := response.entries
        isDirectory
        size
        digest
        nextOffset
        truncated := response.truncated.getD false
        nextCursor := truthy response.nextCursor }

/-- `AgentFileClient.read`, given the guest's answer. -/
def AgentFileClient.read (path : Text) (answer : FileResult FileResponse) :
    Except Thrown FileReadResult :=
  match requireOk answer with
  | .error thrown => .error thrown
  | .ok response =>
      match guardEncodedResponse response "file read" with
      | .error thrown => .error thrown
      | .ok _ => fileReadResult path response

end Electrosphere
