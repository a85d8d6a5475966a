import Electrosphere.Agent.FileWrite
import Electrosphere.Backends.AgentFiles
import Mathlib.Logic.Relation

/-!
# Concurrent file writes

`AgentFileClient.write` sends one request after the other and waits for each
answer.  Any number of calls are under way at once; the guest agent takes up
their requests one at a time, in any order.
-/

namespace Electrosphere

open Foundation Agent

def maxChunkBytes : Nat := 384 * 1024

structure FileWriteResult where
  path : Text
  size : Nat
  digest : Text
  deriving DecidableEq

/-- The loop that cuts a chunk into what one request carries. -/
def cut : Nat → Bytes → List Bytes
  | 0, _ => []
  | fuel + 1, chunk =>
      if chunk = [] then []
      else chunk.take maxChunkBytes :: cut fuel (chunk.drop maxChunkBytes)

def slices (chunk : Bytes) : List Bytes := cut chunk.length chunk

theorem flatten_cut {fuel : Nat} {chunk : Bytes}
    (enough : chunk.length ≤ fuel) : (cut fuel chunk).flatten = chunk := by
  induction fuel generalizing chunk with
  | zero =>
      have isEmpty : chunk = [] := List.length_eq_zero_iff.mp (Nat.le_zero.mp enough)
      rw [isEmpty]
      rfl
  | succ fuel induction =>
      rw [cut]
      split
      case isTrue isEmpty =>
        rw [isEmpty]
        rfl
      case isFalse nonempty =>
        have pos := List.length_pos_of_ne_nil nonempty
        have shorter : (chunk.drop maxChunkBytes).length ≤ fuel := by
          rw [List.length_drop, maxChunkBytes]
          omega
        rw [List.flatten_cons, induction shorter, List.take_append_drop]

theorem flatten_slices (chunk : Bytes) : (slices chunk).flatten = chunk :=
  flatten_cut (Nat.le_refl _)

/-! ## One call -/

inductive WriteRequest where
  | begin
  /-- A part of a chunk, before the parts that remain. -/
  | chunk (piece : Bytes) (remaining : List Bytes)
  | commit
  | abort (error : Thrown)
  deriving DecidableEq

inductive WriteStage where
  | sent (request : WriteRequest)
  | answered (request : WriteRequest) (answer : FileResult FileResponse)
  | reading
  | settled (result : Except Thrown FileWriteResult)

structure WriteCall where
  path : Text
  createParents : Bool
  /-- What the source has yielded, and whether it has ended. -/
  chunks : List Bytes
  done : Bool
  stage : WriteStage

def WriteStage.isSettled : WriteStage → Bool
  | .settled _ => true
  | _ => false

/-- What `reader.read()` comes to. -/
inductive SourceRead where
  | chunk (bytes : Bytes)
  | done
  | error (thrown : Thrown)

/-! ### How `AgentFileClient.write` goes on -/

namespace WriteCall

def sending : List Bytes → WriteStage
  | [] => .reading
  | piece :: remaining => .sent (.chunk piece remaining)

def read (call : WriteCall) : SourceRead → WriteCall
  | .chunk bytes =>
      { call with
        chunks := call.chunks ++ [bytes]
        stage := sending (slices bytes) }
  | .done => { call with done := true, stage := .sent .commit }
  | .error thrown => { call with stage := .sent (.abort thrown) }

def committed (path : Text) (answer : FileResult FileResponse) :
    Except Thrown FileWriteResult := do
  let response ← requireOk answer
  let size ← requireNumber response.size "file write"
  let digest ← requireDigest response.digest "file write"
  .ok { path, size, digest }

/-- How the call goes on when an answer comes. -/
def receive (path : Text) (answer : FileResult FileResponse) :
    WriteRequest → WriteStage
  | .begin =>
      match requireOk answer with
      | .error thrown => .sent (.abort thrown)
      | .ok _ => .reading
  | .chunk _ remaining =>
      match requireOk answer with
      | .error thrown => .sent (.abort thrown)
      | .ok _ => sending remaining
  | .commit =>
      match committed path answer with
      | .error thrown => .sent (.abort thrown)
      | .ok result => .settled (.ok result)
  | .abort error => .settled (.error error)

end WriteCall

/-! ## All calls and the guest -/

structure FileWrites where
  writer : FileWriter
  /-- The calls under their transfer ids. -/
  calls : Table Text WriteCall

inductive WriteStep where
  | call (transferId path : Text) (createParents : Bool)
  | read (transferId : Text) (next : SourceRead)
  /-- The guest takes up the request of a call. -/
  | serve (transferId : Text) (faults : Faults)
  | receive (transferId : Text)

namespace FileWrites

variable (library : WriteLibrary)

/-- What the guest does with a request. -/
def serve (faults : Faults) (writer : FileWriter) (transferId : Text)
    (call : WriteCall) : WriteRequest → FileResult FileResponse × FileWriter
  | .begin =>
      writer.fileWriteBegin library faults transferId call.path
        call.createParents
  | .chunk piece _ =>
      writer.fileWriteChunk library faults transferId
        (Base64.encodeStandard piece)
  | .commit => writer.fileWriteCommit library faults transferId
  | .abort _ => writer.fileWriteAbort faults transferId

def step (world : FileWrites) : WriteStep → Option FileWrites
  | .call transferId path createParents =>
      match world.calls.lookup transferId with
      | some _ => none
      | none =>
          some
            { world with
              calls := world.calls.insert transferId
                { path
                  createParents
                  chunks := []
                  done := false
                  stage := .sent .begin } }
  | .read transferId next =>
      match world.calls.lookup transferId with
      | none => none
      | some call =>
          match call.stage with
          | .reading =>
              some
                { world with
                  calls := world.calls.insert transferId
                    (call.read next) }
          | _ => none
  | .serve transferId faults =>
      match world.calls.lookup transferId with
      | none => none
      | some call =>
          match call.stage with
          | .sent request =>
              let (answer, writer) :=
                serve library faults world.writer transferId call request
              some
                { writer
                  calls := world.calls.insert transferId
                    { call with stage := .answered request answer } }
          | _ => none
  | .receive transferId =>
      match world.calls.lookup transferId with
      | none => none
      | some call =>
          match call.stage with
          | .answered request answer =>
              some
                { world with
                  calls := world.calls.insert transferId
                    { call with
                      stage := WriteCall.receive call.path answer request } }
          | _ => none

/-- The content of the file at a path. -/
def holds (world : FileWrites) (path : Text) : Option Bytes :=
  world.writer.workspace.content (components path)

end FileWrites

end Electrosphere
