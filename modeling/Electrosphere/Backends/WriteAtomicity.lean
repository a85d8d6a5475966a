import Electrosphere.Agent.Transfers
import Electrosphere.Backends.FileWrites
import Electrosphere.Foundation.Transition

/-!
# Files are replaced as a whole

Whatever the order of the requests and whatever fails, a file that is the
target of a write changes from one whole content to the next, as long as no
write has the temporary file of another one for its target.
-/

namespace Electrosphere

open Foundation Agent Relation

namespace FileWrites

/-! ## Runs -/

/-- Removing a temporary file succeeds, and a random transfer id occurs in no
path that is known already. -/
def Assumed (world : FileWrites) : WriteStep → Prop
  | .call id path _ =>
      components path ≠ temporaryPath id path ∧
        ∀ other call, world.calls.lookup other = some call →
          components call.path ≠ temporaryPath id path
  | .serve _ faults => faults.fails .unlink = none
  | _ => True

/-- A write does not have the temporary file of another write for its
target. -/
def Apart (world : FileWrites) : WriteStep → Prop
  | .call _ path _ =>
      ∀ other call, world.calls.lookup other = some call →
        call.stage.isSettled = false →
        components path ≠ temporaryPath other call.path
  | _ => True

section Runs

variable (library : WriteLibrary)

def Moves (permitted : FileWrites → WriteStep → Prop)
    (world next : FileWrites) : Prop :=
  ∃ label, permitted world label ∧ step library world label = some next

/-- Before any write. -/
structure Initial (world : FileWrites) : Prop where
  calls : world.calls = ∅
  writes : world.writer.writes = ∅

/-- What the write of a whole source leaves at a path. -/
def Written (world : FileWrites) (name : Path) (bytes : Bytes) : Prop :=
  ∃ id call, world.calls.lookup id = some call ∧ components call.path = name ∧
    call.done = true ∧ bytes = call.chunks.flatten

/-- What a write that succeeds reports. -/
def result (call : WriteCall) : FileWriteResult where
  path := call.path
  size := call.chunks.flatten.length
  digest := (library.sha256 call.chunks.flatten).text.toList

/-- Files are replaced as a whole, a write that resolves reports what it has
published, and nothing is left of one that has settled. -/
structure Atomic (moves : FileWrites → FileWrites → Prop)
    (start world : FileWrites) : Prop where
  held : ∀ middle, ReflTransGen moves start middle →
    ReflTransGen moves middle world →
    ∀ id call, middle.calls.lookup id = some call →
      world.holds call.path = middle.holds call.path ∨
      ∃ bytes, world.Written (components call.path) bytes ∧
        world.holds call.path = some bytes
  resolved : ∀ id call value, world.calls.lookup id = some call →
    call.stage = .settled (.ok value) →
    call.done = true ∧ value = result library call ∧
      ∃ published, ReflTransGen moves start published ∧
        ReflTransGen moves published world ∧
        published.holds call.path = some call.chunks.flatten
  released : ∀ id call, world.calls.lookup id = some call →
    call.stage.isSettled = true → world.writer.writes.lookup id = none
  files : ∀ name bytes, world.writer.workspace.content name = some bytes →
    start.writer.workspace.content name = some bytes ∨
    world.Written name bytes ∨
    ∃ id pending, world.writer.writes.lookup id = some pending ∧
      pending.temporary = name
  pending : ∀ id pending, world.writer.writes.lookup id = some pending →
    ∃ call, world.calls.lookup id = some call ∧ call.stage.isSettled = false
  few : world.writer.writes.entries.length ≤ maxPendingWrites

end Runs

/-! ## One call and its transfer -/

/-- The transfer has written these bytes to its temporary file. -/
def Delivered (writer : FileWriter) (id path : Text) (bytes : Bytes) : Prop :=
  ∃ pending, writer.writes.lookup id = some pending ∧
    pending.hasher = bytes ∧
    writer.workspace.content (temporaryPath id path) = some bytes

/-- What has been written and what remains of a chunk are what was read. -/
def Sending (writer : FileWriter) (id : Text) (call : WriteCall)
    (remaining : List Bytes) : Prop :=
  call.done = false ∧
    ∃ bytes, Delivered writer id call.path bytes ∧
      bytes ++ remaining.flatten = call.chunks.flatten

section Agreement

variable (library : WriteLibrary)

/-- What the guest holds for a call, stage by stage. -/
def Agrees (writer : FileWriter) (id : Text) (call : WriteCall) : Prop :=
  match call.stage with
  | .sent .begin =>
      writer.writes.lookup id = none ∧ call.chunks = [] ∧ call.done = false
  | .answered .begin (.ok _) => Sending writer id call []
  | .answered .begin (.error _) => call.done = false
  | .reading => Sending writer id call []
  | .sent (.chunk piece remaining) =>
      Sending writer id call (piece :: remaining)
  | .answered (.chunk _ remaining) (.ok _) =>
      Sending writer id call remaining
  | .answered (.chunk _ _) (.error _) => call.done = false
  | .sent .commit =>
      call.done = true ∧ Delivered writer id call.path call.chunks.flatten
  | .answered .commit answer =>
      writer.writes.lookup id = none ∧ call.done = true ∧
        ∀ response, answer = .ok response →
          response =
            { size := some call.chunks.flatten.length
              digest :=
                some (library.sha256 call.chunks.flatten).text.toList }
  | .sent (.abort _) => True
  | .answered (.abort _) _ => writer.writes.lookup id = none
  | .settled outcome =>
      writer.writes.lookup id = none ∧
        ∀ value, outcome = .ok value →
          call.done = true ∧ value = result library call

/-- A call whose target holds, or has held, what it has published. -/
def resolving : WriteStage → Bool
  | .answered .commit (.ok _) => true
  | .settled (.ok _) => true
  | _ => false

structure Invariant (start world : FileWrites) : Prop where
  sound : world.writer.Sound
  agrees : ∀ id call, world.calls.lookup id = some call →
    Agrees library world.writer id call
  owned : ∀ id pending, world.writer.writes.lookup id = some pending →
    ∃ call, world.calls.lookup id = some call ∧ pending.For id call.path
  apart : ∀ id call, world.calls.lookup id = some call →
    call.stage.isSettled = false →
    ∀ other next, world.calls.lookup other = some next →
      components next.path ≠ temporaryPath id call.path
  files : ∀ name bytes, world.writer.workspace.content name = some bytes →
    start.writer.workspace.content name = some bytes ∨
    world.Written name bytes ∨
    ∃ id pending, world.writer.writes.lookup id = some pending ∧
      pending.temporary = name

/-- What a step makes of the targets and of the calls. -/
structure Advances (start world next : FileWrites) : Prop where
  invariant : Invariant library start next
  calls : ∀ id call, world.calls.lookup id = some call →
    ∃ later, next.calls.lookup id = some later ∧ later.path = call.path
  written : ∀ name bytes, world.Written name bytes → next.Written name bytes
  held : ∀ id call, world.calls.lookup id = some call →
    next.holds call.path = world.holds call.path ∨
    ∃ bytes, next.Written (components call.path) bytes ∧
      next.holds call.path = some bytes
  resolving : ∀ id call, next.calls.lookup id = some call →
    resolving call.stage = true →
    (∃ earlier, world.calls.lookup id = some earlier ∧
      resolving earlier.stage = true ∧ earlier.path = call.path ∧
      earlier.chunks = call.chunks) ∨
    next.holds call.path = some call.chunks.flatten

end Agreement

section Steps

variable {library : WriteLibrary} {start world : FileWrites} {id : Text}
  {call changed : WriteCall} {writer : FileWriter}

theorem Agrees.released (agrees : Agrees library writer id call)
    (settled : call.stage.isSettled = true) :
    writer.writes.lookup id = none := by
  unfold Agrees at agrees
  split at agrees
  all_goals rename_i isStage
  all_goals rw [isStage] at settled
  all_goals try cases settled
  exact agrees.1

theorem Invariant.unsettled (invariant : Invariant library start world)
    {pending : PendingFileWrite}
    (found : world.writer.writes.lookup id = some pending) :
    ∃ call, world.calls.lookup id = some call ∧
      call.stage.isSettled = false ∧ pending.For id call.path := by
  obtain ⟨call, isCall, own⟩ := invariant.owned id pending found
  refine ⟨call, isCall, ?_, own⟩
  cases settled : call.stage.isSettled with
  | false => rfl
  | true =>
      have none := (invariant.agrees id call isCall).released settled
      rw [none] at found
      cases found

/-- A transfer that is not touched keeps what it has delivered. -/
theorem Delivered.frame {path other otherPath : Text} {bytes : Bytes}
    {whole : Bytes → Prop} (touches : FileWriter.Touches id path whole
      world.writer writer) (different : other ≠ id)
    (away : temporaryPath other otherPath ≠ temporaryPath id path)
    (apart : temporaryPath other otherPath ≠ components path)
    (delivered : Delivered world.writer other otherPath bytes) :
    Delivered writer other otherPath bytes := by
  obtain ⟨pending, found, hashed, held⟩ := delivered
  refine ⟨pending, ?_, hashed, ?_⟩
  · rw [touches.others other different]
    exact found
  · rcases touches.elsewhere _ away with same | ⟨isTarget, -⟩
    · rw [same]
      exact held
    · exact absurd isTarget apart

theorem Sending.frame {other : Text} {remaining : List Bytes}
    (keeps : ∀ bytes, Delivered world.writer other call.path bytes →
      Delivered writer other call.path bytes)
    (sending : Sending world.writer other call remaining) :
    Sending writer other call remaining := by
  obtain ⟨notDone, bytes, delivered, total⟩ := sending
  exact ⟨notDone, bytes, keeps bytes delivered, total⟩

theorem Agrees.frame {other : Text}
    (same : writer.writes.lookup other = world.writer.writes.lookup other)
    (keeps : ∀ bytes, Delivered world.writer other call.path bytes →
      Delivered writer other call.path bytes)
    (agrees : Agrees library world.writer other call) :
    Agrees library writer other call := by
  unfold Agrees at agrees ⊢
  split at agrees
  case h_1 =>
    rw [same]
    exact agrees
  case h_2 => exact agrees.frame keeps
  case h_3 => exact agrees
  case h_4 => exact agrees.frame keeps
  case h_5 => exact agrees.frame keeps
  case h_6 => exact agrees.frame keeps
  case h_7 => exact agrees
  case h_8 => exact ⟨agrees.1, keeps _ agrees.2⟩
  case h_9 =>
    rw [same]
    exact agrees
  case h_10 => trivial
  case h_11 =>
    rw [same]
    exact agrees
  case h_12 =>
    rw [same]
    exact agrees

theorem Written.insert {name : Path} {bytes : Bytes}
    (found : world.calls.lookup id = some call)
    (samePath : changed.path = call.path)
    (stays : call.done = true →
      changed.done = true ∧ changed.chunks = call.chunks)
    (written : world.Written name bytes) :
    Written { writer, calls := world.calls.insert id changed } name bytes := by
  obtain ⟨other, source, isSource, isName, isDone, isWhole⟩ := written
  by_cases same : other = id
  · rw [same, found] at isSource
    cases isSource
    obtain ⟨done, chunks⟩ := stays isDone
    refine ⟨id, changed, AList.lookup_insert _, ?_, done, ?_⟩
    · rw [samePath]
      exact isName
    · rw [chunks]
      exact isWhole
  · refine ⟨other, source, ?_, isName, isDone, isWhole⟩
    exact (AList.lookup_insert_ne same).trans isSource

/-- What one call does to its transfer. -/
theorem Invariant.keep (invariant : Invariant library start world)
    (found : world.calls.lookup id = some call)
    (unsettled : call.stage.isSettled = false)
    (samePath : changed.path = call.path)
    (stays : call.done = true →
      changed.done = true ∧ changed.chunks = call.chunks)
    (touches : FileWriter.Touches id call.path
      (fun bytes => changed.done = true ∧ bytes = changed.chunks.flatten)
      world.writer writer)
    (agrees : Agrees library writer id changed) :
    Invariant library start
      { writer, calls := world.calls.insert id changed } where
  sound := touches.sound
  agrees := by
    intro other next isNext
    rw [AList.lookup_insert_if] at isNext
    split at isNext
    case isTrue same =>
      cases isNext
      rw [same]
      exact agrees
    case isFalse different =>
      apply (invariant.agrees other next isNext).frame
        (touches.others other different)
      intro bytes delivered
      apply delivered.frame touches different
      · intro same
        exact different (temporaryPath_injective same)
      · obtain ⟨pending, isPending, -⟩ := delivered
        obtain ⟨owner, isOwner, active, -⟩ := invariant.unsettled isPending
        rw [isNext] at isOwner
        cases isOwner
        exact (invariant.apart other next isNext active id call found).symm
  owned := by
    intro other pending isPending
    by_cases same : other = id
    · rw [same] at isPending ⊢
      refine ⟨changed, AList.lookup_insert _, ?_⟩
      rw [samePath]
      exact touches.own pending isPending
    · rw [touches.others other same] at isPending
      obtain ⟨owner, isOwner, own⟩ := invariant.owned other pending isPending
      exact ⟨owner, (AList.lookup_insert_ne same).trans isOwner, own⟩
  apart := by
    have path : ∀ other next,
        (world.calls.insert id changed).lookup other = some next →
        ∃ earlier, world.calls.lookup other = some earlier ∧
          next.path = earlier.path ∧
          (next.stage.isSettled = false →
            earlier.stage.isSettled = false) := by
      intro other next isNext
      rw [AList.lookup_insert_if] at isNext
      split at isNext
      case isTrue same =>
        cases isNext
        rw [same]
        exact ⟨call, found, samePath, fun _ => unsettled⟩
      case isFalse => exact ⟨next, isNext, rfl, fun active => active⟩
    intro first one isOne active second two isTwo
    obtain ⟨earlierOne, isEarlierOne, pathOne, activeOne⟩ := path first one isOne
    obtain ⟨earlierTwo, isEarlierTwo, pathTwo, -⟩ := path second two isTwo
    rw [pathOne, pathTwo]
    exact invariant.apart first earlierOne isEarlierOne (activeOne active)
      second earlierTwo isEarlierTwo
  files := by
    intro name bytes held
    by_cases own : name = temporaryPath id call.path
    · rw [own] at held
      rcases touches.temporary bytes held with
        ⟨before, unchanged⟩ | ⟨pending, isPending⟩
      · rcases invariant.files _ _ before with initial | written | pending
        · rw [own]
          exact .inl initial
        · rw [own]
          exact .inr (.inl (written.insert found samePath stays))
        · obtain ⟨other, pending, isPending, isName⟩ := pending
          right
          right
          refine ⟨other, pending, ?_, isName.trans own.symm⟩
          rw [unchanged]
          exact isPending
      · right
        right
        refine ⟨id, pending, isPending, ?_⟩
        rw [own]
        exact (touches.own pending isPending).1
    · rcases touches.elsewhere name own with same | ⟨isTarget, whole, isWhole, isHeld⟩
      · rw [same] at held
        rcases invariant.files name bytes held with initial | written | pending
        · exact .inl initial
        · exact .inr (.inl (written.insert found samePath stays))
        · obtain ⟨other, pending, isPending, isName⟩ := pending
          obtain ⟨owner, isOwner, forOwner⟩ :=
            invariant.owned other pending isPending
          have different : other ≠ id := by
            intro same
            rw [same, found] at isOwner
            cases isOwner
            apply own
            rw [← isName, forOwner.1, same]
          right
          right
          refine ⟨other, pending, ?_, isName⟩
          rw [touches.others other different]
          exact isPending
      · rw [isHeld] at held
        cases held
        right
        left
        refine ⟨id, changed, AList.lookup_insert _, ?_, isWhole.1, isWhole.2⟩
        rw [samePath]
        exact isTarget.symm

/-- A call goes on, and with it its transfer. -/
theorem Invariant.advance (invariant : Invariant library start world)
    (found : world.calls.lookup id = some call)
    (unsettled : call.stage.isSettled = false)
    (samePath : changed.path = call.path)
    (stays : call.done = true →
      changed.done = true ∧ changed.chunks = call.chunks)
    (touches : FileWriter.Touches id call.path
      (fun bytes => changed.done = true ∧ bytes = changed.chunks.flatten)
      world.writer writer)
    (agrees : Agrees library writer id changed)
    (resolves : FileWrites.resolving changed.stage = true →
      FileWrites.resolving call.stage = true ∧ changed.chunks = call.chunks ∨
      writer.workspace.content (components call.path) =
        some changed.chunks.flatten) :
    Advances library start world
      { writer, calls := world.calls.insert id changed } where
  invariant :=
    invariant.keep found unsettled samePath stays touches agrees
  calls := by
    intro other next isNext
    by_cases same : other = id
    · rw [same, found] at isNext
      cases isNext
      rw [same]
      exact ⟨changed, AList.lookup_insert _, samePath⟩
    · exact ⟨next, (AList.lookup_insert_ne same).trans isNext, rfl⟩
  written _ _ written := written.insert found samePath stays
  held := by
    intro other next isNext
    have away := invariant.apart id call found unsettled other next isNext
    rcases touches.elsewhere _ away with same |
      ⟨isTarget, bytes, isWhole, isHeld⟩
    · exact .inl same
    · right
      refine ⟨bytes, ⟨id, changed, AList.lookup_insert _, ?_, isWhole.1,
        isWhole.2⟩, isHeld⟩
      rw [samePath]
      exact isTarget.symm
  resolving := by
    intro other next isNext isResolving
    rw [AList.lookup_insert_if] at isNext
    split at isNext
    case isTrue same =>
      cases isNext
      rw [same]
      rcases resolves isResolving with ⟨before, chunks⟩ | isHeld
      · exact .inl ⟨call, found, before, samePath.symm, chunks.symm⟩
      · right
        rw [holds, samePath]
        exact isHeld
    case isFalse =>
      exact .inl ⟨next, isNext, isResolving, rfl, rfl⟩

theorem Invariant.own (invariant : Invariant library start world)
    (found : world.calls.lookup id = some call) {pending : PendingFileWrite}
    (isPending : world.writer.writes.lookup id = some pending) :
    pending.For id call.path := by
  obtain ⟨owner, isOwner, own⟩ := invariant.owned id pending isPending
  rw [found] at isOwner
  cases isOwner
  exact own

/-- The temporary files of all transfers differ from the targets. -/
theorem Invariant.away (invariant : Invariant library start world)
    (found : world.calls.lookup id = some call) {other : Text}
    {next : PendingFileWrite}
    (isNext : world.writer.writes.lookup other = some next) :
    next.temporary ≠ components call.path := by
  obtain ⟨owner, isOwner, active, own⟩ := invariant.unsettled isNext
  rw [own.1]
  exact (invariant.apart other owner isOwner active id call found).symm

/-- A call goes on while the guest does nothing. -/
theorem Invariant.goesOn (invariant : Invariant library start world)
    (found : world.calls.lookup id = some call)
    (unsettled : call.stage.isSettled = false)
    (samePath : changed.path = call.path)
    (stays : call.done = true →
      changed.done = true ∧ changed.chunks = call.chunks)
    (agrees : Agrees library world.writer id changed)
    (resolves : FileWrites.resolving changed.stage = true →
      FileWrites.resolving call.stage = true ∧
        changed.chunks = call.chunks) :
    Advances library start world
      { world with calls := world.calls.insert id changed } := by
  refine invariant.advance found unsettled samePath stays ?_ agrees
    (fun isResolving => .inl (resolves isResolving))
  apply FileWriter.touches_sameFiles invariant.sound
  · intro pending isPending
    exact invariant.own found isPending
  · rfl
  · exact .refl _

/-! ## What the call does -/

theorem Sending.agrees {remaining : List Bytes}
    (sending : Sending writer id call remaining) :
    Agrees library writer id
      { call with stage := WriteCall.sending remaining } := by
  cases remaining with
  | nil => exact sending
  | cons piece remaining => exact sending

theorem resolving_sending (remaining : List Bytes) :
    resolving (WriteCall.sending remaining) = false := by
  cases remaining <;> rfl

theorem Invariant.read (invariant : Invariant library start world)
    (found : world.calls.lookup id = some call)
    (reading : call.stage = .reading) (next : SourceRead) :
    Advances library start world
      { world with calls := world.calls.insert id (call.read next) } := by
  have agrees := invariant.agrees id call found
  rw [Agrees, reading] at agrees
  obtain ⟨notDone, bytes, delivered, total⟩ := agrees
  rw [List.flatten_nil, List.append_nil] at total
  have unsettled : call.stage.isSettled = false := by
    rw [reading]
    rfl
  apply invariant.goesOn found unsettled
  · cases next <;> rfl
  · intro done
    rw [notDone] at done
    cases done
  · cases next with
    | chunk data =>
        have sending : Sending world.writer id
            { call with chunks := call.chunks ++ [data] } (slices data) := by
          refine ⟨notDone, bytes, delivered, ?_⟩
          rw [flatten_slices, total, List.flatten_append,
            List.flatten_singleton]
        exact sending.agrees
    | done =>
        refine ⟨rfl, ?_⟩
        change Delivered world.writer id call.path call.chunks.flatten
        rw [← total]
        exact delivered
    | error thrown => trivial
  · intro isResolving
    cases next with
    | chunk data =>
        change resolving (WriteCall.sending (slices data)) = true at isResolving
        rw [resolving_sending] at isResolving
        cases isResolving
    | done => cases isResolving
    | error thrown => cases isResolving

theorem requireNumber_ok {value : Option Nat} {operation : String}
    {number : Nat} (required : requireNumber value operation = .ok number) :
    value = some number := by
  unfold requireNumber at required
  split at required
  · split at required
    · cases required
      rfl
    · cases required
  · cases required

theorem requireDigest_ok {value : Option Text} {operation : String}
    {digest : Text} (required : requireDigest value operation = .ok digest) :
    value = some digest := by
  unfold requireDigest at required
  split at required
  · split at required
    · cases required
      rfl
    · cases required
  · cases required

theorem committed_ok {path : Text} {answer : FileResult FileResponse}
    {value : FileWriteResult}
    (committed : WriteCall.committed path answer = .ok value) :
    ∃ response, answer = .ok response ∧ response.size = some value.size ∧
      response.digest = some value.digest ∧ value.path = path := by
  rw [WriteCall.committed] at committed
  cases answer with
  | error failure => cases committed
  | ok response =>
      simp only [requireOk, bind, Except.bind] at committed
      split at committed
      · cases committed
      · rename_i size isSize
        split at committed
        · cases committed
        · rename_i digest isDigest
          cases committed
          exact ⟨response, rfl, requireNumber_ok isSize,
            requireDigest_ok isDigest, rfl⟩

/-- Only the answer to a commit resolves a call. -/
theorem resolving_receive {path : Text} {request : WriteRequest}
    {answer : FileResult FileResponse}
    (resolves : resolving (WriteCall.receive path answer request) = true) :
    resolving (.answered request answer) = true := by
  cases request with
  | begin =>
      cases answer <;> cases resolves
  | chunk piece remaining =>
      cases answer with
      | error failure => cases resolves
      | ok response =>
          change resolving (WriteCall.sending remaining) = true at resolves
          rw [resolving_sending] at resolves
          cases resolves
  | commit =>
      cases answer with
      | error failure => cases resolves
      | ok response => rfl
  | abort error => cases resolves

theorem Invariant.receive (invariant : Invariant library start world)
    (found : world.calls.lookup id = some call) {request : WriteRequest}
    {answer : FileResult FileResponse}
    (answered : call.stage = .answered request answer) :
    Advances library start world
      { world with
        calls := world.calls.insert id
          { call with
            stage := WriteCall.receive call.path answer request } } := by
  have agrees := invariant.agrees id call found
  have unsettled : call.stage.isSettled = false := by
    rw [answered]
    rfl
  refine invariant.goesOn found unsettled ?_ ?_ ?_ ?_
  · rfl
  · intro done
    exact ⟨done, rfl⟩
  on_goal 2 =>
    intro isResolving
    rw [answered]
    exact ⟨resolving_receive isResolving, rfl⟩
  cases request with
  | begin =>
      cases answer with
      | error failure => trivial
      | ok response =>
          rw [Agrees, answered] at agrees
          exact agrees
  | chunk piece remaining =>
      cases answer with
      | error failure => trivial
      | ok response =>
          rw [Agrees, answered] at agrees
          exact Sending.agrees agrees
  | commit =>
      rw [Agrees, answered] at agrees
      obtain ⟨released, done, reported⟩ := agrees
      cases committed : WriteCall.committed call.path answer with
      | error thrown =>
          rw [WriteCall.receive, committed]
          trivial
      | ok value =>
          rw [WriteCall.receive, committed]
          refine ⟨released, ?_⟩
          intro other same
          cases same
          obtain ⟨response, isOk, size, digest, path⟩ := committed_ok committed
          rw [reported response isOk] at size digest
          refine ⟨done, ?_⟩
          cases value
          cases size
          cases digest
          cases path
          rfl
  | abort error =>
      rw [Agrees, answered] at agrees
      refine ⟨agrees, ?_⟩
      intro value same
      cases same

/-! ## What the guest does -/

theorem Invariant.answer (invariant : Invariant library start world)
    (found : world.calls.lookup id = some call)
    (unsettled : call.stage.isSettled = false) (request : WriteRequest)
    (answer : FileResult FileResponse)
    (touches : FileWriter.Touches id call.path
      (fun bytes => call.done = true ∧ bytes = call.chunks.flatten)
      world.writer writer)
    (agrees : Agrees library writer id
      { call with stage := .answered request answer })
    (resolves : resolving (.answered request answer) = true →
      writer.workspace.content (components call.path) =
        some call.chunks.flatten) :
    Advances library start world
      { writer
        calls := world.calls.insert id
          { call with stage := .answered request answer } } := by
  refine invariant.advance found unsettled ?_ ?_ touches agrees ?_
  · rfl
  · intro done
    exact ⟨done, rfl⟩
  · intro isResolving
    exact .inr (resolves isResolving)

theorem Invariant.begin (invariant : Invariant library start world)
    (found : world.calls.lookup id = some call)
    (sent : call.stage = .sent .begin) {faults : Faults}
    {answer : FileResult FileResponse}
    (served : world.writer.fileWriteBegin library faults id call.path
      call.createParents = (answer, writer)) :
    Advances library start world
      { writer
        calls := world.calls.insert id
          { call with stage := .answered .begin answer } } := by
  have agrees := invariant.agrees id call found
  rw [Agrees, sent] at agrees
  obtain ⟨unknown, noChunks, notDone⟩ := agrees
  have unsettled : call.stage.isSettled = false := by
    rw [sent]
    rfl
  rcases FileWriter.fileWriteBegin_cases served with
    ⟨failure, isError, writes, same⟩ |
    ⟨workspace, same, absent, -, few, isOk, isAfter⟩
  · subst isError
    refine invariant.answer found unsettled _ _ ?_ notDone (by simp [resolving])
    apply FileWriter.touches_sameFiles invariant.sound _ writes same
    intro pending isPending
    exact invariant.own found isPending
  · subst isOk isAfter
    refine invariant.answer found unsettled _ _
      (FileWriter.touches_start invariant.sound same absent unknown few) ?_
      (by simp [resolving])
    refine ⟨notDone, [], ⟨_, AList.lookup_insert _, rfl, ?_⟩, ?_⟩
    · rw [Volume.content_create, if_pos rfl]
    · change _ = call.chunks.flatten
      rw [noChunks]
      rfl

theorem Invariant.chunk (invariant : Invariant library start world)
    (found : world.calls.lookup id = some call) {piece : Bytes}
    {remaining : List Bytes}
    (sent : call.stage = .sent (.chunk piece remaining)) {faults : Faults}
    (unlinks : faults.fails .unlink = none)
    {answer : FileResult FileResponse}
    (served : world.writer.fileWriteChunk library faults id
      (Base64.encodeStandard piece) = (answer, writer)) :
    Advances library start world
      { writer
        calls := world.calls.insert id
          { call with stage := .answered (.chunk piece remaining) answer } } := by
  have agrees := invariant.agrees id call found
  rw [Agrees, sent] at agrees
  obtain ⟨notDone, bytes, ⟨transfer, isTransfer, hashed, held⟩, total⟩ := agrees
  have unsettled : call.stage.isSettled = false := by
    rw [sent]
    rfl
  rcases FileWriter.fileWriteChunk_cases invariant.sound unlinks served with
    ⟨failure, isError, isAfter⟩ | ⟨pending, isPending, outcome⟩
  · subst isError isAfter
    refine invariant.answer found unsettled _ _ ?_ notDone (by simp [resolving])
    apply FileWriter.touches_sameFiles invariant.sound _ rfl (.refl _)
    intro pending isPending
    exact invariant.own found isPending
  · have own := invariant.own found isPending
    rcases outcome with ⟨failure, isError, isAfter⟩ |
      ⟨failure, isError, isAfter⟩ | ⟨isOk, isAfter⟩
    · subst isError isAfter
      exact invariant.answer found unsettled _ _
        (FileWriter.touches_remove invariant.sound isPending own) notDone
        (by simp [resolving])
    · subst isError isAfter
      exact invariant.answer found unsettled _ _
        (FileWriter.touches_part invariant.sound isPending own) notDone
        (by simp [resolving])
    · subst isOk isAfter
      refine invariant.answer found unsettled _ _
        (FileWriter.touches_append invariant.sound isPending own) ?_
        (by simp [resolving])
      refine ⟨notDone, bytes ++ piece, ⟨_, AList.lookup_insert _, ?_, ?_⟩, ?_⟩
      · rw [isTransfer] at isPending
        cases isPending
        rw [← hashed]
      · change Volume.content _ (temporaryPath id call.path) = _
        rw [← own.1, Volume.content_append
          (invariant.sound.sole id pending isPending), if_pos rfl, own.1, held]
        rfl
      · rw [List.append_assoc, ← List.flatten_cons]
        exact total

theorem Invariant.commit (invariant : Invariant library start world)
    (found : world.calls.lookup id = some call)
    (sent : call.stage = .sent .commit) {faults : Faults}
    (unlinks : faults.fails .unlink = none)
    {answer : FileResult FileResponse}
    (served : world.writer.fileWriteCommit library faults id =
      (answer, writer)) :
    Advances library start world
      { writer
        calls := world.calls.insert id
          { call with stage := .answered .commit answer } } := by
  have agrees := invariant.agrees id call found
  rw [Agrees, sent] at agrees
  obtain ⟨done, transfer, isTransfer, hashed, held⟩ := agrees
  have unsettled : call.stage.isSettled = false := by
    rw [sent]
    rfl
  have own := invariant.own found isTransfer
  have away : ∀ pending, world.writer.writes.lookup id = some pending →
      pending.temporary ≠ pending.target := by
    intro pending isPending
    rw [(invariant.own found isPending).2]
    exact invariant.away found isPending
  rcases FileWriter.fileWriteCommit_cases invariant.sound unlinks away served
    with ⟨failure, isError, isAfter, unknown⟩ | ⟨pending, isPending, outcome⟩
  · rw [isTransfer] at unknown
    cases unknown
  · rw [isTransfer] at isPending
    cases isPending
    rcases outcome with ⟨failure, isError, isAfter⟩ | ⟨isAfter, reported⟩
    · subst isError isAfter
      refine invariant.answer found unsettled _ _
        (FileWriter.touches_remove invariant.sound isTransfer own) ?_
        (by simp [resolving])
      refine ⟨AList.lookup_erase _ _, done, ?_⟩
      intro response isOk
      cases isOk
    · subst isAfter
      refine invariant.answer found unsettled _ _
        (FileWriter.touches_publish invariant.sound isTransfer own
          (fun other next isNext => invariant.away found isNext) held
          ⟨done, rfl⟩) ?_ ?_
      · refine ⟨AList.lookup_erase _ _, done, ?_⟩
        intro response isOk
        rw [reported response isOk,
          invariant.sound.counted id transfer isTransfer, hashed]
      · intro _
        rw [Volume.content_rename (invariant.sound.sole id transfer isTransfer)
          (away transfer isTransfer), own.2, if_pos rfl, own.1, held]

theorem Invariant.abort (invariant : Invariant library start world)
    (found : world.calls.lookup id = some call) {error : Thrown}
    (sent : call.stage = .sent (.abort error)) {faults : Faults}
    (unlinks : faults.fails .unlink = none)
    {answer : FileResult FileResponse}
    (served : world.writer.fileWriteAbort faults id = (answer, writer)) :
    Advances library start world
      { writer
        calls := world.calls.insert id
          { call with stage := .answered (.abort error) answer } } := by
  have unsettled : call.stage.isSettled = false := by
    rw [sent]
    rfl
  rcases FileWriter.fileWriteAbort_cases invariant.sound unlinks served with
    ⟨unknown, isAfter⟩ | ⟨pending, isPending, isAfter⟩
  · subst isAfter
    refine invariant.answer found unsettled _ _ ?_ unknown (by simp [resolving])
    apply FileWriter.touches_sameFiles invariant.sound _ rfl (.refl _)
    intro pending isPending
    exact invariant.own found isPending
  · subst isAfter
    exact invariant.answer found unsettled _ _
      (FileWriter.touches_remove invariant.sound isPending
        (invariant.own found isPending)) (AList.lookup_erase _ _)
      (by simp [resolving])

/-! ## Steps and runs -/

theorem Invariant.called (invariant : Invariant library start world)
    {path : Text} {createParents : Bool}
    (unknown : world.calls.lookup id = none)
    (assumed : Assumed world (.call id path createParents))
    (apart : Apart world (.call id path createParents)) :
    Advances library start world
      { world with
        calls := world.calls.insert id
          { path, createParents, chunks := [], done := false,
            stage := .sent .begin } } := by
  have earlier : ∀ {other next}, world.calls.lookup other = some next →
      (world.calls.insert id
        { path, createParents, chunks := [], done := false,
          stage := .sent .begin }).lookup other = some next := by
    intro other next isNext
    apply (AList.lookup_insert_ne _).trans isNext
    intro same
    rw [same, unknown] at isNext
    cases isNext
  have written : ∀ name bytes, world.Written name bytes →
      Written { world with
        calls := world.calls.insert id
          { path, createParents, chunks := [], done := false,
            stage := .sent .begin } } name bytes := by
    rintro name bytes ⟨other, source, isSource, rest⟩
    exact ⟨other, source, earlier isSource, rest⟩
  constructor
  · constructor
    · exact invariant.sound
    · intro other next isNext
      rw [AList.lookup_insert_if] at isNext
      split at isNext
      case isTrue same =>
        cases isNext
        refine ⟨?_, rfl, rfl⟩
        cases isPending : world.writer.writes.lookup other with
        | none => rfl
        | some pending =>
            obtain ⟨owner, isOwner, -⟩ := invariant.owned other pending isPending
            rw [same, unknown] at isOwner
            cases isOwner
      case isFalse => exact invariant.agrees other next isNext
    · intro other pending isPending
      obtain ⟨owner, isOwner, own⟩ := invariant.owned other pending isPending
      exact ⟨owner, earlier isOwner, own⟩
    · intro first one isOne active second two isTwo
      rw [AList.lookup_insert_if] at isOne isTwo
      split at isOne
      case isTrue same =>
        cases isOne
        rw [same]
        split at isTwo
        case isTrue =>
          cases isTwo
          exact assumed.1
        case isFalse => exact assumed.2 second two isTwo
      case isFalse =>
        split at isTwo
        case isTrue =>
          cases isTwo
          exact apart first one isOne active
        case isFalse =>
          exact invariant.apart first one isOne active second two isTwo
    · intro name bytes held
      rcases invariant.files name bytes held with initial | before | pending
      · exact .inl initial
      · exact .inr (.inl (written name bytes before))
      · exact .inr (.inr pending)
  · intro other next isNext
    exact ⟨next, earlier isNext, rfl⟩
  · exact written
  · intro other next _
    exact .inl rfl
  · intro other next isNext isResolving
    rw [AList.lookup_insert_if] at isNext
    split at isNext
    case isTrue =>
      cases isNext
      cases isResolving
    case isFalse => exact .inl ⟨next, isNext, isResolving, rfl, rfl⟩

theorem Invariant.serve (invariant : Invariant library start world)
    (found : world.calls.lookup id = some call) {request : WriteRequest}
    (sent : call.stage = .sent request) {faults : Faults}
    (unlinks : faults.fails .unlink = none)
    {answer : FileResult FileResponse}
    (served : FileWrites.serve library faults world.writer id call request =
      (answer, writer)) :
    Advances library start world
      { writer
        calls := world.calls.insert id
          { call with stage := .answered request answer } } := by
  cases request with
  | begin => exact invariant.begin found sent served
  | chunk piece remaining => exact invariant.chunk found sent unlinks served
  | commit => exact invariant.commit found sent unlinks served
  | abort error => exact invariant.abort found sent unlinks served

theorem Invariant.step {next : FileWrites} {label : WriteStep}
    (invariant : Invariant library start world)
    (assumed : Assumed world label) (apart : Apart world label)
    (stepped : FileWrites.step library world label = some next) :
    Advances library start world next := by
  cases label with
  | call id path createParents =>
      rw [FileWrites.step] at stepped
      split at stepped
      · cases stepped
      · rename_i unknown
        cases stepped
        exact invariant.called unknown assumed apart
  | read id source =>
      rw [FileWrites.step] at stepped
      split at stepped
      · cases stepped
      · rename_i found
        split at stepped
        · rename_i reading
          cases stepped
          exact invariant.read found reading source
        · cases stepped
  | serve id faults =>
      rw [FileWrites.step] at stepped
      split at stepped
      · cases stepped
      · rename_i found
        split at stepped
        · rename_i sent
          cases stepped
          exact invariant.serve found sent assumed rfl
        · cases stepped
  | receive id =>
      rw [FileWrites.step] at stepped
      split at stepped
      · cases stepped
      · rename_i found
        split at stepped
        · rename_i answered
          cases stepped
          exact invariant.receive found answered
        · cases stepped

end Steps

section Results

variable {library : WriteLibrary} {start world : FileWrites}

/-- The steps of a run in which the condition is met. -/
def Careful (world : FileWrites) (label : WriteStep) : Prop :=
  Assumed world label ∧ Apart world label

theorem Initial.invariant (initial : Initial start) :
    Invariant library start start where
  sound := by
    have none : ∀ id pending, start.writer.writes.lookup id ≠ some pending := by
      intro id pending found
      rw [initial.writes] at found
      cases found
    constructor
    · intro id pending found
      exact absurd found (none id pending)
    · intro id other first second found
      exact absurd found (none id first)
    · intro id pending found
      exact absurd found (none id pending)
    · rw [initial.writes]
      exact Nat.zero_le _
  agrees := by
    intro id call found
    rw [initial.calls] at found
    cases found
  owned := by
    intro id pending found
    rw [initial.writes] at found
    cases found
  apart := by
    intro id call found
    rw [initial.calls] at found
    cases found
  files := by
    intro name bytes held
    exact .inl held

theorem invariant_of_run (initial : Initial start)
    (run : ReflTransGen (Moves library Careful) start world) :
    Invariant library start world := by
  induction run with
  | refl => exact initial.invariant
  | tail _ move induction =>
      obtain ⟨label, ⟨assumed, apart⟩, stepped⟩ := move
      exact (induction.step assumed apart stepped).invariant

theorem advances_of_run {next : FileWrites} (initial : Initial start)
    (run : ReflTransGen (Moves library Careful) start world)
    (move : Moves library Careful world next) :
    Advances library start world next := by
  obtain ⟨label, ⟨assumed, apart⟩, stepped⟩ := move
  exact (invariant_of_run initial run).step assumed apart stepped

theorem held_of_run {middle : FileWrites} (initial : Initial start)
    (before : ReflTransGen (Moves library Careful) start middle)
    (run : ReflTransGen (Moves library Careful) middle world)
    {id : Text} {call : WriteCall}
    (found : middle.calls.lookup id = some call) :
    (∃ later, world.calls.lookup id = some later ∧ later.path = call.path) ∧
      (world.holds call.path = middle.holds call.path ∨
        ∃ bytes, world.Written (components call.path) bytes ∧
          world.holds call.path = some bytes) := by
  induction run with
  | refl => exact ⟨⟨call, found, rfl⟩, .inl rfl⟩
  | tail earlier move induction =>
      obtain ⟨⟨later, isLater, samePath⟩, holding⟩ := induction
      have advances := advances_of_run initial (before.trans earlier) move
      obtain ⟨last, isLast, lastPath⟩ := advances.calls id later isLater
      refine ⟨⟨last, isLast, lastPath.trans samePath⟩, ?_⟩
      have step := advances.held id later isLater
      rw [samePath] at step
      rcases step with same | replaced
      · rcases holding with unchanged | ⟨bytes, written, isHeld⟩
        · exact .inl (same.trans unchanged)
        · exact .inr ⟨bytes, advances.written _ bytes written,
            same.trans isHeld⟩
      · exact .inr replaced

theorem published_of_run (initial : Initial start)
    (run : ReflTransGen (Moves library Careful) start world)
    {id : Text} {call : WriteCall} (found : world.calls.lookup id = some call)
    (isResolving : resolving call.stage = true) :
    ∃ published, ReflTransGen (Moves library Careful) start published ∧
      ReflTransGen (Moves library Careful) published world ∧
      published.holds call.path = some call.chunks.flatten := by
  induction run generalizing call with
  | refl =>
      rw [initial.calls] at found
      cases found
  | tail earlier move induction =>
      rcases (advances_of_run initial earlier move).resolving id call found
          isResolving with ⟨before, isBefore, wasResolving, path, chunks⟩ | held
      · obtain ⟨published, isPublished, onward, held⟩ :=
          induction isBefore wasResolving
        rw [path, chunks] at held
        exact ⟨published, isPublished, onward.tail move, held⟩
      · exact ⟨_, earlier.tail move, .refl, held⟩

/-- In every run that meets the condition, the writes are atomic. -/
theorem writes_atomic (initial : Initial start)
    (run : ReflTransGen (Moves library Careful) start world) :
    Atomic library (Moves library Careful) start world := by
  have invariant := invariant_of_run initial run
  constructor
  · intro middle before after id call found
    exact (held_of_run initial before after found).2
  · intro id call value found settled
    have agrees := invariant.agrees id call found
    rw [Agrees, settled] at agrees
    obtain ⟨done, isResult⟩ := agrees.2 value rfl
    refine ⟨done, isResult, published_of_run initial run found ?_⟩
    rw [settled]
    rfl
  · intro id call found settled
    exact (invariant.agrees id call found).released settled
  · exact invariant.files
  · intro id pending isPending
    obtain ⟨call, found, active, -⟩ := invariant.unsettled isPending
    exact ⟨call, found, active⟩
  · exact invariant.sound.few

end Results

/-! ## Two writes -/

instance decidableAssumed (world : FileWrites) (label : WriteStep) :
    Decidable (Assumed world label) :=
  match label with
  | .call _ _ _ => inferInstanceAs (Decidable (_ ∧ _))
  | .read _ _ => inferInstanceAs (Decidable True)
  | .serve _ faults =>
      inferInstanceAs (Decidable (faults.fails .unlink = none))
  | .receive _ => inferInstanceAs (Decidable True)

instance decidableApart (world : FileWrites) (label : WriteStep) :
    Decidable (Apart world label) :=
  match label with
  | .call _ path _ =>
      inferInstanceAs (Decidable (∀ other call,
        world.calls.lookup other = some call →
          (call.stage.isSettled = false →
            components path ≠ temporaryPath other call.path)))
  | .read _ _ => inferInstanceAs (Decidable True)
  | .serve _ _ => inferInstanceAs (Decidable True)
  | .receive _ => inferInstanceAs (Decidable True)

instance decidableCareful (world : FileWrites) (label : WriteStep) :
    Decidable (Careful world label) :=
  inferInstanceAs (Decidable (_ ∧ _))

section Replay

variable (library : WriteLibrary)
  (permitted : FileWrites → WriteStep → Prop)
  [∀ world label, Decidable (permitted world label)]

/-- Where permitted steps lead, or the start where one of them is not. -/
def replayed (world : FileWrites) (labels : List WriteStep) : FileWrites :=
  (run (guarded permitted (step library)) world labels).getD world

theorem moves_replayed (world : FileWrites) (labels : List WriteStep) :
    ReflTransGen (Moves library permitted) world
      (replayed library permitted world labels) := by
  rw [replayed]
  cases replay : run (guarded permitted (step library)) world labels with
  | none => exact .refl
  | some final =>
      apply reflTransGen_of_run _ replay
      intro state label next taken
      exact ⟨label, guarded_eq_some_iff.mp taken⟩

end Replay

private def letterLibrary : WriteLibrary where
  sha256 bytes :=
    if bytes = [0x62] then
      { hex :=
          "3e23e8160039594a33894f6564e1b1348bbd7a0088d42c4acb73eeaed59c009d"
        isHex := by decide }
    else .ofLetter
  chunk := .canonical
  quoted path := String.ofList ('"' :: (path ++ ['"']))

private def idleWrites : FileWrites where
  writer := { workspace := .empty, writes := ∅ }
  calls := ∅

private theorem idleWrites_initial : Initial idleWrites where
  calls := rfl
  writes := rfl

private def firstTransfer : Text :=
  "2f1c1a52-8f4e-4c35-9b0a-0f2f5d3c7a11".toList

private def secondTransfer : Text :=
  "9d0e6b3a-4b7c-4a52-8d2e-6a1f0c9b8e22".toList

private def openedWrite (id path : Text) (data : Bytes) : List WriteStep :=
  [.call id path false, .serve id .none, .receive id, .read id (.chunk data),
    .serve id .none, .receive id]

private def closedWrite (id : Text) : List WriteStep :=
  [.read id .done, .serve id .none, .receive id]

/-- A file of the letter `b`. -/
private def letterWrites : FileWrites where
  writer :=
    { workspace := (Volume.empty.create [['a']]).append 0 [0x62]
      writes := ∅ }
  calls := ∅

private theorem letterWrites_initial : Initial letterWrites where
  calls := rfl
  writes := rfl

private def fullDisk : Faults where
  fails call := if call = .write then some .noSpace else none

/-- Two writes to the same file, the second of which finds the disk full. -/
private def letterWritten : FileWrites :=
  replayed letterLibrary Careful letterWrites
    ([.call firstTransfer ['a'] false, .serve firstTransfer .none,
      .call secondTransfer ['a'] false, .receive firstTransfer,
      .serve secondTransfer .none, .receive secondTransfer,
      .read secondTransfer (.chunk [0x62, 0x62]),
      .read firstTransfer (.chunk [0x61]), .serve secondTransfer fullDisk,
      .serve firstTransfer .none, .receive secondTransfer,
      .serve secondTransfer .none, .receive firstTransfer,
      .receive secondTransfer] ++ closedWrite firstTransfer)

private theorem letterWritten_failed :
    ∃ call failure, letterWritten.calls.lookup secondTransfer = some call ∧
      call.stage = .settled (.error failure) :=
  ⟨_, _, rfl, rfl⟩

/-- The write that fails leaves nothing, and the other one is published. -/
theorem writes_atomic_letter :
    Atomic letterLibrary (Moves letterLibrary Careful) letterWrites
        letterWritten ∧
      letterWrites.holds ['a'] = some [0x62] ∧
      letterWritten.holds ['a'] = some [0x61] ∧
      letterWritten.writer.workspace.links.keys = [[['a']]] ∧
      ∃ call failure, letterWritten.calls.lookup secondTransfer = some call ∧
        call.stage = .settled (.error failure) :=
  ⟨writes_atomic letterWrites_initial (moves_replayed _ _ _ _),
    by decide +kernel, by decide +kernel, by decide +kernel,
    letterWritten_failed⟩

private def letterCalled : FileWrites :=
  replayed letterLibrary Assumed idleWrites [.call firstTransfer ['a'] false]

/-- The first write goes on, the second one takes its temporary file for a
target, and both are committed. -/
private def letterReplaced : FileWrites :=
  replayed letterLibrary Assumed letterCalled
    (.serve firstTransfer .none :: .receive firstTransfer ::
      .read firstTransfer (.chunk [0x61]) :: .serve firstTransfer .none ::
      .receive firstTransfer ::
      (openedWrite secondTransfer (temporaryName firstTransfer) [0x62] ++
        closedWrite secondTransfer ++ closedWrite firstTransfer))

private theorem letterReplaced_notWritten :
    ∀ id call, letterReplaced.calls.lookup id = some call →
      components call.path = components ['a'] →
        call.chunks.flatten ≠ [0x62] := by
  decide +kernel

/-- The temporary file of one write is the target of another, and its content
is published as the first one's. -/
theorem temporary_file_published :
    ¬∀ library start world, Initial start →
      ReflTransGen (Moves library Assumed) start world →
      Atomic library (Moves library Assumed) start world := by
  intro atomic
  have before : ReflTransGen (Moves letterLibrary Assumed) idleWrites
      letterCalled := moves_replayed _ _ _ _
  have after : ReflTransGen (Moves letterLibrary Assumed) letterCalled
      letterReplaced := moves_replayed _ _ _ _
  have isCalled : (letterCalled.calls.lookup firstTransfer).map
      WriteCall.path = some ['a'] := by
    decide +kernel
  obtain ⟨call, found, isPath⟩ := Option.map_eq_some_iff.mp isCalled
  have held := (atomic letterLibrary idleWrites letterReplaced
    idleWrites_initial (before.trans after)).held letterCalled before after
      firstTransfer call found
  rw [isPath] at held
  have earlier : letterCalled.holds ['a'] = none := by
    decide +kernel
  have later : letterReplaced.holds ['a'] = some [0x62] := by
    decide +kernel
  rw [earlier, later] at held
  rcases held with same | ⟨bytes, ⟨id, source, isSource, isTarget, -, whole⟩,
    isBytes⟩
  · cases same
  · cases isBytes
    exact letterReplaced_notWritten id source isSource isTarget whole.symm

end FileWrites

end Electrosphere
