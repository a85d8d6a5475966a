import Electrosphere.Storage.Tar
import Mathlib.Data.List.Chain
import Mathlib.Logic.Relation

/-!
# The archive as a stream

`workspaceTarStream` hands the chunks on through a queue with room for one,
and `restoreWorkspace` writes them to a file.  The chunks of a file are views
into one buffer, and the next read into it may come before the view has been
written.
-/

namespace Electrosphere.Tar

open Workspace

/-- A chunk as it is handed on: bytes of its own, or so many bytes from the
front of the buffer of a file. -/
inductive View where
  | own (bytes : Bytes)
  | buffer (file : List Text) (length : Nat)
  deriving DecidableEq

/-- The contents of the buffers. -/
abbrev Buffers := List Text → Bytes

def Chunk.handed : Chunk → View
  | .own bytes => .own bytes
  | .view file block => .buffer file block.length

/-- `file.read(buffer, 0, length, offset)`: the block replaces the front of
the buffer. -/
def Chunk.load (buffers : Buffers) : Chunk → Buffers
  | .own _ => buffers
  | .view file block => fun other =>
      if other = file then block ++ (buffers file).drop block.length
      else buffers other

/-- What is seen through a view now. -/
def View.bytes (buffers : Buffers) : View → Bytes
  | .own bytes => bytes
  | .buffer file length => (buffers file).take length

/-- The default of `highWaterMark`. -/
def highWaterMark : Nat := 1

/-- The generator with the chunks it will yield, the queue of the stream, the
chunk that the consumer has been given, and the file it writes. -/
structure Restoring where
  pending : List Chunk
  buffers : Buffers
  queue : List View
  held : Option View
  written : Bytes

namespace Restoring

def start (chunks : List Chunk) (buffers : Buffers) : Restoring where
  pending := chunks
  buffers := buffers
  queue := []
  held := none
  written := []

/-- All chunks have been yielded and written. -/
structure Finished (state : Restoring) : Prop where
  pending : state.pending = []
  queue : state.queue = []
  held : state.held = none

end Restoring

/-- `pull` runs when the queue has room, `reader.read()` takes the next chunk,
and `target.write` writes what the chunk shows then. -/
inductive Restoring.Step : Restoring → Restoring → Prop where
  | pull {state : Restoring} {chunk : Chunk} {pending : List Chunk} :
      state.pending = chunk :: pending →
      state.queue.length < highWaterMark →
      Step state { state with
        pending
        buffers := chunk.load state.buffers
        queue := state.queue ++ [chunk.handed] }
  | read {state : Restoring} {view : View} {queue : List View} :
      state.queue = view :: queue → state.held = none →
      Step state { state with queue, held := some view }
  | write {state : Restoring} {view : View} :
      state.held = some view →
      Step state { state with
        held := none
        written := state.written ++ view.bytes state.buffers }

namespace Restoring

/-- Any number of steps. -/
def Runs : Restoring → Restoring → Prop := Relation.ReflTransGen Step

end Restoring

/-! ## Chunks that can follow each other -/

/-- The second chunk does not change what is seen of the first: it lies in
another buffer, or both agree as far as they reach. -/
def Compatible : Chunk → Chunk → Prop
  | .view file block, .view other next =>
      file = other → next.take block.length = block.take next.length
  | _, _ => True

variable {chunk first second : Chunk} {buffers : Buffers}

theorem bytes_load (buffers : Buffers) (chunk : Chunk) :
    chunk.handed.bytes (chunk.load buffers) = chunk.bytes := by
  cases chunk with
  | own bytes => rfl
  | view file block =>
      simp [Chunk.handed, View.bytes, Chunk.load, Chunk.bytes]

/-- What is seen of a chunk after the next one has been loaded. -/
theorem bytes_load_iff (isFirst : first.handed.bytes buffers = first.bytes) :
    first.handed.bytes (second.load buffers) = first.bytes ↔
      Compatible first second := by
  cases first with
  | own bytes => simp [Chunk.handed, View.bytes, Chunk.bytes, Compatible]
  | view file block =>
      cases second with
      | own bytes => simpa [Chunk.load, Compatible] using isFirst
      | view other next =>
          simp only [Chunk.handed, View.bytes, Chunk.bytes] at isFirst
          simp only [Chunk.handed, View.bytes, Chunk.bytes, Chunk.load,
            Compatible]
          by_cases same : file = other
          · subst same
            simp only [if_true, forall_const]
            rw [List.take_append, ← List.drop_take, isFirst]
            have kept := congrArg
              (next.take block.length ++ block.drop next.length = ·)
              (List.take_append_drop next.length block).symm
            exact (iff_of_eq kept).trans (List.append_left_inj _)
          · simp [same, isFirst]

/-! ## Every schedule -/

/-- What has been written, what is held, what is queued and what is to come
are the chunks, and the views show them. -/
structure Sound (chunks : List Chunk) (state : Restoring) : Prop where
  intro ::
  shows : ∃ (done : List Chunk) (held queued : Option Chunk),
    chunks = done ++ held.toList ++ queued.toList ++ state.pending ∧
    state.written = done.flatMap Chunk.bytes ∧
    state.held = held.map Chunk.handed ∧
    state.queue = queued.toList.map Chunk.handed ∧
    ∀ chunk, held = some chunk ∨ queued = some chunk →
      chunk.handed.bytes state.buffers = chunk.bytes

variable {chunks : List Chunk} {state next : Restoring}

theorem sound_start (chunks : List Chunk) (buffers : Buffers) :
    Sound chunks (.start chunks buffers) := by
  constructor
  exact ⟨[], none, none, rfl, rfl, rfl, rfl, by simp⟩

theorem Sound.step (compatible : chunks.IsChain Compatible)
    (sound : Sound chunks state) (steps : Restoring.Step state next) :
    Sound chunks next := by
  obtain ⟨done, held, queued, isChunks, isWritten, isHeld, isQueue, shown⟩ :=
    sound.shows
  cases steps with
  | @pull chunk pending isPending room =>
      cases queued with
      | some first => simp [isQueue, highWaterMark] at room
      | none =>
          constructor
          refine ⟨done, held, some chunk, ?_, isWritten, isHeld, ?_, ?_⟩
          · rw [isChunks, isPending]
            simp
          · rw [isQueue]
            rfl
          · rintro other (isOther | isOther)
            · apply (bytes_load_iff (shown other (.inl isOther))).mpr
              subst isOther
              rw [isChunks, isPending] at compatible
              simp only [Option.toList_some, Option.toList_none,
                List.append_nil, List.append_assoc, List.singleton_append]
                at compatible
              exact (List.isChain_append_cons_cons.mp compatible).2.1
            · cases isOther
              exact bytes_load _ _
  | @read view queue isFront noneHeld =>
      cases queued with
      | none =>
          rw [isQueue] at isFront
          cases isFront
      | some chunk =>
          rw [isQueue] at isFront
          cases isFront
          have free : held = none := by
            rw [noneHeld] at isHeld
            exact (Option.map_eq_none_iff.mp isHeld.symm)
          subst free
          constructor
          refine ⟨done, some chunk, none, ?_, isWritten, rfl, rfl, ?_⟩
          · rw [isChunks]
            simp
          · intro other isOther
            exact shown other (isOther.symm.imp_left id)
  | @write view isView =>
      cases held with
      | none =>
          rw [isHeld] at isView
          cases isView
      | some chunk =>
          rw [isHeld] at isView
          cases isView
          constructor
          refine ⟨done ++ [chunk], none, queued, ?_, ?_, rfl, isQueue, ?_⟩
          · rw [isChunks]
            simp
          · rw [isWritten, shown chunk (.inl rfl)]
            simp
          · intro other isOther
            exact shown other (isOther.imp_left nofun)

theorem Sound.runs (compatible : chunks.IsChain Compatible)
    (sound : Sound chunks state) (runs : state.Runs next) :
    Sound chunks next := by
  induction runs with
  | refl => exact sound
  | tail _ steps induction => exact induction.step compatible steps

theorem Sound.written_eq (sound : Sound chunks state)
    (finished : state.Finished) :
    state.written = chunks.flatMap Chunk.bytes := by
  obtain ⟨done, held, queued, isChunks, isWritten, isHeld, isQueue, -⟩ :=
    sound.shows
  rw [finished.held] at isHeld
  rw [finished.queue] at isQueue
  have noneHeld := Option.map_eq_none_iff.mp isHeld.symm
  have noneQueued : queued = none := by
    cases queued with
    | none => rfl
    | some chunk => cases isQueue
  subst noneHeld
  subst noneQueued
  rw [finished.pending] at isChunks
  simp only [Option.toList_none, List.append_nil] at isChunks
  rw [isWritten, isChunks]

/-! ## Two schedules -/

/-- Between two chunks: nothing is queued or held. -/
def idle (pending : List Chunk) (buffers : Buffers) (written : Bytes) :
    Restoring where
  pending := pending
  buffers := buffers
  queue := []
  held := none
  written := written

/-- Each chunk is written before the next one is pulled. -/
theorem runs_in_turn (before after : List Chunk) (buffers : Buffers)
    (written : Bytes) :
    ∃ later, (idle (before ++ after) buffers written).Runs
      (idle after later (written ++ before.flatMap Chunk.bytes)) := by
  induction before generalizing buffers written with
  | nil =>
      refine ⟨buffers, ?_⟩
      rw [List.flatMap_nil, List.append_nil]
      exact Relation.ReflTransGen.refl
  | cons chunk before induction =>
      obtain ⟨later, runs⟩ := induction (chunk.load buffers)
        (written ++ chunk.bytes)
      refine ⟨later, ?_⟩
      have shown := bytes_load buffers chunk
      rw [List.flatMap_cons, ← List.append_assoc]
      apply Relation.ReflTransGen.head (.pull rfl Nat.one_pos)
      apply Relation.ReflTransGen.head (.read rfl rfl)
      apply Relation.ReflTransGen.head (.write rfl)
      rw [← shown] at runs ⊢
      exact runs

/-- The second chunk is pulled before the first has been written. -/
theorem runs_ahead (first second : Chunk) (after : List Chunk)
    (buffers : Buffers) (written : Bytes) :
    ∃ later, (idle (first :: second :: after) buffers written).Runs
      (idle after later (written ++
        first.handed.bytes (second.load (first.load buffers)) ++
        second.bytes)) := by
  have shown := bytes_load (first.load buffers) second
  refine ⟨second.load (first.load buffers), ?_⟩
  rw [← shown]
  apply Relation.ReflTransGen.head (.pull rfl Nat.one_pos)
  apply Relation.ReflTransGen.head (.read rfl rfl)
  apply Relation.ReflTransGen.head (.pull rfl Nat.one_pos)
  apply Relation.ReflTransGen.head (.write rfl)
  apply Relation.ReflTransGen.head (.read rfl rfl)
  apply Relation.ReflTransGen.head (.write rfl)
  exact Relation.ReflTransGen.refl

/-- Every schedule writes the chunks. -/
def Faithful (chunks : List Chunk) (buffers : Buffers) : Prop :=
  ∀ state, (Restoring.start chunks buffers).Runs state → state.Finished →
    state.written = chunks.flatMap Chunk.bytes

/-- It depends on the chunks that follow each other, and on nothing else. -/
theorem faithful_iff (chunks : List Chunk) (buffers : Buffers) :
    Faithful chunks buffers ↔ chunks.IsChain Compatible := by
  constructor
  · intro faithful
    apply List.isChain_iff_forall_rel_of_append_cons_cons.mpr
    intro first second before after isChunks
    obtain ⟨middle, toFirst⟩ := runs_in_turn before
      (first :: second :: after) buffers []
    obtain ⟨later, past⟩ := runs_ahead first second after middle
      ([] ++ before.flatMap Chunk.bytes)
    obtain ⟨last, toEnd⟩ := runs_in_turn after [] later
      ([] ++ before.flatMap Chunk.bytes ++
        first.handed.bytes (second.load (first.load middle)) ++ second.bytes)
    rw [List.append_nil] at toEnd
    have written := faithful _ (by
      rw [isChunks]
      exact (toFirst.trans past).trans toEnd) ⟨rfl, rfl, rfl⟩
    rw [isChunks, idle] at written
    simp only [List.flatMap_append, List.flatMap_cons, List.nil_append,
      List.append_assoc, List.append_cancel_left_eq] at written
    apply (bytes_load_iff (bytes_load middle first)).mp
    exact List.append_cancel_right written
  · intro compatible state runs finished
    exact ((sound_start chunks buffers).runs compatible runs).written_eq
      finished

end Electrosphere.Tar
