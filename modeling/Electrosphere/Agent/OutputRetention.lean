import Electrosphere.Agent.Executions
import Electrosphere.Foundation.Transition
import Electrosphere.Foundation.Utf8Split

/-!
# What is kept of an output

The guest keeps the two ends of a long output, and the host cuts what the guest
has kept once more.  The ends that the guest keeps depend on the output alone.
The host infers what is missing from the total and from its own limit.
-/

namespace Electrosphere.Agent

open Foundation

/-! ## The guest -/

theorem maxOutputBytes_lt_usizeMax : maxOutputBytes < usizeMax := by decide

/-- What is kept of an output. -/
def retained (output : Bytes) : Bytes :=
  let side := maxOutputBytes / 2
  if output.length ≤ maxOutputBytes then output
  else output.take side ++ output.drop (output.length - side)

theorem length_retained (output : Bytes) :
    (retained output).length = min output.length maxOutputBytes := by
  have even : maxOutputBytes / 2 * 2 = maxOutputBytes := by decide
  by_cases short : output.length ≤ maxOutputBytes
  · rw [retained, if_pos short]
    omega
  · rw [retained, if_neg short, List.length_append, List.length_take,
      List.length_drop]
    omega

section Ends

variable {α : Type} {output chunk : List α} {side : Nat}

/-- An output whose middle is gone still has its first bytes. -/
theorem take_ends (long : side ≤ output.length) :
    (output.take side ++ output.drop (output.length - side) ++ chunk).take side =
      (output ++ chunk).take side := by
  have first : side ≤ (output.take side).length := by
    rw [List.length_take]
    omega
  rw [List.append_assoc, List.take_append_of_le_length first, List.take_take,
    Nat.min_self, List.take_append_of_le_length long]

/-- It has its last bytes too, and those of what comes after it. -/
theorem drop_ends (long : side ≤ output.length) :
    (output.take side ++ output.drop (output.length - side) ++ chunk).drop
        (side + chunk.length) =
      (output ++ chunk).drop (output.length + chunk.length - side) := by
  have length : (output.take side).length = side := by
    rw [List.length_take]
    omega
  have within : output.length - side + chunk.length =
      output.length + chunk.length - side := by omega
  calc
    _ = (output.drop (output.length - side) ++ chunk).drop chunk.length := by
      rw [List.append_assoc, ← List.drop_drop, List.drop_left' length]
    _ = ((output ++ chunk).drop (output.length - side)).drop chunk.length := by
      have start : output.length - side ≤ output.length := Nat.sub_le _ _
      rw [List.drop_append_of_le_length start]
    _ = _ := by rw [List.drop_drop, within]

end Ends

namespace OutputBuffer

/-- A buffer that has seen an output. -/
structure Retains (buffer : OutputBuffer) (output : Bytes) : Prop where
  bytes : buffer.bytes = retained output
  total : buffer.total = min output.length usizeMax

theorem retains_nil : Retains {} [] := by
  constructor
  · rfl
  · rfl

theorem Retains.length {buffer : OutputBuffer} {output : Bytes}
    (retains : buffer.Retains output) :
    buffer.bytes.length = min output.length maxOutputBytes := by
  rw [retains.bytes, length_retained]

private theorem bytes_append {buffer : OutputBuffer} {output chunk : Bytes}
    (retains : buffer.Retains output) :
    (buffer.append chunk).bytes = retained (output ++ chunk) := by
  have length := retains.length
  have total := retains.total
  have appended : (output ++ chunk).length = output.length + chunk.length :=
    List.length_append
  obtain ⟨side, half, even⟩ :
      ∃ side, maxOutputBytes / 2 = side ∧ side + side = maxOutputBytes :=
    ⟨_, rfl, by decide⟩
  have room := maxOutputBytes_lt_usizeMax
  unfold append
  by_cases fits : (output ++ chunk).length ≤ maxOutputBytes
  · -- Nothing has been dropped so far.
    have whole : retained output = output := if_pos (by omega)
    have small : min (buffer.total + chunk.length) usizeMax ≤ maxOutputBytes := by
      omega
    simp only [small, if_true]
    rw [retains.bytes, whole, retained, if_pos fits]
  · have large : ¬ min (buffer.total + chunk.length) usizeMax ≤
        maxOutputBytes := by omega
    simp only [large, if_false, half]
    rw [retained, if_neg fits, retains.bytes, half]
    by_cases before : output.length ≤ maxOutputBytes
    · -- The first overflow.
      have whole : retained output = output := if_pos before
      have first : min side (output.length + chunk.length) = side := by omega
      have last : max (output.length + chunk.length - side) side =
          output.length + chunk.length - side := by omega
      rw [whole, appended, first, last]
    · have ends : retained output =
          output.take side ++ output.drop (output.length - side) := by
        rw [retained, if_neg before, half]
      have long : side ≤ output.length := by omega
      have kept : (retained output ++ chunk).length =
          side + side + chunk.length := by
        rw [List.length_append, length_retained]
        omega
      have first : min side (side + side + chunk.length) = side := by omega
      have last : max (side + side + chunk.length - side) side =
          side + chunk.length := by omega
      rw [kept, appended, first, last, ← take_ends long, ← drop_ends long, ← ends]

/-- One chunk more. -/
theorem Retains.append {buffer : OutputBuffer} {output : Bytes}
    (retains : buffer.Retains output) (chunk : Bytes) :
    (buffer.append chunk).Retains (output ++ chunk) := by
  constructor
  · exact bytes_append retains
  · have total : (buffer.append chunk).total =
        min (buffer.total + chunk.length) usizeMax := by
      unfold OutputBuffer.append
      apply apply_ite OutputBuffer.total _ _ _ |>.trans
      exact ite_self _
    rw [total, retains.total, List.length_append]
    omega

/-- However an output is cut into chunks. -/
theorem retains_chunks (chunks : List Bytes) {buffer : OutputBuffer}
    {output : Bytes} (retains : buffer.Retains output) :
    (chunks.foldl append buffer).Retains (output ++ chunks.flatten) := by
  induction chunks generalizing buffer output with
  | nil => simpa using retains
  | cons chunk chunks induction =>
      have rest := induction (retains.append chunk)
      rw [List.append_assoc] at rest
      exact rest

/-- The chunks of an output leave no trace in what is kept of it. -/
theorem keeps_both_ends (chunks : List Bytes)
    (below : chunks.flatten.length < 2 ^ 64) :
    let buffer := chunks.foldl append {}
    let output := chunks.flatten
    let side := maxOutputBytes / 2
    (output.length ≤ maxOutputBytes → buffer.bytes = output) ∧
      (maxOutputBytes < output.length →
        buffer.bytes =
          output.take side ++ output.drop (output.length - side)) ∧
      buffer.total = output.length ∧
      buffer.snapshot =
        (buffer.bytes, output.length, output.length - buffer.bytes.length) := by
  have retains : (chunks.foldl append {}).Retains chunks.flatten := by
    simpa using retains_chunks chunks retains_nil
  have total : (chunks.foldl append {}).total = chunks.flatten.length := by
    rw [retains.total]
    unfold usizeMax
    omega
  refine ⟨fun short => ?_, fun long => ?_, total, ?_⟩
  · rw [retains.bytes, retained, if_pos short]
  · rw [retains.bytes, retained, if_neg (Nat.not_le.mpr long)]
  · rw [snapshot, total]

/-- A hundred chunks of one letter and a hundred of another. -/
def twoLetters : List Bytes :=
  List.replicate 100 (List.replicate 8192 97) ++
    List.replicate 100 (List.replicate 8192 98)

theorem flatten_twoLetters : twoLetters.flatten =
    List.replicate 819200 97 ++ List.replicate 819200 98 := by
  rw [twoLetters, List.flatten_append, List.flatten_replicate_replicate,
    List.flatten_replicate_replicate]

theorem length_twoLetters : twoLetters.flatten.length = 1638400 := by
  rw [flatten_twoLetters, List.length_append, List.length_replicate,
    List.length_replicate]

/-- Half a mebibyte is kept of each letter. -/
theorem keeps_both_ends_twoLetters :
    (twoLetters.foldl append {}).snapshot =
      (List.replicate 524288 97 ++ List.replicate 524288 98, 1638400,
        589824) := by
  have below : twoLetters.flatten.length < 2 ^ 64 := by
    rw [length_twoLetters]
    decide
  obtain ⟨-, ends, -, isSnapshot⟩ := keeps_both_ends twoLetters below
  have kept : (twoLetters.foldl append {}).bytes =
      List.replicate 524288 97 ++ List.replicate 524288 98 := by
    have half : maxOutputBytes / 2 = 524288 := by decide
    rw [ends (by rw [length_twoLetters]; decide), length_twoLetters,
      flatten_twoLetters, half, List.take_append, List.drop_append,
      List.take_replicate, List.take_replicate, List.drop_replicate,
      List.drop_replicate, List.length_replicate]
    have first : min 524288 819200 = 524288 ∧
        min (524288 - 819200) 819200 = 0 := by decide
    have last : 819200 - (1638400 - 524288) = 0 ∧
        819200 - (1638400 - 524288 - 819200) = 524288 := by decide
    rw [first.1, first.2, last.1, last.2, List.replicate_zero,
      List.replicate_zero, List.append_nil, List.nil_append]
  rw [isSnapshot, kept, length_twoLetters, List.length_append,
    List.length_replicate, List.length_replicate]

end OutputBuffer

/-! ## Polls -/

def Ascii (bytes : Bytes) : Prop := ∀ byte ∈ bytes, byte.toNat ≤ 0x7F

namespace Ascii

theorem take {bytes : Bytes} (ascii : Ascii bytes) (count : Nat) :
    Ascii (bytes.take count) :=
  fun byte member => ascii byte (List.mem_of_mem_take member)

theorem drop {bytes : Bytes} (ascii : Ascii bytes) (count : Nat) :
    Ascii (bytes.drop count) :=
  fun byte member => ascii byte (List.mem_of_mem_drop member)

theorem append {first second : Bytes} (ascii : Ascii first)
    (other : Ascii second) : Ascii (first ++ second) := by
  intro byte member
  cases List.mem_append.mp member with
  | inl isFirst => exact ascii byte isFirst
  | inr isSecond => exact other byte isSecond

/-- Every byte is a character. -/
theorem decodeLossy {bytes : Bytes} (ascii : Ascii bytes) :
    Utf8.decodeLossy bytes = bytes.map fun byte => Char.ofNat byte.toNat := by
  induction bytes with
  | nil => rfl
  | cons byte bytes induction =>
      have decoded :=
        Utf8.decodeLossy_single [] bytes (ascii byte List.mem_cons_self)
      have rest := induction fun later member =>
        ascii later (List.mem_cons_of_mem _ member)
      rw [List.nil_append, rest] at decoded
      exact decoded

theorem length_decodeLossy {bytes : Bytes} (ascii : Ascii bytes) :
    (Utf8.decodeLossy bytes).length = bytes.length := by
  rw [ascii.decodeLossy, List.length_map]

theorem encode_decodeLossy {bytes : Bytes} (ascii : Ascii bytes) :
    Utf8.encode (Utf8.decodeLossy bytes) = bytes := by
  rw [ascii.decodeLossy]
  induction bytes with
  | nil => rfl
  | cons byte bytes induction =>
      have rest := induction fun later member =>
        ascii later (List.mem_cons_of_mem _ member)
      rw [List.map_cons, Utf8.encode_cons, rest,
        Utf8.encode_single (ascii byte List.mem_cons_self)]
      rfl

end Ascii

/-- What `poll` of a backend makes of an answer of the agent. -/
def pollResult (record : ExecutionResult) (now : Nat) (response : Response) :
    ExecutionResult :=
  let state := response.state.getD .lost
  let output := Utf8.encode (response.output.getD [])
  let originalBytes := response.originalBytes.getD output.length
  { state
    exitCode := response.exitCode.or record.exitCode
    output
    startedAt := record.startedAt
    finishedAt := if state = .running then record.finishedAt else some now
    originalBytes := some originalBytes
    outputOmittedBytes := some
      (response.outputOmittedBytes.getD (originalBytes - output.length)) }

/-- A command with what the guest has kept of its output, and the session that
polls it. -/
structure Polling where
  buffer : OutputBuffer := {}
  record : ExecutionResult
  session : Session
  /-- All the output, which no step looks at. -/
  written : Bytes := []
  /-- How much of it there was at the last response. -/
  seen : Nat := 0

/-- What a poll is answered with, and when. -/
structure Poll where
  executionId : ExecutionId
  state : ExecutionState
  exitCode : Option Int
  now : Nat
  maxOutputTokens : Option Nat
  killed : Bool

inductive Activity where
  | output (chunk : Bytes)
  | poll (poll : Poll)

namespace Polling

def result (polling : Polling) (poll : Poll) : ExecutionResult :=
  pollResult polling.record poll.now
    (responseWithOutput
      (responseOk poll.executionId poll.state poll.exitCode) polling.buffer)

def respond (maxOutputBytes : Nat) (polling : Polling) (poll : Poll) :
    Session × ShellResult :=
  response maxOutputBytes poll.now polling.session (polling.result poll)
    poll.maxOutputTokens poll.killed

def next (maxOutputBytes : Nat) (polling : Polling) : Activity → Polling
  | .output chunk =>
      { polling with
        buffer := polling.buffer.append chunk
        written := polling.written ++ chunk }
  | .poll poll =>
      { polling with
        record := polling.result poll
        session := (polling.respond maxOutputBytes poll).1
        seen := polling.written.length }

/-- Before the command has written or been polled. -/
structure Fresh (polling : Polling) : Prop where
  buffer : polling.buffer = {}
  cursor : polling.session.cursor = 0
  written : polling.written = []
  seen : polling.seen = 0

def Writes : Activity → Prop
  | .output chunk => Ascii chunk
  | .poll _ => True

def Reachable (maxOutputBytes : Nat) : Polling → Prop :=
  Foundation.Reachable
    (fun polling activity => some (polling.next maxOutputBytes activity))
    Fresh Writes

/-- How many bytes a response is about. -/
def fresh (polling : Polling) : Nat :=
  if polling.written.length ≤ maxOutputBytes then
    polling.written.length - polling.seen
  else polling.written.length

end Polling

/-- The line that stands for what is missing. -/
def omissionNotice (omitted : Nat) : List Char :=
  ("\n... " ++ toString omitted ++ " bytes omitted ...\n").toList

/-- How many characters of a response are of the command. -/
def present (result : ShellResult) : Nat :=
  result.output.length -
    if result.truncated then (omissionNotice result.outputOmittedBytes).length
    else 0

/-- A response says what is missing. -/
structure Accounts (result : ShellResult) (fresh : Nat) : Prop where
  omitted : result.outputOmittedBytes + present result = fresh
  truncated : result.truncated = true ↔ 0 < result.outputOmittedBytes

/-- A response made of a shaped output. -/
structure Carries (result : ShellResult) (shaped : ShapedOutput) : Prop where
  output : result.output = shaped.output
  omitted : result.outputOmittedBytes = shaped.omitted
  truncated : result.truncated = shaped.truncated

section Shapes

variable {result : ShellResult} {bytes : Bytes} {limit originalBytes : Nat}
  {maxOutputTokens : Option Nat}

/-- All the bytes fit. -/
theorem Carries.accounts_whole
    (carries : Carries result
      (shapeOutput limit bytes maxOutputTokens originalBytes))
    (ascii : Ascii bytes)
    (fits : originalBytes ≤ outputLimit limit maxOutputTokens ∧
      bytes.length ≤ outputLimit limit maxOutputTokens) (fresh : Nat) :
    Accounts result fresh ↔ bytes.length = fresh := by
  obtain ⟨output, omitted, truncated⟩ := carries
  unfold shapeOutput at output omitted truncated
  simp only [fits, and_self, if_true] at output omitted truncated
  have shown : present result = bytes.length := by
    unfold present
    rw [output, truncated, ascii.length_decodeLossy]
    rfl
  constructor
  · intro accounts
    have same := accounts.omitted
    rw [omitted, shown] at same
    omega
  · intro same
    constructor
    · rw [omitted, shown]
      omega
    · rw [omitted, truncated]
      simp

/-- The bytes are cut. -/
theorem Carries.accounts_cut
    (carries : Carries result
      (shapeOutput limit bytes maxOutputTokens originalBytes))
    (ascii : Ascii bytes)
    (large : ¬ (originalBytes ≤ outputLimit limit maxOutputTokens ∧
      bytes.length ≤ outputLimit limit maxOutputTokens)) (fresh : Nat)
    {side : Nat} (half : outputLimit limit maxOutputTokens / 2 = side) :
    Accounts result fresh ↔
      originalBytes - side * 2 + (min side bytes.length +
        (bytes.length - max side (bytes.length - side))) = fresh ∧
      0 < originalBytes - side * 2 := by
  obtain ⟨output, omitted, truncated⟩ := carries
  unfold shapeOutput at output omitted truncated
  simp only [large, if_false, half] at output omitted truncated
  have shown : present result = min side bytes.length +
      (bytes.length - max side (bytes.length - side)) := by
    unfold present omissionNotice
    rw [output, truncated, omitted, List.length_append, List.length_append,
      (ascii.take _).length_decodeLossy, (ascii.drop _).length_decodeLossy,
      List.length_take, List.length_drop, if_pos rfl]
    omega
  constructor
  · intro accounts
    constructor
    · rw [← omitted, ← shown]
      exact accounts.omitted
    · rw [← omitted]
      exact accounts.truncated.mp truncated
  · intro facts
    constructor
    · rw [omitted, shown]
      exact facts.1
    · rw [omitted, truncated]
      exact iff_of_true rfl facts.2

end Shapes

/-! ## What a poll sees -/

namespace Polling

structure Sound (polling : Polling) : Prop where
  retains : polling.buffer.Retains polling.written
  ascii : Ascii polling.written
  cursor : polling.session.cursor = min polling.seen usizeMax
  seen : polling.seen ≤ polling.written.length

theorem Fresh.sound {polling : Polling} (fresh : polling.Fresh) :
    polling.Sound := by
  constructor
  · rw [fresh.buffer, fresh.written]
    exact OutputBuffer.retains_nil
  · rw [fresh.written]
    intro byte member
    cases member
  · rw [fresh.cursor, fresh.seen]
    rfl
  · rw [fresh.seen]
    exact Nat.zero_le _

section Sound

variable {polling : Polling} (sound : polling.Sound)

include sound

theorem Sound.bytes_ascii : Ascii polling.buffer.bytes := by
  rw [sound.retains.bytes, retained]
  split
  · exact sound.ascii
  · exact (sound.ascii.take _).append (sound.ascii.drop _)

theorem Sound.result_output (poll : Poll) :
    (polling.result poll).output = polling.buffer.bytes :=
  sound.bytes_ascii.encode_decodeLossy

theorem Sound.result_originalBytes (poll : Poll) :
    (polling.result poll).originalBytes =
      some (min polling.written.length usizeMax) :=
  congrArg some sound.retains.total

theorem Sound.result_omitted (poll : Poll) :
    (polling.result poll).outputOmittedBytes =
      some (min polling.written.length usizeMax -
        min polling.written.length maxOutputBytes) := by
  rw [← sound.retains.total, ← sound.retains.length]
  rfl

theorem Sound.respond_cursor (maxOutputBytes : Nat) (poll : Poll) :
    (polling.respond maxOutputBytes poll).1.cursor =
      min polling.written.length usizeMax := by
  unfold respond response
  simp only [sound.result_originalBytes poll, Option.getD_some]

theorem Sound.next (maxOutputBytes : Nat) {activity : Activity}
    (writes : Writes activity) :
    (polling.next maxOutputBytes activity).Sound := by
  cases activity with
  | output chunk =>
      constructor
      · exact sound.retains.append chunk
      · exact sound.ascii.append writes
      · exact sound.cursor
      · exact sound.seen.trans (by simp [Polling.next])
  | poll poll =>
      constructor
      · exact sound.retains
      · exact sound.ascii
      · exact sound.respond_cursor maxOutputBytes poll
      · exact Nat.le_refl _

end Sound

/-- Nothing has been dropped by the guest. -/
theorem Sound.respond_whole {polling : Polling} (sound : polling.Sound)
    (small : polling.written.length ≤ maxOutputBytes) (limit : Nat)
    (poll : Poll) :
    Carries (polling.respond limit poll).2
      (shapeOutput limit (polling.written.drop polling.seen)
        poll.maxOutputTokens (polling.written.length - polling.seen)) := by
  have room := maxOutputBytes_lt_usizeMax
  have seen := sound.seen
  have cursor : polling.session.cursor = polling.seen := by
    rw [sound.cursor]
    omega
  have total : min polling.written.length usizeMax = polling.written.length := by
    omega
  have kept : polling.buffer.bytes = polling.written := by
    rw [sound.retains.bytes, retained, if_pos small]
  have none : ¬ 0 < polling.written.length -
      min polling.written.length maxOutputBytes := by omega
  unfold respond response
  simp only [sound.result_output, sound.result_originalBytes,
    sound.result_omitted, Option.getD_some, none, if_false, cursor, total, kept]
  exact ⟨rfl, rfl, rfl⟩

/-- The guest has dropped the middle. -/
theorem Sound.respond_ends {polling : Polling} (sound : polling.Sound)
    (large : maxOutputBytes < polling.written.length) (limit : Nat)
    (poll : Poll) :
    Carries (polling.respond limit poll).2
      (shapeOutput limit polling.buffer.bytes poll.maxOutputTokens
        (min polling.written.length usizeMax)) := by
  have room := maxOutputBytes_lt_usizeMax
  have some : 0 < min polling.written.length usizeMax -
      min polling.written.length maxOutputBytes := by omega
  unfold respond response
  simp only [sound.result_output, sound.result_originalBytes,
    sound.result_omitted, Option.getD_some, some, if_true]
  exact ⟨rfl, rfl, rfl⟩

/-- When the loss that the host infers is the loss. -/
def LossKnown (polling : Polling) (limit : Nat) : Prop :=
  polling.written.length ≤ maxOutputBytes ∨
    (limit / 2 * 2 ≤ maxOutputBytes ∧ limit < polling.written.length ∧
      polling.written.length < 2 ^ 64)

theorem Sound.accounts_iff {polling : Polling} (sound : polling.Sound)
    (limit : Nat) (poll : Poll) :
    Accounts (polling.respond limit poll).2 polling.fresh ↔
      polling.LossKnown (outputLimit limit poll.maxOutputTokens) := by
  have seen := sound.seen
  have room := maxOutputBytes_lt_usizeMax
  have word : 2 ^ 64 = usizeMax + 1 := rfl
  obtain ⟨half, even⟩ : ∃ half, maxOutputBytes = half * 2 := ⟨524288, rfl⟩
  unfold LossKnown
  rw [word]
  generalize isLimit : outputLimit limit poll.maxOutputTokens = bound
  by_cases small : polling.written.length ≤ maxOutputBytes
  · have carries := sound.respond_whole small limit poll
    have ascii := sound.ascii.drop polling.seen
    have isFresh : polling.fresh = polling.written.length - polling.seen :=
      if_pos small
    refine iff_of_true ?_ (.inl small)
    by_cases fits : polling.written.length - polling.seen ≤ bound
    · apply (carries.accounts_whole ascii _ _).mpr
      · rw [isFresh, List.length_drop]
      · rw [isLimit, List.length_drop]
        exact ⟨fits, fits⟩
    · have large : ¬ (polling.written.length - polling.seen ≤ bound ∧
          (polling.written.drop polling.seen).length ≤ bound) :=
        fun both => fits both.1
      rw [← isLimit] at large
      apply (carries.accounts_cut ascii large _ rfl).mpr
      rw [isLimit, isFresh, List.length_drop]
      omega
  · have carries := sound.respond_ends (Nat.not_le.mp small) limit poll
    have length : polling.buffer.bytes.length = maxOutputBytes := by
      rw [sound.retains.length]
      omega
    have isFresh : polling.fresh = polling.written.length := if_neg small
    by_cases fits : min polling.written.length usizeMax ≤ bound ∧
        maxOutputBytes ≤ bound
    · -- The host takes what the guest has kept for everything.
      rw [← isLimit, ← length] at fits
      rw [carries.accounts_whole sound.bytes_ascii fits, length, isFresh]
      omega
    · have large := fits
      rw [← isLimit, ← length] at large
      rw [carries.accounts_cut sound.bytes_ascii large _ rfl, isLimit, length,
        isFresh]
      omega

theorem Reachable.sound {maxOutputBytes : Nat} {polling : Polling}
    (reached : Reachable maxOutputBytes polling) : polling.Sound := by
  apply Foundation.Reachable.invariant _ _ reached
  · intro start isFresh
    exact isFresh.sound
  · intro before activity after sound writes taken
    cases taken
    exact sound.next maxOutputBytes writes

/-- What a response reports as missing is missing exactly as long as the guest
has dropped nothing, or the host cuts what the guest has kept. -/
theorem loss_reported_iff {limit : Nat} {polling : Polling}
    (reached : Reachable limit polling) (poll : Poll) :
    Accounts (polling.respond limit poll).2 polling.fresh ↔
      polling.LossKnown (outputLimit limit poll.maxOutputTokens) :=
  reached.sound.accounts_iff limit poll

/-! ### A command that has been started -/

def started : Polling where
  record := { state := .running, output := [], startedAt := 0 }
  session :=
    { id := 0, instanceId := 0, execution := 0, tty := false, cursor := 0,
      lastUsedAt := 0, expiresAt := 0, active := true, tail := [] }

theorem started_fresh : started.Fresh := ⟨rfl, rfl, rfl, rfl⟩

/-- What the drains read before the first poll. -/
theorem reachable_outputs {limit : Nat} (chunks : List Bytes)
    (ascii : ∀ chunk ∈ chunks, Ascii chunk) {polling : Polling}
    (reached : Reachable limit polling) :
    Reachable limit { polling with
      buffer := chunks.foldl OutputBuffer.append polling.buffer
      written := polling.written ++ chunks.flatten } := by
  induction chunks generalizing polling with
  | nil =>
      rw [List.flatten_nil, List.append_nil]
      exact reached
  | cons chunk chunks induction =>
      have writes : Writes (.output chunk) := ascii chunk List.mem_cons_self
      have one : Reachable limit (polling.next limit (.output chunk)) :=
        reached.step writes rfl
      have rest := induction (fun later member =>
        ascii later (List.mem_cons_of_mem _ member)) one
      rw [List.flatten_cons, ← List.append_assoc]
      exact rest

def firstPoll : Poll where
  executionId := 0
  state := .completed
  exitCode := some 0
  now := 1000
  maxOutputTokens := none
  killed := false

/-- Two mebibytes of output. -/
def twoMebibytes : List Bytes :=
  List.replicate 256 (List.replicate 8192 120)

theorem ascii_twoMebibytes : ∀ chunk ∈ twoMebibytes, Ascii chunk := by
  intro chunk member byte isByte
  rw [List.eq_of_mem_replicate member] at isByte
  rw [List.eq_of_mem_replicate isByte]
  decide

def overflown : Polling :=
  { started with
    buffer := twoMebibytes.foldl OutputBuffer.append started.buffer
    written := started.written ++ twoMebibytes.flatten }

theorem reachable_overflown (limit : Nat) : Reachable limit overflown :=
  reachable_outputs twoMebibytes ascii_twoMebibytes (.start started_fresh)

theorem length_overflown : overflown.written.length = 2097152 := by
  change ([] ++ twoMebibytes.flatten).length = 2097152
  rw [List.nil_append, twoMebibytes, List.flatten_replicate_replicate,
    List.length_replicate]

/-- The guest drops a half, and the host cuts the other one. -/
theorem loss_reported_overflown :
    maxOutputBytes < overflown.written.length ∧
      Accounts (overflown.respond 1024 firstPoll).2 overflown.fresh := by
  have long : maxOutputBytes < overflown.written.length := by
    rw [length_overflown]
    decide
  refine ⟨long, (loss_reported_iff (reachable_overflown 1024) firstPoll).mpr
    (.inr ⟨by decide, ?_, ?_⟩)⟩
  · rw [length_overflown]
    decide
  · rw [length_overflown]
    decide

/-- The largest limit of the host. -/
theorem loss_unreported :
    ¬ ∀ limit, 1024 ≤ limit → limit ≤ 16 * 1024 * 1024 →
      ∀ polling, Reachable limit polling → ∀ poll,
        Accounts (polling.respond limit poll).2 polling.fresh := by
  intro reported
  have reached := reachable_overflown (16 * 1024 * 1024)
  have known := (reached.sound.accounts_iff _ firstPoll).mp
    (reported _ (by decide) (by decide) _ reached firstPoll)
  cases known with
  | inl small =>
      rw [length_overflown] at small
      exact absurd small (by decide)
  | inr cut => exact absurd cut.1 (by decide)

end Polling

end Electrosphere.Agent
