import Electrosphere.Foundation.FileSystem
import Electrosphere.Foundation.Table
import Electrosphere.Foundation.Utf8
import Electrosphere.Storage.Cfs

/-!
# Writing a snapshot entry by entry

The guest and the daemon export a workspace in the same way: they go through
its entries in order, reject what a snapshot cannot hold, remember the first
name of every file that has several, and write a header and the bytes after
it, up to a limit on the whole.  An `Exporter` is one that keeps to this.
-/

namespace Electrosphere.Cfs

open Foundation FileSystem

/-- What an exporter knows of an entry when it writes it. -/
structure Subject where
  written : List Char
  stats : Stats
  mtimeNs : Nat
  length : Nat
  content : Bytes

/-- A header and the bytes that follow it. -/
structure Piece where
  header : Header
  payload : Bytes
  deriving DecidableEq

/-- The snapshot so far, and the names under which files with several names
were first written. -/
structure Exporting where
  out : Bytes
  hardLinks : Table Nat (List Char)

def appendWithin {ε : Type} (full : ε) (out chunk : Bytes) : Except ε Bytes :=
  if maxTreeBytes < out.length + chunk.length then .error full
  else .ok (out ++ chunk)

namespace Piece

variable {piece : Piece}

def bytes (piece : Piece) : Bytes := piece.header.encode ++ piece.payload

/-- The header announces the bytes that follow it. -/
def Honest (piece : Piece) : Prop :=
  piece.header.payloadLength = piece.payload.length

def entry (piece : Piece) : Entry := piece.header.entry piece.payload

theorem Honest.encode_entry (honest : piece.Honest) :
    piece.entry.encode = piece.bytes := by
  have same : piece.entry.header = piece.header := by
    rw [entry, Header.entry, Entry.header, ← honest]
  rw [Entry.encode, same, bytes]
  rfl

@[simp] theorem length_bytes (piece : Piece) :
    piece.bytes.length = piece.entry.encode.length := by
  rw [bytes, List.length_append, Header.length_encode, Entry.length_encode]
  rfl

/-- Bytes are those of the entry only if the announced length is right. -/
theorem honest_of_encode_entry
    (announced : piece.header.payloadLength < 256 ^ 8)
    (present : piece.payload.length < 256 ^ 8)
    (same : piece.entry.encode = piece.bytes) : piece.Honest := by
  have headers := (List.append_inj same (by
    rw [Header.length_encode, Header.length_encode]
    rfl)).1
  simp only [Header.encode, entry, Header.entry, Entry.header,
    List.append_cancel_left_eq] at headers
  have numbers := congrArg ofBigEndian headers
  rw [ofBigEndian_bigEndian_of_lt announced,
    ofBigEndian_bigEndian_of_lt present] at numbers
  exact numbers.symm

/-- Pieces that stand where entries should stand are these entries. -/
theorem encode_eq_of_flatMap_eq {pieces : List Piece}
    (same : (pieces.map entry).flatMap Entry.encode = pieces.flatMap bytes) :
    ∀ piece ∈ pieces, piece.entry.encode = piece.bytes := by
  induction pieces with
  | nil => simp
  | cons first rest induction =>
      rw [List.map_cons, List.flatMap_cons, List.flatMap_cons] at same
      obtain ⟨isFirst, later⟩ :=
        List.append_inj same first.length_bytes.symm
      exact List.forall_mem_cons.mpr ⟨isFirst, induction later⟩

theorem flatMap_encode_of_honest {pieces : List Piece}
    (honest : ∀ piece ∈ pieces, piece.Honest) :
    (pieces.map entry).flatMap Entry.encode = pieces.flatMap bytes := by
  induction pieces with
  | nil => rfl
  | cons first rest induction =>
      obtain ⟨isFirst, later⟩ := List.forall_mem_cons.mp honest
      rw [List.map_cons, List.flatMap_cons, List.flatMap_cons,
        isFirst.encode_entry, induction later]

end Piece

section Appending

variable {ε : Type} {full : ε} {out next first second chunk : Bytes}

theorem appendWithin_eq_ok_iff :
    appendWithin full out chunk = .ok next ↔
      next = out ++ chunk ∧ next.length ≤ maxTreeBytes := by
  rw [appendWithin]
  constructor
  · intro written
    split at written
    · cases written
    case isFalse fits =>
      cases written
      exact ⟨rfl, by rw [List.length_append]; omega⟩
  · rintro ⟨rfl, fits⟩
    rw [List.length_append] at fits
    rw [if_neg (by omega)]

theorem appendWithin_append :
    (appendWithin full out first >>= fun next =>
      appendWithin full next second) =
      appendWithin full out (first ++ second) := by
  simp only [appendWithin, bind, Except.bind, List.length_append]
  by_cases isFull : maxTreeBytes < out.length + first.length
  · rw [if_pos isFull, if_pos (by omega)]
  · rw [if_neg isFull]
    simp only [List.length_append, List.append_assoc, Nat.add_assoc]

end Appending

/-! ## The pieces of a tree -/

namespace Subject

def inode (subject : Subject) : Option Nat :=
  match subject.stats.node with
  | .file inode => some inode
  | _ => none

def header (subject : Subject) (type payloadLength : Nat) : Header where
  path := Utf8.encode subject.written
  type := type
  mode := subject.stats.mode &&& 0o7777
  mtimeNs := subject.mtimeNs
  payloadLength := payloadLength

/-- The first of some entries that is a name of a file. -/
def firstName (earlier : List Subject) (inode : Nat) : Option Subject :=
  earlier.find? fun subject => subject.inode = some inode

variable (nlink : Nat → Nat)

/-- The entry under which this file has been written already. -/
def original (earlier : List Subject) (inode : Nat) : Option Subject :=
  if 1 < nlink inode then firstName earlier inode else none

/-- What is written for an entry after those before it. -/
def piece (earlier : List Subject) (subject : Subject) : Piece :=
  match subject.stats.node with
  | .directory _ _ => ⟨subject.header typeDirectory 0, []⟩
  | .symlink target _ =>
      let bytes := Utf8.encode (Utf8.decodeLossy target)
      ⟨subject.header typeSymlink bytes.length, bytes⟩
  | .file inode =>
      match original nlink earlier inode with
      | some first =>
          let bytes := Utf8.encode first.written
          ⟨subject.header typeHardlink bytes.length, bytes⟩
      | none => ⟨subject.header typeFile subject.length, subject.content⟩
  | .other _ _ => ⟨subject.header 0 0, []⟩

variable {nlink}

theorem sized_piece {earlier : List Subject} {subject : Subject}
    (time : subject.mtimeNs < 256 ^ 8)
    (short : ∀ inode, subject.inode = some inode → subject.length < 256 ^ 8)
    (small : (subject.piece nlink earlier).bytes.length ≤ maxTreeBytes) :
    (subject.piece nlink earlier).header.Sized := by
  have narrow : maxTreeBytes < 256 ^ 4 := by decide
  have wide : maxTreeBytes < 256 ^ 8 := by decide
  have mode : subject.stats.mode &&& 0o7777 < 256 ^ 4 :=
    lt_of_le_of_lt Nat.and_le_right (by decide)
  have sized {type payloadLength : Nat} {payload : Bytes}
      (fits : (Piece.mk (subject.header type payloadLength) payload).bytes.length ≤
        maxTreeBytes) (byte : type < 256 ^ 1) (counted : payloadLength < 256 ^ 8) :
      (subject.header type payloadLength).Sized := by
    refine ⟨?_, byte, mode, time, counted⟩
    rw [Piece.bytes, List.length_append, Header.length_encode] at fits
    dsimp only at fits
    omega
  have payload {type : Nat} {bytes : Bytes}
      (fits : (Piece.mk (subject.header type bytes.length) bytes).bytes.length ≤
        maxTreeBytes) : bytes.length < 256 ^ 8 := by
    rw [Piece.bytes, List.length_append] at fits
    dsimp only at fits
    omega
  rw [piece] at small ⊢
  cases isNode : subject.stats.node with
  | directory held mtime =>
      rw [isNode] at small
      exact sized small (by decide) (by decide)
  | symlink target mtime =>
      rw [isNode] at small
      exact sized small (by decide) (payload small)
  | file inode =>
      rw [isNode] at small
      dsimp only at small ⊢
      cases isOriginal : original nlink earlier inode with
      | some first =>
          rw [isOriginal] at small
          exact sized small (by decide) (payload small)
      | none =>
          rw [isOriginal] at small
          exact sized small (by decide)
            (short inode (by rw [Subject.inode, isNode]))
  | other held mtime =>
      rw [isNode] at small
      exact sized small (by decide) (by decide)

/-- Only the bytes of a file can differ from what is announced. -/
theorem honest_piece_iff {earlier : List Subject} {subject : Subject} :
    (subject.piece nlink earlier).Honest ↔
      ∀ inode, subject.inode = some inode →
        original nlink earlier inode = none →
        subject.content.length = subject.length := by
  rw [piece, Subject.inode]
  cases subject.stats.node with
  | directory held mtime => simp [Piece.Honest, header]
  | symlink target mtime => simp [Piece.Honest, header]
  | other held mtime => simp [Piece.Honest, header]
  | file inode =>
      cases isOriginal : original nlink earlier inode with
      | some first => simp [Piece.Honest, header, isOriginal]
      | none =>
          simp only [isOriginal, Piece.Honest, header, Option.some.injEq,
            forall_eq', forall_const]
          exact eq_comm

theorem firstName_concat (earlier : List Subject) (subject : Subject)
    (inode : Nat) :
    firstName (earlier ++ [subject]) inode =
      (firstName earlier inode).or
        (if subject.inode = some inode then some subject else none) := by
  rw [firstName, List.find?_append, firstName, List.find?_singleton]
  simp only [decide_eq_true_eq]

theorem path_piece {earlier : List Subject} {subject : Subject} :
    (subject.piece nlink earlier).header.path =
      Utf8.encode subject.written := by
  rw [piece]
  cases subject.stats.node with
  | file inode =>
      dsimp only
      split <;> rfl
  | _ => rfl

/-- Both come to the same in a snapshot: what is known of the bytes matters
for files only. -/
structure Alike (first second : Subject) : Prop where
  written : first.written = second.written
  stats : first.stats = second.stats
  mtimeNs : first.mtimeNs = second.mtimeNs
  file : ∀ inode, first.inode = some inode →
    first.length = second.length ∧ first.content = second.content

variable {first second : Subject} {earlier before : List Subject}

theorem Alike.inode (alike : first.Alike second) :
    first.inode = second.inode := by
  rw [Subject.inode, Subject.inode, alike.stats]

theorem Alike.symm (alike : first.Alike second) : second.Alike first where
  written := alike.written.symm
  stats := alike.stats.symm
  mtimeNs := alike.mtimeNs.symm
  file inode isName := by
    obtain ⟨length, content⟩ := alike.file inode (alike.inode.trans isName)
    exact ⟨length.symm, content.symm⟩

theorem firstName_alike (alike : List.Forall₂ Alike earlier before)
    (inode : Nat) :
    (firstName earlier inode).map Subject.written =
      (firstName before inode).map Subject.written := by
  induction alike with
  | nil => rfl
  | cons head _ induction =>
      rw [firstName, firstName, List.find?_cons, List.find?_cons, head.inode]
      split
      · exact congrArg some head.written
      · exact induction

theorem Alike.piece_eq (alike : first.Alike second)
    (earlierAlike : List.Forall₂ Alike earlier before) :
    first.piece nlink earlier = second.piece nlink before := by
  have header (type length : Nat) :
      first.header type length = second.header type length := by
    rw [Subject.header, Subject.header, alike.written, alike.stats,
      alike.mtimeNs]
  rw [piece, piece, ← alike.stats]
  cases isNode : first.stats.node with
  | directory mode mtime => simp only [header]
  | symlink target mtime => simp only [header]
  | other mode mtime => simp only [header]
  | file inode =>
      obtain ⟨length, content⟩ := alike.file inode (by
        rw [Subject.inode, isNode])
      have originals : (original nlink earlier inode).map Subject.written =
          (original nlink before inode).map Subject.written := by
        rw [original, original]
        split
        · exact firstName_alike earlierAlike inode
        · rfl
      dsimp only
      cases isFirst : original nlink earlier inode with
      | none =>
          rw [isFirst, Option.map_none, eq_comm, Option.map_eq_none_iff]
            at originals
          rw [originals, header, length, content]
      | some found =>
          rw [isFirst, Option.map_some, eq_comm, Option.map_eq_some_iff]
            at originals
          obtain ⟨twin, isTwin, same⟩ := originals
          simp only [isTwin, header, same]

end Subject

/-- The recorded names are those of the entries written so far. -/
def Tracks (nlink : Nat → Nat) (earlier : List Subject)
    (hardLinks : Table Nat (List Char)) : Prop :=
  ∀ inode, 1 < nlink inode →
    hardLinks.lookup inode =
      (Subject.firstName earlier inode).map Subject.written

namespace Tracks

variable {nlink : Nat → Nat} {earlier : List Subject} {subject : Subject}
  {hardLinks : Table Nat (List Char)}

theorem empty : Tracks nlink [] ∅ := by
  intro inode _
  rw [AList.lookup_empty]
  rfl

/-- An entry that is no first name leaves the record right. -/
theorem skip (tracks : Tracks nlink earlier hardLinks)
    (known : ∀ inode, subject.inode = some inode → 1 < nlink inode →
      (Subject.firstName earlier inode).isSome) :
    Tracks nlink (earlier ++ [subject]) hardLinks := by
  intro inode several
  rw [tracks inode several, Subject.firstName_concat]
  by_cases isName : subject.inode = some inode
  · have found := known inode isName several
    rw [Option.or_of_isSome found]
  · rw [if_neg isName, Option.or_none]

theorem insert (tracks : Tracks nlink earlier hardLinks) {inode : Nat}
    (isName : subject.inode = some inode)
    (isFirst : Subject.firstName earlier inode = none) :
    Tracks nlink (earlier ++ [subject])
      (hardLinks.insert inode subject.written) := by
  intro other several
  rw [AList.lookup_insert_if, Subject.firstName_concat, isName]
  by_cases same : other = inode
  · subst same
    rw [if_pos rfl, isFirst, if_pos rfl]
    rfl
  · rw [if_neg same, tracks other several,
      if_neg fun equal => same (Option.some.inj equal).symm, Option.or_none]

theorem of_noFile (tracks : Tracks nlink earlier hardLinks)
    (noFile : subject.inode = none) :
    Tracks nlink (earlier ++ [subject]) hardLinks := by
  apply tracks.skip
  intro inode isName
  rw [noFile] at isName
  cases isName

/-- Another name of a file that has been written. -/
theorem of_original (tracks : Tracks nlink earlier hardLinks) {inode : Nat}
    {first : Subject} (isName : subject.inode = some inode)
    (isOriginal : Subject.original nlink earlier inode = some first) :
    Tracks nlink (earlier ++ [subject]) hardLinks := by
  apply tracks.skip
  intro other isOther several
  obtain rfl : inode = other := Option.some.inj (isName.symm.trans isOther)
  rw [Subject.original, if_pos several] at isOriginal
  rw [isOriginal]
  rfl

theorem of_new (tracks : Tracks nlink earlier hardLinks) {inode : Nat}
    (isName : subject.inode = some inode)
    (isNew : Subject.original nlink earlier inode = none) :
    Tracks nlink (earlier ++ [subject])
      (if 1 < nlink inode then hardLinks.insert inode subject.written
        else hardLinks) := by
  split
  case isTrue several =>
    rw [Subject.original, if_pos several] at isNew
    exact tracks.insert isName isNew
  case isFalse single =>
    apply tracks.skip
    intro other isOther several
    obtain rfl : inode = other := Option.some.inj (isName.symm.trans isOther)
    exact absurd several single

theorem lookup (tracks : Tracks nlink earlier hardLinks) (inode : Nat) :
    (if 1 < nlink inode then hardLinks.lookup inode else none) =
      (Subject.original nlink earlier inode).map Subject.written := by
  rw [Subject.original]
  split
  case isTrue several => exact tracks inode several
  case isFalse => rfl

end Tracks

/-! ## Exporters -/

/-- What a step does with the snapshot when it writes some bytes. -/
def afterWrite {ε : Type} (full : ε) (state : Exporting) (bytes : Bytes)
    (hardLinks : Table Nat (List Char)) : Except ε Exporting := do
  return { out := ← appendWithin full state.out bytes, hardLinks }

theorem writePiece_eq {ε : Type} (full : ε) (state : Exporting)
    (header : Header) (bytes : Bytes) (hardLinks : Table Nat (List Char)) :
    (do
      let out ← appendWithin full state.out header.encode
      let out ← appendWithin full out bytes
      return { out, hardLinks }) =
      afterWrite full state (Piece.bytes ⟨header, bytes⟩) hardLinks := by
  rw [afterWrite, Piece.bytes, ← appendWithin_append, bind_assoc]

/-- A step that accepts some entries and writes their pieces. -/
structure Exporter (ε ι : Type) where
  step : Exporting → ι → Except ε Exporting
  full : ε
  nlink : Nat → Nat
  subject : ι → Option Subject
  Accepts : ι → Prop
  accepted : ∀ state item next, step state item = .ok next →
    (subject item).isSome ∧ Accepts item
  writes : ∀ earlier state item found, subject item = some found →
    Accepts item → Tracks nlink earlier state.hardLinks →
    ∃ hardLinks, Tracks nlink (earlier ++ [found]) hardLinks ∧
      step state item =
        afterWrite full state (found.piece nlink earlier).bytes hardLinks

namespace Exporter

variable {ε ι : Type}

/-- The pieces of a snapshot, entry by entry. -/
inductive Pieces (exporter : Exporter ε ι) :
    List Subject → List ι → List Piece → Prop where
  | nil {earlier : List Subject} : Pieces exporter earlier [] []
  | cons {earlier : List Subject} {item : ι} {rest : List ι}
      {found : Subject} {pieces : List Piece} :
      exporter.subject item = some found → exporter.Accepts item →
      Pieces exporter (earlier ++ [found]) rest pieces →
      Pieces exporter earlier (item :: rest)
        (found.piece exporter.nlink earlier :: pieces)

variable {exporter : Exporter ε ι} {state next : Exporting} {bytes : Bytes}

theorem afterWrite_eq_ok_iff {full : ε} {hardLinks : Table Nat (List Char)} :
    afterWrite full state bytes hardLinks = .ok next ↔
      next.out = state.out ++ bytes ∧ next.out.length ≤ maxTreeBytes ∧
        next.hardLinks = hardLinks := by
  rw [afterWrite]
  constructor
  · intro isNext
    cases isWritten : appendWithin full state.out bytes with
    | error message =>
        rw [isWritten] at isNext
        cases isNext
    | ok out =>
        rw [isWritten] at isNext
        cases isNext
        obtain ⟨isOut, fits⟩ := appendWithin_eq_ok_iff.mp isWritten
        exact ⟨isOut, fits, rfl⟩
  · intro ⟨isOut, fits, isTable⟩
    rw [appendWithin_eq_ok_iff.mpr ⟨isOut, fits⟩]
    cases next
    subst isTable
    rfl

theorem afterWrite_ok {full : ε}
    (fits : (state.out ++ bytes).length ≤ maxTreeBytes)
    (hardLinks : Table Nat (List Char)) :
    ∃ next, afterWrite full state bytes hardLinks = .ok next :=
  ⟨{ out := state.out ++ bytes, hardLinks },
    afterWrite_eq_ok_iff.mpr ⟨rfl, fits, rfl⟩⟩

/-- The steps together write the pieces of all entries, if there are pieces
for all of them and they fit. -/
theorem foldlM_eq_ok_iff {earlier : List Subject} {items : List ι}
    (fits : state.out.length ≤ maxTreeBytes)
    (tracks : Tracks exporter.nlink earlier state.hardLinks) :
    (∃ next, items.foldlM exporter.step state = .ok next ∧
      next.out = bytes) ↔
    ∃ pieces, exporter.Pieces earlier items pieces ∧
      bytes = state.out ++ pieces.flatMap Piece.bytes ∧
      bytes.length ≤ maxTreeBytes := by
  induction items generalizing earlier state with
  | nil =>
      constructor
      · rintro ⟨next, exported, rfl⟩
        cases exported
        exact ⟨[], .nil, (List.append_nil _).symm, fits⟩
      · rintro ⟨pieces, isPieces, rfl, -⟩
        cases isPieces
        exact ⟨state, rfl, (List.append_nil _).symm⟩
  | cons item rest induction =>
      constructor
      · rintro ⟨next, exported, rfl⟩
        cases first : exporter.step state item with
        | error message =>
            rw [List.foldlM_cons, first] at exported
            cases exported
        | ok middle =>
            obtain ⟨isSome, accepts⟩ := exporter.accepted _ _ _ first
            obtain ⟨found, isFound⟩ := Option.isSome_iff_exists.mp isSome
            obtain ⟨hardLinks, later, isStep⟩ :=
              exporter.writes _ _ _ _ isFound accepts tracks
            rw [List.foldlM_cons, first] at exported
            rw [first] at isStep
            obtain ⟨isOut, small, rfl⟩ := afterWrite_eq_ok_iff.mp isStep.symm
            obtain ⟨pieces, isPieces, isBytes, within⟩ :=
              (induction small later).mp ⟨next, exported, rfl⟩
            refine ⟨_, .cons isFound accepts isPieces, ?_, within⟩
            rw [isBytes, isOut, List.flatMap_cons, List.append_assoc]
      · intro ⟨pieces, isPieces, isBytes, within⟩
        cases isPieces with
        | cons isFound accepts isPieces =>
            obtain ⟨hardLinks, later, isStep⟩ :=
              exporter.writes _ _ _ _ isFound accepts tracks
            rw [List.flatMap_cons, ← List.append_assoc] at isBytes
            have small := congrArg List.length isBytes
            rw [List.length_append] at small
            obtain ⟨middle, isMiddle⟩ := afterWrite_ok
              ((Nat.le.intro small.symm).trans within) hardLinks
            obtain ⟨isOut, short, rfl⟩ := afterWrite_eq_ok_iff.mp isMiddle
            rw [← isOut] at isBytes
            obtain ⟨next, exported, isNext⟩ :=
              (induction short later).mpr ⟨_, isPieces, isBytes, within⟩
            refine ⟨next, ?_, isNext⟩
            rw [List.foldlM_cons, isStep, isMiddle]
            exact exported

/-- The same for a whole snapshot, which begins with the magic number. -/
theorem export_eq_ok_iff (exporter : Exporter ε ι) (items : List ι) :
    (do
      let out ← appendWithin exporter.full [] magic
      let state ← items.foldlM exporter.step { out, hardLinks := ∅ }
      return state.out : Except ε Bytes) = .ok bytes ↔
    ∃ pieces, exporter.Pieces [] items pieces ∧
      bytes = magic ++ pieces.flatMap Piece.bytes ∧
      bytes.length ≤ maxTreeBytes := by
  have start : appendWithin exporter.full [] magic = .ok magic :=
    appendWithin_eq_ok_iff.mpr ⟨rfl, by decide⟩
  have fits : (Exporting.mk magic ∅).out.length ≤ maxTreeBytes := by decide
  have entries : (∃ next, items.foldlM exporter.step ⟨magic, ∅⟩ = .ok next ∧
      next.out = bytes) ↔ ∃ pieces, exporter.Pieces [] items pieces ∧
        bytes = magic ++ pieces.flatMap Piece.bytes ∧
        bytes.length ≤ maxTreeBytes :=
    foldlM_eq_ok_iff fits Tracks.empty
  rw [start, ← entries]
  cases isDone : items.foldlM exporter.step
      { out := magic, hardLinks := ∅ } with
  | error message => simp [bind, Except.bind, isDone]
  | ok next => simp [bind, Except.bind, pure, Except.pure, isDone]

/-- The entries of a tree, each with the bytes that were read for it. -/
def entries (exporter : Exporter ε ι) : List Subject → List ι → List Entry
  | _, [] => []
  | earlier, item :: rest =>
      match exporter.subject item with
      | none => exporter.entries earlier rest
      | some found =>
          (found.piece exporter.nlink earlier).entry ::
            exporter.entries (earlier ++ [found]) rest

namespace Pieces

variable {earlier : List Subject} {items : List ι} {pieces : List Piece}

theorem entries_eq (isPieces : exporter.Pieces earlier items pieces) :
    exporter.entries earlier items = pieces.map Piece.entry := by
  induction isPieces with
  | nil => rfl
  | cons isFound _ _ induction =>
      rw [entries, isFound]
      dsimp only
      rw [induction]
      rfl

theorem accepts (isPieces : exporter.Pieces earlier items pieces) :
    ∀ item ∈ items, exporter.Accepts item := by
  induction isPieces with
  | nil => simp
  | cons _ accepts _ induction =>
      exact List.forall_mem_cons.mpr ⟨accepts, induction⟩

/-- Accepted entries that are there have pieces. -/
theorem of_accepts (found : ∀ item ∈ items, (exporter.subject item).isSome)
    (accepts : ∀ item ∈ items, exporter.Accepts item) :
    ∃ pieces, exporter.Pieces earlier items pieces := by
  induction items generalizing earlier with
  | nil => exact ⟨[], .nil⟩
  | cons item items induction =>
      obtain ⟨isSome, laterFound⟩ := List.forall_mem_cons.mp found
      obtain ⟨accepted, laterAccepts⟩ := List.forall_mem_cons.mp accepts
      obtain ⟨subject, isSubject⟩ := Option.isSome_iff_exists.mp isSome
      obtain ⟨pieces, isPieces⟩ := induction laterFound laterAccepts
      exact ⟨_, .cons isSubject accepted isPieces⟩

/-- Honest pieces are the entries. -/
theorem flatMap_bytes (isPieces : exporter.Pieces earlier items pieces)
    (honest : ∀ piece ∈ pieces, piece.Honest) :
    magic ++ pieces.flatMap Piece.bytes =
      archive (exporter.entries earlier items) := by
  rw [isPieces.entries_eq, archive, Piece.flatMap_encode_of_honest honest]

theorem sized (isPieces : exporter.Pieces earlier items pieces)
    (fields : ∀ item found, exporter.subject item = some found →
      exporter.Accepts item → found.mtimeNs < 256 ^ 8 ∧
        ∀ inode, found.inode = some inode → found.length < 256 ^ 8)
    (small : (pieces.flatMap Piece.bytes).length ≤ maxTreeBytes) :
    ∀ piece ∈ pieces, piece.header.Sized ∧
      piece.payload.length < 256 ^ 8 := by
  have wide : maxTreeBytes < 256 ^ 8 := by decide
  induction isPieces with
  | nil => simp
  | cons isFound accepts _ induction =>
      rw [List.flatMap_cons, List.length_append] at small
      obtain ⟨time, short⟩ := fields _ _ isFound accepts
      rw [List.forall_mem_cons]
      refine ⟨⟨Subject.sized_piece time short (by omega), ?_⟩,
        induction (by omega)⟩
      rw [Piece.bytes, List.length_append] at small
      omega

/-- The text of an entry is part of what is written. -/
theorem written_le (isPieces : exporter.Pieces earlier items pieces) :
    ∀ item ∈ items, ∀ found, exporter.subject item = some found →
      (Utf8.encode found.written).length ≤
        (pieces.flatMap Piece.bytes).length := by
  induction isPieces with
  | nil => simp
  | cons isFirst _ _ induction =>
      rw [List.flatMap_cons, List.length_append, List.forall_mem_cons]
      constructor
      · intro found isFound
        obtain rfl : _ = found := Option.some.inj (isFirst.symm.trans isFound)
        rw [Piece.length_bytes, Entry.length_encode, Piece.entry,
          Header.entry, Subject.path_piece]
        dsimp only
        omega
      · intro item member found isFound
        have := induction item member found isFound
        omega

/-- Two exporters that know the same of the same entries write the same. -/
theorem transfer {δ κ : Type} {other : Exporter δ κ} {others : List κ}
    {before : List Subject} (sameNames : exporter.nlink = other.nlink)
    (alikeEarlier : List.Forall₂ Subject.Alike earlier before)
    (alike : List.Forall₂ (fun item twin =>
      (∀ found, exporter.subject item = some found →
        ∃ same, other.subject twin = some same ∧ found.Alike same) ∧
      (exporter.Accepts item → other.Accepts twin)) items others)
    (isPieces : exporter.Pieces earlier items pieces) :
    other.Pieces before others pieces := by
  induction isPieces generalizing before others with
  | nil =>
      cases alike
      exact .nil
  | cons isFound accepts _ induction =>
      cases alike with
      | cons first rest =>
          obtain ⟨same, isSame, isAlike⟩ := first.1 _ isFound
          rw [sameNames, isAlike.piece_eq alikeEarlier]
          apply Pieces.cons isSame (first.2 accepts)
          apply induction _ rest
          exact List.rel_append alikeEarlier (.cons isAlike .nil)

/-- Pieces are read as the entries if and only if all of them are honest. -/
theorem parse_eq_iff (isPieces : exporter.Pieces earlier items pieces)
    (sized : ∀ piece ∈ pieces, piece.header.Sized ∧
      piece.payload.length < 256 ^ 8) :
    parse (magic ++ pieces.flatMap Piece.bytes) =
        some (exporter.entries earlier items) ↔
      ∀ piece ∈ pieces, piece.Honest := by
  rw [isPieces.entries_eq, parse_eq_some_iff]
  constructor
  · intro ⟨same, _⟩ piece member
    obtain ⟨headerSized, payloadSmall⟩ := sized piece member
    apply Piece.honest_of_encode_entry headerSized.payloadLength payloadSmall
    exact Piece.encode_eq_of_flatMap_eq (List.append_cancel_left same).symm
      piece member
  · intro honest
    constructor
    · rw [archive, Piece.flatMap_encode_of_honest honest]
    · intro entry isEntry
      obtain ⟨piece, member, rfl⟩ := List.mem_map.mp isEntry
      obtain ⟨isSized, payloadSmall⟩ := sized piece member
      exact ⟨isSized.path, isSized.type, isSized.mode, isSized.mtimeNs,
        payloadSmall⟩

end Pieces

end Exporter

end Electrosphere.Cfs
