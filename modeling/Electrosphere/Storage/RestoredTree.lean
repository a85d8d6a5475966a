import Electrosphere.Storage.ExporterAgreement
import Electrosphere.Storage.ExtractionOutcome

/-!
# Restoring a workspace from its archive

The entries that an exporter writes for a tree describe this tree: what is
extracted from them is a copy, with the same names, kinds, contents, links,
names of one file and permissions.
-/

namespace Electrosphere.Cfs

open Foundation FileSystem Workspace

/-! ## The entries of a tree from top to bottom -/

namespace Subject

/-- Where an entry stands below the root. -/
def place (subject : Subject) : Location := location subject.written

/-- The place of the first name of a file. -/
def firstPlace (subjects : List Subject) (inode : Nat) : Location :=
  (firstName subjects inode).elim [] place

/-- What stands at the place of an entry in a copy. -/
def shape (time : Nat → Timestamp) (subjects : List Subject)
    (subject : Subject) : Option Shape :=
  match subject.stats.node with
  | .directory _ _ => some (.directory (subject.stats.mode &&& 0o777))
  | .symlink target _ =>
      some (.symlink (Utf8.encode (Utf8.decodeLossy target))
        (time subject.mtimeNs))
  | .file inode => some (.file (firstPlace subjects inode))
  | .other _ _ => none

/-- The inode of a file in a copy. -/
def attributes (time : Nat → Timestamp) (subject : Subject) : Inode where
  mode := subject.stats.mode &&& 0o777
  mtime := time subject.mtimeNs
  content := subject.content

theorem inode_eq_some_iff {subject : Subject} {inode : Nat} :
    subject.inode = some inode ↔ subject.stats.node = .file inode := by
  rw [Subject.inode]
  constructor
  · intro isName
    split at isName
    · next held isFile =>
        cases isName
        exact isFile
    · cases isName
  · intro isFile
    rw [isFile]

section Pieces

variable {nlink : Nat → Nat} {earlier : List Subject} {subject first : Subject}
  {inode : Nat}

theorem piece_directory {mode : Nat} {mtime : Timestamp}
    (isNode : subject.stats.node = .directory mode mtime) :
    subject.piece nlink earlier = ⟨subject.header typeDirectory 0, []⟩ := by
  rw [piece, isNode]

theorem piece_symlink {target : Bytes} {mtime : Timestamp}
    (isNode : subject.stats.node = .symlink target mtime) :
    subject.piece nlink earlier =
      ⟨subject.header typeSymlink
        (Utf8.encode (Utf8.decodeLossy target)).length,
        Utf8.encode (Utf8.decodeLossy target)⟩ := by
  rw [piece, isNode]

theorem piece_first (isNode : subject.stats.node = .file inode)
    (isNew : original nlink earlier inode = none) :
    subject.piece nlink earlier =
      ⟨subject.header typeFile subject.length, subject.content⟩ := by
  rw [piece, isNode]
  dsimp only
  rw [isNew]

theorem piece_again (isNode : subject.stats.node = .file inode)
    (isKnown : original nlink earlier inode = some first) :
    subject.piece nlink earlier =
      ⟨subject.header typeHardlink (Utf8.encode first.written).length,
        Utf8.encode first.written⟩ := by
  rw [piece, isNode]
  dsimp only
  rw [isKnown]

end Pieces

theorem mode_piece {nlink : Nat → Nat} {earlier : List Subject}
    {subject : Subject} :
    (subject.piece nlink earlier).header.mode =
      subject.stats.mode &&& 0o7777 := by
  rw [piece]
  cases subject.stats.node with
  | file inode =>
      dsimp only
      split <;> rfl
  | _ => rfl

theorem mtimeNs_piece {nlink : Nat → Nat} {earlier : List Subject}
    {subject : Subject} :
    (subject.piece nlink earlier).header.mtimeNs = subject.mtimeNs := by
  rw [piece]
  cases subject.stats.node with
  | file inode =>
      dsimp only
      split <;> rfl
  | _ => rfl

/-- The first name of a file stays the first. -/
theorem firstName_append {earlier rest : List Subject} {first : Subject}
    {inode : Nat} (isFirst : firstName earlier inode = some first) :
    firstName (earlier ++ rest) inode = some first := by
  rw [firstName, List.find?_append, ← firstName, isFirst]
  rfl

end Subject

/-- The entries that stand for some subjects, after earlier ones. -/
def writtenEntries (nlink : Nat → Nat) :
    List Subject → List Subject → List Entry
  | _, [] => []
  | earlier, subject :: rest =>
      (subject.piece nlink earlier).entry ::
        writtenEntries nlink (earlier ++ [subject]) rest

theorem path_decoded {nlink : Nat → Nat} {earlier : List Subject}
    {subject : Subject} :
    (subject.piece nlink earlier).entry.header.decoded.path =
      subject.written := by
  have path := @Subject.path_piece nlink earlier subject
  change Utf8.decodeLossy (subject.piece nlink earlier).header.path = _
  rw [path]
  exact Utf8.decodeLossy_encode _

theorem mem_writtenEntries {nlink : Nat → Nat} {subjects earlier : List Subject}
    {entry : Entry} (member : entry ∈ writtenEntries nlink earlier subjects) :
    ∃ subject ∈ subjects, ∃ before,
      entry = (subject.piece nlink before).entry := by
  induction subjects generalizing earlier with
  | nil => cases member
  | cons subject rest induction =>
      rcases List.mem_cons.mp member with isHere | isLater
      · exact ⟨subject, List.mem_cons_self, earlier, isHere⟩
      · obtain ⟨other, isOther, isEntry⟩ := induction isLater
        exact ⟨other, List.mem_cons_of_mem _ isOther, isEntry⟩

theorem exists_writtenEntries {nlink : Nat → Nat}
    {subjects earlier : List Subject} {subject : Subject}
    (member : subject ∈ subjects) :
    ∃ before, (subject.piece nlink before).entry ∈
      writtenEntries nlink earlier subjects := by
  induction subjects generalizing earlier with
  | nil => cases member
  | cons first rest induction =>
      rcases List.mem_cons.mp member with rfl | isLater
      · exact ⟨earlier, List.mem_cons_self⟩
      · obtain ⟨before, isEntry⟩ := @induction (earlier ++ [first]) isLater
        exact ⟨before, List.mem_cons_of_mem _ isEntry⟩

/-- Subjects that are what stands below a root, everything after the
directories that lead to it. -/
structure Surveys (fs : FileSystem) (root : Location)
    (clock : Timestamp → Nat) (subjects : List Subject) : Prop where
  stats : ∀ subject ∈ subjects,
    fs.lstat (root ++ subject.place) = some subject.stats
  ordered : subjects.Pairwise fun first second =>
    ¬ second.place <+: first.place
  whole : ∀ path, path ≠ [] → fs.present root path = true →
    ∃ subject ∈ subjects, subject.place = path
  content : ∀ subject ∈ subjects, ∀ inode, subject.inode = some inode →
    subject.content = fs.content inode
  times : ∀ subject ∈ subjects, subject.mtimeNs = clock subject.stats.mtime
  kind : ∀ subject ∈ subjects, ∀ mode mtime,
    subject.stats.node ≠ .other mode mtime

namespace Surveys

variable {fs : FileSystem} {root : Location} {clock : Timestamp → Nat}
  {subjects earlier rest : List Subject} {subject other : Subject}
  {inode : Nat}

theorem node (surveys : Surveys fs root clock subjects)
    (member : subject ∈ subjects) :
    fs.node (root ++ subject.place) = some subject.stats.node :=
  node_of_lstat (surveys.stats subject member)

theorem place_ne_nil : subject.place ≠ [] := location_ne_nil _

/-- The subjects at two positions stand at different places. -/
theorem place_ne (surveys : Surveys fs root clock subjects)
    (split : subjects = earlier ++ subject :: rest) (isEarlier : other ∈ earlier) :
    other.place ≠ subject.place := by
  have ordered := surveys.ordered
  rw [split, List.pairwise_append] at ordered
  intro same
  apply ordered.2.2 other isEarlier subject List.mem_cons_self
  rw [same]

/-- The directories that lead to a place have come before. -/
theorem above (surveys : Surveys fs root clock subjects)
    (split : subjects = earlier ++ subject :: rest) {path : Location}
    (notRoot : path ≠ []) (below : path <+: subject.place)
    (different : path ≠ subject.place) :
    ∃ other ∈ earlier, other.place = path := by
  have member : subject ∈ subjects := by
    rw [split]
    exact List.mem_append_right _ List.mem_cons_self
  have isPresent : fs.present root path = true := by
    apply present_of_prefix _ below
    rw [present, surveys.node member]
    rfl
  obtain ⟨other, isOther, rfl⟩ := surveys.whole path notRoot isPresent
  have ordered := surveys.ordered
  rw [split, List.pairwise_append, List.pairwise_cons] at ordered
  rw [split] at isOther
  rcases List.mem_append.mp isOther with isEarlier | isHere
  · exact ⟨other, isEarlier, rfl⟩
  · rcases List.mem_cons.mp isHere with rfl | isLater
    · exact absurd rfl different
    · exact absurd below (ordered.2.1.1 other isLater)

/-- The names of one file have the same attributes. -/
theorem attributes_eq (surveys : Surveys fs root clock subjects)
    (member : subject ∈ subjects) (alsoMember : other ∈ subjects)
    (isName : subject.inode = some inode) (alsoName : other.inode = some inode)
    (time : Nat → Timestamp) :
    subject.attributes time = other.attributes time := by
  have lookup {held : Subject} (member : held ∈ subjects)
      (isName : held.inode = some inode) :
      (fs.inodes[inode]?).map (fun held =>
        { node := .file inode, mode := held.mode, mtime := held.mtime }) =
          some held.stats := by
    have found := surveys.stats held member
    rw [lstat, surveys.node member, Subject.inode_eq_some_iff.mp isName]
      at found
    exact found
  have stats : subject.stats = other.stats :=
    Option.some.inj ((lookup member isName).symm.trans
      (lookup alsoMember alsoName))
  rw [Subject.attributes, Subject.attributes, stats,
    surveys.times subject member, surveys.times other alsoMember, stats,
    surveys.content subject member inode isName,
    surveys.content other alsoMember inode alsoName]

/-- The first name of a file is one of its names. -/
theorem node_firstPlace (surveys : Surveys fs root clock subjects)
    (member : subject ∈ subjects) (isName : subject.inode = some inode) :
    fs.node (root ++ Subject.firstPlace subjects inode) =
      some (.file inode) := by
  have found : (Subject.firstName subjects inode).isSome = true := by
    rw [Subject.firstName, List.find?_isSome]
    exact ⟨subject, member, decide_eq_true isName⟩
  obtain ⟨first, isFirst⟩ := Option.isSome_iff_exists.mp found
  have alsoName := List.find?_some isFirst
  rw [decide_eq_true_eq, Subject.inode_eq_some_iff] at alsoName
  rw [Subject.firstPlace, isFirst, Option.elim_some,
    surveys.node (List.mem_of_find?_eq_some isFirst), alsoName]

/-- A file with an earlier name has several. -/
theorem original_eq (surveys : Surveys fs root clock subjects)
    (split : subjects = earlier ++ subject :: rest)
    (isFile : subject.stats.node = .file inode) :
    Subject.original fs.nlink earlier inode =
      Subject.firstName earlier inode := by
  rw [Subject.original]
  split
  · rfl
  · next single =>
    cases isFirst : Subject.firstName earlier inode with
    | none => rfl
    | some first =>
        have isName := List.find?_some isFirst
        have isEarlier := List.mem_of_find?_eq_some isFirst
        have member : first ∈ subjects := by
          rw [split]
          exact List.mem_append_left _ isEarlier
        have here : subject ∈ subjects := by
          rw [split]
          exact List.mem_append_right _ List.mem_cons_self
        have firstNode := surveys.node member
        have hereNode := surveys.node here
        rw [isFile] at hereNode
        rw [decide_eq_true_eq, Subject.inode_eq_some_iff] at isName
        rw [isName] at firstNode
        have different : root ++ first.place ≠ root ++ subject.place := by
          intro same
          exact surveys.place_ne split isEarlier (List.append_cancel_left same)
        exact absurd (one_lt_nlink different firstNode hereNode) single

end Surveys

/-! ## What the entries describe -/

/-- The tree of the entries so far, as a copy of these subjects. -/
structure Mirrors (time : Nat → Timestamp) (subjects earlier : List Subject)
    (overlay : Overlay) : Prop where
  shape : ∀ subject ∈ earlier,
    overlay.shape subject.place = subject.shape time subjects
  absent : ∀ place, (∀ subject ∈ earlier, subject.place ≠ place) →
    overlay.shape place = none
  inode : ∀ subject ∈ earlier, ∀ inode, subject.inode = some inode →
    overlay.inode (Subject.firstPlace subjects inode) =
      subject.attributes time

namespace Extractor

variable {extractor : Extractor} {overlay : Overlay} {header : EntryHeader}
  {payload : Bytes}

theorem attach_directory (isType : header.type = typeDirectory) :
    extractor.attach overlay header payload =
      overlay.put (location header.path)
        (.directory (header.mode &&& 0o777)) :=
  if_pos isType

theorem attach_file (isType : header.type = typeFile) :
    extractor.attach overlay header payload =
      (overlay.put (location header.path)
        (.file (location header.path))).setInode (location header.path)
        { mode := header.mode &&& 0o777
          mtime := extractor.time header.mtimeNs
          content := payload } := by
  rw [attach, if_neg (by rw [isType]; decide), if_pos isType]

theorem attach_symlink (isType : header.type = typeSymlink) :
    extractor.attach overlay header payload =
      overlay.put (location header.path)
        (.symlink (Utf8.encode (Utf8.decodeLossy payload))
          (extractor.time header.mtimeNs)) := by
  rw [attach, if_neg (by rw [isType]; decide), if_neg (by rw [isType]; decide),
    if_pos isType]

theorem attach_hardlink (isType : header.type = typeHardlink) :
    extractor.attach overlay header payload =
      (overlay.put (location header.path)
        (.file (location (Utf8.decodeLossy payload)))).setInode
        (location (Utf8.decodeLossy payload))
        { overlay.inode (location (Utf8.decodeLossy payload)) with
          mode := header.mode &&& 0o777
          mtime := extractor.time header.mtimeNs } := by
  rw [attach, if_neg (by rw [isType]; decide), if_neg (by rw [isType]; decide),
    if_neg (by rw [isType]; decide)]

end Extractor

section Mirrors

variable {extractor : Extractor} {fs : FileSystem} {root : Location}
  {clock : Timestamp → Nat} {subjects earlier rest : List Subject}
  {subject : Subject} {overlay : Overlay}

theorem mirrors_empty {time : Nat → Timestamp} :
    Mirrors time subjects [] .empty where
  shape _ member := by cases member
  absent _ _ := rfl
  inode _ member := by cases member

/-- The mode of an entry, cut twice. -/
theorem and_mode (mode : Nat) : mode &&& 0o7777 &&& 0o777 = mode &&& 0o777 := by
  rw [Nat.and_assoc]
  rfl

/-- Where the entries so far are a copy, the directories that lead to the next
place are there. -/
theorem Mirrors.ensured
    (mirrors : Mirrors extractor.time subjects earlier overlay)
    (surveys : Surveys fs root clock subjects)
    (split : subjects = earlier ++ subject :: rest) :
    overlay.ensureAll 0o700 [] subject.place.dropLast = overlay := by
  apply Overlay.ensureAll_eq_self
  rintro path ⟨-, notRoot, below⟩
  rw [List.nil_append] at below
  have shorter := below.length_le
  rw [List.length_dropLast] at shorter
  have different : path ≠ subject.place := by
    rintro rfl
    have some := List.length_pos_of_ne_nil (Ne.symm notRoot)
    omega
  obtain ⟨other, isOther, rfl⟩ := surveys.above split (Ne.symm notRoot)
    (below.trans (List.dropLast_prefix _)) different
  rw [mirrors.shape other isOther, Subject.shape]
  have member : other ∈ subjects := by
    rw [split]
    exact List.mem_append_left _ isOther
  have kind := surveys.kind other member
  cases isNode : other.stats.node with
  | other mode mtime => exact absurd isNode (kind mode mtime)
  | directory mode mtime => simp
  | file inode => simp
  | symlink target mtime => simp

/-- Nothing stands yet at the next place. -/
theorem Mirrors.vacant
    (mirrors : Mirrors extractor.time subjects earlier overlay)
    (surveys : Surveys fs root clock subjects)
    (split : subjects = earlier ++ subject :: rest) :
    overlay.shape subject.place = none := by
  apply mirrors.absent
  intro other isOther
  exact surveys.place_ne split isOther

/-- A shape that is put at the next place. -/
theorem Mirrors.put
    (mirrors : Mirrors extractor.time subjects earlier overlay)
    (surveys : Surveys fs root clock subjects)
    (split : subjects = earlier ++ subject :: rest) {held : Shape}
    {next : Overlay}
    (isShape : subject.shape extractor.time subjects = some held)
    (shape : next.shape = (overlay.put subject.place held).shape)
    (inode : ∀ other ∈ earlier ++ [subject], ∀ inode,
      other.inode = some inode →
      next.inode (Subject.firstPlace subjects inode) =
        other.attributes extractor.time) :
    Mirrors extractor.time subjects (earlier ++ [subject]) next where
  shape other member := by
    rw [shape]
    rcases List.mem_append.mp member with isEarlier | isLast
    · rw [Overlay.shape_put_of_ne (surveys.place_ne split isEarlier)]
      exact mirrors.shape other isEarlier
    · rw [List.mem_singleton.mp isLast, Overlay.shape_put_self, isShape]
  absent place notHere := by
    have different := notHere subject
      (List.mem_append_right _ (List.mem_singleton_self _))
    rw [shape, Overlay.shape_put_of_ne (Ne.symm different)]
    apply mirrors.absent
    intro other isOther
    exact notHere other (List.mem_append_left _ isOther)
  inode := inode

/-- A directory or a link at the next place. -/
theorem Mirrors.put_plain
    (mirrors : Mirrors extractor.time subjects earlier overlay)
    (surveys : Surveys fs root clock subjects)
    (split : subjects = earlier ++ subject :: rest) {held : Shape}
    (isShape : subject.shape extractor.time subjects = some held)
    (noFile : subject.inode = none) :
    Mirrors extractor.time subjects (earlier ++ [subject])
      (overlay.put subject.place held) := by
  apply mirrors.put surveys split isShape rfl
  intro other member inode isName
  rcases List.mem_append.mp member with isEarlier | isLast
  · exact mirrors.inode other isEarlier inode isName
  · rw [List.mem_singleton.mp isLast, noFile] at isName
    cases isName

/-- A name of a file at the next place. -/
theorem Mirrors.put_file
    (mirrors : Mirrors extractor.time subjects earlier overlay)
    (surveys : Surveys fs root clock subjects)
    (split : subjects = earlier ++ subject :: rest) {inode : Nat}
    (isName : subject.inode = some inode) :
    Mirrors extractor.time subjects (earlier ++ [subject])
      ((overlay.put subject.place
        (.file (Subject.firstPlace subjects inode))).setInode
          (Subject.firstPlace subjects inode)
          (subject.attributes extractor.time)) := by
  have here : subject ∈ subjects := by
    rw [split]
    exact List.mem_append_right _ List.mem_cons_self
  have isShape : subject.shape extractor.time subjects =
      some (.file (Subject.firstPlace subjects inode)) := by
    rw [Subject.shape, Subject.inode_eq_some_iff.mp isName]
  have shape : ((overlay.put subject.place
      (.file (Subject.firstPlace subjects inode))).setInode
        (Subject.firstPlace subjects inode)
        (subject.attributes extractor.time)).shape =
      (overlay.put subject.place
        (.file (Subject.firstPlace subjects inode))).shape := rfl
  apply mirrors.put surveys split isShape shape
  intro other member held alsoName
  rw [Overlay.inode_setInode, Overlay.inode_put]
  have known : other ∈ subjects := by
    rcases List.mem_append.mp member with isEarlier | isLast
    · rw [split]
      exact List.mem_append_left _ isEarlier
    · rwa [List.mem_singleton.mp isLast]
  by_cases same : held = inode
  · rw [same, if_pos rfl]
    rw [same] at alsoName
    exact surveys.attributes_eq here known isName alsoName extractor.time
  · rw [if_neg]
    · rcases List.mem_append.mp member with isEarlier | isLast
      · exact mirrors.inode other isEarlier held alsoName
      · rw [List.mem_singleton.mp isLast, isName] at alsoName
        exact absurd (Option.some.inj alsoName).symm same
    · intro samePlace
      have first := surveys.node_firstPlace known alsoName
      rw [samePlace, surveys.node_firstPlace here isName] at first
      cases first
      exact same rfl

/-- An entry adds to the copy what it stands for. -/
theorem Mirrors.describe
    (mirrors : Mirrors extractor.time subjects earlier overlay)
    (surveys : Surveys fs root clock subjects)
    (split : subjects = earlier ++ subject :: rest) :
    Mirrors extractor.time subjects (earlier ++ [subject])
      (extractor.describe overlay
        (subject.piece fs.nlink earlier).entry.header.decoded
        (subject.piece fs.nlink earlier).entry.payload) := by
  have here : subject ∈ subjects := by
    rw [split]
    exact List.mem_append_right _ List.mem_cons_self
  have isPath : location
      (subject.piece fs.nlink earlier).entry.header.decoded.path =
        subject.place := congrArg location path_decoded
  have isMode : (subject.piece fs.nlink earlier).entry.header.decoded.mode
      &&& 0o777 = subject.stats.mode &&& 0o777 := by
    refine Eq.trans ?_ (and_mode _)
    exact congrArg (· &&& 0o777) Subject.mode_piece
  have isTime : (subject.piece fs.nlink earlier).entry.header.decoded.mtimeNs =
      subject.mtimeNs := Subject.mtimeNs_piece
  rw [Extractor.describe, isPath, mirrors.ensured surveys split]
  cases isNode : subject.stats.node with
  | directory mode mtime =>
      have isShape : subject.shape extractor.time subjects =
          some (.directory (subject.stats.mode &&& 0o777)) := by
        rw [Subject.shape, isNode]
      have isType : (subject.piece fs.nlink earlier).entry.header.decoded.type =
          typeDirectory := by
        rw [Subject.piece_directory isNode]
        rfl
      rw [Extractor.attach_directory isType, isPath, isMode]
      apply mirrors.put_plain surveys split isShape
      rw [Subject.inode, isNode]
  | symlink target mtime =>
      have isShape : subject.shape extractor.time subjects =
          some (.symlink (Utf8.encode (Utf8.decodeLossy target))
            (extractor.time subject.mtimeNs)) := by
        rw [Subject.shape, isNode]
      have isType : (subject.piece fs.nlink earlier).entry.header.decoded.type =
          typeSymlink := by
        rw [Subject.piece_symlink isNode]
        rfl
      have isPayload : (subject.piece fs.nlink earlier).entry.payload =
          Utf8.encode (Utf8.decodeLossy target) := by
        rw [Subject.piece_symlink isNode]
        rfl
      rw [Extractor.attach_symlink isType, isPath, isTime, isPayload,
        Utf8.decodeLossy_encode]
      apply mirrors.put_plain surveys split isShape
      rw [Subject.inode, isNode]
  | file inode =>
      have isName := Subject.inode_eq_some_iff.mpr isNode
      have original := surveys.original_eq split isNode
      have put := mirrors.put_file surveys split isName
      cases isFirst : Subject.firstName earlier inode with
      | none =>
          rw [isFirst] at original
          have isPlace : Subject.firstPlace subjects inode = subject.place := by
            rw [Subject.firstPlace, split, Subject.firstName,
              List.find?_append, ← Subject.firstName, isFirst, Option.none_or]
            simp [isName]
          have isType :
              (subject.piece fs.nlink earlier).entry.header.decoded.type =
                typeFile := by
            rw [Subject.piece_first isNode original]
            rfl
          have isPayload : (subject.piece fs.nlink earlier).entry.payload =
              subject.content := by
            rw [Subject.piece_first isNode original]
            rfl
          rw [Extractor.attach_file isType, isPath, isMode, isTime, isPayload]
          rw [isPlace] at put
          exact put
      | some first =>
          rw [isFirst] at original
          have isEarlier := List.mem_of_find?_eq_some isFirst
          have firstName := List.find?_some isFirst
          rw [decide_eq_true_eq] at firstName
          have isPlace : Subject.firstPlace subjects inode = first.place := by
            rw [Subject.firstPlace, split, Subject.firstName_append isFirst,
              Option.elim_some]
          have isType :
              (subject.piece fs.nlink earlier).entry.header.decoded.type =
                typeHardlink := by
            rw [Subject.piece_again isNode original]
            rfl
          have isTarget : location (Utf8.decodeLossy
              (subject.piece fs.nlink earlier).entry.payload) =
                first.place := by
            rw [Subject.piece_again isNode original]
            exact congrArg location (Utf8.decodeLossy_encode first.written)
          have known := mirrors.inode first isEarlier inode firstName
          rw [isPlace] at known put
          have same := surveys.attributes_eq here (by
            rw [split]
            exact List.mem_append_left _ isEarlier) isName firstName
            extractor.time
          rw [Extractor.attach_hardlink isType, isPath, isMode, isTime,
            isTarget, known, ← same]
          exact put
  | other mode mtime => exact absurd isNode (surveys.kind subject here mode mtime)

/-- What has been written for a tree describes a copy of it. -/
theorem mirrors_written (surveys : Surveys fs root clock subjects) :
    Mirrors extractor.time subjects subjects
      (extractor.describeAll .empty
        (decodedEntries (writtenEntries fs.nlink [] subjects))) := by
  have run : ∀ rest earlier overlay, subjects = earlier ++ rest →
      Mirrors extractor.time subjects earlier overlay →
      Mirrors extractor.time subjects subjects
        (extractor.describeAll overlay
          (decodedEntries (writtenEntries fs.nlink earlier rest))) := by
    intro rest
    induction rest with
    | nil =>
        intro earlier overlay split mirrors
        rw [List.append_nil] at split
        rw [← split] at mirrors
        exact mirrors
    | cons subject rest induction =>
        intro earlier overlay split mirrors
        have later := induction (earlier ++ [subject]) _
          (by rw [split, List.append_assoc]; rfl)
          (mirrors.describe surveys split)
        exact later
  exact run subjects [] .empty rfl mirrors_empty

end Mirrors

/-! ## Copies -/

/-- What stands at a path of a tree, and what stands there in a copy. -/
inductive Copied (time : Timestamp → Timestamp) (number : Nat → Nat) :
    Option Node → Option Node → Prop
  | absent : Copied time number none none
  | directory {mode : Nat} {mtime : Timestamp} :
      Copied time number (some (.directory mode mtime))
        (some (.directory (mode &&& 0o777) (time mtime)))
  | file {inode : Nat} :
      Copied time number (some (.file inode)) (some (.file (number inode)))
  | symlink {target : Bytes} {mtime : Timestamp} :
      Copied time number (some (.symlink target mtime))
        (some (.symlink (Utf8.encode (Utf8.decodeLossy target)) (time mtime)))

/-- A tree that has the same names, kinds, contents, link targets, times and
permissions as another; two names are of one file exactly if they are there.
Its files are none that were there before. -/
structure Copies (time : Timestamp → Timestamp) (fs : FileSystem)
    (root : Location) (start copy : FileSystem) (goal : Location)
    (number : Nat → Nat) : Prop where
  directory : copy.isDirectory goal = true
  node : ∀ path, path ≠ [] → Copied time number (fs.node (root ++ path))
    (copy.node (goal ++ path))
  inode : ∀ path inode held, path ≠ [] →
    fs.node (root ++ path) = some (.file inode) →
    fs.inodes[inode]? = some held → start.inodes.length ≤ number inode ∧
      copy.inodes[number inode]? =
        some { held with mode := held.mode &&& 0o777, mtime := time held.mtime }
  separate : ∀ first second inode other, first ≠ [] → second ≠ [] →
    fs.node (root ++ first) = some (.file inode) →
    fs.node (root ++ second) = some (.file other) →
    number inode = number other → inode = other

section Copies

variable {fs start copy : FileSystem} {root goal : Location}
  {clock : Timestamp → Nat} {time : Nat → Timestamp}
  {subjects : List Subject} {subject : Subject} {overlay : Overlay}
  {number : Location → Nat} {inode : Nat}

namespace Surveys

theorem stats_directory (surveys : Surveys fs root clock subjects)
    (member : subject ∈ subjects) {mode : Nat} {mtime : Timestamp}
    (isNode : subject.stats.node = .directory mode mtime) :
    subject.stats.mode = mode := by
  have found := surveys.stats subject member
  rw [lstat, surveys.node member, isNode] at found
  rw [← Option.some.inj found]

theorem mtime_directory (surveys : Surveys fs root clock subjects)
    (member : subject ∈ subjects) {mode : Nat} {mtime : Timestamp}
    (isNode : subject.stats.node = .directory mode mtime) :
    subject.stats.mtime = mtime := by
  have found := surveys.stats subject member
  rw [lstat, surveys.node member, isNode] at found
  rw [← Option.some.inj found]

theorem stats_symlink (surveys : Surveys fs root clock subjects)
    (member : subject ∈ subjects) {target : Bytes} {mtime : Timestamp}
    (isNode : subject.stats.node = .symlink target mtime) :
    subject.stats.mtime = mtime := by
  have found := surveys.stats subject member
  rw [lstat, surveys.node member, isNode] at found
  rw [← Option.some.inj found]

/-- The attributes that are written for a file are those of its inode. -/
theorem attributes_file (surveys : Surveys fs root clock subjects)
    (member : subject ∈ subjects) (isName : subject.inode = some inode)
    {held : Inode} (isHeld : fs.inodes[inode]? = some held) :
    subject.attributes time =
      { held with
        mode := held.mode &&& 0o777
        mtime := time (clock held.mtime) } := by
  have found := surveys.stats subject member
  rw [lstat, surveys.node member, Subject.inode_eq_some_iff.mp isName] at found
  dsimp only at found
  rw [isHeld] at found
  have content := surveys.content subject member inode isName
  rw [FileSystem.content, isHeld] at content
  rw [Subject.attributes, surveys.times subject member, content,
    ← Option.some.inj found]
  rfl

/-- What stands at a place is one of the subjects. -/
theorem exists_of_node (surveys : Surveys fs root clock subjects)
    {path : Location} {held : Node} (notRoot : path ≠ [])
    (found : fs.node (root ++ path) = some held) :
    ∃ subject ∈ subjects, subject.place = path ∧ subject.stats.node = held := by
  obtain ⟨subject, member, rfl⟩ := surveys.whole path notRoot (by
    rw [present, found]
    rfl)
  refine ⟨subject, member, rfl, ?_⟩
  exact Option.some.inj ((surveys.node member).symm.trans found)

end Surveys

/-- A file is known in the copy by its first name. -/
theorem Mirrors.shape_firstPlace
    (mirrors : Mirrors time subjects subjects overlay)
    (surveys : Surveys fs root clock subjects) (member : subject ∈ subjects)
    (isName : subject.inode = some inode) :
    overlay.shape (Subject.firstPlace subjects inode) =
      some (.file (Subject.firstPlace subjects inode)) := by
  have notRoot : Subject.firstPlace subjects inode ≠ [] := by
    rw [Subject.firstPlace]
    cases isFirst : Subject.firstName subjects inode with
    | some first => exact Surveys.place_ne_nil
    | none =>
        have missing := List.find?_eq_none.mp isFirst subject member
        exact absurd (decide_eq_true isName) missing
  obtain ⟨first, isFirst, isPlace, isFile⟩ := surveys.exists_of_node notRoot
    (surveys.node_firstPlace member isName)
  have shape := mirrors.shape first isFirst
  rwa [isPlace, Subject.shape, isFile] at shape

/-- Where the tree of the entries stands, with the times of directories, a copy
stands. -/
theorem Mirrors.copies (mirrors : Mirrors time subjects subjects overlay)
    (surveys : Surveys fs root clock subjects)
    (holds : Holds start goal overlay number copy)
    (dated : ∀ subject ∈ subjects, ∀ mode mtime,
      subject.stats.node = .directory mode mtime →
        ∃ held, copy.node (goal ++ subject.place) =
          some (.directory held (time subject.mtimeNs))) :
    Copies (fun mtime => time (clock mtime)) fs root start copy goal
      fun inode => number (Subject.firstPlace subjects inode) where
  directory := holds.directory
  node path notRoot := by
    have stands := holds.node path notRoot
    cases found : fs.node (root ++ path) with
    | none =>
        have vacant : overlay.shape path = none := by
          apply mirrors.absent
          rintro subject member rfl
          have isNode := surveys.node member
          rw [found] at isNode
          cases isNode
        rw [vacant] at stands
        rw [stands.isNone_iff.mpr rfl]
        exact .absent
    | some held =>
        obtain ⟨subject, member, rfl, isNode⟩ :=
          surveys.exists_of_node notRoot found
        rw [mirrors.shape subject member, Subject.shape] at stands
        rw [← isNode]
        cases isKind : subject.stats.node with
        | directory mode mtime =>
            rw [isKind, surveys.stats_directory member isKind] at stands
            obtain ⟨later, isLater⟩ := stands.of_directory
            obtain ⟨held, isDated⟩ := dated subject member mode mtime isKind
            rw [isLater] at isDated
            cases isDated
            rw [isLater, surveys.times subject member,
              surveys.mtime_directory member isKind]
            exact .directory
        | file inode =>
            rw [isKind] at stands
            rw [stands.of_file]
            exact .file
        | symlink target mtime =>
            rw [isKind, surveys.times subject member,
              surveys.stats_symlink member isKind] at stands
            rw [stands.of_symlink]
            exact .symlink
        | other mode mtime =>
            exact absurd isKind (surveys.kind subject member mode mtime)
  inode path inode held notRoot found isHeld := by
    obtain ⟨subject, member, rfl, isNode⟩ :=
      surveys.exists_of_node notRoot found
    have isName := Subject.inode_eq_some_iff.mpr isNode
    have isGroup := mirrors.shape_firstPlace surveys member isName
    obtain ⟨fresh, isInode⟩ := holds.file _ isGroup
    rw [mirrors.inode subject member inode isName,
      surveys.attributes_file member isName isHeld] at isInode
    exact ⟨fresh, isInode⟩
  separate first second inode other firstNot secondNot isFirst isSecond same := by
    obtain ⟨subject, member, -, isNode⟩ :=
      surveys.exists_of_node firstNot isFirst
    obtain ⟨twin, alsoMember, -, alsoNode⟩ :=
      surveys.exists_of_node secondNot isSecond
    have isName := Subject.inode_eq_some_iff.mpr isNode
    have alsoName := Subject.inode_eq_some_iff.mpr alsoNode
    have places := holds.separate _ _
      (mirrors.shape_firstPlace surveys member isName)
      (mirrors.shape_firstPlace surveys alsoMember alsoName) same
    have node := surveys.node_firstPlace member isName
    rw [places, surveys.node_firstPlace alsoMember alsoName] at node
    cases node
    rfl

end Copies

/-! ## From the daemon's archive to a copy -/

section Restoring

variable {fs start : FileSystem} {root : List Text} {entry : TreeEntry}
  {bytes : Bytes} {extractor : Extractor}

/-- The time of an entry as it is written. -/
def clockMs (mtime : Timestamp) : Nat := (roundedMtimeNs mtime).toNat

theorem place_hostSubject (utf8 : Utf8Names fs (encodePath root))
    (member : entry ∈ listing fs root) :
    (hostSubject fs entry).place = encodePath entry.path := by
  obtain ⟨found, notRoot⟩ := mem_listing utf8 member
  rw [← encodePath_append] at found
  have noSlash : ∀ name ∈ entry.path, '/' ∉ name := fun name isName =>
    (validText_of_lstat found name isName).noSlash
  change encodePath ((joinPath entry.path).splitOn '/') = _
  rw [splitOn_joinPath notRoot noSlash]

theorem places_listing (utf8 : Utf8Names fs (encodePath root)) :
    ((listing fs root).map (hostSubject fs)).map Subject.place =
      fs.paths (encodePath root) := by
  rw [List.map_map, ← listing_map utf8]
  apply List.map_congr_left
  intro entry member
  exact place_hostSubject utf8 member

theorem surveys_listing (utf8 : Utf8Names fs (encodePath root))
    (kind : ∀ entry ∈ listing fs root, ∀ mode mtime,
      entry.stats.node ≠ .other mode mtime) :
    Surveys fs (encodePath root) clockMs
      ((listing fs root).map (hostSubject fs)) where
  stats := by
    rw [List.forall_mem_map]
    intro entry member
    rw [place_hostSubject utf8 member]
    exact (mem_listing utf8 member).1
  ordered := by
    have ordered := @not_prefix_paths fs (encodePath root)
    rwa [← places_listing utf8, List.pairwise_map] at ordered
  whole path notRoot isPresent := by
    have member := mem_paths.mpr ⟨notRoot, isPresent⟩
    rw [← places_listing utf8] at member
    exact List.mem_map.mp member
  content := by
    rw [List.forall_mem_map]
    intro entry _ inode isName
    have isNode : entry.stats.node = .file inode :=
      Subject.inode_eq_some_iff.mp isName
    rw [hostSubject, isNode]
  times := by
    rw [List.forall_mem_map]
    intro entry _
    rfl
  kind := by
    rw [List.forall_mem_map]
    exact kind

theorem entries_host (earlier : List Subject) (entries : List TreeEntry) :
    (host fs root).entries earlier entries =
      writtenEntries fs.nlink earlier (entries.map (hostSubject fs)) := by
  induction entries generalizing earlier with
  | nil => rfl
  | cons entry entries induction =>
      exact congrArg (_ :: ·) (induction (earlier ++ [hostSubject fs entry]))

/-- The bytes of an export are those of its entries, which fit their fields. -/
theorem parse_exported (utf8 : Utf8Names fs (encodePath root))
    (exported : exportCfs fs root = .ok bytes) :
    parse bytes = some (writtenEntries fs.nlink []
        ((listing fs root).map (hostSubject fs))) ∧
      ∀ entry ∈ listing fs root, HostAccepts fs root entry := by
  obtain ⟨-, entries, collected, accepts, isArchive, small⟩ :=
    exportCfs_eq_ok_iff.mp exported
  cases (collectEntries_eq utf8).symm.trans collected
  refine ⟨?_, accepts⟩
  obtain ⟨pieces, isPieces⟩ : ∃ pieces,
      (host fs root).Pieces [] (listing fs root) pieces :=
    Exporter.Pieces.of_accepts (fun _ _ => rfl) accepts
  have honest := honest_host isPieces
  have written := isPieces.flatMap_bytes honest
  have short : (pieces.flatMap Piece.bytes).length ≤ maxTreeBytes := by
    rw [isArchive, ← written, List.length_append] at small
    omega
  rw [isArchive, ← written, ← entries_host]
  exact (isPieces.parse_eq_iff (sized_host isPieces short)).mpr honest

/-- The tree that has been extracted from what was written for a tree is a
copy. -/
theorem Extractor.Extracted.copies_written {copy : FileSystem}
    {above : Location} {clock : Timestamp → Nat} {subjects : List Subject}
    (surveys : Surveys fs above clock subjects)
    (parsed : parse bytes = some (writtenEntries fs.nlink [] subjects))
    (extracted : extractor.Extracted start bytes copy) :
    ∃ number, Copies (fun mtime => extractor.time (clock mtime)) fs above start
      copy (extractor.home ++ [extractor.goal]) number := by
  obtain ⟨entries, number, isArchive, taken, holds, dated⟩ := extracted.tree
  have alsoParsed := parse_eq_some_iff.mpr
    ⟨isArchive, fun entry member => (taken entry member).sized⟩
  cases Option.some.inj (alsoParsed.symm.trans parsed)
  refine ⟨_, (mirrors_written surveys).copies surveys holds ?_⟩
  intro subject member mode mtime isNode
  obtain ⟨before, isEntry⟩ := @exists_writtenEntries fs.nlink _ [] _ member
  have isDated := dated _ (List.mem_map_of_mem isEntry)
  dsimp only at isDated
  have isTime : (subject.piece fs.nlink before).entry.header.decoded.mtimeNs =
      subject.mtimeNs := Subject.mtimeNs_piece
  rw [path_decoded, isTime, Subject.piece_directory isNode] at isDated
  exact isDated rfl

/-- The tree that has been extracted from an export is a copy. -/
theorem Extractor.Extracted.copies {copy : FileSystem}
    (utf8 : Utf8Names fs (encodePath root))
    (exported : exportCfs fs root = .ok bytes)
    (extracted : extractor.Extracted start bytes copy) :
    ∃ number, Copies (fun mtime => extractor.time (clockMs mtime)) fs
      (encodePath root) start copy (extractor.home ++ [extractor.goal])
      number := by
  obtain ⟨parsed, accepts⟩ := parse_exported utf8 exported
  have surveys := surveys_listing utf8 fun entry member =>
    (accepts entry member).kind
  exact extracted.copies_written surveys parsed

/-- Extracting what the daemon has exported, anywhere: it gives a copy of the
workspace, or it is refused and changes nothing. -/
theorem restored_workspace_is_copy {answer : Except Thrown Unit}
    {after : FileSystem} (utf8 : Utf8Names fs (encodePath root))
    (exported : exportCfs fs root = .ok bytes)
    (unhindered : extractor.Unhindered)
    (directory : start.isDirectory extractor.home = true)
    (ran : extractor.extractCfs (.ok bytes) start = (answer, after)) :
    (∃ error, answer = .error error ∧
        Unharmed start extractor.home after) ∨
      answer = .ok () ∧
        Untouched start extractor.home extractor.goal after ∧
        ∃ number, Copies (fun mtime => extractor.time (clockMs mtime)) fs
          (encodePath root) start after (extractor.home ++ [extractor.goal])
          number := by
  obtain ⟨isDone, isFailed⟩ :=
    Extractor.ensures_extraction unhindered directory start rfl
  cases answer with
  | error error => exact .inl ⟨error, rfl, isFailed error after ran⟩
  | ok value =>
      obtain ⟨_, ⟨⟩, extracted⟩ := isDone value after ran
      exact .inr ⟨rfl, extracted.untouched, extracted.copies utf8 exported⟩

/-- A workspace `w` with a directory `d`, a file `d/f` that is also `g`, and a
link `d/l` to the file. -/
def twoNames : FileSystem :=
  let top := (FileSystem.bare 0o755 (.whole 0)).place [] [119]
    (.directory 0o755 (.whole 0)) [] (by decide) trivial
  let inner := top.place [[119]] [100] (.directory 0o700 (.whole 1)) []
    (by decide) trivial
  let file := inner.place [[119], [100]] [102] (.file 0)
    [{ mode := 0o644, mtime := .whole 2, content := [1, 2] }] (by decide)
    (by decide)
  let link := file.place [[119], [100]] [108] (.symlink [102] (.whole 3)) []
    (by decide) (by decide)
  link.place [[119]] [103] (.file 0) [] (by decide) (by decide)

theorem ordinary_twoNames : Ordinary twoNames ([] ++ [['w']]) :=
  Ordinary.of_listing (by decide +kernel) (by decide +kernel)

theorem exported_twoNames :
    ∃ bytes, exportCfs twoNames ([] ++ [['w']]) = .ok bytes := by
  have accepted : (exportCfs twoNames ([] ++ [['w']])).isOk = true := by
    decide +kernel
  cases isHost : exportCfs twoNames ([] ++ [['w']]) with
  | ok bytes => exact ⟨bytes, rfl⟩
  | error thrown =>
      rw [isHost] at accepted
      cases accepted

theorem restored_twoNames_is_copy :
    ∃ bytes answer after, exportCfs twoNames ([] ++ [['w']]) = .ok bytes ∧
      Extractor.toTop.extractCfs (.ok bytes)
        (FileSystem.bare 0o755 (.whole 0)) = (answer, after) ∧
      ((∃ error, answer = .error error ∧
          Unharmed (FileSystem.bare 0o755 (.whole 0)) Extractor.toTop.home
            after) ∨
        answer = .ok () ∧
          Untouched (FileSystem.bare 0o755 (.whole 0)) Extractor.toTop.home
            Extractor.toTop.goal after ∧
          ∃ number, Copies
            (fun mtime => Extractor.toTop.time (clockMs mtime)) twoNames
            (encodePath ([] ++ [['w']])) (FileSystem.bare 0o755 (.whole 0))
            after (Extractor.toTop.home ++ [Extractor.toTop.goal]) number) := by
  obtain ⟨bytes, exported⟩ := exported_twoNames
  cases ran : Extractor.toTop.extractCfs (.ok bytes)
      (FileSystem.bare 0o755 (.whole 0)) with
  | mk answer after =>
      refine ⟨bytes, answer, after, exported, ran, ?_⟩
      exact restored_workspace_is_copy ordinary_twoNames.utf8 exported
        ⟨rfl, rfl⟩ rfl ran

end Restoring

end Electrosphere.Cfs
