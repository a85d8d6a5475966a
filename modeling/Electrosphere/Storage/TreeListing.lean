import Electrosphere.Storage.WorkspaceTree

/-!
# What the daemon finds in a tree

Whatever the names, a walk lists entries as the system describes them, and
every directory on the way to one.  When all names are valid UTF-8 it lists
exactly what stands in the tree.
-/

namespace Electrosphere.Workspace

open Foundation FileSystem

/-! ## Texts and names -/

theorem encode_joinPath (path : List Text) :
    Utf8.encode (joinPath path) = pathBytes (encodePath path) := by
  rw [joinPath, pathBytes, encodePath]
  induction path with
  | nil => rfl
  | cons name path induction =>
      cases path with
      | nil => simp
      | cons next path =>
          rw [List.intercalate_cons_cons, Utf8.encode_append,
            Utf8.encode_append, induction]
          simp only [List.map_cons]
          rw [List.intercalate_cons_cons]
          rfl

theorem encodePath_injective : Function.Injective encodePath :=
  List.map_injective_iff.mpr Utf8.encode_injective

@[simp] theorem encodePath_append (first second : List Text) :
    encodePath (first ++ second) = encodePath first ++ encodePath second :=
  List.map_append

/-- A text that can name an entry of a directory. -/
def ValidText (name : Text) : Prop := ValidName (Utf8.encode name)

namespace ValidText

variable {name : Text}

theorem notEmpty (valid : ValidText name) : name ≠ [] := by
  rintro rfl
  exact ValidName.notEmpty valid rfl

theorem notHere (valid : ValidText name) : name ≠ ['.'] := by
  rintro rfl
  exact ValidName.notHere valid (by decide)

theorem notUp (valid : ValidText name) : name ≠ ['.', '.'] := by
  rintro rfl
  exact ValidName.notUp valid (by decide)

theorem noSlash (valid : ValidText name) : '/' ∉ name := by
  intro member
  apply ValidName.noSlash valid
  exact (Utf8.mem_encode_single slash (by decide)).mpr member

theorem noNul (valid : ValidText name) : '\x00' ∉ name := by
  intro member
  apply ValidName.noNul valid
  exact (Utf8.mem_encode_single 0 (by decide)).mpr member

theorem of_parts (notEmpty : name ≠ []) (notHere : name ≠ ['.'])
    (notUp : name ≠ ['.', '.']) (noSlash : '/' ∉ name) (noNul : '\x00' ∉ name) :
    ValidText name where
  notEmpty isEmpty := notEmpty (Utf8.encode_injective isEmpty)
  notHere same := notHere (Utf8.encode_injective (same.trans (by decide)))
  notUp same := notUp (Utf8.encode_injective (same.trans (by decide)))
  noSlash member := noSlash
    ((Utf8.mem_encode_single slash (by decide)).mp member)
  noNul member := noNul
    ((Utf8.mem_encode_single 0 (by decide)).mp member)

end ValidText

theorem splitOn_joinPath {path : List Text} (some : path ≠ [])
    (noSlash : ∀ name ∈ path, '/' ∉ name) :
    (joinPath path).splitOn '/' = path :=
  List.splitOn_intercalate '/' noSlash some

theorem joinPath_splitOn (text : Text) : joinPath (text.splitOn '/') = text :=
  List.intercalate_splitOn '/'

theorem mem_joinPath {path : List Text} {letter : Char}
    (different : letter ≠ '/') :
    letter ∈ joinPath path ↔ ∃ name ∈ path, letter ∈ name := by
  rw [joinPath]
  induction path with
  | nil => simp
  | cons name path induction =>
      cases path with
      | nil => simp
      | cons next path =>
          rw [List.intercalate_cons_cons, List.mem_append, List.mem_append,
            induction, List.mem_singleton, or_iff_left different]
          simp

/-- The paths of a snapshot are those whose parts can be names. -/
theorem unsafePath_eq_false_iff {path : Text} :
    unsafePath path = false ∧ '\x00' ∉ path ↔
      ∀ part ∈ path.splitOn '/', ValidText part := by
  rw [unsafePath, decide_eq_false_iff_not, not_or, not_or]
  constructor
  · intro ⟨⟨_, _, parts⟩, noNul⟩ part member
    have whole : ¬ (part = [] ∨ part = ['.'] ∨ part = ['.', '.']) :=
      fun bad => parts ⟨part, member, bad⟩
    rw [not_or, not_or] at whole
    apply ValidText.of_parts whole.1 whole.2.1 whole.2.2
    · exact Utf8.not_mem_of_mem_splitOn member
    · intro isNul
      apply noNul
      rw [← joinPath_splitOn path]
      exact (mem_joinPath (by decide)).mpr ⟨part, member, isNul⟩
  · intro valid
    refine ⟨⟨?_, ?_, ?_⟩, ?_⟩
    · rintro rfl
      exact (valid [] (by simp)).notEmpty rfl
    · intro isSlash
      obtain ⟨rest, rfl⟩ := List.head?_eq_some_iff.mp isSlash
      apply (valid [] _).notEmpty rfl
      rw [List.splitOn_cons_eq_if_modifyHead]
      exact List.mem_cons_self
    · rintro ⟨part, member, isEmpty | isHere | isUp⟩
      · exact (valid part member).notEmpty isEmpty
      · exact (valid part member).notHere isHere
      · exact (valid part member).notUp isUp
    · intro isNul
      rw [← joinPath_splitOn path, mem_joinPath (by decide)] at isNul
      obtain ⟨part, member, inPart⟩ := isNul
      exact (valid part member).noNul inPart

theorem validText_of_lstat {path : List Text} {fs : FileSystem}
    {root : List Text} {stats : Stats}
    (found : fs.lstat (encodePath (root ++ path)) = some stats) :
    ∀ name ∈ path, ValidText name := by
  intro name member
  have present : (fs.node (encodePath (root ++ path))).isSome = true := by
    rw [node_of_lstat found]
    rfl
  apply validName_of_mem present
  exact List.mem_map.mpr ⟨name, List.mem_append_right _ member, rfl⟩

instance totalByRelative : Std.Total ByRelative :=
  ⟨fun _ _ => ByteOrder.total _ _⟩

instance transByRelative : IsTrans TreeEntry ByRelative :=
  ⟨fun _ _ _ => ByteOrder.trans⟩

/-! ## Walks -/

variable {validate : Text → Except Thrown Unit} {fs : FileSystem}
  {root : List Text}

/-- Steps that each add a block to the list add all blocks. -/
theorem foldlM_append {α β ε : Type} {step : List α → β → Except ε (List α)}
    {items : List β} {block : β → List α}
    (steps : ∀ item ∈ items, ∀ entries,
      step entries item = .ok (entries ++ block item)) (entries : List α) :
    items.foldlM step entries = .ok (entries ++ items.flatMap block) := by
  induction items generalizing entries with
  | nil =>
      rw [List.flatMap_nil, List.append_nil]
      rfl
  | cons item items induction =>
      obtain ⟨first, later⟩ := List.forall_mem_cons.mp steps
      rw [List.foldlM_cons, first, List.flatMap_cons, ← List.append_assoc]
      exact induction later _

/-- Entries as the system describes them, each below a directory and with
every directory in between. -/
structure Grown (fs : FileSystem) (root directory : List Text)
    (entries : List TreeEntry) : Prop where
  described : ∀ entry ∈ entries,
    fs.lstat (encodePath (root ++ entry.path)) = some entry.stats
  below : ∀ entry ∈ entries, directory <+: entry.path ∧ entry.path ≠ directory
  between : ∀ entry ∈ entries, ∀ above, directory <+: above →
    above ≠ directory → above <+: entry.path → above ≠ entry.path →
    ∃ found ∈ entries, found.path = above ∧
      found.stats.node.isDirectory = true

namespace Grown

variable {directory path : List Text} {entries first second : List TreeEntry}
  {stats : Stats}

theorem nil : Grown fs root directory [] where
  described := by simp
  below := by simp
  between := by simp

theorem append (earlier : Grown fs root directory first)
    (later : Grown fs root directory second) :
    Grown fs root directory (first ++ second) where
  described entry member :=
    (List.mem_append.mp member).elim (earlier.described entry)
      (later.described entry)
  below entry member :=
    (List.mem_append.mp member).elim (earlier.below entry) (later.below entry)
  between entry member above isBelow notSame isAbove strict := by
    cases List.mem_append.mp member with
    | inl inFirst =>
        obtain ⟨found, isFound, facts⟩ :=
          earlier.between entry inFirst above isBelow notSame isAbove strict
        exact ⟨found, List.mem_append_left _ isFound, facts⟩
    | inr inSecond =>
        obtain ⟨found, isFound, facts⟩ :=
          later.between entry inSecond above isBelow notSame isAbove strict
        exact ⟨found, List.mem_append_right _ isFound, facts⟩

/-- A name of a directory, with what has grown below it. -/
theorem cons {name : Text}
    (found : fs.lstat (encodePath (root ++ (directory ++ [name]))) = some stats)
    (grown : Grown fs root (directory ++ [name]) entries)
    (isDirectory : entries ≠ [] → stats.node.isDirectory = true) :
    Grown fs root directory
      ({ path := directory ++ [name], stats } :: entries) where
  described := List.forall_mem_cons.mpr ⟨found, grown.described⟩
  below := by
    rw [List.forall_mem_cons]
    constructor
    · exact ⟨List.prefix_append _ _, by simp⟩
    · intro entry member
      obtain ⟨below, -⟩ := grown.below entry member
      refine ⟨(List.prefix_append _ _).trans below, ?_⟩
      intro same
      have long := below.length_le
      rw [same, List.length_append, List.length_singleton] at long
      omega
  between := by
    rw [List.forall_mem_cons]
    constructor
    · intro above isBelow notSame isAbove strict
      obtain ⟨rest, rfl⟩ := isBelow
      have short := isAbove.length_le
      have some : rest ≠ [] := fun isEmpty => notSame (by simp [isEmpty])
      have counted : 0 < rest.length := List.length_pos_iff.mpr some
      simp only [List.length_append, List.length_singleton] at short
      exact absurd (isAbove.eq_of_length (by
        simp only [List.length_append, List.length_singleton]; omega)) strict
    · intro entry member above isBelow notSame isAbove strict
      by_cases isName : above = directory ++ [name]
      · refine ⟨_, List.mem_cons_self, isName.symm, isDirectory ?_⟩
        exact List.ne_nil_of_mem member
      · have deeper : directory ++ [name] <+: above := by
          apply List.prefix_of_prefix_length_le (grown.below entry member).1
            isAbove
          obtain ⟨rest, rfl⟩ := isBelow
          have some : rest ≠ [] := fun isEmpty => notSame (by simp [isEmpty])
          have counted : 0 < rest.length := List.length_pos_iff.mpr some
          simp only [List.length_append, List.length_singleton]
          omega
        obtain ⟨found, isFound, facts⟩ :=
          grown.between entry member above deeper isName isAbove strict
        exact ⟨found, List.mem_cons_of_mem _ isFound, facts⟩

end Grown

theorem grown_visit {descend : List Text → Except Thrown (List TreeEntry)}
    {directory : List Text} {entries next : List TreeEntry} {name : Text}
    (descends : ∀ path below, descend path = .ok below →
      Grown fs root path below)
    (grown : Grown fs root directory entries)
    (isNext : visit validate fs root descend directory entries name =
      .ok next) : Grown fs root directory next := by
  rw [visit] at isNext
  cases isValid : validate (joinPath (directory ++ [name])) with
  | error thrown =>
      simp only [isValid, bind, Except.bind] at isNext
      cases isNext
  | ok _ =>
      cases found : fs.lstat (encodePath (root ++ (directory ++ [name]))) with
      | none =>
          simp only [isValid, found, bind, Except.bind] at isNext
          cases isNext
      | some stats =>
          simp only [isValid, found, bind, Except.bind] at isNext
          cases isDirectory : stats.node.isDirectory with
          | false =>
              rw [isDirectory] at isNext
              cases isNext
              exact grown.append (.cons found .nil fun some => absurd rfl some)
          | true =>
              rw [isDirectory, if_pos rfl] at isNext
              cases isBelow : descend (directory ++ [name]) with
              | error thrown =>
                  rw [isBelow] at isNext
                  cases isNext
              | ok below =>
                  rw [isBelow] at isNext
                  cases isNext
                  apply grown.append
                  exact .cons found (descends _ _ isBelow) fun _ => isDirectory

theorem grown_walk {depth : Nat} {directory : List Text}
    {entries : List TreeEntry}
    (isWalk : walk validate fs root depth directory = .ok entries) :
    Grown fs root directory entries := by
  induction depth generalizing directory entries with
  | zero =>
      cases isWalk
      exact .nil
  | succ depth induction =>
      rw [walk] at isWalk
      have fold (names : List Text) (entries next : List TreeEntry)
          (grown : Grown fs root directory entries)
          (isNext : names.foldlM (visit validate fs root
            (walk validate fs root depth) directory) entries = .ok next) :
          Grown fs root directory next := by
        induction names generalizing entries with
        | nil =>
            cases isNext
            exact grown
        | cons name names later =>
            rw [List.foldlM_cons] at isNext
            cases isVisit : visit validate fs root
                (walk validate fs root depth) directory entries name with
            | error thrown =>
                rw [isVisit] at isNext
                cases isNext
            | ok middle =>
                rw [isVisit] at isNext
                exact later middle (grown_visit (fun _ _ => induction) grown
                  isVisit) isNext
      exact fold _ _ _ .nil isWalk

/-- What is collected is sorted and grown from the root. -/
theorem grown_collectWith {entries : List TreeEntry}
    (collected : collectWith validate fs root = .ok entries) :
    Grown fs root [] entries ∧ entries.Pairwise ByRelative := by
  rw [collectWith] at collected
  cases isWalk : walk validate fs root (fs.height + 1) [] with
  | error thrown =>
      rw [isWalk] at collected
      cases collected
  | ok found =>
      rw [isWalk] at collected
      cases collected
      have grown := grown_walk isWalk
      have permuted := List.perm_insertionSort ByRelative found
      refine ⟨⟨?_, ?_, ?_⟩, List.pairwise_insertionSort _ _⟩
      · intro entry member
        exact grown.described entry (permuted.mem_iff.mp member)
      · intro entry member
        exact grown.below entry (permuted.mem_iff.mp member)
      · intro entry member above isBelow notSame isAbove strict
        obtain ⟨directory, isFound, facts⟩ := grown.between entry
          (permuted.mem_iff.mp member) above isBelow notSame isAbove strict
        exact ⟨directory, permuted.mem_iff.mpr isFound, facts⟩

/-- All names below the root are valid UTF-8. -/
def Utf8Names (fs : FileSystem) (root : Location) : Prop :=
  ∀ path, fs.present root path = true → ∀ name ∈ path, ∃ text : Text,
    name = Utf8.encode text

/-- The validation lets all paths pass whose names a directory may hold. -/
def Permits (validate : Text → Except Thrown Unit) : Prop :=
  ∀ path : List Text, path ≠ [] → (∀ name ∈ path, ValidText name) →
    validate (joinPath path) = .ok ()

theorem walk_eq_ok (permits : Permits validate)
    (utf8 : Utf8Names fs (encodePath root)) {depth : Nat}
    {directory : List Text}
    (deep : fs.height < directory.length + depth) :
    ∃ entries, walk validate fs root depth directory = .ok entries ∧
      Lists fs (encodePath root) (encodePath directory)
        (entries.map fun entry => encodePath entry.path) ∧
      ∀ entry ∈ entries,
        fs.lstat (encodePath (root ++ entry.path)) = some entry.stats := by
  induction depth generalizing directory with
  | zero =>
      refine ⟨[], rfl, lists_nil_of_height ?_, by simp⟩
      rwa [encodePath, List.length_map]
  | succ depth induction =>
      have blocks (name : Text)
          (member : Utf8.encode name ∈
            fs.children (encodePath (root ++ directory))) :
          ∃ block : List TreeEntry,
            Covers fs (encodePath root)
              (encodePath directory ++ [Utf8.encode name])
              (block.map fun entry => encodePath entry.path) ∧
            (∀ entry ∈ block,
              fs.lstat (encodePath (root ++ entry.path)) = some entry.stats) ∧
            ∀ entries, visit validate fs root (walk validate fs root depth)
              directory entries name = .ok (entries ++ block) := by
        have isPresent : fs.present (encodePath root)
            (encodePath (directory ++ [name])) = true := by
          rw [present, ← encodePath_append, ← List.append_assoc,
            encodePath_append]
          exact mem_children.mp member
        have isNext : encodePath directory ++ [Utf8.encode name] =
            encodePath (directory ++ [name]) :=
          (encodePath_append directory [name]).symm
        have isNode : fs.lstat (encodePath (root ++ (directory ++ [name]))) ≠
            none := by
          rw [Ne, lstat_eq_none_iff, ← Ne, ← Option.isSome_iff_ne_none,
            encodePath_append]
          exact isPresent
        obtain ⟨stats, found⟩ := Option.ne_none_iff_exists'.mp isNode
        obtain ⟨below, isWalk, lists, described⟩ := induction
          (show fs.height < (directory ++ [name]).length + depth by
            rw [List.length_append, List.length_singleton]; omega)
        have valid := permits (directory ++ [name]) (by simp)
          (validText_of_lstat found)
        rw [isNext]
        cases isDirectory : stats.node.isDirectory with
        | true =>
            refine ⟨{ path := directory ++ [name], stats } :: below,
              lists.covers isPresent, ?_, fun entries => ?_⟩
            · exact List.forall_mem_cons.mpr ⟨found, described⟩
            · simp only [visit, valid, found, isDirectory, isWalk, bind,
                Except.bind, if_true, pure, Except.pure]
        | false =>
            refine ⟨[{ path := directory ++ [name], stats }],
              (lists_nil ?_).covers isPresent, ?_, fun entries => ?_⟩
            · rw [FileSystem.isDirectory, ← encodePath_append,
                node_of_lstat found]
              exact isDirectory
            · exact List.forall_mem_singleton.mpr found
            · simp only [visit, valid, found, isDirectory, bind, Except.bind,
                pure, Except.pure, Bool.false_eq_true, if_false]
      have children : ∀ name ∈ fs.children (encodePath (root ++ directory)),
          Utf8.encode (Utf8.decodeLossy name) = name := by
        intro name member
        obtain ⟨text, rfl⟩ := utf8 (encodePath directory ++ [name]) (by
          rw [present, ← List.append_assoc, ← encodePath_append]
          exact mem_children.mp member) name (by simp)
        rw [Utf8.decodeLossy_encode]
      have blocks (name : Name) : ∃ block : List TreeEntry,
          name ∈ fs.children (encodePath (root ++ directory)) →
            Covers fs (encodePath root) (encodePath directory ++ [name])
              (block.map fun entry => encodePath entry.path) ∧
            (∀ entry ∈ block,
              fs.lstat (encodePath (root ++ entry.path)) = some entry.stats) ∧
            ∀ entries, visit validate fs root (walk validate fs root depth)
              directory entries (Utf8.decodeLossy name) =
                .ok (entries ++ block) := by
        by_cases member : name ∈ fs.children (encodePath (root ++ directory))
        · have same := children name member
          obtain ⟨block, facts⟩ := blocks (Utf8.decodeLossy name) (by
            rwa [same])
          rw [same] at facts
          exact ⟨block, fun _ => facts⟩
        · exact ⟨[], fun inside => absurd inside member⟩
      choose block facts using blocks
      have decoded : ∀ text ∈ ((fs.children
          (encodePath (root ++ directory))).map
            Utf8.decodeLossy).insertionSort ByEncoding,
          Utf8.encode text ∈ fs.children (encodePath (root ++ directory)) ∧
            Utf8.decodeLossy (Utf8.encode text) = text := by
        intro text member
        obtain ⟨name, isName, rfl⟩ :=
          List.mem_map.mp (List.mem_insertionSort _ |>.mp member)
        rw [children name isName]
        exact ⟨isName, rfl⟩
      have permuted : ((((fs.children (encodePath (root ++ directory))).map
          Utf8.decodeLossy).insertionSort ByEncoding).map Utf8.encode).Perm
            (fs.children (encodePath (root ++ directory))) := by
        apply ((List.perm_insertionSort _ _).map Utf8.encode).trans
        rw [List.map_map]
        apply List.Perm.of_eq
        exact (List.map_congr_left children).trans (List.map_id _)
      rw [walk]
      generalize ((fs.children (encodePath (root ++ directory))).map
        Utf8.decodeLossy).insertionSort ByEncoding = names at decoded permuted
      refine ⟨names.flatMap fun text => block (Utf8.encode text), ?_, ?_, ?_⟩
      · apply foldlM_append
        intro text member entries
        obtain ⟨isChild, same⟩ := decoded text member
        have steps := (facts (Utf8.encode text) isChild).2.2 entries
        rwa [same] at steps
      · rw [encodePath_append] at permuted
        have lists : Lists fs (encodePath root) (encodePath directory)
            ((names.map Utf8.encode).flatMap fun name =>
              (block name).map fun entry => encodePath entry.path) := by
          apply lists_flatMap permuted
          intro name member
          apply (facts name _).1
          rw [encodePath_append]
          exact permuted.mem_iff.mp member
        rwa [List.flatMap_map, ← List.map_flatMap] at lists
      · intro entry member
        obtain ⟨text, isText, inBlock⟩ := List.mem_flatMap.mp member
        exact (facts _ (decoded text isText).1).2.1 entry inBlock

theorem collectWith_eq_ok (permits : Permits validate)
    (utf8 : Utf8Names fs (encodePath root)) :
    ∃ entries, collectWith validate fs root = .ok entries ∧
      entries.map (fun entry => encodePath entry.path) =
        fs.paths (encodePath root) ∧
      ∀ entry ∈ entries,
        fs.lstat (encodePath (root ++ entry.path)) = some entry.stats := by
  obtain ⟨entries, isWalk, lists, described⟩ := walk_eq_ok permits utf8
    (show fs.height < ([] : List Text).length + (fs.height + 1) by simp)
  have permuted := List.perm_insertionSort ByRelative entries
  refine ⟨entries.insertionSort ByRelative, ?_, ?_, ?_⟩
  · rw [collectWith, isWalk]
    rfl
  · have all := (permuted.map fun entry => encodePath entry.path).trans
      lists.perm_paths
    apply eq_of_sorted _ all _ pairwise_paths
    · intro held member
      exact validNames_of_present (mem_paths.mp (all.mem_iff.mp member)).2
    · apply List.pairwise_map.mpr
      apply (List.pairwise_insertionSort ByRelative entries).imp
      intro left right before
      rwa [ByPath, ← encode_joinPath, ← encode_joinPath]
  · intro entry member
    exact described entry (permuted.mem_iff.mp member)

end Electrosphere.Workspace
