import Electrosphere.Foundation.FileSystem
import Mathlib.Data.List.Lex
import Mathlib.Data.List.Sort

/-!
# Listing a directory tree

What stands below a directory, each location once, in the order of the bytes
of their paths.  A walk that lists every directory it meets finds exactly
that, whatever order it visits the names in.
-/

namespace Foundation

/-- The order of byte strings. -/
def ByteOrder (left right : List UInt8) : Prop :=
  left.map UInt8.toNat ≤ right.map UInt8.toNat

instance decidableByteOrder (left right : List UInt8) :
    Decidable (ByteOrder left right) :=
  inferInstanceAs (Decidable (left.map UInt8.toNat ≤ right.map UInt8.toNat))

namespace ByteOrder

variable {first second third : List UInt8}

theorem total (first second : List UInt8) :
    ByteOrder first second ∨ ByteOrder second first :=
  le_total _ _

theorem trans (earlier : ByteOrder first second)
    (later : ByteOrder second third) : ByteOrder first third :=
  le_trans earlier later

theorem antisymm (forward : ByteOrder first second)
    (backward : ByteOrder second first) : first = second := by
  apply List.map_injective_iff.mpr _ (le_antisymm forward backward)
  intro left right same
  exact UInt8.toNat_inj.mp same

end ByteOrder

namespace FileSystem

/-- The bytes of a relative path. -/
def pathBytes (names : List Name) : List UInt8 := [slash].intercalate names

def ByPath (left right : List Name) : Prop :=
  ByteOrder (pathBytes left) (pathBytes right)

instance decidableByPath (left right : List Name) :
    Decidable (ByPath left right) :=
  inferInstanceAs (Decidable (ByteOrder _ _))

instance totalByPath : Std.Total ByPath :=
  ⟨fun _ _ => ByteOrder.total _ _⟩

instance transByPath : IsTrans (List Name) ByPath :=
  ⟨fun _ _ _ => ByteOrder.trans⟩

theorem components_pathBytes {names : List Name} (some : names ≠ [])
    (noSlash : ∀ name ∈ names, slash ∉ name) :
    (pathBytes names).splitOn slash = names :=
  List.splitOn_intercalate slash noSlash some

/-- No name is empty or holds a slash, so the bytes of a path determine it. -/
theorem pathBytes_injective {first second : List Name}
    (firstValid : ∀ name ∈ first, ValidName name)
    (secondValid : ∀ name ∈ second, ValidName name)
    (same : pathBytes first = pathBytes second) : first = second := by
  have empty (names : List Name) (valid : ∀ name ∈ names, ValidName name)
      (isEmpty : pathBytes names = []) : names = [] := by
    by_contra notEmpty
    have split := components_pathBytes notEmpty fun name member =>
      (valid name member).noSlash
    rw [isEmpty, List.splitOn_nil] at split
    exact (valid [] (by rw [← split]; exact List.mem_singleton_self _)).notEmpty
      rfl
  by_cases isFirst : first = []
  · subst isFirst
    exact (empty second secondValid same.symm).symm
  by_cases isSecond : second = []
  · subst isSecond
    exact empty first firstValid same
  · rw [← components_pathBytes isFirst fun name member =>
      (firstValid name member).noSlash, same, components_pathBytes isSecond
        fun name member => (secondValid name member).noSlash]

variable (fs : FileSystem) (root : Location)

/-- Something stands at a path below the root. -/
def present (path : List Name) : Bool := (fs.node (root ++ path)).isSome

/-- All paths below the root, sorted. -/
def paths : List (List Name) :=
  (((fs.listing.filter fun held =>
    root <+: held ∧ held ≠ root ∧ (fs.node held).isSome).dedup).map
      fun held => held.drop root.length).insertionSort ByPath

/-- No path is longer. -/
def height : Nat := (fs.listing.map List.length).foldr max 0

/-- Exactly what stands at or below a path, each once. -/
structure Covers (path : List Name) (found : List (List Name)) : Prop where
  nodup : found.Nodup
  mem_iff : ∀ held, held ∈ found ↔
    path <+: held ∧ fs.present root held = true

/-- Exactly what stands below a path, each once. -/
structure Lists (path : List Name) (found : List (List Name)) : Prop where
  nodup : found.Nodup
  mem_iff : ∀ held, held ∈ found ↔
    path <+: held ∧ held ≠ path ∧ fs.present root held = true

variable {fs root} {path held : List Name} {found : List (List Name)}

theorem validNames_of_present (isPresent : fs.present root held = true) :
    ∀ name ∈ held, ValidName name := by
  intro name member
  exact validName_of_mem isPresent (List.mem_append_right root member)

theorem present_of_prefix (isPresent : fs.present root held = true)
    (above : path <+: held) : fs.present root path = true := by
  obtain ⟨rest, rfl⟩ := above
  by_cases same : rest = []
  · rwa [same, List.append_nil] at isPresent
  · rw [present, ← List.append_assoc] at isPresent
    exact isSome_of_isDirectory (isDirectory_of_append same isPresent)

theorem length_le_height (isPresent : fs.present root held = true) :
    held.length ≤ fs.height := by
  have listed := fs.listed _ isPresent
  have longest (listing : List Location) (member : root ++ held ∈ listing) :
      (root ++ held).length ≤ (listing.map List.length).foldr max 0 := by
    induction listing with
    | nil => cases member
    | cons first rest induction =>
        rw [List.map_cons, List.foldr_cons]
        cases List.mem_cons.mp member with
        | inl same =>
            subst same
            exact Nat.le_max_left _ _
        | inr later => exact (induction later).trans (Nat.le_max_right _ _)
  have bounded := longest fs.listing listed
  rw [List.length_append] at bounded
  exact (Nat.le_add_left _ _).trans bounded

theorem mem_paths :
    held ∈ fs.paths root ↔ held ≠ [] ∧ fs.present root held = true := by
  simp only [paths, List.mem_insertionSort, List.mem_map, List.mem_dedup,
    List.mem_filter, decide_eq_true_eq]
  constructor
  · rintro ⟨location, ⟨-, ⟨rest, rfl⟩, notRoot, isPresent⟩, rfl⟩
    rw [List.drop_left]
    exact ⟨fun isEmpty => notRoot (by rw [isEmpty, List.append_nil]), isPresent⟩
  · intro ⟨notRoot, isPresent⟩
    refine ⟨root ++ held, ⟨fs.listed _ isPresent, List.prefix_append _ _, ?_,
      isPresent⟩, List.drop_left⟩
    intro same
    exact notRoot (List.append_right_eq_self.mp same)

theorem nodup_paths : (fs.paths root).Nodup := by
  rw [paths]
  apply (List.perm_insertionSort _ _).nodup_iff.mpr
  apply (List.nodup_dedup _).map_on
  intro first isFirst second isSecond same
  simp only [List.mem_dedup, List.mem_filter, decide_eq_true_eq]
    at isFirst isSecond
  obtain ⟨-, ⟨firstRest, rfl⟩, -⟩ := isFirst
  obtain ⟨-, ⟨secondRest, rfl⟩, -⟩ := isSecond
  rw [List.drop_left, List.drop_left] at same
  rw [same]

theorem pairwise_paths : (fs.paths root).Pairwise ByPath :=
  List.pairwise_insertionSort _ _

/-- Sorted lists of the same paths are equal. -/
theorem eq_of_sorted {first second : List (List Name)}
    (valid : ∀ held ∈ first, ∀ name ∈ held, ValidName name)
    (permuted : first.Perm second) (firstSorted : first.Pairwise ByPath)
    (secondSorted : second.Pairwise ByPath) : first = second := by
  apply permuted.eq_of_pairwise _ firstSorted secondSorted
  intro left right isLeft isRight forward backward
  apply pathBytes_injective (valid left isLeft)
    (valid right (permuted.mem_iff.mpr isRight))
  exact forward.antisymm backward

/-- The paths are known by what stands below the root. -/
theorem paths_congr {other : FileSystem} {goal : Location}
    (same : ∀ path, path ≠ [] →
      other.present goal path = fs.present root path) :
    other.paths goal = fs.paths root := by
  apply eq_of_sorted _ _ pairwise_paths pairwise_paths
  · intro path member
    exact validNames_of_present (mem_paths.mp member).2
  · apply (List.perm_ext_iff_of_nodup nodup_paths nodup_paths).mpr
    intro path
    rw [mem_paths, mem_paths]
    apply and_congr_right
    intro notRoot
    rw [same path notRoot]

theorem Lists.perm_paths (lists : Lists fs root [] found) :
    found.Perm (fs.paths root) := by
  apply (List.perm_ext_iff_of_nodup lists.nodup nodup_paths).mpr
  intro held
  rw [lists.mem_iff, mem_paths, and_iff_right List.nil_prefix]

theorem pathBytes_append (first rest : List Name) :
    pathBytes first <+: pathBytes (first ++ rest) := by
  rw [pathBytes, pathBytes]
  induction first with
  | nil => exact List.nil_prefix
  | cons name first induction =>
      cases first with
      | nil =>
          cases rest with
          | nil => exact List.prefix_refl _
          | cons next rest =>
              rw [List.singleton_append, List.intercalate_singleton,
                List.intercalate_cons_cons, List.append_assoc]
              exact List.prefix_append _ _
      | cons next first =>
          rw [List.cons_append, List.cons_append, List.intercalate_cons_cons,
            List.intercalate_cons_cons]
          exact (List.prefix_append_right_inj _).mpr induction

/-- A path comes after those that lead to it. -/
theorem byPath_of_below (below : path <+: held) : ByPath path held := by
  obtain ⟨rest, rfl⟩ := below
  obtain ⟨tail, isTail⟩ := pathBytes_append path rest
  rw [ByPath, ByteOrder, ← isTail, List.map_append]
  induction (pathBytes path).map UInt8.toNat with
  | nil => exact not_lt.mp (List.not_lt_nil _)
  | cons byte bytes induction => exact List.cons_le_cons byte induction

theorem not_prefix_paths :
    (fs.paths root).Pairwise fun first second => ¬ second <+: first := by
  apply (pairwise_paths.and nodup_paths).imp_of_mem
  intro first second isFirst isSecond both below
  apply both.2
  apply pathBytes_injective
    (validNames_of_present (mem_paths.mp isFirst).2)
    (validNames_of_present (mem_paths.mp isSecond).2)
  exact both.1.antisymm (byPath_of_below below)

/-! ## One directory -/

theorem Lists.covers (lists : Lists fs root path found)
    (isPresent : fs.present root path = true) :
    Covers fs root path (path :: found) where
  nodup := by
    apply List.nodup_cons.mpr
    refine ⟨fun member => ?_, lists.nodup⟩
    exact ((lists.mem_iff path).mp member).2.1 rfl
  mem_iff held := by
    rw [List.mem_cons, lists.mem_iff]
    by_cases same : held = path
    · subst same
      simp [isPresent]
    · simp [same]

/-- Nothing stands below what is not a directory. -/
theorem lists_nil (noDirectory : fs.isDirectory (root ++ path) = false) :
    Lists fs root path [] where
  nodup := List.nodup_nil
  mem_iff held := by
    simp only [List.not_mem_nil, false_iff]
    rintro ⟨⟨rest, rfl⟩, notSame, isPresent⟩
    rw [present, ← List.append_assoc] at isPresent
    have above := isDirectory_of_append (fun isEmpty => notSame (by
      rw [isEmpty, List.append_nil])) isPresent
    rw [noDirectory] at above
    cases above

theorem lists_flatMap {names : List Name} {block : Name → List (List Name)}
    (children : names.Perm (fs.children (root ++ path)))
    (covers : ∀ name ∈ names, Covers fs root (path ++ [name]) (block name)) :
    Lists fs root path (names.flatMap block) where
  nodup := by
    apply List.nodup_flatMap.mpr
    constructor
    · intro name member
      exact (covers name member).nodup
    · have distinct : names.Nodup :=
        children.nodup_iff.mpr (nodup_children _ _)
      apply distinct.imp_of_mem
      intro first second isFirst isSecond different held inFirst inSecond
      have firstAbove := (((covers first isFirst).mem_iff held).mp inFirst).1
      have secondAbove := (((covers second isSecond).mem_iff held).mp inSecond).1
      have same := (List.prefix_of_prefix_length_le firstAbove secondAbove
        (by simp)).eq_of_length (by simp)
      exact different (List.singleton_injective
        (List.append_cancel_left same))
  mem_iff held := by
    rw [List.mem_flatMap]
    constructor
    · intro ⟨name, member, inBlock⟩
      obtain ⟨above, isPresent⟩ := ((covers name member).mem_iff held).mp inBlock
      refine ⟨(List.prefix_append _ _).trans above, ?_, isPresent⟩
      rintro rfl
      exact not_prefix_append _ _ above
    · rintro ⟨⟨rest, rfl⟩, notSame, isPresent⟩
      cases rest with
      | nil => exact absurd (List.append_nil path) notSame
      | cons name rest =>
          have below : path ++ [name] <+: path ++ name :: rest :=
            ⟨rest, by simp⟩
          have member : name ∈ names := by
            apply children.mem_iff.mpr
            apply mem_children.mpr
            have found := present_of_prefix isPresent below
            rwa [present, ← List.append_assoc] at found
          exact ⟨name, member,
            ((covers name member).mem_iff _).mpr ⟨below, isPresent⟩⟩

/-- Nothing stands below a path that is too long. -/
theorem lists_nil_of_height (deep : fs.height < path.length) :
    Lists fs root path [] where
  nodup := List.nodup_nil
  mem_iff held := by
    simp only [List.not_mem_nil, false_iff]
    intro ⟨above, _, isPresent⟩
    have long := above.length_le
    have short := length_le_height isPresent
    omega

end FileSystem

/-- Steps that each add a block, in any order, add the blocks. -/
theorem foldl_perm {α β : Type} {step : List α → β → List α}
    {block : β → List α}
    (steps : ∀ entries item, (step entries item).Perm (entries ++ block item))
    (items : List β) (entries : List α) :
    (items.foldl step entries).Perm (entries ++ items.flatMap block) := by
  induction items generalizing entries with
  | nil =>
      rw [List.flatMap_nil, List.append_nil]
      exact List.Perm.refl _
  | cons item items induction =>
      rw [List.foldl_cons, List.flatMap_cons, ← List.append_assoc]
      exact (induction _).trans ((steps entries item).append_right _)

end Foundation
