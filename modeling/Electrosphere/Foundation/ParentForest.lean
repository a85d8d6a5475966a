import Mathlib.Data.List.Perm.Subperm
import Mathlib.Logic.Relation

/-!
# Forests given by a parent function

Every node has at most one parent.  `collect` is the marking loop that follows
parents from a list of pending nodes, and `depth` counts the proper ancestors
of a node.  Both run on a number of rounds; the theorems say how many rounds
are enough and what the loops then compute.
-/

namespace Foundation

universe u

variable {α : Type u}

/-- One step from a node to its parent. -/
def ParentOf (parent : α → Option α) (child ancestor : α) : Prop :=
  parent child = some ancestor

/-- The second node is the first one or an ancestor of it. -/
def Ascends (parent : α → Option α) : α → α → Prop :=
  Relation.ReflTransGen (ParentOf parent)

/-- No node is a proper ancestor of itself. -/
def Acyclic (parent : α → Option α) : Prop :=
  ∀ node, ¬ Relation.TransGen (ParentOf parent) node node

/-- A rank that falls from a node to its parent rules out cycles. -/
theorem acyclic_of_rank {parent : α → Option α} (rank : α → Nat)
    (falls : ∀ node up, parent node = some up → rank up < rank node) :
    Acyclic parent := by
  have lower : ∀ node other, Relation.TransGen (ParentOf parent) node other →
      rank other < rank node := by
    intro node other path
    induction path with
    | single step => exact falls _ _ step
    | tail _ step induction => exact Nat.lt_trans (falls _ _ step) induction
  intro node cycle
  exact Nat.lt_irrefl _ (lower node node cycle)

namespace Ascends

variable {parent other : α → Option α} {first second third : α}

theorem refl (node : α) : Ascends parent node node :=
  Relation.ReflTransGen.refl

theorem head (up : parent first = some second)
    (rest : Ascends parent second third) : Ascends parent first third :=
  Relation.ReflTransGen.head up rest

theorem tail (rest : Ascends parent first second)
    (up : parent second = some third) : Ascends parent first third :=
  Relation.ReflTransGen.tail rest up

/-- Giving more nodes a parent keeps every path. -/
theorem mono (larger : ∀ node up, parent node = some up →
      other node = some up)
    (path : Ascends parent first second) : Ascends other first second :=
  Relation.ReflTransGen.mono (fun node up step => larger node up step)
    first second path

/-- A set that contains the parents of its members contains their
ancestors. -/
theorem closed (member : α → Prop)
    (closed : ∀ node up, member node → parent node = some up → member up)
    (path : Ascends parent first second) (start : member first) :
    member second := by
  induction path with
  | refl => exact start
  | tail _ step induction => exact closed _ _ induction step

end Ascends

/-! ## Marking -/

section Collect

variable [DecidableEq α]

/-- The marking loop: take a pending node, mark it unless it is marked, and
make its parent pending. -/
def collect (parent : α → Option α) : Nat → List α → List α → List α
  | 0, _, marked => marked
  | _, [], marked => marked
  | rounds + 1, node :: pending, marked =>
      if node ∈ marked then collect parent rounds pending marked
      else
        match parent node with
        | some up => collect parent rounds (up :: pending) (node :: marked)
        | none => collect parent rounds pending (node :: marked)

variable {parent : α → Option α}

theorem mem_collect_of_marked {rounds : Nat} {pending marked : List α}
    {node : α} (member : node ∈ marked) :
    node ∈ collect parent rounds pending marked := by
  induction rounds generalizing pending marked with
  | zero => simpa [collect] using member
  | succ rounds induction =>
      cases pending with
      | nil => simpa [collect] using member
      | cons first pending =>
          unfold collect
          split
          · exact induction member
          · split <;> exact induction (List.mem_cons_of_mem _ member)

/-- Only what pending and marked nodes reach is ever marked. -/
theorem collect_sound {rounds : Nat} {pending marked : List α} {node : α}
    (member : node ∈ collect parent rounds pending marked) :
    node ∈ marked ∨ ∃ root ∈ pending, Ascends parent root node := by
  induction rounds generalizing pending marked with
  | zero => exact .inl (by simpa [collect] using member)
  | succ rounds induction =>
      cases pending with
      | nil => exact .inl (by simpa [collect] using member)
      | cons first pending =>
          unfold collect at member
          split at member
          · rcases induction member with seen | ⟨root, inside, path⟩
            · exact .inl seen
            · exact .inr ⟨root, List.mem_cons_of_mem _ inside, path⟩
          · split at member
            · rename_i up isParent
              rcases induction member with seen | ⟨root, inside, path⟩
              · rcases List.mem_cons.mp seen with rfl | seen
                · exact .inr ⟨node, List.mem_cons_self, .refl _⟩
                · exact .inl seen
              · rcases List.mem_cons.mp inside with rfl | inside
                · exact .inr ⟨first, List.mem_cons_self,
                    path.head isParent⟩
                · exact .inr ⟨root, List.mem_cons_of_mem _ inside, path⟩
            · rcases induction member with seen | ⟨root, inside, path⟩
              · rcases List.mem_cons.mp seen with rfl | seen
                · exact .inr ⟨node, List.mem_cons_self, .refl _⟩
                · exact .inl seen
              · exact .inr ⟨root, List.mem_cons_of_mem _ inside, path⟩

/-- Unmarked nodes of a finite support, the part of the loop's measure that a
push uses up. -/
def unmarked (support marked : List α) : Nat :=
  (support.filter fun node => decide (node ∉ marked)).length

theorem unmarked_cons_lt {support marked : List α} {node : α}
    (supported : node ∈ support) (fresh : node ∉ marked) :
    unmarked support (node :: marked) < unmarked support marked := by
  unfold unmarked
  have thinner : (support.filter fun other =>
      decide (other ∉ node :: marked)) =
      (support.filter fun other => decide (other ∉ marked)).filter
        fun other => decide (other ≠ node) := by
    rw [List.filter_filter]
    apply List.filter_congr
    intro other _
    simp [not_or]
  rw [thinner]
  apply List.length_filter_lt_length_iff_exists.mpr
  exact ⟨node, List.mem_filter.mpr ⟨supported, by simpa using fresh⟩,
    by simp⟩

theorem unmarked_cons_le (support marked : List α) (node : α) :
    unmarked support (node :: marked) ≤ unmarked support marked := by
  unfold unmarked
  apply List.Sublist.length_le
  apply List.monotone_filter_right
  intro other
  simp [not_or]

/-- After enough rounds the marked nodes contain the pending ones and the
parents of all their members. -/
theorem collect_complete {support : List α}
    (supported : ∀ node up, parent node = some up → node ∈ support)
    {rounds : Nat} (pending marked : List α)
    (enough : pending.length + unmarked support marked ≤ rounds)
    (closed : ∀ node ∈ marked, ∀ up, parent node = some up →
      up ∈ marked ∨ up ∈ pending) :
    (∀ root ∈ pending, root ∈ collect parent rounds pending marked) ∧
      ∀ node ∈ collect parent rounds pending marked, ∀ up,
        parent node = some up → up ∈ collect parent rounds pending marked := by
  induction rounds generalizing pending marked with
  | zero =>
      have none : pending = [] := List.length_eq_zero_iff.mp (by omega)
      subst none
      refine ⟨by simp, fun node member up step => ?_⟩
      have inside := closed node (by simpa [collect] using member) up step
      simpa [collect] using inside
  | succ rounds induction =>
      cases pending with
      | nil =>
          refine ⟨by simp, fun node member up step => ?_⟩
          have inside := closed node (by simpa [collect] using member) up step
          simpa [collect] using inside
      | cons first pending =>
          have size : pending.length + 1 + unmarked support marked ≤
              rounds + 1 := by simpa using enough
          unfold collect
          split
          case isTrue seen =>
            obtain ⟨roots, ups⟩ := induction pending marked (by omega)
              (fun node member up step => by
                rcases closed node member up step with inside | inside
                · exact .inl inside
                · rcases List.mem_cons.mp inside with rfl | inside
                  · exact .inl seen
                  · exact .inr inside)
            refine ⟨fun root inside => ?_, ups⟩
            rcases List.mem_cons.mp inside with rfl | inside
            · exact mem_collect_of_marked seen
            · exact roots root inside
          case isFalse fresh =>
            cases step : parent first with
            | some up =>
                have fewer := unmarked_cons_lt
                  (supported first up step) fresh
                obtain ⟨roots, ups⟩ := induction (up :: pending) (first :: marked)
                  (by simp only [List.length_cons]; omega)
                  (fun node member above nodeStep => by
                    rcases List.mem_cons.mp member with rfl | member
                    · rw [step] at nodeStep
                      cases nodeStep
                      exact .inr List.mem_cons_self
                    · rcases closed node member above nodeStep with
                        inside | inside
                      · exact .inl (List.mem_cons_of_mem _ inside)
                      · rcases List.mem_cons.mp inside with rfl | inside
                        · exact .inl List.mem_cons_self
                        · exact .inr (List.mem_cons_of_mem _ inside))
                refine ⟨fun root inside => ?_, ups⟩
                rcases List.mem_cons.mp inside with rfl | inside
                · exact mem_collect_of_marked List.mem_cons_self
                · exact roots root (List.mem_cons_of_mem _ inside)
            | none =>
                have fewer := unmarked_cons_le support marked first
                obtain ⟨roots, ups⟩ := induction pending (first :: marked)
                  (by omega)
                  (fun node member above nodeStep => by
                    rcases List.mem_cons.mp member with rfl | member
                    · rw [step] at nodeStep
                      cases nodeStep
                    · rcases closed node member above nodeStep with
                        inside | inside
                      · exact .inl (List.mem_cons_of_mem _ inside)
                      · rcases List.mem_cons.mp inside with rfl | inside
                        · exact .inl List.mem_cons_self
                        · exact .inr inside)
                refine ⟨fun root inside => ?_, ups⟩
                rcases List.mem_cons.mp inside with rfl | inside
                · exact mem_collect_of_marked List.mem_cons_self
                · exact roots root inside

/-- With as many rounds as there are roots and supported nodes, marking from
the roots finds exactly the roots and their ancestors. -/
theorem mem_collect_iff {support : List α}
    (supported : ∀ node up, parent node = some up → node ∈ support)
    {rounds : Nat} {roots : List α}
    (enough : roots.length + support.length ≤ rounds) {node : α} :
    node ∈ collect parent rounds roots [] ↔
      ∃ root ∈ roots, Ascends parent root node := by
  have size : unmarked support [] ≤ support.length :=
    List.length_filter_le _ _
  obtain ⟨contained, ups⟩ := collect_complete supported roots []
    (by omega : roots.length + unmarked support [] ≤ rounds) (by simp)
  constructor
  · intro member
    rcases collect_sound member with inside | found
    · simp at inside
    · exact found
  · rintro ⟨root, inside, path⟩
    exact path.closed _ (fun below up member step => ups below member up step)
      (contained root inside)

end Collect

/-! ## Depth -/

/-- A node has the given number of proper ancestors. -/
inductive Height (parent : α → Option α) : α → Nat → Prop where
  | root {node : α} : parent node = none → Height parent node 0
  | step {node up : α} {height : Nat} : parent node = some up →
      Height parent up height → Height parent node (height + 1)

theorem Height.unique {parent : α → Option α} {node : α} {left right : Nat}
    (first : Height parent node left) (second : Height parent node right) :
    left = right := by
  induction first generalizing right with
  | root none =>
      cases second with
      | root _ => rfl
      | step up _ => simp [none] at up
  | step up _ induction =>
      cases second with
      | root none => simp [none] at up
      | step other rest =>
          rw [up] at other
          cases other
          exact congrArg Nat.succ (induction rest)

theorem Height.parent {parent : α → Option α} {node up : α} {height : Nat}
    (known : Height parent node height) (step : parent node = some up) :
    ∃ above, height = above + 1 ∧ Height parent up above := by
  cases known with
  | root none => simp [none] at step
  | step other rest =>
      rw [step] at other
      cases other
      exact ⟨_, rfl, rest⟩

/-- In an acyclic forest over a finite support every node has a height, and
the height is bounded by the support: the nodes already passed on the way up
are distinct. -/
private theorem exists_height_above [DecidableEq α] {parent : α → Option α}
    (acyclic : Acyclic parent) {support : List α}
    (supported : ∀ node up, parent node = some up → node ∈ support)
    (remaining : Nat) (passed : List α) (node : α)
    (counted : remaining + passed.length = support.length)
    (distinct : passed.Nodup) (inside : ∀ below ∈ passed, below ∈ support)
    (leads : ∀ below ∈ passed,
      Relation.TransGen (ParentOf parent) below node) :
    ∃ height, height ≤ remaining ∧ Height parent node height := by
  induction remaining generalizing passed node with
  | zero =>
      cases step : parent node with
      | none => exact ⟨0, Nat.le_refl _, .root step⟩
      | some up =>
          have fresh : node ∉ passed := fun member =>
            acyclic node (leads node member)
          have longer : (node :: passed).Subperm support :=
            (List.nodup_cons.mpr ⟨fresh, distinct⟩).subperm (by
              intro below member
              rcases List.mem_cons.mp member with rfl | member
              · exact supported _ up step
              · exact inside below member)
          have bound := longer.length_le
          simp only [List.length_cons] at bound
          omega
  | succ remaining induction =>
      cases step : parent node with
      | none => exact ⟨0, Nat.zero_le _, .root step⟩
      | some up =>
          have fresh : node ∉ passed := fun member =>
            acyclic node (leads node member)
          obtain ⟨height, bound, known⟩ := induction (node :: passed) up
            (by simp only [List.length_cons]; omega)
            (List.nodup_cons.mpr ⟨fresh, distinct⟩)
            (by
              intro below member
              rcases List.mem_cons.mp member with rfl | member
              · exact supported _ up step
              · exact inside below member)
            (by
              intro below member
              rcases List.mem_cons.mp member with rfl | member
              · exact .single step
              · exact (leads below member).tail step)
          exact ⟨height + 1, by omega, .step step known⟩

theorem exists_height [DecidableEq α] {parent : α → Option α}
    (acyclic : Acyclic parent) {support : List α}
    (supported : ∀ node up, parent node = some up → node ∈ support)
    (node : α) :
    ∃ height, height ≤ support.length ∧ Height parent node height :=
  exists_height_above acyclic supported support.length [] node (by simp)
    List.nodup_nil (by simp) (by simp)

section Depth

variable [DecidableEq α]

/-- Walk up from a node, counting, until there is no parent or a node comes
up a second time. -/
def depthLoop (parent : α → Option α) :
    Nat → List α → Option α → Nat → Nat
  | 0, _, _, depth => depth
  | _, _, none, depth => depth
  | rounds + 1, seen, some current, depth =>
      if current ∈ seen then depth
      else
        depthLoop parent rounds (current :: seen) (parent current) (depth + 1)

def depth (parent : α → Option α) (rounds : Nat) (node : α) : Nat :=
  depthLoop parent rounds [] (parent node) 0

variable {parent : α → Option α}

/-- The nodes seen so far lie higher up in height, so the walk never meets
one of them. -/
private theorem depthLoop_eq {rounds height counted : Nat} (seen : List α)
    {current : α} (known : Height parent current height)
    (below : ∀ node ∈ seen, ∃ taller, height < taller ∧
      Height parent node taller)
    (enough : height < rounds) :
    depthLoop parent rounds seen (some current) counted =
      counted + height + 1 := by
  induction rounds generalizing current height seen counted with
  | zero => omega
  | succ rounds induction =>
      have fresh : current ∉ seen := by
        intro member
        obtain ⟨taller, longer, other⟩ := below current member
        have := known.unique other
        omega
      unfold depthLoop
      rw [if_neg fresh]
      cases known with
      | root none =>
          rw [none]
          cases rounds <;> simp [depthLoop]
      | @step _ up above step rest =>
          rw [step, induction (current :: seen) rest
            (fun node member => by
              rcases List.mem_cons.mp member with rfl | member
              · exact ⟨above + 1, by omega, .step step rest⟩
              · obtain ⟨taller, longer, other⟩ := below node member
                exact ⟨taller, by omega, other⟩)
            (by omega)]
          omega

theorem depth_eq_height {rounds height : Nat} {node : α}
    (known : Height parent node height) (enough : height ≤ rounds) :
    depth parent rounds node = height := by
  unfold depth
  cases known with
  | root none =>
      rw [none]
      cases rounds <;> simp [depthLoop]
  | step step rest =>
      rw [step, depthLoop_eq [] rest (by simp) (by omega)]
      omega

/-- In an acyclic forest a child is one deeper than its parent. -/
theorem depth_child (acyclic : Acyclic parent) {support : List α}
    (supported : ∀ node up, parent node = some up → node ∈ support)
    {rounds : Nat} (enough : support.length ≤ rounds) {node up : α}
    (step : parent node = some up) :
    depth parent rounds node = depth parent rounds up + 1 := by
  obtain ⟨height, bound, known⟩ := exists_height acyclic supported node
  obtain ⟨above, same, higher⟩ := known.parent step
  rw [depth_eq_height known (by omega),
    depth_eq_height higher (by omega), same]

end Depth

end Foundation
