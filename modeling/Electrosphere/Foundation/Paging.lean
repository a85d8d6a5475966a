import Mathlib.Data.List.Induction
import Mathlib.Data.List.TakeWhile
import Mathlib.Order.Lattice

/-!
# Pages of a list

A page is collected item by item: an item is taken when the page accepts it.
`select` passes over what is refused and goes on; `fill` stops there.  The two
agree exactly when nothing is accepted after the first refusal (`NoGap`), and
reading page after page returns every item once exactly when this holds at
every page.
-/

namespace Foundation.Paging

universe u v

variable {α : Type u} (accepts : List α → α → Bool)

/-- The items taken, those refused being passed over. -/
def select : List α → List α → List α
  | page, [] => page
  | page, item :: items =>
      if accepts page item then select (page ++ [item]) items
      else select page items

/-- The items taken before the first refusal, and the items from it on. -/
def fill : List α → List α → List α × List α
  | page, [] => (page, [])
  | page, item :: items =>
      if accepts page item then fill (page ++ [item]) items
      else (page, item :: items)

/-- The items after the last one taken. -/
def leftover : List α → List α → List α → List α
  | _, [], rest => rest
  | page, item :: items, rest =>
      if accepts page item then leftover (page ++ [item]) items items
      else leftover page items rest

/-- After the first item that is refused, none is taken. -/
def NoGap (items : List α) : Prop :=
  ∀ item ∈ (fill accepts [] items).2,
    accepts (fill accepts [] items).1 item = false

variable {accepts} {page items : List α}

theorem fill_append (accepts : List α → α → Bool) (page items : List α) :
    (fill accepts page items).1 ++ (fill accepts page items).2 =
      page ++ items := by
  induction items generalizing page with
  | nil => rfl
  | cons item items induction =>
      rw [fill]
      split
      · rw [induction, List.append_assoc]
        rfl
      · rfl

theorem prefix_fill (accepts : List α → α → Bool) (page items : List α) :
    page <+: (fill accepts page items).1 := by
  induction items generalizing page with
  | nil => exact List.prefix_rfl
  | cons item items induction =>
      rw [fill]
      split
      · exact (List.prefix_append page [item]).trans (induction _)
      · exact List.prefix_rfl

/-- Where the page stops, its next item is refused. -/
theorem fill_refuses {item : α} {rest : List α}
    (stops : (fill accepts page items).2 = item :: rest) :
    accepts (fill accepts page items).1 item = false := by
  induction items generalizing page with
  | nil => cases stops
  | cons head items induction =>
      rw [fill] at stops ⊢
      split at stops
      case isTrue taken =>
        rw [if_pos taken]
        exact induction stops
      case isFalse refused =>
        rw [if_neg refused]
        cases stops
        exact Bool.eq_false_iff.mpr refused

theorem select_fill (page items : List α) :
    select accepts page items =
      select accepts (fill accepts page items).1
        (fill accepts page items).2 := by
  induction items generalizing page with
  | nil => rfl
  | cons item items induction =>
      rw [fill]
      split
      case isTrue taken =>
        rw [select, if_pos taken]
        exact induction _
      case isFalse => rfl

theorem select_of_refused
    (refused : ∀ item ∈ items, accepts page item = false) :
    select accepts page items = page := by
  induction items with
  | nil => rfl
  | cons item items induction =>
      have first : accepts page item = false := refused item (by simp)
      rw [select, if_neg (by simp [first])]
      apply induction
      intro later member
      exact refused later (List.mem_cons_of_mem _ member)

theorem prefix_select (accepts : List α → α → Bool) (page items : List α) :
    page <+: select accepts page items := by
  induction items generalizing page with
  | nil => exact List.prefix_rfl
  | cons item items induction =>
      rw [select]
      split
      · exact (List.prefix_append page [item]).trans (induction _)
      · exact induction _

/-- What is taken beyond the page was accepted by it. -/
theorem select_eq_cons {taken : α} {more : List α}
    (isSelected : select accepts page items = page ++ taken :: more) :
    accepts page taken = true := by
  induction items with
  | nil =>
      have same : page = page ++ taken :: more := isSelected
      simp at same
  | cons item items induction =>
      rw [select] at isSelected
      split at isSelected
      case isTrue accepted =>
        have inside := prefix_select accepts (page ++ [item]) items
        rw [isSelected] at inside
        rw [List.prefix_append_right_inj] at inside
        obtain ⟨_, same⟩ := inside
        cases same
        exact accepted
      case isFalse => exact induction isSelected

theorem select_eq_self_iff :
    select accepts page items = page ↔
      ∀ item ∈ items, accepts page item = false := by
  constructor
  · intro same
    induction items with
    | nil => simp
    | cons item items induction =>
        rw [select] at same
        split at same
        case isTrue accepted =>
          have inside :=
            (prefix_select accepts (page ++ [item]) items).length_le
          rw [same, List.length_append, List.length_singleton] at inside
          omega
        case isFalse refused =>
          intro later member
          rcases List.mem_cons.mp member with rfl | member
          · exact Bool.eq_false_iff.mpr refused
          · exact induction same later member
  · exact select_of_refused

theorem noGap_iff_select_eq_fill :
    NoGap accepts items ↔
      select accepts [] items = (fill accepts [] items).1 := by
  rw [select_fill, select_eq_self_iff]
  rfl

/-- A page without a gap is one whose items stand next to each other. -/
theorem noGap_iff_contiguous :
    NoGap accepts items ↔ select accepts [] items <+: items := by
  constructor
  · intro noGap
    rw [noGap_iff_select_eq_fill.mp noGap]
    exact ⟨_, fill_append accepts [] items⟩
  · rintro ⟨after, isWhole⟩
    rw [noGap_iff_select_eq_fill]
    obtain ⟨more, isMore⟩ :=
      prefix_select accepts (fill accepts [] items).1
        (fill accepts [] items).2
    rw [select_fill, ← isMore]
    cases more with
    | nil => exact List.append_nil _
    | cons taken more =>
        have accepted := select_eq_cons isMore.symm
        rw [select_fill, ← isMore] at isWhole
        have whole := fill_append accepts [] items
        rw [List.nil_append] at whole
        have stops := List.append_cancel_left
          (whole.trans (isWhole.symm.trans (List.append_assoc _ _ _)))
        have refused := fill_refuses stops
        rw [accepted] at refused
        cases refused

/-- The second item is refused and the third one taken. -/
theorem not_noGap_of_passed_over {first second third : α} {rest : List α}
    (takes : accepts [] first = true) (refuses : accepts [first] second ≠ true)
    (later : accepts [first] third = true) :
    ¬NoGap accepts (first :: second :: third :: rest) := by
  intro noGap
  rw [NoGap, fill, if_pos takes, List.nil_append, fill, if_neg refuses]
    at noGap
  have passed := noGap third (by simp)
  rw [later] at passed
  cases passed

theorem drop_fill (accepts : List α → α → Bool) (items : List α) :
    items.drop (fill accepts [] items).1.length =
      (fill accepts [] items).2 := by
  have whole := fill_append accepts [] items
  rw [List.nil_append] at whole
  have dropped := congrArg (List.drop (fill accepts [] items).1.length) whole
  rw [List.drop_left] at dropped
  exact dropped.symm

/-- Of all the pages that the list begins with, the longest that fits. -/
structure LongestPrefix (fits : List α → Prop) (items page : List α) :
    Prop where
  isPrefix : page <+: items
  within : fits page
  longest : ∀ other, other <+: items → fits other →
    other.length ≤ page.length

theorem LongestPrefix.unique {fits : List α → Prop} {other : List α}
    (first : LongestPrefix fits items page)
    (second : LongestPrefix fits items other) : page = other := by
  apply List.IsPrefix.eq_of_length
  · exact List.prefix_of_prefix_length_le first.isPrefix second.isPrefix
      (second.longest page first.isPrefix first.within)
  · apply Nat.le_antisymm
    · exact second.longest page first.isPrefix first.within
    · exact first.longest other second.isPrefix second.within

theorem fits_of_shorter {fits : List α → Prop} {other : List α}
    (closed : ∀ page item, fits (page ++ [item]) → fits page)
    (isPrefix : page <+: other) (within : fits other) : fits page := by
  obtain ⟨more, rfl⟩ := isPrefix
  induction more using List.reverseRecOn with
  | nil => simpa using within
  | append_singleton more item induction =>
      apply induction
      apply closed _ item
      rw [List.append_assoc]
      exact within

theorem fill_fits {fits : List α → Prop} (within : fits page)
    (agrees : ∀ page item, accepts page item = true ↔ fits (page ++ [item])) :
    fits (fill accepts page items).1 := by
  induction items generalizing page with
  | nil => exact within
  | cons item items induction =>
      rw [fill]
      split
      case isTrue taken => exact induction ((agrees page item).mp taken)
      case isFalse => exact within

/-- A page that is filled up to the first refusal is the longest one. -/
theorem fill_longest {fits : List α → Prop} (items : List α)
    (empty : fits [])
    (closed : ∀ page item, fits (page ++ [item]) → fits page)
    (agrees : ∀ page item, accepts page item = true ↔ fits (page ++ [item])) :
    LongestPrefix fits items (fill accepts [] items).1 := by
  have whole := fill_append accepts [] items
  rw [List.nil_append] at whole
  refine ⟨⟨_, whole⟩, fill_fits empty agrees, ?_⟩
  intro other isPrefix within
  by_contra longer
  rw [Nat.not_le] at longer
  cases stops : (fill accepts [] items).2 with
  | nil =>
      have atMost := isPrefix.length_le
      rw [stops, List.append_nil] at whole
      rw [whole] at longer
      omega
  | cons next later =>
      have reaches : (fill accepts [] items).1 ++ [next] <+: other := by
        apply List.prefix_of_prefix_length_le _ isPrefix
        · rw [List.length_append, List.length_singleton]
          exact longer
        · refine ⟨later, ?_⟩
          rw [List.append_assoc, List.singleton_append, ← stops]
          exact whole
      have fitsNext := fits_of_shorter closed reaches within
      have refused := fill_refuses stops
      rw [(agrees _ next).mpr fitsNext] at refused
      cases refused

/-! ## Page after page -/

/-- The pages read one after the other; `next` is what the cursor of a page
leaves to be read, if there is one. -/
inductive Pages (accepts : List α → α → Bool)
    (next : List α → Option (List α)) : List α → List (List α) → Prop where
  | last {items : List α} : next items = none →
      Pages accepts next items [select accepts [] items]
  | more {items rest : List α} {pages : List (List α)} :
      next items = some rest → Pages accepts next rest pages →
      Pages accepts next items (select accepts [] items :: pages)

/-- Where some page begins. -/
inductive Visits (next : List α → Option (List α)) :
    List α → List α → Prop where
  | here {items : List α} : Visits next items items
  | later {items rest start : List α} : next items = some rest →
      Visits next rest start → Visits next items start

/-- Reading comes to an end when each page leaves less to be read. -/
theorem Pages.exists {next : List α → Option (List α)}
    {readable : List α → Prop}
    (progress : ∀ items rest, readable items → next items = some rest →
      readable rest ∧ rest.length < items.length)
    (size : Nat) (isReadable : readable items) (bounded : items.length ≤ size) :
    ∃ pages, Pages accepts next items pages ∧ pages.length ≤ size + 1 := by
  induction size generalizing items with
  | zero =>
      cases isNext : next items with
      | none => exact ⟨_, .last isNext, by simp⟩
      | some rest =>
          have less := (progress items rest isReadable isNext).2
          omega
  | succ size induction =>
      cases isNext : next items with
      | none => exact ⟨_, .last isNext, by simp⟩
      | some rest =>
          obtain ⟨still, less⟩ := progress items rest isReadable isNext
          obtain ⟨pages, isPages, few⟩ := induction still (by omega)
          refine ⟨_, .more isNext isPages, ?_⟩
          rw [List.length_cons]
          omega

/-- Each item fits on an empty page. -/
def Alone (accepts : List α → α → Bool) (items : List α) : Prop :=
  ∀ item ∈ items, accepts [] item = true

/-! ### From the first item refused -/

/-- The next page begins with the first item that the page has refused. -/
def fromRefused (accepts : List α → α → Bool) (items : List α) :
    Option (List α) :=
  match (fill accepts [] items).2 with
  | [] => none
  | item :: rest => some (item :: rest)

theorem fromRefused_eq {rest : List α}
    (isNext : fromRefused accepts items = some rest) :
    (fill accepts [] items).2 = rest ∧ rest ≠ [] := by
  unfold fromRefused at isNext
  split at isNext
  case h_1 => cases isNext
  case h_2 item later stops =>
    cases isNext
    exact ⟨stops, List.cons_ne_nil _ _⟩

theorem fromRefused_eq_none :
    fromRefused accepts items = none ↔ (fill accepts [] items).2 = [] := by
  unfold fromRefused
  split <;> simp_all

/-- A page that takes its first item makes progress. -/
theorem fromRefused_progress (items rest : List α)
    (alone : Alone accepts items)
    (isNext : fromRefused accepts items = some rest) :
    Alone accepts rest ∧ rest.length < items.length := by
  obtain ⟨stops, nonempty⟩ := fromRefused_eq isNext
  have whole := fill_append accepts [] items
  rw [stops, List.nil_append] at whole
  constructor
  · intro item member
    apply alone
    rw [← whole]
    exact List.mem_append_right _ member
  · cases items with
    | nil =>
        cases stops
        exact (nonempty rfl).elim
    | cons item items =>
        have taken : 0 < (fill accepts [] (item :: items)).1.length := by
          rw [fill, if_pos (alone item List.mem_cons_self)]
          exact (prefix_fill accepts ([] ++ [item])
            items).length_le
        have lengths := congrArg List.length whole
        rw [List.length_append] at lengths
        omega

theorem Pages.length_le {pages : List (List α)}
    (isPages : Pages accepts (fromRefused accepts) items pages) :
    items.length ≤ pages.flatten.length := by
  induction isPages with
  | @last items isLast =>
      have whole := fill_append accepts [] items
      rw [fromRefused_eq_none.mp isLast, List.append_nil,
        List.nil_append] at whole
      rw [List.flatten_singleton, select_fill, whole]
      exact (prefix_select accepts items _).length_le
  | @more items rest pages isNext _ induction =>
      have whole := congrArg List.length
        (fill_append accepts [] items)
      rw [(fromRefused_eq isNext).1, List.nil_append,
        List.length_append] at whole
      rw [List.flatten_cons, List.length_append, select_fill]
      have more := (prefix_select accepts
        (fill accepts [] items).1 (fill accepts [] items).2).length_le
      omega

theorem noGap_of_stops (stops : (fill accepts [] items).2 = []) :
    NoGap accepts items := by
  intro item member
  rw [stops] at member
  cases member

/-- If reading from the first item refused returns no more than there is, no
page has a gap. -/
theorem Pages.noGap {pages : List (List α)}
    (isPages : Pages accepts (fromRefused accepts) items pages)
    (atMost : pages.flatten.length ≤ items.length) :
    ∀ start, Visits (fromRefused accepts) items start →
      NoGap accepts start := by
  induction isPages with
  | @last items isLast =>
      intro start visits
      cases visits with
      | here => exact noGap_of_stops (fromRefused_eq_none.mp isLast)
      | later isNext =>
          rw [isLast] at isNext
          cases isNext
  | @more items rest pages isNext isPages induction =>
      have lengths := congrArg List.length (fill_append accepts [] items)
      rw [(fromRefused_eq isNext).1, List.nil_append,
        List.length_append] at lengths
      rw [List.flatten_cons, List.length_append] at atMost
      have more := prefix_select accepts
        (fill accepts [] items).1 (fill accepts [] items).2
      rw [← select_fill] at more
      have atLeast := isPages.length_le
      have longer := more.length_le
      intro start visits
      cases visits with
      | here =>
          rw [noGap_iff_select_eq_fill]
          apply (more.eq_of_length_le _).symm
          omega
      | later isNext' visits =>
          rw [isNext] at isNext'
          cases isNext'
          exact induction (by omega) start visits

/-- Without gaps, reading from the first item refused returns every item
once. -/
theorem Pages.flatten_eq {pages : List (List α)}
    (isPages : Pages accepts (fromRefused accepts) items pages)
    (every : ∀ start, Visits (fromRefused accepts) items start →
      NoGap accepts start) : pages.flatten = items := by
  induction isPages with
  | @last items isLast =>
      have whole := fill_append accepts [] items
      rw [fromRefused_eq_none.mp isLast, List.append_nil] at whole
      rw [List.flatten_singleton,
        noGap_iff_select_eq_fill.mp (every items .here)]
      exact whole
  | @more items rest pages isNext isPages induction =>
      have whole := fill_append accepts [] items
      rw [(fromRefused_eq isNext).1, List.nil_append] at whole
      have later := induction fun start visits =>
        every start (.later isNext visits)
      rw [List.flatten_cons,
        noGap_iff_select_eq_fill.mp (every items .here), later]
      exact whole

/-! ### Pages that stop at the first item refused -/

/-- Each page is filled up to the first item that it refuses, with which the
next page begins. -/
inductive Filled (accepts : List α → α → Bool) :
    List α → List (List α) → Prop where
  | last {items : List α} : fromRefused accepts items = none →
      Filled accepts items [(fill accepts [] items).1]
  | more {items rest : List α} {pages : List (List α)} :
      fromRefused accepts items = some rest → Filled accepts rest pages →
      Filled accepts items ((fill accepts [] items).1 :: pages)

/-- Nothing is lost between two such pages. -/
theorem Filled.flatten_eq {pages : List (List α)}
    (filled : Filled accepts items pages) : pages.flatten = items := by
  induction filled with
  | @last items isLast =>
      have whole := fill_append accepts [] items
      rw [fromRefused_eq_none.mp isLast, List.append_nil] at whole
      rw [List.flatten_singleton]
      exact whole
  | @more items rest pages isNext _ induction =>
      have whole := fill_append accepts [] items
      rw [(fromRefused_eq isNext).1, List.nil_append] at whole
      rw [List.flatten_cons, induction]
      exact whole

theorem Filled.exists (size : Nat) (alone : Alone accepts items)
    (bounded : items.length ≤ size) :
    ∃ pages, Filled accepts items pages := by
  induction size generalizing items with
  | zero =>
      have none : items = [] :=
        List.length_eq_zero_iff.mp (Nat.le_zero.mp bounded)
      rw [none]
      exact ⟨_, .last rfl⟩
  | succ size induction =>
      cases isNext : fromRefused accepts items with
      | none => exact ⟨_, .last isNext⟩
      | some rest =>
          obtain ⟨still, less⟩ := fromRefused_progress items rest alone isNext
          obtain ⟨pages, filled⟩ := induction still (by omega)
          exact ⟨_, .more isNext filled⟩

/-! ### Past the last item taken

Items have a position, and they are listed in the order of their positions.
-/

theorem select_sublist (accepts : List α → α → Bool) (page items : List α) :
    ∃ taken, select accepts page items = page ++ taken ∧
      List.Sublist taken items := by
  induction items generalizing page with
  | nil => exact ⟨[], (List.append_nil page).symm, List.Sublist.slnil⟩
  | cons item items induction =>
      rw [select]
      split
      case isTrue =>
        obtain ⟨taken, isTaken, within⟩ := induction (page ++ [item])
        refine ⟨item :: taken, ?_, within.cons_cons item⟩
        rw [isTaken, List.append_assoc]
        rfl
      case isFalse =>
        obtain ⟨taken, isTaken, within⟩ := induction page
        exact ⟨taken, isTaken, within.cons item⟩

variable {κ : Type v} [LinearOrder κ] {key : α → κ}

/-- The items past a position. -/
def past (key : α → κ) (position : κ) (items : List α) : List α :=
  items.filter fun item => decide (position < key item)

/-- The next page holds what is past the last item taken, if the page has
refused any. -/
def afterLast (accepts : List α → α → Bool) (key : α → κ) (items : List α) :
    Option (List α) :=
  if (fill accepts [] items).2 = [] then none
  else
    match (select accepts [] items).getLast? with
    | none => some items
    | some last => some (past key (key last) items)

def Ordered (key : α → κ) (items : List α) : Prop :=
  items.Pairwise fun earlier later => key earlier ≤ key later

/-- What is past the last item of the page, if there is more to be read, is
what comes after it. -/
def Separates (accepts : List α → α → Bool) (key : α → κ)
    (items : List α) : Prop :=
  (fill accepts [] items).2 ≠ [] → ∀ last ∈ (fill accepts [] items).1.getLast?,
    past key (key last) items = (fill accepts [] items).2

theorem Ordered.past (ordered : Ordered key items) (position : κ) :
    Ordered key (past key position items) :=
  ordered.sublist List.filter_sublist

/-- What is not past a position stands before what is. -/
theorem Ordered.eq_append (ordered : Ordered key items) (position : κ) :
    items = items.filter (fun item => decide (key item ≤ position)) ++
      Paging.past key position items := by
  induction items with
  | nil => rfl
  | cons item items induction =>
      obtain ⟨first, ordered⟩ := List.pairwise_cons.mp ordered
      rw [Paging.past, List.filter_cons, List.filter_cons]
      by_cases before : key item ≤ position
      · rw [if_pos (decide_eq_true before),
          if_neg (by simpa using before), List.cons_append]
        exact congrArg (item :: ·) (induction ordered)
      · have none : items.filter
            (fun item => decide (key item ≤ position)) = [] := by
          rw [List.filter_eq_nil_iff]
          intro later member isBefore
          exact before
            (le_trans (first later member) (of_decide_eq_true isBefore))
        have all := induction ordered
        rw [none, List.nil_append, Paging.past] at all
        rw [if_neg (by simpa using before),
          if_pos (by simpa using before), none, List.nil_append, ← all]

theorem Ordered.le_last {last item : α} (ordered : Ordered key items)
    (isLast : items.getLast? = some last) (member : item ∈ items) :
    key item ≤ key last := by
  obtain ⟨before, isItems⟩ := List.getLast?_eq_some_iff.mp isLast
  rw [isItems] at ordered member
  obtain ⟨-, -, across⟩ := List.pairwise_append.mp ordered
  rcases List.mem_append.mp member with member | member
  · exact across item member last (List.mem_singleton_self last)
  · rw [List.mem_singleton.mp member]

/-- What is past the last item before a place. -/
theorem Ordered.past_last {all before rest : List α} {last : α}
    (ordered : Ordered key all) (isAll : all = before ++ rest)
    (isLast : before.getLast? = some last)
    (across : ∀ later ∈ rest, key last < key later) :
    Paging.past key (key last) all = rest := by
  rw [isAll] at ordered
  have atMost : Ordered key before :=
    ordered.sublist (List.sublist_append_left before rest)
  have passed : before.filter
      (fun item => decide (key last < key item)) = [] := by
    rw [List.filter_eq_nil_iff]
    intro earlier member isPast
    exact not_le_of_gt (of_decide_eq_true isPast)
      (atMost.le_last isLast member)
  have kept : rest.filter
      (fun item => decide (key last < key item)) = rest := by
    rw [List.filter_eq_self]
    intro later member
    exact decide_eq_true (across later member)
  rw [Paging.past, isAll, List.filter_append, passed, kept, List.nil_append]

/-- What is on the page, next to what is not past it. -/
theorem select_sublist_filter {last : α} (ordered : Ordered key items)
    (isLast : (select accepts [] items).getLast? = some last) :
    List.Sublist (select accepts [] items)
      (items.filter fun item => decide (key item ≤ key last)) := by
  obtain ⟨taken, isTaken, within⟩ := select_sublist accepts [] items
  rw [List.nil_append] at isTaken
  rw [isTaken] at isLast ⊢
  have all : taken.filter (fun item => decide (key item ≤ key last)) =
      taken := by
    rw [List.filter_eq_self]
    intro item member
    apply decide_eq_true
    exact Ordered.le_last (ordered.sublist within) isLast member
  rw [← all]
  exact within.filter _

/-- No item is both on the page and past it. -/
theorem select_length_add_past {last : α} (ordered : Ordered key items)
    (isLast : (select accepts [] items).getLast? = some last) :
    (select accepts [] items).length +
      (past key (key last) items).length ≤ items.length := by
  have lengths := congrArg List.length (ordered.eq_append (key last))
  rw [List.length_append] at lengths
  have atMost := (select_sublist_filter ordered isLast).length_le
  omega

/-- If nothing is lost between a page and what is past it, the page has no gap
and what is past it comes after it. -/
theorem noGap_of_length_le {last : α} (ordered : Ordered key items)
    (isLast : (select accepts [] items).getLast? = some last)
    (enough : items.length ≤ (select accepts [] items).length +
      (past key (key last) items).length) :
    NoGap accepts items ∧ Separates accepts key items := by
  have whole := fill_append accepts [] items
  rw [List.nil_append] at whole
  have lengths := congrArg List.length (ordered.eq_append (key last))
  rw [List.length_append] at lengths
  have same := (select_sublist_filter ordered isLast).eq_of_length_le
    (by omega)
  have noGap : NoGap accepts items := by
    rw [noGap_iff_contiguous, same]
    exact ⟨_, (ordered.eq_append (key last)).symm⟩
  refine ⟨noGap, ?_⟩
  intro _ other isOther
  have isFill := noGap_iff_select_eq_fill.mp noGap
  rw [isFill] at isLast
  cases isLast.symm.trans isOther
  have parts : (fill accepts [] items).1 ++ past key (key last) items =
      (fill accepts [] items).1 ++ (fill accepts [] items).2 := by
    rw [whole, ← isFill, same]
    exact (ordered.eq_append (key last)).symm
  exact List.append_cancel_left parts

theorem select_ne_nil {item : α} {rest : List α}
    (alone : Alone accepts (item :: rest)) :
    select accepts [] (item :: rest) ≠ [] := by
  rw [select, if_pos (alone item List.mem_cons_self)]
  have more := (prefix_select accepts ([] ++ [item]) rest).length_le
  intro none
  rw [none] at more
  exact Nat.not_succ_le_zero _ more

/-- What a page leaves to be read, when each item fits on an empty page. -/
theorem afterLast_eq {rest : List α} (alone : Alone accepts items)
    (isNext : afterLast accepts key items = some rest) :
    ∃ last, (select accepts [] items).getLast? = some last ∧
      rest = past key (key last) items := by
  unfold afterLast at isNext
  split at isNext
  case isTrue => cases isNext
  case isFalse stops =>
    split at isNext
    case h_1 none =>
      rw [List.getLast?_eq_none_iff] at none
      cases items with
      | nil => exact (stops rfl).elim
      | cons item items => exact (select_ne_nil alone none).elim
    case h_2 last isLast => exact ⟨last, isLast, (Option.some.inj isNext).symm⟩

theorem afterLast_eq_none :
    afterLast accepts key items = none ↔
      (fill accepts [] items).2 = [] := by
  unfold afterLast
  constructor
  · intro isLast
    split at isLast
    · assumption
    · split at isLast <;> cases isLast
  · intro stops
    rw [if_pos stops]

theorem afterLast_progress (items rest : List α) (alone : Alone accepts items)
    (isNext : afterLast accepts key items = some rest) :
    Alone accepts rest ∧ rest.length < items.length := by
  obtain ⟨last, isLast, rfl⟩ := afterLast_eq alone isNext
  constructor
  · intro item member
    exact alone item (List.mem_filter.mp member).1
  · obtain ⟨taken, isTaken, within⟩ := select_sublist accepts [] items
    have member : last ∈ items := by
      rw [isTaken, List.nil_append] at isLast
      exact within.subset (List.mem_of_getLast? isLast)
    apply List.length_filter_lt_length_iff_exists.mpr
    exact ⟨last, member, by simp⟩

theorem Pages.length_le_afterLast {pages : List (List α)}
    (alone : Alone accepts items) (ordered : Ordered key items)
    (isPages : Pages accepts (afterLast accepts key) items pages) :
    pages.flatten.length ≤ items.length := by
  induction isPages with
  | @last items _ =>
      rw [List.flatten_singleton]
      obtain ⟨taken, isTaken, within⟩ := select_sublist accepts [] items
      rw [isTaken]
      exact within.length_le
  | @more items rest pages isNext _ induction =>
      have alone' := (afterLast_progress items rest alone isNext).1
      obtain ⟨last, isLast, rfl⟩ := afterLast_eq alone isNext
      have later := induction alone' (ordered.past _)
      have atMost := select_length_add_past ordered isLast
      rw [List.flatten_cons, List.length_append]
      omega

theorem separates_of_stops (stops : (fill accepts [] items).2 = []) :
    Separates accepts key items := by
  intro isMore
  exact (isMore stops).elim

/-- Where a page has no gap and is separated from what comes after it, what is
past its last item begins with the first item refused. -/
theorem afterLast_eq_fromRefused (alone : Alone accepts items)
    (noGap : NoGap accepts items) (separates : Separates accepts key items) :
    afterLast accepts key items = fromRefused accepts items := by
  cases isNext : afterLast accepts key items with
  | none => exact (fromRefused_eq_none.mpr (afterLast_eq_none.mp isNext)).symm
  | some rest =>
      obtain ⟨last, isLast, rfl⟩ := afterLast_eq alone isNext
      rw [noGap_iff_select_eq_fill.mp noGap] at isLast
      cases stops : (fill accepts [] items).2 with
      | nil =>
          rw [afterLast_eq_none.mpr stops] at isNext
          cases isNext
      | cons item later =>
          have isMore : (fill accepts [] items).2 ≠ [] := by simp [stops]
          rw [separates isMore last isLast]
          unfold fromRefused
          rw [stops]

/-- If reading past the last item taken returns no less than there is, no page
has a gap, and each is separated from what comes after it. -/
theorem Pages.noGap_afterLast {pages : List (List α)}
    (alone : Alone accepts items) (ordered : Ordered key items)
    (isPages : Pages accepts (afterLast accepts key) items pages)
    (atLeast : items.length ≤ pages.flatten.length) :
    ∀ start, Visits (fromRefused accepts) items start →
      NoGap accepts start ∧ Separates accepts key start := by
  induction isPages with
  | @last items isLast =>
      have stops := afterLast_eq_none.mp isLast
      intro start visits
      cases visits with
      | here =>
          exact ⟨noGap_of_stops stops, separates_of_stops stops⟩
      | later isNext =>
          rw [fromRefused_eq_none.mpr stops] at isNext
          cases isNext
  | @more items rest pages isNext isPages induction =>
      have alone' := (afterLast_progress items rest alone isNext).1
      obtain ⟨last, isLast, isRest⟩ := afterLast_eq alone isNext
      have ordered' : Ordered key rest := by
        rw [isRest]
        exact ordered.past _
      have atMost := isPages.length_le_afterLast alone' ordered'
      have within := select_length_add_past ordered isLast
      rw [List.flatten_cons, List.length_append] at atLeast
      rw [← isRest] at within
      obtain ⟨noGap, separates⟩ := noGap_of_length_le ordered isLast
        (by rw [← isRest]; omega)
      intro start visits
      cases visits with
      | here => exact ⟨noGap, separates⟩
      | later isNext' visits =>
          rw [← afterLast_eq_fromRefused alone noGap separates, isNext]
            at isNext'
          cases isNext'
          exact induction alone' ordered' (by omega) start visits

/-- Where no page has a gap and each is separated from what comes after it,
reading past the last item taken returns every item once. -/
theorem Pages.flatten_eq_afterLast {pages : List (List α)}
    (alone : Alone accepts items)
    (isPages : Pages accepts (afterLast accepts key) items pages)
    (every : ∀ start, Visits (fromRefused accepts) items start →
      NoGap accepts start ∧ Separates accepts key start) :
    pages.flatten = items := by
  induction isPages with
  | @last items isLast =>
      have whole := fill_append accepts [] items
      rw [afterLast_eq_none.mp isLast, List.append_nil] at whole
      rw [List.flatten_singleton,
        noGap_iff_select_eq_fill.mp (every items .here).1]
      exact whole
  | @more items rest pages isNext isPages induction =>
      have alone' := (afterLast_progress items rest alone isNext).1
      obtain ⟨noGap, separates⟩ := every items .here
      rw [afterLast_eq_fromRefused alone noGap separates] at isNext
      have later := induction alone' fun start visits =>
        every start (.later isNext visits)
      have whole := fill_append accepts [] items
      rw [(fromRefused_eq isNext).1, List.nil_append] at whole
      rw [List.flatten_cons, noGap_iff_select_eq_fill.mp noGap, later]
      exact whole

/-! ### Distinct positions

A cursor that holds the position of the last item of a page leaves exactly
what comes after the page, when no two items have one position.
-/

def Ascending (key : α → κ) (items : List α) : Prop :=
  items.Pairwise fun earlier later => key earlier < key later

theorem Ascending.ordered (ascending : Ascending key items) :
    Ordered key items := by
  apply ascending.imp
  intro earlier later before
  exact before.le

theorem Ascending.past_last {rest : List α} {last : α}
    (ascending : Ascending key (page ++ rest))
    (isLast : page.getLast? = some last) :
    past key (key last) (page ++ rest) = rest := by
  obtain ⟨-, -, across⟩ := List.pairwise_append.mp ascending
  exact ascending.ordered.past_last rfl isLast
    (across last (List.mem_of_getLast? isLast))

/-- What a cursor leaves, where there is one. -/
def pastCursor (key : α → κ) (position : Option κ) (items : List α) : List α :=
  match position with
  | none => items
  | some position => past key position items

theorem pastCursor_sublist (key : α → κ) (position : Option κ)
    (items : List α) : List.Sublist (pastCursor key position items) items := by
  cases position with
  | none => exact List.Sublist.refl items
  | some position => exact List.filter_sublist

theorem Ordered.pastCursor_suffix (ordered : Ordered key items)
    (position : Option κ) :
    ∃ before, items = before ++ pastCursor key position items := by
  cases position with
  | none => exact ⟨[], rfl⟩
  | some position => exact ⟨_, ordered.eq_append position⟩

/-- What holds of the first item, and of the item past each of which it holds,
holds of all items but the last. -/
theorem Ordered.dropLast_induction {all : List α} (ordered : Ordered key all)
    (holds : α → Prop)
    (tied : ∀ item ∈ all, ∀ other ∈ all, key item = key other →
      holds item → holds other)
    (first : ∀ item rest, all = item :: rest → rest ≠ [] → holds item)
    (next : ∀ item ∈ all, holds item → ∀ later rest,
      Paging.past key (key item) all = later :: rest → rest ≠ [] →
        holds later) :
    ∀ item ∈ all.dropLast, holds item := by
  have each : ∀ before item rest, all = before ++ item :: rest → rest ≠ [] →
      holds item := by
    intro before
    induction before using List.reverseRecOn with
    | nil => exact first
    | append_singleton before previous induction =>
        intro item rest isAll isMore
        rw [List.append_assoc, List.singleton_append] at isAll
        have holdsPrevious := induction previous (item :: rest) isAll
          (List.cons_ne_nil item rest)
        have isPrevious : previous ∈ all := by simp [isAll]
        have isItem : item ∈ all := by simp [isAll]
        by_cases same : key previous = key item
        · exact tied previous isPrevious item isItem same holdsPrevious
        · apply next previous isPrevious holdsPrevious item rest _ isMore
          have parts := isAll ▸ ordered
          obtain ⟨-, ofPrevious, -⟩ := List.pairwise_append.mp parts
          obtain ⟨above, ofItem⟩ := List.pairwise_cons.mp ofPrevious
          have least := (List.pairwise_cons.mp ofItem).1
          have less := lt_of_le_of_ne (above item List.mem_cons_self) same
          have isWhole : all = (before ++ [previous]) ++ item :: rest := by
            rw [isAll, List.append_assoc, List.singleton_append]
          refine ordered.past_last isWhole List.getLast?_concat ?_
          intro later member
          rcases List.mem_cons.mp member with rfl | member
          · exact less
          · exact lt_of_lt_of_le less (least later member)
  intro item member
  obtain ⟨before, after, isInit⟩ := List.append_of_mem member
  have nonempty : all ≠ [] := by
    intro none
    simp [none] at member
  apply each before item (after ++ [all.getLast nonempty])
  · rw [← List.cons_append, ← List.append_assoc, ← isInit,
      List.dropLast_concat_getLast]
  · simp

/-- The same, after a page that began somewhere in the list. -/
theorem Ascending.past_of_suffix {all before rest : List α} {last : α}
    (ascending : Ascending key all) (isAll : all = before ++ (page ++ rest))
    (isLast : page.getLast? = some last) :
    past key (key last) all = rest := by
  have isLast' : (before ++ page).getLast? = some last := by
    rw [List.getLast?_append, isLast]
    rfl
  rw [← List.append_assoc] at isAll
  subst isAll
  exact ascending.past_last isLast'

/-! ### Answers that are cut

A page that leaves something is followed by a request for what is past its
last item.
-/

section Cut

variable {accepts : List α → α → Bool} {page items first rest : List α}
  {item : α}

/-- The page ends in the item and leaves something. -/
structure CutAfter (accepts : List α → α → Bool) (items : List α) (item : α) :
    Prop where
  more : (fill accepts [] items).2 ≠ []
  last : (select accepts [] items).getLast? = some item

theorem CutAfter.mem (cut : CutAfter accepts items item) : item ∈ items := by
  obtain ⟨taken, isTaken, within⟩ := select_sublist accepts [] items
  have isLast := cut.last
  rw [isTaken, List.nil_append] at isLast
  exact within.subset (List.mem_of_getLast? isLast)

/-- The page holds everything exactly if it leaves nothing. -/
theorem select_eq_all_iff :
    select accepts [] items = items ↔ (fill accepts [] items).2 = [] := by
  have whole := fill_append accepts [] items
  constructor
  · intro all
    have contiguous : select accepts [] items <+: items :=
      ⟨[], by rw [all, List.append_nil]⟩
    have noGap := noGap_iff_contiguous.mpr contiguous
    rw [noGap_iff_select_eq_fill.mp noGap] at all
    rw [all, List.nil_append] at whole
    exact List.append_right_eq_self.mp whole
  · intro stops
    rw [noGap_iff_select_eq_fill.mp (noGap_of_stops stops)]
    rw [stops, List.append_nil] at whole
    exact whole

/-- The last item, if it is kept, stays the last. -/
theorem getLast?_of_sublist {taken : List α} (distinct : items.Nodup)
    (isLast : items.getLast? = some item) (within : taken.Sublist items)
    (member : item ∈ taken) : taken.getLast? = some item := by
  obtain ⟨init, isItems⟩ := List.getLast?_eq_some_iff.mp isLast
  rw [isItems] at distinct within
  obtain ⟨early, late, isTaken, ofInit, ofLast⟩ :=
    List.sublist_append_iff.mp within
  have notEarly : item ∉ early := by
    intro isEarly
    have apart := (List.nodup_append.mp distinct).2.2
    exact apart item (ofInit.subset isEarly) item List.mem_cons_self rfl
  rw [isTaken] at member ⊢
  have isLate := (List.mem_append.mp member).resolve_left notEarly
  cases ofLast with
  | cons _ none =>
      rw [List.sublist_nil.mp none] at isLate
      cases isLate
  | cons_cons _ none =>
      rw [List.sublist_nil.mp none]
      exact List.getLast?_concat

theorem select_append_of_refused
    (refused : ∀ item ∈ first, accepts page item = false) :
    select accepts page (first ++ rest) = select accepts page rest := by
  induction first with
  | nil => rfl
  | cons item first induction =>
      have isRefused := refused item List.mem_cons_self
      rw [List.cons_append, select, if_neg (by simp [isRefused])]
      apply induction
      intro later member
      exact refused later (List.mem_cons_of_mem _ member)

/-- What a page passes over at its beginning does not change its end. -/
theorem CutAfter.append (cut : CutAfter accepts rest item)
    (refused : ∀ item ∈ first, accepts [] item = false) :
    CutAfter accepts (first ++ rest) item := by
  constructor
  · cases first with
    | nil => exact cut.more
    | cons passed first =>
        have isRefused := refused passed List.mem_cons_self
        rw [List.cons_append, fill, if_neg (by simp [isRefused])]
        exact List.cons_ne_nil _ _
  · rw [select_append_of_refused refused]
    exact cut.last

/-- What a page holds, some page has accepted. -/
theorem accepted_of_mem_select (member : item ∈ select accepts page items) :
    item ∈ page ∨ ∃ before, accepts before item = true := by
  induction items generalizing page with
  | nil => exact .inl member
  | cons next items induction =>
      rw [select] at member
      split at member
      case isTrue accepted =>
        rcases induction member with onPage | later
        · rcases List.mem_append.mp onPage with onPage | isNext
          · exact .inl onPage
          · rw [List.mem_singleton.mp isNext]
            exact .inr ⟨page, accepted⟩
        · exact .inr later
      case isFalse => exact induction member

theorem CutAfter.accepted (cut : CutAfter accepts items item) :
    ∃ before, accepts before item = true := by
  have member := List.mem_of_getLast? cut.last
  rcases accepted_of_mem_select member with onPage | accepted
  · cases onPage
  · exact accepted

end Cut

/-! ### Pages of any size -/

/-- Pages of different sizes: one of size one holds nothing but its item, and
what some page has room for fits on that one. -/
structure Sized (room : Nat → List α → α → Bool) : Prop where
  one : ∀ page item, room 1 page item = true → page = []
  alone : ∀ limit page item, room limit page item = true →
    room 1 [] item = true

section Sizes

variable {room : Nat → List α → α → Bool} {items : List α} {item : α}

/-- A page of size one ends in the first item that fits. -/
theorem Sized.cut_one (sized : Sized room) (ordered : Ordered key items)
    (member : item ∈ items) (fits : room 1 [] item = true)
    (long : 2 ≤ items.length) :
    ∃ found, CutAfter (room 1) items found ∧ key found ≤ key item := by
  obtain ⟨before, found, after, isItems, refused, isFound, position⟩ :
      ∃ before found after, items = before ++ found :: after ∧
        (∀ item ∈ before, room 1 [] item = false) ∧
        room 1 [] found = true ∧ item ∈ found :: after := by
    clear long ordered
    induction items with
    | nil => cases member
    | cons first items induction =>
        by_cases takes : room 1 [] first = true
        · exact ⟨[], first, items, rfl, by simp, takes, member⟩
        · have isLater : item ∈ items := by
            rcases List.mem_cons.mp member with rfl | later
            · exact absurd fits takes
            · exact later
          obtain ⟨before, found, after, rfl, refused, isFound, position⟩ :=
            induction isLater
          refine ⟨first :: before, found, after, rfl, ?_, isFound, position⟩
          intro other isOther
          rcases List.mem_cons.mp isOther with rfl | isOther
          · exact Bool.eq_false_iff.mpr takes
          · exact refused other isOther
  have full : ∀ later ∈ after, room 1 [found] later = false := by
    intro later _
    by_contra takes
    have none := sized.one [found] later (by simpa using takes)
    cases none
  subst isItems
  refine ⟨found, ?_, ?_⟩
  case refine_2 =>
    have within := (List.pairwise_append.mp ordered).2.1
    rcases List.mem_cons.mp position with rfl | isAfter
    · exact le_refl _
    · exact (List.pairwise_cons.mp within).1 item isAfter
  have taken : select (room 1) [] (before ++ found :: after) = [found] := by
    rw [select_append_of_refused refused, select, if_pos isFound]
    exact select_of_refused full
  constructor
  · intro stops
    have whole := noGap_iff_select_eq_fill.mp (noGap_of_stops stops)
    have all := fill_append (room 1) [] (before ++ found :: after)
    rw [stops, ← whole, taken, List.append_nil, List.nil_append] at all
    rw [← all] at long
    simp at long
  · rw [taken]
    rfl

/-- The items before a place, split at the position of the last of them. -/
theorem Ordered.split_last {all before init rest : List α} {last : α}
    (ordered : Ordered key all) (isAll : all = before ++ rest)
    (isBefore : before = init ++ [last]) :
    ∃ low group, before = low ++ group ∧
      (∀ item ∈ low, key item < key last) ∧
      ∀ item ∈ group, key item = key last := by
  rw [isAll] at ordered
  have atMost : Ordered key before :=
    ordered.sublist (List.sublist_append_left before rest)
  have isLast : before.getLast? = some last := by
    rw [isBefore, List.getLast?_concat]
  refine ⟨before.takeWhile fun item => decide (key item < key last),
    before.dropWhile fun item => decide (key item < key last),
    (List.takeWhile_append_dropWhile).symm, ?_, ?_⟩
  · intro item member
    have below := List.mem_takeWhile_imp member
    exact of_decide_eq_true below
  · intro item member
    apply le_antisymm
    · exact atMost.le_last isLast ((List.dropWhile_sublist _).subset member)
    · have isOrdered : Ordered key
          (before.dropWhile fun item => decide (key item < key last)) :=
        atMost.sublist (List.dropWhile_sublist _)
      cases isDropped : before.dropWhile
          (fun item => decide (key item < key last)) with
      | nil =>
          rw [isDropped] at member
          cases member
      | cons head tail =>
          have stops : ¬ key head < key last := by
            have refused := List.head?_dropWhile_not
              (fun item => decide (key item < key last)) before
            rw [isDropped] at refused
            simpa using refused
          rw [isDropped] at member isOrdered
          rcases List.mem_cons.mp member with rfl | later
          · exact not_lt.mp stops
          · exact (not_lt.mp stops).trans
              ((List.pairwise_cons.mp isOrdered).1 item later)

variable {all : List α} {permitted : Nat → Prop} {holds : κ → Prop}

/-- If the answers that requests with held positions are given end in held
positions, so do all answers that are cut, wherever they begin. -/
theorem Ordered.cutAfter_induction (ordered : Ordered key all)
    (sized : Sized room) (one : permitted 1)
    (start : ∀ limit item, permitted limit →
      CutAfter (room limit) all item → holds (key item))
    (next : ∀ before ∈ all, holds (key before) → ∀ limit item,
      permitted limit →
      CutAfter (room limit) (Paging.past key (key before) all) item →
      holds (key item))
    (position : Option κ) {limit : Nat} {item : α} (allowed : permitted limit)
    (cut : CutAfter (room limit) (pastCursor key position all) item) :
    holds (key item) := by
  have each : ∀ (size : Nat) (before rest : List α), before.length = size →
      all = before ++ rest →
      (∀ earlier ∈ before, ∀ later ∈ rest, key earlier < key later) →
      ∀ limit item, permitted limit → CutAfter (room limit) rest item →
      holds (key item) := by
    intro size
    induction size using Nat.strong_induction_on with
    | _ size induction =>
        intro before rest isSize isAll across limit item allowed cut
        rcases List.eq_nil_or_concat before with none | ⟨init, last, isBefore⟩
        · subst none
          rw [List.nil_append] at isAll
          exact start limit item allowed (isAll ▸ cut)
        · rw [List.concat_eq_append] at isBefore
          obtain ⟨low, group, isSplit, below, same⟩ :=
            ordered.split_last isAll isBefore
          have isLast : last ∈ all := by simp [isAll, isBefore]
          have nonempty : rest ≠ [] := by
            rintro rfl
            cases cut.mem
          have inGroup : last ∈ group := by
            have isIn : last ∈ low ++ group := by simp [← isSplit, isBefore]
            rcases List.mem_append.mp isIn with isLow | isIn
            · exact absurd (below last isLow) (lt_irrefl _)
            · exact isIn
          have shorter : low.length < size := by
            have some := List.length_pos_of_mem inGroup
            rw [← isSize, isSplit, List.length_append]
            omega
          have earlier := induction low.length shorter low (group ++ rest) rfl
            (by rw [isAll, isSplit, List.append_assoc]) (by
              intro earlier isLow later isLater
              refine lt_of_lt_of_le (below earlier isLow) ?_
              rcases List.mem_append.mp isLater with isLater | isLater
              · exact (same later isLater).ge
              · exact (across last (by simp [isBefore]) later isLater).le)
          by_cases lone : ∃ other ∈ group, room 1 [] other = true
          · -- An answer of size one ends at the position of the last item.
            obtain ⟨other, isOther, fits⟩ := lone
            have long : 2 ≤ (group ++ rest).length := by
              have some := List.length_pos_of_mem inGroup
              have more := List.length_pos_iff.mpr nonempty
              rw [List.length_append]
              omega
            have within : Ordered key (group ++ rest) := by
              rw [isAll, isSplit, List.append_assoc] at ordered
              exact ordered.sublist (List.sublist_append_right low _)
            obtain ⟨found, cutFirst, atMost⟩ := sized.cut_one within
              (List.mem_append_left rest isOther) fits long
            have atLast : key found = key last := by
              rcases List.mem_append.mp cutFirst.mem with isFound | isFound
              · exact same found isFound
              · have isPast := across last (by simp [isBefore]) found isFound
                exact absurd (atMost.trans_eq (same other isOther))
                  (not_le_of_gt isPast)
            have holdsLast := atLast ▸ earlier 1 found one cutFirst
            refine next last isLast holdsLast limit item allowed ?_
            rw [ordered.past_last isAll (by rw [isBefore, List.getLast?_concat])
              (across last (by simp [isBefore]))]
            exact cut
          · refine earlier limit item allowed (cut.append ?_)
            intro other isOther
            by_contra takes
            exact lone ⟨other, isOther,
              sized.alone limit [] other (by simpa using takes)⟩
  cases position with
  | none => exact start limit item allowed cut
  | some position =>
      refine each _ _ _ rfl (ordered.eq_append position) ?_ limit item allowed
        cut
      intro earlier isEarlier later isLater
      have atMost := of_decide_eq_true (List.mem_filter.mp isEarlier).2
      have isPast := of_decide_eq_true (List.mem_filter.mp isLater).2
      exact lt_of_le_of_lt atMost isPast

/-- An item that fits, and that others come after, is the position that some
answer ends in. -/
theorem Ordered.cut_at (ordered : Ordered key all) (sized : Sized room)
    (member : item ∈ all.dropLast) (fits : room 1 [] item = true) :
    ∃ position found, CutAfter (room 1) (pastCursor key position all) found ∧
      key found = key item ∧
      ∀ place ∈ position, ∃ before ∈ all, key before = place := by
  obtain ⟨before, rest, isInit⟩ := List.append_of_mem member
  have nonempty : all ≠ [] := by
    intro none
    simp [none] at member
  generalize isAfter : rest ++ [all.getLast nonempty] = after
  have isMore : 0 < after.length := by simp [← isAfter]
  have isAll : all = (before ++ [item]) ++ after := by
    rw [← isAfter, List.append_assoc, List.singleton_append, ← List.cons_append,
      ← List.append_assoc, ← isInit, List.dropLast_concat_getLast]
  obtain ⟨low, group, isSplit, below, same⟩ := ordered.split_last isAll rfl
  have inGroup : item ∈ group := by
    have isIn : item ∈ low ++ group := by simp [← isSplit]
    rcases List.mem_append.mp isIn with isLow | isIn
    · exact absurd (below item isLow) (lt_irrefl _)
    · exact isIn
  rw [isSplit, List.append_assoc] at isAll
  have within : Ordered key (group ++ after) := by
    rw [isAll] at ordered
    exact ordered.sublist (List.sublist_append_right low _)
  have atLeast : ∀ later ∈ group ++ after, key item ≤ key later := by
    intro later isLater
    rcases List.mem_append.mp isLater with isLater | isLater
    · exact (same later isLater).ge
    · exact (List.pairwise_append.mp within).2.2 item inGroup later isLater
  obtain ⟨found, cut, atMost⟩ := sized.cut_one within
    (List.mem_append_left after inGroup) fits (by
      have some := List.length_pos_of_mem inGroup
      rw [List.length_append]
      omega)
  have isFound := le_antisymm atMost (atLeast found cut.mem)
  rcases List.eq_nil_or_concat low with nothing | ⟨init, last, isLow⟩
  · rw [nothing, List.nil_append] at isAll
    refine ⟨none, found, ?_, isFound, by rintro _ ⟨⟩⟩
    exact isAll ▸ cut
  · rw [List.concat_eq_append] at isLow
    have isPast := ordered.past_last isAll
      (by rw [isLow, List.getLast?_concat]) (fun later isLater =>
        lt_of_lt_of_le (below last (by simp [isLow])) (atLeast later isLater))
    refine ⟨some (key last), found, ?_, isFound, ?_⟩
    · rw [pastCursor, isPast]
      exact cut
    · rintro _ ⟨⟩
      exact ⟨last, by simp [isAll, isLow], rfl⟩

end Sizes

end Foundation.Paging
