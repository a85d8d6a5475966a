import Electrosphere.Foundation.BigEndian
import Mathlib.Data.List.Infix

/-!
# Items taken off a stream

A framing finds the first item of a stream as soon as the whole of it has come
in.  Which items it finds does not depend on where the stream is cut.
-/

namespace Foundation

structure Framing (β α : Type) where
  next : List β → Option (α × List β)
  shorter : ∀ {stream rest : List β} {item : α},
    next stream = some (item, rest) → rest.length < stream.length
  stable : ∀ {stream rest : List β} {item : α} (more : List β),
    next stream = some (item, rest) →
      next (stream ++ more) = some (item, rest ++ more)

namespace Framing

variable {β α : Type} (framing : Framing β α)

/-- At most so many items, and what remains of the stream. -/
def takeUpTo : Nat → List β → List α × List β
  | 0, stream => ([], stream)
  | count + 1, stream =>
      match framing.next stream with
      | none => ([], stream)
      | some (item, rest) =>
          (item :: (takeUpTo count rest).1, (takeUpTo count rest).2)

def items (stream : List β) : List α :=
  (framing.takeUpTo stream.length stream).1

def remainder (stream : List β) : List β :=
  (framing.takeUpTo stream.length stream).2

variable {framing} {stream rest more : List β} {item : α}

/-- Induction along the items of a stream. -/
theorem induction {motive : List β → Prop}
    (stopped : ∀ stream, framing.next stream = none → motive stream)
    (took : ∀ stream item rest, framing.next stream = some (item, rest) →
      motive rest → motive stream) (stream : List β) : motive stream := by
  induction size : stream.length using Nat.strongRecOn generalizing stream with
  | ind size induction =>
      cases result : framing.next stream with
      | none => exact stopped stream result
      | some taken =>
          apply took stream taken.1 taken.2 result
          apply induction taken.2.length _ taken.2 rfl
          rw [← size]
          exact framing.shorter result

theorem takeUpTo_of_none (stopped : framing.next stream = none) (count : Nat) :
    framing.takeUpTo count stream = ([], stream) := by
  cases count with
  | zero => rfl
  | succ count => simp only [takeUpTo, stopped]

theorem takeUpTo_of_some (taken : framing.next stream = some (item, rest))
    (count : Nat) :
    framing.takeUpTo (count + 1) stream =
      (item :: (framing.takeUpTo count rest).1,
        (framing.takeUpTo count rest).2) := by
  simp only [takeUpTo, taken]

theorem takeUpTo_of_enough {count : Nat} (enough : stream.length ≤ count) :
    framing.takeUpTo count stream =
      framing.takeUpTo stream.length stream := by
  induction stream using framing.induction generalizing count with
  | stopped stream stopped =>
      rw [takeUpTo_of_none stopped, takeUpTo_of_none stopped]
  | took stream item rest taken induction =>
      have shorter := framing.shorter taken
      cases count with
      | zero => omega
      | succ count =>
          obtain ⟨before, isBefore⟩ : ∃ before, stream.length = before + 1 :=
            ⟨stream.length - 1, by omega⟩
          rw [isBefore, takeUpTo_of_some taken, takeUpTo_of_some taken,
            induction (by omega), @induction before (by omega)]

theorem items_of_none (stopped : framing.next stream = none) :
    framing.items stream = [] := by
  rw [items, takeUpTo_of_none stopped]

theorem remainder_of_none (stopped : framing.next stream = none) :
    framing.remainder stream = stream := by
  rw [remainder, takeUpTo_of_none stopped]

theorem takeUpTo_length_of_some
    (taken : framing.next stream = some (item, rest)) :
    framing.takeUpTo stream.length stream =
      (item :: framing.items rest, framing.remainder rest) := by
  have shorter := framing.shorter taken
  obtain ⟨before, isBefore⟩ : ∃ before, stream.length = before + 1 :=
    ⟨stream.length - 1, by omega⟩
  rw [isBefore, takeUpTo_of_some taken, takeUpTo_of_enough (by omega)]
  rfl

theorem items_of_some (taken : framing.next stream = some (item, rest)) :
    framing.items stream = item :: framing.items rest := by
  rw [items, takeUpTo_length_of_some taken]

theorem remainder_of_some (taken : framing.next stream = some (item, rest)) :
    framing.remainder stream = framing.remainder rest := by
  rw [remainder, takeUpTo_length_of_some taken]

theorem next_nil : framing.next [] = none := by
  cases result : framing.next [] with
  | none => rfl
  | some taken => exact absurd (framing.shorter result) (Nat.not_lt_zero _)

theorem items_nil : framing.items [] = [] := items_of_none next_nil

theorem remainder_nil : framing.remainder [] = [] := remainder_of_none next_nil

/-- Nothing is left to take off what remains. -/
theorem next_remainder (framing : Framing β α) (stream : List β) :
    framing.next (framing.remainder stream) = none := by
  induction stream using framing.induction with
  | stopped stream stopped =>
      rw [remainder_of_none stopped]
      exact stopped
  | took stream item rest taken induction =>
      rw [remainder_of_some taken]
      exact induction

/-! ## Cuts -/

/-- A stream may be cut anywhere: the items of the front come first, and what
remains of the front is read together with the rest. -/
theorem items_append (framing : Framing β α) (stream more : List β) :
    framing.items (stream ++ more) =
      framing.items stream ++ framing.items (framing.remainder stream ++ more) := by
  induction stream using framing.induction with
  | stopped stream stopped =>
      rw [items_of_none stopped, remainder_of_none stopped, List.nil_append]
  | took stream item rest taken induction =>
      rw [items_of_some (framing.stable more taken), items_of_some taken,
        remainder_of_some taken, induction, List.cons_append]

theorem remainder_append (framing : Framing β α) (stream more : List β) :
    framing.remainder (stream ++ more) =
      framing.remainder (framing.remainder stream ++ more) := by
  induction stream using framing.induction with
  | stopped stream stopped => rw [remainder_of_none stopped]
  | took stream item rest taken induction =>
      rw [remainder_of_some (framing.stable more taken),
        remainder_of_some taken, induction]

theorem items_mono (isPrefix : stream <+: more) :
    framing.items stream <+: framing.items more := by
  obtain ⟨later, rfl⟩ := isPrefix
  rw [items_append]
  exact List.prefix_append _ _

/-! ## Encoded items -/

section Encoded

variable {encode : α → List β} {written : List α}

theorem items_flatMap_append
    (reads : ∀ item ∈ written, ∀ rest,
      framing.next (encode item ++ rest) = some (item, rest))
    (more : List β) :
    framing.items (written.flatMap encode ++ more) =
      written ++ framing.items more := by
  induction written with
  | nil => rfl
  | cons item written induction =>
      rw [List.flatMap_cons, List.append_assoc,
        items_of_some (reads item List.mem_cons_self _),
        induction fun other member =>
          reads other (List.mem_cons_of_mem _ member),
        List.cons_append]

/-- Of what was written, a part that has come in yields the first items. -/
theorem items_prefix_of_written
    (reads : ∀ item ∈ written, ∀ rest,
      framing.next (encode item ++ rest) = some (item, rest))
    (isPrefix : stream <+: written.flatMap encode) :
    framing.items stream <+: written := by
  have whole := items_flatMap_append reads []
  rw [List.append_nil, items_nil, List.append_nil] at whole
  rw [← whole]
  exact items_mono isPrefix

end Encoded

/-! ## Headers of a fixed width -/

section Headed

variable {width : Nat} {size : List UInt8 → Nat}
  {header body stream rest : List UInt8}

/-- A header of a fixed width tells the length of the body behind it. -/
def nextHeaded (width : Nat) (size : List UInt8 → Nat) (stream : List UInt8) :
    Option ((List UInt8 × List UInt8) × List UInt8) :=
  (takeBytes width stream).bind fun (header, rest) =>
    (takeBytes (size header) rest).map fun (body, rest) => ((header, body), rest)

theorem nextHeaded_eq_some_iff :
    nextHeaded width size stream = some ((header, body), rest) ↔
      stream = header ++ body ++ rest ∧ header.length = width ∧
        body.length = size header := by
  constructor
  · intro taken
    obtain ⟨⟨front, behind⟩, isHeader, isBody⟩ :=
      Option.bind_eq_some_iff.mp taken
    obtain ⟨⟨middle, back⟩, isRest, same⟩ := Option.map_eq_some_iff.mp isBody
    cases same
    obtain ⟨rfl, long⟩ := takeBytes_eq_some_iff.mp isHeader
    obtain ⟨rfl, isSize⟩ := takeBytes_eq_some_iff.mp isRest
    exact ⟨(List.append_assoc _ _ _).symm, long, isSize⟩
  · rintro ⟨rfl, long, isSize⟩
    apply Option.bind_eq_some_iff.mpr
    refine ⟨(header, body ++ rest), ?_, ?_⟩
    · rw [takeBytes_eq_some_iff]
      exact ⟨List.append_assoc _ _ _, long⟩
    · apply Option.map_eq_some_iff.mpr
      exact ⟨(body, rest), takeBytes_eq_some_iff.mpr ⟨rfl, isSize⟩, rfl⟩

def headed (width : Nat) (positive : 0 < width) (size : List UInt8 → Nat) :
    Framing UInt8 (List UInt8 × List UInt8) where
  next := nextHeaded width size
  shorter taken := by
    obtain ⟨rfl, long, -⟩ := nextHeaded_eq_some_iff.mp taken
    simp only [List.length_append]
    omega
  stable more taken := by
    obtain ⟨rfl, long, isSize⟩ := nextHeaded_eq_some_iff.mp taken
    apply nextHeaded_eq_some_iff.mpr
    exact ⟨List.append_assoc _ _ _, long, isSize⟩

variable {positive : 0 < width}

theorem next_headed_eq_some_iff :
    (headed width positive size).next stream = some ((header, body), rest) ↔
      stream = header ++ body ++ rest ∧ header.length = width ∧
        body.length = size header :=
  nextHeaded_eq_some_iff

theorem next_headed_eq_none_iff :
    (headed width positive size).next stream = none ↔
      stream.length < width ∨
        stream.length < width + size (stream.take width) := by
  constructor
  · intro stopped
    by_contra enough
    rw [not_or] at enough
    have isSome : (headed width positive size).next stream =
        some ((stream.take width,
          (stream.drop width).take (size (stream.take width))),
          (stream.drop width).drop (size (stream.take width))) := by
      apply next_headed_eq_some_iff.mpr
      constructor
      · rw [List.append_assoc, List.take_append_drop, List.take_append_drop]
      · constructor
        · rw [List.length_take_of_le (by omega)]
        · rw [List.length_take_of_le]
          rw [List.length_drop]
          omega
    rw [stopped] at isSome
    cases isSome
  · intro short
    cases result : (headed width positive size).next stream with
    | none => rfl
    | some taken =>
        obtain ⟨rfl, long, isSize⟩ := next_headed_eq_some_iff.mp
          (show _ = some ((taken.1.1, taken.1.2), taken.2) from result)
        rw [← long, List.append_assoc, List.take_left] at short
        simp only [List.length_append] at short
        omega

end Headed

/-! ## Items that end with a mark -/

section Terminated

variable [DecidableEq β]

/-- What stands before the first occurrence of the mark, and what is behind
it. -/
def cut (mark : List β) : List β → Option (List β × List β)
  | [] => none
  | first :: rest =>
      if mark <+: first :: rest then
        some ([], (first :: rest).drop mark.length)
      else (cut mark rest).map fun (front, behind) => (first :: front, behind)

variable {mark front behind : List β}

theorem eq_of_cut (found : cut mark stream = some (front, behind)) :
    stream = front ++ mark ++ behind := by
  induction stream generalizing front with
  | nil => cases found
  | cons first rest induction =>
      rw [cut] at found
      split at found
      case isTrue isPrefix =>
        cases found
        exact (List.prefix_iff_eq_append.mp isPrefix).symm
      case isFalse =>
        obtain ⟨⟨before, later⟩, isLater, same⟩ :=
          Option.map_eq_some_iff.mp found
        cases same
        rw [induction isLater]
        rfl

theorem cut_append (found : cut mark stream = some (front, behind))
    (more : List β) :
    cut mark (stream ++ more) = some (front, behind ++ more) := by
  induction stream generalizing front with
  | nil => cases found
  | cons first rest induction =>
      rw [cut] at found
      rw [List.cons_append, cut]
      split at found
      case isTrue isPrefix =>
        cases found
        have longer : mark <+: first :: (rest ++ more) :=
          isPrefix.trans (List.prefix_append (first :: rest) more)
        rw [if_pos longer, ← List.cons_append,
          List.drop_append_of_le_length isPrefix.length_le]
      case isFalse away =>
        obtain ⟨⟨before, later⟩, isLater, same⟩ :=
          Option.map_eq_some_iff.mp found
        cases same
        -- The mark is whole in the front, so it does not begin earlier.
        have long : mark.length ≤ (first :: rest).length := by
          rw [eq_of_cut isLater, List.length_cons, List.length_append,
            List.length_append]
          omega
        rw [if_neg, induction isLater, Option.map_some]
        intro isPrefix
        apply away
        exact List.prefix_of_prefix_length_le isPrefix
          (List.prefix_append (first :: rest) more) long

end Terminated

end Framing

end Foundation
