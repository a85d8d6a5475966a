import Electrosphere.Foundation.Utf8

/-!
# Splitting text and bytes alike

A character of one byte stands in a decoded text where its byte stands in the
bytes, and ill-formed parts never yield one.  So a text can be split at such a
character before or after it is decoded or encoded.
-/

namespace Foundation.Utf8

/-! ## Single-byte characters -/

/-- Beyond the characters of one byte. -/
def Wide (letter : Char) : Prop := 0x80 ≤ letter.toNat

theorem toNat_ofNat_of_valid {value : Nat} (valid : value.isValidChar) :
    (Char.ofNat value).toNat = value := by
  rw [Char.ofNat, dif_pos valid]
  rfl

theorem wide_replacement : Wide replacement := by
  rw [Wide, replacement, toNat_ofNat_of_valid (by decide)]
  decide

namespace Decoder

/-- Whatever comes next, a decoder inside a character can only yield a wide
one. -/
def Inside (decoder : Decoder) : Prop :=
  decoder.owed = 1 ∧ decoder.low = 0x80 ∧ decoder.high = 0xBF ∧
      2 ≤ decoder.value ∧ decoder.value < 0x4400 ∧
      (decoder.value < 0x360 ∨ 0x37F < decoder.value) ∨
    decoder.owed = 2 ∧ 0x80 ≤ decoder.low ∧ decoder.high ≤ 0xBF ∧
      2 ≤ decoder.value * 64 + (decoder.low - 0x80) ∧
      decoder.value * 64 + (decoder.high - 0x80) < 0x4400 ∧
      (decoder.value * 64 + (decoder.high - 0x80) < 0x360 ∨
        0x37F < decoder.value * 64 + (decoder.low - 0x80)) ∨
    decoder.owed = 3 ∧ 0x80 ≤ decoder.low ∧ decoder.high ≤ 0xBF ∧
      0x10 ≤ decoder.value * 64 + (decoder.low - 0x80) ∧
      decoder.value * 64 + (decoder.high - 0x80) < 0x110

/-- Between two characters, or inside one. -/
def Sound (decoder : Decoder) : Prop := decoder = {} ∨ decoder.Inside

variable {decoder : Decoder} {byte : Nat}

theorem Inside.owed (inside : decoder.Inside) : decoder.owed ≠ 0 := by
  unfold Inside at inside
  omega

theorem Inside.low (inside : decoder.Inside) : 0x80 ≤ decoder.low := by
  unfold Inside at inside
  omega

/-- A byte of its own never takes part in another character. -/
theorem push_single (sound : decoder.Sound) (single : byte ≤ 0x7F) :
    decoder.push byte = (decoder.finish ++ [Char.ofNat byte], {}) := by
  cases sound with
  | inl start =>
      subst start
      rw [push_start, lead_one single]
      rfl
  | inr inside =>
      have low := inside.low
      rw [push, if_neg inside.owed, if_neg (by omega), lead_one single, finish,
        if_neg inside.owed]
      rfl

theorem lead_wide (high : 0x80 ≤ byte) :
    (∀ letter ∈ (lead byte).1, Wide letter) ∧ (lead byte).2.Sound ∧
      ((lead byte).1 ≠ [] ∨ (lead byte).2.Inside) := by
  unfold lead
  rw [if_neg (by omega)]
  split
  · refine ⟨by simp, .inr ?_, .inr ?_⟩ <;>
    · left
      dsimp only
      omega
  split
  · refine ⟨by simp, .inr ?_, .inr ?_⟩ <;>
    · right; left
      dsimp only
      split <;> split <;> omega
  split
  · refine ⟨by simp, .inr ?_, .inr ?_⟩ <;>
    · right; right
      dsimp only
      split <;> split <;> omega
  · refine ⟨?_, .inl rfl, .inl (by simp)⟩
    intro letter member
    rw [List.mem_singleton.mp member]
    exact wide_replacement

theorem wide_ofNat {value : Nat} (low : 2 ≤ value) (high : value < 0x4400)
    (noSurrogate : value < 0x360 ∨ 0x37F < value) {last : Nat}
    (small : last < 64) : Wide (Char.ofNat (value * 64 + last)) := by
  have valid : (value * 64 + last).isValidChar := by
    unfold Nat.isValidChar
    omega
  rw [Wide, toNat_ofNat_of_valid valid]
  omega

/-- Other bytes yield wide characters, at once or later. -/
theorem push_wide (sound : decoder.Sound) (high : 0x80 ≤ byte) :
    (∀ letter ∈ (decoder.push byte).1, Wide letter) ∧
      (decoder.push byte).2.Sound ∧
      ((decoder.push byte).1 ≠ [] ∨ (decoder.push byte).2.Inside) := by
  cases sound with
  | inl start =>
      subst start
      exact lead_wide high
  | inr inside =>
      unfold push
      rw [if_neg inside.owed]
      split
      case isFalse outside =>
        obtain ⟨wide, sound, -⟩ := lead_wide high
        refine ⟨?_, sound, .inl (List.cons_ne_nil _ _)⟩
        exact List.forall_mem_cons.mpr ⟨wide_replacement, wide⟩
      case isTrue within =>
        unfold Inside at inside
        dsimp only
        split
        case isTrue last =>
          refine ⟨?_, .inl rfl, .inl (List.cons_ne_nil _ _)⟩
          intro letter member
          rw [List.mem_singleton.mp member]
          apply wide_ofNat <;> omega
        case isFalse more =>
          have next : Inside { value := decoder.value * 64 + (byte - 0x80)
                               owed := decoder.owed - 1 } := by
            unfold Inside
            dsimp only
            omega
          exact ⟨by simp, .inr next, .inr next⟩

theorem run_sound (sound : decoder.Sound) (bytes : List UInt8) :
    (decoder.run bytes).2.Sound := by
  induction bytes generalizing decoder with
  | nil => exact sound
  | cons byte bytes induction =>
      have next : (decoder.push byte.toNat).2.Sound := by
        by_cases single : byte.toNat ≤ 0x7F
        · rw [push_single sound single]
          exact .inl rfl
        · exact (push_wide sound (by omega)).2.1
      exact induction next

/-- A decoder inside a character yields a wide one next. -/
theorem Inside.head_wide (inside : decoder.Inside) (bytes : List UInt8) :
    ∃ letter rest, (decoder.run bytes).1 ++ (decoder.run bytes).2.finish =
      letter :: rest ∧ Wide letter := by
  induction bytes generalizing decoder with
  | nil =>
      refine ⟨replacement, [], ?_, wide_replacement⟩
      rw [run, finish, if_neg inside.owed]
      rfl
  | cons byte bytes induction =>
      have step : decoder.run (byte :: bytes) =
          ((decoder.push byte.toNat).1 ++
            ((decoder.push byte.toNat).2.run bytes).1,
            ((decoder.push byte.toNat).2.run bytes).2) := rfl
      rw [step]
      by_cases single : byte.toNat ≤ 0x7F
      · rw [push_single (.inr inside) single, finish, if_neg inside.owed]
        exact ⟨replacement, _, rfl, wide_replacement⟩
      · obtain ⟨wide, -, now | later⟩ := push_wide (.inr inside)
          (show 0x80 ≤ byte.toNat by omega)
        · obtain ⟨letter, rest, isLetter⟩ := List.exists_cons_of_ne_nil now
          rw [isLetter] at wide ⊢
          exact ⟨letter, _, rfl, wide letter List.mem_cons_self⟩
        · by_cases now : (decoder.push byte.toNat).1 = []
          · rw [now]
            exact induction later
          · obtain ⟨letter, rest, isLetter⟩ := List.exists_cons_of_ne_nil now
            rw [isLetter] at wide ⊢
            exact ⟨letter, _, rfl, wide letter List.mem_cons_self⟩

/-- Narrow letters come from bytes of their own. -/
theorem mem_run (sound : decoder.Sound) {bytes : List UInt8} {letter : Char}
    (member : letter ∈ (decoder.run bytes).1) (narrow : ¬ Wide letter) :
    ∃ byte ∈ bytes, byte.toNat = letter.toNat := by
  induction bytes generalizing decoder with
  | nil => cases member
  | cons byte bytes induction =>
      have step : (decoder.run (byte :: bytes)).1 =
          (decoder.push byte.toNat).1 ++
            ((decoder.push byte.toNat).2.run bytes).1 := rfl
      rw [step, List.mem_append] at member
      by_cases single : byte.toNat ≤ 0x7F
      · rw [push_single sound single, List.mem_append, or_assoc] at member
        rcases member with pending | own | later
        · rw [finish] at pending
          split at pending
          · cases pending
          · rw [List.mem_singleton.mp pending] at narrow
            exact absurd wide_replacement narrow
        · refine ⟨byte, List.mem_cons_self, ?_⟩
          rw [List.mem_singleton.mp own, toNat_ofNat_of_valid]
          unfold Nat.isValidChar
          omega
        · obtain ⟨found, isFound, same⟩ := induction (.inl rfl) later
          exact ⟨found, List.mem_cons_of_mem _ isFound, same⟩
      · obtain ⟨wide, nextSound, -⟩ := push_wide sound
          (show 0x80 ≤ byte.toNat by omega)
        cases member with
        | inl now => exact absurd (wide letter now) narrow
        | inr later =>
            obtain ⟨found, isFound, same⟩ := induction nextSound later
            exact ⟨found, List.mem_cons_of_mem _ isFound, same⟩

end Decoder

/-- Decoding begins anew after a byte of its own. -/
theorem decodeLossy_single (before after : List UInt8) {byte : UInt8}
    (single : byte.toNat ≤ 0x7F) :
    decodeLossy (before ++ byte :: after) =
      decodeLossy before ++ Char.ofNat byte.toNat :: decodeLossy after := by
  unfold decodeLossy
  rw [Decoder.run_append]
  simp only [Decoder.run]
  rw [Decoder.push_single (Decoder.run_sound (.inl rfl) before) single]
  simp only [List.append_assoc, List.cons_append, List.nil_append]

theorem mem_decodeLossy_single {bytes : List UInt8} {byte : UInt8}
    (single : byte.toNat ≤ 0x7F) :
    Char.ofNat byte.toNat ∈ decodeLossy bytes ↔ byte ∈ bytes := by
  have value : (Char.ofNat byte.toNat).toNat = byte.toNat :=
    toNat_ofNat_of_valid (by unfold Nat.isValidChar; omega)
  have narrow : ¬ Wide (Char.ofNat byte.toNat) := by
    rw [Wide, value]
    omega
  constructor
  · intro member
    cases List.mem_append.mp member with
    | inl inRun =>
        obtain ⟨found, isFound, same⟩ := Decoder.mem_run (.inl rfl) inRun narrow
        rw [value] at same
        rwa [UInt8.toNat_inj.mp same] at isFound
    | inr pending =>
        rw [Decoder.finish] at pending
        split at pending
        · cases pending
        · rw [List.mem_singleton.mp pending] at narrow
          exact absurd wide_replacement narrow
  · intro member
    obtain ⟨before, after, rfl⟩ := List.append_of_mem member
    rw [decodeLossy_single before after single]
    exact List.mem_append_right _ List.mem_cons_self

theorem decodeLossy_wide {byte : UInt8} (high : 0x80 ≤ byte.toNat)
    (bytes : List UInt8) :
    ∃ letter rest, decodeLossy (byte :: bytes) = letter :: rest ∧
      Wide letter := by
  have step : decodeLossy (byte :: bytes) =
      (Decoder.push {} byte.toNat).1 ++
        (((Decoder.push {} byte.toNat).2.run bytes).1 ++
          ((Decoder.push {} byte.toNat).2.run bytes).2.finish) :=
    List.append_assoc _ _ _
  obtain ⟨wide, -, some⟩ := Decoder.push_wide (.inl rfl) high
  rw [step]
  by_cases now : (Decoder.push {} byte.toNat).1 = []
  · rw [now]
    exact (some.resolve_left (not_not_intro now)).head_wide bytes
  · obtain ⟨letter, rest, isLetter⟩ := List.exists_cons_of_ne_nil now
    rw [isLetter] at wide ⊢
    exact ⟨letter, _, rfl, wide letter List.mem_cons_self⟩

theorem head_decodeLossy_single {bytes : List UInt8} {byte : UInt8}
    (single : byte.toNat ≤ 0x7F) :
    (decodeLossy bytes).head? = some (Char.ofNat byte.toNat) ↔
      bytes.head? = some byte := by
  have value : (Char.ofNat byte.toNat).toNat = byte.toNat :=
    toNat_ofNat_of_valid (by unfold Nat.isValidChar; omega)
  cases bytes with
  | nil => simp [decodeLossy, Decoder.run, Decoder.finish]
  | cons first bytes =>
      by_cases firstSingle : first.toNat ≤ 0x7F
      · have decoded := decodeLossy_single [] bytes firstSingle
        rw [List.nil_append] at decoded
        rw [decoded]
        simp only [decodeLossy, Decoder.run, Decoder.finish, if_true,
          List.nil_append, List.head?_cons, Option.some.injEq]
        constructor
        · intro same
          have sameNat := congrArg Char.toNat same
          rw [value, toNat_ofNat_of_valid
            (by unfold Nat.isValidChar; omega)] at sameNat
          exact UInt8.toNat_inj.mp sameNat
        · rintro rfl
          rfl
      · obtain ⟨letter, rest, isText, wide⟩ :=
          decodeLossy_wide (show 0x80 ≤ first.toNat by omega) bytes
        rw [isText, List.head?_cons, List.head?_cons, Option.some.injEq,
          Option.some.injEq]
        constructor
        · rintro rfl
          rw [Wide, value] at wide
          omega
        · rintro rfl
          exact absurd single firstSingle

theorem encode_single {byte : UInt8} (single : byte.toNat ≤ 0x7F) :
    String.utf8EncodeChar (Char.ofNat byte.toNat) = [byte] := by
  have value : (Char.ofNat byte.toNat).toNat = byte.toNat :=
    toNat_ofNat_of_valid (by unfold Nat.isValidChar; omega)
  have isEncoded := encoded (Char.ofNat byte.toNat)
  generalize String.utf8EncodeChar (Char.ofNat byte.toNat) = bytes
    at isEncoded ⊢
  cases isEncoded with
  | one small same =>
      rw [UInt8.toNat_inj.mp (value.symm.trans same)]
  | two low high secondLow secondHigh same => omega
  | three low high secondLow secondHigh thirdLow thirdHigh same =>
      split at secondLow <;> omega
  | four low high secondLow secondHigh thirdLow thirdHigh fourthLow fourthHigh
      same =>
      split at secondLow <;> omega

/-- Text without wide letters has no other bytes than its own. -/
theorem eq_encode_of_decodeLossy {bytes : List UInt8} {text : List Char}
    (narrow : ∀ letter ∈ text, ¬ Wide letter)
    (decoded : decodeLossy bytes = text) : bytes = encode text := by
  induction bytes generalizing text with
  | nil =>
      subst decoded
      rfl
  | cons byte bytes induction =>
      by_cases single : byte.toNat ≤ 0x7F
      · have first := decodeLossy_single [] bytes single
        rw [List.nil_append, decoded] at first
        subst first
        have rest := induction (fun letter member =>
          narrow letter (List.mem_cons_of_mem _ member)) rfl
        change byte :: bytes = encode (Char.ofNat byte.toNat :: _)
        rw [encode_cons, encode_single single, ← rest]
        rfl
      · obtain ⟨letter, rest, isText, wide⟩ :=
          decodeLossy_wide (show 0x80 ≤ byte.toNat by omega) bytes
        rw [decoded] at isText
        subst isText
        exact absurd wide (narrow letter List.mem_cons_self)

/-! ## Splitting -/

/-- No part of a split list holds the separator. -/
theorem not_mem_of_mem_splitOn {α : Type} [DecidableEq α] {separator : α}
    {items part : List α} (member : part ∈ items.splitOn separator) :
    separator ∉ part := by
  induction items generalizing part with
  | nil =>
      rw [List.splitOn_nil, List.mem_singleton] at member
      rw [member]
      exact List.not_mem_nil
  | cons item items induction =>
      rw [List.splitOn_cons_eq_if_modifyHead] at member
      split at member
      case isTrue =>
        cases List.mem_cons.mp member with
        | inl isEmpty =>
            rw [isEmpty]
            exact List.not_mem_nil
        | inr later => exact induction later
      case isFalse different =>
        obtain ⟨first, rest, isSplit⟩ :=
          List.exists_cons_of_ne_nil (List.splitOn_ne_nil separator items)
        rw [isSplit] at member induction
        rw [List.modifyHead_cons] at member
        cases List.mem_cons.mp member with
        | inl isFirst =>
            rw [isFirst]
            intro inFirst
            cases List.mem_cons.mp inFirst with
            | inl same => exact different (beq_iff_eq.mpr same.symm)
            | inr later => exact induction List.mem_cons_self later
        | inr later => exact induction (List.mem_cons_of_mem _ later)

/-- A map that treats the parts of a joined list apart, and brings no
separator into them, maps the parts of a split list. -/
theorem splitOn_map {α β : Type} [DecidableEq α] [DecidableEq β]
    {translate : List α → List β} {source : α} {target : β}
    (joins : ∀ before after, translate (before ++ source :: after) =
      translate before ++ target :: translate after)
    (brings : ∀ part, source ∉ part → target ∉ translate part)
    (items : List α) :
    (translate items).splitOn target =
      (items.splitOn source).map translate := by
  have joined (parts : List (List α)) (some : parts ≠ []) :
      translate ([source].intercalate parts) =
        [target].intercalate (parts.map translate) := by
    induction parts with
    | nil => exact absurd rfl some
    | cons part parts induction =>
        cases parts with
        | nil => simp
        | cons next parts =>
            rw [List.intercalate_cons_cons, List.map_cons, List.map_cons,
              List.intercalate_cons_cons, ← List.map_cons,
              ← induction (by simp), List.append_assoc, List.append_assoc]
            exact joins part _
  have some := List.splitOn_ne_nil source items
  have apart : ∀ part ∈ (items.splitOn source).map translate,
      target ∉ part := by
    intro part member
    obtain ⟨before, isBefore, rfl⟩ := List.mem_map.mp member
    exact brings before (not_mem_of_mem_splitOn isBefore)
  have split := List.splitOn_intercalate target apart
    fun isEmpty => some (List.map_eq_nil_iff.mp isEmpty)
  rwa [← joined _ some, List.intercalate_splitOn] at split

/-- A separator of one byte splits the text where it splits the bytes. -/
theorem splitOn_decodeLossy {byte : UInt8} (single : byte.toNat ≤ 0x7F)
    (bytes : List UInt8) :
    (decodeLossy bytes).splitOn (Char.ofNat byte.toNat) =
      (bytes.splitOn byte).map decodeLossy :=
  splitOn_map (fun before after => decodeLossy_single before after single)
    (fun _ => mt (mem_decodeLossy_single single).mp) bytes

theorem mem_encode_single {text : List Char} (byte : UInt8)
    (single : byte.toNat ≤ 0x7F) :
    byte ∈ encode text ↔ Char.ofNat byte.toNat ∈ text := by
  rw [← mem_decodeLossy_single single, decodeLossy_encode]

end Foundation.Utf8
