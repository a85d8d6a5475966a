import Electrosphere.Storage.Schema
import Mathlib.Data.List.Basic
import Mathlib.Tactic.IntervalCases

/-!
# What the daemon is deployed with

A deployment fixes the hash function, the data directory and the default
backend.  The hash function is taken to be free of collisions.  Commit
identifiers hash a text in which the contract digest, the tree digest and the
parent are separated by NUL characters, so a commit determines all three.
-/

namespace Electrosphere

/-! ## A hash without collisions -/

def hexDigit (value : Nat) : Char :=
  if value < 10 then Char.ofNat (48 + value) else Char.ofNat (87 + value)

/-- Six hexadecimal digits, enough for every code point. -/
def hexOfChar (letter : Char) : List Char :=
  [letter.toNat / 1048576 % 16, letter.toNat / 65536 % 16,
    letter.toNat / 4096 % 16, letter.toNat / 256 % 16,
    letter.toNat / 16 % 16, letter.toNat % 16].map hexDigit

theorem hexDigit_isHex {value : Nat} (small : value < 16) :
    ((hexDigit value).isDigit ||
      ('a' ≤ hexDigit value && hexDigit value ≤ 'f')) = true := by
  interval_cases value <;> decide

theorem hexDigit_injective {left right : Nat} (leftSmall : left < 16)
    (rightSmall : right < 16) (same : hexDigit left = hexDigit right) :
    left = right := by
  have table : ∀ left right : Fin 16,
      hexDigit left = hexDigit right → left = right := by decide
  exact congrArg Fin.val (table ⟨left, leftSmall⟩ ⟨right, rightSmall⟩ same)

theorem hexOfChar_injective {left right : Char}
    (same : hexOfChar left = hexOfChar right) : left = right := by
  have small : ∀ value : Nat, value % 16 < 16 := fun _ =>
    Nat.mod_lt _ (by decide)
  simp only [hexOfChar, List.map_cons, List.map_nil, List.cons.injEq,
    and_true] at same
  obtain ⟨sixth, fifth, fourth, third, second, first⟩ := same
  have sixth := hexDigit_injective (small _) (small _) sixth
  have fifth := hexDigit_injective (small _) (small _) fifth
  have fourth := hexDigit_injective (small _) (small _) fourth
  have third := hexDigit_injective (small _) (small _) third
  have second := hexDigit_injective (small _) (small _) second
  have first := hexDigit_injective (small _) (small _) first
  have bound : ∀ letter : Char, letter.toNat < 16777216 := fun letter => by
    have valid := letter.valid
    simp only [UInt32.isValidChar, Nat.isValidChar] at valid
    simp only [Char.toNat]
    omega
  have leftBound := bound left
  have rightBound := bound right
  apply Char.ext
  apply UInt32.toNat_inj.mp
  simp only [Char.toNat] at *
  omega

theorem hexOfChar_isHex {letter digit : Char}
    (member : digit ∈ hexOfChar letter) :
    (digit.isDigit || ('a' ≤ digit && digit ≤ 'f')) = true := by
  obtain ⟨value, isValue, rfl⟩ := List.mem_map.mp member
  apply hexDigit_isHex
  simp only [List.mem_cons, List.not_mem_nil, or_false] at isValue
  rcases isValue with rfl | rfl | rfl | rfl | rfl | rfl <;>
    exact Nat.mod_lt _ (by decide)

theorem flatMap_hexOfChar_injective {letters others : List Char}
    (lists : letters.flatMap hexOfChar = others.flatMap hexOfChar) :
    letters = others := by
  induction letters generalizing others with
  | nil =>
      cases others with
      | nil => rfl
      | cons first rest => simp [hexOfChar] at lists
  | cons letter letters induction =>
      cases others with
      | nil => simp [hexOfChar] at lists
      | cons other others =>
          simp only [List.flatMap_cons] at lists
          obtain ⟨heads, tails⟩ := List.append_inj lists rfl
          rw [hexOfChar_injective heads, induction tails]

/-- The text itself, written in hexadecimal. -/
def spelled (text : String) : Digest where
  hex := String.ofList ('0' :: text.toList.flatMap hexOfChar)
  isHex := by
    rw [String.toList_ofList, List.all_eq_true]
    intro letter member
    rcases List.mem_cons.mp member with rfl | inside
    · decide
    · obtain ⟨source, _, digit⟩ := List.mem_flatMap.mp inside
      exact hexOfChar_isHex digit

theorem spelled_injective : Function.Injective spelled := by
  intro left right same
  have letters := congrArg (fun digest => digest.hex.toList) same
  simp only [spelled, String.toList_ofList, List.cons.injEq,
    true_and] at letters
  exact String.toList_inj.mp (flatMap_hexOfChar_injective letters)

theorem spelled_length (text : String) :
    (spelled text).hex.toList.length % 6 = 1 := by
  have digits : ∀ letters : List Char,
      (letters.flatMap hexOfChar).length = letters.length * 6 := by
    intro letters
    induction letters with
    | nil => rfl
    | cons letter letters induction =>
        rw [List.flatMap_cons, List.length_append, induction]
        simp only [hexOfChar, List.length_map, List.length_cons,
          List.length_nil]
        omega
  simp only [spelled, String.toList_ofList, List.length_cons, digits]
  omega

/-- Texts with their SHA-256 digests. -/
structure KnownDigests where
  entries : List (String × Digest)
  distinct : (entries.map Prod.snd).Nodup
  long : ∀ entry ∈ entries, entry.2.hex.toList.length = 64

namespace KnownDigests

/-- A computable hash that agrees with SHA-256 on the known texts. -/
def sha256 (known : KnownDigests) (text : String) : Digest :=
  match known.entries.find? fun entry => entry.1 == text with
  | some entry => entry.2
  | none => spelled text

theorem sha256_cases (known : KnownDigests) (text : String) :
    (text, known.sha256 text) ∈ known.entries ∨
      known.sha256 text = spelled text := by
  unfold sha256
  split
  case h_1 entry found =>
    have isText : entry.1 = text := by
      simpa using List.find?_some found
    exact .inl (isText ▸ List.mem_of_find?_eq_some found)
  case h_2 => exact .inr rfl

theorem sha256_injective (known : KnownDigests) :
    Function.Injective known.sha256 := by
  intro left right same
  have apart : ∀ text other,
      (text, known.sha256 text) ∈ known.entries →
      known.sha256 text ≠ spelled other := by
    intro text other listed equal
    have length := known.long _ listed
    have spelledLength := spelled_length other
    rw [← equal, length] at spelledLength
    cases spelledLength
  rcases known.sha256_cases left with leftListed | leftSpelled
  · rcases known.sha256_cases right with rightListed | rightSpelled
    · rw [← same] at rightListed
      have entries := List.inj_on_of_nodup_map known.distinct
        leftListed rightListed rfl
      exact (Prod.mk.inj entries).1
    · exact (apart left right leftListed (same.trans rightSpelled)).elim
  · rcases known.sha256_cases right with rightListed | rightSpelled
    · exact (apart right left rightListed
        (same.symm.trans leftSpelled)).elim
    · exact spelled_injective
        (leftSpelled.symm.trans (same.trans rightSpelled))

end KnownDigests

/-! ## Deployments -/

structure Deployment where
  /-- SHA-256 of the UTF-8 encoding of a text. -/
  sha256 : String → Digest
  collisionFree : Function.Injective sha256
  dataDir : String
  defaultBackend : Backend

namespace Deployment

/-- The file that holds the archive with the given digest. -/
def treePath (deployment : Deployment) (digest : Digest) : String :=
  deployment.dataDir ++ "/objects/trees/sha256/" ++ digest.hex

theorem treePath_injective (deployment : Deployment) {left right : Digest}
    (same : deployment.treePath left = deployment.treePath right) :
    left = right := by
  apply Digest.ext
  have lists := congrArg String.toList same
  simp only [treePath, String.toList_append,
    List.append_cancel_left_eq] at lists
  exact String.toList_inj.mp lists

/-- `workspacePath` of an instance, below the instance's own directory. -/
def instanceRoot (deployment : Deployment) (id : InstanceId) : String :=
  deployment.dataDir ++ "/instances/" ++ toString id

def workspacePath (deployment : Deployment) (id : InstanceId) : String :=
  deployment.instanceRoot id ++ "/workspace"

/-- The text hashed by `commitDigest`. -/
def commitMessage (contractDigest treeDigest : Digest)
    (parentId : Option Digest) : String :=
  "electrosphere-commit\x00v1\x00" ++ contractDigest.text ++ "\x00" ++
    treeDigest.text ++ "\x00" ++ (parentId.map Digest.text).getD ""

private def emptyTreeDigest : Digest :=
  ⟨"d43de64433e46a0d141a2bd68f9b8ca9e06c2dd4ed6fc411aa19c1f647221b92",
    by decide⟩

private def emptyCommitDigest : Digest :=
  ⟨"bdc2e3a9f4bbfcec93b656f64f6c01ee76dd1b046b315b7ca4be35afd989006e",
    by decide⟩

/-- A deployment whose digests can be computed. -/
def transparent : Deployment :=
  let known : KnownDigests :=
    { entries := [("CFS-v1\x00", emptyTreeDigest),
        (commitMessage emptyContractDigest emptyTreeDigest none,
          emptyCommitDigest)]
      distinct := by decide
      long := by decide }
  { sha256 := known.sha256
    collisionFree := known.sha256_injective
    dataDir := "data"
    defaultBackend := .docker }

def commitDigest (deployment : Deployment)
    (contractDigest treeDigest : Digest) (parentId : Option Digest) :
    Digest :=
  deployment.sha256 (commitMessage contractDigest treeDigest parentId)

/-- What `exportCfs` returns for the empty directory: an archive that holds
nothing but the magic number. -/
def emptyTree (deployment : Deployment) : CfsObject :=
  { treeDigest := deployment.sha256 "CFS-v1\x00"
    path := deployment.treePath (deployment.sha256 "CFS-v1\x00")
    sizeBytes := 7 }

/-- The canonical empty commit. -/
def emptyCommit (deployment : Deployment) : Digest :=
  deployment.commitDigest emptyContractDigest
    deployment.emptyTree.treeDigest none

end Deployment

private theorem parentText_injective {left right : Option Digest}
    (same : (left.map Digest.text).getD "" =
      (right.map Digest.text).getD "") : left = right := by
  have nonempty : ∀ digest : Digest, digest.text ≠ "" := by
    intro digest empty
    have lists := congrArg String.toList empty
    simp [Digest.text] at lists
  cases left with
  | none =>
      cases right with
      | none => rfl
      | some digest => exact (nonempty digest same.symm).elim
  | some digest =>
      cases right with
      | none => exact (nonempty digest same).elim
      | some other => exact congrArg some (Digest.text_injective same)

private theorem append_separator_injective {separator : Char}
    {left right leftRest rightRest : List Char}
    (leftFree : separator ∉ left) (rightFree : separator ∉ right)
    (same : left ++ separator :: leftRest = right ++ separator :: rightRest) :
    left = right ∧ leftRest = rightRest := by
  induction left generalizing right with
  | nil =>
      cases right with
      | nil => simpa using same
      | cons first rest =>
          simp only [List.nil_append, List.cons_append,
            List.cons.injEq] at same
          exact (rightFree (same.1 ▸ List.mem_cons_self)).elim
  | cons first rest induction =>
      cases right with
      | nil =>
          simp only [List.nil_append, List.cons_append,
            List.cons.injEq] at same
          exact (leftFree (same.1 ▸ List.mem_cons_self)).elim
      | cons other others =>
          simp only [List.cons_append, List.cons.injEq] at same
          obtain ⟨rfl, tails⟩ := same
          obtain ⟨rfl, rests⟩ := induction
            (fun member => leftFree (List.mem_cons_of_mem _ member))
            (fun member => rightFree (List.mem_cons_of_mem _ member)) tails
          exact ⟨rfl, rests⟩

private theorem separator_toList : "\x00".toList = ['\x00'] := rfl

theorem Deployment.commitMessage_injective
    {contract tree contract' tree' : Digest} {parent parent' : Option Digest}
    (same : commitMessage contract tree parent =
      commitMessage contract' tree' parent') :
    contract = contract' ∧ tree = tree' ∧ parent = parent' := by
  have lists := congrArg String.toList same
  unfold commitMessage at lists
  simp only [String.toList_append, List.append_assoc,
    List.append_cancel_left_eq, separator_toList,
    List.singleton_append] at lists
  obtain ⟨contracts, rest⟩ := append_separator_injective
    contract.nul_not_mem_text contract'.nul_not_mem_text lists
  obtain ⟨trees, parents⟩ := append_separator_injective
    tree.nul_not_mem_text tree'.nul_not_mem_text rest
  exact ⟨Digest.text_injective (String.toList_inj.mp contracts),
    Digest.text_injective (String.toList_inj.mp trees),
    parentText_injective (String.toList_inj.mp parents)⟩

/-- A commit determines its contract, tree and parent. -/
theorem Deployment.commitDigest_injective {deployment : Deployment}
    {contract tree contract' tree' : Digest} {parent parent' : Option Digest}
    (same : deployment.commitDigest contract tree parent =
      deployment.commitDigest contract' tree' parent') :
    contract = contract' ∧ tree = tree' ∧ parent = parent' :=
  commitMessage_injective (deployment.collisionFree same)

/-- The service's maps file different turns under different texts. -/
theorem TurnKey.text_injective {left right : TurnKey}
    (leftValid : isTurnIdentifier left.threadId = true)
    (rightValid : isTurnIdentifier right.threadId = true)
    (same : left.text = right.text) : left = right := by
  have lists := congrArg String.toList same
  simp only [TurnKey.text, String.toList_append, List.append_assoc,
    separator_toList, List.singleton_append] at lists
  obtain ⟨threads, turns⟩ := append_separator_injective
    (nul_not_mem_identifier leftValid) (nul_not_mem_identifier rightValid)
    lists
  cases left
  cases right
  simp only [TurnKey.mk.injEq]
  exact ⟨String.toList_inj.mp threads, String.toList_inj.mp turns⟩

end Electrosphere
