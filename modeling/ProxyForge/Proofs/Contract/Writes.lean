import Mathlib.Data.List.Induction
import Mathlib.Data.List.Infix
import Mathlib.Logic.Function.Basic
import ProxyForge.Proofs.Contract.Rendering

/-!
# Running the stores of a source

The stores of a constructor are run as the lines of the source give them, one after the other and onto zeros, so a
slot holds what the last write to it left (`storageAfter_apply`). The slot of a state variable is its place among the
declarations of the source. The lines that store are those of the stores (`writes_lines`), and a run of stores in front
of another instruction is one block (`body_concat`). A line that neither stores nor transfers has not the word for it:
a word is looked for between the characters that it does not have (`not_mentions_append_cons`).
-/

namespace ProxyForge.Contract

open Reading

/-! ## Running a constructor -/

/-- The slot and the value of a line that stores. -/
def write? (line : List Char) : Option (Word × Word) :=
  (store? (unindented line)).bind fun s => (number? s.2).map (s.1, ·)

/-- The storage after writes, one after the other, onto zeros. -/
def storageAfter (writes : List (Word × Word)) : Word → Word :=
  writes.foldl (fun storage w => Function.update storage w.1 w.2) fun _ => 0

/-- The storage after the stores of the constructor of a source, given by its lines. -/
def constructed (lines : List (List Char)) : Word → Word :=
  storageAfter ((functionLines "\tconstructor()" lines).filterMap write?)

/-- The declarations of the state variables: the lines of the contract in front of its first empty line. -/
def declarations (lines : List (List Char)) : List (List Char) :=
  ((lines.dropWhile fun l => !"contract ".toList.isPrefixOf l).drop 1).takeWhile (!·.isEmpty)

/-- The slot of a state variable, which is its place among the declarations. -/
def slotOf? (name : String) (lines : List (List Char)) : Option Nat :=
  (declarations lines).findIdx? fun l => (" " ++ name ++ ";").toList.isSuffixOf l

/-- A line in which a word stands. -/
def Mentions (word : String) (line : List Char) : Prop :=
  word.toList <:+: line

instance (word : String) : DecidablePred (Mentions word) :=
  fun line => List.decidableInfix word.toList line

/-! ### Writes -/

theorem storageAfter_concat (writes : List (Word × Word)) (w : Word × Word) :
    storageAfter (writes ++ [w]) = Function.update (storageAfter writes) w.1 w.2 := by
  rw [storageAfter, List.foldl_append]
  rfl

/-- A slot holds what the last write to it left. -/
theorem storageAfter_apply (writes : List (Word × Word)) (slot : Word) :
    storageAfter writes slot = ((writes.filter (·.1 = slot)).getLast?.map Prod.snd).getD 0 := by
  -- The last write either is to the slot and counts alone, or leaves the slot to the writes before it.
  induction writes using List.reverseRecOn with
  | nil => rfl
  | append_singleton writes w ih =>
    rw [storageAfter_concat, List.filter_append]
    by_cases h : w.1 = slot
    · have hit : [w].filter (·.1 = slot) = [w] := by simp [h]
      rw [hit, List.getLast?_concat, ← h, Function.update_self]
      rfl
    · have miss : [w].filter (·.1 = slot) = [] := by simp [h]
      rw [miss, List.append_nil, Function.update_of_ne (Ne.symm h), ih]

/-! ### Lines that write -/

/-- What an instruction writes. -/
def Instruction.writes : Instruction → List (Word × Word)
  | store slot value => [(slot, value.value)]
  | _ => []

theorem write?_eq_none {text : String} {c : Char} (head : text.toList.head? = some c) (ne : c ≠ '\t') (other : 's' ≠ c)
    (depth : Nat) : write? (line depth text).toList = none := by
  rw [write?, unindented_line head ne, store?_eq_none head other]
  rfl

theorem write?_storeText (slot : Word) (value : Operand) (depth : Nat) :
    write? (line depth (Instruction.storeText slot value)).toList = some (slot, value.value) := by
  rw [write?, unindented_line (head?_storeText slot value) (by decide), store?_storeText, Option.bind_some,
    number?_literal]
  rfl

/-- Of the lines of an instruction that hands over no call, those that write are the stores. -/
theorem writes_lines {i : Instruction} (h : ∀ target gasReserve, i ≠ .forward target gasReserve) (depth : Nat) :
    (i.lines depth).filterMap (fun l => write? l.toList) = i.writes := by
  cases i with
  | store slot value =>
    rw [Instruction.lines, List.filterMap_cons, write?_storeText]
    rfl
  | transfer token recipient amount =>
    have none := write?_eq_none (head?_transferText token recipient amount) (by decide) (by decide) depth
    rw [Instruction.lines, List.filterMap_cons, none]
    rfl
  | forward target gasReserve => exact absurd rfl (h target gasReserve)

/-! ### Words in a line -/

theorem not_mentions_of_not_mem {word : String} {c : Char} {line : List Char} (hc : c ∈ word.toList) (h : c ∉ line) :
    ¬ Mentions word line := by
  intro hm
  exact h (hm.subset hc)

/-- A word does not reach over a character that it does not have. -/
theorem not_mentions_append_cons {word : String} {c : Char} (hc : c ∉ word.toList) {as bs : List Char}
    (ha : ¬ Mentions word as) (hb : ¬ Mentions word bs) : ¬ Mentions word (as ++ c :: bs) := by
  have inRest : ¬ word.toList <:+: c :: bs := by
    intro hr
    rcases List.infix_cons_iff.1 hr with hp | hi
    · cases hw : word.toList with
      | nil =>
        apply hb
        rw [Mentions, hw]
        exact List.nil_infix
      | cons d ds =>
        rw [hw] at hp hc
        exact hc ((List.cons_prefix_cons.1 hp).1 ▸ List.mem_cons_self)
    · exact hb hi
  intro hm
  -- A word that begins in `as` and ends behind it has `c` as a character, unless it ends with `as`.
  rcases List.infix_append_iff.1 hm with hi | hi | ⟨left, right, whole, hl, hr⟩
  · exact ha hi
  · exact inRest hi
  · cases right with
    | nil =>
      rw [List.append_nil] at whole
      apply ha
      rw [Mentions, whole]
      exact hl.isInfix
    | cons d ds =>
      rw [whole, (List.cons_prefix_cons.1 hr).1] at hc
      exact hc (by simp)

theorem not_mentions_line {word text : String} (tab : '\t' ∉ word.toList) (h : ¬ Mentions word text.toList)
    (depth : Nat) : ¬ Mentions word (line depth text).toList := by
  rw [toList_line]
  induction depth with
  | zero => exact h
  | succ depth ih =>
    have blank : ¬ Mentions word [] := by
      intro hm
      apply h
      rw [Mentions, List.infix_nil.1 hm]
      exact List.nil_infix
    exact not_mentions_append_cons tab blank ih

theorem not_mentions_sstore_targetText (target : Address) :
    ¬ Mentions "sstore" (Instruction.targetText target).toList := by
  have digits : ¬ Mentions "sstore" target.checksummed.toList := by
    apply not_mentions_of_not_mem (c := 's') (by decide)
    apply Address.not_mem_checksummed <;> decide
  have cut : (Instruction.targetText target).toList =
      "address to = address".toList ++ '(' :: (target.checksummed.toList ++ ')' :: ";".toList) := by
    unfold Instruction.targetText
    simp
  rw [cut]
  apply not_mentions_append_cons (by decide)
  · decide
  · apply not_mentions_append_cons (by decide) digits
    decide

theorem not_mentions_sstore_delegation (gasReserve : UInt64) :
    ∀ l ∈ Instruction.delegation gasReserve, ¬ Mentions "sstore" l.toList := by
  have number : ¬ Mentions "sstore" (toString gasReserve.toNat).toList := by
    apply not_mentions_of_not_mem (c := 's') (by decide)
    intro h
    exact absurd (Literal.isDigit_of_mem_toString h) (by decide)
  have cut : (Instruction.callText gasReserve).toList = "let result := delegatecall(sub(gas(),".toList ++
      ' ' :: ((toString gasReserve.toNat).toList ++ ')' :: ", to, 0, calldatasize(), 0, 0)".toList) := by
    unfold Instruction.callText
    simp
  have call : ¬ Mentions "sstore" (Instruction.callText gasReserve).toList := by
    rw [cut]
    apply not_mentions_append_cons (by decide)
    · decide
    · apply not_mentions_append_cons (by decide) number
      decide
  exact forall_delegation (P := fun l => ¬ Mentions "sstore" l.toList) (by decide) call

/-- No line that hands over a call stores. -/
theorem not_mentions_sstore_forward (target : Address) (gasReserve : UInt64) (depth : Nat) :
    ∀ l ∈ (Instruction.forward target gasReserve).lines depth, ¬ Mentions "sstore" l.toList := by
  have opening : ¬ Mentions "sstore" (line depth ("assembly " ++ "\x7b")).toList :=
    not_mentions_line (by decide) (by decide) depth
  have closing : ¬ Mentions "sstore" (line depth "\x7d").toList := not_mentions_line (by decide) (by decide) depth
  have inside : ∀ l ∈ (Instruction.delegation gasReserve).map (line (depth + 1)), ¬ Mentions "sstore" l.toList := by
    intro l hl
    obtain ⟨text, ht, rfl⟩ := List.mem_map.1 hl
    exact not_mentions_line (by decide) (not_mentions_sstore_delegation gasReserve text ht) (depth + 1)
  have inBlock : ∀ l ∈ block depth "assembly " ((Instruction.delegation gasReserve).map (line (depth + 1))),
      ¬ Mentions "sstore" l.toList :=
    forall_block (P := fun l => ¬ Mentions "sstore" l.toList) opening closing inside
  intro l hl
  rcases List.mem_cons.1 hl with rfl | hl
  · exact not_mentions_line (by decide) (not_mentions_sstore_targetText target) depth
  · exact inBlock l hl

theorem mentions_transferText (token recipient : Address) (amount : Word) (depth : Nat) :
    Mentions "SafeERC20.transfer" (line depth (Instruction.transferText token recipient amount)).toList := by
  have front : (Instruction.transferText token recipient amount).toList = "SafeERC20.transfer".toList ++
      ("(address(" ++ token.checksummed ++ "), address(" ++ recipient.checksummed ++ "), uint256(" ++ amount.decimal ++
        "));").toList := by
    simp [Instruction.transferText, libraryName]
  rw [Mentions, toList_line, front]
  exact List.infix_append' _ _ _

/-- No line of another instruction transfers. -/
theorem not_mentions_transfer {i : Instruction} (h : ∀ token recipient amount, i ≠ .transfer token recipient amount)
    (depth : Nat) : ∀ l ∈ i.lines depth, ¬ Mentions "SafeERC20.transfer" l.toList := by
  intro l hl
  apply not_mentions_of_not_mem (c := '.') (by decide)
  exact avoids_lines_of_ne_transfer h depth l hl '.' (by decide)

/-! ### One run of stores -/

/-- A run of stores is one segment. -/
theorem segments_of_stores {run : List Instruction} (stores : ∀ i ∈ run, i.isStore = true) (nonempty : run ≠ []) :
    segments run = [run] := by
  induction run with
  | nil => exact absurd rfl nonempty
  | cons i run ih =>
    cases run with
    | nil => rfl
    | cons j run =>
      have rest := ih (fun k hk => stores k (by simp [hk])) (by simp)
      rw [segments, rest]
      simp [stores i (by simp), stores j (by simp)]

/-- A run of stores in front of another instruction, or at the end, is one segment. -/
theorem segments_append {run rest : List Instruction} (stores : ∀ i ∈ run, i.isStore = true) (nonempty : run ≠ [])
    (stops : ∀ i, rest.head? = some i → i.isStore = false) : segments (run ++ rest) = run :: segments rest := by
  have single := segments_of_stores stores nonempty
  cases rest with
  | nil => rw [List.append_nil, single, segments]
  | cons i rest =>
    have other := stops i rfl
    rw [segments_append_cons other, single, segments_cons other, List.singleton_append]

/-- The lines of a body with a run of stores in front: one block, and the lines of the rest. -/
theorem body_append {run rest : List Instruction} (stores : ∀ i ∈ run, i.isStore = true) (nonempty : run ≠ [])
    (stops : ∀ i, rest.head? = some i → i.isStore = false) (depth : Nat) :
    body depth (run ++ rest) =
      block depth "assembly " (run.flatMap (Instruction.lines (depth + 1))) ++ body depth rest := by
  have all : run.all Instruction.isStore = true := by simpa using stores
  simp [body, segments_append stores nonempty stops, segmentLines, all]

theorem body_cons {i : Instruction} (other : i.isStore = false) (rest : List Instruction) (depth : Nat) :
    body depth (i :: rest) = i.lines depth ++ body depth rest :=
  body_append_cons other [] rest depth

theorem body_concat {run : List Instruction} (stores : ∀ i ∈ run, i.isStore = true) (nonempty : run ≠ [])
    {last : Instruction} (other : last.isStore = false) (depth : Nat) :
    body depth (run ++ [last]) =
      block depth "assembly " (run.flatMap (Instruction.lines (depth + 1))) ++ last.lines depth := by
  have stops : ∀ i, [last].head? = some i → i.isStore = false := by
    rintro _ ⟨⟩
    exact other
  have behind : body depth [] = [] := rfl
  rw [body_append stores nonempty stops, body_cons other, behind, List.append_nil]

end ProxyForge.Contract
