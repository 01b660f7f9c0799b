import ProxyForge.Proofs.Contract.Rendering

/-!
# Programs are read back from their source

A source determines its program, whatever the contract is called, since `ofSource` reads the program back
(`ofSource_source`). The name may be any text, also one that looks like a contract. But the last `>` of a source is
the one of the first declaration: the name stands in front of it between two fixed texts, and behind it there are plain
lines alone. The lines of a body are read one by one, and the braces of assembly blocks tell nothing, so it does not
matter how stores are grouped (`readBody_body`).
-/

namespace ProxyForge.Contract

open Reading

/-! ## Function bodies -/

/-- What one line of a function body tells. -/
inductive Clue where
  | store (slot : Word) (value : Operand)
  | transfer (token recipient : Address) (amount : Word)
  | target (address : Address)
  | reserve (gas : UInt64)

namespace Clue

/-- What a text without indentation tells. -/
def ofText? (cs : List Char) : Option Clue :=
  ((store? cs).bind fun s => (operand? s.2).map (store s.1)).or <|
    ((transfer? cs).map fun t => transfer t.1 t.2.1 t.2.2).or <|
      ((target? cs).map target).or ((reserve? cs).map reserve)

/-- What a line tells. -/
def ofLine? (line : List Char) : Option Clue :=
  ofText? (unindented line)

/-- The instructions that clues add up to; a target without its reserve, or a reserve without its target, is none. -/
def instructions : List Clue → List Instruction
  | [] => []
  | store slot value :: clues => .store slot value :: instructions clues
  | transfer token recipient amount :: clues => .transfer token recipient amount :: instructions clues
  | target address :: reserve gas :: clues => .forward address gas :: instructions clues
  | _ :: clues => instructions clues

end Clue

/-- The clues to an instruction. -/
def Instruction.clues : Instruction → List Clue
  | store slot value => [.store slot value]
  | transfer token recipient amount => [.transfer token recipient amount]
  | forward target gasReserve => [.target target, .reserve gasReserve]

/-- The instructions of a function body. -/
def readBody (lines : List (List Char)) : List Instruction :=
  Clue.instructions (lines.filterMap Clue.ofLine?)

theorem instructions_clues (is : List Instruction) : Clue.instructions (is.flatMap Instruction.clues) = is := by
  induction is with
  | nil => rfl
  | cons i is ih =>
    cases i <;> exact congrArg (_ :: ·) ih

namespace Clue

theorem ofLine?_line {text : String} {c : Char} (head : text.toList.head? = some c) (ne : c ≠ '\t') (depth : Nat) :
    ofLine? (line depth text).toList = ofText? text.toList := by
  rw [ofLine?, unindented_line head ne]

theorem ofText?_storeText (slot : Word) (value : Operand) :
    ofText? (Instruction.storeText slot value).toList = some (store slot value) := by
  rw [ofText?, store?_storeText, Option.bind_some, operand?_literal]
  rfl

theorem ofText?_transferText (token recipient : Address) (amount : Word) :
    ofText? (Instruction.transferText token recipient amount).toList = some (transfer token recipient amount) := by
  rw [ofText?, store?_eq_none (head?_transferText token recipient amount) (by decide), transfer?_transferText]
  rfl

theorem ofText?_targetText (address : Address) :
    ofText? (Instruction.targetText address).toList = some (target address) := by
  rw [ofText?, store?_eq_none (head?_targetText address) (by decide),
    transfer?_eq_none (head?_targetText address) (by decide), target?_targetText]
  rfl

theorem ofText?_callText (gas : UInt64) : ofText? (Instruction.callText gas).toList = some (reserve gas) := by
  have head := head?_callText gas
  have read : reserve? (Instruction.callText gas).toList = some gas := reserve?_delegatecall gas
  rw [ofText?, store?_eq_none head (by decide), transfer?_eq_none head (by decide), target?_eq_none head (by decide),
    read]
  rfl

end Clue

/-- Of the lines that hand over a call, only the one of the call itself tells something. -/
theorem clues_delegation (depth : Nat) (gasReserve : UInt64) :
    ((Instruction.delegation gasReserve).map (line depth)).filterMap (fun l => Clue.ofLine? l.toList) =
      [.reserve gasReserve] := by
  have copied : Clue.ofLine? (line depth "calldatacopy(0, 0, calldatasize())").toList = none :=
    Clue.ofLine?_line rfl (by decide) depth
  have call := Clue.ofLine?_line (head?_callText gasReserve) (by decide) depth
  rw [Clue.ofText?_callText] at call
  unfold Instruction.callText at call
  have returned : Clue.ofLine? (line depth "returndatacopy(0, 0, returndatasize())").toList = none :=
    Clue.ofLine?_line rfl (by decide) depth
  have switch : Clue.ofLine? (line depth "switch result").toList = none := Clue.ofLine?_line rfl (by decide) depth
  have failed : Clue.ofLine? (line depth "case 0 \x7b revert(0, returndatasize()) \x7d").toList = none :=
    Clue.ofLine?_line rfl (by decide) depth
  have succeeded : Clue.ofLine? (line depth "default \x7b return(0, returndatasize()) \x7d").toList = none :=
    Clue.ofLine?_line rfl (by decide) depth
  simp only [Instruction.delegation, List.map_cons, List.map_nil, List.filterMap_cons, List.filterMap_nil, copied, call,
    returned, switch, failed, succeeded]

theorem clues_opening (depth : Nat) : Clue.ofLine? (line depth ("assembly " ++ "\x7b")).toList = none :=
  Clue.ofLine?_line rfl (by decide) depth

theorem clues_closing (depth : Nat) : Clue.ofLine? (line depth "\x7d").toList = none :=
  Clue.ofLine?_line rfl (by decide) depth

theorem clues_lines (i : Instruction) (depth : Nat) :
    (i.lines depth).filterMap (fun l => Clue.ofLine? l.toList) = i.clues := by
  cases i with
  | store slot value =>
    have clue := Clue.ofLine?_line (head?_storeText slot value) (by decide) depth
    rw [Clue.ofText?_storeText] at clue
    rw [Instruction.lines, List.filterMap_cons, clue]
    rfl
  | transfer token recipient amount =>
    have clue := Clue.ofLine?_line (head?_transferText token recipient amount) (by decide) depth
    rw [Clue.ofText?_transferText] at clue
    rw [Instruction.lines, List.filterMap_cons, clue]
    rfl
  | forward target gasReserve =>
    have clue := Clue.ofLine?_line (head?_targetText target) (by decide) depth
    rw [Clue.ofText?_targetText] at clue
    have inBlock := filterMap_block (f := fun l => Clue.ofLine? l.toList) (clues_opening depth) (clues_closing depth)
      ((Instruction.delegation gasReserve).map (line (depth + 1)))
    rw [Instruction.lines, List.filterMap_cons, clue, inBlock, clues_delegation]
    rfl

theorem readBody_body (depth : Nat) (is : List Instruction) : readBody ((body depth is).map String.toList) = is := by
  have told := filterMap_body (f := fun l => Clue.ofLine? l.toList) (clues_opening depth) (clues_closing depth)
    fun i (_ : i ∈ is) => clues_lines i
  rw [readBody, List.filterMap_map]
  exact (congrArg Clue.instructions told).trans (instructions_clues is)

/-! ## Programs -/

/-- The texts in front of the last mark and behind it. -/
def aroundLast (mark : Char) (cs : List Char) : List Char × List Char :=
  (((cs.reverse.dropWhile (· != mark)).drop 1).reverse, (cs.reverse.takeWhile (· != mark)).reverse)

/-- What stands in front of the name in a source. -/
def Program.front : String :=
  "pragma solidity ^0.5.6;\n\nimport \"SafeERC20.sol\";\n\ncontract "

/-- What stands between the name and the last `>` of a source. -/
def Program.back : String :=
  " \x7b\n\tmapping (address ="

/-- The program of a source. -/
def Program.ofSource (source : String) : Program :=
  let (start, rest) := aroundLast '>' source.toList
  let lines := Text.lines rest
  { name := String.ofList ((between? front back start).getD [])
    constructor := readBody (functionLines "\tconstructor()" lines)
    fallback := readBody (functionLines "\tfunction () external" lines) }

theorem aroundLast_append_cons {mark : Char} {bs : List Char} (h : mark ∉ bs) (as : List Char) :
    aroundLast mark (as ++ mark :: bs) = (as, bs) := by
  have marked : (as ++ mark :: bs).reverse = bs.reverse ++ mark :: as.reverse := by simp
  have clear : ∀ c ∈ bs.reverse, (c != mark) = true := by
    intro c hc
    simp only [bne_iff_ne, ne_eq]
    rintro rfl
    exact h (List.mem_reverse.1 hc)
  rw [aroundLast, marked, List.takeWhile_append_of_pos clear, List.takeWhile_cons_of_neg (by simp),
    List.dropWhile_append_of_pos clear, List.dropWhile_cons_of_neg (by simp)]
  simp

/-- The lines behind the last `>` of a source, the first of them cut. -/
def Program.linesBehind (p : Program) : List String :=
  " uint) internal privileges;" :: line 1 "address internal registryAddr;" :: "" ::
    (p.constructorLines ++ p.fallbackLines ++ [line 0 "\x7d"])

theorem Program.toList_source (p : Program) :
    p.source.toList =
      front.toList ++ p.name.toList ++ back.toList ++ '>' :: (String.join (p.linesBehind.map (· ++ "\n"))).toList := by
  simp [source, lines, linesBehind, contractLines, block, Storage.declarations, String.toList_join, front, back,
    line, languageVersion, librarySourceName]

theorem Program.avoids_linesBehind (p : Program) : ∀ l ∈ p.linesBehind, Avoids ['\n', '>'] l := by
  have inConstructor : ∀ l ∈ p.constructorLines, Avoids ['\n', '>'] l :=
    forall_constructorLines (by decide) (avoids_body 2 _)
  have inFallback : ∀ l ∈ p.fallbackLines, Avoids ['\n', '>'] l :=
    forall_fallbackLines (by decide) (avoids_body 2 _)
  have around : ∀ l ∈ [" uint) internal privileges;", line 1 "address internal registryAddr;", "", line 0 "\x7d"],
      Avoids ['\n', '>'] l := by
    decide
  intro l hl
  simp only [linesBehind, List.mem_cons, List.mem_append] at hl
  rcases hl with rfl | rfl | rfl | (hl | hl) | rfl | hl
  · exact around _ (by simp)
  · exact around _ (by simp)
  · exact around _ (by simp)
  · exact inConstructor l hl
  · exact inFallback l hl
  · exact around _ (by simp)
  · exact absurd hl List.not_mem_nil

theorem not_mem_join {c : Char} (hc : c ≠ '\n') {ls : List String} (h : ∀ l ∈ ls, c ∉ l.toList) :
    c ∉ (String.join (ls.map (· ++ "\n"))).toList := by
  intro hm
  rw [String.toList_join] at hm
  obtain ⟨l, hl, hm⟩ := List.mem_flatMap.1 hm
  obtain ⟨text, ht, rfl⟩ := List.mem_map.1 hl
  rw [String.toList_append] at hm
  rcases List.mem_append.1 hm with hm | hm
  · exact h text ht hm
  · exact hc (List.mem_singleton.1 hm)

/-- The lines of a function tell its instructions; the lines of its header tell nothing. -/
theorem readBody_function (is : List Instruction) :
    readBody ((line 1 "\x7b" :: body 2 is).map String.toList) = is ∧
      readBody ((line 2 "public" :: line 1 "\x7b" :: body 2 is).map String.toList) = is := by
  have opening : Clue.ofLine? (line 1 "\x7b").toList = none := rfl
  have mark : Clue.ofLine? (line 2 "public").toList = none := rfl
  have told := readBody_body 2 is
  rw [readBody] at told
  simp only [readBody, List.map_cons, List.filterMap_cons, opening, mark, told, and_self]

theorem functionLines_constructor (p : Program) :
    functionLines "\tconstructor()" (p.linesBehind.map String.toList ++ [[]]) =
      (line 2 "public" :: line 1 "\x7b" :: body 2 p.constructor).map String.toList := by
  have front : ∀ l ∈ [" uint) internal privileges;", line 1 "address internal registryAddr;", ""].map String.toList,
      l ≠ (line 1 "constructor()").toList := by
    decide
  have mark : ∀ l ∈ [line 2 "public"], l.toList ≠ "\t\x7d".toList := by decide
  have header : "\tconstructor()" = line 1 "constructor()" := rfl
  have found := functionLines_block front mark p.constructor
    ((p.fallbackLines ++ [line 0 "\x7d"]).map String.toList ++ [[]])
  rw [header]
  simpa [Program.linesBehind, Program.constructorLines] using found

theorem functionLines_fallback (p : Program) :
    functionLines "\tfunction () external" (p.linesBehind.map String.toList ++ [[]]) =
      if p.fallback.isEmpty then [] else (line 1 "\x7b" :: body 2 p.fallback).map String.toList := by
  have header : "\tfunction () external" = line 1 "function () external" := rfl
  have around : ∀ l ∈ [" uint) internal privileges;", line 1 "address internal registryAddr;", "", line 0 "\x7d"],
      l.toList ≠ (line 1 "function () external").toList := by
    decide
  have inConstructor : ∀ l ∈ p.constructorLines, l.toList ≠ (line 1 "function () external").toList :=
    Program.forall_constructorLines (by decide) fun l hl => ne_of_indented (indented_body 2 _ l hl) (by decide)
  have front : ∀ back ∈ [line 0 "\x7d", ""], ∀ l ∈ (" uint) internal privileges;" ::
      line 1 "address internal registryAddr;" :: "" :: (p.constructorLines ++ [back])).map String.toList,
      l ≠ (line 1 "function () external").toList := by
    intro back hb l hl
    obtain ⟨text, ht, rfl⟩ := List.mem_map.1 hl
    simp only [List.mem_cons, List.mem_append] at ht
    rcases ht with rfl | rfl | rfl | ht | rfl | ht
    · exact around _ (by simp)
    · exact around _ (by simp)
    · exact around _ (by simp)
    · exact inConstructor text ht
    · exact around text (by grind)
    · exact absurd ht List.not_mem_nil
  rw [header]
  split
  -- No line of a contract without a fallback function may look like the header of one.
  · rename_i h
    apply functionLines_eq_nil
    intro l hl
    rcases List.mem_append.1 hl with hl | hl
    · refine front (line 0 "\x7d") (by simp) l ?_
      simpa [Program.linesBehind, Program.fallbackLines, h] using hl
    · rw [List.mem_singleton.1 hl]
      decide
  · rename_i h
    have opening : ∀ l ∈ ([] : List String), l.toList ≠ "\t\x7d".toList := by simp
    have found := functionLines_block (front "" (by simp)) opening p.fallback
      ([line 0 "\x7d"].map String.toList ++ [[]])
    simpa [Program.linesBehind, Program.fallbackLines, h] using found

/-- Whatever the name holds, no `>` stands behind that of the first declaration. -/
theorem Program.aroundLast_source (p : Program) : aroundLast '>' p.source.toList =
    (front.toList ++ p.name.toList ++ back.toList, (String.join (p.linesBehind.map (· ++ "\n"))).toList) := by
  have last : '>' ∉ (String.join (p.linesBehind.map (· ++ "\n"))).toList :=
    not_mem_join (by decide) fun l hl => p.avoids_linesBehind l hl '>' (by decide)
  rw [toList_source, aroundLast_append_cons last]

theorem Program.lines_behind_source (p : Program) :
    Text.lines (aroundLast '>' p.source.toList).2 = p.linesBehind.map String.toList ++ [[]] := by
  rw [aroundLast_source]
  exact lines_join fun l hl => p.avoids_linesBehind l hl '\n' (by decide)

theorem Program.ofSource_source (p : Program) : ofSource p.source = p := by
  have cut := p.lines_behind_source
  rw [aroundLast_source] at cut
  rw [ofSource, aroundLast_source]
  simp only [cut, between?_append, functionLines_constructor, functionLines_fallback, Option.getD_some,
    String.ofList_toList, (readBody_function _).2]
  cases p with
  | mk name constructor fallback =>
    cases fallback with
    | nil => rfl
    | cons i is => exact congrArg (Program.mk name constructor) (readBody_function (i :: is)).1

/-- A source determines its program. -/
theorem Program.source_inj {p q : Program} : p.source = q.source ↔ p = q := by
  constructor
  · intro same
    calc
      p = ofSource p.source := (ofSource_source p).symm
      _ = ofSource q.source := by rw [same]
      _ = q := ofSource_source q
  · rintro rfl
    rfl

end ProxyForge.Contract
