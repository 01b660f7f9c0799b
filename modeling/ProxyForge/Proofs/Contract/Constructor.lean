import ProxyForge.Deployer
import ProxyForge.Proofs.Contract.Writes

/-!
# The constructor of the proxy

What the source of a proxy makes its constructor do, read from the lines of the source: the writes are those of the
privileges and then that of the registry (`writes_source`), and the transfer to the relayer stands behind them all
(`lines_source_transfer`).
-/

namespace ProxyForge.Proxy

open Contract Reading

/-! ## The constructor of the proxy -/

/-- The lines in front of the constructor. -/
def frontLines : List String :=
  ["pragma solidity ^0.5.6;", "", "import \"SafeERC20.sol\";", "", "contract IdentityProxy \x7b",
   "\tmapping (address => uint) internal privileges;", "\taddress internal registryAddr;", ""]

/-- The stores of the constructor. -/
def stores (r : Deployment) (writes : List (Word × Word)) : List Instruction :=
  writes.map (fun w => .store w.1 (.integer w.2)) ++ [.store Storage.registrySlot (.address r.registry)]

/-- The lines up to the transfer. -/
def linesBefore (r : Deployment) (writes : List (Word × Word)) : List String :=
  frontLines ++ line 1 "constructor()" :: line 2 "public" :: line 1 "\x7b" ::
    block 2 "assembly " ((stores r writes).flatMap (Instruction.lines 3))

/-- The lines behind the transfer. -/
def linesAfter (r : Deployment) (writes : List (Word × Word)) : List String :=
  line 1 "\x7d" :: (program r writes).fallbackLines ++ [line 0 "\x7d", ""]

theorem constructor_program (r : Deployment) (writes : List (Word × Word)) :
    (program r writes).constructor = stores r writes ++ [.transfer r.token r.relayer r.fee] := by
  simp [program, stores]

theorem isStore_of_mem_stores {r : Deployment} {writes : List (Word × Word)} :
    ∀ i ∈ stores r writes, i.isStore = true := by
  intro i hi
  rcases List.mem_append.1 hi with hi | hi
  · obtain ⟨w, -, rfl⟩ := List.mem_map.1 hi
    rfl
  · rw [List.mem_singleton.1 hi]
    rfl

theorem lines_program (r : Deployment) (writes : List (Word × Word)) :
    (program r writes).lines =
      frontLines ++ (program r writes).constructorLines ++ (program r writes).fallbackLines ++ [line 0 "\x7d"] := by
  simp [Program.lines, Program.contractLines, block, Storage.declarations, frontLines, line, program, contractName,
    languageVersion, librarySourceName]

theorem lines_source (r : Deployment) (writes : List (Word × Word)) :
    Text.lines (source r writes).toList = (program r writes).lines.map String.toList ++ [[]] := by
  have inFront : ∀ l ∈ frontLines, '\n' ∉ l.toList := by decide
  have inConstructor : ∀ l ∈ (program r writes).constructorLines, '\n' ∉ l.toList :=
    Program.forall_constructorLines (by decide) fun l hl => avoids_body 2 _ l hl '\n' (by decide)
  have inFallback : ∀ l ∈ (program r writes).fallbackLines, '\n' ∉ l.toList :=
    Program.forall_fallbackLines (by decide) fun l hl => avoids_body 2 _ l hl '\n' (by decide)
  refine lines_join fun l hl => ?_
  rw [lines_program] at hl
  simp only [List.mem_append] at hl
  rcases hl with ((hl | hl) | hl) | hl
  · exact inFront l hl
  · exact inConstructor l hl
  · exact inFallback l hl
  · rw [List.mem_singleton.1 hl]
    decide

theorem lines_source_transfer (r : Deployment) (writes : List (Word × Word)) :
    Text.lines (source r writes).toList =
      (linesBefore r writes ++ line 2 (Instruction.transferText r.token r.relayer r.fee) :: linesAfter r writes).map
        String.toList := by
  have nonempty : stores r writes ≠ [] := by simp [stores]
  have inside := body_concat isStore_of_mem_stores nonempty
    (show (Instruction.transfer r.token r.relayer r.fee).isStore = false from rfl) 2
  rw [← constructor_program r writes] at inside
  rw [lines_source, lines_program, Program.constructorLines, inside]
  simp [linesBefore, linesAfter, block, Instruction.lines]

/-- The writes of the constructor, as they are read from the source. -/
theorem writes_source (r : Deployment) (writes : List (Word × Word)) :
    (functionLines "\tconstructor()" (Text.lines (source r writes).toList)).filterMap write? =
      writes ++ [(Storage.registrySlot, r.registry.toWord)] := by
  have header : "\tconstructor()" = line 1 "constructor()" := rfl
  have front : ∀ l ∈ frontLines.map String.toList, l ≠ (line 1 "constructor()").toList := by decide
  have opening : ∀ l ∈ [line 2 "public"], l.toList ≠ "\t\x7d".toList := by decide
  have found := functionLines_block front opening (program r writes).constructor
    (((program r writes).fallbackLines ++ [line 0 "\x7d"]).map String.toList ++ [[]])
  have whole : Text.lines (source r writes).toList = frontLines.map String.toList ++
      (line 1 "constructor()" :: [line 2 "public"] ++ block 1 "" (body 2 (program r writes).constructor)).map
        String.toList ++ (((program r writes).fallbackLines ++ [line 0 "\x7d"]).map String.toList ++ [[]]) := by
    rw [lines_source, lines_program]
    simp [Program.constructorLines]
  have stored : ∀ i ∈ (program r writes).constructor, ∀ inner,
      (i.lines inner).filterMap (fun l => write? l.toList) = i.writes := by
    intro i hi inner
    refine writes_lines (fun target gasReserve => ?_) inner
    rintro rfl
    simp [program] at hi
  have inBody := filterMap_body (write?_eq_none rfl (by decide) (by decide) 2)
    (write?_eq_none rfl (by decide) (by decide) 2) stored
  have mark : write? (line 2 "public").toList = none := write?_eq_none rfl (by decide) (by decide) 2
  have brace : write? (line 1 "\x7b").toList = none := write?_eq_none rfl (by decide) (by decide) 1
  rw [whole, header, found, List.filterMap_map]
  simp only [Function.comp_def, List.singleton_append, List.filterMap_cons, mark, brace]
  rw [inBody]
  simp [program, Instruction.writes, List.flatMap_map, Operand.value]

theorem slots_source (r : Deployment) (writes : List (Word × Word)) :
    slotOf? "privileges" (Text.lines (source r writes).toList) = some 0 ∧
      slotOf? "registryAddr" (Text.lines (source r writes).toList) = some 1 := by
  have declared : declarations (Text.lines (source r writes).toList) =
      Storage.declarations.map fun l => (line 1 l).toList := by
    rw [lines_source, lines_program]
    rfl
  rw [slotOf?, slotOf?, declared]
  decide

theorem not_mentions_linesBefore (r : Deployment) (writes : List (Word × Word)) :
    ∀ l ∈ linesBefore r writes, ¬ Mentions "SafeERC20.transfer" l.toList := by
  have inFront : ∀ l ∈ frontLines, ¬ Mentions "SafeERC20.transfer" l.toList := by decide
  have header : ∀ l ∈ [line 1 "constructor()", line 2 "public", line 1 "\x7b"],
      ¬ Mentions "SafeERC20.transfer" l.toList := by
    decide
  have inside : ∀ l ∈ (stores r writes).flatMap (Instruction.lines 3), ¬ Mentions "SafeERC20.transfer" l.toList := by
    intro l hl
    obtain ⟨i, hi, hl⟩ := List.mem_flatMap.1 hl
    refine not_mentions_transfer (fun token recipient amount => ?_) 3 l hl
    rintro rfl
    exact absurd (isStore_of_mem_stores _ hi) Bool.false_ne_true
  have inBlock : ∀ l ∈ block 2 "assembly " ((stores r writes).flatMap (Instruction.lines 3)),
      ¬ Mentions "SafeERC20.transfer" l.toList :=
    forall_block (P := fun l => ¬ Mentions "SafeERC20.transfer" l.toList) (by decide) (by decide) inside
  intro l hl
  rcases List.mem_append.1 hl with hl | hl
  · exact inFront l hl
  · simp only [List.mem_cons] at hl
    rcases hl with rfl | rfl | rfl | hl
    · exact header _ (by simp)
    · exact header _ (by simp)
    · exact header _ (by simp)
    · exact inBlock l hl

theorem not_mentions_linesAfter (r : Deployment) (writes : List (Word × Word)) :
    ∀ l ∈ linesAfter r writes, ¬ Mentions "SafeERC20.transfer" l.toList ∧ ¬ Mentions "sstore" l.toList := by
  have around : ∀ l ∈ [line 1 "\x7d", line 0 "\x7d", ""],
      ¬ Mentions "SafeERC20.transfer" l.toList ∧ ¬ Mentions "sstore" l.toList := by
    decide
  have inForward : ∀ i ∈ (program r writes).fallback, ∀ depth, ∀ l ∈ i.lines depth,
      ¬ Mentions "SafeERC20.transfer" l.toList ∧ ¬ Mentions "sstore" l.toList := by
    intro i hi depth l hl
    rw [List.mem_singleton.1 hi] at hl
    exact ⟨not_mentions_transfer (by simp) depth l hl, not_mentions_sstore_forward _ _ depth l hl⟩
  have inFallback : ∀ l ∈ (program r writes).fallbackLines,
      ¬ Mentions "SafeERC20.transfer" l.toList ∧ ¬ Mentions "sstore" l.toList :=
    Program.forall_fallbackLines (P := fun l => ¬ Mentions "SafeERC20.transfer" l.toList ∧ ¬ Mentions "sstore" l.toList)
      (by decide) (forall_body (by decide) (by decide) (fun i hi => inForward i hi 3) fun i hi => inForward i hi 2)
  intro l hl
  simp only [linesAfter, List.mem_cons, List.mem_append] at hl
  rcases hl with (rfl | hl) | rfl | rfl | hl
  · exact around _ (by simp)
  · exact inFallback l hl
  · exact around _ (by simp)
  · exact around _ (by simp)
  · exact absurd hl List.not_mem_nil

/-- The last write of a privilege to a slot is that of the last privilege that is placed there. -/
theorem getLast?_privilegeWrites (hash : Storage.Hash) (r : Deployment) (slot : Word) :
    ((privilegeWrites hash r).filter (·.1 = slot)).getLast?.map Prod.snd =
      (r.privileges.filter fun p => hash (bigEndian 32 p.holder.toNat ++ bigEndian 32 0) = slot).getLast?.map
        Privilege.level := by
  have slotOf : ∀ p : Privilege, Storage.mappingSlot hash p.holder Storage.privilegesSlot =
      hash (bigEndian 32 p.holder.toNat ++ bigEndian 32 0) := by
    intro p
    rw [Storage.mappingSlot, Storage.preimage, Word.bytes, Word.bytes, Address.toNat_toWord]
    rfl
  rw [privilegeWrites, List.filter_map, List.getLast?_map, Option.map_map]
  simp only [Function.comp_def, slotOf]

end ProxyForge.Proxy

namespace ProxyForge.Deployer

open Contract Reading

/-- Running the stores of the constructor of a proxy, as its source gives them, leaves the registry in its slot and in
every other slot the level of the last privilege that is placed there; and the fee is paid once, behind all stores. -/
theorem constructed_source {σ : Type} (d : Deployer σ) (r : Deployment) :
    let lines := Text.lines (Proxy.source r (d.privilegeWrites r)).toList
    ∃ privileges registry : Nat,
      slotOf? "privileges" lines = some privileges ∧ slotOf? "registryAddr" lines = some registry ∧
      (constructed lines (BitVec.ofNat 256 registry)).toNat = r.registry.toNat ∧
      (∀ slot, slot ≠ BitVec.ofNat 256 registry →
        constructed lines slot =
          ((r.privileges.filter fun p =>
            d.hash (bigEndian 32 p.holder.toNat ++ bigEndian 32 privileges) = slot).getLast?.map Privilege.level).getD 0) ∧
      ∃ before transfer after, lines = before ++ transfer :: after ∧ Mentions "SafeERC20.transfer" transfer ∧
        (∀ l ∈ before ++ after, ¬ Mentions "SafeERC20.transfer" l) ∧ (∀ l ∈ after, ¬ Mentions "sstore" l) ∧
        transfer? (unindented transfer) = some (r.token, r.relayer, r.fee) := by
  intro lines
  have stored : constructed lines =
      Function.update (storageAfter (d.privilegeWrites r)) Storage.registrySlot r.registry.toWord := by
    rw [constructed, Proxy.writes_source, storageAfter_concat]
  have declared := Proxy.slots_source r (d.privilegeWrites r)
  -- The registry is written last, so it stays even where a privilege has the same slot.
  refine ⟨0, 1, declared.1, declared.2, ?_, ?_, ?_⟩
  · have slot : (BitVec.ofNat 256 1 : Word) = Storage.registrySlot := rfl
    rw [stored, slot, Function.update_self, Address.toNat_toWord]
  · intro slot other
    have elsewhere : slot ≠ Storage.registrySlot := other
    rw [stored, Function.update_of_ne elsewhere, storageAfter_apply, privilegeWrites, Proxy.getLast?_privilegeWrites]
  · have text := unindented_line (head?_transferText r.token r.relayer r.fee) (by decide) 2
    refine ⟨_, _, _, (Proxy.lines_source_transfer r (d.privilegeWrites r)).trans List.map_append, ?_, ?_, ?_, ?_⟩
    · exact mentions_transferText r.token r.relayer r.fee 2
    · intro l hl
      rcases List.mem_append.1 hl with hl | hl
      · obtain ⟨text, ht, rfl⟩ := List.mem_map.1 hl
        exact Proxy.not_mentions_linesBefore r (d.privilegeWrites r) text ht
      · obtain ⟨text, ht, rfl⟩ := List.mem_map.1 hl
        exact (Proxy.not_mentions_linesAfter r (d.privilegeWrites r) text ht).1
    · intro l hl
      obtain ⟨text, ht, rfl⟩ := List.mem_map.1 hl
      exact (Proxy.not_mentions_linesAfter r (d.privilegeWrites r) text ht).2
    · rw [text, transfer?_transferText]

end ProxyForge.Deployer
