import ProxyForge.Proofs.Contract.Constructor
import ProxyForge.Proofs.Contract.Mask

/-!
# The fields of a deployment in its source

Between lines that are the same in every proxy there is one line for each write, one for the registry, one for the
transfer and one for the logic contract (`lines_program_fields`), and each of them is made of its own fields alone. The
fields stand in them as literals, so sources with equally many writes have the same mask, line by line. The word of a
function or of a constructor needs letters that no literal has, so it is found in the fixed lines only, and once.
-/

namespace ProxyForge.Contract

/-! ## Counting words -/

/-- How often a word stands in a text. -/
def occurrences (word : String) : List Char → Nat
  | [] => 0
  | c :: cs => (if word.toList <+: c :: cs then 1 else 0) + occurrences word cs

section Occurrences

variable {word : String}

theorem prefix_append_cons_iff {c : Char} (hc : c ∉ word.toList) (as bs : List Char) :
    word.toList <+: as ++ c :: bs ↔ word.toList <+: as := by
  constructor
  · rintro ⟨rest, whole⟩
    rcases List.append_eq_append_iff.1 whole with ⟨more, inside, -⟩ | ⟨beyond, outside, behind⟩
    · exact ⟨more, inside.symm⟩
    · cases beyond with
      | nil => exact ⟨[], by rw [outside, List.append_nil, List.append_nil]⟩
      | cons e beyond =>
        have first : c = e := (List.cons.inj behind).1
        rw [outside, first] at hc
        exact absurd (List.mem_append_right _ List.mem_cons_self) hc
  · intro h
    exact h.trans (List.prefix_append _ _)

/-- A word is counted on both sides of a character that it does not have. -/
theorem occurrences_append_cons (nonempty : word.toList ≠ []) {c : Char} (hc : c ∉ word.toList) (as bs : List Char) :
    occurrences word (as ++ c :: bs) = occurrences word as + occurrences word bs := by
  induction as with
  | nil =>
    have none : ¬ word.toList <+: c :: bs := by
      intro h
      exact nonempty (List.prefix_nil.1 ((prefix_append_cons_iff hc [] bs).1 h))
    simp [occurrences, none]
  | cons a as ih =>
    have same := prefix_append_cons_iff hc (a :: as) bs
    rw [List.cons_append] at same
    rw [List.cons_append, occurrences, occurrences, ih, Nat.add_assoc]
    simp only [same]

theorem occurrences_eq_zero {cs : List Char} {c : Char} (hc : c ∈ word.toList) (h : c ∉ cs) :
    occurrences word cs = 0 := by
  induction cs with
  | nil => rfl
  | cons d cs ih =>
    have none : ¬ word.toList <+: d :: cs := fun whole => h (whole.subset hc)
    rw [occurrences, if_neg none, ih fun hm => h (List.mem_cons_of_mem _ hm)]

/-- A word without a line feed is counted line by line. -/
theorem occurrences_join (nonempty : word.toList ≠ []) (feed : '\n' ∉ word.toList) (ls : List String) :
    occurrences word (String.join (ls.map (· ++ "\n"))).toList = (ls.map fun l => occurrences word l.toList).sum := by
  rw [String.toList_join]
  induction ls with
  | nil => rfl
  | cons l ls ih =>
    have cut : (l ++ "\n").toList ++ (ls.map (· ++ "\n")).flatMap String.toList =
        l.toList ++ '\n' :: (ls.map (· ++ "\n")).flatMap String.toList := by
      simp
    rw [List.map_cons, List.flatMap_cons, cut, occurrences_append_cons nonempty feed, ih, List.map_cons, List.sum_cons]

end Occurrences

/-! ## Lines with fields -/

/-- What a line says of a deployment, by the words that stand in it. -/
inductive LineKind where
  | store
  | transfer
  | target
  | fixed
  deriving DecidableEq, Repr

/-- The kind of a line. -/
def lineKind (l : List Char) : LineKind :=
  if Mentions "sstore" l then .store
  else if Mentions "SafeERC20.transfer" l then .transfer
  else if Mentions "address to" l then .target
  else .fixed

end ProxyForge.Contract

namespace ProxyForge.Proxy

open Contract Reading

/-! ## The lines of a proxy -/

/-- The line of a write. -/
def storeLine (w : Word × Word) : String :=
  line 3 (Instruction.storeText w.1 (.integer w.2))

/-- The line that stores the registry. -/
def registryLine (registry : Address) : String :=
  line 3 (Instruction.storeText Storage.registrySlot (.address registry))

/-- The line that pays the relayer. -/
def transferLine (token relayer : Address) (fee : Word) : String :=
  line 2 (Instruction.transferText token relayer fee)

/-- The line that names the logic contract. -/
def targetLine (logic : Address) : String :=
  line 2 (Instruction.targetText logic)

/-- The lines in front of the writes. -/
def headLines : List String :=
  frontLines ++ ["\tconstructor()", "\t\tpublic", "\t\x7b", "\t\tassembly \x7b"]

/-- The line between the stores and the transfer. -/
def storedLines : List String :=
  ["\t\t\x7d"]

/-- The lines between the transfer and the logic contract. -/
def paidLines : List String :=
  ["\t\x7d", "", "\tfunction () external", "\t\x7b"]

/-- The lines behind the logic contract. -/
def forwardLines : List String :=
  ["\t\tassembly \x7b",
   "\t\t\tcalldatacopy(0, 0, calldatasize())",
   "\t\t\tlet result := delegatecall(sub(gas(), 10000), to, 0, calldatasize(), 0, 0)",
   "\t\t\treturndatacopy(0, 0, returndatasize())",
   "\t\t\tswitch result",
   "\t\t\tcase 0 \x7b revert(0, returndatasize()) \x7d",
   "\t\t\tdefault \x7b return(0, returndatasize()) \x7d",
   "\t\t\x7d", "\t\x7d", "\x7d"]

theorem fallbackLines_program (r : Deployment) (writes : List (Word × Word)) :
    (program r writes).fallbackLines ++ [line 0 "\x7d"] =
      ["", "\tfunction () external", "\t\x7b"] ++ targetLine r.logic :: forwardLines := by
  have body : body 2 (program r writes).fallback = (Instruction.forward r.logic gasReserve).lines 2 := by
    simp [program, body, segments, segmentLines, Instruction.isStore]
  rw [Program.fallbackLines, body]
  rfl

theorem lines_program_fields (r : Deployment) (writes : List (Word × Word)) :
    (program r writes).lines = headLines ++ writes.map storeLine ++ [registryLine r.registry] ++ storedLines ++
      [transferLine r.token r.relayer r.fee] ++ paidLines ++ [targetLine r.logic] ++ forwardLines := by
  have nonempty : stores r writes ≠ [] := by simp [stores]
  have inside := body_concat isStore_of_mem_stores nonempty
    (show (Instruction.transfer r.token r.relayer r.fee).isStore = false from rfl) 2
  rw [← constructor_program r writes] at inside
  have written : ∀ w : Word × Word, (Instruction.store w.1 (.integer w.2)).lines 3 = [storeLine w] := fun _ => rfl
  have stored : (stores r writes).flatMap (Instruction.lines 3) =
      writes.map storeLine ++ [registryLine r.registry] := by
    simp only [stores, List.flatMap_append, List.flatMap_map, written, List.flatMap_singleton, ← List.map_eq_flatMap]
    rfl
  rw [lines_program, List.append_assoc, fallbackLines_program, Program.constructorLines, inside, stored]
  simp only [headLines, storedLines, paidLines, block, Instruction.lines, transferLine, List.cons_append,
    List.append_assoc, List.nil_append]
  rfl

theorem lines_source_fields (r : Deployment) (writes : List (Word × Word)) :
    Text.lines (source r writes).toList = (headLines ++ writes.map storeLine ++ [registryLine r.registry] ++
      storedLines ++ [transferLine r.token r.relayer r.fee] ++ paidLines ++ [targetLine r.logic] ++ forwardLines ++
        [""]).map String.toList := by
  have last : ([[]] : List (List Char)) = [""].map String.toList := rfl
  rw [lines_source, lines_program_fields, last, ← List.map_append]

/-! ## The lines with fields -/

/-- The template of a store. -/
def storeTemplate : Template where
  front := "\t\t\tsstore(".toList
  parts := [", ".toList, ")".toList]
  ends := by decide
  apart := by decide

/-- The template of a transfer. -/
def transferTemplate : Template where
  front := "\t\tSafeERC20.transfer(address(".toList
  parts := ["), address(".toList, "), uint256(".toList, "));".toList]
  ends := by decide
  apart := by decide

/-- The template of the line that names the logic contract. -/
def targetTemplate : Template where
  front := "\t\taddress to = address(".toList
  parts := [");".toList]
  ends := by decide
  apart := by decide

theorem storeTemplate_fits (slot : Word) (value : Operand) :
    storeTemplate.Fits (line 3 (Instruction.storeText slot value)).toList := by
  have text : (line 3 (Instruction.storeText slot value)).toList = "\t\t\tsstore(".toList ++
      alternated ['0' :: 'x' :: slot.hex.toList, value.literal.toList] [", ".toList, ")".toList] := by
    simp [toList_line, alternated, Instruction.storeText]
  have digits : IsLiteral ('0' :: 'x' :: slot.hex.toList) := Word.toList_hex slot ▸ isLiteral_encode slot.bytes
  have rooms : storeTemplate.parts.length = 2 := rfl
  rw [text]
  exact .fill ['0' :: 'x' :: slot.hex.toList, value.literal.toList] (by simp [digits, isLiteral_literal]) rooms.symm

theorem transferTemplate_fits (token relayer : Address) (fee : Word) :
    transferTemplate.Fits (transferLine token relayer fee).toList := by
  have text : (transferLine token relayer fee).toList = "\t\tSafeERC20.transfer(address(".toList ++
      alternated [token.checksummed.toList, relayer.checksummed.toList, fee.decimal.toList]
        ["), address(".toList, "), uint256(".toList, "));".toList] := by
    simp [transferLine, toList_line, alternated, Instruction.transferText, libraryName]
  have rooms : transferTemplate.parts.length = 3 := rfl
  rw [text]
  exact .fill [token.checksummed.toList, relayer.checksummed.toList, fee.decimal.toList]
    (by simp [isLiteral_checksummed, isLiteral_decimal]) rooms.symm

theorem targetTemplate_fits (logic : Address) : targetTemplate.Fits (targetLine logic).toList := by
  have text : (targetLine logic).toList =
      "\t\taddress to = address(".toList ++ alternated [logic.checksummed.toList] [");".toList] := by
    unfold targetLine Instruction.targetText
    simp [toList_line, alternated]
  have rooms : targetTemplate.parts.length = 1 := rfl
  rw [text]
  exact .fill [logic.checksummed.toList] (by simp [isLiteral_checksummed]) rooms.symm

/-! ### Missing letters -/

theorem n_not_mem_store (slot : Word) (value : Operand) : 'n' ∉ (line 3 (Instruction.storeText slot value)).toList :=
  (storeTemplate_fits slot value).not_mem (by decide) (by decide) (by decide)

theorem o_not_mem_transferLine (token relayer : Address) (fee : Word) : 'o' ∉ (transferLine token relayer fee).toList :=
  (transferTemplate_fits token relayer fee).not_mem (by decide) (by decide) (by decide)

theorem n_not_mem_targetLine (logic : Address) : 'n' ∉ (targetLine logic).toList :=
  (targetTemplate_fits logic).not_mem (by decide) (by decide) (by decide)

/-! ### Kinds -/

theorem lineKind_store (slot : Word) (value : Operand) :
    lineKind (line 3 (Instruction.storeText slot value)).toList = .store := by
  have word : Mentions "sstore" (line 3 (Instruction.storeText slot value)).toList :=
    (storeTemplate_fits slot value).mentions (by decide)
  unfold lineKind
  rw [if_pos word]

theorem lineKind_transferLine (token relayer : Address) (fee : Word) :
    lineKind (transferLine token relayer fee).toList = .transfer := by
  have noStore : ¬ Mentions "sstore" (transferLine token relayer fee).toList :=
    not_mentions_of_not_mem (by decide) (o_not_mem_transferLine token relayer fee)
  have word : Mentions "SafeERC20.transfer" (transferLine token relayer fee).toList :=
    (transferTemplate_fits token relayer fee).mentions (by decide)
  unfold lineKind
  rw [if_neg noStore, if_pos word]

theorem lineKind_targetLine (logic : Address) : lineKind (targetLine logic).toList = .target := by
  -- All letters of `sstore` are in the line, so that it does not stand there is seen by cutting the line.
  have noStore : ¬ Mentions "sstore" (targetLine logic).toList :=
    not_mentions_line (by decide) (not_mentions_sstore_targetText logic) 2
  have noTransfer : ¬ Mentions "SafeERC20.transfer" (targetLine logic).toList :=
    not_mentions_of_not_mem (by decide) (n_not_mem_targetLine logic)
  have word : Mentions "address to" (targetLine logic).toList := (targetTemplate_fits logic).mentions (by decide)
  unfold lineKind
  rw [if_neg noStore, if_neg noTransfer, if_pos word]

theorem lineKind_fixed : ∀ l ∈ headLines ++ storedLines ++ paidLines ++ forwardLines ++ [""],
    lineKind l.toList = .fixed := by
  decide +kernel

/-! ## Sources -/

/-- What is the same for all lines of a kind is decided by the number of writes. -/
theorem map_lines_source {β : Type} {f : List Char → β} {store transfer target : β}
    (ofStore : ∀ slot value, f (line 3 (Instruction.storeText slot value)).toList = store)
    (ofTransfer : ∀ token relayer fee, f (transferLine token relayer fee).toList = transfer)
    (ofTarget : ∀ logic, f (targetLine logic).toList = target) (r : Deployment) (writes : List (Word × Word)) :
    let fixed (ls : List String) := ls.map (f ·.toList)
    (Text.lines (source r writes).toList).map f = fixed headLines ++ List.replicate writes.length store ++ [store] ++
      fixed storedLines ++ [transfer] ++ fixed paidLines ++ [target] ++ fixed forwardLines ++ [f []] := by
  intro fixed
  have written : writes.map (fun w => f (storeLine w).toList) = List.replicate writes.length store := by
    rw [← List.map_const]
    exact List.map_congr_left fun w _ => ofStore w.1 (.integer w.2)
  have registered : f (registryLine r.registry).toList = store := ofStore _ _
  rw [lines_source_fields]
  simp only [fixed, List.map_append, List.map_cons, List.map_nil, List.map_map, Function.comp_def, written, registered,
    ofTransfer, ofTarget]
  rfl

/-- Lines of one kind are kept or left out together. -/
theorem filter_lineKind {ls : List String} {kind : LineKind} (h : ∀ l ∈ ls, lineKind l.toList = kind) (k : LineKind) :
    (ls.map String.toList).filter (lineKind · = k) = if kind = k then ls.map String.toList else [] := by
  split
  · rename_i same
    simp only [List.filter_eq_self, List.forall_mem_map, decide_eq_true_eq]
    exact fun l hl => (h l hl).trans same
  · rename_i other
    simp only [List.filter_eq_nil_iff, List.forall_mem_map, decide_eq_true_eq]
    exact fun l hl same => other ((h l hl).symm.trans same)

/-- The lines of a source by their kinds. -/
theorem filter_lines_source (k : LineKind) (r : Deployment) (writes : List (Word × Word)) :
    (Text.lines (source r writes).toList).filter (lineKind · = k) = match k with
      | .store => (writes.map storeLine ++ [registryLine r.registry]).map String.toList
      | .transfer => [(transferLine r.token r.relayer r.fee).toList]
      | .target => [(targetLine r.logic).toList]
      | .fixed => (headLines ++ storedLines ++ paidLines ++ forwardLines ++ [""]).map String.toList := by
  have fixed := lineKind_fixed
  simp only [List.forall_mem_append] at fixed
  obtain ⟨⟨⟨⟨head, stored⟩, paid⟩, forward⟩, last⟩ := fixed
  have written : ∀ l ∈ writes.map storeLine, lineKind l.toList = .store :=
    List.forall_mem_map.2 fun w _ => lineKind_store _ _
  have registered : ∀ l ∈ [registryLine r.registry], lineKind l.toList = .store :=
    List.forall_mem_singleton.2 (lineKind_store _ _)
  have transferred : ∀ l ∈ [transferLine r.token r.relayer r.fee], lineKind l.toList = .transfer :=
    List.forall_mem_singleton.2 (lineKind_transferLine _ _ _)
  have named : ∀ l ∈ [targetLine r.logic], lineKind l.toList = .target :=
    List.forall_mem_singleton.2 (lineKind_targetLine _)
  rw [lines_source_fields]
  simp only [List.map_append, List.filter_append, filter_lineKind head, filter_lineKind stored, filter_lineKind paid,
    filter_lineKind forward, filter_lineKind last, filter_lineKind written, filter_lineKind registered,
    filter_lineKind transferred, filter_lineKind named]
  cases k <;> simp

theorem occurrences_source {word : String} (feed : '\n' ∉ word.toList) (n : 'n' ∈ word.toList) (o : 'o' ∈ word.toList)
    (r : Deployment) (writes : List (Word × Word)) :
    occurrences word (source r writes).toList =
      ((headLines ++ storedLines ++ paidLines ++ forwardLines).map fun l => occurrences word l.toList).sum := by
  have nonempty : word.toList ≠ [] := List.ne_nil_of_mem n
  -- A transfer has an `n` and the other lines with fields have an `o`, so no one letter does for all of them.
  have inStores : ∀ slot value, occurrences word (line 3 (Instruction.storeText slot value)).toList = 0 :=
    fun slot value => occurrences_eq_zero n (n_not_mem_store slot value)
  have inWrites : ((writes.map storeLine).map fun l => occurrences word l.toList).sum = 0 := by
    have each : ∀ l ∈ writes.map storeLine, occurrences word l.toList = 0 :=
      List.forall_mem_map.2 fun w _ => inStores w.1 (.integer w.2)
    rw [List.map_congr_left each, List.map_const', List.sum_replicate_nat, Nat.mul_zero]
  have inRegistry : occurrences word (registryLine r.registry).toList = 0 := inStores _ _
  have inTransfer : occurrences word (transferLine r.token r.relayer r.fee).toList = 0 :=
    occurrences_eq_zero o (o_not_mem_transferLine _ _ _)
  have inTarget : occurrences word (targetLine r.logic).toList = 0 :=
    occurrences_eq_zero n (n_not_mem_targetLine _)
  rw [source, Program.source, occurrences_join nonempty feed, lines_program_fields]
  simp only [List.map_append, List.map_cons, List.map_nil, List.sum_append, List.sum_cons, List.sum_nil, inWrites,
    inRegistry, inTransfer, inTarget, Nat.add_zero]

theorem occurrences_function (r : Deployment) (writes : List (Word × Word)) :
    occurrences "function " (source r writes).toList = 1 := by
  rw [occurrences_source (by decide) (by decide) (by decide)]
  decide +kernel

theorem occurrences_constructor (r : Deployment) (writes : List (Word × Word)) :
    occurrences "constructor" (source r writes).toList = 1 := by
  rw [occurrences_source (by decide) (by decide) (by decide)]
  decide +kernel

/-- Each field of a deployment stands in a line of its own kind, where it is read back, and the lines around these are
the same in all proxies: the lines that store are one for each write and one for the registry, the transfer says the
token, the relayer and the fee, and one more line says the address of the logic contract. Sources with equally many
writes are equal line by line except in literals, and no source has a second function or constructor. -/
theorem source_fields (d d' : Deployment) (writes writes' : List (Word × Word)) :
    let lines := Text.lines (source d writes).toList
    let lines' := Text.lines (source d' writes').toList
    lines = (headLines ++ writes.map storeLine ++ [registryLine d.registry] ++ storedLines ++
      [transferLine d.token d.relayer d.fee] ++ paidLines ++ [targetLine d.logic] ++ forwardLines ++ [""]).map
        String.toList ∧
    lines.filter (lineKind · = .store) = (writes.map storeLine ++ [registryLine d.registry]).map String.toList ∧
    lines.filter (lineKind · = .transfer) = [(transferLine d.token d.relayer d.fee).toList] ∧
    lines.filter (lineKind · = .target) = [(targetLine d.logic).toList] ∧
    lines.filter (lineKind · = .fixed) = lines'.filter (lineKind · = .fixed) ∧
    (writes.length = writes'.length →
      lines.length = lines'.length ∧ lines.map lineKind = lines'.map lineKind ∧
        lines.map masked = lines'.map masked) ∧
    (lines.filter (lineKind · = .store)).map write? =
      (writes ++ [(Storage.registrySlot, d.registry.toWord)]).map some ∧
    (lines.filter (lineKind · = .transfer)).map (transfer? ∘ unindented) = [some (d.token, d.relayer, d.fee)] ∧
    (lines.filter (lineKind · = .target)).map (target? ∘ unindented) = [some d.logic] ∧
    occurrences "function " (source d writes).toList = 1 ∧
    occurrences "constructor" (source d writes).toList = 1 := by
  intro lines lines'
  have stores : lines.filter (lineKind · = .store) = (writes.map storeLine ++ [registryLine d.registry]).map _ :=
    filter_lines_source .store d writes
  have transfers : lines.filter (lineKind · = .transfer) = [(transferLine d.token d.relayer d.fee).toList] :=
    filter_lines_source .transfer d writes
  have targets : lines.filter (lineKind · = .target) = [(targetLine d.logic).toList] :=
    filter_lines_source .target d writes
  refine ⟨lines_source_fields d writes, stores, transfers, targets, ?_, fun same => ?_, ?_, ?_, ?_,
    occurrences_function d writes, occurrences_constructor d writes⟩
  · exact (filter_lines_source .fixed d writes).trans (filter_lines_source .fixed d' writes').symm
  · have kinds : lines.map lineKind = lines'.map lineKind := by
      simp only [lines, lines', map_lines_source lineKind_store lineKind_transferLine lineKind_targetLine, same]
    have masks : lines.map masked = lines'.map masked := by
      simp only [lines, lines', map_lines_source (fun slot value => (storeTemplate_fits slot value).masked_eq)
        (fun token relayer fee => (transferTemplate_fits token relayer fee).masked_eq)
        (fun logic => (targetTemplate_fits logic).masked_eq), same]
    have count : lines.length = lines'.length := by
      rw [← List.length_map lineKind, kinds, List.length_map]
    exact ⟨count, kinds, masks⟩
  · have written : ∀ w, write? (storeLine w).toList = some w := fun w => write?_storeText w.1 (.integer w.2) 3
    have registered : write? (registryLine d.registry).toList = some (Storage.registrySlot, d.registry.toWord) :=
      write?_storeText Storage.registrySlot (.address d.registry) 3
    simp [stores, written, registered]
  · have text := unindented_line (head?_transferText d.token d.relayer d.fee) (by decide) 2
    rw [transfers, List.map_singleton, Function.comp_apply, transferLine, text, transfer?_transferText]
  · have text := unindented_line (head?_targetText d.logic) (by decide) 2
    rw [targets, List.map_singleton, Function.comp_apply, targetLine, text, target?_targetText]

end ProxyForge.Proxy
