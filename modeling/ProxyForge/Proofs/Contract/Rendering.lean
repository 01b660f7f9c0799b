import ProxyForge.Proofs.Contract.Reading

/-!
# The lines of a source

What holds of the fixed lines and of the lines of every instruction holds of whole functions (`forall_body`,
`forall_constructorLines`, `forall_fallbackLines`), and what a body tells is what its instructions tell one by one
(`filterMap_body`); an instruction other than a store parts a body in two (`body_append_cons`). A line of a body has
no line feed (`avoids_body`), so lines are found again by cutting the source (`lines_join`); and it is indented by a
tab for each block around it (`indented_body`), so none is taken for the brace that closes its function
(`functionLines_block`).
-/

namespace ProxyForge.Contract

theorem toList_line (depth : Nat) (text : String) :
    (line depth text).toList = List.replicate depth '\t' ++ text.toList := by
  rw [line, String.toList_append, String.toList_ofList]

theorem unindented_line {text : String} {c : Char} (head : text.toList.head? = some c) (ne : c ≠ '\t') (depth : Nat) :
    Reading.unindented (line depth text).toList = text.toList := by
  have unindentedHead : text.toList.head? ≠ some '\t' := by
    rw [head]
    exact fun h => ne (Option.some.inj h)
  rw [toList_line, Reading.unindented_replicate unindentedHead]

/-- Lines of a block are its braces and the lines inside. -/
theorem forall_block {P : String → Prop} {depth : Nat} {header : String} {inside : List String}
    (opening : P (line depth (header ++ "\x7b"))) (closing : P (line depth "\x7d")) (h : ∀ l ∈ inside, P l) :
    ∀ l ∈ block depth header inside, P l := by
  intro l hl
  rcases List.mem_append.1 hl with hl | hl
  · rcases List.mem_cons.1 hl with rfl | hl
    · exact opening
    · exact h l hl
  · rw [List.mem_singleton.1 hl]
    exact closing

theorem mem_of_mem_segments {is segment : List Instruction} {i : Instruction} (hs : segment ∈ segments is)
    (hi : i ∈ segment) : i ∈ is := by
  rw [← flatten_segments is]
  exact List.mem_flatten_of_mem hs hi

/-- Lines of a body are lines of its instructions, at one of two depths, or the braces of assembly blocks. -/
theorem forall_body {P : String → Prop} {depth : Nat} (opening : P (line depth ("assembly " ++ "\x7b")))
    (closing : P (line depth "\x7d")) {is : List Instruction}
    (inside : ∀ i ∈ is, ∀ l ∈ i.lines (depth + 1), P l) (outside : ∀ i ∈ is, ∀ l ∈ i.lines depth, P l) :
    ∀ l ∈ body depth is, P l := by
  intro l hl
  obtain ⟨segment, hs, hl⟩ := List.mem_flatMap.1 hl
  rw [segmentLines] at hl
  split at hl
  · apply forall_block opening closing _ l hl
    intro l hl
    obtain ⟨i, hi, hl⟩ := List.mem_flatMap.1 hl
    exact inside i (mem_of_mem_segments hs hi) l hl
  · obtain ⟨i, hi, hl⟩ := List.mem_flatMap.1 hl
    exact outside i (mem_of_mem_segments hs hi) l hl

/-- Lines of the constructor are the fixed ones around its body and the lines of this. -/
theorem Program.forall_constructorLines {P : String → Prop} {p : Program}
    (fixed : ∀ l ∈ [line 1 "constructor()", line 2 "public", line 1 "\x7b", line 1 "\x7d"], P l)
    (inside : ∀ l ∈ body 2 p.constructor, P l) : ∀ l ∈ p.constructorLines, P l := by
  intro l hl
  simp only [constructorLines, List.mem_cons] at hl
  rcases hl with rfl | rfl | hl
  · exact fixed _ (by simp)
  · exact fixed _ (by simp)
  · exact forall_block (fixed _ (by simp)) (fixed _ (by simp)) inside l hl

/-- Lines of the fallback function are the fixed ones around its body and the lines of this. -/
theorem Program.forall_fallbackLines {P : String → Prop} {p : Program}
    (fixed : ∀ l ∈ ["", line 1 "function () external", line 1 "\x7b", line 1 "\x7d"], P l)
    (inside : ∀ l ∈ body 2 p.fallback, P l) : ∀ l ∈ p.fallbackLines, P l := by
  intro l hl
  rw [fallbackLines] at hl
  split at hl
  · exact absurd hl List.not_mem_nil
  · simp only [List.mem_cons] at hl
    rcases hl with rfl | rfl | hl
    · exact fixed _ (by simp)
    · exact fixed _ (by simp)
    · exact forall_block (fixed _ (by simp)) (fixed _ (by simp)) inside l hl

/-- The line of a delegated call. -/
def Instruction.callText (gasReserve : UInt64) : String :=
  "let result := delegatecall(sub(gas(), " ++ toString gasReserve.toNat ++ "), to, 0, calldatasize(), 0, 0)"

/-- The lines in front of a delegated call and behind it. -/
def Instruction.aroundCall : List String :=
  ["calldatacopy(0, 0, calldatasize())", "returndatacopy(0, 0, returndatasize())", "switch result",
   "case 0 \x7b revert(0, returndatasize()) \x7d", "default \x7b return(0, returndatasize()) \x7d"]

/-- Of the lines that hand over a call only that of the call itself depends on the instruction. -/
theorem forall_delegation {P : String → Prop} {gasReserve : UInt64} (around : ∀ l ∈ Instruction.aroundCall, P l)
    (call : P (Instruction.callText gasReserve)) : ∀ l ∈ Instruction.delegation gasReserve, P l := by
  intro l hl
  rw [Instruction.delegation] at hl
  rcases List.mem_cons.1 hl with first | hl
  · rw [first]
    exact around _ List.mem_cons_self
  · rcases List.mem_cons.1 hl with second | hl
    · rw [second]
      exact call
    · exact around l (List.mem_cons_of_mem _ hl)

/-- Another instruction than a store is a segment of its own, and parts those in front of it from those behind it. -/
theorem segments_append_cons {i : Instruction} (other : i.isStore = false) (before after : List Instruction) :
    segments (before ++ i :: after) = segments before ++ [i] :: segments after := by
  induction before with
  | nil =>
    show segments (i :: after) = [i] :: segments after
    rw [segments]
    split
    · rename_i first
      simp [other, first]
    · rfl
  | cons b before ih =>
    rw [List.cons_append, segments, segments, ih]
    cases segments before with
    | nil => simp [other]
    | cons run rest =>
      cases run with
      | nil => rfl
      | cons j run =>
        simp only [List.cons_append]
        split <;> rfl

theorem segments_cons {i : Instruction} (other : i.isStore = false) (rest : List Instruction) :
    segments (i :: rest) = [i] :: segments rest :=
  segments_append_cons other [] rest

/-- Another instruction than a store parts the lines of a body. -/
theorem body_append_cons {i : Instruction} (other : i.isStore = false) (before after : List Instruction)
    (depth : Nat) : body depth (before ++ i :: after) = body depth before ++ i.lines depth ++ body depth after := by
  simp [body, segments_append_cons other, segmentLines, other]

/-- What is told by the lines of a block, when its braces tell nothing. -/
theorem filterMap_block {β : Type} {f : String → Option β} {depth : Nat} {header : String}
    (opening : f (line depth (header ++ "\x7b")) = none) (closing : f (line depth "\x7d") = none)
    (inside : List String) : (block depth header inside).filterMap f = inside.filterMap f := by
  rw [block, List.filterMap_append, List.filterMap_cons, opening, List.filterMap_cons, closing, List.filterMap_nil,
    List.append_nil]

/-- What is told by the lines of a body is what its instructions tell, one by one, however stores are grouped. -/
theorem filterMap_body {β : Type} {f : String → Option β} {told : Instruction → List β} {depth : Nat}
    (opening : f (line depth ("assembly " ++ "\x7b")) = none) (closing : f (line depth "\x7d") = none)
    {is : List Instruction} (h : ∀ i ∈ is, ∀ inner, (i.lines inner).filterMap f = told i) :
    (body depth is).filterMap f = is.flatMap told := by
  have inSegment : ∀ segment ∈ segments is, (segmentLines depth segment).filterMap f = segment.flatMap told := by
    intro segment hs
    have one : ∀ inner, (segment.flatMap (Instruction.lines inner)).filterMap f = segment.flatMap told := by
      intro inner
      rw [List.filterMap_flatMap]
      apply List.flatMap_congr
      intro i hi
      exact h i (mem_of_mem_segments hs hi) inner
    rw [segmentLines]
    split
    · rw [filterMap_block opening closing, one]
    · exact one depth
  calc
    (body depth is).filterMap f = (segments is).flatMap fun segment => (segmentLines depth segment).filterMap f := by
      rw [body, List.filterMap_flatMap]
    _ = (segments is).flatMap fun segment => segment.flatMap told := List.flatMap_congr inSegment
    _ = (segments is).flatten.flatMap told := by rw [List.flatten_eq_flatMap, List.flatMap_assoc]; rfl
    _ = is.flatMap told := by rw [flatten_segments]

/-- Lines without line feeds are found again by cutting the text at its line feeds. -/
theorem lines_join {ls : List String} (h : ∀ l ∈ ls, '\n' ∉ l.toList) :
    Text.lines (String.join (ls.map (· ++ "\n"))).toList = ls.map String.toList ++ [[]] := by
  rw [String.toList_join]
  induction ls with
  | nil => rfl
  | cons l ls ih =>
    have first : Text.splitAtEvery (· == '\n') l.toList = [l.toList] := by
      refine Text.splitAtEvery_of_forall fun c hc => ?_
      simp only [beq_eq_false_iff_ne, ne_eq]
      rintro rfl
      exact h l (by simp) hc
    have rest := ih fun m hm => h m (by simp [hm])
    have cut : (l ++ "\n").toList ++ (ls.map (· ++ "\n")).flatMap String.toList =
        l.toList ++ '\n' :: (ls.map (· ++ "\n")).flatMap String.toList := by
      simp
    rw [List.map_cons, List.flatMap_cons, cut, Text.lines, Text.splitAtEvery_append_cons rfl, first]
    exact congrArg (l.toList :: ·) rest

/-! ## First characters -/

theorem head?_storeText (slot : Word) (value : Operand) :
    (Instruction.storeText slot value).toList.head? = some 's' := by
  simp only [Instruction.storeText, String.toList_append, List.head?_append]
  rfl

theorem head?_transferText (token recipient : Address) (amount : Word) :
    (Instruction.transferText token recipient amount).toList.head? = some 'S' := by
  simp only [Instruction.transferText, String.toList_append, List.head?_append]
  rfl

theorem head?_targetText (target : Address) : (Instruction.targetText target).toList.head? = some 'a' := by
  unfold Instruction.targetText
  simp only [String.toList_append, List.head?_append]
  rfl

theorem head?_callText (gasReserve : UInt64) : (Instruction.callText gasReserve).toList.head? = some 'l' := by
  unfold Instruction.callText
  generalize toString gasReserve.toNat = digits
  simp only [String.toList_append, List.head?_append]
  rfl

/-! ## Indentation -/

/-- A line inside a number of blocks, perhaps inside more of them. -/
def Indented (depth : Nat) (text : String) : Prop :=
  List.replicate depth '\t' <+: text.toList

theorem indented_line {depth inner : Nat} (h : depth ≤ inner) (text : String) : Indented depth (line inner text) := by
  obtain ⟨more, rfl⟩ := Nat.exists_eq_add_of_le h
  rw [Indented, toList_line, ← List.replicate_append_replicate, List.append_assoc]
  exact List.prefix_append _ _

theorem indented_lines {depth inner : Nat} (h : depth ≤ inner) (i : Instruction) :
    ∀ l ∈ i.lines inner, Indented depth l := by
  intro l hl
  cases i with
  | store slot value =>
    rw [List.mem_singleton.1 hl]
    exact indented_line h _
  | transfer token recipient amount =>
    rw [List.mem_singleton.1 hl]
    exact indented_line h _
  | forward target gasReserve =>
    rcases List.mem_cons.1 hl with rfl | hl
    · exact indented_line h _
    · apply forall_block (indented_line h _) (indented_line h _) _ l hl
      intro l hl
      obtain ⟨text, -, rfl⟩ := List.mem_map.1 hl
      exact indented_line (Nat.le_succ_of_le h) text

theorem indented_body (depth : Nat) (is : List Instruction) : ∀ l ∈ body depth is, Indented depth l :=
  forall_body (indented_line (Nat.le_refl _) _) (indented_line (Nat.le_refl _) _)
    (fun i _ => indented_lines (Nat.le_succ _) i) (fun i _ => indented_lines (Nat.le_refl _) i)

/-! ## Functions -/

theorem ne_of_indented {depth : Nat} {l text : String} (h : Indented depth l)
    (less : ¬ List.replicate depth '\t' <+: text.toList) : l.toList ≠ text.toList := by
  intro same
  exact less (same ▸ h)

/-- The lines of a function are found behind its header, whatever stands in front and behind. -/
theorem functionLines_block {header : String} {before : List (List Char)} {opening : List String}
    (hb : ∀ l ∈ before, l ≠ (line 1 header).toList) (ho : ∀ l ∈ opening, l.toList ≠ "\t\x7d".toList)
    (is : List Instruction) (after : List (List Char)) :
    Reading.functionLines (line 1 header)
        (before ++ (line 1 header :: opening ++ block 1 "" (body 2 is)).map String.toList ++ after) =
      (opening ++ line 1 "\x7b" :: body 2 is).map String.toList := by
  have inside : ∀ l ∈ (opening ++ line 1 "\x7b" :: body 2 is).map String.toList, l ≠ "\t\x7d".toList := by
    intro l hl
    obtain ⟨text, ht, rfl⟩ := List.mem_map.1 hl
    rcases List.mem_append.1 ht with ht | ht
    · exact ho text ht
    · rcases List.mem_cons.1 ht with rfl | ht
      · decide
      · exact ne_of_indented (indented_body 2 is text ht) (by decide)
  have cut := Reading.functionLines_append hb inside after
  rw [← cut]
  congr 1
  simp [block, line]

/-! ## Missing characters -/

/-- A text without any of some characters. -/
def Avoids (cs : List Char) (text : String) : Prop :=
  ∀ c ∈ cs, c ∉ text.toList

instance (cs : List Char) : DecidablePred (Avoids cs) :=
  fun text => List.decidableBAll (fun c => c ∉ text.toList) cs

theorem Avoids.append {cs : List Char} {a b : String} (ha : Avoids cs a) (hb : Avoids cs b) : Avoids cs (a ++ b) := by
  intro c hc hm
  rw [String.toList_append] at hm
  rcases List.mem_append.1 hm with hm | hm
  · exact ha c hc hm
  · exact hb c hc hm

theorem Avoids.mono {cs ds : List Char} {text : String} (h : Avoids ds text) (sub : cs ⊆ ds) : Avoids cs text := by
  intro c hc
  exact h c (sub hc)

/-- Characters that no literal has. -/
abbrev marks : List Char :=
  ['\n', '>', '.', '\x7b', '\x7d']

theorem avoids_of_isAlphanum {text : String} (h : ∀ c ∈ text.toList, c.isAlphanum = true) : Avoids marks text := by
  intro c hc hm
  have other : c.isAlphanum = false := by
    simp only [List.mem_cons, List.not_mem_nil, or_false] at hc
    rcases hc with rfl | rfl | rfl | rfl | rfl <;> rfl
  rw [h c hm] at other
  cases other

theorem avoids_line {cs : List Char} (tab : '\t' ∉ cs) {text : String} (h : Avoids cs text) (depth : Nat) :
    Avoids cs (line depth text) := by
  apply Avoids.append _ h
  intro c hc hm
  rw [String.toList_ofList] at hm
  exact tab ((List.mem_replicate.1 hm).2 ▸ hc)

theorem avoids_literal (value : Operand) : Avoids marks value.literal := by
  cases value with
  | integer value => exact avoids_of_isAlphanum fun c hc => Word.isAlphanum_decimal hc
  | address value =>
    have mark : Avoids marks "0x" := by decide
    exact mark.append (avoids_of_isAlphanum fun c hc => Address.isAlphanum_hex hc)

theorem avoids_storeText (slot : Word) (value : Operand) : Avoids marks (Instruction.storeText slot value) := by
  have front : Avoids marks "sstore(0x" := by decide
  have comma : Avoids marks ", " := by decide
  have back : Avoids marks ")" := by decide
  have digits : Avoids marks slot.hex := avoids_of_isAlphanum fun c hc => Word.isAlphanum_hex hc
  exact (((front.append digits).append comma).append (avoids_literal value)).append back

theorem avoids_checksummed (a : Address) : Avoids marks a.checksummed := by
  apply avoids_of_isAlphanum
  intro c hc
  exact Address.isAlphanum_checksummed hc

/-- Of these characters a transfer has the full stop only. -/
theorem avoids_transferText (token recipient : Address) (amount : Word) :
    Avoids ['\n', '>', '\x7b', '\x7d'] (Instruction.transferText token recipient amount) := by
  have address : ∀ a : Address, Avoids ['\n', '>', '\x7b', '\x7d'] a.checksummed := by
    intro a
    exact (avoids_checksummed a).mono (by decide)
  have number : Avoids ['\n', '>', '\x7b', '\x7d'] amount.decimal :=
    (avoids_of_isAlphanum fun c hc => Word.isAlphanum_decimal hc).mono (by decide)
  have front : Avoids ['\n', '>', '\x7b', '\x7d'] (libraryName ++ ".transfer(address(") := by decide
  have second : Avoids ['\n', '>', '\x7b', '\x7d'] "), address(" := by decide
  have third : Avoids ['\n', '>', '\x7b', '\x7d'] "), uint256(" := by decide
  have back : Avoids ['\n', '>', '\x7b', '\x7d'] "));" := by decide
  exact (((((front.append (address token)).append second).append (address recipient)).append third).append
    number).append back

theorem avoids_targetText (target : Address) : Avoids marks (Instruction.targetText target) := by
  have front : Avoids marks "address to = address(" := by decide
  have back : Avoids marks ");" := by decide
  exact (front.append (avoids_checksummed target)).append back

theorem avoids_callText (gasReserve : UInt64) : Avoids marks (Instruction.callText gasReserve) := by
  have number : Avoids marks (toString gasReserve.toNat) :=
    avoids_of_isAlphanum fun c hc => Literal.isAlphanum_of_mem_toString hc
  have front : Avoids marks "let result := delegatecall(sub(gas(), " := by decide
  have back : Avoids marks "), to, 0, calldatasize(), 0, 0)" := by decide
  exact (front.append number).append back

theorem avoids_delegation (gasReserve : UInt64) : ∀ l ∈ Instruction.delegation gasReserve, Avoids ['\n', '>', '.'] l :=
  forall_delegation (by decide) ((avoids_callText gasReserve).mono (by decide))

/-- The only lines with a full stop are those of transfers. -/
theorem avoids_lines_of_ne_transfer {i : Instruction}
    (h : ∀ token recipient amount, i ≠ .transfer token recipient amount) (depth : Nat) :
    ∀ l ∈ i.lines depth, Avoids ['\n', '>', '.'] l := by
  have tab : '\t' ∉ ['\n', '>', '.'] := by decide
  intro l hl
  cases i with
  | store slot value =>
    rw [List.mem_singleton.1 hl]
    exact avoids_line tab ((avoids_storeText slot value).mono (by decide)) depth
  | transfer token recipient amount => exact absurd rfl (h token recipient amount)
  | forward target gasReserve =>
    rcases List.mem_cons.1 hl with rfl | hl
    · exact avoids_line tab ((avoids_targetText target).mono (by decide)) depth
    · have opening : Avoids ['\n', '>', '.'] ("assembly " ++ "\x7b") := by decide
      have closing : Avoids ['\n', '>', '.'] "\x7d" := by decide
      have inside : ∀ l ∈ (Instruction.delegation gasReserve).map (line (depth + 1)), Avoids ['\n', '>', '.'] l := by
        intro l hl
        obtain ⟨text, ht, rfl⟩ := List.mem_map.1 hl
        exact avoids_line tab (avoids_delegation gasReserve text ht) (depth + 1)
      exact forall_block (avoids_line tab opening depth) (avoids_line tab closing depth) inside l hl

theorem avoids_lines (i : Instruction) (depth : Nat) : ∀ l ∈ i.lines depth, Avoids ['\n', '>'] l := by
  intro l hl
  cases i with
  | transfer token recipient amount =>
    rw [List.mem_singleton.1 hl]
    exact avoids_line (by decide) ((avoids_transferText token recipient amount).mono (by decide)) depth
  | store slot value => exact (avoids_lines_of_ne_transfer (by simp) depth l hl).mono (by decide)
  | forward target gasReserve => exact (avoids_lines_of_ne_transfer (by simp) depth l hl).mono (by decide)

theorem avoids_body (depth : Nat) (is : List Instruction) : ∀ l ∈ body depth is, Avoids ['\n', '>'] l := by
  have opening : Avoids ['\n', '>'] ("assembly " ++ "\x7b") := by decide
  have closing : Avoids ['\n', '>'] "\x7d" := by decide
  exact forall_body (avoids_line (by decide) opening depth) (avoids_line (by decide) closing depth)
    (fun i _ => avoids_lines i (depth + 1)) (fun i _ => avoids_lines i depth)

end ProxyForge.Contract
