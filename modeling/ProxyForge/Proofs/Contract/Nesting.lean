import ProxyForge.Proofs.Contract.Emission

/-!
# The nesting of a source

In the source of a program braces are closed where they were opened and every line is indented by the blocks around
it. What a text does to the blocks that are open is told by `Braces`, and by `Nests` for lines, which also have to be
indented. Both can be put one behind the other, so a block nests whatever stands in its braces (`Nests.block`), and the
source is followed line by line from no open block to none (`Program.nests_lines`). A name with braces or line feeds
would open blocks and begin lines of its own.
-/

namespace ProxyForge.Contract

open Reading

/-! ## Braces -/

/-- A text that is read with some blocks open and leaves some open: no block is closed that is not open. -/
structure Braces (before : Nat) (cs : List Char) (behind : Nat) : Prop where
  neverBelow : ∀ front, front <+: cs → front.count '\x7d' ≤ before + front.count '\x7b'
  balance : before + cs.count '\x7b' = behind + cs.count '\x7d'

namespace Braces

variable {before between behind : Nat} {as bs cs : List Char}

theorem append (ha : Braces before as between) (hb : Braces between bs behind) : Braces before (as ++ bs) behind where
  neverBelow := by
    intro front hf
    rcases List.prefix_or_prefix_of_prefix hf (List.prefix_append as bs) with short | long
    · exact ha.neverBelow front short
    · obtain ⟨more, rfl⟩ := long
      have := hb.neverBelow more ((List.prefix_append_right_inj as).1 hf)
      have := ha.balance
      rw [List.count_append, List.count_append]
      omega
  balance := by
    have := ha.balance
    have := hb.balance
    rw [List.count_append, List.count_append]
    omega

/-- A text without braces leaves the blocks as they are. -/
theorem clear (opening : '\x7b' ∉ cs) (closing : '\x7d' ∉ cs) (depth : Nat) : Braces depth cs depth where
  neverBelow := by
    intro front hf
    rw [List.count_eq_zero_of_not_mem fun hm => closing (hf.subset hm)]
    exact Nat.zero_le _
  balance := by
    rw [List.count_eq_zero_of_not_mem opening, List.count_eq_zero_of_not_mem closing]

theorem opening (depth : Nat) : Braces depth ['\x7b'] (depth + 1) where
  neverBelow := by
    intro front hf
    rcases List.prefix_cons_iff.1 hf with rfl | ⟨more, rfl, hm⟩
    · exact Nat.zero_le _
    · rw [List.prefix_nil.1 hm]
      exact Nat.zero_le _
  balance := rfl

theorem closing (depth : Nat) : Braces (depth + 1) ['\x7d'] depth where
  neverBelow := by
    intro front hf
    rcases List.prefix_cons_iff.1 hf with rfl | ⟨more, rfl, hm⟩
    · exact Nat.zero_le _
    · rw [List.prefix_nil.1 hm]
      exact Nat.le_add_left _ _
  balance := rfl

theorem tabs (depth count : Nat) : Braces depth (List.replicate count '\t') depth :=
  clear (by simp) (by simp) depth

end Braces

/-! ## Lines -/

/-- The number of tabs in front of a line. -/
def tabs (line : List Char) : Nat :=
  (line.takeWhile (· == '\t')).length

/-- One for a line that begins with a closing brace. -/
def closesAtOnce (line : List Char) : Nat :=
  if (unindented line).head? = some '\x7d' then 1 else 0

/-- A line that is read with some blocks open and leaves some open, and is indented by a tab for each open block, less
one that it closes at once. -/
structure LineNests (before : Nat) (line : String) (behind : Nat) : Prop where
  single : '\n' ∉ line.toList
  braces : Braces before line.toList behind
  other : unindented line.toList ≠ "public".toList
  indented : line.toList ≠ [] → tabs line.toList + closesAtOnce line.toList = before

theorem tabs_line {text : String} (head : text.toList.head? ≠ some '\t') (depth : Nat) :
    tabs (line depth text).toList = depth := by
  have stop : text.toList.takeWhile (· == '\t') = [] := by
    cases whole : text.toList with
    | nil => rfl
    | cons c cs =>
      rw [whole] at head
      exact List.takeWhile_cons_of_neg (by simpa using head)
  rw [tabs, toList_line, List.takeWhile_append_of_pos (by simp), stop, List.append_nil, List.length_replicate]

namespace LineNests

variable {before behind depth : Nat} {text : String} {c : Char}

/-- An indented line does to the blocks what its text does. -/
theorem of_text (head : text.toList.head? = some c) (tab : c ≠ '\t') (single : '\n' ∉ text.toList)
    (braces : Braces before text.toList behind) (other : text ≠ "public")
    (indented : depth + (if c = '\x7d' then 1 else 0) = before) : LineNests before (line depth text) behind := by
  have bare : unindented (line depth text).toList = text.toList := unindented_line head tab depth
  refine ⟨?_, ?_, ?_, fun _ => ?_⟩
  · rw [toList_line]
    simp [single]
  · rw [toList_line]
    exact (Braces.tabs before depth).append braces
  · rw [bare]
    exact fun same => other (String.toList_inj.1 same)
  · have noTab : text.toList.head? ≠ some '\t' := by
      rw [head]
      simpa using tab
    rw [tabs_line noTab, closesAtOnce, bare, head]
    simpa only [Option.some.injEq] using indented

theorem blank (depth : Nat) : LineNests depth "" depth where
  single := by simp
  braces := Braces.clear (by simp) (by simp) depth
  other := by decide
  indented := by
    intro filled
    exact absurd rfl filled

/-- A line without braces, other than `public`. -/
theorem plain (head : text.toList.head? = some c) (tab : c ≠ '\t') (clear : Avoids ['\n', '\x7b', '\x7d'] text)
    (other : text ≠ "public") (depth : Nat) : LineNests depth (line depth text) depth := by
  have noBrace : c ≠ '\x7d' := by
    rintro rfl
    exact clear '\x7d' (by simp) (List.mem_of_mem_head? head)
  refine of_text head tab (clear '\n' (by simp)) (Braces.clear (clear _ (by simp)) (clear _ (by simp)) depth) other ?_
  rw [if_neg noBrace, Nat.add_zero]

/-- A line that opens a block, behind a header without braces. -/
theorem opening {header : String} (head : (header ++ "\x7b").toList.head? = some c) (tab : c ≠ '\t')
    (clear : Avoids ['\n', '\x7b', '\x7d'] header) (depth : Nat) :
    LineNests depth (line depth (header ++ "\x7b")) (depth + 1) := by
  have whole : (header ++ "\x7b").toList = header.toList ++ ['\x7b'] := String.toList_append
  have single : '\n' ∉ (header ++ "\x7b").toList := by
    simpa [whole] using clear '\n' (by simp)
  have braces : Braces depth (header ++ "\x7b").toList (depth + 1) := by
    rw [whole]
    exact (Braces.clear (clear _ (by simp)) (clear _ (by simp)) depth).append (Braces.opening depth)
  have noClose : c ≠ '\x7d' := by
    rintro rfl
    have first := List.mem_of_mem_head? head
    rw [whole, List.mem_append] at first
    exact first.elim (clear '\x7d' (by simp)) (by decide)
  have other : header ++ "\x7b" ≠ "public" := by
    intro same
    have last : '\x7b' ∈ "public".toList := by simp [← same]
    exact absurd last (by decide)
  refine of_text head tab single braces other ?_
  rw [if_neg noClose, Nat.add_zero]

theorem closing (depth : Nat) : LineNests (depth + 1) (line depth "\x7d") depth :=
  of_text rfl (by decide) (by decide) (Braces.closing depth) (by decide) rfl

end LineNests

/-- Lines that are read one after the other, with some blocks open in front of them and some behind. The line below
`constructor()` goes on with this header and is indented by one tab more. -/
inductive Nests : Nat → List String → Nat → Prop where
  | nil (depth : Nat) : Nests depth [] depth
  | cons {before between behind : Nat} {l : String} {ls : List String} (first : LineNests before l between)
      (rest : Nests between ls behind) : Nests before (l :: ls) behind
  | header {before behind : Nat} {ls : List String} (rest : Nests before ls behind) :
      Nests before (line before "constructor()" :: line (before + 1) "public" :: ls) behind

namespace Nests

variable {before between behind depth : Nat} {ls ms : List String}

theorem append (hl : Nests before ls between) (hm : Nests between ms behind) : Nests before (ls ++ ms) behind := by
  induction hl with
  | nil => exact hm
  | cons first _ ih => exact .cons first (ih hm)
  | header _ ih => exact .header (ih hm)

theorem single {l : String} (h : LineNests before l behind) : Nests before [l] behind :=
  .cons h (.nil behind)

theorem of_forall (h : ∀ l ∈ ls, LineNests depth l depth) : Nests depth ls depth := by
  induction ls with
  | nil => exact .nil depth
  | cons l ls ih => exact .cons (h l List.mem_cons_self) (ih fun m hm => h m (List.mem_cons_of_mem l hm))

theorem flatMap {α : Type} {f : α → List String} {xs : List α} (h : ∀ x ∈ xs, Nests depth (f x) depth) :
    Nests depth (xs.flatMap f) depth := by
  induction xs with
  | nil => exact .nil depth
  | cons x xs ih => exact (h x List.mem_cons_self).append (ih fun y hy => h y (List.mem_cons_of_mem x hy))

/-- A block nests when what is inside nests one block deeper. -/
theorem block {header : String} {c : Char} (head : (header ++ "\x7b").toList.head? = some c) (tab : c ≠ '\t')
    (clear : Avoids ['\n', '\x7b', '\x7d'] header) (inside : Nests (depth + 1) ls (depth + 1)) :
    Nests depth (Contract.block depth header ls) depth :=
  (Nests.cons (LineNests.opening head tab clear depth) inside).append (.single (.closing depth))

end Nests

/-! ## Programs -/

/-- A pair of braces in a line closes what it opens. -/
theorem Braces.pair (front inside : List Char) (hf : '\x7b' ∉ front ∧ '\x7d' ∉ front)
    (hi : '\x7b' ∉ inside ∧ '\x7d' ∉ inside) (depth : Nat) :
    Braces depth (front ++ '\x7b' :: inside ++ ['\x7d']) depth := by
  have opened := (clear hf.1 hf.2 depth).append (opening depth)
  have closed := (opened.append (clear hi.1 hi.2 (depth + 1))).append (closing depth)
  simpa only [List.append_assoc, List.singleton_append] using closed

theorem lineNests_delegation (gasReserve : UInt64) (depth : Nat) :
    ∀ l ∈ Instruction.delegation gasReserve, LineNests depth (line depth l) depth := by
  have call : LineNests depth (line depth (Instruction.callText gasReserve)) depth := by
    have head := head?_callText gasReserve
    refine .plain head (by decide) ((avoids_callText gasReserve).mono (by decide)) ?_ depth
    intro same
    rw [same] at head
    exact absurd head (by decide)
  refine forall_delegation (P := fun l => LineNests depth (line depth l) depth) ?_ call
  intro l hl
  simp only [Instruction.aroundCall, List.mem_cons, List.not_mem_nil, or_false] at hl
  rcases hl with rfl | rfl | rfl | rfl | rfl
  · exact .plain rfl (by decide) (by decide) (by decide) depth
  · exact .plain rfl (by decide) (by decide) (by decide) depth
  · exact .plain rfl (by decide) (by decide) (by decide) depth
  · have braces := Braces.pair "case 0 ".toList " revert(0, returndatasize()) ".toList (by decide) (by decide) depth
    exact .of_text rfl (by decide) (by decide) braces (by decide) rfl
  · have braces := Braces.pair "default ".toList " return(0, returndatasize()) ".toList (by decide) (by decide) depth
    exact .of_text rfl (by decide) (by decide) braces (by decide) rfl

theorem LineNests.of_head {text : String} {c : Char} (head : text.toList.head? = some c) (tab : c ≠ '\t')
    (clear : Avoids ['\n', '\x7b', '\x7d'] text) (other : c ≠ 'p') (depth : Nat) :
    LineNests depth (line depth text) depth := by
  apply LineNests.plain head tab clear _ depth
  rintro rfl
  exact other (Option.some.inj (head.symm.trans rfl))

theorem nests_instruction (i : Instruction) (depth : Nat) : Nests depth (i.lines depth) depth := by
  cases i with
  | store slot value =>
    have clear := (avoids_storeText slot value).mono (show ['\n', '\x7b', '\x7d'] ⊆ marks by decide)
    exact .single (.of_head (head?_storeText slot value) (by decide) clear (by decide) depth)
  | transfer token recipient amount =>
    have clear := (avoids_transferText token recipient amount).mono
      (show ['\n', '\x7b', '\x7d'] ⊆ ['\n', '>', '\x7b', '\x7d'] by decide)
    exact .single (.of_head (head?_transferText token recipient amount) (by decide) clear (by decide) depth)
  | forward target gasReserve =>
    have clear := (avoids_targetText target).mono (show ['\n', '\x7b', '\x7d'] ⊆ marks by decide)
    have named := LineNests.of_head (head?_targetText target) (by decide) clear (by decide) depth
    have inside : Nests (depth + 1) ((Instruction.delegation gasReserve).map (line (depth + 1))) (depth + 1) := by
      apply Nests.of_forall
      intro l hl
      obtain ⟨text, ht, rfl⟩ := List.mem_map.1 hl
      exact lineNests_delegation gasReserve (depth + 1) text ht
    exact .cons named (.block rfl (by decide) (by decide) inside)

theorem nests_body (depth : Nat) (is : List Instruction) : Nests depth (body depth is) depth := by
  apply Nests.flatMap
  intro segment _
  rw [segmentLines]
  split
  · exact .block rfl (by decide) (by decide) (.flatMap fun i _ => nests_instruction i (depth + 1))
  · exact .flatMap fun i _ => nests_instruction i depth

namespace Program

theorem nests_constructorLines (p : Program) : Nests 1 p.constructorLines 1 :=
  .header (.block rfl (by decide) (by decide) (nests_body 2 p.constructor))

theorem nests_fallbackLines (p : Program) : Nests 1 p.fallbackLines 1 := by
  have header : LineNests 1 (line 1 "function () external") 1 := .plain rfl (by decide) (by decide) (by decide) 1
  rw [fallbackLines]
  split
  · exact .nil 1
  · exact .cons (.blank 1) (.cons header (.block rfl (by decide) (by decide) (nests_body 2 p.fallback)))

theorem nests_contractLines (p : Program) : Nests 1 p.contractLines 1 := by
  have declared : Nests 1 (Storage.declarations.map (line 1)) 1 := by
    have each : ∀ text ∈ Storage.declarations, LineNests 1 (line 1 text) 1 := by
      intro text ht
      simp only [Storage.declarations, List.mem_cons, List.not_mem_nil, or_false] at ht
      rcases ht with rfl | rfl <;> exact .plain rfl (by decide) (by decide) (by decide) 1
    apply Nests.of_forall
    intro l hl
    obtain ⟨text, ht, rfl⟩ := List.mem_map.1 hl
    exact each text ht
  have functions := (Nests.cons (.blank 1) p.nests_constructorLines).append p.nests_fallbackLines
  have whole := declared.append functions
  simpa only [contractLines, List.append_assoc, List.cons_append] using whole

/-- A source begins and ends with no block open. -/
theorem nests_lines {p : Program} (name : Avoids ['\n', '\x7b', '\x7d'] p.name) : Nests 0 p.lines 0 := by
  have front : Nests 0
      ["pragma solidity " ++ languageVersion ++ ";", "", "import \"" ++ librarySourceName ++ "\";", ""] 0 := by
    have version : LineNests 0 (line 0 ("pragma solidity " ++ languageVersion ++ ";")) 0 :=
      .plain rfl (by decide) (by decide) (by decide) 0
    have library : LineNests 0 (line 0 ("import \"" ++ librarySourceName ++ "\";")) 0 :=
      .plain rfl (by decide) (by decide) (by decide) 0
    exact .cons version (.cons (.blank 0) (.cons library (.single (.blank 0))))
  have header : Avoids ['\n', '\x7b', '\x7d'] ("contract " ++ p.name ++ " ") :=
    (Avoids.append (by decide) name).append (by decide)
  have head : ("contract " ++ p.name ++ " " ++ "\x7b").toList.head? = some 'c' := by
    simp only [String.toList_append, List.head?_append]
    rfl
  exact front.append (.block head (by decide) header p.nests_contractLines)

end Program

/-! ## The whole text -/

namespace Nests

variable {before behind : Nat} {ls : List String}

/-- Lines do to the blocks what they do as a text, whatever stands between them. -/
theorem braces (h : Nests before ls behind) (sep : List Char) (clear : '\x7b' ∉ sep ∧ '\x7d' ∉ sep) :
    Braces before (ls.flatMap fun l => l.toList ++ sep) behind := by
  induction h with
  | nil depth => exact Braces.clear List.not_mem_nil List.not_mem_nil depth
  | cons first _ ih => exact (first.braces.append (Braces.clear clear.1 clear.2 _)).append ih
  | @header before behind ls _ ih =>
    have text : ∀ depth, ∀ text ∈ ["constructor()", "public"],
        Braces before ((line depth text).toList ++ sep) before := by
      intro depth text ht
      have bare : '\x7b' ∉ text.toList ∧ '\x7d' ∉ text.toList := by
        revert text
        decide
      rw [toList_line]
      exact ((Braces.tabs _ _).append (Braces.clear bare.1 bare.2 _)).append (Braces.clear clear.1 clear.2 _)
    exact (text before _ (by simp)).append ((text (before + 1) _ (by simp)).append ih)

theorem single_of_mem (h : Nests before ls behind) : ∀ l ∈ ls, '\n' ∉ l.toList := by
  induction h with
  | nil => simp
  | cons first _ ih => exact List.forall_mem_cons.2 ⟨first.single, ih⟩
  | header _ ih =>
    refine List.forall_mem_cons.2 ⟨?_, List.forall_mem_cons.2 ⟨?_, ih⟩⟩ <;> simp [toList_line]

/-- A line among others is read with the blocks open that those in front of it leave open, or goes on with the header
above it. -/
theorem exists_of_append {l : String} {front after : List String} (h : Nests before (front ++ l :: after) behind) :
    ∃ here, Nests before front here ∧ ((∃ next, LineNests here l next) ∨
      l = line (here + 1) "public" ∧ front.getLast? = some (line here "constructor()")) := by
  generalize whole : front ++ l :: after = ls at h
  induction h generalizing front with
  | nil => simp at whole
  | @cons before between behind m ms first rest ih =>
    cases front with
    | nil =>
      obtain ⟨rfl, -⟩ := List.cons.inj whole
      exact ⟨before, .nil _, .inl ⟨between, first⟩⟩
    | cons m front =>
      obtain ⟨rfl, tail⟩ := List.cons.inj whole
      obtain ⟨here, nests, line⟩ := ih tail
      refine ⟨here, .cons first nests, line.imp_right fun ⟨isPublic, above⟩ => ⟨isPublic, ?_⟩⟩
      rw [List.getLast?_cons, above, Option.getD_some]
  | @header before behind ms rest ih =>
    have named : LineNests before (line before "constructor()") before :=
      .plain rfl (by decide) (by decide) (by decide) before
    match front with
    | [] =>
      obtain ⟨rfl, -⟩ := List.cons.inj whole
      exact ⟨before, .nil _, .inl ⟨before, named⟩⟩
    | [m] =>
      obtain ⟨rfl, tail⟩ := List.cons.inj whole
      obtain ⟨rfl, -⟩ := List.cons.inj tail
      exact ⟨before, .single named, .inr ⟨rfl, rfl⟩⟩
    | m :: n :: front =>
      obtain ⟨rfl, tail⟩ := List.cons.inj whole
      obtain ⟨rfl, further⟩ := List.cons.inj tail
      obtain ⟨here, nests, line⟩ := ih further
      refine ⟨here, .header nests, line.imp_right fun ⟨isPublic, above⟩ => ⟨isPublic, ?_⟩⟩
      rw [List.getLast?_cons, List.getLast?_cons, above, Option.getD_some, Option.getD_some]

end Nests

/-- The number of blocks that a text leaves open. -/
def openBlocks (cs : List Char) : Nat :=
  cs.count '\x7b' - cs.count '\x7d'

/-- One for the line `public` below the header of the constructor. -/
def continuesHeader (above : Option (List Char)) (line : List Char) : Nat :=
  if above.map unindented = some "constructor()".toList ∧ unindented line = "public".toList then 1 else 0

/-- A text whose lines all end with a line feed, in which no brace is closed that is not open and none is left open at
the end, and whose lines are indented by a tab for each block open in front of them: by one less if they close one at
once, and by one more if they go on with the header of the constructor. -/
structure WellNested (text : String) : Prop where
  ended : text.toList.getLast? = some '\n'
  neverBelow : ∀ front, front <+: text.toList → front.count '\x7d' ≤ front.count '\x7b'
  closed : text.toList.count '\x7d' = text.toList.count '\x7b'
  indented : ∀ before line after, Text.lines text.toList = before ++ line :: after → line ≠ [] →
    tabs line + closesAtOnce line = openBlocks before.flatten + continuesHeader before.getLast? line

theorem toList_textOf (ls : List String) : (textOf ls).toList = ls.flatMap fun l => l.toList ++ ['\n'] := by
  simp [textOf, String.toList_join, List.flatMap_map]

/-- Lines that nest from no open block to none make a text that is well nested. -/
theorem Nests.wellNested {ls : List String} (h : Nests 0 ls 0) (filled : ls ≠ []) : WellNested (textOf ls) where
  ended := by
    rw [toList_textOf, ← List.dropLast_append_getLast filled, List.flatMap_append, List.flatMap_singleton,
      ← List.append_assoc, List.getLast?_concat]
  neverBelow := by
    intro front hf
    rw [toList_textOf] at hf
    simpa only [Nat.zero_add] using (h.braces ['\n'] (by decide)).neverBelow front hf
  closed := by
    have := (h.braces ['\n'] (by decide)).balance
    rw [toList_textOf]
    omega
  indented := by
    intro before line after cut filled
    have whole : Text.lines (textOf ls).toList = (ls ++ [""]).map String.toList := by
      rw [textOf, lines_join h.single_of_mem, List.map_append]
      rfl
    rw [whole] at cut
    obtain ⟨front, rest, split, rfl, hrest⟩ := List.map_eq_append_iff.1 cut
    obtain ⟨l, behind, rfl, rfl, -⟩ := List.map_eq_cons_iff.1 hrest
    have nests : Nests 0 (front ++ l :: behind) 0 := split ▸ h.append (.single (.blank 0))
    obtain ⟨here, inFront, fits⟩ := nests.exists_of_append
    have balance :
        0 + (front.flatMap String.toList).count '\x7b' = here + (front.flatMap String.toList).count '\x7d' := by
      simpa only [List.append_nil] using (inFront.braces [] (by decide)).balance
    have opened : openBlocks (front.map String.toList).flatten = here := by
      rw [openBlocks, ← List.flatMap_def]
      omega
    rw [opened, List.getLast?_map]
    rcases fits with ⟨next, ordinary⟩ | ⟨rfl, above⟩
    · rw [continuesHeader, if_neg fun h => ordinary.other h.2]
      exact ordinary.indented filled
    · have header : unindented (Contract.line here "constructor()").toList = "constructor()".toList :=
        unindented_line rfl (by decide) here
      have bare : unindented (Contract.line (here + 1) "public").toList = "public".toList :=
        unindented_line rfl (by decide) (here + 1)
      have noClose : closesAtOnce (Contract.line (here + 1) "public").toList = 0 := by
        rw [closesAtOnce, bare]
        rfl
      rw [tabs_line (by decide), noClose, continuesHeader, above, Option.map_some, Option.map_some, header,
        if_pos ⟨rfl, bare⟩]

namespace Emission

/-- A step that comes to its end and leaves as many blocks open as there were. -/
def KeepsDepth (a : Emission Unit) : Prop :=
  ∀ e : Emitter, ∃ after, a.run e = .ok ((), after) ∧ after.depth = e.depth

theorem Writes.keepsDepth {a : Emission Unit} {lines : Nat → List String} (h : Writes a lines) : KeepsDepth a :=
  fun e => ⟨_, h e, rfl⟩

end Emission

/-- The source of a program whose name has no brace and no line feed is well nested. For every program the emitter
writes its source and ends with no block open, without ever closing one that is not, and every function body and
function leaves as many blocks open as it finds. -/
theorem Program.source_wellNested {p : Program} (name : Avoids ['\n', '\x7b', '\x7d'] p.name) :
    WellNested p.source ∧ emit p = .ok { text := p.source, depth := 0 } ∧
      ∀ is, (Emission.body is).KeepsDepth ∧ (Emission.constructor is).KeepsDepth ∧
        (Emission.fallback is).KeepsDepth := by
  refine ⟨(nests_lines name).wellNested ?_, Emission.emit_eq p, fun is => ⟨?_, ?_, ?_⟩⟩
  · simp [lines]
  · exact (Emission.writes_body is).keepsDepth
  · exact (Emission.writes_constructor is).keepsDepth
  · exact (Emission.writes_fallback is).keepsDepth

/-- Stores in two blocks, a transfer between them and a fallback function nest. -/
theorem Program.wellNested_split :
    let p : Program :=
      { name := "Split"
        constructor := [.store 1 (.integer 5), .store 2 (.address 7), .transfer 3 4 1000, .store 1 (.integer 6)]
        fallback := [.forward 8 10000] }
    Avoids ['\n', '\x7b', '\x7d'] p.name ∧ WellNested p.source ∧ emit p = .ok { text := p.source, depth := 0 } :=
  ⟨by decide, (Program.source_wellNested (by decide)).1, (Program.source_wellNested (by decide)).2.1⟩

end ProxyForge.Contract
