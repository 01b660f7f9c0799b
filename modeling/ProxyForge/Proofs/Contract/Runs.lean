import Mathlib.Data.List.Chain
import ProxyForge.Proofs.Contract.Emission
import ProxyForge.Proofs.Contract.ReadBack

/-!
# Runs of stores

A list of instructions is cut in one way only into the longest runs of stores and the other instructions on their own
(`isCut_iff`), and the segments that a body is written by are this cut. Its lines are told apart by what they say: only
stores have lines that store, the first line of another instruction says something as well, and the braces of assembly
blocks say nothing. So no block of a body is empty (`not_infix_empty_block`), and no two blocks of stores stand one
behind the other (`not_infix_store_blocks`).
-/

namespace ProxyForge.Contract

/-- A run of stores: at least one, and nothing else. -/
structure IsRun (segment : List Instruction) : Prop where
  nonempty : segment ≠ []
  stores : ∀ i ∈ segment, i.isStore = true

/-- Another instruction than a store, on its own. -/
def IsSingle (segment : List Instruction) : Prop :=
  ∃ i, segment = [i] ∧ i.isStore = false

/-- A list of instructions cut into runs of stores and single other instructions. The runs are the longest ones, since
none goes on in the next segment. -/
structure IsCut (is : List Instruction) (cut : List (List Instruction)) : Prop where
  whole : cut.flatten = is
  each : ∀ s ∈ cut, IsRun s ∨ IsSingle s
  longest : cut.IsChain fun s t => ¬ (IsRun s ∧ IsRun t)

/-! ## The cut -/

theorem isRun_singleton_iff {i : Instruction} : IsRun [i] ↔ i.isStore = true := by
  constructor
  · intro h
    exact h.stores i (by simp)
  · intro store
    exact ⟨by simp, by simpa using store⟩

theorem isRun_or_isSingle (i : Instruction) : IsRun [i] ∨ IsSingle [i] := by
  cases store : i.isStore with
  | true => exact .inl (isRun_singleton_iff.2 store)
  | false => exact .inr ⟨i, rfl, store⟩

namespace IsCut

variable {i : Instruction} {is : List Instruction} {cut : List (List Instruction)}

theorem nil : IsCut [] [] :=
  ⟨rfl, by simp, List.isChain_nil⟩

/-- A store in front of a run goes on in it. -/
theorem cons_run {run : List Instruction} (h : IsCut is (run :: cut)) (isRun : IsRun run) (store : i.isStore = true) :
    IsCut (i :: is) ((i :: run) :: cut) where
  whole := congrArg (i :: ·) h.whole
  each := by
    have longer : IsRun (i :: run) := ⟨List.cons_ne_nil i run, List.forall_mem_cons.2 ⟨store, isRun.stores⟩⟩
    exact List.forall_mem_cons.2 ⟨.inl longer, (List.forall_mem_cons.1 h.each).2⟩
  longest := by
    obtain ⟨next, rest⟩ := List.isChain_cons.1 h.longest
    exact List.isChain_cons.2 ⟨fun t ht both => next t ht ⟨isRun, both.2⟩, rest⟩

/-- An instruction that does not go on in the first segment is one of its own. -/
theorem cons_apart (h : IsCut is cut) (apart : ∀ s, cut.head? = some s → IsRun [i] → ¬ IsRun s) :
    IsCut (i :: is) ([i] :: cut) where
  whole := congrArg (i :: ·) h.whole
  each := List.forall_mem_cons.2 ⟨isRun_or_isSingle i, h.each⟩
  longest := List.isChain_cons.2 ⟨fun s hs both => apart s hs both.1 both.2, h.longest⟩

end IsCut

/-- The segments of instructions are a cut. -/
theorem isCut_segments (is : List Instruction) : IsCut is (segments is) := by
  induction is with
  | nil => exact IsCut.nil
  | cons i is ih =>
    rw [segments]
    split
    · rename_i j run rest found
      rw [found] at ih
      split
      · rename_i both
        obtain ⟨store, next⟩ := Bool.and_eq_true_iff.1 both
        have more : IsRun (j :: run) := by
          rcases ih.each _ List.mem_cons_self with more | ⟨k, same, other⟩
          · exact more
          · rw [(List.cons.inj same).1, other] at next
            exact absurd next Bool.false_ne_true
        exact ih.cons_run more store
      · rename_i apart
        apply ih.cons_apart
        rintro _ ⟨⟩ store more
        exact apart (by simp [isRun_singleton_iff.1 store, more.stores j List.mem_cons_self])
    · rename_i short
      apply ih.cons_apart
      intro s first
      obtain ⟨rest, found⟩ : ∃ rest, segments is = s :: rest := ⟨_, List.eq_cons_of_mem_head? first⟩
      obtain ⟨j, run, rfl⟩ := List.exists_cons_of_ne_nil (segments_ne_nil (found ▸ List.mem_cons_self))
      exact absurd found (short j run rest)

theorem IsCut.tail {is s : List Instruction} {cut : List (List Instruction)} (h : IsCut is (s :: cut)) :
    IsCut cut.flatten cut where
  whole := rfl
  each := (List.forall_mem_cons.1 h.each).2
  longest := (List.isChain_cons.1 h.longest).2

/-- Behind a run another instruction stands alone. -/
theorem IsCut.single_behind {is run t : List Instruction} {cut : List (List Instruction)}
    (h : IsCut is (run :: t :: cut)) (isRun : IsRun run) : IsSingle t := by
  have notBoth := (List.isChain_cons.1 h.longest).1 t rfl
  exact (h.each t (by simp)).resolve_left fun again => notBoth ⟨isRun, again⟩

/-- Behind a run no store begins the rest of a cut. -/
theorem IsCut.stops {is run : List Instruction} {cut : List (List Instruction)} (h : IsCut is (run :: cut))
    (isRun : IsRun run) : ∀ i, cut.flatten.head? = some i → i.isStore = false := by
  cases cut with
  | nil => simp
  | cons t cut =>
    obtain ⟨j, rfl, other⟩ := h.single_behind isRun
    rintro _ ⟨⟩
    exact other

/-- There is no other cut than that into segments. -/
theorem isCut_iff {is : List Instruction} {cut : List (List Instruction)} : IsCut is cut ↔ cut = segments is := by
  constructor
  · intro h
    induction cut generalizing is with
    | nil =>
      rw [← h.whole]
      rfl
    | cons s cut ih =>
      have behind := ih h.tail
      rw [← h.whole, List.flatten_cons]
      rcases h.each s List.mem_cons_self with run | ⟨i, rfl, other⟩
      · rw [segments_append run.stores run.nonempty (h.stops run), ← behind]
      · rw [List.singleton_append, segments_cons other, ← behind]
  · rintro rfl
    exact isCut_segments is

/-! ## Lines of segments -/

/-- A line with a text, however far it is indented. -/
def Shows (text l : String) : Prop :=
  Reading.unindented l.toList = text.toList

/-- A line that opens an assembly block. -/
def Opens (l : String) : Prop :=
  Shows "assembly \x7b" l

/-- A line that closes a block. -/
def Closes (l : String) : Prop :=
  Shows "\x7d" l

/-- A line that stores. -/
def Stores (l : String) : Prop :=
  ∃ slot value, Clue.ofLine? l.toList = some (.store slot value)

theorem Shows.ofLine? {text l : String} (h : Shows text l) : Clue.ofLine? l.toList = Clue.ofText? text.toList :=
  congrArg Clue.ofText? h

theorem shows_line_iff {text other : String} (head : text.toList.head? ≠ some '\t') (depth : Nat) :
    Shows other (line depth text) ↔ text.toList = other.toList := by
  rw [Shows, toList_line, Reading.unindented_replicate head]

theorem opens_line (depth : Nat) : Opens (line depth ("assembly " ++ "\x7b")) :=
  (shows_line_iff (by decide) depth).2 rfl

theorem closes_line (depth : Nat) : Closes (line depth "\x7d") :=
  (shows_line_iff (by decide) depth).2 rfl

theorem Closes.not_opens {l : String} (h : Closes l) : ¬ Opens l := by
  intro opens
  exact absurd (h.symm.trans opens) (by decide)

/-- A line whose text says nothing does not store. -/
theorem Stores.not_shows {text l : String} (h : Stores l) (silent : Clue.ofText? text.toList = none) :
    ¬ Shows text l := by
  obtain ⟨slot, value, said⟩ := h
  intro shows
  rw [shows.ofLine?, silent] at said
  cases said

theorem Stores.not_opens {l : String} (h : Stores l) : ¬ Opens l :=
  h.not_shows rfl

theorem Stores.not_closes {l : String} (h : Stores l) : ¬ Closes l :=
  h.not_shows rfl

theorem stores_line (slot : Word) (value : Operand) (depth : Nat) :
    Stores (line depth (Instruction.storeText slot value)) := by
  refine ⟨slot, value, ?_⟩
  rw [Clue.ofLine?_line (head?_storeText slot value) (by decide), Clue.ofText?_storeText]

theorem Instruction.lines_ne_nil (i : Instruction) (depth : Nat) : i.lines depth ≠ [] := by
  cases i <;> exact List.cons_ne_nil _ _

theorem IsRun.lines_ne_nil {run : List Instruction} (h : IsRun run) (depth : Nat) :
    run.flatMap (Instruction.lines depth) ≠ [] := by
  obtain ⟨i, rest, rfl⟩ := List.exists_cons_of_ne_nil h.nonempty
  intro none
  exact i.lines_ne_nil depth (List.flatMap_eq_nil_iff.1 none i List.mem_cons_self)

/-- Every line of a run stores. -/
theorem IsRun.stores_lines {run : List Instruction} (h : IsRun run) (depth : Nat) :
    ∀ l ∈ run.flatMap (Instruction.lines depth), Stores l := by
  intro l hl
  obtain ⟨i, hi, hl⟩ := List.mem_flatMap.1 hl
  obtain ⟨slot, value, rfl⟩ := Instruction.isStore_iff.1 (h.stores i hi)
  rw [List.mem_singleton.1 hl]
  exact stores_line slot value depth

/-- No line of another instruction stores. -/
theorem not_stores_lines {i : Instruction} (other : i.isStore = false) (depth : Nat) :
    ∀ l ∈ i.lines depth, ¬ Stores l := by
  rintro l hl ⟨slot, value, said⟩
  have told : Clue.store slot value ∈ i.clues := by
    rw [← clues_lines i depth]
    exact List.mem_filterMap.2 ⟨l, hl, said⟩
  cases i with
  | store slot value => cases other
  | transfer token recipient amount => simp [Instruction.clues] at told
  | forward target gasReserve => simp [Instruction.clues] at told

/-- The first line of another instruction says something, so it opens no block. -/
theorem not_opens_head {i : Instruction} (other : i.isStore = false) (depth : Nat) :
    ∀ l ∈ (i.lines depth).head?, ¬ Opens l := by
  intro l first opens
  have silent : Clue.ofLine? l.toList = none := opens.ofLine?
  cases i with
  | store slot value => cases other
  | transfer token recipient amount =>
    cases first
    rw [Clue.ofLine?_line (head?_transferText token recipient amount) (by decide), Clue.ofText?_transferText] at silent
    cases silent
  | forward target gasReserve =>
    cases first
    rw [Clue.ofLine?_line (head?_targetText target) (by decide), Clue.ofText?_targetText] at silent
    cases silent

theorem IsRun.segmentLines_eq {run : List Instruction} (h : IsRun run) (depth : Nat) :
    segmentLines depth run = block depth "assembly " (run.flatMap (Instruction.lines (depth + 1))) := by
  have all : run.all Instruction.isStore = true := by simpa using h.stores
  rw [segmentLines, if_pos all]

theorem segmentLines_singleton {i : Instruction} (other : i.isStore = false) (depth : Nat) :
    segmentLines depth [i] = i.lines depth := by
  simp [segmentLines, other]

/-! ## Blocks of a body -/

/-- Behind a line that opens a block no line closes one. -/
def NoneEmpty (ls : List String) : Prop :=
  ls.IsChain fun l m => Opens l → ¬ Closes m

theorem noneEmpty_of_forall {ls : List String} (h : ∀ l ∈ ls, ¬ Opens l) : NoneEmpty ls :=
  (List.pairwise_of_forall_mem_list fun l hl _ _ opens => absurd opens (h l hl)).isChain

theorem getLast?_block (depth : Nat) (header : String) (inside : List String) :
    (block depth header inside).getLast? = some (line depth "\x7d") :=
  List.getLast?_concat

theorem noneEmpty_block {inside : List String} (filled : inside ≠ []) (clear : ∀ l ∈ inside, ¬ Opens l ∧ ¬ Closes l)
    (depth : Nat) : NoneEmpty (block depth "assembly " inside) := by
  have behind : NoneEmpty (inside ++ [line depth "\x7d"]) := by
    apply noneEmpty_of_forall
    intro l hl
    rcases List.mem_append.1 hl with hl | hl
    · exact (clear l hl).1
    · rw [List.mem_singleton.1 hl]
      exact (closes_line depth).not_opens
  have first : ∀ l ∈ (inside ++ [line depth "\x7d"]).head?, ¬ Closes l := by
    obtain ⟨m, ms, rfl⟩ := List.exists_cons_of_ne_nil filled
    rintro l ⟨⟩
    exact (clear m List.mem_cons_self).2
  exact List.isChain_cons.2 ⟨fun l hl _ => first l hl, behind⟩

/-- The lines that hand over a call have no brace of a block alone. -/
theorem clear_delegation (gasReserve : UInt64) (depth : Nat) :
    ∀ l ∈ (Instruction.delegation gasReserve).map (line depth), ¬ Opens l ∧ ¬ Closes l := by
  have texts : ∀ text ∈ Instruction.delegation gasReserve, text.toList.head? ≠ some '\t' ∧
      text.toList ≠ "assembly \x7b".toList ∧ text.toList ≠ "\x7d".toList := by
    have head := head?_callText gasReserve
    apply forall_delegation (P := fun text => text.toList.head? ≠ some '\t' ∧
      text.toList ≠ "assembly \x7b".toList ∧ text.toList ≠ "\x7d".toList) (by decide)
    refine ⟨?_, ?_, ?_⟩
    · rw [head]
      decide
    · intro same
      rw [same] at head
      exact absurd head (by decide)
    · intro same
      rw [same] at head
      exact absurd head (by decide)
  intro l hl
  obtain ⟨text, ht, rfl⟩ := List.mem_map.1 hl
  obtain ⟨head, notOpening, notClosing⟩ := texts text ht
  rw [Opens, Closes, shows_line_iff head, shows_line_iff head]
  exact ⟨notOpening, notClosing⟩

/-- No block that a segment opens is empty. -/
theorem noneEmpty_segment {s : List Instruction} (h : IsRun s ∨ IsSingle s) (depth : Nat) :
    NoneEmpty (segmentLines depth s) := by
  rcases h with run | ⟨i, rfl, other⟩
  · have stores := run.stores_lines (depth + 1)
    rw [run.segmentLines_eq]
    apply noneEmpty_block (run.lines_ne_nil _)
    intro l hl
    exact ⟨(stores l hl).not_opens, (stores l hl).not_closes⟩
  · rw [segmentLines_singleton other]
    have first := not_opens_head other depth
    cases i with
    | store slot value => cases other
    | transfer token recipient amount => exact List.isChain_singleton _
    | forward target gasReserve =>
      have inside := clear_delegation gasReserve (depth + 1)
      refine List.isChain_cons.2 ⟨fun l _ opens => absurd opens (first _ rfl), ?_⟩
      exact noneEmpty_block (List.cons_ne_nil _ _) inside depth

/-- The last line of a segment opens no block. -/
theorem not_opens_getLast {s : List Instruction} (h : IsRun s ∨ IsSingle s) (depth : Nat) :
    ∀ l ∈ (segmentLines depth s).getLast?, ¬ Opens l := by
  intro l last
  rcases h with run | ⟨i, rfl, other⟩
  · rw [run.segmentLines_eq, getLast?_block] at last
    cases last
    exact (closes_line depth).not_opens
  · rw [segmentLines_singleton other] at last
    cases i with
    | store slot value => cases other
    | transfer token recipient amount => exact not_opens_head other depth l last
    | forward target gasReserve =>
      rw [Instruction.lines, List.getLast?_cons, getLast?_block] at last
      cases last
      exact (closes_line depth).not_opens

theorem segmentLines_ne_nil {s : List Instruction} (h : IsRun s ∨ IsSingle s) (depth : Nat) :
    segmentLines depth s ≠ [] := by
  rcases h with run | ⟨i, rfl, other⟩
  · rw [run.segmentLines_eq]
    exact List.cons_ne_nil _ _
  · rw [segmentLines_singleton other]
    exact i.lines_ne_nil depth

/-- No block that a body opens is empty. -/
theorem noneEmpty_body (depth : Nat) (is : List Instruction) : NoneEmpty (body depth is) := by
  have each := (isCut_segments is).each
  have filled : [] ∉ (segments is).map (segmentLines depth) := by
    intro none
    obtain ⟨s, hs, empty⟩ := List.mem_map.1 none
    exact segmentLines_ne_nil (each s hs) depth empty
  rw [body, List.flatMap_def]
  refine (List.isChain_flatten filled).2 ⟨?_, List.Pairwise.isChain ?_⟩
  · intro ls hl
    obtain ⟨s, hs, rfl⟩ := List.mem_map.1 hl
    exact noneEmpty_segment (each s hs) depth
  · apply List.pairwise_of_forall_mem_list
    intro ls hl _ _ l last _ _ opens
    obtain ⟨s, hs, rfl⟩ := List.mem_map.1 hl
    exact absurd opens (not_opens_getLast (each s hs) depth l last)

/-- Three members one behind the other in two lists stand in one of them, or the first ends the one list, or the first two
stand in the one and the third begins the other. -/
theorem triple_infix_append {α : Type} {a b c : α} {xs ys : List α} (h : [a, b, c] <:+: xs ++ ys) :
    [a, b, c] <:+: xs ∨ [a, b, c] <:+: ys ∨ xs.getLast? = some a ∨ (a ∈ xs ∧ ys.head? = some c) := by
  rcases List.infix_append_iff.1 h with here | there | ⟨left, right, whole, ⟨front, ends⟩, ⟨back, begins⟩⟩
  · exact .inl here
  · exact .inr (.inl there)
  · match left, right, whole with
    | [], _, rfl => exact .inr (.inl ⟨[], back, begins⟩)
    | [_], _, rfl =>
      rw [← ends]
      exact .inr (.inr (.inl List.getLast?_concat))
    | [_, _], _, rfl =>
      rw [← ends, ← begins]
      exact .inr (.inr (.inr ⟨by simp, rfl⟩))
    | [_, _, _], [], rfl => exact .inl ⟨front, [], by simpa using ends⟩

/-- The second line behind one that stores opens no block. -/
theorem not_opens_behind_stores {is : List Instruction} {cut : List (List Instruction)} (h : IsCut is cut)
    {depth : Nat} {l m n : String} (here : [l, m, n] <:+: cut.flatMap (segmentLines depth)) (stores : Stores l) :
    ¬ Opens n := by
  induction cut generalizing is with
  | nil => simp at here
  | cons s cut ih =>
    rw [List.flatMap_cons] at here
    rcases h.each s List.mem_cons_self with run | ⟨i, rfl, other⟩
    case inl =>
      have storing := run.stores_lines (depth + 1)
      rw [run.segmentLines_eq] at here
      rcases triple_infix_append here with inside | behind | last | ⟨-, first⟩
      · rcases List.infix_cons_iff.1 inside with front | later
        · rw [(List.cons_prefix_cons.1 front).1] at stores
          exact absurd (opens_line depth) stores.not_opens
        · rcases List.mem_append.1 (later.subset (show n ∈ [l, m, n] by simp)) with hn | hn
          · exact (storing n hn).not_opens
          · rw [List.mem_singleton.1 hn]
            exact (closes_line depth).not_opens
      · exact ih h.tail behind
      · rw [getLast?_block] at last
        cases last
        exact absurd (closes_line depth) stores.not_closes
      · cases cut with
        | nil => simp at first
        | cons t cut =>
          obtain ⟨i, rfl, other⟩ := h.single_behind run
          have nonempty := i.lines_ne_nil depth
          rw [List.flatMap_cons, segmentLines_singleton other, List.head?_append_of_ne_nil _ nonempty] at first
          exact not_opens_head other depth n first
    case inr =>
      have none := not_stores_lines other depth
      rw [segmentLines_singleton other] at here
      rcases triple_infix_append here with inside | behind | last | ⟨front, -⟩
      · exact absurd stores (none l (inside.subset List.mem_cons_self))
      · exact ih h.tail behind
      · exact absurd stores (none l (List.mem_of_getLast? last))
      · exact absurd stores (none l front)

/-- No block of a body is empty. -/
theorem not_infix_empty_block (depth : Nat) (is : List Instruction) (inner : Nat) :
    ¬ block inner "assembly " [] <:+: body depth is := by
  intro here
  have chain := List.IsChain.infix (noneEmpty_body depth is) here
  exact (List.isChain_cons.1 chain).1 _ rfl (opens_line inner) (closes_line inner)

/-- Behind a block of stores another block does not follow at once. -/
theorem not_infix_store_blocks (depth : Nat) (is : List Instruction) (inner : Nat) {first : List String}
    (stores : ∀ l ∈ first, Stores l) (second : List String) :
    ¬ block inner "assembly " first ++ block inner "assembly " second <:+: body depth is := by
  intro here
  rcases List.eq_nil_or_concat first with rfl | ⟨front, last, rfl⟩
  · exact not_infix_empty_block depth is inner ((List.prefix_append _ _).isInfix.trans here)
  · have three : [last, line inner "\x7d", line inner ("assembly " ++ "\x7b")] <:+:
        block inner "assembly " (front.concat last) ++ block inner "assembly " second :=
      ⟨line inner ("assembly " ++ "\x7b") :: front, second ++ [line inner "\x7d"], by simp [block]⟩
    exact not_opens_behind_stores (isCut_segments is) (three.trans here) (stores last (by simp)) (opens_line inner)

theorem readBody_textOf (depth : Nat) (is : List Instruction) :
    readBody (Text.lines (textOf (body depth is)).toList) = is := by
  have clear : ∀ l ∈ body depth is, '\n' ∉ l.toList := fun l hl => avoids_body depth is l hl '\n' (by decide)
  have last : Clue.ofLine? [] = none := rfl
  have whole := readBody_body depth is
  rw [readBody] at whole
  rw [textOf, lines_join clear, readBody, List.filterMap_append, List.filterMap_cons, last, List.filterMap_nil,
    List.append_nil, whole]

/-- A body is written without a fault, wherever it begins: there is one way to cut its instructions into the longest runs
of stores and single other instructions, and behind the text so far the segments are written in their order, a run as one
assembly block with the lines of its stores and another instruction by its own lines. Reading this text gives every
instruction once. No assembly block in it is empty, and none follows at once behind a block of stores. -/
theorem body_written_in_runs (is : List Instruction) (e : Emitter) :
    ∃ cut lines, (∀ other, IsCut is other ↔ other = cut) ∧ lines = cut.flatMap (segmentLines e.depth) ∧
      (∀ s ∈ cut, IsRun s ∧
          segmentLines e.depth s = block e.depth "assembly " (s.flatMap (Instruction.lines (e.depth + 1))) ∨
        ∃ i, s = [i] ∧ i.isStore = false ∧ segmentLines e.depth s = i.lines e.depth) ∧
      (Emission.body is).run e = .ok ((), { e with text := e.text ++ textOf lines }) ∧
      readBody (Text.lines (textOf lines).toList) = is ∧
      (∀ depth, ¬ block depth "assembly " [] <:+: lines) ∧
      ∀ depth first second, (∀ l ∈ first, Stores l) →
        ¬ block depth "assembly " first ++ block depth "assembly " second <:+: lines := by
  refine ⟨segments is, body e.depth is, fun other => isCut_iff, rfl, fun s hs => ?_, Emission.writes_body is e,
    readBody_textOf e.depth is, not_infix_empty_block e.depth is,
    fun depth first second stores => not_infix_store_blocks e.depth is depth stores second⟩
  rcases (isCut_segments is).each s hs with run | ⟨i, rfl, other⟩
  · exact .inl ⟨run, run.segmentLines_eq e.depth⟩
  · exact .inr ⟨i, rfl, other, segmentLines_singleton other e.depth⟩

end ProxyForge.Contract
