import ProxyForge.Contract.Emitter
import ProxyForge.Proofs.Contract.Writes

/-!
# What an emitter writes

Every step of an emitter but those that only move the indentation writes some lines, indented by the number of open
blocks, and leaves as many blocks open as there were (`Writes`). Steps one behind the other write their lines one behind
the other (`Writes.append`), and a block writes its braces around what is written inside (`Writes.enclose`). A body is
written segment by segment, whatever the index of its loop passes over at once (`bodyFrom_eq`). So the text of a whole
program is the text of its lines (`emit_eq`), and nothing that the emitter does can make it stop.
-/

namespace ProxyForge.Contract

/-- Lines as a text, each with a line feed behind it. -/
def textOf (lines : List String) : String :=
  String.join (lines.map (· ++ "\n"))

theorem textOf_append (as bs : List String) : textOf (as ++ bs) = textOf as ++ textOf bs := by
  apply String.toList_injective
  simp [textOf, String.toList_join]

theorem Program.source_eq (p : Program) : p.source = textOf p.lines := rfl

namespace Emission

/-- A step that appends lines, which depend on the number of open blocks only, and leaves this number as it was. -/
def Writes (a : Emission Unit) (lines : Nat → List String) : Prop :=
  ∀ e : Emitter, a.run e = .ok ((), { e with text := e.text ++ textOf (lines e.depth) })

section Steps

variable {a b : Emission Unit} {f g : Nat → List String}

/-- What follows writes its lines behind those of the step in front of it. -/
theorem Writes.append (ha : Writes a f) (hb : Writes b g) :
    Writes (a >>= fun _ => b) fun depth => f depth ++ g depth := by
  intro e
  rw [StateT.run_bind, ha e, textOf_append, ← String.append_assoc]
  exact hb _

theorem writes_pure : Writes (pure ()) fun _ => [] := by
  intro e
  have unchanged : e.text ++ textOf [] = e.text := String.append_empty
  rw [unchanged]
  rfl

theorem writes_line (text : String) : Writes (line text) fun depth => [Contract.line depth text] := by
  intro e
  have single : textOf [Contract.line e.depth text] = Contract.line e.depth text ++ "\n" := String.empty_append
  rw [single]
  rfl

theorem writes_blank : Writes blank fun _ => [""] := by
  intro e
  rfl

/-- One tab more and one tab less around a step let it write its lines as inside one block more. -/
theorem Writes.indented (ha : Writes a f) (hb : Writes b g) :
    Writes (indent >>= fun _ => a >>= fun _ => unindent >>= fun _ => b) fun depth => f (depth + 1) ++ g depth := by
  intro e
  have more : indent.run e = .ok ((), { e with depth := e.depth + 1 }) := rfl
  have less : ∀ text, unindent.run { text, depth := e.depth + 1 } = .ok ((), { text, depth := e.depth }) :=
    fun _ => rfl
  rw [StateT.run_bind, more]
  show (a >>= fun _ => unindent >>= fun _ => b).run { e with depth := e.depth + 1 } = _
  rw [StateT.run_bind, ha]
  show (unindent >>= fun _ => b).run { text := _, depth := e.depth + 1 } = _
  rw [StateT.run_bind, less, textOf_append, ← String.append_assoc]
  exact hb _

/-- A block writes its braces around the lines inside, and these one block deeper. -/
theorem Writes.enclose (ha : Writes a f) {header front : String} (same : opening header = front ++ "\x7b") :
    Writes (enclose header a) fun depth => block depth front (f (depth + 1)) := by
  have lines := (writes_line (opening header)).append (ha.indented (writes_line "\x7d"))
  rw [same] at lines
  have steps : Emission.enclose header a =
      line (front ++ "\x7b") >>= fun _ => indent >>= fun _ => a >>= fun _ => unindent >>= fun _ => line "\x7d" := by
    simp only [Emission.enclose, openBlock, closeBlock, same, bind_assoc]
  rw [steps]
  exact lines

/-- Steps for the members of a list write their lines in the order of the list. -/
theorem writes_forM {α : Type} {step : α → Emission Unit} {lines : α → Nat → List String}
    (each : ∀ x, Writes (step x) (lines x)) (xs : List α) :
    Writes (xs.forM step) fun depth => xs.flatMap fun x => lines x depth := by
  induction xs with
  | nil => exact writes_pure
  | cons x xs ih => exact (each x).append ih

theorem writes_lines (texts : List String) : Writes (texts.forM line) fun depth => texts.map (Contract.line depth) := by
  have each := writes_forM writes_line texts
  simpa only [← List.map_eq_flatMap] using each

theorem writes_instruction (i : Instruction) : Writes (instruction i) fun depth => i.lines depth := by
  cases i with
  | store slot value => exact writes_line _
  | transfer token recipient amount => exact writes_line _
  | forward target gasReserve =>
    exact (writes_line (Instruction.targetText target)).append
      ((writes_lines (Instruction.delegation gasReserve)).enclose rfl)

end Steps

/-! ## Bodies -/

theorem stretch_of_le {is : List Instruction} {start stop : Nat} (h : start ≤ stop) (inside : stop ≤ is.length) :
    stretch is start stop = pure ((is.take stop).drop start) := by
  rw [stretch, if_pos ⟨h, inside⟩]

theorem instructionAt_of_lt {is : List Instruction} {index : Nat} (h : index < is.length) :
    instructionAt is index = pure is[index] := by
  rw [instructionAt, List.getElem?_eq_getElem h]

/-- Writes a segment: a run of stores in one block, another instruction as it is. -/
def segment (s : List Instruction) : Emission Unit :=
  if s.all Instruction.isStore then enclose "assembly" (s.forM instruction) else s.forM instruction

theorem segment_of_stores {run : List Instruction} (stores : ∀ i ∈ run, i.isStore = true) :
    segment run = enclose "assembly" (run.forM instruction) := by
  rw [segment, if_pos (by simpa using stores)]

theorem segment_singleton {i : Instruction} (other : i.isStore = false) : segment [i] = instruction i := by
  have single : [i].forM instruction = instruction i := bind_pure (instruction i)
  rw [segment, if_neg (by simp [other]), single]

/-- From a place on, the segments of the instructions from there on are written one by one. -/
theorem bodyFrom_eq (is : List Instruction) (index : Nat) :
    bodyFrom is index = (segments (is.drop index)).forM segment := by
  induction left : is.length - index using Nat.strongRecOn generalizing index with
  | ind n ih =>
    rw [bodyFrom]
    by_cases inside : index < is.length
    case neg =>
      rw [if_neg inside, List.drop_eq_nil_of_le (Nat.le_of_not_lt inside)]
      rfl
    rw [if_pos inside, stretch_of_le (Nat.le_of_lt inside) (Nat.le_refl _), pure_bind, List.take_length]
    obtain ⟨run, hrun⟩ : ∃ run, (is.drop index).takeWhile Instruction.isStore = run := ⟨_, rfl⟩
    obtain ⟨rest, hrest⟩ : ∃ rest, (is.drop index).dropWhile Instruction.isStore = rest := ⟨_, rfl⟩
    have whole : is.drop index = run ++ rest := by rw [← hrun, ← hrest, List.takeWhile_append_dropWhile]
    have stops : ∀ i, rest.head? = some i → i.isStore = false := by
      intro i hi
      have first := List.head?_dropWhile_not Instruction.isStore (is.drop index)
      rwa [hrest, hi] at first
    rw [hrun]
    by_cases more : 0 < run.length
    case pos =>
      have stores : ∀ i ∈ run, i.isStore = true := by
        intro i hi
        rw [← hrun] at hi
        exact List.mem_takeWhile_imp hi
      have fits : index + run.length ≤ is.length := by
        have := congrArg List.length whole
        rw [List.length_drop, List.length_append] at this
        omega
      have cut : (is.take (index + run.length)).drop index = run := by
        rw [List.drop_take, whole, Nat.add_sub_cancel_left, List.take_left]
      have behind : is.drop (index + run.length) = rest := by rw [← List.drop_drop, whole, List.drop_left]
      have later := ih (is.length - (index + run.length)) (by omega) (index + run.length) rfl
      rw [if_pos more, stretch_of_le (Nat.le_add_right _ _) fits, cut, pure_bind, later, behind, whole,
        segments_append stores (List.ne_nil_of_length_pos more) stops, ← segment_of_stores stores]
      rfl
    case neg =>
      have first : is.drop index = is[index] :: is.drop (index + 1) := List.drop_eq_getElem_cons inside
      have empty : run = [] := List.eq_nil_of_length_eq_zero (by omega)
      have other : is[index].isStore = false := by
        apply stops
        rw [← List.nil_append rest, ← empty, ← whole, first]
        rfl
      have later := ih (is.length - (index + 1)) (by omega) (index + 1) rfl
      rw [if_neg more, instructionAt_of_lt inside, pure_bind, later, first, segments_cons other, ← segment_singleton other]
      rfl

theorem writes_segment (s : List Instruction) : Writes (segment s) fun depth => segmentLines depth s := by
  have inside := writes_forM writes_instruction s
  have header : opening "assembly" = "assembly " ++ "\x7b" := rfl
  unfold segment segmentLines
  split
  · exact inside.enclose header
  · exact inside

theorem writes_body (is : List Instruction) : Writes (body is) fun depth => Contract.body depth is := by
  have each := writes_forM writes_segment (segments is)
  rw [← List.drop_zero (l := is), ← bodyFrom_eq] at each
  exact each

/-! ## Functions and programs -/

theorem writes_constructor (is : List Instruction) : Writes (constructor is) fun depth =>
    Contract.line depth "constructor()" :: Contract.line (depth + 1) "public" ::
      block depth "" (Contract.body (depth + 1) is) :=
  (writes_line "constructor()").append ((writes_line "public").indented ((writes_body is).enclose rfl))

theorem writes_fallback (is : List Instruction) : Writes (fallback is) fun depth =>
    Contract.line depth "function () external" :: block depth "" (Contract.body (depth + 1) is) :=
  (writes_line "function () external").append ((writes_body is).enclose rfl)

theorem opening_contract (name : String) : opening ("contract " ++ name) = "contract " ++ name ++ " " ++ "\x7b" := by
  have named : ("contract " ++ name).isEmpty = false := by
    simp
  rw [opening, named]
  simp [String.append_assoc]

/-- The fallback function of a contract that does something on a call, and the empty line in front of it. -/
theorem writes_ifFallback (is : List Instruction) :
    Writes (if !is.isEmpty then blank >>= fun _ => fallback is else pure ()) fun depth =>
      if is.isEmpty then []
      else "" :: Contract.line depth "function () external" :: block depth "" (Contract.body (depth + 1) is) := by
  cases is with
  | nil => exact writes_pure
  | cons i is => exact writes_blank.append (writes_fallback (i :: is))

theorem line_zero (text : String) : Contract.line 0 text = text := by
  simp [Contract.line]

/-- The steps of a program write its lines. -/
theorem writes_program (p : Program) : ∃ lines, Writes (program p) lines ∧ lines 0 = p.lines := by
  have inside := (writes_lines Storage.declarations).append
    (writes_blank.append ((writes_constructor p.constructor).append (writes_ifFallback p.fallback)))
  have whole := (writes_line ("pragma solidity " ++ languageVersion ++ ";")).append (writes_blank.append
    ((writes_line ("import \"" ++ librarySourceName ++ "\";")).append (writes_blank.append
      (inside.enclose (opening_contract p.name)))))
  refine ⟨_, whole, ?_⟩
  simp only [Program.lines, Program.contractLines, Program.constructorLines, Program.fallbackLines, line_zero,
    List.cons_append, List.nil_append, List.append_assoc]

/-- A program is written without a fault: its source, with no block left open. -/
theorem emit_eq (p : Program) : emit p = .ok { text := p.source, depth := 0 } := by
  obtain ⟨lines, writes, same⟩ := writes_program p
  have run := writes { text := "", depth := 0 }
  rw [same, ← Program.source_eq, String.empty_append] at run
  rw [emit, run]
  rfl

end Emission
end ProxyForge.Contract
