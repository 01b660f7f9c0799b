import ProxyForge.Proofs.Compiler.Artifact
import ProxyForge.Proofs.Literal

/-!
# Placeholders in bytecode objects

A bytecode object with a placeholder in it is never read: whatever else is wrong with it, the fault is the first
placeholder, at the number of bytes in front of it (`placeholder?_eq_some_iff`, `decode_eq_unlinked_iff`), and its text
cannot be taken for that of another fault (`message_eq_unlinked_iff`). Digits of bytes are read as these bytes in every
case, with a mark in front or without; a mark is not made by the digits themselves, since `x` is none of them.
-/

namespace ProxyForge.Text

/-- The place, in bytes, at which a word stands first in a text. -/
structure FirstAt (word text : List Char) (offset : Nat) : Prop where
  placed : ∃ before after, text = before ++ word ++ after ∧ utf8Length before = offset
  leftmost : ∀ before after, text = before ++ word ++ after → offset ≤ utf8Length before

namespace FirstAt

variable {word text : List Char} {c : Char} {offset : Nat}

theorem isInfix (h : FirstAt word text offset) : word <:+: text := by
  obtain ⟨before, after, rfl, -⟩ := h.placed
  exact ⟨before, after, rfl⟩

/-- A word at the front of a text stands there first. -/
theorem of_front (front : word <+: text) : FirstAt word text 0 := by
  obtain ⟨after, rfl⟩ := front
  exact ⟨⟨[], after, rfl, rfl⟩, fun _ _ _ => Nat.zero_le _⟩

/-- A word that is not at the front stands first where it does behind the first character. -/
theorem cons (absent : ¬ word <+: c :: text) (h : FirstAt word text offset) :
    FirstAt word (c :: text) (c.utf8Size + offset) := by
  obtain ⟨⟨before, after, rfl, same⟩, leftmost⟩ := h
  refine ⟨⟨c :: before, after, rfl, by rw [utf8Length, same]⟩, fun earlier behind whole => ?_⟩
  cases earlier with
  | nil => exact absurd ⟨behind, whole.symm⟩ absent
  | cons d earlier =>
    obtain ⟨rfl, rest⟩ := List.cons.inj whole
    rw [utf8Length]
    have least := leftmost earlier behind rest
    omega

theorem unique {other : Nat} (h : FirstAt word text offset) (h' : FirstAt word text other) : offset = other := by
  obtain ⟨before, after, whole, rfl⟩ := h.placed
  obtain ⟨before', after', whole', rfl⟩ := h'.placed
  have := h.leftmost before' after' whole'
  have := h'.leftmost before after whole
  omega

end FirstAt

theorem toString_inj {m n : Nat} : toString m = toString n ↔ m = n := by
  constructor
  · intro same
    have digits : Nat.toDigits 10 m = Nat.toDigits 10 n := String.ofList_injective same
    rw [← @Nat.ofDigitChars_ten_toDigits m, digits, Nat.ofDigitChars_ten_toDigits]
  · rintro rfl
    rfl

theorem take_toList_append {front : String} {n : Nat} (long : n ≤ front.toList.length) (rest : String) :
    (front ++ rest).toList.take n = front.toList.take n := by
  rw [String.toList_append, List.take_append_of_le_length long]

end ProxyForge.Text

namespace ProxyForge.Compiler.Bytecode

open Text

theorem isPrefix_iff {c : Char} {cs : List Char} :
    ['_', '_'] <+: c :: cs ↔ (c = '_' && cs.head? == some '_') = true := by
  cases cs with
  | nil => simp
  | cons d cs => simp [@eq_comm _ '_']

theorem placeholder?_firstAt {cs : List Char} {offset : Nat} (h : placeholder? cs = some offset) :
    FirstAt ['_', '_'] cs offset := by
  induction cs generalizing offset with
  | nil => cases h
  | cons c cs ih =>
    rw [placeholder?] at h
    split at h
    · rename_i front
      cases h
      exact .of_front (isPrefix_iff.2 front)
    · rename_i absent
      obtain ⟨rest, found, rfl⟩ := Option.map_eq_some_iff.1 h
      exact (ih found).cons fun front => absent (isPrefix_iff.1 front)

theorem placeholder?_eq_none_iff {cs : List Char} : placeholder? cs = none ↔ ¬ ['_', '_'] <:+: cs := by
  induction cs with
  | nil => simp [placeholder?]
  | cons c cs ih =>
    rw [placeholder?, List.infix_cons_iff, isPrefix_iff]
    split
    · rename_i front
      simp [front]
    · rename_i absent
      rw [Option.map_eq_none_iff, ih, or_iff_right absent]

theorem placeholder?_eq_some_iff {cs : List Char} {offset : Nat} :
    placeholder? cs = some offset ↔ FirstAt ['_', '_'] cs offset := by
  constructor
  · exact placeholder?_firstAt
  · intro h
    cases found : placeholder? cs with
    | none => exact absurd h.isInfix (placeholder?_eq_none_iff.1 found)
    | some other => rw [(placeholder?_firstAt found).unique h]

theorem placeholder?_append {cs : List Char} (clear : '_' ∉ cs) (rest : List Char) :
    placeholder? (cs ++ '_' :: '_' :: rest) = some (utf8Length cs) := by
  induction cs with
  | nil => rfl
  | cons c cs ih =>
    have other : c ≠ '_' := fun same => clear (same ▸ List.mem_cons_self)
    rw [List.cons_append, placeholder?, ih fun hm => clear (List.mem_cons_of_mem c hm)]
    simp [other, utf8Length]

/-- A placeholder is reported wherever the digits have one, and nowhere else. -/
theorem decode_eq_unlinked_iff {b : Bytecode} {offset : Nat} :
    b.decode = .error (.unlinked offset) ↔ placeholder? b.digits = some offset := by
  rw [decode_eq]
  cases placeholder? b.digits with
  | some found => simp
  | none => cases Hex.decode b.digits <;> simp

/-! ## Digits with a mark in front -/

theorem digits_marked {mark text : String} (h : mark ∈ ["", "0x"])
    (unmarked : Literal.withoutMark text.toList = text.toList) : digits ⟨mark ++ text⟩ = text.toList := by
  simp only [List.mem_cons, List.not_mem_nil, or_false] at h
  rcases h with rfl | rfl
  · rw [digits, String.empty_append, unmarked]
  · rw [digits, String.toList_append]
    rfl

/-- Digits of bytes in front of a placeholder do not make a mark. -/
theorem withoutMark_unlinked {cs : List Char} {bytes : List UInt8} (h : cs.map Char.toLower = Hex.encode bytes)
    (rest : List Char) : Literal.withoutMark (cs ++ '_' :: rest) = cs ++ '_' :: rest := by
  have whole := Hex.exists_decode_iff.1 ⟨bytes, Hex.decode_eq_ok_iff.2 h⟩
  apply Literal.withoutMark_of_ne
  intro ds marked
  rcases cs with _ | ⟨c, _ | ⟨d, cs⟩⟩
  · cases marked
  · exact absurd whole.even (by simp)
  · have second : d = 'x' := by simp_all
    have mem : 'x' ∈ c :: d :: cs := by simp [second]
    exact absurd (whole.digits 'x' mem) (by decide)

end ProxyForge.Compiler.Bytecode

namespace ProxyForge.Compiler.BytecodeFault

/-- The text of a fault says that there is a placeholder, and where, exactly if this is the fault. -/
theorem message_eq_unlinked_iff {fault : BytecodeFault} {offset : Nat} :
    fault.message = "The bytecode contains an unlinked library placeholder at offset " ++ toString offset ↔
      fault = .unlinked offset := by
  cases fault with
  | unlinked other =>
    show "The bytecode contains an unlinked library placeholder at offset " ++ toString other = _ ↔ _
    rw [String.append_right_inj, unlinked.injEq, Text.toString_inj]
  | notHex fault =>
    simp only [reduceCtorEq, iff_false]
    intro same
    have begins : ("The bytecode is invalid: " ++ fault.message).toList.take 14 = _ := congrArg (·.toList.take 14) same
    rw [Text.take_toList_append (by decide), Text.take_toList_append (by decide)] at begins
    exact absurd begins (by decide)

end ProxyForge.Compiler.BytecodeFault

namespace ProxyForge.Compiler.Bytecode

/-- Digits of bytes, in whatever case and with `0x` in front or without, are read as the bytes. -/
theorem decode_marked {cs : List Char} {bytes : List UInt8} (h : cs.map Char.toLower = Hex.encode bytes) {mark : String}
    (marked : mark ∈ ["", "0x"]) : decode ⟨mark ++ String.ofList cs⟩ = .ok bytes := by
  have unmarked : Literal.withoutMark (String.ofList cs).toList = (String.ofList cs).toList := by
    rw [String.toList_ofList, Literal.withoutMark_of_toLower h]
  rw [decode_eq_ok_iff, digits_marked marked unmarked, String.toList_ofList, Hex.decode_eq_ok_iff, h]

/-- A placeholder behind digits of bytes is reported where the digits end, whatever follows it. -/
theorem decode_unlinked {cs : List Char} {bytes : List UInt8} (h : cs.map Char.toLower = Hex.encode bytes) {mark : String}
    (marked : mark ∈ ["", "0x"]) (rest : String) :
    decode ⟨mark ++ (String.ofList cs ++ "__" ++ rest)⟩ = .error (.unlinked (2 * bytes.length)) := by
  have text : (String.ofList cs ++ "__" ++ rest).toList = cs ++ '_' :: '_' :: rest.toList := by simp
  have clear := underscore_not_mem (Hex.exists_decode_iff.1 ⟨bytes, Hex.decode_eq_ok_iff.2 h⟩)
  have unmarked : Literal.withoutMark (String.ofList cs ++ "__" ++ rest).toList =
      (String.ofList cs ++ "__" ++ rest).toList := by
    rw [text, withoutMark_unlinked h]
  rw [decode_eq_unlinked_iff, digits_marked marked unmarked, text, placeholder?_append clear, Hex.utf8Length_of_toLower h]

/-- A bytecode object is reported as unlinked exactly if its digits, without the mark in front, have two underscores in a
row, at the place in bytes where these stand first; the text of the report says so and names the place. It is read
exactly if it has an even number of digits and nothing else. So the digits of a byte string are read as this byte string,
in whatever case and with or without the mark, and are not read with a placeholder behind them, which is reported where
the digits end. -/
theorem decode_first_placeholder :
    (∀ b : Bytecode,
      (∀ offset, b.decode = .error (.unlinked offset) ↔ Text.FirstAt "__".toList b.digits offset) ∧
      ((∃ offset, b.decode = .error (.unlinked offset)) ↔ "__".toList <:+: b.digits) ∧
      (∀ offset, b.decode.mapError BytecodeFault.message =
          .error ("The bytecode contains an unlinked library placeholder at offset " ++ toString offset) ↔
        Text.FirstAt "__".toList b.digits offset) ∧
      ((∃ bytes, b.decode = .ok bytes) ↔ Hex.IsBytes b.digits)) ∧
    ∀ bytes cs, cs.map Char.toLower = Hex.encode bytes → ∀ mark ∈ ["", "0x"],
      decode ⟨mark ++ String.ofList cs⟩ = .ok bytes ∧
      ∀ rest, decode ⟨mark ++ (String.ofList cs ++ "__" ++ rest)⟩ = .error (.unlinked (2 * bytes.length)) := by
  have reported : ∀ (b : Bytecode) offset, b.decode = .error (.unlinked offset) ↔
      Text.FirstAt "__".toList b.digits offset :=
    fun b offset => decode_eq_unlinked_iff.trans placeholder?_eq_some_iff
  refine ⟨fun b => ⟨reported b, ?_, fun offset => ?_, ?_⟩, fun bytes cs h mark marked => ⟨decode_marked h marked, ?_⟩⟩
  · have absent : placeholder? b.digits = none ↔ ¬ "__".toList <:+: b.digits := placeholder?_eq_none_iff
    simp only [decode_eq_unlinked_iff]
    rw [← Option.ne_none_iff_exists', ne_eq, absent, Classical.not_not]
  · rw [← reported b offset]
    cases b.decode with
    | ok bytes =>
      show Except.ok bytes = _ ↔ Except.ok bytes = _
      simp only [reduceCtorEq]
    | error fault =>
      show Except.error fault.message = _ ↔ Except.error fault = _
      rw [Except.error.injEq, Except.error.injEq, BytecodeFault.message_eq_unlinked_iff]
  · simp only [decode_eq_ok_iff, Hex.exists_decode_iff]
  · exact decode_unlinked h marked

end ProxyForge.Compiler.Bytecode
