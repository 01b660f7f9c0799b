import ProxyForge.Proofs.Assembly.Syntax
import ProxyForge.Proofs.Contract.Writes
import ProxyForge.Proofs.Literal.Integer

/-!
# Texts up to their literals

A literal is a word that begins with a digit and goes on with hexadecimal digits, behind `0x` perhaps. `masked` leaves
of a text what is in no such word, so two texts with the same mask differ in their literals at most. A template has one
mask, whatever literals it is filled with (`Template.Fits.masked_eq`), and a letter that no literal has stands in it only
if it stands in a part (`Template.Fits.not_mem`).
-/

namespace ProxyForge.Contract

open Assembly (isWordChar)

/-! ## Literals -/

/-- A digit, and more digits of hexadecimal numbers behind it or the `x` of their mark. -/
structure IsLiteral (cs : List Char) : Prop where
  digit : cs.head?.any Char.isDigit = true
  all : ∀ c ∈ cs, Hex.isDigit c = true ∨ c = 'x'

theorem IsLiteral.isWordChar {cs : List Char} (h : IsLiteral cs) : ∀ c ∈ cs, isWordChar c = true := by
  intro c hc
  rcases h.all c hc with digit | rfl
  · obtain ⟨v, hv⟩ := Hex.isDigit_iff.1 digit
    rw [Assembly.isWordChar, Hex.isAlphanum_of_value? hv, Bool.true_or]
  · rfl

theorem IsLiteral.not_mem {cs : List Char} (h : IsLiteral cs) {c : Char} (noDigit : Hex.isDigit c = false)
    (noMark : c ≠ 'x') : c ∉ cs := by
  intro hc
  rcases h.all c hc with digit | mark
  · rw [noDigit] at digit
    cases digit
  · exact noMark mark

theorem isLiteral_of_toLower {cs : List Char} {bs : List UInt8} (h : cs.map Char.toLower = Hex.encode bs) :
    IsLiteral ('0' :: 'x' :: cs) := by
  refine ⟨rfl, fun c hc => ?_⟩
  simp only [List.mem_cons] at hc
  rcases hc with rfl | rfl | hc
  · exact .inl rfl
  · exact .inr rfl
  · have lower : c.toLower ∈ Hex.encode bs := h ▸ List.mem_map_of_mem hc
    obtain ⟨n, small, digit⟩ := Hex.exists_digit_of_mem_encode lower
    exact .inl (Hex.isDigit_iff.2 ⟨n, by rw [← Hex.value?_toLower, digit, (Hex.value?_digit small).1]⟩)

theorem isLiteral_encode (bs : List UInt8) : IsLiteral ('0' :: 'x' :: Hex.encode bs) :=
  isLiteral_of_toLower (Hex.decode_eq_ok_iff.1 (Hex.decode_encode bs))

theorem isLiteral_checksummed (a : Address) : IsLiteral a.checksummed.toList := by
  rw [Address.toList_checksummed]
  exact isLiteral_of_toLower (Address.map_toLower_checksumDigits a)

theorem isLiteral_decimal (w : Word) : IsLiteral w.decimal.toList := by
  have digits : ∀ c ∈ w.decimal.toList, c.isDigit = true := fun c hc => Literal.isDigit_of_mem_toString hc
  refine ⟨?_, fun c hc => .inl (Hex.isDigit_of_decimal (digits c hc))⟩
  cases written : w.decimal.toList with
  | nil => simp [Word.decimal] at written
  | cons d ds => exact digits d (written ▸ List.mem_cons_self)

theorem isLiteral_literal (value : Operand) : IsLiteral value.literal.toList := by
  cases value with
  | integer value => exact isLiteral_decimal value
  | address value =>
    rw [Operand.literal, Address.toList_mark_hex]
    exact isLiteral_encode value.bytes

/-! ## Masks -/

/-- Where a scan of a text stands: outside of words, in a word that is a literal, or in another one. -/
inductive Scan where
  | outside
  | literal
  | name
  deriving DecidableEq, Repr

/-- The mask of a text that is scanned from some place on. -/
def maskedFrom : Scan → List Char → List (Option Char)
  | _, [] => []
  | place, c :: cs =>
    if isWordChar c then
      match place with
      | .outside => if c.isDigit then none :: maskedFrom .literal cs else some c :: maskedFrom .name cs
      | .literal => maskedFrom .literal cs
      | .name => some c :: maskedFrom .name cs
    else some c :: maskedFrom .outside cs

/-- A text with `none` in place of each word that begins with a digit. -/
def masked (cs : List Char) : List (Option Char) :=
  maskedFrom .outside cs

/-- A text behind a character that is no part of a word is masked on its own. -/
theorem maskedFrom_append_cons {c : Char} (h : isWordChar c = false) (place : Scan) (as bs : List Char) :
    maskedFrom place (as ++ c :: bs) = maskedFrom place (as ++ [c]) ++ masked bs := by
  -- Behind `c` the scan is outside of words, in whatever place it has come there.
  induction as generalizing place with
  | nil => simp [maskedFrom, h, masked]
  | cons a as ih =>
    simp only [List.cons_append, maskedFrom, ih]
    by_cases inWord : isWordChar a = true
    · cases place with
      | outside => by_cases digit : a.isDigit = true <;> simp [inWord, digit]
      | literal => simp [inWord]
      | name => simp [inWord]
    · simp [inWord]

/-- A text whose last character is no part of a word. -/
def EndsOutside (cs : List Char) : Prop :=
  cs.getLast?.any (! isWordChar ·) = true

/-- A text whose first character is no part of a word. -/
def BeginsOutside (cs : List Char) : Prop :=
  cs.head?.any (! isWordChar ·) = true

instance : DecidablePred EndsOutside :=
  fun cs => inferInstanceAs (Decidable (cs.getLast?.any (! isWordChar ·) = true))

instance : DecidablePred BeginsOutside :=
  fun cs => inferInstanceAs (Decidable (cs.head?.any (! isWordChar ·) = true))

theorem masked_append {as : List Char} (ends : EndsOutside as) (bs : List Char) :
    masked (as ++ bs) = masked as ++ masked bs := by
  cases as using List.reverseRecOn with
  | nil => cases ends
  | append_singleton as c =>
    have apart : isWordChar c = false := by simpa [EndsOutside] using ends
    rw [masked, List.append_assoc, List.singleton_append, maskedFrom_append_cons apart]
    rfl

/-- The characters of a literal are passed over. -/
theorem maskedFrom_literal {word rest : List Char} (all : ∀ c ∈ word, isWordChar c = true)
    (starts : BeginsOutside rest) : maskedFrom .literal (word ++ rest) = masked rest := by
  induction word with
  | nil =>
    cases rest with
    | nil => rfl
    | cons c rest =>
      have apart : isWordChar c = false := by simpa [BeginsOutside] using starts
      simp [maskedFrom, masked, apart]
  | cons c word ih =>
    rw [List.cons_append, maskedFrom, if_pos (all c List.mem_cons_self)]
    exact ih fun d hd => all d (List.mem_cons_of_mem _ hd)

theorem masked_literal_append {literal rest : List Char} (h : IsLiteral literal) (starts : BeginsOutside rest) :
    masked (literal ++ rest) = none :: masked rest := by
  cases literal with
  | nil => cases h.digit
  | cons d digits =>
    have digit : d.isDigit = true := h.digit
    rw [List.cons_append, masked, maskedFrom, if_pos (h.isWordChar d List.mem_cons_self)]
    simp only [digit, if_true, List.cons.injEq, true_and]
    exact maskedFrom_literal (fun c hc => h.isWordChar c (List.mem_cons_of_mem _ hc)) starts

example : masked "f(0x1F, a2)".toList = "f(".toList.map some ++ none :: ", a2)".toList.map some := by decide

/-! ## Templates -/

/-- The parts of a text between which literals stand; no part is a part of a word with one. -/
structure Template where
  front : List Char
  parts : List (List Char)
  ends : EndsOutside front
  apart : ∀ part ∈ parts, BeginsOutside part ∧ EndsOutside part

/-- Literals, each with a part behind it. -/
def alternated (literals parts : List (List Char)) : List Char :=
  (literals.zip parts).flatMap fun p => p.1 ++ p.2

theorem masked_alternated {front : List Char} {literals parts : List (List Char)} (ends : EndsOutside front)
    (apart : ∀ part ∈ parts, BeginsOutside part ∧ EndsOutside part) (all : ∀ literal ∈ literals, IsLiteral literal)
    (enough : literals.length = parts.length) :
    masked (front ++ alternated literals parts) = masked front ++ parts.flatMap fun part => none :: masked part := by
  induction literals generalizing front parts with
  | nil =>
    rw [List.length_eq_zero_iff.1 enough.symm]
    simp [alternated]
  | cons literal literals ih =>
    cases parts with
    | nil => cases enough
    | cons part parts =>
      obtain ⟨first, last⟩ := apart part List.mem_cons_self
      have starts : BeginsOutside (part ++ alternated literals parts) := by
        cases part with
        | nil => cases first
        | cons c part => exact first
      have whole : alternated (literal :: literals) (part :: parts) =
          literal ++ (part ++ alternated literals parts) := by
        simp [alternated]
      have tail := ih last (fun q hq => apart q (List.mem_cons_of_mem _ hq))
        (fun l hl => all l (List.mem_cons_of_mem _ hl)) (Nat.succ.inj enough)
      rw [whole, masked_append ends, masked_literal_append (all literal List.mem_cons_self) starts, tail,
        List.flatMap_cons]
      rfl

namespace Template

/-- A template with its literals. -/
def fill (t : Template) (literals : List (List Char)) : List Char :=
  t.front ++ alternated literals t.parts

/-- The mask of a template. -/
def mask (t : Template) : List (Option Char) :=
  masked t.front ++ t.parts.flatMap fun part => none :: masked part

/-- The texts of a template, each with a literal for every room. -/
inductive Fits (t : Template) : List Char → Prop where
  | fill (literals : List (List Char)) (all : ∀ literal ∈ literals, IsLiteral literal)
      (enough : literals.length = t.parts.length) : t.Fits (t.fill literals)

variable {t : Template} {text : List Char}

/-- The texts of a template have the mask of the template, whatever it is filled with. -/
theorem Fits.masked_eq (h : t.Fits text) : masked text = t.mask := by
  obtain ⟨literals, all, enough⟩ := h
  exact masked_alternated t.ends t.apart all enough

theorem Fits.not_mem (h : t.Fits text) {c : Char} (noDigit : Hex.isDigit c = false) (noMark : c ≠ 'x')
    (noPart : ∀ part ∈ t.front :: t.parts, c ∉ part) : c ∉ text := by
  obtain ⟨literals, all, -⟩ := h
  intro hc
  rcases List.mem_append.1 hc with hc | hc
  · exact noPart t.front List.mem_cons_self hc
  · obtain ⟨⟨literal, part⟩, both, hc⟩ := List.mem_flatMap.1 hc
    obtain ⟨inLiterals, inParts⟩ := List.of_mem_zip both
    rcases List.mem_append.1 hc with hc | hc
    · exact (all literal inLiterals).not_mem noDigit noMark hc
    · exact noPart part (List.mem_cons_of_mem _ inParts) hc

/-- A word of the front is in every text of the template. -/
theorem Fits.mentions (h : t.Fits text) {word : String} (front : Mentions word t.front) : Mentions word text := by
  obtain ⟨literals, -, -⟩ := h
  exact List.IsInfix.trans front (List.prefix_append _ _).isInfix

end Template

end ProxyForge.Contract
