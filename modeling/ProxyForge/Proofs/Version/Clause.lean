import Mathlib.Data.Prod.Lex
import ProxyForge.Json.Number
import ProxyForge.Proofs.Literal
import ProxyForge.Version.Requirement

/-!
# Clauses on versions

A clause is an operator in front of three whole numbers, and a version without an operator is meant exactly. Which
versions it admits is said in the order of the three numbers (`Clause.Admits`). Its text is read as a comparator
(`read_text`) that accepts the same releases (`accepts_comparator_iff`), and texts of up to 32 clauses with commas
between them are read as the requirement of all of them (`parse_joined`). Behind the clauses nothing else is read: a
text that goes on without a comma is refused (`parse_joined_glued`).
-/

namespace ProxyForge

/-- The three numbers of a version, in the order of versions. -/
def Version.numbers (v : Version) : ℕ ×ₗ ℕ ×ₗ ℕ :=
  toLex (v.major, toLex (v.minor, v.patch))

/-- What may stand in front of a version. -/
inductive Operator where
  | absent
  | exact
  | greater
  | greaterEq
  | less
  | lessEq
  | tilde
  | caret
  deriving DecidableEq, Repr

namespace Operator

/-- The characters of an operator. -/
def chars : Operator → List Char
  | absent => []
  | exact => ['=']
  | greater => ['>']
  | greaterEq => ['>', '=']
  | less => ['<']
  | lessEq => ['<', '=']
  | tilde => ['~']
  | caret => ['^']

/-- How an operator bounds a version. -/
def bound : Operator → Bound
  | absent | exact => .exact
  | greater => .greater
  | greaterEq => .greaterEq
  | less => .less
  | lessEq => .lessEq
  | tilde => .tilde
  | caret => .caret

end Operator

/-- An operator and a whole version, each of its numbers of 64 bits. -/
structure Clause where
  operator : Operator
  major : UInt64
  minor : UInt64
  patch : UInt64
  deriving DecidableEq, Repr

namespace Clause

/-- The three numbers of a clause, in the order of versions. -/
def numbers (c : Clause) : ℕ ×ₗ ℕ ×ₗ ℕ :=
  toLex (c.major.toNat, toLex (c.minor.toNat, c.patch.toNat))

/-- The version of a clause as it is written: three numbers without leading zeros and dots between them. -/
def numerals (c : Clause) : List Char :=
  (toString c.major.toNat).toList ++ '.' :: ((toString c.minor.toNat).toList ++ '.' :: (toString c.patch.toNat).toList)

/-- The versions that a clause admits. A caret lets a version grow behind its first number that is not zero, and a tilde
behind its minor number. -/
def Admits (c : Clause) (v : Version) : Prop :=
  match c.operator with
  | .absent | .exact => v.numbers = c.numbers
  | .greater => c.numbers < v.numbers
  | .greaterEq => c.numbers ≤ v.numbers
  | .less => v.numbers < c.numbers
  | .lessEq => v.numbers ≤ c.numbers
  | .tilde => v.major = c.major.toNat ∧ v.minor = c.minor.toNat ∧ c.patch.toNat ≤ v.patch
  | .caret =>
    if 0 < c.major then c.numbers ≤ v.numbers ∧ v.major = c.major.toNat
    else if 0 < c.minor then c.numbers ≤ v.numbers ∧ v.major = 0 ∧ v.minor = c.minor.toNat
    else v.numbers = c.numbers

instance decidableAdmits : (c : Clause) → (v : Version) → Decidable (c.Admits v)
  | ⟨.absent, _, _, _⟩, _ => inferInstanceAs (Decidable (_ = _))
  | ⟨.exact, _, _, _⟩, _ => inferInstanceAs (Decidable (_ = _))
  | ⟨.greater, _, _, _⟩, _ => inferInstanceAs (Decidable (_ < _))
  | ⟨.greaterEq, _, _, _⟩, _ => inferInstanceAs (Decidable (_ ≤ _))
  | ⟨.less, _, _, _⟩, _ => inferInstanceAs (Decidable (_ < _))
  | ⟨.lessEq, _, _, _⟩, _ => inferInstanceAs (Decidable (_ ≤ _))
  | ⟨.tilde, _, _, _⟩, _ => inferInstanceAs (Decidable (_ ∧ _))
  | ⟨.caret, major, minor, _⟩, _ => inferInstanceAs (Decidable (if 0 < major then _ else if 0 < minor then _ else _))

/-- The text of a clause without blanks; a version without an operator is marked as exact. -/
def text (c : Clause) : List Char :=
  (if c.operator = .absent then ['='] else c.operator.chars) ++ c.numerals

/-- The comparator of a clause. -/
def comparator (c : Clause) : Comparator where
  bound := c.operator.bound
  major := c.major.toNat
  minor := some c.minor.toNat
  patch := some c.patch.toNat
  pre := []

end Clause

/-! ## Reading numbers -/

namespace Version

/-- A text that does not go on with a digit. -/
def EndsNumber (rest : List Char) : Prop :=
  ∀ c, rest.head? = some c → c.isDigit = false

theorem digitsFrom_append {part : VersionPart} {value : Nat} {digits rest : List Char}
    (all : ∀ c ∈ digits, c.isDigit = true) (positive : value ≠ 0)
    (small : Nat.ofDigitChars 10 digits value < Nat.pow 2 64) (ends : EndsNumber rest) :
    digitsFrom part value (digits ++ rest) = .ok (Nat.ofDigitChars 10 digits value, rest) := by
  induction digits generalizing value with
  | nil =>
    cases rest with
    | nil => rfl
    | cons c rest =>
      have other : c.isDigit = false := ends c rfl
      simp [digitsFrom, other]
  | cons c digits ih =>
    rw [Nat.ofDigitChars_cons, Nat.mul_comm] at small ⊢
    have bound : value * 10 + (c.toNat - 48) < Nat.pow 2 64 :=
      Nat.lt_of_le_of_lt (Literal.le_ofDigitChars _ _) small
    rw [List.cons_append, digitsFrom, if_pos (all c (by simp)), if_neg positive]
    simp only [bound, if_true]
    exact ih (fun d hd => all d (by simp [hd])) (by omega) small

/-- A number of 64 bits is read back from its digits. -/
theorem number_toString (part : VersionPart) {n : Nat} (small : n < Nat.pow 2 64) {rest : List Char}
    (ends : EndsNumber rest) : number part ((toString n).toList ++ rest) = .ok (n, rest) := by
  have all : ∀ c ∈ Nat.toDigits 10 n, c.isDigit = true := fun c hc =>
    Nat.isDigit_of_mem_toDigits (by decide) (by decide) hc
  have whole : Nat.ofDigitChars 10 (Nat.toDigits 10 n) 0 = n := Nat.ofDigitChars_ten_toDigits
  rw [Nat.toString_eq_ofList_toDigits, String.toList_ofList]
  by_cases zero : n = 0
  · subst zero
    cases rest with
    | nil => rfl
    | cons c rest =>
      have other : c.isDigit = false := ends c rfl
      simp [number, digitsFrom, other]
  · obtain ⟨c, digits, written, first⟩ := Json.toDigits_eq_cons zero
    rw [written] at all whole ⊢
    have digit := all c List.mem_cons_self
    have positive : c.toNat - 48 ≠ 0 := by
      intro zero
      have range : 48 ≤ c.toNat := by
        simp only [Char.isDigit, Bool.and_eq_true, decide_eq_true_eq, UInt32.le_iff_toNat_le] at digit
        exact digit.1
      exact first (Char.toNat_inj.1 (show c.toNat = '0'.toNat by simp; omega))
    have value : Nat.ofDigitChars 10 digits (c.toNat - 48) = n := by
      rwa [Nat.ofDigitChars_cons, Nat.mul_zero, Nat.zero_add] at whole
    rw [List.cons_append, number, if_pos digit,
      digitsFrom_append (fun d hd => all d (List.mem_cons_of_mem _ hd)) positive (by rwa [value]) ends, value]

end Version

/-! ## Reading clauses -/

namespace Clause

theorem ok_bind {ε α β : Type} (a : α) (f : α → Except ε β) : (Except.ok a >>= f) = f a := rfl

theorem endsNumber_dot (rest : List Char) : Version.EndsNumber ('.' :: rest) := by
  intro c hc
  rw [← Option.some.inj hc]
  rfl

/-- What may stand behind a clause in a requirement: nothing, or a comma. -/
def Ends (rest : List Char) : Prop :=
  ∀ c, rest.head? = some c → c = ','

/-- What may stand behind a clause without becoming a part of it. -/
def Stops (rest : List Char) : Prop :=
  ∀ c, rest.head? = some c → c.isDigit = false ∧ c ≠ '-' ∧ c ≠ '+' ∧ c ≠ ' '

theorem Stops.endsNumber {rest : List Char} (h : Stops rest) : Version.EndsNumber rest :=
  fun c hc => (h c hc).1

theorem Ends.stops {rest : List Char} (h : Ends rest) : Stops rest := by
  intro c hc
  rw [h c hc]
  decide

theorem numerals_append (c : Clause) (rest : List Char) : c.numerals ++ rest =
    (toString c.major.toNat).toList ++ '.' :: ((toString c.minor.toNat).toList ++
      '.' :: ((toString c.patch.toNat).toList ++ rest)) := by
  simp [numerals]

theorem numerals_eq_cons (c : Clause) : ∃ d digits, c.numerals = d :: digits ∧ d.isDigit = true := by
  cases hd : (toString c.major.toNat).toList with
  | nil => simp at hd
  | cons d digits =>
    have digit : d.isDigit = true := Literal.isDigit_of_mem_toString (hd ▸ List.mem_cons_self)
    exact ⟨d, _, by rw [numerals, hd]; rfl, digit⟩

theorem isDigit_or_dot_of_mem_numerals {c : Clause} {d : Char} (h : d ∈ c.numerals) : d.isDigit = true ∨ d = '.' := by
  simp only [numerals, List.mem_append, List.mem_cons] at h
  rcases h with h | h | h | h | h
  · exact .inl (Literal.isDigit_of_mem_toString h)
  · exact .inr h
  · exact .inl (Literal.isDigit_of_mem_toString h)
  · exact .inr h
  · exact .inl (Literal.isDigit_of_mem_toString h)

/-- The operator in front of a version is read as its bound. -/
theorem ofChars_text (c : Clause) (rest : List Char) :
    Bound.ofChars (c.text ++ rest) = (some c.operator.bound, c.numerals ++ rest) := by
  obtain ⟨d, digits, numerals, digit⟩ := c.numerals_eq_cons
  have other : d ≠ '=' := by
    rintro rfl
    exact absurd digit (by decide)
  rw [text, numerals]
  cases c.operator <;> simp [Operator.chars, Operator.bound, Bound.ofChars, other]

theorem numberOrWildcard_toString (part : VersionPart) {n : Nat} (small : n < Nat.pow 2 64) {rest : List Char}
    (ends : Version.EndsNumber rest) :
    Comparator.numberOrWildcard part ((toString n).toList ++ rest) = .ok (some n, rest) := by
  have digit : Comparator.startsWithWildcard ((toString n).toList ++ rest) = false := by
    cases hd : (toString n).toList with
    | nil => simp at hd
    | cons d digits =>
      have digit : d.isDigit = true := Literal.isDigit_of_mem_toString (hd ▸ List.mem_cons_self)
      simp only [Comparator.startsWithWildcard, List.cons_append, List.head?_cons, Option.any_some,
        Comparator.isWildcard, Bool.or_eq_false_iff, decide_eq_false_iff_not]
      refine ⟨⟨?_, ?_⟩, ?_⟩ <;> rintro rfl <;> exact absurd digit (by decide)
  rw [Comparator.numberOrWildcard, digit, Version.number_toString part small ends]
  rfl

/-- A clause is read as its comparator, up to what stands behind it. -/
theorem read_text (c : Clause) {rest : List Char} (stops : Stops rest) :
    Comparator.read (c.text ++ rest) = .ok (c.comparator, .patch, rest) := by
  obtain ⟨d, digits, numerals, digit⟩ := c.numerals_eq_cons
  have unspaced : Comparator.dropSpaces (c.numerals ++ rest) = (toString c.major.toNat).toList ++
      '.' :: ((toString c.minor.toNat).toList ++ '.' :: ((toString c.patch.toNat).toList ++ rest)) := by
    rw [← numerals_append, numerals, List.cons_append, Comparator.dropSpaces, List.dropWhile_cons_of_neg]
    simp only [beq_iff_eq]
    rintro rfl
    exact absurd digit (by decide)
  have major := Version.number_toString .major c.major.toNat_lt
    (endsNumber_dot ((toString c.minor.toNat).toList ++ '.' :: ((toString c.patch.toNat).toList ++ rest)))
  have minor := numberOrWildcard_toString .minor c.minor.toNat_lt
    (endsNumber_dot ((toString c.patch.toNat).toList ++ rest))
  have patch := numberOrWildcard_toString .patch c.patch.toNat_lt stops.endsNumber
  have last : Version.preRelease rest = .ok ([], rest) ∧ Version.buildMetadata rest = .ok ([], rest) ∧
      Comparator.dropSpaces rest = rest := by
    cases rest with
    | nil => exact ⟨rfl, rfl, rfl⟩
    | cons e rest =>
      obtain ⟨-, hyphen, plus, space⟩ := stops e rfl
      simp [Version.preRelease, Version.buildMetadata, Comparator.dropSpaces, hyphen, plus, space]
  have dot : ∀ cs : List Char, (('.' :: cs).head? == some '.') = true := fun _ => rfl
  simp only [Comparator.read, ofChars_text, unspaced, major, ok_bind, dot, if_true, List.tail_cons,
    minor, patch, Option.isNone_some, Bool.and_false, Bool.false_and, Bool.false_eq_true, if_false, Option.isSome_some,
    last, pure_bind, Option.getD_some]
  rfl

theorem ends_nil : Ends [] := by
  intro c hc
  cases hc

theorem ends_comma (rest : List Char) : Ends (',' :: rest) := by
  intro c hc
  exact (Option.some.inj hc).symm

theorem text_eq_cons (c : Clause) :
    ∃ first rest, c.text = first :: rest ∧ first ≠ ' ' ∧ Comparator.isWildcard first = false := by
  have table : ∀ first ∈ ['=', '>', '<', '~', '^'], first ≠ ' ' ∧ Comparator.isWildcard first = false := by
    simp [Comparator.isWildcard]
  obtain ⟨first, rest, text, mem⟩ : ∃ first rest, c.text = first :: rest ∧ first ∈ ['=', '>', '<', '~', '^'] := by
    rw [text]
    cases c.operator <;> exact ⟨_, _, rfl, by decide⟩
  exact ⟨first, rest, text, table first mem⟩

theorem dropSpaces_text_append (c : Clause) (rest : List Char) :
    Comparator.dropSpaces (c.text ++ rest) = c.text ++ rest := by
  obtain ⟨first, more, text, unspaced, -⟩ := c.text_eq_cons
  rw [text, List.cons_append, Comparator.dropSpaces, List.dropWhile_cons_of_neg (by simpa using unspaced)]

/-! ## Requirements -/

/-- Texts of clauses with commas between them. -/
def joined (cs : List Clause) : List Char :=
  List.intercalate [','] (cs.map text)

theorem joined_singleton (c : Clause) : joined [c] = c.text := by
  simp [joined, List.intercalate_singleton]

theorem joined_cons_cons (c d : Clause) (cs : List Clause) :
    joined (c :: d :: cs) = c.text ++ ',' :: joined (d :: cs) := by
  simp [joined, List.intercalate_cons_cons]

theorem joined_cons (c : Clause) (cs : List Clause) : ∃ rest, joined (c :: cs) = c.text ++ rest := by
  cases cs with
  | nil => exact ⟨[], by rw [joined_singleton, List.append_nil]⟩
  | cons d cs => exact ⟨_, joined_cons_cons c d cs⟩

/-- Texts behind those of clauses have a comma in front of them. -/
theorem intercalate_text_append {cs : List Clause} (nonempty : cs ≠ []) {ts : List (List Char)} (further : ts ≠ []) :
    List.intercalate [','] (cs.map text ++ ts) = joined cs ++ ',' :: List.intercalate [','] ts := by
  induction cs with
  | nil => exact absurd rfl nonempty
  | cons c cs ih =>
    rw [List.map_cons, List.cons_append, List.intercalate_cons_of_ne_nil (by simp [further])]
    cases cs with
    | nil => simp [joined_singleton]
    | cons d cs =>
      rw [ih (List.cons_ne_nil _ _), joined_cons_cons]
      simp

theorem joined_ne_nil {cs : List Clause} (nonempty : cs ≠ []) : joined cs ≠ [] := by
  obtain ⟨c, cs, rfl⟩ := List.exists_cons_of_ne_nil nonempty
  obtain ⟨more, written⟩ := joined_cons c cs
  obtain ⟨first, rest, text, -⟩ := c.text_eq_cons
  simp [written, text]

theorem dropSpaces_joined_append {cs : List Clause} (nonempty : cs ≠ []) (rest : List Char) :
    Comparator.dropSpaces (joined cs ++ rest) = joined cs ++ rest := by
  obtain ⟨c, cs, rfl⟩ := List.exists_cons_of_ne_nil nonempty
  obtain ⟨more, written⟩ := joined_cons c cs
  rw [written, List.append_assoc, dropSpaces_text_append]

theorem readComparators_text (c : Clause) (left : Nat) :
    Requirement.readComparators (left + 1) c.text = .ok [c.comparator] := by
  have read := c.read_text ends_nil.stops
  rw [List.append_nil] at read
  rw [Requirement.readComparators, read]

theorem readComparators_text_comma (c : Clause) (left : Nat) (rest : List Char) :
    Requirement.readComparators (left + 1) (c.text ++ ',' :: rest) =
      (Requirement.readComparators left (Comparator.dropSpaces rest)).map (c.comparator :: ·) := by
  rw [Requirement.readComparators, c.read_text (ends_comma _).stops]
  rfl

/-- The first of several clauses is read, and then the others with what stands behind them. -/
theorem readComparators_joined_cons (c : Clause) {cs : List Clause} (nonempty : cs ≠ []) (left : Nat)
    (rest : List Char) : Requirement.readComparators (left + 1) (joined (c :: cs) ++ rest) =
      (Requirement.readComparators left (joined cs ++ rest)).map (c.comparator :: ·) := by
  obtain ⟨d, cs, rfl⟩ := List.exists_cons_of_ne_nil nonempty
  rw [joined_cons_cons, List.append_assoc, List.cons_append, readComparators_text_comma,
    dropSpaces_joined_append nonempty]

/-- Clauses are read one after the other, as many as there may be. -/
theorem readComparators_joined {cs : List Clause} (nonempty : cs ≠ []) {left : Nat} (enough : cs.length ≤ left) :
    Requirement.readComparators left (joined cs) = .ok (cs.map comparator) := by
  induction cs generalizing left with
  | nil => exact absurd rfl nonempty
  | cons c cs ih =>
    obtain ⟨left, rfl⟩ := Nat.exists_eq_add_one_of_ne_zero (Nat.ne_of_gt (Nat.lt_of_lt_of_le (Nat.succ_pos _) enough))
    by_cases last : cs = []
    · rw [last, joined_singleton, readComparators_text]
      rfl
    · have step := readComparators_joined_cons c last left []
      rw [List.append_nil, List.append_nil, ih last (Nat.le_of_succ_le_succ enough)] at step
      exact step

/-- More clauses than there may be are not read. -/
theorem readComparators_joined_of_many {cs : List Clause} {left : Nat} (many : left < cs.length) :
    Requirement.readComparators left (joined cs) = .error .tooManyComparators := by
  induction cs generalizing left with
  | nil => exact absurd many (Nat.not_lt_zero _)
  | cons c cs ih =>
    cases left with
    | zero => rfl
    | succ left =>
      have fewer : left < cs.length := Nat.lt_of_succ_lt_succ many
      have step := readComparators_joined_cons c (List.ne_nil_of_length_pos (Nat.zero_lt_of_lt fewer)) left []
      rw [List.append_nil, List.append_nil, ih fewer] at step
      exact step

/-- Clauses with something else than a comma behind the last of them are not read. -/
theorem readComparators_joined_glued {cs : List Clause} (nonempty : cs ≠ []) {c : Char} {rest : List Char}
    (stops : Stops (c :: rest)) (other : c ≠ ',') (left : Nat) :
    ∃ fault, Requirement.readComparators left (joined cs ++ c :: rest) = .error fault := by
  induction cs generalizing left with
  | nil => exact absurd rfl nonempty
  | cons d cs ih =>
    cases left with
    | zero => exact ⟨_, rfl⟩
    | succ left =>
      by_cases last : cs = []
      · refine ⟨.expectedComma .patch c, ?_⟩
        rw [last, joined_singleton, Requirement.readComparators, d.read_text stops]
        simp only [if_neg other]
      · obtain ⟨fault, unread⟩ := ih last left
        exact ⟨fault, by rw [readComparators_joined_cons d last, unread]; rfl⟩

/-- The comparators of clauses are the first of what is read, whatever stands behind them. -/
theorem readComparators_joined_comma {cs : List Clause} (nonempty : cs ≠ []) (left : Nat) (rest : List Char) :
    ∃ more : Except VersionFault (List Comparator),
      Requirement.readComparators left (joined cs ++ ',' :: rest) = more.map (cs.map comparator ++ ·) := by
  induction cs generalizing left with
  | nil => exact absurd rfl nonempty
  | cons c cs ih =>
    cases left with
    | zero => exact ⟨.error .tooManyComparators, rfl⟩
    | succ left =>
      by_cases last : cs = []
      · rw [last, joined_singleton, readComparators_text_comma]
        exact ⟨_, rfl⟩
      · obtain ⟨more, read⟩ := ih last left
        refine ⟨more, ?_⟩
        rw [readComparators_joined_cons c last, read]
        cases more <;> rfl

/-- A requirement that begins with a clause is no wildcard. -/
theorem parse_joined_append {cs : List Clause} (nonempty : cs ≠ []) (rest : List Char) :
    Requirement.parse (joined cs ++ rest) =
      (Requirement.readComparators 32 (joined cs ++ rest)).map Requirement.mk := by
  obtain ⟨c, cs, rfl⟩ := List.exists_cons_of_ne_nil nonempty
  obtain ⟨more, written⟩ := joined_cons c cs
  obtain ⟨first, behind, text, -, plain⟩ := c.text_eq_cons
  rw [Requirement.parse, dropSpaces_joined_append nonempty, written, text]
  simp [plain]

/-- Up to 32 clauses with commas between them are the requirement of all of them. -/
theorem parse_joined {cs : List Clause} (nonempty : cs ≠ []) (few : cs.length ≤ 32) :
    Requirement.parse (joined cs) = .ok ⟨cs.map comparator⟩ := by
  rw [← List.append_nil (joined cs), parse_joined_append nonempty, List.append_nil,
    readComparators_joined nonempty few]
  rfl

/-- Clauses with commas between them are no other requirement than that of all of them. -/
theorem parse_joined_eq_ok_iff {cs : List Clause} {r : Requirement} :
    Requirement.parse (joined cs) = .ok r ↔ cs ≠ [] ∧ cs.length ≤ 32 ∧ r = ⟨cs.map comparator⟩ := by
  by_cases empty : cs = []
  · have unread : Requirement.parse (joined cs) = .error (.unexpectedEnd .major) := by rw [empty]; rfl
    rw [unread]
    simp [empty]
  · by_cases few : cs.length ≤ 32
    · simp [parse_joined empty few, empty, few, eq_comm]
    · have unread := readComparators_joined_of_many (Nat.lt_of_not_le few)
      rw [← List.append_nil (joined cs), parse_joined_append empty, List.append_nil, unread]
      simp [few, Except.map]

/-- Clauses with something else than a comma behind the last of them are no requirement. -/
theorem parse_joined_glued {cs : List Clause} (nonempty : cs ≠ []) {c : Char} {rest : List Char}
    (stops : Stops (c :: rest)) (other : c ≠ ',') :
    ∃ fault, Requirement.parse (joined cs ++ c :: rest) = .error fault := by
  obtain ⟨fault, unread⟩ := readComparators_joined_glued nonempty stops other 32
  exact ⟨fault, by rw [parse_joined_append nonempty, unread]; rfl⟩

/-! ## What clauses accept -/

theorem numbers_lt_iff {c : Clause} {v : Version} : c.numbers < v.numbers ↔ c.major.toNat < v.major ∨
    c.major.toNat = v.major ∧ (c.minor.toNat < v.minor ∨ c.minor.toNat = v.minor ∧ c.patch.toNat < v.patch) := by
  simp only [numbers, Version.numbers, Prod.Lex.toLex_lt_toLex]

theorem lt_numbers_iff {c : Clause} {v : Version} : v.numbers < c.numbers ↔ v.major < c.major.toNat ∨
    v.major = c.major.toNat ∧ (v.minor < c.minor.toNat ∨ v.minor = c.minor.toNat ∧ v.patch < c.patch.toNat) := by
  simp only [numbers, Version.numbers, Prod.Lex.toLex_lt_toLex]

theorem numbers_eq_iff {c : Clause} {v : Version} : v.numbers = c.numbers ↔
    v.major = c.major.toNat ∧ v.minor = c.minor.toNat ∧ v.patch = c.patch.toNat := by
  simp only [numbers, Version.numbers, toLex_inj, Prod.mk.injEq]

section Accepts

variable {c : Clause} {v : Version}

theorem matchesExact_iff (release : v.pre = []) : c.comparator.matchesExact v = true ↔ v.numbers = c.numbers := by
  simp [Comparator.matchesExact, comparator, release, numbers_eq_iff, and_assoc]

theorem matchesGreater_iff (release : v.pre = []) : c.comparator.matchesGreater v = true ↔ c.numbers < v.numbers := by
  have same : PreRelease.isAfter v.pre [] = false := by rw [release]; rfl
  rw [numbers_lt_iff]
  by_cases major : v.major = c.major.toNat
  · by_cases minor : v.minor = c.minor.toNat
    · by_cases patch : v.patch = c.patch.toNat
      · simp [Comparator.matchesGreater, comparator, major, minor, patch, same]
      · simp [Comparator.matchesGreater, comparator, major, minor, patch]
    · simp [Comparator.matchesGreater, comparator, major, minor, Ne.symm minor]
  · have decided : c.comparator.matchesGreater v = decide (c.major.toNat < v.major) := if_pos major
    simp [decided, Ne.symm major]

theorem matchesLess_iff (release : v.pre = []) : c.comparator.matchesLess v = true ↔ v.numbers < c.numbers := by
  have same : PreRelease.isAfter [] v.pre = false := by rw [release]; rfl
  rw [lt_numbers_iff]
  by_cases major : v.major = c.major.toNat
  · by_cases minor : v.minor = c.minor.toNat
    · by_cases patch : v.patch = c.patch.toNat
      · simp [Comparator.matchesLess, comparator, major, minor, patch, same]
      · simp [Comparator.matchesLess, comparator, major, minor, patch]
    · simp [Comparator.matchesLess, comparator, major, minor]
  · have decided : c.comparator.matchesLess v = decide (v.major < c.major.toNat) := if_pos major
    simp [decided, major]

theorem matchesTilde_iff (release : v.pre = []) : c.comparator.matchesTilde v = true ↔
    v.major = c.major.toNat ∧ v.minor = c.minor.toNat ∧ c.patch.toNat ≤ v.patch := by
  have least : PreRelease.isAtLeast v.pre [] = true := by rw [release]; rfl
  simp only [Comparator.matchesTilde, comparator, least, Option.all_some, Bool.and_eq_true, beq_iff_eq, and_assoc]
  split
  · simp only [decide_eq_true_eq]
    omega
  · simp only [and_true]
    omega

theorem matchesCaret_iff (release : v.pre = []) : c.comparator.matchesCaret v = true ↔
    if 0 < c.major then c.numbers ≤ v.numbers ∧ v.major = c.major.toNat
    else if 0 < c.minor then c.numbers ≤ v.numbers ∧ v.major = 0 ∧ v.minor = c.minor.toNat
    else v.numbers = c.numbers := by
  have least : PreRelease.isAtLeast v.pre [] = true := by rw [release]; rfl
  have major : 0 < c.major ↔ 0 < c.major.toNat := UInt64.lt_iff_toNat_lt
  have minor : 0 < c.minor ↔ 0 < c.minor.toNat := UInt64.lt_iff_toNat_lt
  rw [le_iff_eq_or_lt, eq_comm (a := c.numbers), numbers_eq_iff, numbers_lt_iff]
  simp only [Comparator.matchesCaret, comparator, least, major, minor]
  split
  · split
    · simp only [Bool.and_eq_true, beq_iff_eq, decide_eq_true_eq]
      omega
    · split
      · simp only [Bool.and_eq_true, beq_iff_eq, decide_eq_true_eq]
        omega
      · simp only [Bool.and_true, beq_iff_eq]
        omega
  · split
    · split
      · simp only [Bool.and_eq_true, beq_iff_eq, decide_eq_true_eq]
        omega
      · simp only [Bool.and_eq_true, beq_iff_eq, Bool.and_true]
        omega
    · simp only [Bool.and_eq_true, beq_iff_eq, and_true]

/-- Of the versions without a pre-release part, the comparator of a clause accepts those that the clause admits. -/
theorem accepts_comparator_iff (release : v.pre = []) : c.comparator.accepts v = true ↔ c.Admits v := by
  have exact := matchesExact_iff (c := c) release
  have greater := matchesGreater_iff (c := c) release
  have less := matchesLess_iff (c := c) release
  have bound : c.comparator.bound = c.operator.bound := rfl
  rw [Comparator.accepts, Admits, bound]
  cases c.operator with
  | absent => exact exact
  | exact => exact exact
  | greater => exact greater
  | greaterEq =>
    show (c.comparator.matchesExact v || c.comparator.matchesGreater v) = true ↔ c.numbers ≤ v.numbers
    rw [Bool.or_eq_true_iff, exact, greater, le_iff_eq_or_lt, eq_comm (a := c.numbers)]
  | less => exact less
  | lessEq =>
    show (c.comparator.matchesExact v || c.comparator.matchesLess v) = true ↔ v.numbers ≤ c.numbers
    rw [Bool.or_eq_true_iff, exact, less, le_iff_eq_or_lt]
  | tilde => exact matchesTilde_iff release
  | caret => exact matchesCaret_iff release

end Accepts

end Clause

end ProxyForge
