import Mathlib.Algebra.Ring.Nat
import Mathlib.Data.List.Induction
import ProxyForge.Proofs.Literal

/-!
# Which texts are integer literals

An integer literal is a number in decimal digits, or one in hexadecimal digits behind `0x`, with any number of zeros in
front (`Denotes`). Reading departs from that in three places, and `ofLiteral_eq_ok_iff_denotes` says that there are no
others: more than 64 hexadecimal digits are refused, zeros in front among them; a text without any character is read
as zero; and a second `0x` behind the first is passed over, even with no digit behind it.
-/

namespace ProxyForge

/-- The number of hexadecimal digits, the highest first. -/
def Hex.number (digits : List Char) : Nat :=
  digits.foldl (fun n c => n * 16 + (value? c).getD 0) 0

namespace Literal

/-- The integer literals, each with its number. -/
inductive Denotes : List Char → Nat → Prop where
  | decimal {digits : List Char} (nonempty : digits ≠ []) (all : ∀ c ∈ digits, c.isDigit = true) :
    Denotes digits (Nat.ofDigitChars 10 digits 0)
  | hexadecimal {digits : List Char} (nonempty : digits ≠ []) (all : ∀ c ∈ digits, Hex.isDigit c = true) :
    Denotes ('0' :: 'x' :: digits) (Hex.number digits)

/-- A text with more characters behind its mark than a word has digits. -/
def IsLong (text : List Char) : Prop :=
  ∃ digits, text = '0' :: 'x' :: digits ∧ 64 < digits.length

/-- The texts that are read as numbers though they are no literals. -/
inductive Tolerated : List Char → Nat → Prop where
  | empty : Tolerated [] 0
  | marked {digits : List Char} (all : ∀ c ∈ digits, Hex.isDigit c = true) (short : digits.length ≤ 64) :
    Tolerated ('0' :: 'x' :: '0' :: 'x' :: digits) (Hex.number digits)

/-! ## Decimal digits -/

theorem decimal_eq_ok_iff {cs : List Char} {value n : Nat} (small : value < Nat.pow 2 256) :
    decimal value cs = .ok n ↔
      (∀ c ∈ cs, c.isDigit = true) ∧ Nat.ofDigitChars 10 cs value = n ∧ n < Nat.pow 2 256 := by
  constructor
  · intro h
    -- The bound holds of every number on the way: it is what each step checks of the next.
    induction cs generalizing value with
    | nil =>
      cases h
      exact ⟨by simp, rfl, small⟩
    | cons c cs ih =>
      rw [decimal] at h
      split at h
      · rename_i digit
        dsimp only at h
        split at h
        · rename_i bound
          obtain ⟨digits, number, less⟩ := ih bound h
          refine ⟨List.forall_mem_cons.2 ⟨digit, digits⟩, ?_, less⟩
          rw [Nat.ofDigitChars_cons, Nat.mul_comm]
          exact number
        · cases h
      · cases h
  · rintro ⟨digits, rfl, less⟩
    exact decimal_of_isDigit digits less

/-! ## Hexadecimal digits -/

end Literal

namespace Hex

theorem isDigit_iff {c : Char} : isDigit c = true ↔ ∃ v, value? c = some v :=
  Option.isSome_iff_exists

/-- A decimal digit is a hexadecimal one. -/
theorem isDigit_of_decimal {c : Char} (h : c.isDigit = true) : isDigit c = true := by
  simp only [Char.isDigit, Bool.and_eq_true, decide_eq_true_eq, UInt32.le_iff_toNat_le] at h
  have range : 48 ≤ c.toNat ∧ c.toNat ≤ 57 := h
  exact isDigit_iff.2 ⟨c.toNat - 48, value?_eq_some_iff_range.2 (by omega)⟩

/-- Values of digits add up to the number of the digits. -/
theorem foldl_values {cs : List Char} {vs : List Nat} (h : cs.map value? = vs.map some) (n : Nat) :
    vs.foldl (fun n v => n * 16 + v) n = cs.foldl (fun n c => n * 16 + (value? c).getD 0) n := by
  induction cs generalizing vs n with
  | nil => cases vs <;> simp_all
  | cons c cs ih =>
    cases vs with
    | nil => simp at h
    | cons v vs =>
      obtain ⟨first, rest⟩ := List.cons.inj h
      rw [List.foldl_cons, List.foldl_cons, first, Option.getD_some, ih rest]

theorem exists_values {cs : List Char} (all : ∀ c ∈ cs, isDigit c = true) :
    ∃ vs : List Nat, cs.map value? = vs.map some := by
  induction cs with
  | nil => exact ⟨[], rfl⟩
  | cons c cs ih =>
    obtain ⟨v, first⟩ := isDigit_iff.1 (all c List.mem_cons_self)
    obtain ⟨vs, rest⟩ := ih fun d hd => all d (List.mem_cons_of_mem _ hd)
    exact ⟨v :: vs, by rw [List.map_cons, List.map_cons, first, rest]⟩

theorem isDigit_of_values {cs : List Char} {vs : List Nat} (h : cs.map value? = vs.map some) :
    ∀ c ∈ cs, isDigit c = true := by
  intro c hc
  have worth : value? c ∈ vs.map some := h ▸ List.mem_map_of_mem hc
  obtain ⟨v, -, hv⟩ := List.mem_map.1 worth
  exact isDigit_iff.2 ⟨v, hv.symm⟩

theorem number_snoc (cs : List Char) (c : Char) : number (cs ++ [c]) = number cs * 16 + (value? c).getD 0 := by
  simp [number, List.foldl_append]

theorem value?_getD_lt (c : Char) : (value? c).getD 0 < 16 := by
  cases h : value? c with
  | none => decide
  | some v => exact (value?_eq_some_iff.1 h).1

theorem number_lt (cs : List Char) : number cs < 16 ^ cs.length := by
  induction cs using List.reverseRecOn with
  | nil => decide
  | append_singleton cs c ih =>
    have digit := value?_getD_lt c
    rw [number_snoc, List.length_append, List.length_singleton, Nat.pow_succ]
    omega

end Hex

namespace Literal

theorem hexadecimal_eq_ok_iff {cs : List Char} {n : Nat} :
    hexadecimal cs = .ok n ↔ (∀ c ∈ cs, Hex.isDigit c = true) ∧ cs.length ≤ 64 ∧ Hex.number cs = n := by
  constructor
  · intro h
    rw [hexadecimal] at h
    split at h
    · cases h
    · rename_i short
      split at h
      · rename_i vs read
        have worth := Hex.values_eq_ok_iff.1 read
        obtain ⟨-, -, size⟩ := Hex.map_toLower_of_values worth
        have same := congrArg List.length worth
        simp only [List.length_map] at same
        refine ⟨Hex.isDigit_of_values worth, by omega, ?_⟩
        rw [Hex.number, ← Hex.foldl_values worth]
        exact Except.ok.inj h
      · cases h
      · cases h
  · rintro ⟨all, short, rfl⟩
    obtain ⟨vs, worth⟩ := Hex.exists_values all
    obtain ⟨-, -, size⟩ := Hex.map_toLower_of_values worth
    have same := congrArg List.length worth
    simp only [List.length_map] at same
    rw [hexadecimal, if_neg (by omega), Hex.values_eq_ok_iff.2 worth]
    simp only [Hex.number, Hex.foldl_values worth]

/-- Digits do not begin with a mark, since `x` is no digit. -/
theorem withoutMark_of_isDigit {digits : List Char} (all : ∀ c ∈ digits, Hex.isDigit c = true) :
    withoutMark digits = digits := by
  refine withoutMark_of_ne ?_
  rintro ds rfl
  exact absurd (all 'x' (by simp)) (by decide)

theorem number_lt_of_short {digits : List Char} (short : digits.length ≤ 64) : Hex.number digits < Nat.pow 2 256 :=
  calc Hex.number digits
    _ < 16 ^ digits.length := Hex.number_lt digits
    _ ≤ 16 ^ 64 := Nat.pow_le_pow_right (by decide) short
    _ = Nat.pow 2 256 := by decide

/-! ## Integers -/

theorem integer_of_denotes {text : List Char} {n : Nat} (h : Denotes text n) (short : ¬ IsLong text)
    (small : n < Nat.pow 2 256) : integer text = .ok n := by
  cases h with
  | decimal nonempty all =>
    rw [integer_of_isDigit all]
    exact decimal_of_isDigit all small
  | @hexadecimal digits nonempty all =>
    have filled : digits.isEmpty = false := by simpa using nonempty
    have few : digits.length ≤ 64 := by
      by_contra many
      exact short ⟨digits, rfl, by omega⟩
    rw [integer, filled, withoutMark_of_isDigit all]
    exact hexadecimal_eq_ok_iff.2 ⟨all, few, rfl⟩

theorem integer_of_tolerated {text : List Char} {n : Nat} (h : Tolerated text n) : integer text = .ok n := by
  cases h with
  | empty => rfl
  | marked all short => exact hexadecimal_eq_ok_iff.2 ⟨all, short, rfl⟩

/-- What is read behind a mark are the digits there, or those behind a second mark. -/
theorem denotes_of_marked {digits : List Char} {n : Nat} (filled : digits ≠ [])
    (h : hexadecimal (withoutMark digits) = .ok n) :
    (Denotes ('0' :: 'x' :: digits) n ∧ ¬ IsLong ('0' :: 'x' :: digits)) ∨ Tolerated ('0' :: 'x' :: digits) n := by
  unfold withoutMark at h
  split at h
  · obtain ⟨all, short, rfl⟩ := hexadecimal_eq_ok_iff.1 h
    exact .inr (.marked all short)
  · obtain ⟨all, short, rfl⟩ := hexadecimal_eq_ok_iff.1 h
    refine .inl ⟨.hexadecimal filled all, ?_⟩
    rintro ⟨_, same, long⟩
    cases same
    omega

theorem denotes_of_decimal {cs : List Char} {n : Nat} (h : decimal 0 cs = .ok n) :
    (Denotes cs n ∧ ¬ IsLong cs) ∨ Tolerated cs n := by
  obtain ⟨all, rfl, -⟩ := (decimal_eq_ok_iff (by decide)).1 h
  by_cases empty : cs = []
  · subst empty
    exact .inr .empty
  · refine .inl ⟨.decimal empty all, ?_⟩
    rintro ⟨digits, rfl, -⟩
    exact absurd (all 'x' (by simp)) (by decide)

theorem denotes_of_integer {text : List Char} {n : Nat} (h : integer text = .ok n) :
    (Denotes text n ∧ ¬ IsLong text) ∨ Tolerated text n := by
  unfold integer at h
  split at h
  · split at h
    · cases h
    · rename_i filled
      exact denotes_of_marked (by simpa using filled) h
  · cases h
  · exact denotes_of_decimal h

theorem lt_of_integer {text : List Char} {n : Nat} (h : integer text = .ok n) : n < Nat.pow 2 256 := by
  unfold integer at h
  split at h
  · split at h
    · cases h
    · obtain ⟨-, short, rfl⟩ := hexadecimal_eq_ok_iff.1 h
      exact number_lt_of_short short
  · cases h
  · exact ((decimal_eq_ok_iff (by decide)).1 h).2.2

end Literal

namespace Word

theorem ofLiteral_eq_ok_iff {literal : String} {w : Word} :
    ofLiteral literal = .ok w ↔ Literal.integer (Text.trim literal.toList) = .ok w.toNat := by
  rw [ofLiteral]
  cases read : Literal.integer (Text.trim literal.toList) with
  | error fault => simp
  | ok n =>
    have small := Literal.lt_of_integer read
    simp only [Except.ok.injEq]
    constructor
    · rintro rfl
      exact (Nat.mod_eq_of_lt small).symm
    · rintro rfl
      exact BitVec.ofNat_toNat ..

/-- The texts that are read as a word: between blanks, its literals of at most 64 digits behind the mark, and the
texts that are tolerated for it. All others are refused as integers. -/
theorem ofLiteral_eq_ok_iff_denotes (literal : String) :
    let text := Text.trim literal.toList
    (∀ w : Word, ofLiteral literal = .ok w ↔
      (Literal.Denotes text w.toNat ∧ ¬ Literal.IsLong text) ∨ Literal.Tolerated text w.toNat) ∧
    ((∀ w, ofLiteral literal ≠ .ok w) →
      ∃ fault, ofLiteral literal = .error (.integer (String.ofList text) fault)) := by
  intro text
  constructor
  · intro w
    rw [ofLiteral_eq_ok_iff]
    constructor
    · exact Literal.denotes_of_integer
    · rintro (⟨denotes, short⟩ | tolerated)
      · exact Literal.integer_of_denotes denotes short w.isLt
      · exact Literal.integer_of_tolerated tolerated
  · intro refused
    cases read : Literal.integer text with
    | error fault => exact ⟨fault, by rw [ofLiteral, read]⟩
    | ok n => exact absurd (by rw [ofLiteral, read]) (refused (BitVec.ofNat 256 n))

/-- No text at all is read as zero and a second mark is passed over, and a literal of one is refused for the zeros in
front of it: not the literals alone are read, and not all of them. -/
theorem ofLiteral_departs :
    (ofLiteral "" = .ok 0 ∧ ∀ n, ¬ Literal.Denotes (Text.trim "".toList) n) ∧
    (ofLiteral "0x0x10" = .ok 16 ∧ ∀ n, ¬ Literal.Denotes (Text.trim "0x0x10".toList) n) ∧
    (Literal.Denotes (Text.trim "0x00000000000000000000000000000000000000000000000000000000000000001".toList) 1 ∧
      ofLiteral "0x00000000000000000000000000000000000000000000000000000000000000001" =
        .error (.integer "0x00000000000000000000000000000000000000000000000000000000000000001" .hexTooLong)) := by
  have literal : Text.trim "0x00000000000000000000000000000000000000000000000000000000000000001".toList =
      '0' :: 'x' :: "00000000000000000000000000000000000000000000000000000000000000001".toList := by decide
  refine ⟨⟨rfl, ?_⟩, ⟨rfl, ?_⟩, ?_, rfl⟩
  · intro n h
    cases h with
    | decimal nonempty all => exact nonempty rfl
  · intro n h
    rw [show Text.trim "0x0x10".toList = ['0', 'x', '0', 'x', '1', '0'] by decide] at h
    cases h with
    | decimal nonempty all => exact absurd (all 'x' (by decide)) (by decide)
    | hexadecimal nonempty all => exact absurd (all 'x' (by decide)) (by decide)
  · have digits : "00000000000000000000000000000000000000000000000000000000000000001".toList.all Hex.isDigit = true := by
      decide
    rw [literal]
    exact .hexadecimal (by decide) (List.all_eq_true.1 digits)

end Word

end ProxyForge
