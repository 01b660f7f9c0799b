/-!
# Numbers of JSON texts

A number is kept as it is written. `isNumber` accepts an optional minus sign, a whole part without a leading zero,
an optional fraction and an optional exponent, by one pass over the characters.
-/

namespace ProxyForge.Json

/-- How far the text of a number has been read. -/
inductive NumberState where
  | start
  | sign
  | zero
  | whole
  | point
  | fraction
  | mark
  | markSign
  | exponent
  deriving DecidableEq, Repr

namespace NumberState

/-- Whether a number may end here. -/
def accepting : NumberState → Bool
  | zero | whole | fraction | exponent => true
  | start | sign | point | mark | markSign => false

/-- Reads one more character. -/
def step (s : NumberState) (c : Char) : Option NumberState :=
  match s with
  | start => if c = '-' then some sign else if c = '0' then some zero else if c.isDigit then some whole else none
  | sign => if c = '0' then some zero else if c.isDigit then some whole else none
  | zero => if c = '.' then some point else if c = 'e' || c = 'E' then some mark else none
  | whole =>
    if c.isDigit then some whole else if c = '.' then some point
    else if c = 'e' || c = 'E' then some mark else none
  | point => if c.isDigit then some fraction else none
  | fraction => if c.isDigit then some fraction else if c = 'e' || c = 'E' then some mark else none
  | mark => if c = '+' || c = '-' then some markSign else if c.isDigit then some exponent else none
  | markSign | exponent => if c.isDigit then some exponent else none

/-- Reads a text from here on and tells whether it is a number. -/
def accepts : NumberState → List Char → Bool
  | s, [] => s.accepting
  | s, c :: cs =>
    match s.step c with
    | none => false
    | some t => t.accepts cs

end NumberState

/-- Whether a text is a number. -/
def isNumber (cs : List Char) : Bool :=
  NumberState.start.accepts cs

/-- A number, as it is written. -/
structure Number where
  literal : List Char
  valid : isNumber literal = true
  deriving DecidableEq

theorem accepts_whole {cs : List Char} (h : ∀ c ∈ cs, c.isDigit = true) :
    NumberState.whole.accepts cs = true := by
  induction cs with
  | nil => rfl
  | cons c cs ih =>
    simp only [List.mem_cons, forall_eq_or_imp] at h
    simp [NumberState.accepts, NumberState.step, h.1, ih h.2]

/-- Digits without a leading zero are a number. -/
theorem isNumber_cons {c : Char} {cs : List Char} (hc : c.isDigit = true) (h0 : c ≠ '0')
    (h : ∀ d ∈ cs, d.isDigit = true) : isNumber (c :: cs) = true := by
  have hm : c ≠ '-' := by rintro rfl; simp at hc
  simp [isNumber, NumberState.accepts, NumberState.step, hm, h0, hc, accepts_whole h]

theorem toDigits_eq_cons {n : Nat} (hn : n ≠ 0) : ∃ c cs, Nat.toDigits 10 n = c :: cs ∧ c ≠ '0' := by
  induction n using Nat.strongRecOn with
  | ind n ih =>
    by_cases h : n < 10
    · refine ⟨n.digitChar, [], Nat.toDigits_of_lt_base h, ?_⟩
      have : n ∈ List.range 10 := List.mem_range.2 h
      revert hn
      clear ih h
      revert this
      revert n
      decide
    · obtain ⟨c, cs, hd, hc⟩ := ih (n / 10) (by omega) (by omega)
      exact ⟨c, cs ++ [(n % 10).digitChar], by rw [Nat.toDigits_of_base_le (by decide) (by omega), hd]; rfl, hc⟩

theorem isNumber_toDigits (n : Nat) : isNumber (Nat.toDigits 10 n) = true := by
  by_cases hn : n = 0
  · subst hn; decide
  · obtain ⟨c, cs, hd, hc⟩ := toDigits_eq_cons hn
    have digits : ∀ d ∈ Nat.toDigits 10 n, d.isDigit = true := fun d h =>
      Nat.isDigit_of_mem_toDigits (by decide) (by decide) h
    rw [hd] at digits ⊢
    exact isNumber_cons (digits c List.mem_cons_self) hc fun d h => digits d (List.mem_cons_of_mem _ h)

/-- The number written in decimal digits. -/
def Number.ofNat (n : Nat) : Number :=
  ⟨Nat.toDigits 10 n, isNumber_toDigits n⟩

/-- The digits of the whole part of a number's magnitude, of its fraction, and its exponent. -/
structure NumberParts where
  negative : Bool
  whole : List Char
  fraction : List Char
  exponent : Option (Bool × List Char)

namespace Number

/-- A number taken apart. -/
def parts (n : Number) : NumberParts :=
  let negative := n.literal.head? == some '-'
  let unsigned := if negative then n.literal.tail else n.literal
  let rest := unsigned.dropWhile Char.isDigit
  let fraction := if rest.head? == some '.' then rest.tail.takeWhile Char.isDigit else []
  let rest := if rest.head? == some '.' then rest.tail.dropWhile Char.isDigit else rest
  let exponent :=
    match rest with
    | _ :: '-' :: digits => some (true, digits)
    | _ :: '+' :: digits => some (false, digits)
    | _ :: digits => some (false, digits)
    | [] => none
  { negative, whole := unsigned.takeWhile Char.isDigit, fraction, exponent }

end Number

end ProxyForge.Json
