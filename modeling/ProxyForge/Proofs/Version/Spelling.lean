import Mathlib.Data.List.Forall2
import ProxyForge.Proofs.Version.Clause

/-!
# Which texts are versions

The grammar of versions, without a reader: three numerals with dots between them, a pre-release part behind a hyphen and
build metadata behind a plus sign, where either may be missing (`Version.Spells`). A text is read as the version that it
spells, and as none if it spells none (`parse_eq_ok_iff`). Each part is read up to the first character that cannot
belong to it, so what stands behind a part decides where it ends.
-/

namespace ProxyForge

/-! ## Stretches of a class of characters -/

/-- A text that does not go on with a character of a class. -/
def Text.EndsClass (p : Char → Bool) (rest : List Char) : Prop :=
  ∀ c, rest.head? = some c → p c = false

/-- The longest stretch of a class at the front of a text is the one behind which the text does not go on with the
class. -/
theorem Text.stretch_iff {p : Char → Bool} {cs stretch rest : List Char} :
    cs.takeWhile p = stretch ∧ cs.dropWhile p = rest ↔
      cs = stretch ++ rest ∧ (∀ c ∈ stretch, p c = true) ∧ EndsClass p rest := by
  constructor
  · rintro ⟨rfl, rfl⟩
    refine ⟨List.takeWhile_append_dropWhile.symm, List.all_eq_true.1 List.all_takeWhile, fun c head => ?_⟩
    have other := List.head?_dropWhile_not p cs
    simpa [head] using other
  · rintro ⟨rfl, all, ends⟩
    have none : rest.takeWhile p = [] ∧ rest.dropWhile p = rest := by
      cases rest with
      | nil => exact ⟨rfl, rfl⟩
      | cons c rest => simp [ends c rfl]
    rw [List.takeWhile_append_of_pos all, List.dropWhile_append_of_pos all, none.1, none.2, List.append_nil]
    exact ⟨rfl, rfl⟩

/-- A text is made of a stretch and what does not go on with it in one way only. -/
theorem Text.stretch_unique {p : Char → Bool} {as bs rest behind : List Char} (whole : as ++ rest = bs ++ behind)
    (first : ∀ c ∈ as, p c = true) (ends : EndsClass p rest) (second : ∀ c ∈ bs, p c = true)
    (others : EndsClass p behind) : as = bs ∧ rest = behind := by
  obtain ⟨front, back⟩ := stretch_iff.2 ⟨rfl, first, ends⟩
  obtain ⟨same, remains⟩ := stretch_iff.2 ⟨whole, second, others⟩
  exact ⟨front.symm.trans same, back.symm.trans remains⟩

/-! ## The grammar -/

/-- A number in decimal digits, without a zero in front of other digits. -/
structure IsNumeral (digits : List Char) : Prop where
  nonempty : digits ≠ []
  all : ∀ c ∈ digits, c.isDigit = true
  leading : digits.head? = some '0' → digits = ['0']

/-- The numeral of a number of 64 bits. -/
structure Numeral (digits : List Char) (n : Nat) : Prop extends IsNumeral digits where
  number : Nat.ofDigitChars 10 digits 0 = n
  small : n < Nat.pow 2 64

/-- Letters, digits and hyphens. -/
structure IsIdentifier (segment : List Char) : Prop where
  nonempty : segment ≠ []
  chars : ∀ c ∈ segment, c.isAlphanum = true ∨ c = '-'

/-- The identifiers of a pre-release part: a numeral of any length stands for its number, everything else for itself. -/
inductive PreIdentifier.Spells : List Char → PreIdentifier → Prop where
  | number {digits : List Char} (numeral : IsNumeral digits) : Spells digits (.number (Nat.ofDigitChars 10 digits 0))
  | name {segment : List Char} (identifier : IsIdentifier segment) (other : ∃ c ∈ segment, c.isDigit = false) :
      Spells segment (.name (String.ofList segment))

/-- A pre-release part with the hyphen in front of it, or nothing for a release. -/
inductive PreRelease.Spells : List Char → PreRelease → Prop where
  | release : Spells [] []
  | identifiers {segments : List (List Char)} {pre : PreRelease} (nonempty : segments ≠ [])
      (each : List.Forall₂ PreIdentifier.Spells segments pre) : Spells ('-' :: ['.'].intercalate segments) pre

namespace Version

/-- Build metadata with the plus sign in front of it, or nothing. -/
inductive SpellsBuild : List Char → List String → Prop where
  | absent : SpellsBuild [] []
  | identifiers {segments : List (List Char)} (nonempty : segments ≠ []) (each : ∀ s ∈ segments, IsIdentifier s) :
      SpellsBuild ('+' :: ['.'].intercalate segments) (segments.map String.ofList)

/-- The texts of a version. -/
inductive Spells : List Char → Version → Prop where
  | parts {major minor patch pre build : List Char} {v : Version} (first : Numeral major v.major)
      (second : Numeral minor v.minor) (third : Numeral patch v.patch) (fourth : PreRelease.Spells pre v.pre)
      (last : SpellsBuild build v.build) :
      Spells (major ++ '.' :: (minor ++ '.' :: (patch ++ (pre ++ build)))) v

/-! ## Numbers -/

theorem digitsFrom_eq_ok_iff {part : VersionPart} {value n : Nat} {cs rest : List Char} (small : value < Nat.pow 2 64) :
    digitsFrom part value cs = .ok (n, rest) ↔ ∃ digits, cs = digits ++ rest ∧ (∀ c ∈ digits, c.isDigit = true) ∧
      (value = 0 → digits = []) ∧ Nat.ofDigitChars 10 digits value = n ∧ n < Nat.pow 2 64 ∧ EndsNumber rest := by
  constructor
  · intro h
    -- The bound holds of every number on the way: it is what each step checks of the next.
    induction cs generalizing value with
    | nil =>
      cases h
      exact ⟨[], rfl, nofun, fun _ => rfl, rfl, small, nofun⟩
    | cons c cs ih =>
      rw [digitsFrom] at h
      split at h
      · rename_i digit
        split at h
        · cases h
        · rename_i positive
          dsimp only at h
          split at h
          · rename_i bound
            obtain ⟨digits, rfl, all, -, number, less, ends⟩ := ih bound h
            refine ⟨c :: digits, rfl, List.forall_mem_cons.2 ⟨digit, all⟩, fun zero => absurd zero positive, ?_, less,
              ends⟩
            rw [Nat.ofDigitChars_cons, Nat.mul_comm]
            exact number
          · cases h
      · rename_i other
        cases h
        refine ⟨[], rfl, nofun, fun _ => rfl, rfl, small, fun d head => ?_⟩
        rw [← Option.some.inj head]
        simpa using other
  · rintro ⟨digits, rfl, all, single, rfl, less, ends⟩
    by_cases zero : value = 0
    · obtain rfl := single zero
      cases rest with
      | nil => rfl
      | cons c rest =>
        have other : c.isDigit = false := ends c rfl
        simp [digitsFrom, other]
    · exact digitsFrom_append all zero less ends

/-- Of the digits only zero is worth nothing. -/
theorem worth_eq_zero_iff {c : Char} (h : c.isDigit = true) : c.toNat - 48 = 0 ↔ c = '0' := by
  have range : 48 ≤ c.toNat ∧ c.toNat ≤ 57 := Char.isDigit_iff_toNat.1 h
  rw [← Char.toNat_inj]
  simp only [Char.reduceToNat]
  omega

/-- A number is read from the numeral at the front of a text, up to the first character that is no digit. -/
theorem number_eq_ok_iff {part : VersionPart} {n : Nat} {cs rest : List Char} :
    number part cs = .ok (n, rest) ↔ ∃ digits, cs = digits ++ rest ∧ Numeral digits n ∧ EndsNumber rest := by
  cases cs with
  | nil =>
    simp only [number, reduceCtorEq, false_iff]
    rintro ⟨digits, empty, numeral, -⟩
    exact numeral.nonempty (List.append_eq_nil_iff.1 empty.symm).1
  | cons c cs =>
    by_cases digit : c.isDigit = true
    · have range : 48 ≤ c.toNat ∧ c.toNat ≤ 57 := Char.isDigit_iff_toNat.1 digit
      have small : c.toNat - 48 < Nat.pow 2 64 := Nat.lt_of_le_of_lt (show c.toNat - 48 ≤ 9 by omega) (by decide)
      have first (digits : List Char) :
          Nat.ofDigitChars 10 (c :: digits) 0 = Nat.ofDigitChars 10 digits (c.toNat - 48) := by
        rw [Nat.ofDigitChars_cons, Nat.mul_zero, Nat.zero_add]
        rfl
      rw [number, if_pos digit, digitsFrom_eq_ok_iff small, worth_eq_zero_iff digit]
      constructor
      · rintro ⟨digits, rfl, all, single, number, less, ends⟩
        refine ⟨c :: digits, rfl, ⟨⟨List.cons_ne_nil _ _, List.forall_mem_cons.2 ⟨digit, all⟩, ?_⟩, ?_, less⟩, ends⟩
        · intro head
          have zero := Option.some.inj head
          rw [zero, single zero]
        · rw [first, number]
      · rintro ⟨digits, whole, numeral, ends⟩
        obtain ⟨d, digits, rfl⟩ := List.exists_cons_of_ne_nil numeral.nonempty
        obtain ⟨rfl, rfl⟩ := List.cons.inj whole
        refine ⟨digits, rfl, (List.forall_mem_cons.1 numeral.all).2, fun zero => ?_, ?_, numeral.small, ends⟩
        · exact (List.cons.inj (numeral.leading (congrArg some zero))).2
        · rw [← first, numeral.number]
    · rw [number, if_neg digit]
      simp only [reduceCtorEq, false_iff]
      rintro ⟨digits, whole, numeral, -⟩
      obtain ⟨d, digits, rfl⟩ := List.exists_cons_of_ne_nil numeral.nonempty
      obtain ⟨rfl, -⟩ := List.cons.inj whole
      exact digit (List.forall_mem_cons.1 numeral.all).1

theorem dot_eq_ok_iff {part : VersionPart} {cs rest : List Char} : dot part cs = .ok rest ↔ cs = '.' :: rest := by
  cases cs with
  | nil => simp [dot]
  | cons c cs =>
    rw [dot]
    split <;> simp_all

/-! ## Identifiers -/

theorem splitAtEvery_eq_splitOn (c : Char) (cs : List Char) : Text.splitAtEvery (· == c) cs = cs.splitOn c := by
  induction cs with
  | nil => rfl
  | cons d cs ih =>
    obtain ⟨word, words, cut⟩ := List.exists_cons_of_ne_nil (Text.splitAtEvery_ne_nil (· == c) cs)
    rw [List.splitOn] at ih ⊢
    rw [Text.splitAtEvery, List.splitOnP_cons_eq_if_modifyHead, ← ih, cut]
    rfl

/-- Zero is the only digit that begins a numeral and is one. -/
theorem leading_iff {segment : List Char} :
    (segment.head? = some '0' → segment = ['0']) ↔ ¬(1 < segment.length ∧ segment.head? = some '0') := by
  match segment with
  | [] | [_] => simp
  | _ :: _ :: _ => simp

/-- Segments are checked one by one: none is empty, and no number of a pre-release part has a leading zero. -/
theorem checkSegments_eq_ok_iff {part : VersionPart} {found : List (List Char)} :
    checkSegments part found = .ok () ↔ ∀ segment ∈ found, segment ≠ [] ∧
      (part = .preRelease → (∀ c ∈ segment, c.isDigit = true) → segment.head? = some '0' → segment = ['0']) := by
  induction found with
  | nil => simp [checkSegments]
  | cons segment found ih =>
    rw [List.forall_mem_cons, ← ih, checkSegments]
    split
    · rename_i empty
      simp [List.isEmpty_iff.1 empty]
    · rename_i nonempty
      split
      · rename_i zero
        simp only [Bool.and_eq_true, decide_eq_true_eq, List.all_eq_true, beq_iff_eq] at zero
        simp only [reduceCtorEq, leading_iff, false_iff]
        grind
      · rename_i fine
        simp only [Bool.and_eq_true, decide_eq_true_eq, List.all_eq_true, beq_iff_eq] at fine
        simp only [leading_iff]
        have nonempty : segment ≠ [] := by simpa using nonempty
        grind

theorem isIdentifierChar_iff {c : Char} :
    isIdentifierChar c = true ↔ (c.isAlphanum = true ∨ c = '-') ∨ c = '.' := by
  simp [isIdentifierChar]

theorem forall_intercalate {P : Char → Prop} {c : Char} (separator : P c) {segments : List (List Char)} :
    (∀ d ∈ [c].intercalate segments, P d) ↔ ∀ s ∈ segments, ∀ d ∈ s, P d := by
  induction segments with
  | nil => simp
  | cons s segments ih =>
    cases segments with
    | nil => simp
    | cons t segments =>
      rw [List.intercalate_cons_cons, List.forall_mem_append, List.forall_mem_append, ih, List.forall_mem_cons]
      simp [separator]

/-- Segments are read up to the first character that is neither one of identifiers nor a dot. -/
theorem segments_eq_ok_iff {part : VersionPart} {cs rest : List Char} {found : List (List Char)} :
    segments part cs = .ok (found, rest) ↔ cs = ['.'].intercalate found ++ rest ∧ found ≠ [] ∧
      Text.EndsClass isIdentifierChar rest ∧ ∀ s ∈ found, IsIdentifier s ∧
        (part = .preRelease → (∀ c ∈ s, c.isDigit = true) → s.head? = some '0' → s = ['0']) := by
  have cut : segments part cs = .ok (found, rest) ↔ ∃ stretch, stretch.splitOn '.' = found ∧
      (cs.takeWhile isIdentifierChar = stretch ∧ cs.dropWhile isIdentifierChar = rest) ∧
      checkSegments part found = .ok () := by
    rw [segments, splitAtEvery_eq_splitOn]
    cases checked : checkSegments part ((cs.takeWhile isIdentifierChar).splitOn '.') <;> grind
  simp only [cut, Text.stretch_iff, checkSegments_eq_ok_iff]
  constructor
  · rintro ⟨stretch, rfl, ⟨rfl, all, ends⟩, each⟩
    rw [← @List.intercalate_splitOn _ stretch _ _ '.', forall_intercalate (by decide)] at all
    refine ⟨by rw [List.intercalate_splitOn], List.splitOn_ne_nil _ _, ends,
      fun s hs => ⟨⟨(each s hs).1, ?_⟩, (each s hs).2⟩⟩
    intro c hc
    have undotted := Text.forall_of_mem_splitAtEvery (splitAtEvery_eq_splitOn '.' stretch ▸ hs) c hc
    exact (isIdentifierChar_iff.1 (all s hs c hc)).resolve_right (by simpa using undotted)
  · rintro ⟨rfl, nonempty, ends, each⟩
    have undotted : ∀ s ∈ found, '.' ∉ s := fun s hs hc => absurd ((each s hs).1.chars _ hc) (by decide)
    refine ⟨_, List.splitOn_intercalate '.' undotted nonempty, ⟨rfl, ?_, ends⟩, fun s hs =>
      ⟨(each s hs).1.nonempty, (each s hs).2⟩⟩
    rw [forall_intercalate (by decide)]
    exact fun s hs c hc => isIdentifierChar_iff.2 (.inl ((each s hs).1.chars c hc))

end Version

namespace PreIdentifier

/-- An identifier is spelled by a segment that may be one. -/
theorem spells_iff {segment : List Char} {identifier : PreIdentifier} : Spells segment identifier ↔
    (IsIdentifier segment ∧ ((∀ c ∈ segment, c.isDigit = true) → segment.head? = some '0' → segment = ['0'])) ∧
      ofSegment segment = identifier := by
  have value : segment.foldl (fun v c => v * 10 + (c.toNat - 48)) 0 = Nat.ofDigitChars 10 segment 0 := by
    simp only [Nat.ofDigitChars, Nat.mul_comm 10]
    rfl
  rw [ofSegment, value]
  constructor
  · rintro (⟨numeral⟩ | ⟨identifier, other⟩)
    · have chars : ∀ c ∈ segment, c.isAlphanum = true ∨ c = '-' := fun c hc => by
        simp [Char.isAlphanum, numeral.all c hc]
      exact ⟨⟨⟨numeral.nonempty, chars⟩, fun _ => numeral.leading⟩, if_pos (List.all_eq_true.2 numeral.all)⟩
    · obtain ⟨c, hc, noDigit⟩ := other
      have mixed : ¬∀ c ∈ segment, c.isDigit = true := fun all => by simp [all c hc] at noDigit
      exact ⟨⟨identifier, fun all => absurd all mixed⟩, if_neg (mt List.all_eq_true.1 mixed)⟩
  · rintro ⟨⟨identifier, leading⟩, rfl⟩
    split
    · rename_i all
      have all := List.all_eq_true.1 all
      exact .number ⟨identifier.nonempty, all, leading all⟩
    · rename_i mixed
      exact .name identifier (by simpa using mixed)

end PreIdentifier

namespace Version

/-- Identifiers are spelled by segments that may be ones, each by its own. -/
theorem forall₂_spells_iff {found : List (List Char)} {pre : PreRelease} :
    List.Forall₂ PreIdentifier.Spells found pre ↔ (∀ s ∈ found, IsIdentifier s ∧
      ((∀ c ∈ s, c.isDigit = true) → s.head? = some '0' → s = ['0'])) ∧ found.map PreIdentifier.ofSegment = pre := by
  induction found generalizing pre with
  | nil => cases pre <;> simp
  | cons s found ih =>
    cases pre with
    | nil => simp
    | cons identifier pre =>
      rw [List.forall₂_cons, ih, PreIdentifier.spells_iff, List.forall_mem_cons, List.map_cons, List.cons.injEq]
      tauto

section Announced

variable {α : Type} {mark : Char} {part : VersionPart} {f : List Char → α}
  {read : List Char → Except VersionFault (List α × List Char)}

/-- A part that is announced by a mark is read if the mark is there, up to the end of its last identifier. -/
theorem announced_eq_ok_iff (marked : ∀ cs, read (mark :: cs) = (segments part cs).map fun r => (r.1.map f, r.2))
    (unmarked : ∀ cs, cs.head? ≠ some mark → read cs = .ok ([], cs)) {cs rest : List Char} {values : List α} :
    read cs = .ok (values, rest) ↔ (cs = rest ∧ values = [] ∧ cs.head? ≠ some mark) ∨
      ∃ found, cs = mark :: (['.'].intercalate found ++ rest) ∧ found ≠ [] ∧ Text.EndsClass isIdentifierChar rest ∧
        (∀ s ∈ found, IsIdentifier s ∧
          (part = .preRelease → (∀ c ∈ s, c.isDigit = true) → s.head? = some '0' → s = ['0'])) ∧
        found.map f = values := by
  by_cases head : cs.head? = some mark
  · obtain ⟨behind, rfl⟩ := List.head?_eq_some_iff.1 head
    rw [marked, map_eq_ok_iff]
    simp only [Prod.exists, Prod.mk.injEq, segments_eq_ok_iff, List.cons.injEq, true_and, head, ne_eq,
      not_true_eq_false, and_false, false_or]
    constructor
    · rintro ⟨found, _, ⟨whole, nonempty, ends, each⟩, same, rfl⟩
      exact ⟨found, whole, nonempty, ends, each, same⟩
    · rintro ⟨found, whole, nonempty, ends, each, same⟩
      exact ⟨found, rest, ⟨whole, nonempty, ends, each⟩, same, rfl⟩
  · rw [unmarked cs head, Except.ok.injEq, Prod.mk.injEq]
    constructor
    · rintro ⟨rfl, rfl⟩
      exact .inl ⟨rfl, rfl, head⟩
    · rintro (⟨rfl, rfl, -⟩ | ⟨found, rfl, -⟩)
      · exact ⟨rfl, rfl⟩
      · exact absurd rfl head

end Announced

theorem preRelease_eq_ok_iff {cs rest : List Char} {pre : PreRelease} : preRelease cs = .ok (pre, rest) ↔
    (cs = rest ∧ pre = [] ∧ cs.head? ≠ some '-') ∨ ∃ found, cs = '-' :: (['.'].intercalate found ++ rest) ∧ found ≠ [] ∧
      Text.EndsClass isIdentifierChar rest ∧ List.Forall₂ PreIdentifier.Spells found pre := by
  have unmarked : ∀ cs, cs.head? ≠ some '-' → preRelease cs = .ok ([], cs) := by
    intro cs other
    unfold preRelease
    split
    · exact absurd rfl other
    · rfl
  have announced := @announced_eq_ok_iff _ '-' .preRelease PreIdentifier.ofSegment preRelease (fun _ => rfl) unmarked
  simp only [announced, forall₂_spells_iff, forall_const]

theorem buildMetadata_eq_ok_iff {cs rest : List Char} {build : List String} : buildMetadata cs = .ok (build, rest) ↔
    (cs = rest ∧ build = [] ∧ cs.head? ≠ some '+') ∨
    ∃ found, cs = '+' :: (['.'].intercalate found ++ rest) ∧ found ≠ [] ∧ Text.EndsClass isIdentifierChar rest ∧
      (∀ s ∈ found, IsIdentifier s) ∧ found.map String.ofList = build := by
  have unmarked : ∀ cs, cs.head? ≠ some '+' → buildMetadata cs = .ok ([], cs) := by
    intro cs other
    unfold buildMetadata
    split
    · exact absurd rfl other
    · rfl
  have announced := @announced_eq_ok_iff _ '+' .build String.ofList buildMetadata (fun _ => rfl) unmarked
  simp only [announced, reduceCtorEq, false_imp_iff, and_true]

/-- A version is read part by part. -/
theorem parse_eq_ok_iff_steps {text : String} {v : Version} : parse text = .ok v ↔
    ∃ r₁ r₂ r₃ r₄ r₅ r₆, number .major text.toList = .ok (v.major, r₁) ∧ dot .major r₁ = .ok r₂ ∧
      number .minor r₂ = .ok (v.minor, r₃) ∧ dot .minor r₃ = .ok r₄ ∧ number .patch r₄ = .ok (v.patch, r₅) ∧
      preRelease r₅ = .ok (v.pre, r₆) ∧ buildMetadata r₆ = .ok (v.build, []) := by
  rw [parse]
  split
  · rename_i empty
    rw [List.isEmpty_iff.1 empty]
    constructor
    · intro h
      cases h
    · rintro ⟨r₁, r₂, r₃, r₄, r₅, r₆, first, -⟩
      cases first
  · simp only [bind_eq_ok_iff, Prod.exists]
    constructor
    · rintro ⟨major, r₁, first, r₂, dot, minor, r₃, second, r₄, point, patch, r₅, third, pre, r₆, fourth, build, r₇,
        last, whole⟩
      cases r₇ with
      | nil =>
        cases whole
        exact ⟨r₁, r₂, r₃, r₄, r₅, r₆, first, dot, second, point, third, fourth, last⟩
      | cons c r₇ => cases whole
    · rintro ⟨r₁, r₂, r₃, r₄, r₅, r₆, first, dot, second, point, third, fourth, last⟩
      exact ⟨_, r₁, first, r₂, dot, _, r₃, second, r₄, point, _, r₅, third, _, r₆, fourth, _, [], last, rfl⟩

/-! ## Versions -/

section Behind

variable {pre build : List Char} {identifiers : PreRelease} {metadata : List String}

/-- Nothing that stands behind the numbers of a version goes on with a digit. -/
theorem endsNumber_of_spells (fourth : PreRelease.Spells pre identifiers) (last : SpellsBuild build metadata) :
    EndsNumber (pre ++ build) := by
  cases fourth with
  | release =>
    cases last with
    | absent => exact nofun
    | identifiers => exact fun c head => Option.some.inj head ▸ rfl
  | identifiers => exact fun c head => Option.some.inj head ▸ rfl

/-- Nothing that stands behind a pre-release part belongs to it. -/
theorem endsClass_of_spellsBuild (last : SpellsBuild build metadata) : Text.EndsClass isIdentifierChar build := by
  cases last with
  | absent => exact nofun
  | identifiers => exact fun c head => Option.some.inj head ▸ rfl

theorem preRelease_append (fourth : PreRelease.Spells pre identifiers) (last : SpellsBuild build metadata) :
    preRelease (pre ++ build) = .ok (identifiers, build) := by
  have ends := endsClass_of_spellsBuild last
  rw [preRelease_eq_ok_iff]
  cases fourth with
  | release => exact .inl ⟨rfl, rfl, fun head => absurd (ends '-' head) (by decide)⟩
  | identifiers nonempty each => exact .inr ⟨_, rfl, nonempty, ends, each⟩

theorem buildMetadata_of_spells (last : SpellsBuild build metadata) : buildMetadata build = .ok (metadata, []) := by
  rw [buildMetadata_eq_ok_iff]
  cases last with
  | absent => exact .inl ⟨rfl, rfl, nofun⟩
  | identifiers nonempty each => exact .inr ⟨_, by rw [List.append_nil], nonempty, nofun, each, rfl⟩

end Behind

/-- A text is read as the version that it spells, and as none if it spells none. -/
theorem parse_eq_ok_iff {text : String} {v : Version} : parse text = .ok v ↔ Spells text.toList v := by
  rw [parse_eq_ok_iff_steps]
  generalize text.toList = cs
  constructor
  · rintro ⟨r₁, r₂, r₃, r₄, r₅, r₆, read₁, dot₁, read₂, dot₂, read₃, read₄, read₅⟩
    obtain ⟨major, rfl, first, -⟩ := number_eq_ok_iff.1 read₁
    obtain rfl := dot_eq_ok_iff.1 dot₁
    obtain ⟨minor, rfl, second, -⟩ := number_eq_ok_iff.1 read₂
    obtain rfl := dot_eq_ok_iff.1 dot₂
    obtain ⟨patch, rfl, third, -⟩ := number_eq_ok_iff.1 read₃
    have last : SpellsBuild r₆ v.build := by
      rcases buildMetadata_eq_ok_iff.1 read₅ with ⟨rfl, none, -⟩ | ⟨found, rfl, nonempty, -, each, same⟩
      · exact none ▸ .absent
      · rw [← same, List.append_nil]
        exact .identifiers nonempty each
    rcases preRelease_eq_ok_iff.1 read₄ with ⟨rfl, none, -⟩ | ⟨found, rfl, nonempty, -, each⟩
    · have fourth : PreRelease.Spells [] v.pre := by
        rw [none]
        exact .release
      exact .parts first second third fourth last
    · exact .parts first second third (.identifiers nonempty each) last
  · rintro ⟨first, second, third, fourth, last⟩
    exact ⟨_, _, _, _, _, _, number_eq_ok_iff.2 ⟨_, rfl, first, Clause.endsNumber_dot _⟩, dot_eq_ok_iff.2 rfl,
      number_eq_ok_iff.2 ⟨_, rfl, second, Clause.endsNumber_dot _⟩, dot_eq_ok_iff.2 rfl,
      number_eq_ok_iff.2 ⟨_, rfl, third, endsNumber_of_spells fourth last⟩, preRelease_append fourth last,
      buildMetadata_of_spells last⟩

end Version

end ProxyForge
