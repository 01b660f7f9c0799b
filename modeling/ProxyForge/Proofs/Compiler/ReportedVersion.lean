import ProxyForge.Compiler.Process
import ProxyForge.Proofs.Version.Spelling

/-!
# The version that a compiler reports

What a compiler says of its version is looked for in a text: a label, and behind it three runs of digits of any script
with dots between them, each as long as it can be. The leftmost such place decides (`labelledDigits?_eq_some_iff`). Its
runs are then read as a version, which takes numerals only, so digits of another script, a zero in front of a number or
a number of more than 64 bits fail the report, even if a later place would do (`reportedVersion_first`).
-/

namespace ProxyForge.Compiler

/-! ## Places of versions -/

/-- A run of digits of any script, as long as it can be. -/
structure IsRun (run rest : List Char) : Prop where
  nonempty : run ≠ []
  digits : ∀ c ∈ run, Text.isDecimalDigit c = true
  longest : Text.EndsClass Text.isDecimalDigit rest

/-- Three runs of digits. -/
structure Runs where
  major : List Char
  minor : List Char
  patch : List Char

namespace Runs

/-- The runs with dots between them. -/
def text (r : Runs) : List Char :=
  r.major ++ '.' :: (r.minor ++ '.' :: r.patch)

/-- A text begins with the runs, and `after` is what stands behind them. -/
structure Begin (r : Runs) (cs after : List Char) : Prop where
  whole : cs = r.major ++ '.' :: (r.minor ++ '.' :: (r.patch ++ after))
  major : IsRun r.major ('.' :: (r.minor ++ '.' :: (r.patch ++ after)))
  minor : IsRun r.minor ('.' :: (r.patch ++ after))
  patch : IsRun r.patch after

/-- The label stands in a text behind `before`, and the runs stand behind the label. -/
def LabelledIn (r : Runs) (text before after : List Char) : Prop :=
  ∃ behind, text = before ++ (versionLabel ++ behind) ∧ r.Begin behind after

/-- The runs behind the leftmost label that has runs behind it. -/
structure FirstIn (r : Runs) (text before after : List Char) : Prop where
  labelled : r.LabelledIn text before after
  leftmost : ∀ other earlier behind, LabelledIn other text earlier behind → before.length ≤ earlier.length

/-- A release whose numbers have the runs as numerals. -/
structure Denotes (r : Runs) (v : Version) : Prop where
  major : Numeral r.major v.major
  minor : Numeral r.minor v.minor
  patch : Numeral r.patch v.patch
  release : v.pre = []
  plain : v.build = []

end Runs

/-! ## Finding the leftmost place -/

/-- A dot is no digit of any script. -/
theorem endsClass_dot (rest : List Char) : Text.EndsClass Text.isDecimalDigit ('.' :: rest) := by
  intro c head
  rw [← Option.some.inj head]
  decide

/-- Runs are found at the front of a text exactly if it begins with them. -/
theorem dottedDigits?_eq_some_iff {cs digits : List Char} :
    dottedDigits? cs = some digits ↔ ∃ r after, Runs.Begin r cs after ∧ digits = r.text := by
  constructor
  · intro found
    unfold dottedDigits? at found
    dsimp only at found
    split at found
    · rename_i behind first
      obtain ⟨whole, major, -⟩ := Text.stretch_iff.1 ⟨rfl, first⟩
      split at found
      · rename_i rest second
        obtain ⟨middle, minor, -⟩ := Text.stretch_iff.1 ⟨rfl, second⟩
        obtain ⟨last, patch, longest⟩ := Text.stretch_iff.1 ⟨rfl, Eq.refl (rest.dropWhile Text.isDecimalDigit)⟩
        split at found
        · cases found
        · rename_i nonempty
          simp only [Bool.or_eq_true, List.isEmpty_iff, not_or] at nonempty
          obtain ⟨⟨first, second⟩, third⟩ := nonempty
          refine ⟨⟨_, _, _⟩, _, ⟨?_, ⟨first, major, endsClass_dot _⟩, ⟨second, minor, endsClass_dot _⟩,
            third, patch, longest⟩, ?_⟩
          · show cs = _ ++ '.' :: (_ ++ '.' :: (_ ++ _))
            rw [← last, ← middle, ← whole]
          · simp [← Option.some.inj found, Runs.text]
      · cases found
    · cases found
  · rintro ⟨r, after, ⟨rfl, major, minor, patch⟩, rfl⟩
    have first := Text.stretch_iff.2 ⟨rfl, major.digits, major.longest⟩
    have second := Text.stretch_iff.2 ⟨rfl, minor.digits, minor.longest⟩
    have third := Text.stretch_iff.2 ⟨rfl, patch.digits, patch.longest⟩
    simp [dottedDigits?, first, second, third, major.nonempty, minor.nonempty, patch.nonempty, Runs.text]

/-- The digits behind a label at the front of a text. -/
def frontDigits? (text : List Char) : Option (List Char) :=
  if versionLabel.isPrefixOf text then dottedDigits? (text.drop versionLabel.length) else none

theorem frontDigits?_eq_some_iff {text digits : List Char} :
    frontDigits? text = some digits ↔ ∃ r after, Runs.LabelledIn r text [] after ∧ digits = r.text := by
  rw [frontDigits?]
  constructor
  · intro found
    split at found
    · rename_i front
      obtain ⟨behind, rfl⟩ := List.isPrefixOf_iff_prefix.1 front
      rw [List.drop_left, dottedDigits?_eq_some_iff] at found
      obtain ⟨r, after, begins, same⟩ := found
      exact ⟨r, after, ⟨behind, rfl, begins⟩, same⟩
    · cases found
  · rintro ⟨r, after, ⟨behind, rfl, begins⟩, same⟩
    rw [List.nil_append, if_pos (List.isPrefixOf_iff_prefix.2 (List.prefix_append _ _)), List.drop_left,
      dottedDigits?_eq_some_iff]
    exact ⟨r, after, begins, same⟩

theorem labelledDigits?_cons (c : Char) (cs : List Char) :
    labelledDigits? (c :: cs) = (frontDigits? (c :: cs)).or (labelledDigits? cs) := by
  rw [labelledDigits?, frontDigits?]
  split <;> simp_all

namespace Runs

/-- Behind the first character of a text are the places of the text behind it. -/
theorem labelledIn_cons_iff {r : Runs} {c d : Char} {cs before after : List Char} :
    r.LabelledIn (c :: cs) (d :: before) after ↔ d = c ∧ r.LabelledIn cs before after := by
  constructor
  · rintro ⟨behind, whole, begins⟩
    obtain ⟨rfl, rest⟩ := List.cons.inj whole
    exact ⟨rfl, behind, rest, begins⟩
  · rintro ⟨rfl, behind, rfl, begins⟩
    exact ⟨behind, rfl, begins⟩

theorem not_labelledIn_nil {r : Runs} {before after : List Char} : ¬r.LabelledIn [] before after := by
  intro ⟨behind, whole, begins⟩
  have label := (List.append_eq_nil_iff.1 whole.symm).2
  exact absurd (List.append_eq_nil_iff.1 label).1 (by decide)

/-- A place at the front is the leftmost one. -/
theorem LabelledIn.firstIn {r : Runs} {text after : List Char} (h : r.LabelledIn text [] after) :
    r.FirstIn text [] after :=
  ⟨h, fun _ _ _ _ => Nat.zero_le _⟩

/-- Without a place at the front the leftmost place is that of the text behind the first character. -/
theorem firstIn_cons_iff {c : Char} {cs : List Char} (none : ∀ r after, ¬LabelledIn r (c :: cs) [] after) {r : Runs}
    {after : List Char} :
    (∃ before, r.FirstIn (c :: cs) before after) ↔ ∃ before, r.FirstIn cs before after := by
  constructor
  · rintro ⟨before, labelled, leftmost⟩
    cases before with
    | nil => exact absurd labelled (none r after)
    | cons d before =>
      refine ⟨before, (labelledIn_cons_iff.1 labelled).2, fun other earlier behind place => ?_⟩
      have least := leftmost other (c :: earlier) behind (labelledIn_cons_iff.2 ⟨rfl, place⟩)
      simpa using least
  · rintro ⟨before, labelled, leftmost⟩
    refine ⟨c :: before, labelledIn_cons_iff.2 ⟨rfl, labelled⟩, fun other earlier behind place => ?_⟩
    cases earlier with
    | nil => exact absurd place (none other behind)
    | cons d earlier => exact Nat.succ_le_succ (leftmost other earlier behind (labelledIn_cons_iff.1 place).2)

end Runs

/-- The digits that are found are those of the leftmost place. -/
theorem labelledDigits?_eq_some_iff {text digits : List Char} :
    labelledDigits? text = some digits ↔ ∃ r before after, Runs.FirstIn r text before after ∧ digits = r.text := by
  induction text with
  | nil =>
    simp only [labelledDigits?, reduceCtorEq, false_iff]
    rintro ⟨r, before, after, first, -⟩
    exact Runs.not_labelledIn_nil first.labelled
  | cons c cs ih =>
    rw [labelledDigits?_cons]
    cases front : frontDigits? (c :: cs) with
    | none =>
      have none : ∀ r after, ¬Runs.LabelledIn r (c :: cs) [] after := by
        intro r after place
        rw [frontDigits?_eq_some_iff.2 ⟨r, after, place, rfl⟩] at front
        cases front
      rw [Option.none_or, ih]
      constructor
      · rintro ⟨r, before, after, first, same⟩
        obtain ⟨longer, first⟩ := (Runs.firstIn_cons_iff none).2 ⟨before, first⟩
        exact ⟨r, longer, after, first, same⟩
      · rintro ⟨r, before, after, first, same⟩
        obtain ⟨shorter, first⟩ := (Runs.firstIn_cons_iff none).1 ⟨before, first⟩
        exact ⟨r, shorter, after, first, same⟩
    | some found =>
      obtain ⟨r, after, place, rfl⟩ := frontDigits?_eq_some_iff.1 front
      rw [Option.some_or, Option.some.injEq]
      constructor
      · rintro rfl
        exact ⟨r, [], after, place.firstIn, rfl⟩
      · rintro ⟨other, before, behind, first, rfl⟩
        have atFront : before = [] := List.length_eq_zero_iff.1 (Nat.le_zero.1 (first.leftmost r [] after place))
        have same := frontDigits?_eq_some_iff.2 ⟨other, behind, atFront ▸ first.labelled, rfl⟩
        exact Option.some.inj (front.symm.trans same)

/-! ## Reading the runs -/

namespace Runs

theorem isDecimalDigit_of_numeral {digits : List Char} {n : Nat} (h : Numeral digits n) :
    ∀ c ∈ digits, Text.isDecimalDigit c = true :=
  fun c hc => Text.isDecimalDigit_of_isDigit (h.all c hc)

/-- Runs spell a version exactly if they are the numerals of a release. -/
theorem Begin.spells_text_iff {r : Runs} {cs after : List Char} (begins : r.Begin cs after) {v : Version} :
    Version.Spells r.text v ↔ r.Denotes v := by
  obtain ⟨a, b, c, identifiers, metadata⟩ := v
  constructor
  · intro spells
    generalize same : r.text = spelled at spells
    obtain ⟨first, second, third, fourth, last⟩ := spells
    obtain ⟨rfl, tail⟩ := Text.stretch_unique same begins.major.digits (endsClass_dot _)
      (isDecimalDigit_of_numeral first) (endsClass_dot _)
    obtain ⟨rfl, rest⟩ := Text.stretch_unique (List.cons.inj tail).2 begins.minor.digits (endsClass_dot _)
      (isDecimalDigit_of_numeral second) (endsClass_dot _)
    have patch := (List.cons.inj rest).2
    -- A hyphen or a plus sign behind the third number would be a digit of the third run.
    have digits := begins.patch.digits
    rw [patch] at digits
    cases fourth with
    | release =>
      cases last with
      | absent =>
        rw [List.append_nil, List.append_nil] at patch
        exact ⟨first, second, patch ▸ third, rfl, rfl⟩
      | identifiers => exact absurd (digits '+' (by simp)) (by decide)
    | identifiers => exact absurd (digits '-' (by simp)) (by decide)
  · rintro ⟨first, second, third, rfl, rfl⟩
    simpa [text] using Version.Spells.parts first second third .release .absent

end Runs

/-- What is reported is what the runs of the leftmost place are read as. -/
theorem reportedVersion_of_firstIn {text : String} {r : Runs} {before after : List Char}
    (first : r.FirstIn text.toList before after) :
    reportedVersion text = match Version.parse (String.ofList r.text) with
      | .ok version => .ok version
      | .error cause => .error (.badVersion (String.ofList r.text) cause) := by
  have found := labelledDigits?_eq_some_iff.2 ⟨r, before, after, first, rfl⟩
  cases read : Version.parse (String.ofList r.text) <;> simp only [reportedVersion, found, read]

/-- Without a place nothing is reported. -/
theorem reportedVersion_of_unplaced {text : String}
    (absent : ∀ r before after, ¬Runs.FirstIn r text.toList before after) :
    reportedVersion text = .error (.noVersion text) := by
  have unfound : labelledDigits? text.toList = none := by
    rw [Option.eq_none_iff_forall_ne_some]
    intro digits found
    obtain ⟨r, before, after, first, -⟩ := labelledDigits?_eq_some_iff.1 found
    exact absent r before after first
  rw [reportedVersion, unfound]

/-- Runs are read as the version that they denote. -/
theorem parse_text_eq_ok_iff {text before after : List Char} {r : Runs} (first : r.FirstIn text before after)
    {version : Version} : Version.parse (String.ofList r.text) = .ok version ↔ r.Denotes version := by
  obtain ⟨behind, -, begins⟩ := first.labelled
  rw [Version.parse_eq_ok_iff, String.toList_ofList, begins.spells_text_iff]

/-- The version that a compiler reports is the release whose numerals are the runs of the leftmost place. If they are no
numerals, or if there is no place at all, the report fails; and nothing in front of the place or behind it matters. -/
theorem reportedVersion_first (text : String) :
    (∀ version, reportedVersion text = .ok version ↔
      ∃ r before after, Runs.FirstIn r text.toList before after ∧ r.Denotes version) ∧
    (∀ r before after, Runs.FirstIn r text.toList before after → (∀ version, ¬r.Denotes version) →
      ∃ cause, reportedVersion text = .error (.badVersion (String.ofList r.text) cause)) ∧
    ((∀ r before after, ¬Runs.FirstIn r text.toList before after) → reportedVersion text = .error (.noVersion text)) ∧
    ∀ r before after other before' after', Runs.FirstIn r text.toList before after →
      Runs.FirstIn r (String.toList other) before' after' → reportedVersion other = reportedVersion text := by
  refine ⟨fun version => ⟨fun reported => ?_, ?_⟩, fun r before after first noNumerals => ?_,
    reportedVersion_of_unplaced, ?_⟩
  · by_cases placed : ∃ r before after, Runs.FirstIn r text.toList before after
    · obtain ⟨r, before, after, first⟩ := placed
      rw [reportedVersion_of_firstIn first] at reported
      cases read : Version.parse (String.ofList r.text) with
      | error cause => simp [read] at reported
      | ok found =>
        simp only [read, Except.ok.injEq] at reported
        exact ⟨r, before, after, first, (parse_text_eq_ok_iff first).1 (reported ▸ read)⟩
    · rw [reportedVersion_of_unplaced (by simpa using placed)] at reported
      cases reported
  · rintro ⟨r, before, after, first, denotes⟩
    rw [reportedVersion_of_firstIn first, (parse_text_eq_ok_iff first).2 denotes]
  · rw [reportedVersion_of_firstIn first]
    cases read : Version.parse (String.ofList r.text) with
    | error cause => exact ⟨cause, rfl⟩
    | ok found => exact absurd ((parse_text_eq_ok_iff first).1 read) (noNumerals found)
  · intro r before after other before' after' first second
    rw [reportedVersion_of_firstIn first, reportedVersion_of_firstIn second]

/-- A place with a zero in front of a number hides a later place that would do. -/
example : reportedVersion "Version: 0.05.1 Version: 0.5.17" = .error (.badVersion "0.05.1" (.leadingZero .minor)) := by
  rfl

end ProxyForge.Compiler
