import ProxyForge.Proofs.Contract.Constructor
import ProxyForge.Proofs.Pragma.Line

/-!
# The expected version of a proxy

The first line of every proxy is its pragma, so the verdict on the proxy is the same for all deployments: it is passed
by the releases from 0.5.6 up to 0.6.0 (`refuses_source_iff`). The name of the proxy comes before that of the library,
so the check of both is that of the library alone where the proxy passes (`check_units_of_passed`), and otherwise the
fault of the proxy (`check_units_of_refused`).
-/

namespace ProxyForge

/-! ## What a version is compared by -/

/-- Build metadata are not compared. -/
theorem Requirement.accepts_build (r : Requirement) (v : Version) (build : List String) :
    r.accepts { v with build } = r.accepts v := rfl

-- Stated for itself, since deriving the equations of `message` would unfold its texts.
theorem PragmaFault.message_unsatisfied (v : Version) (r : Requirement) (source : String) :
    (unsatisfied v r source).message =
      "The compiler version " ++ v.text ++ " does not satisfy the pragma `" ++ r.text ++ "` in `" ++ source ++ "`" :=
  rfl

namespace Pragma

theorem Refuses.withBuild {v : Version} {source : String} (refuses : Refuses v source) (build : List String) :
    Refuses { v with build } source := by
  cases refuses with
  | invalid text fault first unread => exact .invalid text fault first unread
  | unsatisfied text requirement first read unmet =>
    exact .unsatisfied text requirement first read (requirement.accepts_build v build ▸ unmet)

theorem refuses_build_iff {v : Version} {source : String} (build : List String) :
    Refuses { v with build } source ↔ Refuses v source :=
  ⟨fun refuses => refuses.withBuild v.build, fun refuses => refuses.withBuild build⟩

theorem check_build_eq_ok_iff {v : Version} {sources : NameMap String} (build : List String) :
    check { v with build } sources = .ok () ↔ check v sources = .ok () := by
  simp only [check_eq_ok_iff, refuses_build_iff]

end Pragma

namespace Proxy

open Compiler

/-! ## The pragma of a proxy -/

/-- The clause of the pragma of every proxy. -/
def languageClause : Clause :=
  ⟨.caret, 0, 5, 6⟩

/-- The versions that the language of a proxy is written for. -/
def IsLanguageVersion (v : Version) : Prop :=
  v.pre = [] ∧ toLex (0, toLex (5, 6)) ≤ v.numbers ∧ v.numbers < toLex (0, toLex (6, 0))

instance : DecidablePred IsLanguageVersion :=
  fun v => inferInstanceAs (Decidable (v.pre = [] ∧ _ ∧ _))

theorem languageClause_admits_iff {v : Version} :
    languageClause.Admits v ↔ toLex (0, toLex (5, 6)) ≤ v.numbers ∧ v.numbers < toLex (0, toLex (6, 0)) := by
  have caret : languageClause.Admits v ↔ toLex (0, toLex (5, 6)) ≤ v.numbers ∧ v.major = 0 ∧ v.minor = 5 := Iff.rfl
  rw [caret]
  simp only [Version.numbers, Prod.Lex.toLex_lt_toLex, Prod.Lex.toLex_le_toLex]
  omega

theorem isLine_language : Pragma.IsLine [languageClause] "pragma solidity ^0.5.6;".toList := by
  have spaced : Pragma.Spaced ['^'] ['^'] := @Pragma.Spaced.cons _ _ [] [] (by decide) .nil
  have listed : Pragma.Listed [languageClause] " ^0.5.6".toList :=
    @Pragma.Listed.cons _ _ [' '] ['^'] [] (by decide) (by decide) spaced .nil
  have ended : Pragma.IsEnd [';'] := @Pragma.IsEnd.closed [] [] (by decide) (by decide)
  exact @Pragma.IsLine.intro _ [] [' '] " ^0.5.6".toList [';'] (by decide) (by decide) (by decide) listed ended

/-- Nothing of a deployment stands in front of the pragma. -/
theorem isFirstPragma_source (d : Deployment) (writes : List (Word × Word)) :
    Pragma.IsFirstPragma "pragma solidity ^0.5.6;".toList (source d writes) := by
  have first : ∃ after, Text.lines (source d writes).toList = "pragma solidity ^0.5.6;".toList :: after := by
    rw [lines_source, lines_program]
    exact ⟨_, rfl⟩
  obtain ⟨after, cut⟩ := first
  exact ⟨[], after, cut, by simp⟩

theorem ofSource?_source (d : Deployment) (writes : List (Word × Word)) :
    Pragma.ofSource? (source d writes) = some (Clause.joined [languageClause]) :=
  Pragma.ofSource?_of_isFirstPragma (isFirstPragma_source d writes)
    (Pragma.requirement?_line isLine_language (List.cons_ne_nil _ _))

theorem parse_language : Requirement.parse (Clause.joined [languageClause]) = .ok ⟨[languageClause.comparator]⟩ :=
  Clause.parse_joined (List.cons_ne_nil _ _) (by decide)

theorem accepts_language_iff {v : Version} :
    Requirement.accepts ⟨[languageClause.comparator]⟩ v = true ↔ IsLanguageVersion v := by
  have accepted := @Pragma.accepts_clauses_iff [languageClause] v
  rw [List.forall_mem_singleton, languageClause_admits_iff] at accepted
  exact accepted

/-- A proxy is refused by the same versions whatever is deployed. -/
theorem refuses_source_iff {v : Version} {d : Deployment} {writes : List (Word × Word)} :
    Pragma.Refuses v (source d writes) ↔ ¬ IsLanguageVersion v := by
  rw [Pragma.refuses_iff (ofSource?_source d writes) parse_language, ← accepts_language_iff, Bool.not_eq_true]

theorem checkSource_source_of_refused {v : Version} (other : ¬ IsLanguageVersion v) (d : Deployment)
    (writes : List (Word × Word)) (name : String) :
    Pragma.checkSource v name (source d writes) = .error (.unsatisfied v ⟨[languageClause.comparator]⟩ name) := by
  have unmet : ¬ Requirement.accepts ⟨[languageClause.comparator]⟩ v = true := fun met =>
    other (accepts_language_iff.1 met)
  rw [Pragma.checkSource, ofSource?_source]
  simp only [parse_language, if_neg unmet]

/-! ## The check of both sources -/

theorem check_units_of_passed {v : Version} (passed : IsLanguageVersion v) (d : Deployment)
    (writes : List (Word × Word)) (library : String) :
    Pragma.check v (units d writes library) = Pragma.check v (.singleton "SafeERC20.sol" library) := by
  have first : Pragma.checkSource v "Proxy.sol" (source d writes) = .ok () := by
    rw [Pragma.checkSource_eq_ok_iff, refuses_source_iff]
    exact not_not_intro passed
  rw [Pragma.check, entries_units, Pragma.checkEntries, first]
  rfl

theorem check_units_of_refused {v : Version} (other : ¬ IsLanguageVersion v) (d : Deployment)
    (writes : List (Word × Word)) (library : String) :
    Pragma.check v (units d writes library) =
      .error (.unsatisfied v ⟨[languageClause.comparator]⟩ "Proxy.sol") := by
  rw [Pragma.check, entries_units, Pragma.checkEntries, checkSource_source_of_refused other]

theorem check_units_eq_ok_iff {v : Version} {d : Deployment} {writes : List (Word × Word)} {library : String} :
    Pragma.check v (units d writes library) = .ok () ↔
      IsLanguageVersion v ∧ Pragma.check v (.singleton "SafeERC20.sol" library) = .ok () := by
  by_cases language : IsLanguageVersion v
  · rw [check_units_of_passed language, and_iff_right language]
  · rw [check_units_of_refused language]
    simp [language]

/-- The check does not look at what is deployed. -/
theorem check_units_congr (v : Version) (d d' : Deployment) (writes writes' : List (Word × Word)) (library : String) :
    Pragma.check v (units d writes library) = Pragma.check v (units d' writes' library) := by
  by_cases language : IsLanguageVersion v
  · rw [check_units_of_passed language, check_units_of_passed language]
  · rw [check_units_of_refused language, check_units_of_refused language]

theorem message_language (v : Version) :
    (PragmaFault.unsatisfied v ⟨[languageClause.comparator]⟩ "Proxy.sol").message =
      "The compiler version " ++ v.text ++ " does not satisfy the pragma `^0.5.6` in `Proxy.sol`" := by
  have text : Requirement.text ⟨[languageClause.comparator]⟩ = "^0.5.6" := rfl
  rw [PragmaFault.message_unsatisfied, text]
  simp only [String.append_assoc]
  rfl

/-- A proxy and its library pass for an expected version exactly when it is a release of the language that the proxy is
written for and the library passes alone. The result is the same for every deployment and all its writes, build
metadata do not decide it, and a version that the proxy refuses is told with the name of the proxy, whatever the library
says. -/
theorem checkExpected_units {σ : Type} (toolchain : Toolchain σ) (file name library : String) (version : Version)
    (d : Deployment) (writes : List (Word × Word)) :
    let check (v : Version) (d : Deployment) (writes : List (Word × Word)) :=
      Setup.checkExpected ⟨toolchain, some v⟩ (units d writes library) file name
    let admitted := version.pre = [] ∧ toLex (0, toLex (5, 6)) ≤ version.numbers ∧
      version.numbers < toLex (0, toLex (6, 0))
    (check version d writes = .ok () ↔
      admitted ∧ Pragma.check version (.singleton "SafeERC20.sol" library) = .ok ()) ∧
    (∀ d' writes', check version d' writes' = check version d writes) ∧
    (∀ build, check { version with build } d writes = .ok () ↔ check version d writes = .ok ()) ∧
    (¬ admitted → check version d writes = .error (.compilation (contractPath file name)
      ["The compiler version " ++ version.text ++ " does not satisfy the pragma `^0.5.6` in `Proxy.sol`"])) := by
  intro check admitted
  have passes : ∀ v d writes, check v d writes = .ok () ↔ Pragma.check v (units d writes library) = .ok () := by
    intro v d writes
    simp only [check, Setup.checkExpected]
    cases Pragma.check v (units d writes library) <;> simp
  refine ⟨?_, fun d' writes' => ?_, fun build => ?_, fun refused => ?_⟩
  · rw [passes]
    exact check_units_eq_ok_iff
  · simp only [check, Setup.checkExpected, check_units_congr version d' d writes' writes]
  · rw [passes, passes, Pragma.check_build_eq_ok_iff]
  · simp only [check, Setup.checkExpected, check_units_of_refused refused, message_language]

end Proxy

end ProxyForge
