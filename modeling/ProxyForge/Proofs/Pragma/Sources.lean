import ProxyForge.Proofs.Pragma.Verdict
import ProxyForge.Proofs.Text.ByteOrder

/-!
# Verdicts on several sources

The check of several sources passes when each of them passes alone, and otherwise it tells the fault of the first that
does not, in the order of the names (`check_eq_error_iff`). So no source hides or changes the verdict on another, and
more sources can only refuse more (`check_separately`). Of each source the first version pragma counts, whatever the
others say (`check_eq_ok_iff_meets`): for sources with a single pragma this is all they require, but a second pragma is
not looked at.
-/

namespace ProxyForge.Pragma

/-! ## The first fault -/

theorem checkEntries_eq_error_iff {version : Version} {fault : PragmaFault} {entries : List (String × String)}
    (ascending : entries.Pairwise fun a b => a.1 < b.1) :
    checkEntries version entries = .error fault ↔ ∃ e ∈ entries, checkSource version e.1 e.2 = .error fault ∧
      ∀ d ∈ entries, d.1 < e.1 → checkSource version d.1 d.2 = .ok () := by
  induction entries with
  | nil => simp [checkEntries]
  | cons e entries ih =>
    obtain ⟨behind, ascending⟩ := List.pairwise_cons.1 ascending
    rw [checkEntries]
    cases verdict : checkSource version e.1 e.2 with
    | ok passed =>
      rw [ih ascending]
      constructor
      · rintro ⟨d, member, refused, others⟩
        exact ⟨d, .tail _ member, refused, List.forall_mem_cons.2 ⟨fun _ => verdict, others⟩⟩
      · rintro ⟨d, member, refused, others⟩
        rcases List.mem_cons.1 member with rfl | member
        · rw [verdict] at refused
          cases refused
        · exact ⟨d, member, refused, (List.forall_mem_cons.1 others).2⟩
    | error first =>
      constructor
      · rintro ⟨⟩
        refine ⟨e, .head _, verdict, List.forall_mem_cons.2 ⟨fun less => ?_, fun d member less => ?_⟩⟩
        · exact absurd less Std.lt_irrefl
        · exact absurd less (Std.not_lt.2 (Std.le_of_lt (behind d member)))
      · rintro ⟨d, member, refused, others⟩
        rcases List.mem_cons.1 member with rfl | member
        · rw [← refused, verdict]
        · have passed := others e (.head _) (behind d member)
          rw [verdict] at passed
          cases passed

/-- Sources pass together exactly when each of them passes alone. -/
theorem check_eq_ok_iff_singleton {version : Version} {sources : NameMap String} :
    check version sources = .ok () ↔
      ∀ name source, sources.get? name = some source → check version (.singleton name source) = .ok () := by
  simp only [check_singleton, NameMap.get?_eq_some_iff]
  rw [check_eq_ok_iff]
  simp only [checkSource_eq_ok_iff, Prod.forall]

/-- The fault of sources is that of the first of them, in the order of the bytes of their names, that does not pass
alone. -/
theorem check_eq_error_iff {version : Version} {sources : NameMap String} {fault : PragmaFault} :
    check version sources = .error fault ↔ ∃ name source, sources.get? name = some source ∧
      check version (.singleton name source) = .error fault ∧
      ∀ other text, sources.get? other = some text → Text.utf8 other.toList < Text.utf8 name.toList →
        check version (.singleton other text) = .ok () := by
  simp only [check_singleton, Text.utf8_lt_iff, NameMap.get?_eq_some_iff]
  rw [check, checkEntries_eq_error_iff sources.ascending]
  simp only [Prod.exists, Prod.forall]

/-! ## More sources -/

theorem ofSource?_eq_none_iff {source : String} :
    ofSource? source = none ↔ ∀ line ∈ Text.lines source.toList, requirement? line = none :=
  List.findSome?_eq_none_iff

/-- A source without a version pragma passes for every version. -/
theorem check_singleton_of_unmarked (version : Version) (name : String) {source : String}
    (unmarked : ofSource? source = none) : check version (.singleton name source) = .ok () := by
  rw [check_singleton, checkSource, unmarked]

section More

variable {version : Version} {sources more : NameMap String}
  (kept : ∀ name source, sources.get? name = some source → more.get? name = some source)

include kept

/-- Sources that pass with others pass without them. -/
theorem check_eq_ok_of_more (passed : check version more = .ok ()) : check version sources = .ok () := by
  rw [check_eq_ok_iff_singleton] at passed ⊢
  exact fun name source here => passed name source (kept name source here)

/-- Sources without a version pragma change no result. -/
theorem check_more_of_unmarked
    (unmarked : ∀ name source, more.get? name = some source → sources.get? name = none → ofSource? source = none) :
    check version more = check version sources := by
  -- A source of the larger map is one of the others or passes alone.
  have cases_more : ∀ name source, more.get? name = some source →
      sources.get? name = some source ∨ check version (.singleton name source) = .ok () := by
    intro name source here
    cases before : sources.get? name with
    | none => exact .inr (check_singleton_of_unmarked version name (unmarked name source here before))
    | some old =>
      have same := kept name old before
      rw [here] at same
      exact .inl same.symm
  cases verdict : check version sources with
  | ok passed =>
    have each := check_eq_ok_iff_singleton.1 verdict
    rw [check_eq_ok_iff_singleton]
    exact fun name source here => (cases_more name source here).elim (each name source) id
  | error fault =>
    obtain ⟨name, source, here, refused, others⟩ := check_eq_error_iff.1 verdict
    refine check_eq_error_iff.2 ⟨name, source, kept name source here, refused, fun other text there less => ?_⟩
    exact (cases_more other text there).elim (fun before => others other text before less) id

end More

/-- The check of sources is decided source by source: it passes when each passes alone, and otherwise its fault is that
of the first that does not, in the order of the bytes of their names. With more sources it passes for fewer versions,
and the result stays when those that are added have no version pragma. -/
theorem check_separately (version : Version) (sources : NameMap String) :
    (check version sources = .ok () ↔
      ∀ name source, sources.get? name = some source → check version (.singleton name source) = .ok ()) ∧
    (∀ fault, check version sources = .error fault ↔ ∃ name source, sources.get? name = some source ∧
      check version (.singleton name source) = .error fault ∧
      ∀ other text, sources.get? other = some text → Text.utf8 other.toList < Text.utf8 name.toList →
        check version (.singleton other text) = .ok ()) ∧
    ∀ more : NameMap String, (∀ name source, sources.get? name = some source → more.get? name = some source) →
      (check version more = .ok () → check version sources = .ok ()) ∧
      ((∀ name source, more.get? name = some source → sources.get? name = none →
          ∀ line ∈ Text.lines source.toList, requirement? line = none) →
        check version more = check version sources) := by
  refine ⟨check_eq_ok_iff_singleton, fun fault => check_eq_error_iff, fun more kept => ⟨?_, fun unmarked => ?_⟩⟩
  · exact check_eq_ok_of_more kept
  · exact check_more_of_unmarked kept fun name source here fresh =>
      ofSource?_eq_none_iff.2 (unmarked name source here fresh)

/-! ## The first pragma of a source -/

/-- The texts of the requirements of a source, one for each of its version pragmas. -/
def requirements (source : String) : List (List Char) :=
  (Text.lines source.toList).filterMap requirement?

theorem head?_requirements (source : String) : (requirements source).head? = ofSource? source :=
  List.head?_filterMap

theorem checkEntries_insertEntry_congr (version : Version) (name : String) {source other : String}
    (same : ofSource? other = ofSource? source) (entries : List (String × String)) :
    checkEntries version (NameMap.insertEntry name other entries) =
      checkEntries version (NameMap.insertEntry name source entries) := by
  have first := checkSource_congr version name same
  induction entries with
  | nil => simp only [NameMap.insertEntry, checkEntries, first]
  | cons e entries ih =>
    simp only [NameMap.insertEntry]
    split
    · simp only [checkEntries, first]
    · split
      · simp only [checkEntries, first]
      · simp only [checkEntries, ih]

/-- Sources pass exactly when the version satisfies the first pragma of each. -/
theorem check_eq_ok_iff_meets {version : Version} {sources : NameMap String} :
    check version sources = .ok () ↔
      ∀ name source, sources.get? name = some source → ∀ text, ofSource? source = some text → Meets version text := by
  rw [check_eq_ok_iff_singleton]
  simp only [check_singleton, checkSource_eq_ok_iff_meets]

/-- A passing check says that the version satisfies the first pragma of every source. That is every pragma where no
source has a second one; what a source says behind its first pragma does not change the result. -/
theorem check_first_pragmas (version : Version) (sources : NameMap String) :
    (check version sources = .ok () ↔ ∀ name source, sources.get? name = some source →
      ∀ text, (requirements source).head? = some text → Meets version text) ∧
    ((∀ name source, sources.get? name = some source → (requirements source).length ≤ 1) →
      (check version sources = .ok () ↔ ∀ name source, sources.get? name = some source →
        ∀ text ∈ requirements source, Meets version text)) ∧
    ∀ name source other, (requirements other).head? = (requirements source).head? →
      check version (sources.insert name other) = check version (sources.insert name source) := by
  simp only [head?_requirements]
  refine ⟨check_eq_ok_iff_meets, fun single => ?_, fun name source other same => ?_⟩
  · rw [check_eq_ok_iff_meets]
    refine forall₃_congr fun name source here => ?_
    rw [← head?_requirements]
    cases listed : requirements source with
    | nil => simp
    | cons text rest =>
      have alone := single name source here
      rw [listed] at alone
      have last : rest = [] := List.eq_nil_of_length_eq_zero (by simpa using alone)
      simp [last]
  · exact checkEntries_insertEntry_congr version name same sources.entries

/-- A second pragma that the version does not satisfy is passed over. -/
theorem check_passes_second_pragma :
    ¬ ∀ (version : Version) (sources : NameMap String), check version sources = .ok () →
      ∀ name source, sources.get? name = some source →
        ∀ line ∈ Text.lines source.toList, ∀ text, requirement? line = some text → Meets version text := by
  intro all
  have passed : check ⟨0, 5, 6, [], []⟩
      (.singleton "Two.sol" "pragma solidity ^0.5.0;\npragma solidity ^0.6.0;") = .ok () := rfl
  obtain ⟨requirement, read, accepted⟩ := all _ _ passed "Two.sol" _ rfl "pragma solidity ^0.6.0;".toList (by decide)
    "^0.6.0".toList (by decide)
  have caret : Requirement.parse "^0.6.0".toList = .ok ⟨[⟨.caret, 0, some 6, some 0, []⟩]⟩ := rfl
  rw [← Except.ok.inj (caret.symm.trans read)] at accepted
  exact absurd accepted (by decide)

end ProxyForge.Pragma
