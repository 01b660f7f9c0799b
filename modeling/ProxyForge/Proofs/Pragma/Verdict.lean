import ProxyForge.Pragma

/-!
# Sources that refuse a version

A source refuses a version when its first version pragma is no requirement or one that the version does not satisfy. The
check of sources passes exactly when none of them refuses the version (`check_eq_ok_iff`); which source is named
when it does not pass is a matter of their order.
-/

namespace ProxyForge.Pragma

/-- A source whose first version pragma is no requirement, or one that a version does not satisfy. -/
inductive Refuses (version : Version) (source : String) : Prop where
  | invalid (text : List Char) (fault : VersionFault) (first : ofSource? source = some text)
      (unread : Requirement.parse text = .error fault)
  | unsatisfied (text : List Char) (requirement : Requirement) (first : ofSource? source = some text)
      (read : Requirement.parse text = .ok requirement) (unmet : requirement.accepts version = false)

/-- A source with a requirement refuses the versions that the requirement does not accept. -/
theorem refuses_iff {version : Version} {source : String} {text : List Char} {requirement : Requirement}
    (first : ofSource? source = some text) (read : Requirement.parse text = .ok requirement) :
    Refuses version source ↔ requirement.accepts version = false := by
  constructor
  · rintro (⟨other, fault, found, unread⟩ | ⟨other, unmet, found, reread, refused⟩)
    · rw [Option.some.inj (first.symm.trans found), unread] at read
      cases read
    · rw [Option.some.inj (first.symm.trans found), reread] at read
      rwa [← Except.ok.inj read]
  · exact .unsatisfied text requirement first read

theorem checkSource_eq_ok_iff {version : Version} {name source : String} :
    checkSource version name source = .ok () ↔ ¬ Refuses version source := by
  constructor
  · rintro passed (⟨text, fault, first, unread⟩ | ⟨text, requirement, first, read, unmet⟩)
    · simp [checkSource, first, unread] at passed
    · simp [checkSource, first, read, unmet] at passed
  · intro admitted
    rw [checkSource]
    split
    · rfl
    · rename_i text first
      split
      · rename_i fault unread
        exact absurd (.invalid text fault first unread) admitted
      · rename_i requirement read
        split
        · rfl
        · rename_i unmet
          exact absurd (.unsatisfied text requirement first read (by simpa using unmet)) admitted

/-- The verdict on a source is that on its first version pragma. -/
theorem checkSource_congr (version : Version) (name : String) {source other : String}
    (same : ofSource? other = ofSource? source) : checkSource version name other = checkSource version name source := by
  rw [checkSource, checkSource, same]

theorem checkEntries_eq_ok_iff {version : Version} {entries : List (String × String)} :
    checkEntries version entries = .ok () ↔ ∀ e ∈ entries, ¬ Refuses version e.2 := by
  induction entries with
  | nil => simp [checkEntries]
  | cons e entries ih =>
    rw [List.forall_mem_cons, ← ih, ← @checkSource_eq_ok_iff version e.1 e.2, checkEntries]
    cases checkSource version e.1 e.2 with
    | error fault => simp
    | ok passed => simp

/-- Sources pass exactly when none of them refuses the version. -/
theorem check_eq_ok_iff {version : Version} {sources : NameMap String} :
    check version sources = .ok () ↔ ∀ e ∈ sources.entries, ¬ Refuses version e.2 :=
  checkEntries_eq_ok_iff

/-- A single source is told by the verdict on it. -/
theorem check_singleton (version : Version) (name source : String) :
    check version (.singleton name source) = checkSource version name source := by
  rw [check, NameMap.entries_singleton, checkEntries]
  cases checkSource version name source <;> rfl

/-- A text is a requirement that a version satisfies. -/
def Meets (version : Version) (text : List Char) : Prop :=
  ∃ requirement, Requirement.parse text = .ok requirement ∧ requirement.accepts version = true

theorem checkSource_eq_ok_iff_meets {version : Version} {name source : String} :
    checkSource version name source = .ok () ↔ ∀ text, ofSource? source = some text → Meets version text := by
  rw [checkSource_eq_ok_iff]
  constructor
  · intro admitted text first
    cases read : Requirement.parse text with
    | error fault => exact absurd (.invalid text fault first read) admitted
    | ok requirement =>
      cases met : requirement.accepts version with
      | true => exact ⟨requirement, read, met⟩
      | false => exact absurd (.unsatisfied text requirement first read met) admitted
  · rintro met (⟨text, fault, first, unread⟩ | ⟨text, requirement, first, read, unmet⟩)
    · obtain ⟨requirement, read, -⟩ := met text first
      rw [unread] at read
      cases read
    · obtain ⟨other, reread, accepted⟩ := met text first
      rw [read] at reread
      rw [← Except.ok.inj reread, unmet] at accepted
      cases accepted

/-- A source with a version pragma passes exactly when the version satisfies its requirement. -/
theorem check_singleton_eq_ok_iff {version : Version} {name source : String} {text : List Char}
    (first : ofSource? source = some text) :
    check version (.singleton name source) = .ok () ↔ Meets version text := by
  rw [check_singleton, checkSource_eq_ok_iff_meets, first]
  simp

end ProxyForge.Pragma
