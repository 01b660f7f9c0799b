import Mathlib.Data.List.Forall2
import ProxyForge.Compiler.Session
import ProxyForge.Proofs.Compiler.Artifact

/-!
# What becomes of diagnostics

Every diagnostic of a response is either an error or a warning, and the two in their order make up the whole list
(`BySeverity`). Extracting an artifact logs one record for each warning before anything else, and if there is an error
it fails with the texts of all errors (`runIn_extract`, `artifact_of_errors`). Warnings are logged and nothing more:
what is extracted is decided by the contracts and the errors alone (`artifact_congr`). The text of a diagnostic is the
one that the compiler formatted without the blanks at its end, or its severity and message (`renders_iff`).
-/

namespace ProxyForge.Compiler

/-- A list of diagnostics as its errors and its warnings, each in the order of the list. -/
inductive BySeverity : List Diagnostic → List Diagnostic → List Diagnostic → Prop where
  | nil : BySeverity [] [] []
  | error {d : Diagnostic} {ds errors warnings : List Diagnostic} (severe : d.severity = "error")
      (rest : BySeverity ds errors warnings) : BySeverity (d :: ds) (d :: errors) warnings
  | warning {d : Diagnostic} {ds errors warnings : List Diagnostic} (mild : d.severity ≠ "error")
      (rest : BySeverity ds errors warnings) : BySeverity (d :: ds) errors (d :: warnings)

/-- The errors and the warnings of a list are its members on either side of the test for errors. -/
theorem bySeverity_iff {ds errors warnings : List Diagnostic} :
    BySeverity ds errors warnings ↔
      ds.filter Diagnostic.isError = errors ∧ (ds.filter fun d => !d.isError) = warnings := by
  constructor
  · intro h
    induction h with
    | nil => exact ⟨rfl, rfl⟩
    | @error d ds errors warnings severe _ ih =>
      have isError : d.isError = true := beq_iff_eq.2 severe
      simp [isError, ih.1, ih.2]
    | @warning d ds errors warnings mild _ ih =>
      have isWarning : d.isError = false := beq_eq_false_iff_ne.2 mild
      simp [isWarning, ih.1, ih.2]
  · rintro ⟨rfl, rfl⟩
    induction ds with
    | nil => exact .nil
    | cons d ds ih =>
      by_cases severe : d.severity = "error"
      · have isError : d.isError = true := beq_iff_eq.2 severe
        simpa [isError] using BySeverity.error severe ih
      · have isWarning : d.isError = false := beq_eq_false_iff_ne.2 severe
        simpa [isWarning] using BySeverity.warning severe ih

/-! ## Texts -/

/-- A text that a diagnostic is shown as. -/
inductive Renders (d : Diagnostic) (text : String) : Prop where
  | formatted {formatted : String} {blanks : List Char} (given : d.formatted = some formatted)
      (whole : formatted.toList = text.toList ++ blanks) (blank : ∀ c ∈ blanks, Text.isBlank c = true)
      (trimmed : ∀ c, text.toList.getLast? = some c → Text.isBlank c = false)
  | composed (absent : d.formatted = none) (parts : text = d.severity ++ ": " ++ d.message)

theorem renders_iff {d : Diagnostic} {text : String} : Renders d text ↔ d.text = text := by
  constructor
  · rintro (⟨given, whole, blank, trimmed⟩ | ⟨absent, rfl⟩)
    · have kept := Text.dropEndWhile_eq_iff.2 ⟨_, whole, blank, trimmed⟩
      rw [Diagnostic.text, given]
      simp only [Text.trimEnd, kept, String.ofList_toList]
    · rw [Diagnostic.text, absent]
  · rintro rfl
    cases found : d.formatted with
    | none => exact .composed found (by rw [Diagnostic.text, found])
    | some formatted =>
      have text : d.text.toList = Text.trimEnd formatted.toList := by
        rw [Diagnostic.text, found]
        exact String.toList_ofList
      obtain ⟨blanks, whole, blank, trimmed⟩ := Text.dropEndWhile_eq_iff.1 text.symm
      exact .formatted found whole blank trimmed

theorem forall₂_renders_iff {ds : List Diagnostic} {texts : List String} :
    List.Forall₂ Renders ds texts ↔ ds.map Diagnostic.text = texts := by
  have pointwise : Renders = fun d text => d.text = text := by
    funext d text
    exact propext renders_iff
  rw [pointwise, ← List.forall₂_map_left_iff (f := Diagnostic.text) (R := (· = ·)), List.forall₂_eq_eq_eq]

namespace Response

variable {r : Response} {errors warnings : List Diagnostic}

theorem errorMessages_eq (h : BySeverity (r.diagnostics.getD []) errors warnings) :
    r.errorMessages = errors.map Diagnostic.text := by
  rw [errorMessages, allDiagnostics, (bySeverity_iff.1 h).1]

theorem warnings_eq (h : BySeverity (r.diagnostics.getD []) errors warnings) : r.warnings = warnings := by
  rw [Response.warnings, allDiagnostics, (bySeverity_iff.1 h).2]

/-- Whatever contracts there are, errors fail the extraction with their texts. -/
theorem artifact_of_errors (severe : r.errorMessages ≠ []) (file name : String) :
    r.artifact file name = .error (.compilation (contractPath file name) r.errorMessages) := by
  have reported : r.bytes file name = .error (.reported r.errorMessages) := by
    simp [bytes, severe]
  rw [artifact, reported]
  rfl

/-- What is extracted depends on the contracts and the texts of the errors only. -/
theorem artifact_congr {t : Response} (contracts : t.contracts = r.contracts)
    (messages : t.errorMessages = r.errorMessages) (file name : String) :
    t.artifact file name = r.artifact file name := by
  simp only [artifact, bytes, messages, contract?, contractPaths, contracts]

end Response

/-- The record of a warning about a contract. -/
def warningRecord (file name : String) (d : Diagnostic) : LogRecord :=
  { level := .warn, text := s!"`{contractPath file name}` compilation: {d.text}" }

/-- The records of an artifact that has been extracted. -/
def extractionRecords : Except Failure Artifact → List LogRecord
  | .error _ => []
  | .ok a => [{ level := .debug, text := s!"`{a.contract}` compiled: {a.bytecode.length} bytes of deploy bytecode" }]

variable {σ : Type}

/-- Extracting an artifact gives what the response has; it logs the warnings and then what it has extracted. -/
theorem runIn_extract (r : Response) (file name : String) (s : Session σ) :
    (extract r file name).runIn s = (r.artifact file name,
      { state := s.state
        events := s.events ++ r.warnings.map (fun d => .logged (warningRecord file name d)) ++
          (extractionRecords (r.artifact file name)).map .logged }) := by
  have path : ∀ a, r.artifact file name = .ok a → a.contract = contractPath file name := by
    intro a found
    rw [Response.artifact] at found
    split at found
    · cases found
    · cases found
      rfl
  simp only [extract, Action.runIn_bind, Action.runIn_enter, Action.runIn_ofExcept]
  cases found : r.artifact file name with
  | error failure => simp [extractionRecords, warningRecord]
  | ok a => simp [extractionRecords, warningRecord, path a found]

/-- Every diagnostic is accounted for once: a warning by the record of its text, in the order of the list and before any
other record, an error by its text in the failure, which there is if there is any error. Warnings do not change the
result. -/
theorem extract_accounts (r : Response) (file name : String) (s : Session σ) :
    ∃ errors warnings, BySeverity (r.diagnostics.getD []) errors warnings ∧
      (∃ (texts : List String) (further : List LogRecord), List.Forall₂ Renders warnings texts ∧
        (∀ record ∈ further, record.level = .debug) ∧
        ((extract r file name).runIn s).2 =
          { state := s.state
            events := s.events ++
              texts.map (fun text => .logged ⟨.warn, "`" ++ file ++ ":" ++ name ++ "` compilation: " ++ text⟩) ++
              further.map .logged }) ∧
      (errors ≠ [] → ∃ texts, List.Forall₂ Renders errors texts ∧
        ((extract r file name).runIn s).1 = .error (.compilation (file ++ ":" ++ name) texts)) ∧
      ∀ (t : Response) (others : List Diagnostic) (s' : Session σ), t.contracts = r.contracts →
        BySeverity (t.diagnostics.getD []) errors others →
          ((extract t file name).runIn s').1 = ((extract r file name).runIn s).1 := by
  obtain ⟨errors, warnings, parts⟩ : ∃ errors warnings, BySeverity (r.diagnostics.getD []) errors warnings :=
    ⟨_, _, bySeverity_iff.2 ⟨rfl, rfl⟩⟩
  have messages := Response.errorMessages_eq parts
  refine ⟨errors, warnings, parts, ⟨warnings.map Diagnostic.text, extractionRecords (r.artifact file name),
    forall₂_renders_iff.2 rfl, ?_, ?_⟩, fun severe => ⟨r.errorMessages, forall₂_renders_iff.2 messages.symm, ?_⟩, ?_⟩
  · intro record hr
    cases found : r.artifact file name with
    | error failure => simp [found, extractionRecords] at hr
    | ok a =>
      simp only [found, extractionRecords, List.mem_singleton] at hr
      rw [hr]
  · rw [runIn_extract, Response.warnings_eq parts, List.map_map]
    rfl
  · rw [runIn_extract]
    apply Response.artifact_of_errors
    rw [messages]
    simpa using severe
  · intro t others s' contracts same
    rw [runIn_extract, runIn_extract]
    exact Response.artifact_congr contracts ((Response.errorMessages_eq same).trans messages.symm) file name

end ProxyForge.Compiler
