import ProxyForge.Compiler.Session

/-!
# The causes of a toolchain that fails

A toolchain says why it failed by a chain of causes. When it fails to compile the whole chain is reported; when it
fails to tell its version only the outermost cause is, so that what lies behind it is lost (`reported_causes`).
-/

namespace ProxyForge.Compiler

namespace Setup

variable {σ : Type} {c : Setup σ} {sources : NameMap String} {s : Session σ} {causes : Causes}

/-- The failure of a submitted request, with the whole chain. -/
theorem compile_of_failure {file name : String} (passed : c.checkExpected sources file name = .ok ())
    (failed : (c.toolchain.compile (.ofSources sources) s.state).result = .error causes) :
    ((c.compile sources file name).runIn s).1 = .error (.compilation (contractPath file name) causes.all) := by
  simp only [compile, submit, Action.runIn_bind, Action.runIn_ofExcept, passed, Action.runIn_call, failed,
    Action.runIn_throw]

/-- The failure of a question for the version, with the outermost cause. -/
theorem checkReported_of_failure (failed : (c.toolchain.version s.state).result = .error causes) :
    ((c.checkReported sources).runIn s).1 = .error (.compilation "*" [causes.outermost]) := by
  simp only [checkReported, Action.runIn_bind, Action.runIn_call, failed, Action.runIn_throw]

/-- A failed compilation reports all causes. A failed question for the version reports the outermost one whatever
lies behind it, which is the whole chain only when nothing does. -/
theorem reported_causes (c : Setup σ) (sources : NameMap String) (s : Session σ) (causes : Causes) :
    (∀ file name, c.checkExpected sources file name = .ok () →
      (c.toolchain.compile (.ofSources sources) s.state).result = .error causes →
        ((c.compile sources file name).runIn s).1 =
          .error (.compilation (contractPath file name) (causes.outermost :: causes.inner))) ∧
    ((c.toolchain.version s.state).result = .error causes →
      ((c.checkReported sources).runIn s).1 = .error (.compilation "*" [causes.outermost]) ∧
        (((c.checkReported sources).runIn s).1 = .error (.compilation "*" (causes.outermost :: causes.inner)) ↔
          causes.inner = [])) := by
  refine ⟨fun file name passed failed => compile_of_failure passed failed, fun failed => ?_⟩
  rw [checkReported_of_failure failed]
  simp [eq_comm]

/-- A chain of two causes, of which the version check reports one. -/
theorem checkReported_omits_inner :
    ¬ ∀ (c : Setup AnswerCount) (sources : NameMap String) (s : Session AnswerCount) (causes : Causes),
      (c.toolchain.version s.state).result = .error causes →
        ((c.checkReported sources).runIn s).1 = .error (.compilation "*" (causes.outermost :: causes.inner)) := by
  intro all
  let causes : Causes := { outermost := "outer", inner := ["root"] }
  let broken : Setup AnswerCount := { toolchain := .rehearsed [] (.error causes), expected := none }
  let start : Session AnswerCount := { state := 0, events := [] }
  have whole := all broken (.ofList []) start causes rfl
  have told : ((broken.checkReported (.ofList [])).runIn start).1 = .error (.compilation "*" [causes.outermost]) :=
    checkReported_of_failure rfl
  rw [told] at whole
  simp [causes] at whole

end Setup

end ProxyForge.Compiler
