import ProxyForge.Proofs.Compiler.Process
import ProxyForge.Proofs.Deployer.Stages

/-!
# Deployments that run the compiler

With an executable of a host for a toolchain, a deployment gives a payload only of what a run has answered that
succeeded. A run that does not answer ends the deployment as a failed compilation, whatever the process wrote
(`process_outcomes`).
-/

namespace ProxyForge.Deployer

open Compiler

/-- A toolchain that fails ends a deployment whose library can be read as a failed compilation; the causes are told
unless the version check has refused the sources before. -/
theorem deploy_of_failure {σ : Type} {d : Deployer σ} {files : Files} {deployment : Deployment} {s : Session σ}
    {library : String} {causes : Causes} (read : files.readText d.libraryPath = .ok library)
    (failed : (d.compiler.toolchain.compile (.ofSources (d.sourceUnits deployment library)) s.state).result =
      .error causes) :
    ∃ messages, ((d.deploy files deployment).runIn s).1 = .error (.compilation "Proxy.sol:IdentityProxy" messages) ∧
      (d.versionCheck deployment library = .ok () → messages = causes.all) := by
  have ends := d.ends_deploy files deployment s
  generalize ((d.deploy files deployment).runIn s).1 = result at ends ⊢
  cases ends with
  | unread unread =>
    rw [read] at unread
    cases unread
  | @refused found failure _ same refused =>
    obtain rfl := Except.ok.inj (read.symm.trans same)
    obtain ⟨messages, rfl⟩ := versionCheck_failure refused
    refine ⟨messages, rfl, fun passed => ?_⟩
    rw [refused] at passed
    cases passed
  | @submitted found request _ same _ whole =>
    obtain rfl := Except.ok.inj (read.symm.trans same)
    subst whole
    rw [failed, resultOf, contractPath_proxy]
    exact ⟨causes.all, rfl, fun _ => rfl⟩

/-- The process answers exactly if its executable is found and runs to an end, succeeds, and writes the text of a
response. A run that fails is told by its error output alone. A run that succeeds without an answer is told by its
standard output, written anew if it is the text of a value that can be read as a whole. And whatever keeps the process
from answering ends a deployment whose library can be read as a failed compilation. -/
theorem process_outcomes (host : Host) (explain : List UInt8 → String) (executable : String) (request : Request)
    (made : List Invocation) :
    let result := ((Toolchain.process host explain executable).compile request made).result
    (∀ response, result = .ok response ↔ ∃ how, host.RunsTo executable request how ∧ how.status = .exited 0 ∧
      ∃ value : Json, value.WrittenIn how.stdout ∧ Response.ofJson? value = some response) ∧
    (∀ how, host.RunsTo executable request how → how.status ≠ .exited 0 →
      result = .error (.only (executable ++ " error: " ++ Text.decodeLossy how.stderr))) ∧
    (∀ how, host.RunsTo executable request how → how.status = .exited 0 →
      (∀ value : Json, value.WrittenIn how.stdout → Response.ofJson? value = none) →
      ∃ shown, result = .error (.only
          (executable ++ " subprocess output parsing error: " ++ explain how.stdout ++ "\n" ++ shown)) ∧
        (∀ value : Json, value.WrittenIn how.stdout → value.Legible → shown = value.indented) ∧
        ((∀ value : Json, value.WrittenIn how.stdout → ¬value.Legible) → shown = Text.decodeLossy how.stdout)) ∧
    ∀ (settings : Settings) (hash : Storage.Hash) (files : Files) (deployment : Deployment) (library : String)
      (events : List Event) (causes : Causes),
      let d := Deployer.onHost settings hash host explain
      settings.executable = executable → files.readText settings.libraryPath = .ok library →
      request = .ofSources (d.sourceUnits deployment library) → result = .error causes →
      ∃ messages, ((d.deploy files deployment).runIn { state := made, events }).1 =
          .error (.compilation "Proxy.sol:IdentityProxy" messages) ∧
        (d.versionCheck deployment library = .ok () → messages = causes.all) := by
  intro result
  refine ⟨fun response => Toolchain.result_eq_ok_iff,
    fun how runs failed => Toolchain.result_of_failed runs failed made, fun how runs succeeded silent => ?_, ?_⟩
  · have unreadable := Response.ofBytes?_eq_none_iff.2 silent
    exact ⟨shownOutput how.stdout, Toolchain.result_of_unreadable runs succeeded unreadable made,
      fun value => shownOutput_of_legible, shownOutput_of_illegible⟩
  · rintro settings hash files deployment library events causes d rfl read rfl failed
    exact deploy_of_failure read failed

end ProxyForge.Deployer
