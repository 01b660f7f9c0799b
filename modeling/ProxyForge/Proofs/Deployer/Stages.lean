import ProxyForge.Proofs.Deployer.Complete
import ProxyForge.Proofs.Deployer.Deploy
import ProxyForge.Proofs.Deployer.ExpectedVersion

/-!
# The stages of a deployment

A deployment reads the library, compares the expected version with the pragmas of both sources, submits one request and
makes the payload of its answer, in this order. The first stage that fails decides the result, and the toolchain is
not called before the two in front of it have passed (`deploy_stages`), whatever it would have done. Up to what is
logged a deployment is these four steps (`alike_deploy_steps`), so what it gives and leaves is read off them.
-/

namespace ProxyForge.Deployer

open Compiler

variable {σ : Type}

/-- The payload of an answer. -/
def payloadOf (response : Response) : Except Failure Payload :=
  response.artifact Proxy.sourceName Proxy.contractName >>= Payload.ofArtifact

/-- What comes of comparing the expected version with the pragmas of both sources. -/
def versionCheck (d : Deployer σ) (deployment : Deployment) (library : String) : Except Failure Unit :=
  d.compiler.checkExpected (d.sourceUnits deployment library) Proxy.sourceName Proxy.contractName

/-- A deployment without its log. -/
def deploySteps (d : Deployer σ) (files : Files) (deployment : Deployment) : Action σ Payload := do
  let library ← Action.ofExcept (d.readLibrary files)
  Action.ofExcept (d.versionCheck deployment library)
  let response ← d.compiler.submit (.ofSources (d.sourceUnits deployment library)) Proxy.sourceName Proxy.contractName
  Action.ofExcept (payloadOf response)

/-! ## The steps -/

theorem alike_complete (response : Response) :
    Action.Alike (complete response : Action σ Payload) (Action.ofExcept (payloadOf response)) := by
  have built := (alike_extract (σ := σ) response Proxy.sourceName Proxy.contractName).bind fun artifact =>
    Action.alike_ofExcept (Payload.ofArtifact artifact)
  have joined : (Action.ofExcept (response.artifact Proxy.sourceName Proxy.contractName) >>= fun artifact =>
      Action.ofExcept (Payload.ofArtifact artifact) : Action σ Payload) = Action.ofExcept (payloadOf response) := by
    rw [payloadOf]
    cases response.artifact Proxy.sourceName Proxy.contractName <;> rfl
  rwa [joined] at built

theorem alike_deploy_steps (d : Deployer σ) (files : Files) (deployment : Deployment) :
    Action.Alike (d.deploy files deployment) (d.deploySteps files deployment) := by
  have halves : Action.Alike (d.prepare files deployment >>= fun request =>
      d.compiler.submit request Proxy.sourceName Proxy.contractName >>= complete) (d.deploySteps files deployment) := by
    rw [prepare, deploySteps, bind_assoc]
    have sources := d.alike_sources files deployment
    have read := sources.bind fun units => Action.Alike.bind
      (Action.alike_ofExcept (d.compiler.checkExpected units Proxy.sourceName Proxy.contractName)) fun _ =>
        (d.compiler.alike_submit (.ofSources units) Proxy.sourceName Proxy.contractName).bind alike_complete
    simpa only [bind_assoc, pure_bind, versionCheck] using read
  exact (d.alike_deploy files deployment).trans halves

theorem runIn_deploySteps_of_error {d : Deployer σ} {files : Files} {failure : Failure}
    (unread : d.readLibrary files = .error failure) (deployment : Deployment) (s : Session σ) :
    (d.deploySteps files deployment).runIn s = (.error failure, s) := by
  rw [deploySteps, Action.runIn_bind, Action.runIn_ofExcept, unread]

theorem runIn_deploySteps_of_refused {d : Deployer σ} {files : Files} {library : String} {deployment : Deployment}
    {failure : Failure} (read : d.readLibrary files = .ok library)
    (refused : d.versionCheck deployment library = .error failure) (s : Session σ) :
    (d.deploySteps files deployment).runIn s = (.error failure, s) := by
  rw [deploySteps, Action.runIn_bind, Action.runIn_ofExcept, read]
  simp only [Action.runIn_bind, Action.runIn_ofExcept, refused]

/-- The result that is made of the toolchain's answer. -/
def resultOf : Except Causes Response → Except Failure Payload
  | .error causes => .error (.compilation (contractPath Proxy.sourceName Proxy.contractName) causes.all)
  | .ok response => payloadOf response

/-- Behind the version check the request is submitted, and the result is made of the answer. -/
theorem runIn_deploySteps_of_passed {d : Deployer σ} {files : Files} {library : String} {deployment : Deployment}
    (read : d.readLibrary files = .ok library) (passed : d.versionCheck deployment library = .ok ()) (s : Session σ) :
    let request := Request.ofSources (d.sourceUnits deployment library)
    let reply := d.compiler.toolchain.compile request s.state
    (d.deploySteps files deployment).runIn s = (resultOf reply.result,
      { state := reply.state, events := s.events ++ [.submitted request] ++ reply.log.map .logged }) := by
  intro request reply
  simp only [deploySteps, Action.runIn_bind, Action.runIn_ofExcept, read, passed, Setup.submit, Action.runIn_call]
  cases (d.compiler.toolchain.compile request s.state).result with
  | error causes => rfl
  | ok response => rfl

/-! ## What each stage decides -/

theorem contractPath_proxy : contractPath Proxy.sourceName Proxy.contractName = "Proxy.sol:IdentityProxy" := by
  decide

/-- The version check passes exactly when neither source refuses the expected version. -/
theorem versionCheck_eq_ok_iff {d : Deployer σ} {deployment : Deployment} {library : String} :
    d.versionCheck deployment library = .ok () ↔ ∀ version, d.compiler.expected = some version →
      ¬ (Pragma.Refuses version (Proxy.source deployment (d.privilegeWrites deployment)) ∨
        Pragma.Refuses version library) := by
  rw [versionCheck, Setup.checkExpected, sourceUnits]
  generalize d.privilegeWrites deployment = writes
  cases d.compiler.expected with
  | none => simp
  | some version =>
    have passes := @Pragma.check_eq_ok_iff version (Proxy.units deployment writes library)
    rw [Proxy.entries_units] at passes
    simp only [List.mem_cons, List.not_mem_nil, or_false, forall_eq_or_imp, forall_eq] at passes
    simp only [Option.some.injEq, forall_eq', not_or, ← passes]
    cases Pragma.check version (Proxy.units deployment writes library) with
    | error fault => simp
    | ok passed => simp

theorem versionCheck_failure {d : Deployer σ} {deployment : Deployment} {library : String} {failure : Failure}
    (refused : d.versionCheck deployment library = .error failure) :
    ∃ messages, failure = .compilation "Proxy.sol:IdentityProxy" messages := by
  rw [versionCheck, Setup.checkExpected, contractPath_proxy] at refused
  split at refused
  · cases refused
  · split at refused
    · cases refused
    · rename_i fault _
      cases refused
      exact ⟨[fault.message], rfl⟩

/-- An answer without a payload is a failed compilation or empty bytecode. -/
theorem payloadOf_failure {response : Response} {failure : Failure} (none : payloadOf response = .error failure) :
    (∃ messages, failure = .compilation "Proxy.sol:IdentityProxy" messages) ∨
      failure = .emptyBytecode "Proxy.sol:IdentityProxy" := by
  have result := complete_eq (σ := Unit) response { state := (), events := [] }
  rw [(alike_complete response _ _ (.refl _)).1, Action.runIn_ofExcept, none] at result
  split at result
  · rename_i fault _
    cases result
    exact .inl ⟨fault.messages, rfl⟩
  · split at result
    · cases result
      exact .inr rfl
    · cases result

theorem resultOf_failure {answer : Except Causes Response} {failure : Failure}
    (none : resultOf answer = .error failure) :
    (∃ messages, failure = .compilation "Proxy.sol:IdentityProxy" messages) ∨
      failure = .emptyBytecode "Proxy.sol:IdentityProxy" := by
  cases answer with
  | error causes =>
    rw [resultOf, contractPath_proxy] at none
    cases none
    exact .inl ⟨causes.all, rfl⟩
  | ok response => exact payloadOf_failure none

/-! ## The order of the stages -/

/-- The ways in which a deployment may end, by the first stage that fails. -/
inductive Ends (d : Deployer σ) (files : Files) (deployment : Deployment) (s : Session σ) :
    Except Failure Payload → Session σ → Prop where
  | unread {fault : FileFault} {after : Session σ} (unread : files.readText d.libraryPath = .error fault)
      (untouched : after.Agree s) : Ends d files deployment s (.error (.library d.libraryPath fault)) after
  | refused {library : String} {failure : Failure} {after : Session σ}
      (read : files.readText d.libraryPath = .ok library) (refused : d.versionCheck deployment library = .error failure)
      (untouched : after.Agree s) : Ends d files deployment s (.error failure) after
  | submitted {library : String} {request : Request} {after : Session σ}
      (read : files.readText d.libraryPath = .ok library) (passed : d.versionCheck deployment library = .ok ())
      (whole : request = .ofSources (d.sourceUnits deployment library))
      (used : after.Agree
        { state := (d.compiler.toolchain.compile request s.state).state, events := s.events ++ [.submitted request] }) :
      Ends d files deployment s (resultOf (d.compiler.toolchain.compile request s.state).result) after

theorem ends_deploy (d : Deployer σ) (files : Files) (deployment : Deployment) (s : Session σ) :
    d.Ends files deployment s ((d.deploy files deployment).runIn s).1 ((d.deploy files deployment).runIn s).2 := by
  obtain ⟨result, use⟩ := d.alike_deploy_steps files deployment s s (.refl s)
  rw [result]
  cases text : files.readText d.libraryPath with
  | error fault =>
    have unread : d.readLibrary files = .error (.library d.libraryPath fault) := by rw [readLibrary, text]
    rw [runIn_deploySteps_of_error unread] at use ⊢
    exact .unread text use
  | ok library =>
    have read : d.readLibrary files = .ok library := by rw [readLibrary, text]
    cases check : d.versionCheck deployment library with
    | error failure =>
      rw [runIn_deploySteps_of_refused read check] at use ⊢
      exact .refused text check use
    | ok passed =>
      rw [runIn_deploySteps_of_passed read check] at use ⊢
      have logged : ∀ records : List LogRecord, toolchainEvents (records.map .logged) = [] :=
        toolchainEvents_map_logged id
      refine .submitted text check rfl ⟨use.state, ?_⟩
      rw [use.events, toolchainEvents_append, logged, List.append_nil]

/-- A deployment ends with the library's fault if the library cannot be read, and otherwise as a failed compilation if
one of the two sources refuses the expected version; in both cases the toolchain is left alone. Otherwise one request is
submitted, once: its sources are the written proxy and the library as it was read, and nothing else, and it asks for
optimised code. The toolchain is never asked for its version, and no deployment ends with a fault of an encoding or of
the settings. -/
theorem deploy_stages (d : Deployer σ) (files : Files) (deployment : Deployment) (s : Session σ) :
    let proxy := Proxy.source deployment (d.privilegeWrites deployment)
    let result := ((d.deploy files deployment).runIn s).1
    let after := ((d.deploy files deployment).runIn s).2
    (∀ fault, files.readText d.libraryPath = .error fault →
      result = .error (.library d.libraryPath fault) ∧ after.Agree s) ∧
    (∀ library version, files.readText d.libraryPath = .ok library → d.compiler.expected = some version →
      Pragma.Refuses version proxy ∨ Pragma.Refuses version library →
      (∃ messages, result = .error (.compilation "Proxy.sol:IdentityProxy" messages)) ∧ after.Agree s) ∧
    (∀ library, files.readText d.libraryPath = .ok library →
      (∀ version, d.compiler.expected = some version →
        ¬ (Pragma.Refuses version proxy ∨ Pragma.Refuses version library)) →
      ∃ request : Request, request.sources.entries = [("Proxy.sol", proxy), ("SafeERC20.sol", library)] ∧
        request.optimizer = { enabled := true, runs := 200 } ∧
        after.Agree
          { state := (d.compiler.toolchain.compile request s.state).state
            events := s.events ++ [.submitted request] }) ∧
    (∃ calls, toolchainEvents after.events = toolchainEvents s.events ++ calls ∧ .askedVersion ∉ calls) ∧
    ∀ failure, result = .error failure →
      (∀ fault, failure ≠ .encoding fault) ∧ ∀ path fault, failure ≠ .settings path fault := by
  intro proxy result after
  have ends : d.Ends files deployment s result after := d.ends_deploy files deployment s
  clear_value result after
  cases ends with
  | unread unread untouched =>
    simp only [unread, Except.error.injEq, reduceCtorEq, false_implies, implies_true, true_and]
    refine ⟨fun fault same => ⟨by rw [same], untouched⟩, ⟨[], ?_, by simp⟩, ?_⟩
    · rw [untouched.events, List.append_nil]
    · rintro _ rfl
      exact ⟨nofun, nofun⟩
  | @refused library failure _ read refused untouched =>
    obtain ⟨messages, rfl⟩ := versionCheck_failure refused
    refine ⟨fun fault unread => ?_, fun _ _ _ _ _ => ⟨⟨messages, rfl⟩, untouched⟩, fun found same admitted => ?_,
      ⟨[], ?_, by simp⟩, ?_⟩
    · rw [read] at unread
      cases unread
    · rw [read] at same
      cases same
      rw [versionCheck_eq_ok_iff.2 admitted] at refused
      cases refused
    · rw [untouched.events, List.append_nil]
    · rintro _ ⟨⟩
      exact ⟨nofun, nofun⟩
  | @submitted library request _ read passed whole used =>
    have admitted := versionCheck_eq_ok_iff.1 passed
    refine ⟨fun fault unread => ?_, fun found version same expected refuses => ?_, fun found same _ => ?_,
      ⟨[.submitted request], ?_, by simp⟩, fun failure failed => ?_⟩
    · rw [read] at unread
      cases unread
    · rw [read] at same
      cases same
      exact absurd refuses (admitted version expected)
    · rw [read] at same
      cases same
      have sources : request.sources.entries = [("Proxy.sol", proxy), ("SafeERC20.sol", library)] := by
        rw [whole]
        exact Proxy.entries_units deployment (d.privilegeWrites deployment) library
      exact ⟨request, sources, by rw [whole]; rfl, used⟩
    · rw [used.events, toolchainEvents_append]
      rfl
    · rcases resultOf_failure failed with ⟨messages, rfl⟩ | rfl
      · exact ⟨nofun, nofun⟩
      · exact ⟨nofun, nofun⟩

/-! ## All stages on one machine -/

/-- A machine with a single file, which holds a text. -/
def fileHolding (path text : String) : Files where
  contents asked :=
    if asked = path then .ok { bytes := Text.utf8 text.toList, brokenBy := none }
    else .error
      { sentence := "No such file or directory (os error 2)"
        detail := "Os \x7b code: 2, kind: NotFound, message: \"No such file or directory\" \x7d" }

/-- A deployer with an absolute path for its library and a version that it expects; its toolchain is broken. -/
def expecting (version : Version) : Deployer AnswerCount where
  libraryPath := "/lib/SafeERC20.sol"
  hash _ := 0
  compiler := { toolchain := .rehearsed [] (.error (.only "broken")), expected := some version }

/-- A deployment without privileges. -/
def plainDeployment : Deployment :=
  { logic := 1, token := 2, relayer := 3, fee := 4, registry := 5, privileges := [] }

/-- A library for a wider range of compilers than the proxy is. -/
def plainLibrary : String := "pragma solidity ^0.5.0;"

/-- Runs this deployer for this deployment with some files. -/
def runExpecting (version : Version) (files : Files) : Except Failure Payload × Session AnswerCount :=
  ((expecting version).deploy files plainDeployment).runIn { state := 0, events := [] }

/-- Without its library nothing is compiled, whatever else is wrong. With it the release 0.6.0 is refused by the proxy,
and for the release 0.5.17 the toolchain is called once, with the proxy and the library. -/
theorem deploy_stages_on_machine :
    ((∃ fault, (runExpecting ⟨0, 6, 0, [], []⟩ (fileHolding "SafeERC20.sol" plainLibrary)).1 =
        .error (.library "/lib/SafeERC20.sol" fault)) ∧
      (runExpecting ⟨0, 6, 0, [], []⟩ (fileHolding "SafeERC20.sol" plainLibrary)).2.Agree ⟨0, []⟩) ∧
    ((∃ messages, (runExpecting ⟨0, 6, 0, [], []⟩ (fileHolding "/lib/SafeERC20.sol" plainLibrary)).1 =
        .error (.compilation "Proxy.sol:IdentityProxy" messages)) ∧
      (runExpecting ⟨0, 6, 0, [], []⟩ (fileHolding "/lib/SafeERC20.sol" plainLibrary)).2.Agree ⟨0, []⟩) ∧
    ∃ request : Request,
      request.sources.entries = [("Proxy.sol", Proxy.source plainDeployment []), ("SafeERC20.sol", plainLibrary)] ∧
      (runExpecting ⟨0, 5, 17, [], []⟩ (fileHolding "/lib/SafeERC20.sol" plainLibrary)).2.Agree
        ⟨1, [.submitted request]⟩ := by
  have missing : ∃ fault, (fileHolding "SafeERC20.sol" plainLibrary).readText "/lib/SafeERC20.sol" = .error fault :=
    ⟨_, rfl⟩
  have read : (fileHolding "/lib/SafeERC20.sol" plainLibrary).readText "/lib/SafeERC20.sol" = .ok plainLibrary := by
    decide +kernel
  have later : Pragma.Refuses ⟨0, 6, 0, [], []⟩ (Proxy.source plainDeployment []) :=
    Proxy.refuses_source_iff.2 (by decide)
  have passes : ¬ Pragma.Refuses ⟨0, 5, 17, [], []⟩ (Proxy.source plainDeployment []) := by
    rw [Proxy.refuses_source_iff]
    decide
  have admits : ¬ Pragma.Refuses ⟨0, 5, 17, [], []⟩ plainLibrary :=
    (@Pragma.checkSource_eq_ok_iff _ "SafeERC20.sol" _).1 (by decide +kernel)
  refine ⟨?_, ?_, ?_⟩
  · obtain ⟨fault, unread⟩ := missing
    obtain ⟨told, untouched⟩ := (deploy_stages (expecting ⟨0, 6, 0, [], []⟩) _ plainDeployment ⟨0, []⟩).1 fault unread
    exact ⟨⟨fault, told⟩, untouched⟩
  · exact (deploy_stages (expecting ⟨0, 6, 0, [], []⟩) _ plainDeployment ⟨0, []⟩).2.1 _ _ read rfl (.inl later)
  · obtain ⟨request, sources, -, used⟩ := (deploy_stages (expecting ⟨0, 5, 17, [], []⟩) _ plainDeployment ⟨0, []⟩).2.2.1
      _ read (by rintro _ ⟨⟩; exact not_or.2 ⟨passes, admits⟩)
    exact ⟨request, sources, used⟩

end ProxyForge.Deployer
