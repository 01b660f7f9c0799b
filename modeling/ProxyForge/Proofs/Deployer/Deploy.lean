import ProxyForge.Deployer
import ProxyForge.Proofs.Compiler.Session

/-!
# Deploying in two halves

Who gives the request of `prepare` to the toolchain and its answer to `complete` gets what `deploy` gives, and uses the
toolchain in the same way: with the same request, and leaving the same state. The two ways log different texts.
-/

namespace ProxyForge.Deployer

open Compiler

variable {σ : Type}

/-- Deploys in two halves, with the toolchain called in between. -/
def deployInHalves (d : Deployer σ) (files : Files) (deployment : Deployment) (s : Session σ) :
    Except Failure Payload × Session σ :=
  match (d.prepare files deployment).runIn s with
  | (.error failure, s) => (.error failure, s)
  | (.ok request, s) =>
    let reply := d.compiler.toolchain.compile request s.state
    let s := { state := reply.state, events := s.events ++ [.submitted request] ++ reply.log.map .logged }
    match reply.result with
    | .error causes => (.error (.compilation "Proxy.sol:IdentityProxy" (causes.outermost :: causes.inner)), s)
    | .ok response => (complete response).runIn s

/-- The two halves are steps with the submission of the request as the step between them. -/
theorem deployInHalves_eq (d : Deployer σ) (files : Files) (deployment : Deployment) (s : Session σ) :
    d.deployInHalves files deployment s = (d.prepare files deployment >>= fun request =>
      d.compiler.submit request Proxy.sourceName Proxy.contractName >>= complete).runIn s := by
  have path : contractPath Proxy.sourceName Proxy.contractName = "Proxy.sol:IdentityProxy" := by decide
  rw [deployInHalves, Action.runIn_bind]
  cases (d.prepare files deployment).runIn s with
  | mk prepared s' =>
    cases prepared with
    | error failure => rfl
    | ok request =>
      simp only [Setup.submit, Action.runIn_bind, Action.runIn_call, path]
      cases (d.compiler.toolchain.compile request s'.state).result with
      | error causes => rfl
      | ok response => rfl

theorem alike_sources (d : Deployer σ) (files : Files) (deployment : Deployment) :
    Action.Alike (d.sources files deployment) (Action.ofExcept (d.readLibrary files) >>= fun library =>
      pure (d.sourceUnits deployment library)) := by
  apply Action.Alike.bind (Action.alike_ofExcept _)
  intro library
  apply Action.Alike.log_bind
  apply Action.Alike.log_bind
  apply Action.Alike.log_bind
  exact Action.alike_pure _

/-- Deploying and submitting the request between the halves are alike: step by step the same is checked, submitted,
extracted and built. -/
theorem alike_deploy (d : Deployer σ) (files : Files) (deployment : Deployment) :
    Action.Alike (d.deploy files deployment) (d.prepare files deployment >>= fun request =>
      d.compiler.submit request Proxy.sourceName Proxy.contractName >>= complete) := by
  have sources := (d.alike_sources files deployment).trans (d.alike_sources files deployment).symm
  have built : ∀ response : Response, Action.Alike
      (extract response Proxy.sourceName Proxy.contractName >>= fun artifact =>
        Action.ofExcept (Payload.ofArtifact artifact) >>= fun payload =>
          Action.log .debug s!"Built the deployment payload of {artifact.bytecode.length} bytes" >>= fun _ =>
            pure payload)
      (complete response : Action σ Payload) := by
    intro response
    have artifact := alike_extract (σ := σ) response Proxy.sourceName Proxy.contractName
    apply Action.Alike.bind (artifact.trans artifact.symm)
    intro artifact
    have payload := (Action.alike_ofExcept (σ := σ) (Payload.ofArtifact artifact)).bind fun payload =>
      (Action.alike_pure payload).log_bind .debug s!"Built the deployment payload of {artifact.bytecode.length} bytes"
    rwa [bind_pure] at payload
  rw [deploy, prepare, bind_assoc]
  -- Both read the library and write the proxy, check the expected version, submit, and then build the payload.
  apply sources.bind
  intro units
  apply Action.Alike.log_bind
  simp only [Setup.compile, bind_assoc, pure_bind]
  apply Action.Alike.bind (Action.alike_ofExcept _)
  intro checked
  exact (d.compiler.alike_submit _ _ _).bind built

/-- Deploying at once and in two halves give the same result and use the toolchain in the same way. -/
theorem deploy_agrees (d : Deployer σ) (files : Files) (deployment : Deployment) (s : Session σ) :
    ((d.deploy files deployment).runIn s).1 = (d.deployInHalves files deployment s).1 ∧
      ((d.deploy files deployment).runIn s).2.Agree (d.deployInHalves files deployment s).2 := by
  rw [deployInHalves_eq]
  exact d.alike_deploy files deployment s s (.refl s)

end ProxyForge.Deployer
