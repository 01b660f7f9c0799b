import ProxyForge.Literal

/-!
# Deployments

What a proxy is deployed with: the logic contract that all calls go to, the token and amount of the relayer's
fee, the registry, and the privileges that accounts start with. Relayers send these as literals; a
deployment is read privileges first, and the first literal that cannot be read is the one reported.
-/

namespace ProxyForge

/-- The level of privilege that an account starts with. -/
structure Privilege where
  holder : Address
  level : Word
  deriving DecidableEq, Repr

/-- What one proxy is deployed with. Privileges are granted in their order, so of several for one account the
last counts. -/
structure Deployment where
  logic : Address
  token : Address
  relayer : Address
  fee : Word
  registry : Address
  privileges : List Privilege
  deriving DecidableEq, Repr

/-- The fields of a deployment as text. -/
structure DeploymentLiterals where
  logic : String
  token : String
  relayer : String
  fee : String
  registry : String
  privileges : List (String × String)
  deriving DecidableEq, Repr

namespace Privilege

/-- Reads a privilege from the literals of its account and its level, in this order. -/
def ofLiterals (holder level : String) : Except EncodingFault Privilege := do
  let holder ← Address.ofLiteral holder
  let level ← Word.ofLiteral level
  return { holder, level }

/-- The privilege of a level that fits 64 bits. -/
def ofUInt64 (holder : Address) (level : UInt64) : Privilege :=
  { holder, level := BitVec.ofNat 256 level.toNat }

/-- Reads privileges one after the other, up to the first that cannot be read. -/
def listOfLiterals : List (String × String) → Except EncodingFault (List Privilege)
  | [] => .ok []
  | (holder, level) :: rest => do
    let privilege ← ofLiterals holder level
    let privileges ← listOfLiterals rest
    return privilege :: privileges

end Privilege

namespace Deployment

/-- Reads a deployment from its literals: the privileges, then the addresses of logic, token and relayer, the fee
and the address of the registry. -/
def ofLiterals (l : DeploymentLiterals) : Except EncodingFault Deployment := do
  let privileges ← Privilege.listOfLiterals l.privileges
  let logic ← Address.ofLiteral l.logic
  let token ← Address.ofLiteral l.token
  let relayer ← Address.ofLiteral l.relayer
  let fee ← Word.ofLiteral l.fee
  let registry ← Address.ofLiteral l.registry
  return { logic, token, relayer, fee, registry, privileges }

end Deployment

end ProxyForge
