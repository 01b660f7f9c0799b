import ProxyForge.Contract.Source
import ProxyForge.Deployment
import ProxyForge.NameMap

/-!
# The identity proxy

The contract of a deployment: its constructor stores the privileges, then the registry, and then pays the relayer;
its fallback function forwards every call to the logic contract.
-/

namespace ProxyForge.Proxy

open Contract

/-- The name of the contract. -/
def contractName : String := "IdentityProxy"

/-- The name of its source unit. -/
def sourceName : String := "Proxy.sol"

/-- The gas kept back from a forwarded call. -/
def gasReserve : UInt64 := 10000

/-- The slots and levels of a deployment's privileges, in their order. -/
def privilegeWrites (hash : Storage.Hash) (d : Deployment) : List (Word × Word) :=
  d.privileges.map fun p => (Storage.mappingSlot hash p.holder Storage.privilegesSlot, p.level)

/-- What the proxy of a deployment does, with its privileges given as slots and levels. The writes keep their order,
so of several to one slot the last counts, and the registry is stored behind them all. -/
def program (d : Deployment) (writes : List (Word × Word)) : Program where
  name := contractName
  constructor :=
    writes.map (fun w => .store w.1 (.integer w.2)) ++
      [.store Storage.registrySlot (.address d.registry), .transfer d.token d.relayer d.fee]
  fallback := [.forward d.logic gasReserve]

/-- The source text of the proxy of a deployment. -/
def source (d : Deployment) (writes : List (Word × Word)) : String :=
  (program d writes).source

/-- The source units of a proxy and its library. -/
def units (d : Deployment) (writes : List (Word × Word)) (library : String) : NameMap String :=
  .ofList [(sourceName, source d writes), (librarySourceName, library)]

theorem entries_units (d : Deployment) (writes : List (Word × Word)) (library : String) :
    (units d writes library).entries = [("Proxy.sol", source d writes), ("SafeERC20.sol", library)] :=
  NameMap.entries_ofList_pair (by decide) _ _

end ProxyForge.Proxy
