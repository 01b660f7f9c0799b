import ProxyForge.Literal

/-!
# Where the contract keeps its state

State variables take slots in the order of their declarations: the mapping of privileges is declared first
and the pointer to the registry second. The value of a mapping under a key lies at the hash of a 64-byte
preimage, the key and the mapping's own slot, each as one word; any hash of byte strings into words can be
put in.
-/

namespace ProxyForge.Storage

/-- A hash of byte strings into words. -/
abbrev Hash := List UInt8 → Word

/-- The slot of the mapping of privileges. -/
def privilegesSlot : Word := 0

/-- The slot of the pointer to the registry. -/
def registrySlot : Word := 1

/-- The declarations of the state variables, each at the place of its slot. -/
def declarations : List String :=
  ["mapping (address => uint) internal privileges;", "address internal registryAddr;"]

/-- What is hashed to find the value of a mapping under a key: the key's word and the mapping's slot. -/
def preimage (key : Address) (base : Word) : List UInt8 :=
  key.toWord.bytes ++ base.bytes

/-- The slot of the value that the mapping at `base` has under a key. -/
def mappingSlot (hash : Hash) (key : Address) (base : Word) : Word :=
  hash (preimage key base)

/-- The slot of a mapping value, from the bytes of the key and the big-endian bytes of the mapping's slot. Zero
bytes in front of the slot do not count. -/
def mappingSlotOfBytes (hash : Hash) (key base : List UInt8) : Except EncodingFault Word :=
  let significant := base.dropWhile (· == 0)
  if key.length ≠ 20 then .error (.keyLength key.length)
  else if 32 < significant.length then .error (.baseSlotTooLarge base)
  else .ok (mappingSlot hash (Address.ofBytes key) (Word.ofBytes significant))

/-- The slot of a mapping value, from the literal of the mapping's slot. -/
def mappingSlotOfLiteral (hash : Hash) (key : Address) (base : String) : Except EncodingFault Word :=
  (Word.ofLiteral base).map (mappingSlot hash key)

theorem length_preimage (key : Address) (base : Word) : (preimage key base).length = 64 := by
  simp [preimage, Word.length_bytes]

end ProxyForge.Storage
