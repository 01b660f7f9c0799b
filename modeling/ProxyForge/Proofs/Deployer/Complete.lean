import ProxyForge.Deployer
import ProxyForge.Proofs.Compiler.Artifact

/-!
# What a payload is made of

A payload is the digits of the deploying bytecode in lower case behind `0x`. It is made exactly of the responses that
provide digits of at least one byte; a response that provides no digits at all is reported as empty bytecode, and every
other one as a compilation that failed.
-/

namespace ProxyForge

open Compiler

namespace Payload

/-- A text as `0x` and lower-case digits of at least one byte. -/
def IsData (text : String) : Prop :=
  ∃ digits, text.toList = '0' :: 'x' :: digits ∧ digits ≠ [] ∧ digits.length % 2 = 0 ∧ ∀ c ∈ digits, Hex.IsLowerDigit c

theorem encode_ne_nil {bytes : List UInt8} (h : bytes ≠ []) : Hex.encode bytes ≠ [] := by
  cases bytes with
  | nil => exact absurd rfl h
  | cons b bytes => simp [Hex.encode]

theorem isData_encode {bytes : List UInt8} (h : bytes ≠ []) : IsData ("0x" ++ String.ofList (Hex.encode bytes)) := by
  refine ⟨Hex.encode bytes, by simp, encode_ne_nil h, ?_, fun c hc => Hex.isLowerDigit_of_mem_encode hc⟩
  rw [Hex.length_encode, Nat.mul_mod_right]

end Payload

namespace Deployer

variable {σ : Type}

/-- The payload of a response is that of the bytes found in it. -/
theorem complete_eq (r : Response) (s : Session σ) :
    ((complete r).runIn s).1 = match r.bytes "Proxy.sol" "IdentityProxy" with
      | .error fault => .error (.compilation "Proxy.sol:IdentityProxy" fault.messages)
      | .ok (bytecode, _) =>
        if bytecode.isEmpty then .error (.emptyBytecode "Proxy.sol:IdentityProxy")
        else .ok { data := "0x" ++ String.ofList (Hex.encode bytecode) } := by
  have path : contractPath Proxy.sourceName Proxy.contractName = "Proxy.sol:IdentityProxy" := by decide
  have names : r.bytes Proxy.sourceName Proxy.contractName = r.bytes "Proxy.sol" "IdentityProxy" := rfl
  simp only [complete, extract, Action.runIn_bind, Action.runIn_enter, Action.runIn_ofExcept, Response.artifact, path,
    names]
  cases r.bytes "Proxy.sol" "IdentityProxy" with
  | error fault => rfl
  | ok found => rfl

/-- A payload is made of digits of at least one byte. -/
theorem complete_eq_ok_iff {r : Response} {s : Session σ} {payload : Payload} :
    ((complete r).runIn s).1 = .ok payload ↔
      ∃ digits bytecode, r.Provides "Proxy.sol" "IdentityProxy" digits ∧ Hex.decode digits = .ok bytecode ∧
        bytecode ≠ [] ∧ payload.data = "0x" ++ String.ofList (Hex.encode bytecode) := by
  rw [complete_eq]
  constructor
  · intro h
    split at h
    · cases h
    · rename_i bytecode deployed found
      split at h
      · cases h
      · rename_i nonempty
        cases h
        obtain ⟨digits, provides, read⟩ := Response.exists_bytes_iff.1 ⟨deployed, found⟩
        exact ⟨digits, bytecode, provides, read, by simpa using nonempty, rfl⟩
  · rintro ⟨digits, bytecode, provides, read, nonempty, data⟩
    obtain ⟨deployed, found⟩ := Response.exists_bytes_iff.2 ⟨digits, provides, read⟩
    simp [found, nonempty, ← data]

/-- Empty bytecode is reported of a response that provides no digits. -/
theorem complete_eq_emptyBytecode_iff {r : Response} {s : Session σ} :
    ((complete r).runIn s).1 = .error (.emptyBytecode "Proxy.sol:IdentityProxy") ↔
      r.Provides "Proxy.sol" "IdentityProxy" [] := by
  rw [complete_eq]
  constructor
  · intro h
    split at h
    · cases h
    · rename_i bytecode deployed found
      split at h
      · rename_i empty
        obtain ⟨digits, provides, read⟩ := Response.exists_bytes_iff.1 ⟨deployed, found⟩
        rw [List.isEmpty_iff.1 empty, Hex.decode_eq_ok_iff] at read
        rwa [List.map_eq_nil_iff.1 read] at provides
      · cases h
  · intro provides
    obtain ⟨deployed, found⟩ := Response.exists_bytes_iff.2 ⟨[], provides, Hex.decode_encode []⟩
    simp [found]

/-- A response makes a payload exactly when it provides digits of at least one byte; the payload is these digits in
lower case behind `0x`, and is read as the same bytes. A response that provides no digits is reported as empty
bytecode, and every other one as a failed compilation. -/
theorem complete_result (r : Response) (s : Session σ) :
    let result := ((complete r).runIn s).1
    (∀ payload, result = .ok payload ↔ ∃ digits, r.Provides "Proxy.sol" "IdentityProxy" digits ∧ digits ≠ [] ∧
      Hex.IsBytes digits ∧ payload.data = "0x" ++ String.ofList (digits.map Char.toLower)) ∧
    (∀ payload, result = .ok payload → Payload.IsData payload.data ∧
      ∃ digits bytes, r.Provides "Proxy.sol" "IdentityProxy" digits ∧ Hex.decode digits = .ok bytes ∧
        Hex.decode (payload.data.toList.drop 2) = .ok bytes) ∧
    (result = .error (.emptyBytecode "Proxy.sol:IdentityProxy") ↔ r.Provides "Proxy.sol" "IdentityProxy" []) ∧
    ((∀ payload, result ≠ .ok payload) → result ≠ .error (.emptyBytecode "Proxy.sol:IdentityProxy") →
      ∃ messages, result = .error (.compilation "Proxy.sol:IdentityProxy" messages)) := by
  refine ⟨fun payload => ⟨?_, ?_⟩, fun payload h => ?_, complete_eq_emptyBytecode_iff, ?_⟩
  · intro h
    obtain ⟨digits, bytecode, provides, read, nonempty, data⟩ := complete_eq_ok_iff.1 h
    have lower := Hex.decode_eq_ok_iff.1 read
    refine ⟨digits, provides, ?_, Hex.exists_decode_iff.1 ⟨bytecode, read⟩, by rw [data, lower]⟩
    rintro rfl
    exact Payload.encode_ne_nil nonempty lower.symm
  · rintro ⟨digits, provides, nonempty, whole, data⟩
    obtain ⟨bytecode, read⟩ := Hex.exists_decode_iff.2 whole
    have lower := Hex.decode_eq_ok_iff.1 read
    refine complete_eq_ok_iff.2 ⟨digits, bytecode, provides, read, ?_, by rw [data, lower]⟩
    rintro rfl
    exact nonempty (List.map_eq_nil_iff.1 lower)
  · obtain ⟨digits, bytecode, provides, read, nonempty, data⟩ := complete_eq_ok_iff.1 h
    have text : payload.data.toList = '0' :: 'x' :: Hex.encode bytecode := by simp [data]
    have back : payload.data.toList.drop 2 = Hex.encode bytecode := by rw [text]; rfl
    rw [back, data]
    exact ⟨Payload.isData_encode nonempty, digits, bytecode, provides, read, Hex.decode_encode bytecode⟩
  · intro noPayload notEmpty
    have outcome := complete_eq r s
    cases found : r.bytes "Proxy.sol" "IdentityProxy" with
    | error fault => exact ⟨fault.messages, by rw [outcome, found]⟩
    | ok bytes =>
      rw [found] at outcome
      by_cases empty : bytes.1.isEmpty = true
      · exact absurd (outcome.trans (if_pos empty)) notEmpty
      · exact absurd (outcome.trans (if_neg empty)) (noPayload _)

end Deployer

end ProxyForge
