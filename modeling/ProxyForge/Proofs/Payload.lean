import ProxyForge.Json.RoundTrip
import ProxyForge.Payload
import ProxyForge.Proofs.Literal

/-!
# Payloads as texts

Whatever characters its data holds, a payload is read back from its text (`ofText?_text`), so different payloads have
different texts. The data of an artifact is letters and digits, which need no escape: its text is that of the bytes
between fixed ends, and the bytes are found in it again (`text_round_trip`).
-/

namespace ProxyForge

/-- Letters and digits stand for themselves in a string. -/
theorem Json.escapedChar_of_isAlphanum {c : Char} (h : c.isAlphanum = true) : escapedChar c = [c] := by
  have range := isAlphanum_iff.1 h
  have special : ['"', '\\', '\x08', '\x0c', '\n', '\r', '\t'].all (fun d => !d.isAlphanum) = true := by decide
  have other : ∀ d ∈ ['"', '\\', '\x08', '\x0c', '\n', '\r', '\t'], c ≠ d := by
    intro d mem same
    have plain := List.all_eq_true.1 special d mem
    rw [← same, h] at plain
    cases plain
  simp only [List.forall_mem_cons] at other
  simp only [escapedChar, other, if_false]
  rw [if_neg (by omega)]

namespace Payload

/-- The text of a payload is that of its data between fixed ends. -/
theorem toList_text (p : Payload) :
    p.text.toList = "\x7b\"data\":\"".toList ++ (p.data.toList.flatMap Json.escapedChar ++ "\"\x7d".toList) := by
  have name : Json.stringText (some "data") = "\"data\"".toList := by decide
  simp only [text, toJson, Json.compact, Json.ofMembers, Json.ofString, List.map_cons, List.map_nil, Json.tokens,
    Json.memberTokens, List.flatMap_append, List.flatMap_cons, List.flatMap_nil, Json.Token.text, name,
    String.toList_ofList]
  simp [Json.stringText]

/-- Data of letters and digits needs no escape. -/
theorem text_of_isAlphanum {p : Payload} (h : ∀ c ∈ p.data.toList, c.isAlphanum = true) :
    p.text = "\x7b\"data\":\"" ++ (p.data ++ "\"\x7d") := by
  have plain : p.data.toList.flatMap Json.escapedChar = p.data.toList := by
    have single := List.map_congr_left fun c hc => Json.escapedChar_of_isAlphanum (h c hc)
    rw [List.flatMap_def, single, ← List.flatMap_def, List.flatMap_singleton']
  apply String.toList_inj.1
  rw [toList_text, plain, String.toList_append, String.toList_append]

/-- Behind its mark the data of an artifact is digits. -/
theorem isAlphanum_of_mem_data {bytes : List UInt8} :
    ∀ c ∈ ("0x" ++ String.ofList (Hex.encode bytes)).toList, c.isAlphanum = true := by
  intro c hc
  rw [String.toList_append, List.mem_append] at hc
  rcases hc with mark | digit
  · have digits : "0x".toList.all Char.isAlphanum = true := by decide
    exact List.all_eq_true.1 digits c mark
  · rw [String.toList_ofList] at digit
    exact Hex.isAlphanum_of_mem_encode digit

/-- A payload is read back from its text. -/
theorem ofText?_text (p : Payload) : ofText? p.text = some p := by
  rw [ofText?, text, Json.parse_compact]
  rfl

/-- Every payload is read back from its text, so different payloads have different texts. The payload of an artifact
with bytecode is written without escapes, and its bytecode is found in what is read back. -/
theorem text_round_trip :
    (∀ p : Payload, ofText? p.text = some p) ∧ Function.Injective text ∧
    ∀ a : Compiler.Artifact, a.bytecode ≠ [] → ∃ p, ofArtifact a = .ok p ∧
      p.text = "\x7b\"data\":\"0x" ++ String.ofList (Hex.encode a.bytecode) ++ "\"\x7d" ∧ '\\' ∉ p.text.toList ∧
      ∃ q digits, ofText? p.text = some q ∧ q.data = "0x" ++ String.ofList digits ∧
        Hex.decode digits = .ok a.bytecode := by
  refine ⟨ofText?_text, fun p q same => ?_, fun a bytecode => ?_⟩
  · have read := ofText?_text q
    rw [← same, ofText?_text p] at read
    exact Option.some.inj read
  · have digits : ∀ c ∈ ("0x" ++ String.ofList (Hex.encode a.bytecode)).toList, c.isAlphanum = true :=
      isAlphanum_of_mem_data
    have text := @text_of_isAlphanum ⟨_⟩ digits
    have built : ofArtifact a = .ok ⟨"0x" ++ String.ofList (Hex.encode a.bytecode)⟩ := by simp [ofArtifact, bytecode]
    refine ⟨_, built, ?_, ?_, _, _, ofText?_text _, rfl, Hex.decode_encode _⟩
    · have front : "\x7b\"data\":\"0x" = "\x7b\"data\":\"" ++ "0x" := by decide
      rw [text, front]
      simp only [String.append_assoc]
    · rw [text, String.toList_append, String.toList_append, List.mem_append, List.mem_append]
      rintro (start | data | rear)
      · exact absurd start (by decide)
      · exact absurd (digits _ data) (by decide)
      · exact absurd rear (by decide)

end Payload

end ProxyForge
