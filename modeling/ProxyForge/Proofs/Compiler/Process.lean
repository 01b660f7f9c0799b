import ProxyForge.Compiler.Process
import ProxyForge.Proofs.Json.Tokens

/-!
# What the compiler process answers

An answer is given exactly if the executable is found, runs to an end, succeeds, and its standard output is the text of
a response (`result_eq_ok_iff`). A run that fails is told by its error output alone (`result_of_failed`), and a run that
succeeds without an answer by its standard output (`result_of_unreadable`): written anew if it is JSON that can be read
as a whole, otherwise as it is.

Reading is wider than JSON at one place and narrower at another: a string that is ignored need not be a text, and JSON
that is nested deeper than a reader goes is shown as it is (`process_departs`).
-/

namespace ProxyForge

/-- The executable is found and its run on a request comes to an end. -/
def Host.RunsTo (host : Host) (executable : String) (request : Compiler.Request) (how : ProcessEnd) : Prop :=
  ∃ path, host.locate executable = .ok path ∧ (host.execute path ["--standard-json"] request.text).1 = .ended how

/-- A machine on which every executable succeeds and prints bytes. -/
def Host.printing (stdout : List UInt8) : Host where
  locate := .ok
  execute _ arguments input :=
    (.ended { status := .exited 0, stdout, stderr := [] }, some { arguments, input := some input })

namespace Json

/-- An empty array inside a number of arrays. -/
def nestedArrays : Nat → Json
  | 0 => .array []
  | n + 1 => .array [nestedArrays n]

/-- As many closing brackets behind as many opening ones. -/
def bracketBytes (n : Nat) : List UInt8 :=
  List.replicate n 0x5B ++ List.replicate n 0x5D

theorem tokens_nestedArrays (n : Nat) : (nestedArrays n).tokens =
    List.replicate (n + 1) .openBracket ++ List.replicate (n + 1) .closeBracket := by
  induction n with
  | zero => rfl
  | succ n ih =>
    have opening : List.replicate (n + 1 + 1) Token.openBracket = .openBracket :: List.replicate (n + 1) .openBracket :=
      rfl
    rw [nestedArrays, tokens, itemTokens, ih, opening, List.replicate_succ' (n := n + 1) (a := Token.closeBracket)]
    simp

theorem depth_nestedArrays (n : Nat) : (nestedArrays n).depth = n + 1 := by
  induction n with
  | zero => rfl
  | succ n ih => simp [nestedArrays, depth, itemsDepth, ih]

theorem scan_bracketBytes (n : Nat) : Text.scan (bracketBytes n) =
    List.replicate n (some '[') ++ List.replicate n (some ']') := by
  have opening (rest : List UInt8) : Text.scan (List.replicate n 0x5B ++ rest) =
      List.replicate n (some '[') ++ Text.scan rest := by
    induction n with
    | zero => rfl
    | succ n ih => exact congrArg (some '[' :: ·) ih
  have closing : Text.scan (List.replicate n 0x5D) = List.replicate n (some ']') := by
    clear opening
    induction n with
    | zero => rfl
    | succ n ih => exact congrArg (some ']' :: ·) ih
  rw [bracketBytes, opening, closing]

theorem written_nestedArrays (n : Nat) : (nestedArrays n).WrittenIn (bracketBytes (n + 1)) := by
  have spelled := scan_eq_some_iff.1 (scan_texts (nestedArrays n))
  have text : texts (nestedArrays n).tokens = Text.scan (bracketBytes (n + 1)) := by
    rw [scan_bracketBytes, tokens_nestedArrays, texts_append]
    simp [texts, Token.text, List.flatMap_replicate]
  rwa [text] at spelled

/-- Written anew the last bracket of arrays in each other stands on a line of its own. -/
theorem indented_nestedArrays (n : Nat) :
    ∃ front, (nestedArrays (n + 1)).indented.toList = front ++ ['\n', ']'] := by
  refine ⟨'[' :: List.intercalate [','] ((indentedItems 1 [nestedArrays n]).map (indentation 1 ++ ·)), ?_⟩
  simp [indented, nestedArrays, indentedChars, indentedItems, indentedBlock, indentation]

/-- As they are written it stands behind another one. -/
theorem decodeLossy_bracketBytes (n : Nat) :
    ∃ front, (Text.decodeLossy (bracketBytes (n + 2))).toList = front ++ [']', ']'] := by
  refine ⟨List.replicate (n + 2) '[' ++ List.replicate n ']', ?_⟩
  have closing : List.replicate (n + 2) ']' = List.replicate n ']' ++ [']', ']'] :=
    List.replicate_add n 2 ']'
  simp [Text.decodeLossy, scan_bracketBytes, closing]

end Json

namespace Compiler

/-! ## Outputs -/

theorem Response.ofBytes?_eq_some_iff {bytes : List UInt8} {response : Response} :
    Response.ofBytes? bytes = some response ↔
      ∃ value : Json, value.WrittenIn bytes ∧ Response.ofJson? value = some response := by
  simp only [Response.ofBytes?, Option.bind_eq_some_iff, Json.parseScanned_eq_some_iff, Json.WrittenIn]

theorem Response.ofBytes?_eq_none_iff {bytes : List UInt8} :
    Response.ofBytes? bytes = none ↔ ∀ value : Json, value.WrittenIn bytes → Response.ofJson? value = none := by
  simp only [Option.eq_none_iff_forall_ne_some, ne_eq, Response.ofBytes?_eq_some_iff]
  grind

theorem shownOutput_of_legible {bytes : List UInt8} {value : Json} (written : value.WrittenIn bytes)
    (legible : value.Legible) : shownOutput bytes = value.indented := by
  rw [shownOutput, Json.indentedText?_eq_some_iff.2 ⟨value, written, legible, rfl⟩, Option.getD_some]

theorem shownOutput_of_illegible {bytes : List UInt8}
    (illegible : ∀ value : Json, value.WrittenIn bytes → ¬value.Legible) :
    shownOutput bytes = Text.decodeLossy bytes := by
  have none : Json.indentedText? (Text.scan bytes) = none := by
    rw [Option.eq_none_iff_forall_ne_some]
    intro text shown
    obtain ⟨value, written, legible, -⟩ := Json.indentedText?_eq_some_iff.1 shown
    exact illegible value written legible
  rw [shownOutput, none, Option.getD_none]

theorem message_failed (executable : String) (stderr : List UInt8) :
    (ProcessFault.failed stderr).message executable = executable ++ " error: " ++ Text.decodeLossy stderr := rfl

theorem message_unreadable (executable details : String) (stdout : List UInt8) :
    (ProcessFault.unreadable details stdout).message executable =
      executable ++ " subprocess output parsing error: " ++ details ++ "\n" ++ shownOutput stdout := rfl

/-! ## Answers -/

namespace Toolchain

variable {host : Host} {explain : List UInt8 → String} {executable : String} {request : Request} {how : ProcessEnd}
  {response : Response}

/-- An answer of the process is that of a run, if the executable is found. -/
theorem process_result (host : Host) (explain : List UInt8 → String) (executable : String) (request : Request)
    (made : List Invocation) :
    ((process host explain executable).compile request made).result =
      match host.locate executable with
      | .error reason => .error (.only ((ProcessFault.notLocated reason).message executable))
      | .ok path =>
        asCauses executable (responseOf explain (host.execute path ["--standard-json"] request.text).1) := by
  cases found : host.locate executable <;> simp [process, locate, found, asCauses]

theorem result_of_runsTo (runs : host.RunsTo executable request how) (made : List Invocation) :
    ((process host explain executable).compile request made).result =
      asCauses executable (responseOf explain (.ended how)) := by
  obtain ⟨path, found, ended⟩ := runs
  rw [process_result, found]
  simp only [ended]

/-- A run answers exactly if it succeeds and its standard output is the text of a response. -/
theorem responseOf_eq_ok_iff :
    responseOf explain (.ended how) = .ok response ↔
      how.status = .exited 0 ∧ Response.ofBytes? how.stdout = some response := by
  rw [responseOf, ← ProcessEnd.succeeded_iff]
  cases how.succeeded <;> cases Response.ofBytes? how.stdout <;> simp

theorem asCauses_eq_ok_iff {answer : Except ProcessFault Response} :
    asCauses executable answer = .ok response ↔ answer = .ok response := by
  cases answer <;> simp [asCauses]

/-- The process answers exactly if the executable is found and runs to an end, succeeds, and writes the text of a
response. -/
theorem result_eq_ok_iff {made : List Invocation} :
    ((process host explain executable).compile request made).result = .ok response ↔
      ∃ how, host.RunsTo executable request how ∧ how.status = .exited 0 ∧
        ∃ value : Json, value.WrittenIn how.stdout ∧ Response.ofJson? value = some response := by
  simp only [← Response.ofBytes?_eq_some_iff, ← @responseOf_eq_ok_iff explain]
  constructor
  · intro answered
    rw [process_result] at answered
    cases found : host.locate executable with
    | error reason => simp [found] at answered
    | ok path =>
      simp only [found, asCauses_eq_ok_iff] at answered
      cases outcome : (host.execute path ["--standard-json"] request.text).1 with
      | ended how => exact ⟨how, ⟨path, found, outcome⟩, outcome ▸ answered⟩
      | _ => simp [outcome, responseOf] at answered
  · rintro ⟨how, runs, answered⟩
    rw [result_of_runsTo runs, asCauses_eq_ok_iff, answered]

/-- Of a run that fails only the error output is told, whatever else it wrote. -/
theorem result_of_failed (runs : host.RunsTo executable request how) (failed : how.status ≠ .exited 0)
    (made : List Invocation) :
    ((process host explain executable).compile request made).result =
      .error (.only (executable ++ " error: " ++ Text.decodeLossy how.stderr)) := by
  have unsuccessful : how.succeeded = false := by simpa [← ProcessEnd.succeeded_iff] using failed
  rw [result_of_runsTo runs, ← message_failed]
  simp [responseOf, unsuccessful, asCauses]

/-- Of a run that succeeds without an answer the standard output is told. -/
theorem result_of_unreadable (runs : host.RunsTo executable request how) (succeeded : how.status = .exited 0)
    (unreadable : Response.ofBytes? how.stdout = none) (made : List Invocation) :
    ((process host explain executable).compile request made).result = .error (.only
      (executable ++ " subprocess output parsing error: " ++ explain how.stdout ++ "\n" ++
        shownOutput how.stdout)) := by
  rw [result_of_runsTo runs, ← message_unreadable]
  simp [responseOf, ProcessEnd.succeeded_iff.2 succeeded, unreadable, asCauses]

/-! ## Where reading departs from JSON -/

/-- The answer of an executable that succeeds and prints bytes. -/
def printed (explain : List UInt8 → String) (stdout : List UInt8) : Except Causes Response :=
  ((process (.printing stdout) explain "solc").compile (.ofSources (.ofList [])) []).result

theorem printed_unreadable {stdout : List UInt8} (unreadable : Response.ofBytes? stdout = none) :
    ∃ front, printed explain stdout = .error (.only (front ++ shownOutput stdout)) := by
  have runs : (Host.printing stdout).RunsTo "solc" (.ofSources (.ofList []))
      { status := .exited 0, stdout, stderr := [] } := ⟨"solc", rfl, rfl⟩
  exact ⟨_, result_of_unreadable runs rfl unreadable []⟩

/-- A string that is ignored need not be a text: here it is the byte 0xFF under the name `x`. And 128 arrays in each
other are shown as they are written, and not anew, though they are JSON. -/
theorem process_departs :
    (Text.decode? [0x7B, 0x22, 0x78, 0x22, 0x3A, 0x22, 0xFF, 0x22, 0x7D] = none ∧
      ∀ explain, printed explain [0x7B, 0x22, 0x78, 0x22, 0x3A, 0x22, 0xFF, 0x22, 0x7D] =
        .ok { contracts := none, diagnostics := none }) ∧
    ((Json.nestedArrays 127).WrittenIn (Json.bracketBytes 128) ∧
      Response.ofJson? (Json.nestedArrays 127) = none ∧
      ∀ explain front,
        printed explain (Json.bracketBytes 128) ≠ .error (.only (front ++ (Json.nestedArrays 127).indented))) := by
  have written := Json.written_nestedArrays 127
  have noResponse : Response.ofJson? (Json.nestedArrays 127) = none := rfl
  refine ⟨⟨rfl, fun _ => rfl⟩, written, noResponse, fun explain front anew => ?_⟩
  have unreadable : Response.ofBytes? (Json.bracketBytes 128) = none :=
    Response.ofBytes?_eq_none_iff.2 fun value other => other.unique written ▸ noResponse
  have asItIs : shownOutput (Json.bracketBytes 128) = Text.decodeLossy (Json.bracketBytes 128) := by
    refine shownOutput_of_illegible fun value other legible => ?_
    have shallow := legible.shallow
    rw [other.unique written, Json.depth_nestedArrays] at shallow
    exact absurd shallow (by decide)
  obtain ⟨told, shown⟩ := @printed_unreadable explain _ unreadable
  obtain ⟨before, last⟩ := Json.decodeLossy_bracketBytes 126
  obtain ⟨lines, lastLine⟩ := Json.indented_nestedArrays 126
  rw [shown, asItIs] at anew
  simp only [Except.error.injEq, Causes.only, Causes.mk.injEq, and_true] at anew
  have ends := congrArg String.toList anew
  rw [String.toList_append, String.toList_append, last, lastLine, ← List.append_assoc, ← List.append_assoc] at ends
  exact absurd (List.append_inj' ends rfl).2 (by decide)

end Toolchain

end Compiler

end ProxyForge
