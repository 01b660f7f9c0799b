import ProxyForge.Json.Tree

/-!
# Reading what was written

Reading the compact text of a value gives the value back (`parse_compact`), so different values have different texts.
The proof follows the two steps of reading. The tokens of a value are read as the value, whatever containers are open
around it; and the texts of these tokens are read as the tokens, since a word or number is always followed by
punctuation.
-/

namespace ProxyForge.Json

/-! ## Tokens to values -/

theorem readTokens_valueOrClose (v : Json) (around : List Frame) (rest : List Token) :
    readTokens (.valueOrClose around) (v.tokens ++ rest) =
      readTokens (.value (.array [] :: around)) (v.tokens ++ rest) := by
  cases v with
  | array items => cases items <;> simp [tokens, readTokens, accept]
  | object members =>
    cases members with
    | nil => simp [tokens, readTokens, accept]
    | cons m members => obtain ⟨name, value⟩ := m; simp [tokens, readTokens, accept]
  | _ => simp [tokens, readTokens, accept]

mutual

theorem readTokens_tokens (v : Json) (around : List Frame) (rest : List Token) :
    readTokens (.value around) (v.tokens ++ rest) = readTokens (place v around) rest := by
  match v with
  | .null | .bool _ | .number _ | .string _ => simp [tokens, readTokens, accept, acceptValue]
  | .array [] => simp [tokens, readTokens, accept, acceptValue]
  | .array (item :: items) =>
    simp only [tokens, List.cons_append, List.append_assoc, readTokens, accept, acceptValue]
    rw [readTokens_valueOrClose, readTokens_tokens item, place, readTokens_itemTokens items]
    simp
  | .object [] => simp [tokens, readTokens, accept, acceptValue]
  | .object ((name, value) :: members) =>
    simp only [tokens, List.cons_append, List.append_assoc, readTokens, accept, acceptValue]
    rw [readTokens_tokens value, place, readTokens_memberTokens members]
    simp

theorem readTokens_itemTokens (items : List Json) (done : List Json) (around : List Frame) (rest : List Token) :
    readTokens (.commaOrBracket done around) (itemTokens items ++ rest) =
      readTokens (place (.array (done.reverse ++ items)) around) rest := by
  match items with
  | [] => simp [itemTokens, readTokens, accept]
  | item :: items =>
    simp only [itemTokens, List.cons_append, List.append_assoc, readTokens, accept]
    rw [readTokens_tokens item, place, readTokens_itemTokens items]
    simp

theorem readTokens_memberTokens (members : List (Option String × Json)) (done : List (Option String × Json))
    (around : List Frame) (rest : List Token) :
    readTokens (.commaOrBrace done around) (memberTokens members ++ rest) =
      readTokens (place (.object (done.reverse ++ members)) around) rest := by
  match members with
  | [] => simp [memberTokens, readTokens, accept]
  | (name, value) :: members =>
    simp only [memberTokens, List.cons_append, List.append_assoc, readTokens, accept]
    rw [readTokens_tokens value, place, readTokens_memberTokens members]
    simp

end

/-- The tokens of a value stand for it. -/
theorem ofTokens?_tokens (v : Json) : ofTokens? v.tokens = some v := by
  simpa [ofTokens?, place, readTokens] using readTokens_tokens v [] []

/-! ## Texts to tokens -/

/-- A text that does not begin with a character of words and numbers. -/
def EndsBare (rest : List (Option Char)) : Prop :=
  ∀ c, rest.head? = some (some c) → isBare c = false

theorem endsBare_cons {c : Char} (h : isBare c = false) (rest : List (Option Char)) : EndsBare (some c :: rest) := by
  intro d hd
  simp only [List.head?_cons, Option.some.injEq] at hd
  exact hd ▸ h

theorem scanFrom_bare {cs : List Char} {t : Token} (hcs : ∀ c ∈ cs, isBare c = true) (done : List Token)
    (read : List Char) (ht : bareToken (read.reverse ++ cs) = some t) {rest : List (Option Char)}
    (hrest : EndsBare rest) :
    scanFrom done (.bare read) (cs.map some ++ rest) = scanFrom (t :: done) .between rest := by
  induction cs generalizing read with
  | nil =>
    simp only [List.append_nil] at ht
    cases rest with
    | nil => simp [scanFrom, finish, ht]
    | cons u us =>
      cases u with
      | none => simp [scanFrom, Json.read]
      | some c =>
        have hc := hrest c rfl
        cases hb : readBetween c with
        | none => simp [scanFrom, Json.read, hc, ht, hb]
        | some p => simp [scanFrom, Json.read, hc, ht, hb]
  | cons c cs ih =>
    simp only [List.mem_cons, forall_eq_or_imp] at hcs
    simp only [List.map_cons, List.cons_append, scanFrom, Json.read, hcs.1, if_true]
    exact ih hcs.2 (c :: read) (by simpa using ht)

theorem isBare_not_space {c : Char} (h : isBare c = true) : isSpace c = false ∧ c ≠ '"' := by
  refine ⟨?_, ?_⟩
  · cases hs : isSpace c with
    | false => rfl
    | true =>
      simp only [isSpace, Bool.or_eq_true, decide_eq_true_eq] at hs
      rcases hs with ((rfl | rfl) | rfl) | rfl <;> simp [isBare] at h
  · rintro rfl
    simp [isBare] at h

theorem scanFrom_bareText {c : Char} {cs : List Char} {t : Token} (hc : isBare c = true)
    (hcs : ∀ d ∈ cs, isBare d = true) (ht : bareToken (c :: cs) = some t) (done : List Token)
    {rest : List (Option Char)} (hrest : EndsBare rest) :
    scanFrom done .between ((c :: cs).map some ++ rest) = scanFrom (t :: done) .between rest := by
  simp only [List.map_cons, List.cons_append, scanFrom, Json.read, readBetween, (isBare_not_space hc).1,
    (isBare_not_space hc).2, hc, if_true, if_false, Bool.false_eq_true]
  exact scanFrom_bare hcs done [c] (by simpa using ht) hrest

theorem isBare_of_step {s t : NumberState} {c : Char} (h : s.step c = some t) : isBare c = true := by
  cases hb : isBare c with
  | true => rfl
  | false =>
    have hd : c.isDigit = false := by
      cases hd : c.isDigit with
      | false => rfl
      | true => simp [isBare, Char.isAlphanum, hd] at hb
    have ne {d : Char} (hd : isBare d = true) : c ≠ d := by rintro rfl; rw [hd] at hb; cases hb
    have h1 := ne (d := '-') rfl
    have h2 := ne (d := '0') rfl
    have h3 := ne (d := '.') rfl
    have h4 := ne (d := 'e') rfl
    have h5 := ne (d := 'E') rfl
    have h6 := ne (d := '+') rfl
    cases s <;> simp [NumberState.step, hd, h1, h2, h3, h4, h5, h6] at h

theorem isBare_of_accepts {s : NumberState} {cs : List Char} (h : s.accepts cs = true) :
    ∀ c ∈ cs, isBare c = true := by
  induction cs generalizing s with
  | nil => simp
  | cons c cs ih =>
    rw [NumberState.accepts] at h
    cases hs : s.step c with
    | none => simp [hs] at h
    | some t =>
      rw [hs] at h
      simp only [List.mem_cons, forall_eq_or_imp]
      exact ⟨isBare_of_step hs, ih h⟩

theorem bareToken_literal (n : Number) : bareToken n.literal = some (.number n) := by
  obtain ⟨cs, h⟩ := n
  have h1 : cs ≠ ['n', 'u', 'l', 'l'] := by rintro rfl; exact absurd h (by decide)
  have h2 : cs ≠ ['t', 'r', 'u', 'e'] := by rintro rfl; exact absurd h (by decide)
  have h3 : cs ≠ ['f', 'a', 'l', 's', 'e'] := by rintro rfl; exact absurd h (by decide)
  simp [bareToken, h1, h2, h3, h]

/-- The piece that a character of a string is read back as. -/
def pieceOf (c : Char) : Piece :=
  if c.toNat < 0x20 ∧ c ≠ '\x08' ∧ c ≠ '\x0c' ∧ c ≠ '\n' ∧ c ≠ '\r' ∧ c ≠ '\t' then .code c.toNat
  else .char c

theorem scanFrom_unicodeEscape {n : Nat} (h : n < 0x20) (done : List Token) (ps : List Piece)
    (rest : List (Option Char)) :
    scanFrom done (.inString ps) ((unicodeEscape n).map some ++ rest) =
      scanFrom done (.inString (.code n :: ps)) rest := by
  have table : ∀ n ∈ List.range 0x20, ∃ a b x y, unicodeEscape n = ['\\', 'u', '0', '0', a, b] ∧
      Hex.value? a = some x ∧ Hex.value? b = some y ∧ x * 16 + y = n := by
    intro n hn
    refine ⟨Nat.digitChar (n / 16), Nat.digitChar (n % 16), n / 16, n % 16, ?_⟩
    revert n
    decide
  obtain ⟨a, b, x, y, he, ha, hb, hn⟩ := table n (List.mem_range.2 h)
  have h0 : Hex.value? '0' = some 0 := rfl
  simp [he, scanFrom, Json.read, readInString, ha, hb, h0, hn]

theorem scanFrom_escapedChar (c : Char) (done : List Token) (ps : List Piece) (rest : List (Option Char)) :
    scanFrom done (.inString ps) ((escapedChar c).map some ++ rest) =
      scanFrom done (.inString (pieceOf c :: ps)) rest := by
  by_cases h : c.toNat < 0x20 ∧ c ≠ '\x08' ∧ c ≠ '\x0c' ∧ c ≠ '\n' ∧ c ≠ '\r' ∧ c ≠ '\t'
  · have h1 : c ≠ '"' := by rintro rfl; exact absurd h.1 (by decide)
    have h2 : c ≠ '\\' := by rintro rfl; exact absurd h.1 (by decide)
    have he : escapedChar c = unicodeEscape c.toNat := by simp [escapedChar, h1, h2, h]
    rw [he, scanFrom_unicodeEscape h.1, pieceOf, if_pos h]
  · rw [pieceOf, if_neg h]
    by_cases h1 : c = '"'
    · subst h1; simp [escapedChar, scanFrom, Json.read, readInString, shortEscape]
    by_cases h2 : c = '\\'
    · subst h2; simp [escapedChar, scanFrom, Json.read, readInString, shortEscape]
    by_cases h3 : c = '\x08'
    · subst h3; simp [escapedChar, scanFrom, Json.read, readInString, shortEscape]
    by_cases h4 : c = '\x0c'
    · subst h4; simp [escapedChar, scanFrom, Json.read, readInString, shortEscape]
    by_cases h5 : c = '\n'
    · subst h5; simp [escapedChar, scanFrom, Json.read, readInString, shortEscape]
    by_cases h6 : c = '\r'
    · subst h6; simp [escapedChar, scanFrom, Json.read, readInString, shortEscape]
    by_cases h7 : c = '\t'
    · subst h7; simp [escapedChar, scanFrom, Json.read, readInString, shortEscape]
    have h8 : ¬c.toNat < 0x20 := fun hc => h ⟨hc, h3, h4, h5, h6, h7⟩
    simp [escapedChar, scanFrom, Json.read, readInString, h1, h2, h3, h4, h5, h6, h7, h8]

theorem scanFrom_escapedChars (cs : List Char) (done : List Token) (ps : List Piece) (rest : List (Option Char)) :
    scanFrom done (.inString ps) ((cs.flatMap escapedChar).map some ++ rest) =
      scanFrom done (.inString ((cs.map pieceOf).reverse ++ ps)) rest := by
  induction cs generalizing ps with
  | nil => rfl
  | cons c cs ih =>
    rw [List.flatMap_cons, List.map_append, List.append_assoc, scanFrom_escapedChar, ih]
    simp

/-- An escape that is no half of a surrogate pair stands for its character. -/
theorem content_code {n : Nat} (h : n < 0xD800) (ps : List Piece) :
    content (.code n :: ps) = (content ps).map (Char.ofNat n :: ·) := by
  have h1 : ¬(0xD800 ≤ n) := by omega
  have h2 : ¬(0xDC00 ≤ n) := by omega
  match ps with
  | [] | .char _ :: _ | .gap :: _ => conv => { lhs; rw [content.eq_def] }; simp [h1]
  | .code _ :: _ => conv => { lhs; rw [content.eq_def] }; simp [h1, h2]

theorem content_pieces (cs : List Char) : content (cs.map pieceOf) = some cs := by
  induction cs with
  | nil => rfl
  | cons c cs ih =>
    rw [List.map_cons]
    by_cases h : c.toNat < 0x20 ∧ c ≠ '\x08' ∧ c ≠ '\x0c' ∧ c ≠ '\n' ∧ c ≠ '\r' ∧ c ≠ '\t'
    · rw [show pieceOf c = .code c.toNat from if_pos h, content_code (by omega), ih]
      simp
    · rw [show pieceOf c = .char c from if_neg h, content, ih]
      rfl

/-- The text of a token is read as the token, if a word or number ends with it. -/
theorem scanFrom_text (t : Token) (done : List Token) {rest : List (Option Char)} (hrest : EndsBare rest) :
    scanFrom done .between (t.text.map some ++ rest) = scanFrom (t :: done) .between rest := by
  cases t with
  | null => exact scanFrom_bareText rfl (List.all_eq_true.1 rfl) rfl done hrest
  | bool b => cases b <;> exact scanFrom_bareText rfl (List.all_eq_true.1 rfl) rfl done hrest
  | number n =>
    have hb := bareToken_literal n
    have hc := isBare_of_accepts n.valid
    show scanFrom done .between (n.literal.map some ++ rest) = _
    cases hl : n.literal with
    | nil => exact absurd (hl ▸ n.valid) (by decide)
    | cons c cs =>
      rw [hl] at hb hc
      simp only [List.mem_cons, forall_eq_or_imp] at hc
      exact scanFrom_bareText hc.1 hc.2 hb done hrest
  | string s =>
    cases s with
    | none =>
      simp [Token.text, stringText, unicodeEscape, scanFrom, Json.read, readBetween, readInString, isSpace, Hex.value?,
        Nat.toDigits, Nat.toDigitsCore, Nat.digitChar, content]
    | some s =>
      simp only [Token.text, stringText, List.map_cons, List.map_append, List.cons_append, List.append_assoc]
      rw [scanFrom]
      simp only [Json.read, readBetween, show isSpace '"' = false from rfl, Bool.false_eq_true, if_false, if_true,
        List.reverse_nil, List.nil_append]
      rw [scanFrom_escapedChars]
      simp [scanFrom, Json.read, readInString, content_pieces]
  | _ => simp [Token.text, scanFrom, Json.read, readBetween, isSpace, isBare]

/-- The texts of tokens, one behind the other. -/
def texts (ts : List Token) : List (Option Char) :=
  (ts.flatMap Token.text).map some

theorem texts_cons (t : Token) (ts : List Token) : texts (t :: ts) = t.text.map some ++ texts ts := by
  simp [texts]

theorem texts_append (ts us : List Token) : texts (ts ++ us) = texts ts ++ texts us := by
  simp [texts]

theorem endsBare_itemTokens (items : List Json) (rest : List (Option Char)) :
    EndsBare (texts (itemTokens items) ++ rest) := by
  cases items <;> simp only [itemTokens, texts_cons, Token.text, List.map_cons, List.cons_append] <;>
    exact endsBare_cons rfl _

theorem endsBare_memberTokens (members : List (Option String × Json)) (rest : List (Option Char)) :
    EndsBare (texts (memberTokens members) ++ rest) := by
  cases members with
  | nil => exact endsBare_cons rfl _
  | cons m members => exact endsBare_cons rfl _

theorem texts_append_append (v : Json) (ts : List Token) (rest : List (Option Char)) :
    texts (v.tokens ++ ts) ++ rest = texts v.tokens ++ (texts ts ++ rest) := by
  rw [texts_append, List.append_assoc]

/-- Punctuation is read as itself, whatever follows. -/
theorem scanFrom_punctuation {t : Token} {c : Char} (ht : t.text = [c]) (hc : readBetween c = some ([t], .between))
    (done ts : List Token) (rest : List (Option Char)) :
    scanFrom done .between (texts (t :: ts) ++ rest) = scanFrom (t :: done) .between (texts ts ++ rest) := by
  rw [texts_cons, ht]
  simp [scanFrom, Json.read, hc]

/-- A name and its colon are read as themselves. -/
theorem scanFrom_name (name : Option String) (done ts : List Token) (rest : List (Option Char)) :
    scanFrom done .between (texts (.string name :: .colon :: ts) ++ rest) =
      scanFrom (.colon :: .string name :: done) .between (texts ts ++ rest) := by
  rw [texts_cons, List.append_assoc, scanFrom_text _ _ (by rw [texts_cons]; exact endsBare_cons rfl _),
    scanFrom_punctuation rfl rfl]

mutual

theorem scanFrom_tokens (v : Json) (done : List Token) {rest : List (Option Char)} (hrest : EndsBare rest) :
    scanFrom done .between (texts v.tokens ++ rest) = scanFrom (v.tokens.reverse ++ done) .between rest := by
  match v with
  | .null | .bool _ | .number _ | .string _ =>
    simpa [tokens, texts] using scanFrom_text _ done hrest
  | .array [] => rw [tokens, scanFrom_punctuation rfl rfl, scanFrom_punctuation rfl rfl]; rfl
  | .array (item :: items) =>
    rw [tokens, List.cons_append, scanFrom_punctuation rfl rfl, texts_append_append,
      scanFrom_tokens item _ (endsBare_itemTokens items rest), scanFrom_itemTokens items]
    simp
  | .object [] => rw [tokens, scanFrom_punctuation rfl rfl, scanFrom_punctuation rfl rfl]; rfl
  | .object ((name, value) :: members) =>
    rw [tokens, List.cons_append, List.cons_append, List.cons_append, scanFrom_punctuation rfl rfl, scanFrom_name,
      texts_append_append, scanFrom_tokens value _ (endsBare_memberTokens members rest),
      scanFrom_memberTokens members]
    simp

theorem scanFrom_itemTokens (items : List Json) (done : List Token) (rest : List (Option Char)) :
    scanFrom done .between (texts (itemTokens items) ++ rest) =
      scanFrom ((itemTokens items).reverse ++ done) .between rest := by
  match items with
  | [] => rw [itemTokens, scanFrom_punctuation rfl rfl]; rfl
  | item :: items =>
    rw [itemTokens, List.cons_append, scanFrom_punctuation rfl rfl, texts_append_append,
      scanFrom_tokens item _ (endsBare_itemTokens items rest), scanFrom_itemTokens items]
    simp

theorem scanFrom_memberTokens (members : List (Option String × Json)) (done : List Token)
    (rest : List (Option Char)) :
    scanFrom done .between (texts (memberTokens members) ++ rest) =
      scanFrom ((memberTokens members).reverse ++ done) .between rest := by
  match members with
  | [] => rw [memberTokens, scanFrom_punctuation rfl rfl]; rfl
  | (name, value) :: members =>
    rw [memberTokens, List.cons_append, List.cons_append, List.cons_append, scanFrom_punctuation rfl rfl,
      scanFrom_name, texts_append_append, scanFrom_tokens value _ (endsBare_memberTokens members rest),
      scanFrom_memberTokens members]
    simp

end

/-- The text of a value is read as the tokens of the value. -/
theorem scan_texts (v : Json) : scan (texts v.tokens) = some v.tokens := by
  have ends : EndsBare [] := by intro c hc; simp at hc
  have h := scanFrom_tokens v [] ends
  simpa [scan, scanFrom, finish] using h

/-- The compact text of a value is read as the value. -/
theorem parse_compact (v : Json) : parse v.compact = some v := by
  have h := scan_texts v
  rw [texts] at h
  simp [parse, parseScanned, compact, h, ofTokens?_tokens]

end ProxyForge.Json
