import ProxyForge.Json.RoundTrip
import Mathlib.Data.List.Forall2

/-!
# How a JSON text is spelled

The lexical grammar of JSON, without a reader: a text is spelled by the spellings of its tokens, with blanks in front
of each and behind the last, and with no word or number ending in the middle of one (`Spelled`). A string is spelled
by its pieces between quotes, each a character, an escape or bytes that are no UTF-8. The reader finds the tokens that
a text is spelled from, and finds none where there are none (`scan_eq_some_iff`).

Reading goes character by character; what is read between two tokens is told by the mode the reader is in (`Begun`).
-/

namespace ProxyForge.Json

/-! ## The grammar -/

/-- Characters that may stand between tokens. -/
def Blank (cs : List (Option Char)) : Prop :=
  ∀ u ∈ cs, ∃ c, u = some c ∧ isSpace c = true

/-- The number of hexadecimal digits, the highest first. -/
inductive HexNumber : List Char → Nat → Prop where
  | nil : HexNumber [] 0
  | concat {cs : List Char} {value digit : Nat} {c : Char} (front : HexNumber cs value)
      (last : Hex.value? c = some digit) : HexNumber (cs ++ [c]) (value * 16 + digit)

/-- The spellings of a piece of a string. -/
inductive Piece.Spells : Piece → List (Option Char) → Prop where
  | char {c : Char} (quote : c ≠ '"') (backslash : c ≠ '\\') (control : 0x20 ≤ c.toNat) : Spells (.char c) [some c]
  | gap : Spells .gap [none]
  | short {name c : Char} (named : shortEscape name = some c) : Spells (.char c) [some '\\', some name]
  | code {digits : List Char} {bits : Nat} (number : HexNumber digits bits) (four : digits.length = 4) :
      Spells (.code bits) (some '\\' :: some 'u' :: digits.map some)

/-- Whether a token is a word or number. -/
def Token.isBare : Token → Bool
  | .null | .bool _ | .number _ => true
  | _ => false

/-- The spellings of a token: a string has many, every other token one. -/
inductive Token.Spells : Token → List (Option Char) → Prop where
  | text {t : Token} (other : ∀ content, t ≠ .string content) : Spells t (t.text.map some)
  | string {ps : List Piece} {parts : List (List (Option Char))} (pieces : List.Forall₂ Piece.Spells ps parts) :
      Spells (.string ((content ps).map String.ofList)) (some '"' :: parts.flatten ++ [some '"'])

/-- The texts that are spelled from tokens. -/
inductive Spelled : List Token → List (Option Char) → Prop where
  | nil {cs : List (Option Char)} (blank : Blank cs) : Spelled [] cs
  | cons {t : Token} {ts : List Token} {front cs rest : List (Option Char)} (blank : Blank front)
      (spells : t.Spells cs) (apart : t.isBare = true → EndsBare rest) (further : Spelled ts rest) :
      Spelled (t :: ts) (front ++ (cs ++ rest))

theorem blank_append {front cs : List (Option Char)} (h : Blank front) (k : Blank cs) : Blank (front ++ cs) := by
  intro u hu
  exact (List.mem_append.1 hu).elim (h u) (k u)

theorem Spelled.blank_append {ts : List Token} {front cs : List (Option Char)} (blank : Blank front)
    (h : Spelled ts cs) : Spelled ts (front ++ cs) := by
  cases h with
  | nil k => exact .nil (Json.blank_append blank k)
  | cons k spells apart further =>
    rw [← List.append_assoc]
    exact .cons (Json.blank_append blank k) spells apart further

/-! ## What is spelled is read -/

theorem scanFrom_blank {front : List (Option Char)} (blank : Blank front) (done : List Token)
    (rest : List (Option Char)) : scanFrom done .between (front ++ rest) = scanFrom done .between rest := by
  induction front with
  | nil => rfl
  | cons u front ih =>
    obtain ⟨c, rfl, space⟩ := blank u List.mem_cons_self
    rw [List.cons_append, scanFrom]
    simp only [Json.read, readBetween, space, if_true, List.reverse_nil, List.nil_append]
    exact ih fun u hu => blank u (List.mem_cons_of_mem _ hu)

/-- Up to the last of four digits an escape goes on. -/
theorem scanFrom_digits {digits : List Char} {value : Nat} (number : HexNumber digits value) (short : digits.length < 4)
    (done : List Token) (ps : List Piece) (rest : List (Option Char)) :
    scanFrom done (.escapeDigits ps 4 0) (digits.map some ++ rest) =
      scanFrom done (.escapeDigits ps (4 - digits.length) value) rest := by
  induction number generalizing rest with
  | nil => rfl
  | @concat digits value digit c front last ih =>
    simp only [List.length_append, List.length_singleton] at short ⊢
    rw [List.map_append, List.append_assoc, ih (by omega)]
    have further : ¬4 - digits.length ≤ 1 := by omega
    simp [scanFrom, Json.read, last, further, Nat.sub_sub]

theorem scanFrom_piece {p : Piece} {part : List (Option Char)} (spells : p.Spells part) (done : List Token)
    (ps : List Piece) (rest : List (Option Char)) :
    scanFrom done (.inString ps) (part ++ rest) = scanFrom done (.inString (p :: ps)) rest := by
  cases spells with
  | char quote backslash control => simp [scanFrom, Json.read, readInString, quote, backslash, Nat.not_lt.2 control]
  | gap => simp [scanFrom, Json.read]
  | @short name c named =>
    have noCode : name ≠ 'u' := by
      rintro rfl
      simp [shortEscape] at named
    simp [scanFrom, Json.read, readInString, noCode, named]
  | code number four =>
    cases number with
    | nil => cases four
    | @concat digits value digit c front last =>
      have three : digits.length = 3 := by simpa using four
      have begun : scanFrom done (.inString ps) ((some '\\' :: some 'u' :: (digits ++ [c]).map some) ++ rest) =
          scanFrom done (.escapeDigits ps 4 0) (digits.map some ++ (some c :: rest)) := by
        simp [scanFrom, Json.read, readInString]
      rw [begun, scanFrom_digits front (by omega)]
      simp [scanFrom, Json.read, last, three]

theorem scanFrom_pieces {ps : List Piece} {parts : List (List (Option Char))}
    (pieces : List.Forall₂ Piece.Spells ps parts) (done : List Token) (read : List Piece) (rest : List (Option Char)) :
    scanFrom done (.inString read) (parts.flatten ++ rest) = scanFrom done (.inString (ps.reverse ++ read)) rest := by
  induction pieces generalizing read with
  | nil => rfl
  | cons spells _ ih =>
    rw [List.flatten_cons, List.append_assoc, scanFrom_piece spells, ih]
    simp

theorem scanFrom_spells {t : Token} {cs rest : List (Option Char)} (spells : t.Spells cs)
    (apart : t.isBare = true → EndsBare rest) (done : List Token) :
    scanFrom done .between (cs ++ rest) = scanFrom (t :: done) .between rest := by
  cases spells with
  | text other =>
    cases t with
    | null | bool | number => exact scanFrom_text _ done (apart rfl)
    | string content => exact absurd rfl (other content)
    | _ => simp [Token.text, scanFrom, Json.read, readBetween, isSpace, Json.isBare]
  | string pieces =>
    have opened : ∀ cs, scanFrom done .between (some '"' :: cs) = scanFrom done (.inString []) cs := fun cs => by
      simp [scanFrom, Json.read, readBetween, isSpace]
    rw [List.cons_append, List.cons_append, opened, List.append_assoc, scanFrom_pieces pieces]
    simp [scanFrom, Json.read, readInString]

theorem scanFrom_spelled {ts : List Token} {cs : List (Option Char)} (h : Spelled ts cs) (done : List Token) :
    scanFrom done .between cs = some (done.reverse ++ ts) := by
  induction h generalizing done with
  | nil blank =>
    have read := scanFrom_blank blank done []
    rw [List.append_nil] at read
    simp [read, scanFrom, finish]
  | cons blank spells apart _ ih =>
    rw [scanFrom_blank blank, scanFrom_spells spells apart, ih]
    simp

/-! ## What is read is spelled -/

/-- A string that is still open, with blanks in front of it. -/
def OpenString (ps : List Piece) (cs : List (Option Char)) : Prop :=
  ∃ front parts, Blank front ∧ List.Forall₂ Piece.Spells ps.reverse parts ∧ cs = front ++ some '"' :: parts.flatten

/-- What has been read in a mode since the last token ended. -/
def Begun : Mode → List (Option Char) → Prop
  | .between, cs => Blank cs
  | .bare word, cs => ∃ front, Blank front ∧ cs = front ++ word.reverse.map some
  | .inString ps, cs => OpenString ps cs
  | .escape ps, cs => ∃ before, OpenString ps before ∧ cs = before ++ [some '\\']
  | .escapeDigits ps left value, cs => ∃ before digits, OpenString ps before ∧ HexNumber digits value ∧
      digits.length < 4 ∧ left = 4 - digits.length ∧ cs = before ++ some '\\' :: some 'u' :: digits.map some

theorem OpenString.concat {ps : List Piece} {p : Piece} {cs part : List (Option Char)} (h : OpenString ps cs)
    (spells : p.Spells part) : OpenString (p :: ps) (cs ++ part) := by
  obtain ⟨front, parts, blank, pieces, rfl⟩ := h
  refine ⟨front, parts ++ [part], blank, ?_, by simp⟩
  rw [List.reverse_cons]
  exact List.rel_append pieces (.cons spells .nil)

theorem spells_of_bareToken {cs : List Char} {t : Token} (h : bareToken cs = some t) :
    t.isBare = true ∧ t.Spells (cs.map some) := by
  have bare : t.isBare = true ∧ t.text = cs := by
    unfold bareToken at h
    split at h
    · cases h; subst cs; exact ⟨rfl, rfl⟩
    split at h
    · cases h; subst cs; exact ⟨rfl, rfl⟩
    split at h
    · cases h; subst cs; exact ⟨rfl, rfl⟩
    split at h
    · cases h; exact ⟨rfl, rfl⟩
    · cases h
  refine ⟨bare.1, bare.2 ▸ .text ?_⟩
  rintro content rfl
  cases bare.1

/-- What a step of the reader says of the text: if the text behind it is spelled from tokens, together with what has
been begun, then the text from before the step on is spelled from them and the tokens that end with the step. -/
def Advances (before : List (Option Char)) (u : Option Char) (ended : List Token) (mode : Mode) : Prop :=
  ∃ back, Begun mode back ∧ ∀ ts rest, Spelled ts (back ++ rest) → Spelled (ended ++ ts) (before ++ u :: rest)

/-- A step that ends no token adds to what has been begun. -/
theorem advances_of_begun {before : List (Option Char)} {u : Option Char} {mode : Mode}
    (h : Begun mode (before ++ [u])) : Advances before u [] mode :=
  ⟨before ++ [u], h, fun ts rest spelled => by simpa using spelled⟩

/-- Between tokens punctuation is a token of its own. -/
theorem advances_punctuation {t : Token} {c : Char} (text : t.text = [c]) (single : t.isBare = false)
    (other : ∀ content, t ≠ .string content) : Advances [] (some c) [t] .between := by
  refine ⟨[], by simp [Begun, Blank], fun ts rest spelled => ?_⟩
  have spells : t.Spells [some c] := by simpa [text] using Token.Spells.text other
  exact .cons (by simp [Blank]) spells (by simp [single]) spelled

theorem advances_readBetween {c : Char} {ended : List Token} {mode : Mode}
    (h : readBetween c = some (ended, mode)) : Advances [] (some c) ended mode := by
  unfold readBetween at h
  split at h
  · rename_i space
    cases h
    exact advances_of_begun (by simpa [Begun, Blank] using space)
  split at h
  · rename_i quote
    cases h
    exact advances_of_begun ⟨[], [], by simp [Blank], .nil, by simp [quote]⟩
  split at h
  · cases h
    exact advances_of_begun ⟨[], by simp [Blank], rfl⟩
  iterate 6
    split at h
    · cases h
      subst c
      exact advances_punctuation rfl rfl nofun
  cases h

/-- In front of a step between tokens there may be blanks. -/
theorem Advances.blank {before front : List (Option Char)} {u : Option Char} {ended : List Token} {mode : Mode}
    (h : Advances before u ended mode) (blank : Blank front) : Advances (front ++ before) u ended mode := by
  obtain ⟨back, begun, spell⟩ := h
  refine ⟨back, begun, fun ts rest spelled => ?_⟩
  rw [List.append_assoc]
  exact (spell ts rest spelled).blank_append blank

/-- A word or number ends with the character behind it. -/
theorem advances_bare {word : List Char} {t : Token} {c : Char} {ended : List Token} {mode : Mode}
    (token : bareToken word = some t) (behind : isBare c = false) (h : Advances [] (some c) ended mode) :
    Advances (word.map some) (some c) (t :: ended) mode := by
  obtain ⟨back, begun, spell⟩ := h
  refine ⟨back, begun, fun ts rest spelled => ?_⟩
  have noBlank : Blank [] := nofun
  exact .cons noBlank (spells_of_bareToken token).2 (fun _ => endsBare_cons behind rest) (spell ts rest spelled)

theorem advances_readInString {ps : List Piece} {c : Char} {before : List (Option Char)} {ended : List Token}
    {mode : Mode} (opened : OpenString ps before) (h : readInString ps c = some (ended, mode)) :
    Advances before (some c) ended mode := by
  unfold readInString at h
  split at h
  · rename_i quote
    cases h
    obtain ⟨front, parts, blank, pieces, rfl⟩ := opened
    refine ⟨[], by simp [Begun, Blank], fun ts rest spelled => ?_⟩
    have string := Spelled.cons blank (.string pieces) nofun spelled
    simpa [quote] using string
  rename_i noQuote
  split at h
  · rename_i backslash
    cases h
    exact advances_of_begun ⟨before, opened, by rw [backslash]⟩
  rename_i noBackslash
  split at h
  · cases h
  · rename_i control
    cases h
    exact advances_of_begun (opened.concat (.char noQuote noBackslash (Nat.not_lt.1 control)))

/-- Every step of the reader advances in the text. -/
theorem advances_read {mode next : Mode} {u : Option Char} {before : List (Option Char)} {ended : List Token}
    (begun : Begun mode before) (h : read mode u = some (ended, next)) : Advances before u ended next := by
  cases mode with
  | between =>
    cases u with
    | none => cases h
    | some c => simpa using (advances_readBetween h).blank begun
  | bare word =>
    obtain ⟨front, blank, rfl⟩ := begun
    cases u with
    | none => cases h
    | some c =>
      simp only [read] at h
      split at h
      · cases h
        exact advances_of_begun ⟨front, blank, by simp⟩
      rename_i behind
      split at h
      · rename_i t ended next token between
        cases h
        exact (advances_bare token (by simpa using behind) (advances_readBetween between)).blank blank
      · cases h
  | inString ps =>
    cases u with
    | none =>
      cases h
      exact advances_of_begun (begun.concat .gap)
    | some c => exact advances_readInString begun h
  | escape ps =>
    obtain ⟨before, opened, rfl⟩ := begun
    cases u with
    | none => cases h
    | some c =>
      simp only [read] at h
      split at h
      · rename_i code
        cases h
        exact advances_of_begun ⟨before, [], opened, .nil, by simp, rfl, by simp [code]⟩
      · obtain ⟨d, named, same⟩ := Option.map_eq_some_iff.1 h
        cases same
        exact advances_of_begun (by simpa [Begun] using opened.concat (.short named))
  | escapeDigits ps left value =>
    obtain ⟨before, digits, opened, number, short, rfl, rfl⟩ := begun
    cases u with
    | none => cases h
    | some c =>
      simp only [read] at h
      split at h
      · cases h
      rename_i digit worth
      have longer := number.concat worth
      split at h
      · rename_i last
        cases h
        have four : (digits ++ [c]).length = 4 := by simp; omega
        exact advances_of_begun (by simpa [Begun] using opened.concat (.code longer four))
      · cases h
        exact advances_of_begun ⟨before, digits ++ [c], opened, longer, by simp; omega, by simp; omega, by simp⟩

theorem spelled_of_finish {mode : Mode} {before : List (Option Char)} {ended : List Token} (begun : Begun mode before)
    (h : finish mode = some ended) : Spelled ended before := by
  cases mode with
  | between =>
    cases h
    exact .nil begun
  | bare word =>
    obtain ⟨front, blank, rfl⟩ := begun
    obtain ⟨t, token, rfl⟩ := Option.map_eq_some_iff.1 h
    have ends : Spelled [] [] := .nil nofun
    have apart : EndsBare [] := nofun
    have spelled := Spelled.cons blank (spells_of_bareToken token).2 (fun _ => apart) ends
    simpa using spelled
  | _ => cases h

theorem spelled_of_scanFrom {done ts : List Token} {mode : Mode} {before cs : List (Option Char)}
    (begun : Begun mode before) (h : scanFrom done mode cs = some ts) :
    ∃ new, ts = done.reverse ++ new ∧ Spelled new (before ++ cs) := by
  induction cs generalizing done mode before with
  | nil =>
    obtain ⟨ended, finished, rfl⟩ := Option.map_eq_some_iff.1 h
    exact ⟨ended, rfl, by simpa using spelled_of_finish begun finished⟩
  | cons u cs ih =>
    cases step : read mode u with
    | none => simp [scanFrom, step] at h
    | some p =>
      obtain ⟨ended, next⟩ := p
      simp only [scanFrom, step] at h
      obtain ⟨back, carried, spell⟩ := advances_read begun step
      obtain ⟨new, rfl, spelled⟩ := ih carried h
      exact ⟨ended ++ new, by simp, spell new cs spelled⟩

/-- The tokens that are found in a text are those it is spelled from. -/
theorem scan_eq_some_iff {cs : List (Option Char)} {ts : List Token} : scan cs = some ts ↔ Spelled ts cs := by
  constructor
  · intro h
    have begun : Begun .between [] := nofun
    obtain ⟨new, rfl, spelled⟩ := spelled_of_scanFrom begun h
    exact spelled
  · intro h
    exact scanFrom_spelled h []

/-! ## Texts without gaps -/

theorem content_of_gap {ps : List Piece} (gap : .gap ∈ ps) : content ps = none := by
  fun_induction content ps <;> simp_all

theorem Piece.Spells.whole {p : Piece} {part : List (Option Char)} (h : p.Spells part) (noGap : p ≠ .gap) :
    none ∉ part := by
  cases h with
  | gap => exact absurd rfl noGap
  | _ => simp

theorem Piece.whole_of_spells {ps : List Piece} {parts : List (List (Option Char))}
    (pieces : List.Forall₂ Piece.Spells ps parts) (noGap : .gap ∉ ps) : none ∉ parts.flatten := by
  induction pieces with
  | nil => simp
  | cons spells _ ih =>
    rw [List.mem_cons, not_or] at noGap
    rw [List.flatten_cons, List.mem_append, not_or]
    exact ⟨spells.whole (Ne.symm noGap.1), ih noGap.2⟩

theorem Token.Spells.whole {t : Token} {cs : List (Option Char)} (h : t.Spells cs) (text : t ≠ .string none) :
    none ∉ cs := by
  cases h with
  | text => simp
  | @string ps parts pieces =>
    have noGap : .gap ∉ ps := by
      intro gap
      exact text (by rw [content_of_gap gap]; rfl)
    simpa using Piece.whole_of_spells pieces noGap

/-- A text whose strings are texts has no gap. -/
theorem Spelled.whole {ts : List Token} {cs : List (Option Char)} (h : Spelled ts cs) (texts : .string none ∉ ts) :
    none ∉ cs := by
  induction h with
  | nil blank =>
    intro gap
    obtain ⟨c, same, -⟩ := blank _ gap
    cases same
  | cons blank spells _ _ ih =>
    rw [List.mem_cons, not_or] at texts
    simp only [List.mem_append, not_or]
    refine ⟨fun gap => ?_, spells.whole (Ne.symm texts.1), ih texts.2⟩
    obtain ⟨c, same, -⟩ := blank _ gap
    cases same

end ProxyForge.Json
