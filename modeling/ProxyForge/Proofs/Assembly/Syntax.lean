import ProxyForge.Text.Blank

/-!
# Reading assembly

The text of a function is cut into tokens, and the tokens are read as statements: declarations of addresses, and
assembly blocks of operations, declarations and switches. Reading descends into parentheses and braces, so its fuel
is the number of tokens, of which every level takes one. What stands in front of a gap or a mark and what stands behind
it are cut into tokens on their own (`tokens_append_cons`).
-/

namespace ProxyForge.Assembly

/-- The operations that function bodies use. -/
inductive Operation where
  | callDataCopy
  | callDataSize
  | gas
  | sub
  | delegateCall
  | returnDataCopy
  | returnDataSize
  | finish
  | revert
  deriving DecidableEq, Repr

/-- An expression: a literal, a variable, or an operation on the values of other expressions. -/
inductive Expr where
  | literal (text : List Char)
  | name (text : List Char)
  | call (operation : Operation) (arguments : List Expr)

mutual

/-- A statement of an assembly block. -/
inductive Statement where
  | perform (operation : Operation) (arguments : List Expr)
  | declare (name : List Char) (value : Expr)
  | switch (subject : Expr) (cases : Cases)

/-- Statements one after the other. -/
inductive Block where
  | nil
  | cons (first : Statement) (rest : Block)

/-- The blocks of a switch, each under its literal, and the one for all other values. -/
inductive Cases where
  | otherwise (block : Block)
  | case (literal : List Char) (block : Block) (rest : Cases)

end

/-- A piece of a function body: a variable that holds an address, or an assembly block. -/
inductive Piece where
  | address (name literal : List Char)
  | assembly (block : Block)

/-! ## Tokens -/

/-- A word that begins with a digit or another word, or a single character that is no part of a word. -/
inductive Token where
  | name (text : List Char)
  | literal (text : List Char)
  | mark (c : Char)
  deriving DecidableEq, Repr

/-- The characters of words. -/
def isWordChar (c : Char) : Bool :=
  c.isAlphanum || c = '_'

namespace Token

/-- The token of a word. -/
def ofWord (word : List Char) : Token :=
  if word.head?.any Char.isDigit then literal word else name word

/-- The token of a character that is no part of a word; a blank is none. -/
def ofMark (c : Char) : List Token :=
  if Text.isBlank c then [] else [mark c]

/-- Tokens with a word in front of them, if it is one. -/
def withWord (word : List Char) (rest : List Token) : List Token :=
  if word.isEmpty then rest else ofWord word :: rest

/-- The word that a text begins with, and the tokens behind it, once a character is put in front. -/
def advance (c : Char) : List Char × List Token → List Char × List Token
  | (word, rest) => if isWordChar c then (c :: word, rest) else ([], ofMark c ++ withWord word rest)

/-- The word that a text begins with, and the tokens behind it. -/
def scan (cs : List Char) : List Char × List Token :=
  cs.foldr advance ([], [])

end Token

/-- The tokens of a text. -/
def tokens (cs : List Char) : List Token :=
  Token.withWord (Token.scan cs).1 (Token.scan cs).2

/-! ## Reading -/

namespace Operation

/-- The names of the operations. -/
def table : List (List Char × Operation) :=
  [("calldatacopy".toList, callDataCopy), ("calldatasize".toList, callDataSize), ("gas".toList, gas),
   ("sub".toList, sub), ("delegatecall".toList, delegateCall), ("returndatacopy".toList, returnDataCopy),
   ("returndatasize".toList, returnDataSize), ("return".toList, finish), ("revert".toList, revert)]

/-- The operation of a name. -/
def ofName? (name : List Char) : Option Operation :=
  table.lookup name

end Operation

mutual

/-- Reads an expression, and gives what stands behind it. -/
def readExpr : Nat → List Token → Option (Expr × List Token)
  | n + 1, .name name :: .mark '(' :: ts => do
    let operation ← Operation.ofName? name
    let (arguments, ts) ← readArguments n ts
    return (.call operation arguments, ts)
  | _ + 1, .name name :: ts => some (.name name, ts)
  | _ + 1, .literal text :: ts => some (.literal text, ts)
  | _, _ => none

/-- Reads arguments with commas between them, up to the closing parenthesis. -/
def readArguments : Nat → List Token → Option (List Expr × List Token)
  | _ + 1, .mark ')' :: ts => some ([], ts)
  | n + 1, ts => do
    let (first, ts) ← readExpr n ts
    match ts with
    | .mark ',' :: ts => do
      let (rest, ts) ← readArguments n ts
      return (first :: rest, ts)
    | .mark ')' :: ts => some ([first], ts)
    | _ => none
  | _, _ => none

end

mutual

/-- Reads a statement. -/
def readStatement : Nat → List Token → Option (Statement × List Token)
  | n + 1, .name keyword :: ts =>
    if keyword = "let".toList then
      match ts with
      | .name name :: .mark ':' :: .mark '=' :: ts => do
        let (value, ts) ← readExpr n ts
        return (.declare name value, ts)
      | _ => none
    else if keyword = "switch".toList then do
      let (subject, ts) ← readExpr n ts
      let (cases, ts) ← readCases n ts
      return (.switch subject cases, ts)
    else
      match ts with
      | .mark '(' :: ts => do
        let operation ← Operation.ofName? keyword
        let (arguments, ts) ← readArguments n ts
        return (.perform operation arguments, ts)
      | _ => none
  | _, _ => none

/-- Reads statements up to the closing brace. -/
def readBlock : Nat → List Token → Option (Block × List Token)
  | _ + 1, .mark '\x7d' :: ts => some (.nil, ts)
  | n + 1, ts => do
    let (first, ts) ← readStatement n ts
    let (rest, ts) ← readBlock n ts
    return (.cons first rest, ts)
  | _, _ => none

/-- Reads the blocks of a switch; the one for all other values is the last. -/
def readCases : Nat → List Token → Option (Cases × List Token)
  | n + 1, .name keyword :: .literal text :: .mark '\x7b' :: ts =>
    if keyword = "case".toList then do
      let (block, ts) ← readBlock n ts
      let (rest, ts) ← readCases n ts
      return (.case text block rest, ts)
    else none
  | n + 1, .name keyword :: .mark '\x7b' :: ts =>
    if keyword = "default".toList then do
      let (block, ts) ← readBlock n ts
      return (.otherwise block, ts)
    else none
  | _, _ => none

end

/-- Reads the pieces of a function body. -/
def readPieces : Nat → List Token → Option (List Piece)
  | _, [] => some []
  | n + 1, .name type :: .name name :: .mark '=' :: .name conversion :: .mark '(' :: .literal text :: .mark ')' ::
      .mark ';' :: ts =>
    if type = "address".toList ∧ conversion = "address".toList then (readPieces n ts).map (.address name text :: ·)
    else none
  | n + 1, .name keyword :: .mark '\x7b' :: ts =>
    if keyword = "assembly".toList then do
      let (block, ts) ← readBlock n ts
      (readPieces n ts).map (.assembly block :: ·)
    else none
  | _, _ => none

/-- The pieces of the lines of a function body. -/
def pieces? (lines : List (List Char)) : Option (List Piece) :=
  let tokens := lines.flatMap tokens
  readPieces tokens.length tokens

/-! ## Lemmas -/

theorem Token.withWord_append (word : List Char) (as bs : List Token) :
    withWord word (as ++ bs) = withWord word as ++ bs := by
  rw [withWord, withWord]
  split <;> rfl

/-- Tokens further behind stay where they are. -/
theorem Token.advance_append (c : Char) (word : List Char) (as bs : List Token) :
    advance c (word, as ++ bs) = ((advance c (word, as)).1, (advance c (word, as)).2 ++ bs) := by
  rw [advance, advance, withWord_append, ← List.append_assoc]
  split <;> rfl

/-- What stands in front of a character that is no part of a word and what stands behind it do not see each other. -/
theorem tokens_append_cons {c : Char} (h : isWordChar c = false) (as bs : List Char) :
    tokens (as ++ c :: bs) = tokens (as ++ [c]) ++ tokens bs := by
  have scanned : Token.scan (as ++ c :: bs) =
      ((Token.scan (as ++ [c])).1, (Token.scan (as ++ [c])).2 ++ tokens bs) := by
    induction as with
    | nil => simp [Token.scan, Token.advance, h, tokens, Token.withWord]
    | cons a as ih =>
      calc Token.advance a (Token.scan (as ++ c :: bs))
        _ = Token.advance a ((Token.scan (as ++ [c])).1, (Token.scan (as ++ [c])).2 ++ tokens bs) := by rw [ih]
        _ = _ := Token.advance_append _ _ _ _
  rw [tokens, scanned, Token.withWord_append, ← tokens]

/-- A word in front of a mark is a token of its own. -/
theorem tokens_word_append {word rest : List Char} (all : ∀ c ∈ word, isWordChar c = true) (nonempty : word ≠ [])
    (ends : ∀ c, rest.head? = some c → isWordChar c = false) :
    tokens (word ++ rest) = Token.ofWord word :: tokens rest := by
  have scanned : Token.scan (word ++ rest) = (word, tokens rest) := by
    clear nonempty
    induction word with
    | nil =>
      cases rest with
      | nil => rfl
      | cons c rest => simp [Token.scan, Token.advance, ends c rfl, tokens, Token.withWord]
    | cons c word ih =>
      calc Token.advance c (Token.scan (word ++ rest))
        _ = Token.advance c (word, tokens rest) := by rw [ih fun d hd => all d (List.mem_cons_of_mem _ hd)]
        _ = (c :: word, tokens rest) := if_pos (all c List.mem_cons_self)
  rw [tokens, scanned, Token.withWord]
  simp [nonempty]

/-- A word that begins with a digit is a literal, wherever it stands between characters that are no parts of words. -/
theorem tokens_literal {c : Char} (h : isWordChar c = false) (front : List Char) {word back : List Char}
    (all : ∀ d ∈ word, d.isAlphanum = true) (digit : word.head?.any Char.isDigit = true)
    (ends : ∀ d, back.head? = some d → isWordChar d = false) :
    tokens (front ++ c :: (word ++ back)) = tokens (front ++ [c]) ++ .literal word :: tokens back := by
  have wordChar : ∀ d ∈ word, isWordChar d = true := by
    intro d hd
    rw [isWordChar, all d hd, Bool.true_or]
  have nonempty : word ≠ [] := by
    rintro rfl
    cases digit
  have literal : Token.ofWord word = .literal word := if_pos digit
  rw [tokens_append_cons h, tokens_word_append wordChar nonempty ends, literal]

end ProxyForge.Assembly
