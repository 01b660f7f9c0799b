import ProxyForge.Proofs.Pragma.Verdict
import ProxyForge.Proofs.Version.Clause

/-!
# Pragma lines

A pragma line may be written in many ways: its gaps are any blanks, they may also stand behind the characters of an
operator, and a semicolon may end it (`IsLine`). All of them are read as the same requirement, the texts of the
clauses with commas between them (`requirement?_line`): the operator in front of a version is collected character by
character (`comparators_spaced`), whatever words the gaps cut it into. So a source whose first pragma line it is
passes exactly for the releases that every clause admits (`check_eq_ok_iff_admits`).
-/

namespace ProxyForge.Pragma

/-- Blanks within a line. -/
def IsGap (cs : List Char) : Prop :=
  ∀ c ∈ cs, Text.isBlank c = true ∧ c ≠ '\n'

instance : DecidablePred IsGap :=
  fun cs => List.decidableBAll (fun c => Text.isBlank c = true ∧ c ≠ '\n') cs

/-- Characters of an operator as they stand in a line, a gap behind each of them. -/
inductive Spaced : List Char → List Char → Prop where
  | nil : Spaced [] []
  | cons {c : Char} {chars gap written : List Char} (apart : IsGap gap) (rest : Spaced chars written) :
    Spaced (c :: chars) (c :: (gap ++ written))

/-- Clauses as they stand in a line, a gap in front of each of them. -/
inductive Listed : List Clause → List Char → Prop where
  | nil : Listed [] []
  | cons {clause : Clause} {clauses : List Clause} {gap operator written : List Char} (apart : IsGap gap)
    (nonempty : gap ≠ []) (spaced : Spaced clause.operator.chars operator) (rest : Listed clauses written) :
    Listed (clause :: clauses) (gap ++ (operator ++ (clause.numerals ++ written)))

/-- The end of a line: a gap, and a semicolon that may stand in it. -/
inductive IsEnd : List Char → Prop where
  | open {gap : List Char} (apart : IsGap gap) : IsEnd gap
  | closed {gap rest : List Char} (apart : IsGap gap) (behind : IsGap rest) : IsEnd (gap ++ ';' :: rest)

/-- The lines that are pragmas of clauses. -/
inductive IsLine (clauses : List Clause) : List Char → Prop where
  | intro {indent gap written tail : List Char} (indented : IsGap indent) (apart : IsGap gap) (nonempty : gap ≠ [])
    (listed : Listed clauses written) (ended : IsEnd tail) :
    IsLine clauses (indent ++ ("pragma".toList ++ (gap ++ ("solidity".toList ++ (written ++ tail)))))

/-- A line is the first of a source whose first words are those of a version pragma. -/
def IsFirstPragma (line : List Char) (source : String) : Prop :=
  ∃ before after, Text.lines source.toList = before ++ line :: after ∧
    ∀ other ∈ before, ¬ ["pragma".toList, "solidity".toList] <+: Text.words other

/-! ## Reading operators -/

theorem IsGap.isBlank {gap : List Char} (h : IsGap gap) : ∀ c ∈ gap, Text.isBlank c = true :=
  fun c hc => (h c hc).1

theorem isBlank_of_isOperator {c : Char} (h : isOperator c = true) : Text.isBlank c = false := by
  simp only [isOperator, Bool.or_eq_true, decide_eq_true_eq] at h
  rcases h with (((rfl | rfl) | rfl) | rfl) | rfl <;> decide

theorem ne_semicolon_of_isOperator {c : Char} (h : isOperator c = true) : c ≠ ';' := by
  rintro rfl
  exact absurd h (by decide)

theorem isOperator_of_mem_chars {operator : Operator} : ∀ c ∈ operator.chars, isOperator c = true := by
  cases operator <;> simp [Operator.chars, isOperator]

/-- An operator character in front of a text is the next of the operator, whether or not it is a word of its own. -/
theorem comparators_operator {c : Char} (h : isOperator c = true) (operator cs : List Char) :
    comparators operator (Text.words (c :: cs)) = comparators (operator ++ [c]) (Text.words cs) := by
  have unclosed : ∀ w : List Char, Text.dropEndWhile (· == ';') (c :: w) = c :: Text.dropEndWhile (· == ';') w := by
    intro w
    exact Text.dropEndWhile_cons_of_neg (by simpa using ne_semicolon_of_isOperator h) w
  obtain ⟨w, ws, cut⟩ := List.exists_cons_of_ne_nil (Text.splitAtEvery_ne_nil Text.isBlank cs)
  have first : Text.words (c :: cs) = (c :: w) :: ws.filter fun w => !w.isEmpty := by
    simp [Text.words, Text.splitAtEvery, isBlank_of_isOperator h, cut]
  rw [first, comparators, unclosed]
  simp only [List.takeWhile_cons_of_pos h, List.dropWhile_cons_of_pos h]
  cases w with
  | nil => simp [Text.words, cut, Text.dropEndWhile]
  | cons d w => simp [Text.words, cut, comparators]

/-- The characters of an operator are collected, whatever gaps stand between them. -/
theorem comparators_spaced {chars written : List Char} (spaced : Spaced chars written)
    (all : ∀ c ∈ chars, isOperator c = true) (operator cs : List Char) :
    comparators operator (Text.words (written ++ cs)) = comparators (operator ++ chars) (Text.words cs) := by
  induction spaced generalizing operator with
  | nil => simp
  | @cons c chars gap written apart rest ih =>
    calc comparators operator (Text.words (c :: (gap ++ written) ++ cs))
      _ = comparators (operator ++ [c]) (Text.words (gap ++ (written ++ cs))) := by
        rw [List.cons_append, comparators_operator (all c List.mem_cons_self), List.append_assoc]
      _ = comparators (operator ++ [c] ++ chars) (Text.words cs) := by
        rw [Text.words_blank_append apart.isBlank, ih fun d hd => all d (List.mem_cons_of_mem _ hd)]
      _ = comparators (operator ++ c :: chars) (Text.words cs) := by
        rw [List.append_assoc, List.singleton_append]

/-! ## Reading versions -/

/-- What may stand behind a version in a line: semicolons, and then a blank or nothing. -/
def Closes (rest : List Char) : Prop :=
  ∃ semicolons more, rest = semicolons ++ more ∧ (∀ c ∈ semicolons, (c == ';') = true) ∧ Text.StartsApart more

theorem Closes.of_startsApart {rest : List Char} (h : Text.StartsApart rest) : Closes rest :=
  ⟨[], rest, rfl, by simp, h⟩

theorem isBlank_of_semicolon {c : Char} (h : (c == ';') = true) : Text.isBlank c = false := by
  rw [eq_of_beq h]
  decide

/-- Semicolons in front of a blank are no version. -/
theorem comparators_semicolons {semicolons more : List Char} (all : ∀ c ∈ semicolons, (c == ';') = true)
    (apart : Text.StartsApart more) (operator : List Char) :
    comparators operator (Text.words (semicolons ++ more)) = comparators operator (Text.words more) := by
  by_cases empty : semicolons = []
  · rw [empty, List.nil_append]
  · have word : ∀ c ∈ semicolons, Text.isBlank c = false := fun c hc => isBlank_of_semicolon (all c hc)
    have none_left : Text.dropEndWhile (· == ';') semicolons = [] := Text.dropEndWhile_append_of_forall [] all
    rw [Text.words_append_of_startsApart word empty apart, comparators, none_left]
    simp

theorem numeral_char {clause : Clause} {c : Char} (h : c ∈ clause.numerals) :
    Text.isBlank c = false ∧ isOperator c = false ∧ (c == ';') = false := by
  have digit : ∀ c : Char, c.isDigit = true → isOperator c = false ∧ (c == ';') = false := by
    intro c digit
    simp only [isOperator, Bool.or_eq_false_iff, decide_eq_false_iff_not, beq_eq_false_iff_ne]
    refine ⟨⟨⟨⟨⟨?_, ?_⟩, ?_⟩, ?_⟩, ?_⟩, ?_⟩ <;> rintro rfl <;> exact absurd digit (by decide)
  rcases Clause.isDigit_or_dot_of_mem_numerals h with h | rfl
  · exact ⟨Text.isBlank_of_isAlphanum (by simp [Char.isAlphanum, h]), digit c h⟩
  · decide

/-- A version behind its operator is the comparator of its clause, with whatever is glued to the version. -/
theorem comparators_numerals_append (clause : Clause) {glued more : List Char}
    (word : ∀ c ∈ glued, Text.isBlank c = false) (apart : Text.StartsApart more) :
    comparators clause.operator.chars (Text.words (clause.numerals ++ (glued ++ more))) =
      (clause.text ++ Text.dropEndWhile (· == ';') glued) :: comparators [] (Text.words more) := by
  have whole : ∀ c ∈ clause.numerals ++ glued, Text.isBlank c = false := by
    intro c hc
    rcases List.mem_append.1 hc with hc | hc
    · exact (numeral_char hc).1
    · exact word c hc
  obtain ⟨d, digits, numerals, -⟩ := clause.numerals_eq_cons
  have nonempty : clause.numerals ++ glued ≠ [] := by simp [numerals]
  have unclosed : Text.dropEndWhile (· == ';') (clause.numerals ++ glued) =
      clause.numerals ++ Text.dropEndWhile (· == ';') glued :=
    Text.dropEndWhile_append_of_neg (fun c hc => (numeral_char hc).2.2) glued
  have plain : isOperator d = false := (numeral_char (numerals ▸ List.mem_cons_self)).2.1
  have operators : (clause.numerals ++ Text.dropEndWhile (· == ';') glued).takeWhile isOperator = [] := by
    simp [numerals, plain]
  have version : (clause.numerals ++ Text.dropEndWhile (· == ';') glued).dropWhile isOperator =
      clause.numerals ++ Text.dropEndWhile (· == ';') glued := by
    simp [numerals, plain]
  have filled : (clause.numerals ++ Text.dropEndWhile (· == ';') glued).isEmpty = false := by simp [numerals]
  have marked : ∀ cs : List Char, (if clause.operator.chars.isEmpty then '=' :: (clause.numerals ++ cs)
      else clause.operator.chars ++ (clause.numerals ++ cs)) = clause.text ++ cs := by
    intro cs
    rw [Clause.text]
    cases clause.operator <;> rfl
  rw [← List.append_assoc, Text.words_append_of_startsApart whole nonempty apart, comparators, unclosed]
  simp only [operators, version, filled, List.append_nil, Bool.false_eq_true, if_false]
  rw [marked]

/-- A version behind its operator is the comparator of its clause. -/
theorem comparators_numerals (clause : Clause) {rest : List Char} (closes : Closes rest) :
    comparators clause.operator.chars (Text.words (clause.numerals ++ rest)) =
      clause.text :: comparators [] (Text.words rest) := by
  obtain ⟨semicolons, more, rfl, all, apart⟩ := closes
  have word : ∀ c ∈ semicolons, Text.isBlank c = false := fun c hc => isBlank_of_semicolon (all c hc)
  have none_left : Text.dropEndWhile (· == ';') semicolons = [] := Text.dropEndWhile_append_of_forall [] all
  rw [comparators_numerals_append clause word apart, none_left, List.append_nil,
    comparators_semicolons all apart]

/-! ## Reading lines -/

theorem words_gap {gap : List Char} (apart : IsGap gap) : Text.words gap = [] := by
  rw [← List.append_nil gap, Text.words_blank_append apart.isBlank]
  rfl

theorem IsEnd.closes {tail : List Char} (ended : IsEnd tail) : Closes tail := by
  cases ended with
  | «open» apart => exact .of_startsApart (.of_forall apart.isBlank)
  | @closed gap rest apart behind =>
    by_cases empty : gap = []
    · exact ⟨[';'], rest, by rw [empty]; rfl, by simp, .of_forall behind.isBlank⟩
    · exact .of_startsApart (.blank_append apart.isBlank empty _)

/-- The end of a line holds no comparator. -/
theorem IsEnd.comparators_eq_nil {tail : List Char} (ended : IsEnd tail) (operator : List Char) :
    comparators operator (Text.words tail) = [] := by
  cases ended with
  | «open» apart => rw [words_gap apart]; rfl
  | @closed gap rest apart behind =>
    have one : ∀ c ∈ [';'], (c == ';') = true := by simp
    rw [Text.words_blank_append apart.isBlank, ← List.singleton_append,
      comparators_semicolons one (.of_forall behind.isBlank), words_gap behind]
    rfl

theorem Listed.closes {clauses : List Clause} {written tail : List Char} (listed : Listed clauses written)
    (closes : Closes tail) : Closes (written ++ tail) := by
  cases listed with
  | nil => exact closes
  | cons apart nonempty spaced rest =>
    rw [List.append_assoc]
    exact .of_startsApart (.blank_append apart.isBlank nonempty _)

/-- A clause behind a gap is read from its version on, with its operator. -/
theorem comparators_clause {clause : Clause} {gap operator : List Char} (apart : IsGap gap)
    (spaced : Spaced clause.operator.chars operator) (rest : List Char) :
    comparators [] (Text.words (gap ++ (operator ++ (clause.numerals ++ rest)))) =
      comparators clause.operator.chars (Text.words (clause.numerals ++ rest)) := by
  rw [Text.words_blank_append apart.isBlank, comparators_spaced spaced isOperator_of_mem_chars, List.nil_append]

/-- Clauses in a line are read as their texts, in their order, and what closes them is read behind them. -/
theorem comparators_listed {clauses : List Clause} {written tail : List Char} (listed : Listed clauses written)
    (closes : Closes tail) :
    comparators [] (Text.words (written ++ tail)) = clauses.map Clause.text ++ comparators [] (Text.words tail) := by
  induction listed with
  | nil => rfl
  | @cons clause clauses gap operator written apart nonempty spaced rest ih =>
    calc comparators [] (Text.words (gap ++ (operator ++ (clause.numerals ++ written)) ++ tail))
      _ = comparators clause.operator.chars (Text.words (clause.numerals ++ (written ++ tail))) := by
        rw [List.append_assoc, List.append_assoc, List.append_assoc, comparators_clause apart spaced]
      _ = clause.text :: (clauses.map Clause.text ++ comparators [] (Text.words tail)) := by
        rw [comparators_numerals clause (rest.closes closes), ih]

theorem Listed.startsApart {clauses : List Clause} {written tail : List Char} (listed : Listed clauses written)
    (apart : clauses = [] → Text.StartsApart tail) : Text.StartsApart (written ++ tail) := by
  cases listed with
  | nil => exact apart rfl
  | cons gap separate spaced rest =>
    rw [List.append_assoc]
    exact .blank_append gap.isBlank separate _

/-- The requirement of a line is what is read behind its first two words. -/
theorem requirement?_words {indent gap rest : List Char} (indented : IsGap indent) (apart : IsGap gap)
    (nonempty : gap ≠ []) (separated : Text.StartsApart rest) :
    requirement? (indent ++ ("pragma".toList ++ (gap ++ ("solidity".toList ++ rest)))) =
      some (List.intercalate [','] (comparators [] (Text.words rest))) := by
  have first : ∀ c ∈ "pragma".toList, Text.isBlank c = false := by simp [Text.isBlank]
  have second : ∀ c ∈ "solidity".toList, Text.isBlank c = false := by simp [Text.isBlank]
  have words : Text.words (indent ++ ("pragma".toList ++ (gap ++ ("solidity".toList ++ rest)))) =
      "pragma".toList :: "solidity".toList :: Text.words rest := by
    rw [Text.words_blank_append indented.isBlank,
      Text.words_append_of_startsApart first (by decide) (.blank_append apart.isBlank nonempty _),
      Text.words_blank_append apart.isBlank, Text.words_append_of_startsApart second (by decide) separated]
  rw [requirement?, words]
  simp only [and_self, if_true]

/-- A pragma line requires its clauses, however it is written. -/
theorem requirement?_line {clauses : List Clause} {line : List Char} (written : IsLine clauses line)
    (nonempty : clauses ≠ []) : requirement? line = some (Clause.joined clauses) := by
  obtain ⟨indented, apart, separate, listed, ended⟩ := written
  rw [requirement?_words indented apart separate (listed.startsApart (absurd · nonempty)),
    comparators_listed listed ended.closes, ended.comparators_eq_nil, List.append_nil]
  rfl

theorem requirement?_eq_none {line : List Char}
    (other : ¬ ["pragma".toList, "solidity".toList] <+: Text.words line) : requirement? line = none := by
  rw [requirement?]
  split
  · rename_i first second words cut
    rw [cut] at other
    split
    · rename_i both
      exact absurd ⟨words, by rw [both.1, both.2]; rfl⟩ other
    · rfl
  · rfl

/-- The requirement of a source is that of its first pragma line. -/
theorem ofSource?_of_isFirstPragma {line : List Char} {source : String} (first : IsFirstPragma line source)
    {text : List Char} (required : requirement? line = some text) : ofSource? source = some text := by
  obtain ⟨before, after, cut, others⟩ := first
  have skipped : before.findSome? requirement? = none :=
    List.findSome?_eq_none_iff.2 fun other member => requirement?_eq_none (others other member)
  rw [ofSource?, cut, List.findSome?_append, skipped, List.findSome?_cons, required]
  rfl

/-! ## The verdict -/

/-- A requirement of clauses accepts the releases that every clause admits. -/
theorem accepts_comparators_iff {clauses : List Clause} {v : Version} (release : v.pre = []) :
    Requirement.accepts ⟨clauses.map Clause.comparator⟩ v = true ↔ ∀ clause ∈ clauses, clause.Admits v := by
  simp [Requirement.accepts, release, Clause.accepts_comparator_iff]

/-- Clauses name no pre-release, so together they accept none. -/
theorem accepts_comparators_of_pre (clauses : List Clause) {v : Version} (marked : v.pre ≠ []) :
    Requirement.accepts ⟨clauses.map Clause.comparator⟩ v = false := by
  have unnamed : (clauses.map Clause.comparator).any (·.admitsPreRelease v) = false := by
    simp [Comparator.admitsPreRelease, Clause.comparator]
  have part : v.pre.isEmpty = false := by simpa using marked
  rw [Requirement.accepts, unnamed, part, Bool.or_false, Bool.and_false]

/-- A requirement of clauses accepts the releases that every clause admits, and nothing else. -/
theorem accepts_clauses_iff {clauses : List Clause} {v : Version} :
    Requirement.accepts ⟨clauses.map Clause.comparator⟩ v = true ↔ v.pre = [] ∧ ∀ clause ∈ clauses, clause.Admits v := by
  by_cases release : v.pre = []
  · rw [accepts_comparators_iff release, and_iff_right release]
  · -- A pre-release may lie between the numbers of two clauses, and yet it is not accepted.
    simp [accepts_comparators_of_pre clauses release, release]

/-- A source whose first pragma line names up to 32 clauses passes exactly for the releases that all of them admit. -/
theorem check_eq_ok_iff_admits {clauses : List Clause} (nonempty : clauses ≠ []) (few : clauses.length ≤ 32)
    {line : List Char} (written : IsLine clauses line) {source : String} (first : IsFirstPragma line source)
    {v : Version} (release : v.pre = []) (name : String) :
    check v (.singleton name source) = .ok () ↔ ∀ clause ∈ clauses, clause.Admits v := by
  have text := ofSource?_of_isFirstPragma first (requirement?_line written nonempty)
  have refused := @refuses_iff v source _ _ text (Clause.parse_joined nonempty few)
  rw [← accepts_comparators_iff release, check_eq_ok_iff, NameMap.entries_singleton]
  simp [refused]

/-- Two bounds behind a comment, the operator of the first cut in two: a version between them passes, and the second
bound itself does not. -/
theorem check_between_bounds :
    check ⟨0, 5, 9, [], []⟩ (.singleton "Between.sol"
        "// Bounds\r\n\tpragma  solidity > = 0.5.0 <0.5.10 ;\r\ncontract Between \x7b\x7d") = .ok () ∧
      check ⟨0, 5, 10, [], []⟩ (.singleton "Between.sol"
        "// Bounds\r\n\tpragma  solidity > = 0.5.0 <0.5.10 ;\r\ncontract Between \x7b\x7d") ≠ .ok () := by
  have spaced : Spaced ['>', '='] "> = ".toList :=
    @Spaced.cons _ _ [' '] "= ".toList (by decide) (@Spaced.cons _ _ [' '] [] (by decide) .nil)
  have listed : Listed [⟨.greaterEq, 0, 5, 0⟩, ⟨.less, 0, 5, 10⟩] " > = 0.5.0 <0.5.10".toList :=
    @Listed.cons _ _ [' '] "> = ".toList " <0.5.10".toList (by decide) (by decide) spaced
      (@Listed.cons _ _ [' '] ['<'] [] (by decide) (by decide) (@Spaced.cons _ _ [] [] (by decide) .nil) .nil)
  have ended : IsEnd " ;\r".toList := @IsEnd.closed [' '] ['\r'] (by decide) (by decide)
  have written : IsLine [⟨.greaterEq, 0, 5, 0⟩, ⟨.less, 0, 5, 10⟩]
      "\tpragma  solidity > = 0.5.0 <0.5.10 ;\r".toList :=
    @IsLine.intro _ ['\t'] [' ', ' '] _ _ (by decide) (by decide) (by decide) listed ended
  have first : IsFirstPragma "\tpragma  solidity > = 0.5.0 <0.5.10 ;\r".toList
      "// Bounds\r\n\tpragma  solidity > = 0.5.0 <0.5.10 ;\r\ncontract Between \x7b\x7d" :=
    ⟨["// Bounds\r".toList], ["contract Between \x7b\x7d".toList], by decide, by decide⟩
  constructor
  · exact (check_eq_ok_iff_admits (by decide) (by decide) written first rfl _).2 (by decide)
  · intro passed
    have admitted := (check_eq_ok_iff_admits (by decide) (by decide) written first rfl _).1 passed
    exact absurd (admitted ⟨.less, 0, 5, 10⟩ (by decide)) (by decide)

end ProxyForge.Pragma
