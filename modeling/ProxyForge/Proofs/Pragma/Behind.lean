import Mathlib.Data.List.TakeWhile
import ProxyForge.Proofs.Pragma.Line

/-!
# Behind the clauses of a pragma line

The words of a pragma line are read to its end, whatever stands there. Operators without a version behind the clauses
are dropped, so the line requires what its clauses require (`check_unfinished_eq_ok_iff`). The semicolon does not end
the pragma: words behind it are further comparators, and what is glued to it spoils the last clause
(`check_behind_semicolon`). Only words without a version may stand there and change nothing.
-/

namespace ProxyForge.Pragma

/-- The lines of clauses up to the semicolon behind them. -/
inductive IsClosed (clauses : List Clause) : List Char → Prop where
  | intro {indent gap written : List Char} (indented : IsGap indent) (apart : IsGap gap) (nonempty : gap ≠ [])
    (listed : Listed clauses written) :
    IsClosed clauses (indent ++ ("pragma".toList ++ (gap ++ ("solidity".toList ++ (written ++ [';'])))))

/-- The lines whose clauses are followed by operators without a version; `between` is the gap in front of them. -/
inductive IsUnfinished (clauses : List Clause) (between : List Char) : List Char → Prop where
  | intro {indent gap written pending tail : List Char} {c : Char} {chars : List Char} (indented : IsGap indent)
    (apart : IsGap gap) (nonempty : gap ≠ []) (listed : Listed clauses written) (behind : IsGap between)
    (separate : clauses = [] → between ≠ []) (operators : ∀ d ∈ c :: chars, isOperator d = true)
    (spaced : Spaced (c :: chars) pending) (ended : IsEnd tail) :
    IsUnfinished clauses between
      (indent ++ ("pragma".toList ++ (gap ++ ("solidity".toList ++ (written ++ (between ++ (pending ++ tail)))))))

/-- A text without a version: its words are operators, with semicolons at their ends. -/
def IsVersionless (cs : List Char) : Prop :=
  ∀ w ∈ Text.words cs, ∀ c ∈ Text.dropEndWhile (· == ';') w, isOperator c = true

instance : DecidablePred IsVersionless := fun cs =>
  @List.decidableBAll _ _ (fun w => List.decidableBAll (isOperator · = true) (Text.dropEndWhile (· == ';') w))
    (Text.words cs)

/-! ## Words that are no comparator -/

/-- Words are no comparator exactly when none of them has a version, whatever operator is left from before. -/
theorem comparators_eq_nil_iff {operator : List Char} {words : List (List Char)} :
    comparators operator words = [] ↔ ∀ w ∈ words, ∀ c ∈ Text.dropEndWhile (· == ';') w, isOperator c = true := by
  induction words generalizing operator with
  | nil => simp [comparators]
  | cons w words ih =>
    rw [comparators, List.forall_mem_cons, ← List.dropWhile_eq_nil_iff]
    split
    · rename_i versionless
      rw [ih, and_iff_right (List.isEmpty_iff.1 versionless)]
    · rename_i version
      have version : (Text.dropEndWhile (· == ';') w).dropWhile isOperator ≠ [] := by simpa using version
      simp [version]

/-! ## Text glued to a clause -/

/-- A clause that something is glued to stays in front of it in the requirement. -/
theorem exists_comparators_glued {clauses : List Clause} {written : List Char} (listed : Listed clauses written)
    (nonempty : clauses ≠ []) {glued more : List Char} (word : ∀ c ∈ glued, Text.isBlank c = false)
    (apart : Text.StartsApart more) :
    ∃ rest, List.intercalate [','] (comparators [] (Text.words (written ++ (glued ++ more)))) =
      Clause.joined clauses ++ (Text.dropEndWhile (· == ';') glued ++ rest) := by
  induction listed with
  | nil => exact absurd rfl nonempty
  | @cons clause clauses gap operator written gapped separate spaced listed ih =>
    have first : comparators [] (Text.words (gap ++ (operator ++ (clause.numerals ++ written)) ++ (glued ++ more))) =
        comparators clause.operator.chars (Text.words (clause.numerals ++ (written ++ (glued ++ more)))) := by
      rw [List.append_assoc, List.append_assoc, List.append_assoc, comparators_clause gapped spaced]
    rw [first]
    by_cases last : clauses = []
    · subst last
      cases listed
      rw [List.nil_append, comparators_numerals_append clause word apart, Clause.joined_singleton]
      cases comparators [] (Text.words more) with
      | nil => exact ⟨[], by rw [List.intercalate_singleton, List.append_nil]⟩
      | cons next others => exact ⟨_, by rw [List.intercalate_cons_cons, List.append_assoc, List.append_assoc]⟩
    · obtain ⟨rest, read⟩ := ih last
      have closes : Closes (written ++ (glued ++ more)) := .of_startsApart (listed.startsApart (absurd · last))
      have others : comparators [] (Text.words (written ++ (glued ++ more))) ≠ [] := by
        intro empty
        rw [empty] at read
        exact Clause.joined_ne_nil last (List.append_eq_nil_iff.1 read.symm).1
      obtain ⟨d, ds, rfl⟩ := List.exists_cons_of_ne_nil last
      refine ⟨rest, ?_⟩
      rw [comparators_numerals clause closes, List.intercalate_cons_of_ne_nil others, read, Clause.joined_cons_cons]
      simp

theorem stops_of_isOperator {c : Char} (operator : isOperator c = true) (rest : List Char) :
    Clause.Stops (c :: rest) ∧ c ≠ ',' := by
  simp only [isOperator, Bool.or_eq_true, decide_eq_true_eq] at operator
  simp only [Clause.Stops, List.head?_cons, Option.some.injEq, forall_eq']
  rcases operator with (((rfl | rfl) | rfl) | rfl) | rfl <;> decide

/-- A line with a text glued to its last clause requires nothing that can be read. -/
theorem requirement?_glued {clauses : List Clause} {indent gap written : List Char} (indented : IsGap indent)
    (apart : IsGap gap) (nonempty : gap ≠ []) (listed : Listed clauses written) (some_clause : clauses ≠ [])
    {c : Char} {rest glued more : List Char} (word : ∀ d ∈ glued, Text.isBlank d = false)
    (behind : Text.StartsApart more) (trimmed : Text.dropEndWhile (· == ';') glued = c :: rest)
    (stops : Clause.Stops (c :: rest)) (other : c ≠ ',') :
    ∃ text fault, requirement? (indent ++ ("pragma".toList ++ (gap ++ ("solidity".toList ++
      (written ++ (glued ++ more)))))) = some text ∧ Requirement.parse text = .error fault := by
  obtain ⟨further, read⟩ := exists_comparators_glued listed some_clause word behind
  rw [trimmed] at read
  have stops : Clause.Stops (c :: (rest ++ further)) := fun d hd => stops d hd
  obtain ⟨fault, unread⟩ := Clause.parse_joined_glued some_clause stops other
  refine ⟨_, fault, ?_, unread⟩
  rw [requirement?_words indented apart nonempty (listed.startsApart (absurd · some_clause)), read, List.cons_append]

/-! ## Operators behind the clauses -/

theorem meets_joined_iff {v : Version} {clauses : List Clause} : Meets v (Clause.joined clauses) ↔
    clauses ≠ [] ∧ clauses.length ≤ 32 ∧ v.pre = [] ∧ ∀ clause ∈ clauses, clause.Admits v := by
  simp only [Meets, Clause.parse_joined_eq_ok_iff, ← accepts_clauses_iff]
  constructor
  · rintro ⟨_, ⟨nonempty, few, rfl⟩, accepted⟩
    exact ⟨nonempty, few, accepted⟩
  · rintro ⟨nonempty, few, accepted⟩
    exact ⟨_, ⟨nonempty, few, rfl⟩, accepted⟩

/-- Operators apart from the clauses are no part of the requirement. -/
theorem requirement?_unfinished {clauses : List Clause} {between line : List Char}
    (unfinished : IsUnfinished clauses between line) (apart : between ≠ []) :
    requirement? line = some (Clause.joined clauses) := by
  obtain ⟨indented, gapped, nonempty, listed, behind, -, operators, spaced, ended⟩ := unfinished
  rename_i indent gap written pending tail c chars
  have separated : Text.StartsApart (between ++ (pending ++ tail)) := .blank_append behind.isBlank apart _
  rw [requirement?_words indented gapped nonempty (listed.startsApart fun _ => separated),
    comparators_listed listed (.of_startsApart separated), Text.words_blank_append behind.isBlank,
    comparators_spaced spaced operators, ended.comparators_eq_nil, List.append_nil]
  rfl

/-- An operator that is glued to the last clause spoils it. -/
theorem requirement?_unfinished_glued {clauses : List Clause} {line : List Char}
    (unfinished : IsUnfinished clauses [] line) :
    ∃ text fault, requirement? line = some text ∧ Requirement.parse text = .error fault := by
  obtain ⟨indented, gapped, nonempty, listed, -, separate, operators, spaced, ended⟩ := unfinished
  rename_i indent gap written pending tail c chars
  have operator : isOperator c = true := operators c List.mem_cons_self
  cases spaced with
  | @cons _ _ between pending _ _ =>
    have stretch := List.takeWhile_append_dropWhile (p := fun d => !Text.isBlank d) (l := between ++ pending ++ tail)
    rw [List.nil_append, List.cons_append, ← stretch, ← List.cons_append]
    apply requirement?_glued indented gapped nonempty listed (fun empty => separate empty rfl)
    · intro d hd
      rcases List.mem_cons.1 hd with rfl | hd
      · exact isBlank_of_isOperator operator
      · simpa using List.mem_takeWhile_imp hd
    · exact Text.StartsApart.dropWhile _
    · exact Text.dropEndWhile_cons_of_neg (by simpa using ne_semicolon_of_isOperator operator) _
    · exact (stops_of_isOperator operator _).1
    · exact (stops_of_isOperator operator []).2

/-- Operators without a version behind the clauses of a line are refused only where they touch the last clause. Apart
from it they are dropped, and a source whose first pragma line it is passes exactly for the releases that every clause
admits, as it does without them. -/
theorem check_unfinished_eq_ok_iff {clauses : List Clause} {between line : List Char}
    (unfinished : IsUnfinished clauses between line) {source : String} (first : IsFirstPragma line source) (v : Version)
    (name : String) :
    (check v (.singleton name source) = .ok () ↔ between ≠ [] ∧ clauses ≠ [] ∧ clauses.length ≤ 32 ∧ v.pre = [] ∧
      ∀ clause ∈ clauses, clause.Admits v) ∧
    ∀ finished other, between ≠ [] → clauses ≠ [] → IsLine clauses finished → IsFirstPragma finished other →
      check v (.singleton name source) = check v (.singleton name other) := by
  constructor
  · by_cases apart : between = []
    · subst apart
      obtain ⟨text, fault, required, unread⟩ := requirement?_unfinished_glued unfinished
      rw [check_singleton_eq_ok_iff (ofSource?_of_isFirstPragma first required)]
      simp [Meets, unread]
    · have required := requirement?_unfinished unfinished apart
      rw [check_singleton_eq_ok_iff (ofSource?_of_isFirstPragma first required), meets_joined_iff, and_iff_right apart]
  · intro finished other apart nonempty written firstOther
    have required := ofSource?_of_isFirstPragma first (requirement?_unfinished unfinished apart)
    have same := ofSource?_of_isFirstPragma firstOther (requirement?_line written nonempty)
    rw [check_singleton, check_singleton, checkSource_congr v name (required.trans same.symm)]

theorem isUnfinished_caret : IsUnfinished [⟨.caret, 0, 5, 0⟩] [' '] "pragma solidity ^0.5.0 > =;".toList := by
  have listed : Listed [⟨.caret, 0, 5, 0⟩] " ^0.5.0".toList :=
    @Listed.cons _ _ [' '] ['^'] [] (by decide) (by decide) (@Spaced.cons _ _ [] [] (by decide) .nil) .nil
  have operators : ∀ d ∈ ['>', '='], isOperator d = true := by simp [isOperator]
  have spaced : Spaced ['>', '='] "> =".toList :=
    @Spaced.cons _ _ [' '] ['='] (by decide) (@Spaced.cons _ _ [] [] (by decide) .nil)
  have ended : IsEnd [';'] := @IsEnd.closed [] [] (by decide) (by decide)
  exact @IsUnfinished.intro _ [' '] [] [' '] _ _ _ _ _ (by decide) (by decide) (by decide) listed (by decide) (by simp)
    operators spaced ended

/-- Operators behind a clause pass for a release that the clause admits, and another one does not. -/
theorem check_unfinished_caret :
    check ⟨0, 5, 6, [], []⟩ (.singleton "Open.sol" "pragma solidity ^0.5.0 > =;") = .ok () ∧
      check ⟨0, 6, 0, [], []⟩ (.singleton "Open.sol" "pragma solidity ^0.5.0 > =;") ≠ .ok () := by
  have first : IsFirstPragma "pragma solidity ^0.5.0 > =;".toList "pragma solidity ^0.5.0 > =;" :=
    ⟨[], [], by decide, by decide⟩
  constructor
  · exact (check_unfinished_eq_ok_iff isUnfinished_caret first _ _).1.2 (by decide)
  · intro passed
    obtain ⟨-, -, -, -, admitted⟩ := (check_unfinished_eq_ok_iff isUnfinished_caret first _ _).1.1 passed
    exact absurd (admitted ⟨.caret, 0, 5, 0⟩ (by decide)) (by decide)

/-- A line that ends in operators without a version is not refused. -/
theorem check_passes_unfinished :
    IsUnfinished [⟨.caret, 0, 5, 0⟩] [' '] "pragma solidity ^0.5.0 > =;".toList ∧
      IsFirstPragma "pragma solidity ^0.5.0 > =;".toList "pragma solidity ^0.5.0 > =;" ∧
      check ⟨0, 5, 6, [], []⟩ (.singleton "Open.sol" "pragma solidity ^0.5.0 > =;") = .ok () :=
  ⟨isUnfinished_caret, ⟨[], [], by decide, by decide⟩, rfl⟩

/-! ## Text behind the semicolon -/

theorem IsClosed.isLine {clauses : List Clause} {line : List Char} (closed : IsClosed clauses line) :
    IsLine clauses line := by
  obtain ⟨indented, gapped, nonempty, listed⟩ := closed
  exact .intro indented gapped nonempty listed (@IsEnd.closed [] [] (by decide) (by decide))

/-- Words apart from the semicolon are further comparators. -/
theorem requirement?_behind {clauses : List Clause} (nonempty : clauses ≠ []) {line : List Char}
    (closed : IsClosed clauses line) {t : List Char} (apart : Text.StartsApart (t.dropWhile (· == ';'))) :
    requirement? (line ++ t) = some (List.intercalate [','] (clauses.map Clause.text ++
      comparators [] (Text.words (t.dropWhile (· == ';'))))) := by
  obtain ⟨indented, gapped, separate, listed⟩ := closed
  rename_i indent gap written
  have all : ∀ c ∈ ';' :: t.takeWhile (· == ';'), (c == ';') = true := by
    intro c hc
    rcases List.mem_cons.1 hc with rfl | hc
    · rfl
    · exact List.mem_takeWhile_imp (p := (· == ';')) hc
  have tail : ';' :: t = (';' :: t.takeWhile (· == ';')) ++ t.dropWhile (· == ';') := by
    rw [List.cons_append, List.takeWhile_append_dropWhile]
  have closes : Closes (';' :: t) := ⟨_, _, tail, all, apart⟩
  have whole : indent ++ ("pragma".toList ++ (gap ++ ("solidity".toList ++ (written ++ [';'])))) ++ t =
      indent ++ ("pragma".toList ++ (gap ++ ("solidity".toList ++ (written ++ ';' :: t)))) := by
    simp only [List.append_assoc, List.singleton_append]
  rw [whole, requirement?_words indented gapped separate (listed.startsApart (absurd · nonempty)),
    comparators_listed listed closes, tail, comparators_semicolons all apart]

/-- A text that does not stand apart from the semicolons in front of it begins with a word that is glued to them. -/
theorem exists_glued {t : List Char} (touching : ¬ Text.StartsApart (t.dropWhile (· == ';'))) :
    ∃ semicolons c w more, t = semicolons ++ (c :: w) ++ more ∧ (∀ d ∈ semicolons, Text.isBlank d = false) ∧
      (∀ d ∈ c :: w, Text.isBlank d = false) ∧ (c == ';') = false ∧ Text.StartsApart more := by
  obtain ⟨c, head, visible⟩ : ∃ c, (t.dropWhile (· == ';')).head? = some c ∧ Text.isBlank c = false := by
    simpa [Text.StartsApart] using touching
  obtain ⟨rest, behind⟩ := List.head?_eq_some_iff.1 head
  refine ⟨t.takeWhile (· == ';'), c, rest.takeWhile fun d => !Text.isBlank d, rest.dropWhile fun d => !Text.isBlank d,
    ?_, fun d hd => ?_, fun d hd => ?_, ?_, .dropWhile rest⟩
  · rw [List.append_assoc, List.cons_append, List.takeWhile_append_dropWhile, ← behind,
      List.takeWhile_append_dropWhile]
  · exact isBlank_of_semicolon (List.mem_takeWhile_imp (p := (· == ';')) hd)
  · rcases List.mem_cons.1 hd with rfl | hd
    · exact visible
    · simpa using List.mem_takeWhile_imp hd
  · have stopped := List.head?_dropWhile_not (· == ';') t
    rwa [head] at stopped

/-- What is glued to the semicolon spoils the last clause. -/
theorem requirement?_behind_glued {clauses : List Clause} (nonempty : clauses ≠ []) {line : List Char}
    (closed : IsClosed clauses line) {t : List Char} (touching : ¬ Text.StartsApart (t.dropWhile (· == ';'))) :
    ∃ text fault, requirement? (line ++ t) = some text ∧ Requirement.parse text = .error fault := by
  obtain ⟨indented, gapped, separate, listed⟩ := closed
  rename_i indent gap written
  obtain ⟨semicolons, c, w, more, rfl, blankless, word, other, apart⟩ := exists_glued touching
  have whole : indent ++ ("pragma".toList ++ (gap ++ ("solidity".toList ++ (written ++ [';'])))) ++
      (semicolons ++ (c :: w) ++ more) =
      indent ++ ("pragma".toList ++ (gap ++ ("solidity".toList ++ (written ++
        (';' :: semicolons ++ (c :: w) ++ more))))) := by
    simp only [List.append_assoc, List.cons_append, List.nil_append]
  have kept : Text.dropEndWhile (· == ';') (c :: w) ≠ [] := by
    rw [Text.dropEndWhile_cons_of_neg (p := (· == ';')) other]
    exact List.cons_ne_nil _ _
  rw [whole]
  apply requirement?_glued indented gapped separate listed nonempty _ apart
    (Text.dropEndWhile_append_of_ne_nil (';' :: semicolons) kept)
  · simp [Clause.Stops]
  · decide
  · intro d hd
    simp only [List.cons_append, List.mem_cons, List.mem_append] at hd
    rcases hd with rfl | hd | hd
    · decide
    · exact blankless d hd
    · exact word d (by simpa using hd)

/-- Of the releases, those that satisfy clauses and further comparators satisfy the clauses. -/
theorem Meets.of_further {v : Version} (release : v.pre = []) {clauses : List Clause} (nonempty : clauses ≠ [])
    (few : clauses.length ≤ 32) {further : List (List Char)}
    (met : Meets v (List.intercalate [','] (clauses.map Clause.text ++ further))) : Meets v (Clause.joined clauses) := by
  by_cases empty : further = []
  · rwa [empty, List.append_nil] at met
  · obtain ⟨r, read, accepted⟩ := met
    obtain ⟨more, behind⟩ := Clause.readComparators_joined_comma nonempty 32 (List.intercalate [','] further)
    rw [Clause.intercalate_text_append nonempty empty, Clause.parse_joined_append nonempty, behind] at read
    cases more with
    | error fault => cases read
    | ok others =>
      rw [← Except.ok.inj read] at accepted
      refine ⟨_, Clause.parse_joined nonempty few, ?_⟩
      simp only [Requirement.accepts, release, List.all_append, Bool.and_eq_true, List.isEmpty_nil, Bool.true_or,
        and_true] at accepted ⊢
      exact accepted.1

/-- The text behind the semicolon of a pragma counts: what is glued to the semicolon is refused, and other words are
further comparators. So nothing changes where no word has a version, and of the releases a text behind the semicolon
lets none in that the pragma alone refuses. -/
theorem check_behind_semicolon {clauses : List Clause} (nonempty : clauses ≠ []) (few : clauses.length ≤ 32)
    {line t : List Char} (closed : IsClosed clauses line) {source : String} (first : IsFirstPragma (line ++ t) source)
    (v : Version) (name : String) :
    let behind := t.dropWhile (· == ';')
    (check v (.singleton name source) = .ok () ↔ Text.StartsApart behind ∧
      Meets v (List.intercalate [','] (clauses.map Clause.text ++ comparators [] (Text.words behind)))) ∧
    ∀ alone, IsFirstPragma line alone →
      (Text.StartsApart behind → IsVersionless behind →
        check v (.singleton name source) = check v (.singleton name alone)) ∧
      (v.pre = [] → check v (.singleton name source) = .ok () → check v (.singleton name alone) = .ok ()) := by
  intro behind
  have verdict : check v (.singleton name source) = .ok () ↔ Text.StartsApart behind ∧
      Meets v (List.intercalate [','] (clauses.map Clause.text ++ comparators [] (Text.words behind))) := by
    by_cases apart : Text.StartsApart behind
    · rw [check_singleton_eq_ok_iff (ofSource?_of_isFirstPragma first (requirement?_behind nonempty closed apart)),
        and_iff_right apart]
    · obtain ⟨text, fault, required, unread⟩ := requirement?_behind_glued nonempty closed apart
      rw [check_singleton_eq_ok_iff (ofSource?_of_isFirstPragma first required)]
      simp [Meets, unread, apart]
  refine ⟨verdict, fun alone firstAlone => ?_⟩
  have required := ofSource?_of_isFirstPragma firstAlone (requirement?_line closed.isLine nonempty)
  constructor
  · intro apart versionless
    have read := requirement?_behind nonempty closed apart
    rw [comparators_eq_nil_iff.2 versionless, List.append_nil] at read
    rw [check_singleton, check_singleton,
      checkSource_congr v name ((ofSource?_of_isFirstPragma first read).trans required.symm)]
  · intro release passed
    rw [check_singleton_eq_ok_iff required]
    exact .of_further release nonempty few (verdict.1 passed).2

theorem isClosed_caret : IsClosed [⟨.caret, 0, 5, 6⟩] "pragma solidity ^0.5.6;".toList :=
  @IsClosed.intro _ [] [' '] " ^0.5.6".toList (by decide) (by decide) (by decide)
    (@Listed.cons _ _ [' '] ['^'] [] (by decide) (by decide) (@Spaced.cons _ _ [] [] (by decide) .nil) .nil)

/-- A comment behind the semicolon is refused, and a second semicolon changes nothing. -/
theorem check_behind_comment :
    check ⟨0, 5, 6, [], []⟩ (.singleton "Noted.sol" "pragma solidity ^0.5.6; // stable") ≠ .ok () ∧
      check ⟨0, 5, 6, [], []⟩ (.singleton "Noted.sol" "pragma solidity ^0.5.6; ;") =
        check ⟨0, 5, 6, [], []⟩ (.singleton "Noted.sol" "pragma solidity ^0.5.6;") := by
  have comment : IsFirstPragma ("pragma solidity ^0.5.6;".toList ++ " // stable".toList)
      "pragma solidity ^0.5.6; // stable" := ⟨[], [], by decide, by decide⟩
  have semicolon : IsFirstPragma ("pragma solidity ^0.5.6;".toList ++ " ;".toList) "pragma solidity ^0.5.6; ;" :=
    ⟨[], [], by decide, by decide⟩
  have alone : IsFirstPragma "pragma solidity ^0.5.6;".toList "pragma solidity ^0.5.6;" :=
    ⟨[], [], by decide, by decide⟩
  constructor
  · intro passed
    obtain ⟨-, requirement, read, -⟩ :=
      (check_behind_semicolon (by decide) (by decide) isClosed_caret comment _ _).1.1 passed
    have unread : Requirement.parse "^0.5.6,=//,=stable".toList = .error (.unexpectedChar .major '/') := rfl
    cases unread.symm.trans read
  · exact ((check_behind_semicolon (by decide) (by decide) isClosed_caret semicolon _ _).2 _ alone).1
      (by decide) (by decide)

/-- A comment behind the semicolon of a pragma is not passed over: the version passes without it, and with it the
requirement cannot be read. -/
theorem check_reads_comment :
    IsClosed [⟨.caret, 0, 5, 6⟩] "pragma solidity ^0.5.6;".toList ∧
      check ⟨0, 5, 6, [], []⟩ (.singleton "Noted.sol" "pragma solidity ^0.5.6;") = .ok () ∧
      check ⟨0, 5, 6, [], []⟩ (.singleton "Noted.sol" "pragma solidity ^0.5.6; // stable") =
        .error (.invalid "^0.5.6,=//,=stable" "Noted.sol" (.unexpectedChar .major '/')) :=
  ⟨isClosed_caret, rfl, rfl⟩

end ProxyForge.Pragma
