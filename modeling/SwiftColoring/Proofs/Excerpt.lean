import Mathlib.Data.List.TakeWhile
import SwiftColoring.Diagnostic.Report
import SwiftColoring.Proofs.Place

/-!
# Places and lines agree

The lexer counts a new line at each line feed, and a report splits the source into lines that also
lose a carriage return before the line feed. Here the two are brought together: the line with the
number that a place has is the one that its character stands in, at the column that the place has,
and no character but a break is missing from it. Then the report is taken as it is printed: the line
stands behind its number and a bar, and below it the carets stand behind as many columns.

* `IsOnLine` — where a line lies in a source, and where in it a character.
* `exists_line` — the line that a place names is found, and holds what stands at the place.
* `Report.render_of_line` — what is printed where the line is found, character by character.
* `underlines_of_marked` — the carets of the printed lines stand below what stands at the place.
-/

namespace SwiftColoring

/-- The line is one of the source, without its break, and has the character of the index in the
column. -/
structure IsOnLine (source : List Char) (i : Nat) (line : List Char) (column : Nat) : Prop where
  /-- What stands around the line, with the breaks before it and behind it. -/
  split : ∃ above below, source = above ++ line ++ below ∧ above.length + column = i ∧
    (above = [] ∨ above.getLast? = some '\n') ∧
    (below = [] ∨ ['\n'] <+: below ∨ ['\r', '\n'] <+: below)
  noBreak : '\n' ∉ line

-- ---------------------------------------------------------------------------
-- Lines of a text
-- ---------------------------------------------------------------------------

section Lines

variable {begun line text : List Char}

/-- Behind a line feed the lines are counted afresh. -/
theorem linesFrom_drop (above : List Char) :
    (linesFrom begun (above ++ '\n' :: text)).drop (above.count '\n' + 1) = linesFrom [] text := by
  induction above generalizing begun with
  | nil => rfl
  | cons c above ih =>
    rw [List.cons_append, linesFrom]
    by_cases hc : c = '\n'
    · rw [if_pos hc, hc, List.count_cons_self, List.drop_succ_cons]
      exact ih
    · rw [if_neg hc, List.count_cons_of_ne hc]
      exact ih

/-- A line ends at its line feed, and the next one is counted afresh. -/
theorem linesFrom_of_break (h : '\n' ∉ line) :
    linesFrom begun (line ++ '\n' :: text) =
      (dropReturn (line.reverse ++ begun)).reverse :: linesFrom [] text := by
  induction line generalizing begun with
  | nil => rfl
  | cons c line ih =>
    obtain ⟨hc, hline⟩ := List.ne_and_not_mem_of_not_mem_cons h
    rw [List.cons_append, linesFrom, if_neg (Ne.symm hc), ih hline, List.reverse_cons,
      List.append_assoc]
    rfl

/-- What is left behind the last line feed is a line. -/
theorem linesFrom_of_last (h : '\n' ∉ line) (hne : line ≠ []) :
    linesFrom begun line = [begun.reverse ++ line] := by
  have hgeneral : ∀ begun line : List Char, '\n' ∉ line → begun ≠ [] →
      linesFrom begun line = [begun.reverse ++ line] := by
    intro begun line
    induction line generalizing begun with
    | nil =>
      intro _ hbegun
      rw [linesFrom, if_neg (by simpa using hbegun), List.append_nil]
    | cons c line ih =>
      intro h _
      obtain ⟨hc, hline⟩ := List.ne_and_not_mem_of_not_mem_cons h
      rw [linesFrom, if_neg (Ne.symm hc), ih (c :: begun) hline (by simp), List.reverse_cons,
        List.append_assoc]
      rfl
  obtain ⟨c, line, rfl⟩ := List.exists_cons_of_ne_nil hne
  obtain ⟨hc, hline⟩ := List.ne_and_not_mem_of_not_mem_cons h
  rw [linesFrom, if_neg (Ne.symm hc), hgeneral _ _ hline (by simp), List.reverse_cons,
    List.append_assoc]
  rfl

/-- A line without its carriage return has at most lost one. -/
theorem dropReturn_split (line : List Char) :
    ∃ lost, line = (dropReturn line.reverse).reverse ++ lost ∧ (lost = [] ∨ lost = ['\r']) := by
  generalize hback : line.reverse = back
  obtain rfl : line = back.reverse := by rw [← hback, List.reverse_reverse]
  unfold dropReturn
  split
  · exact ⟨['\r'], by rw [List.reverse_cons], .inr rfl⟩
  · exact ⟨[], by rw [List.append_nil], .inl rfl⟩

private theorem break_not_mem_takeWhile (text : List Char) : '\n' ∉ text.takeWhile (· != '\n') := by
  intro hmem
  have hne := List.mem_takeWhile_imp hmem
  simp at hne

/-- Only a carriage return can be lost, so that a start which does not end in one is kept. -/
private theorem length_le_of_lost {start more lost : List Char} {c : Char}
    (hsplit : start ++ more = line ++ lost) (hlost : lost = [] ∨ lost = ['\r'])
    (hlast : start.getLast? = some c) (hc : c ≠ '\r') : start.length ≤ line.length := by
  have hlength := congrArg List.length hsplit
  rw [List.length_append, List.length_append] at hlength
  rcases hlost with rfl | rfl
  · rw [List.length_nil] at hlength
    omega
  rw [List.length_singleton] at hlength
  rcases List.eq_nil_or_concat more with rfl | ⟨_, _, rfl⟩
  · rw [List.append_nil] at hsplit
    rw [hsplit, List.getLast?_concat] at hlast
    exact absurd (Option.some.inj hlast).symm hc
  · rw [List.concat_eq_append, List.length_append, List.length_singleton] at hlength
    omega

/-- The first line of a text holds whatever the text has before its first break. -/
theorem exists_first_line {start : List Char} (text : List Char) (hstart : '\n' ∉ start)
    (hlast : ∃ c, start.getLast? = some c ∧ c ≠ '\r') :
    ∃ line below, (lines (start ++ text))[0]? = some line ∧ start ++ text = line ++ below ∧
      start.length ≤ line.length ∧ '\n' ∉ line ∧
      (below = [] ∨ ['\n'] <+: below ∨ ['\r', '\n'] <+: below) := by
  obtain ⟨c, hc, hreturn⟩ := hlast
  set more := text.takeWhile (· != '\n') with hmore
  have hnoBreak : '\n' ∉ start ++ more := by
    rw [List.mem_append, not_or]
    exact ⟨hstart, break_not_mem_takeWhile text⟩
  have hsplit : start ++ text = (start ++ more) ++ text.dropWhile (· != '\n') := by
    rw [List.append_assoc, List.takeWhile_append_dropWhile]
  cases hbehind : text.dropWhile (· != '\n') with
  | nil =>
    rw [hbehind, List.append_nil] at hsplit
    have hne : start ++ more ≠ [] := by
      intro hnil
      rw [(List.append_eq_nil_iff.mp hnil).1] at hc
      cases hc
    refine ⟨start ++ more, [], ?_, by rw [List.append_nil, hsplit], by simp, hnoBreak, .inl rfl⟩
    rw [hsplit, lines, linesFrom_of_last hnoBreak hne]
    rfl
  | cons d below =>
    have hd : d = '\n' := by
      have hhead := List.head?_dropWhile_not (· != '\n') text
      rw [hbehind] at hhead
      simpa using hhead
    subst hd
    rw [hbehind] at hsplit
    obtain ⟨lost, hlost, hcases⟩ := dropReturn_split (start ++ more)
    set line := (dropReturn (start ++ more).reverse).reverse with hline
    refine ⟨line, lost ++ '\n' :: below, ?_, ?_, ?_, fun hmem => hnoBreak ?_, ?_⟩
    · rw [hsplit, lines, linesFrom_of_break hnoBreak, List.append_nil]
      rfl
    · rw [hsplit, ← List.append_assoc, ← hlost]
    · exact length_le_of_lost hlost hcases hc hreturn
    · rw [hlost]
      exact List.mem_append_left _ hmem
    · rcases hcases with rfl | rfl
      · exact .inr (.inl ⟨below, rfl⟩)
      · exact .inr (.inr ⟨below, rfl⟩)

/-- Behind whole lines, the lines of a text are counted afresh. -/
theorem lines_behind {above : List Char} (h : above = [] ∨ above.getLast? = some '\n') (text : List Char) :
    (lines (above ++ text))[above.count '\n']? = (lines text)[0]? := by
  rcases h with rfl | hlast
  · rfl
  · obtain ⟨first, rfl⟩ := List.getLast?_eq_some_iff.mp hlast
    have hdrop : (linesFrom [] (first ++ '\n' :: text)).drop (first.count '\n' + 1) = linesFrom [] text :=
      linesFrom_drop first
    rw [List.append_assoc, List.singleton_append, lines, lines, List.count_append,
      List.count_singleton_self, ← hdrop, List.getElem?_drop, Nat.add_zero]

end Lines

-- ---------------------------------------------------------------------------
-- The line of a place
-- ---------------------------------------------------------------------------

/-- A place behind a text counts the whole lines of the text, and the characters behind them. -/
theorem Pos.exists_line_start (passed : List Char) :
    ∃ above start, passed = above ++ start ∧ '\n' ∉ start ∧
      (above = [] ∨ above.getLast? = some '\n') ∧
      (Pos.behind passed).line = above.count '\n' ∧ (Pos.behind passed).column = start.length := by
  set start := (passed.reverse.takeWhile (· != '\n')).reverse with hstart
  set above := (passed.reverse.dropWhile (· != '\n')).reverse with habove
  have hpassed : passed = above ++ start := by
    rw [hstart, habove, ← List.reverse_append, List.takeWhile_append_dropWhile, List.reverse_reverse]
  have hnoBreak : '\n' ∉ start := by
    rw [hstart, List.mem_reverse]
    exact break_not_mem_takeWhile _
  refine ⟨above, start, hpassed, hnoBreak, ?_, ?_, ?_⟩
  · rw [habove, List.getLast?_reverse]
    have hhead := List.head?_dropWhile_not (· != '\n') passed.reverse
    cases hrest : passed.reverse.dropWhile (· != '\n') with
    | nil => exact .inl rfl
    | cons c rest =>
      rw [hrest] at hhead
      exact .inr (congrArg some (by simpa using hhead))
  · show passed.count '\n' = _
    rw [hpassed, List.count_append, List.count_eq_zero_of_not_mem hnoBreak, Nat.add_zero]
  · rw [hstart, List.length_reverse]
    rfl

/-- The line that a place names is found. It holds what stands at the place, in the column of the
place, as far as it is no break. -/
theorem exists_line {passed mark : List Char} (text : List Char) (hmark : mark ≠ [])
    (hplain : ∀ c ∈ mark, c ≠ '\n' ∧ c ≠ '\r') :
    ∃ line, (lines (passed ++ mark ++ text))[(Pos.behind passed).line]? = some line ∧
      IsOnLine (passed ++ mark ++ text) passed.length line (Pos.behind passed).column ∧
      (Pos.behind passed).column + mark.length ≤ line.length := by
  obtain ⟨above, start, hpassed, hnoBreak, hbreak, hline, hcolumn⟩ := Pos.exists_line_start passed
  have hmarked : '\n' ∉ start ++ mark := by
    rw [List.mem_append, not_or]
    exact ⟨hnoBreak, fun hmem => (hplain _ hmem).1 rfl⟩
  have hlast : ∃ c, (start ++ mark).getLast? = some c ∧ c ≠ '\r' := by
    obtain ⟨first, c, rfl⟩ := List.eq_nil_or_concat mark |>.resolve_left hmark
    refine ⟨c, ?_, (hplain c (by simp)).2⟩
    rw [List.concat_eq_append, ← List.append_assoc, List.getLast?_concat]
  obtain ⟨line, below, hfound, hsplit, hlength, hnone, hbelow⟩ := exists_first_line text hmarked hlast
  have hwhole : passed ++ mark ++ text = above ++ (start ++ mark ++ text) := by
    rw [hpassed]
    simp only [List.append_assoc]
  refine ⟨line, ?_, ⟨⟨above, below, ?_, ?_, hbreak, hbelow⟩, hnone⟩, ?_⟩
  · rw [hwhole, hline, lines_behind hbreak, hfound]
  · rw [hwhole, hsplit, List.append_assoc]
  · rw [hcolumn, hpassed, List.length_append]
  · rw [hcolumn, ← List.length_append]
    exact hlength

-- ---------------------------------------------------------------------------
-- The line that a report finds
-- ---------------------------------------------------------------------------

/-- What stands at a place stands in the column of its line. -/
theorem IsOnLine.take_drop {passed mark text line : List Char} {column : Nat}
    (h : IsOnLine (passed ++ mark ++ text) passed.length line column)
    (hfits : column + mark.length ≤ line.length) : (line.drop column).take mark.length = mark := by
  obtain ⟨above, below, hsplit, hlength, -, -⟩ := h.split
  have hbehind := congrArg (List.drop passed.length) hsplit
  rw [List.append_assoc, List.drop_left, List.append_assoc, ← hlength, ← List.drop_drop,
    List.drop_left, List.drop_append_of_le_length (by omega)] at hbehind
  have htake := congrArg (List.take mark.length) hbehind
  rw [List.take_left, List.take_append_of_le_length (by rw [List.length_drop]; omega)] at htake
  exact htake.symm

/-- The stretch is on one line, starts where the mark does, and is as wide or empty. Then its line is
found, and the mark is underlined. -/
theorem Excerpt.ofSource?_of_mark {passed mark : List Char} (text : List Char) {span : Span}
    (hmark : mark ≠ []) (hplain : ∀ c ∈ mark, c ≠ '\n' ∧ c ≠ '\r')
    (hstart : span.start = Pos.behind passed) (hline : span.stop.line = span.start.line)
    (hwidth : max 1 (span.stop.column - span.start.column) = mark.length) :
    ∃ line, Excerpt.ofSource? (passed ++ mark ++ text) span =
        some ⟨line, span.start.column, mark.length⟩ ∧
      IsOnLine (passed ++ mark ++ text) passed.length line span.start.column ∧
      span.start.column + mark.length ≤ line.length := by
  obtain ⟨line, hfound, hon, hfits⟩ := exists_line text hmark hplain
  rw [← hstart] at hfound hon hfits
  have hunderline : underline span line = mark.length := by
    have hcount : span.lineCount = 1 := by
      rw [Span.lineCount, hline, Nat.sub_self]
    unfold underline
    simp only [hcount, beq_self_eq_true, if_true]
    omega
  refine ⟨line, ?_, hon, hfits⟩
  rw [Excerpt.ofSource?, hfound, Option.map_some, hunderline]

-- ---------------------------------------------------------------------------
-- The lines that a report prints
-- ---------------------------------------------------------------------------

/-- A line of source as a report prints it, behind its number and a bar. -/
def printedLine (paint : Painter) (number : String) (line : List Char) : String :=
  paint .heavy number ++ " " ++ paint .heavy "|" ++ " " ++ String.ofList line

/-- The carets as a report prints them, behind blanks as wide as the number, a bar, and a blank for
each column before them. -/
def printedCarets (paint : Painter) (number : String) (column width : Nat) : String :=
  String.ofList (List.replicate (number.length + 1) ' ') ++ paint .heavy "|" ++ " " ++
    String.ofList (List.replicate column ' ') ++
    paint (.heavyIn .red) (String.ofList (List.replicate width '^'))

/-- A report on a line that is found, as it is printed: what is wrong, the place, an empty line, the
line of source and the carets. -/
theorem Report.render_of_line (paint : Painter) (path : String) {source line : List Char}
    {fault : Fault} {message : String} {span : Span} {width : Nat}
    (h : Excerpt.ofSource? source span = some ⟨line, span.start.column, width⟩) :
    Report.render paint (some path) (some source) ⟨fault, message, some span⟩ =
      let number := toString (span.start.line + 1)
      paint (.heavyIn .red) (fault.render ++ ":") ++ " " ++ paint .heavy message ++ "\n" ++
        (String.ofList (List.replicate number.length ' ') ++ paint .heavy "-->" ++ " " ++ path ++
          ":" ++ number ++ ":" ++ toString (span.start.column + 1) ++ "\n" ++
        (String.ofList (List.replicate (number.length + 1) ' ') ++ paint .heavy "|" ++ "\n" ++
          printedLine paint number line ++ "\n" ++
          printedCarets paint number span.start.column width ++ "\n")) ++ "\n" := by
  simp only [Report.render, Report.place, Report.location, Report.excerpt, blanks, Span.render,
    Pos.render, printedLine, printedCarets, Option.bind_some, h, String.append_assoc]
  rfl

-- ---------------------------------------------------------------------------
-- What readers see
-- ---------------------------------------------------------------------------

section Columns

variable {number : String} {line mark : List Char} {column width : Nat}

/-- Behind the number, the bar and the blanks around it, the line is as it is in the source. -/
theorem drop_printedLine (number : String) (line : List Char) (column : Nat) :
    (printedLine .plain number line).toList.drop (number.length + 3 + column) = line.drop column := by
  have hmargin : (number.toList ++ [' ', '|', ' ']).length = number.length + 3 := by
    rw [List.length_append, String.length_toList]
    rfl
  have hsplit : (printedLine .plain number line).toList =
      (number.toList ++ [' ', '|', ' ']) ++ line := by
    simp [printedLine, Painter.plain]
  rw [hsplit, ← hmargin, ← List.drop_drop, List.drop_left]

/-- The carets stand in the columns of the mark and nowhere else. -/
theorem printedCarets_getElem? (number : String) (column width k : Nat) :
    (printedCarets .plain number column width).toList[k]? = some '^' ↔
      number.length + 3 + column ≤ k ∧ k < number.length + 3 + column + width := by
  set margin := List.replicate (number.length + 1) ' ' ++ ['|', ' '] ++ List.replicate column ' '
    with hmargin
  have hlength : margin.length = number.length + 3 + column := by
    simp only [hmargin, List.length_append, List.length_replicate, List.length_cons, List.length_nil]
  have hblank : '^' ∉ margin := by
    rw [hmargin]
    simp
  have hsplit : (printedCarets .plain number column width).toList =
      margin ++ List.replicate width '^' := by
    simp [printedCarets, Painter.plain, hmargin]
  rw [hsplit, ← hlength]
  by_cases hk : k < margin.length
  · rw [List.getElem?_append_left hk]
    constructor
    · intro hcaret
      exact absurd (List.mem_of_getElem? hcaret) hblank
    · omega
  · rw [List.getElem?_append_right (by omega), List.getElem?_replicate]
    constructor
    · intro hcaret
      have hlt : k - margin.length < width := by
        refine Nat.lt_of_not_le fun hge => ?_
        rw [if_neg (by omega)] at hcaret
        cases hcaret
      omega
    · intro hbetween
      exact if_pos (by omega)

/-- The carets of the printed lines stand below the mark, one below each of its characters and none
elsewhere, and the mark ends within the line. -/
structure Underlines (number : String) (line : List Char) (column : Nat) (mark : List Char) : Prop where
  fits : column + mark.length ≤ line.length
  above : ((printedLine .plain number line).toList.drop (number.length + 3 + column)).take mark.length =
    mark
  below : ∀ k, (printedCarets .plain number column mark.length).toList[k]? = some '^' ↔
    number.length + 3 + column ≤ k ∧ k < number.length + 3 + column + mark.length

/-- What stands in the column of a line is underlined. -/
theorem underlines_of_marked (number : String) (hfits : column + mark.length ≤ line.length)
    (hmarked : (line.drop column).take mark.length = mark) : Underlines number line column mark where
  fits := hfits
  above := by
    rw [drop_printedLine]
    exact hmarked
  below := printedCarets_getElem? number column mark.length

end Columns

namespace Painter.SeenBy

variable {paint : Painter} {seen : String → String} {number : String}

/-- Paint takes no room before the line of source. -/
theorem printedLine (h : paint.SeenBy seen) (hnumber : '\x1b' ∉ number.toList) (line : List Char)
    (rest : String) : seen (printedLine paint number line ++ rest) =
      number ++ " | " ++ seen (String.ofList line ++ rest) := by
  simp only [SwiftColoring.printedLine, String.append_assoc]
  rw [h.painted _ _ _ hnumber, h.unpainted " " _ (by decide), h.painted _ _ _ (by decide),
    h.unpainted " " _ (by decide)]
  have hbar : " | " = " " ++ ("|" ++ " ") := rfl
  rw [hbar]
  simp only [String.append_assoc]

/-- Nor does it among the carets. -/
theorem printedCarets (h : paint.SeenBy seen) (number : String) (column width : Nat) (rest : String) :
    seen (printedCarets paint number column width ++ rest) =
      SwiftColoring.printedCarets .plain number column width ++ seen rest := by
  have hplain (n : Nat) {c : Char} (hc : '\x1b' ≠ c) :
      '\x1b' ∉ (String.ofList (List.replicate n c)).toList := by
    rw [String.toList_ofList]
    exact fun hmem => hc (List.eq_of_mem_replicate hmem)
  simp only [SwiftColoring.printedCarets, String.append_assoc]
  rw [h.unpainted _ _ (hplain _ (by decide)), h.painted _ _ _ (by decide),
    h.unpainted " " _ (by decide), h.unpainted _ _ (hplain _ (by decide)),
    h.painted _ _ _ (hplain _ (by decide))]
  rfl

end Painter.SeenBy

/-- The decimal digits of a number are seen as they are. -/
theorem escape_not_mem_toString (n : Nat) : '\x1b' ∉ (toString n).toList := by
  intro hmem
  rw [Nat.toString_eq_repr, Nat.repr, String.toList_ofList] at hmem
  exact absurd (Nat.isDigit_of_mem_toDigits (by decide) (by decide) hmem) (by decide)

end SwiftColoring
