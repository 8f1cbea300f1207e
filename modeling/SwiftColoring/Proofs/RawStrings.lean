import SwiftColoring.Proofs.Spelling
import SwiftColoring.Proofs.TextUnits

/-!
# Raw strings

A raw string is number signs, a quote, a body, the same quote and as many number signs again. Its quote is
one mark or three, and nothing in the body is looked at but whether the quote with the signs behind it
stands there, and whether a line ends if the quote is one mark. What can be written this way is read as one
token, and every such token can be written this way, in one way only.

The search stops at the first place where the quote and the signs stand. No such place lies between the
body and what closes it: a sign never stands where a mark does, so that what closes a raw string does not
overlap with itself.

* `RawString.Written` — raw strings as they are written.
* `RawString.bodyExtent_of_not_infix` — the search for the end finds what closes the body.
* `Lexer.exists_written_of_rawString` — what it passes before is a body.
* `RawString.Written.eq_of_text_eq` — a raw string is written in one way.
* `raw_strings_round_trip` — the whole statement.
-/

namespace SwiftColoring

namespace RawString

open StringText (quote quoteLength opensMultiline)

-- ---------------------------------------------------------------------------
-- Raw strings as they are written
-- ---------------------------------------------------------------------------

/-- A raw string by its parts. -/
@[ext]
structure Written where
  /-- The number of signs on either side. -/
  hashes : Nat
  /-- The quote is three marks. -/
  multiline : Bool
  body : List Char
  hashes_pos : 0 < hashes
  /-- What closes the string does not stand in the body. -/
  not_infix : ¬ terminator hashes multiline <:+: body
  /-- Behind a single mark the line does not end. -/
  one_line : multiline = false → ∀ c ∈ body, c ≠ '\n' ∧ c ≠ '\r'
  /-- A single mark does not become three by what stands behind it. -/
  one_mark : multiline = false → ¬ ['"', '"'] <+: body ++ ['"']

/-- The characters of the raw string. -/
def Written.text (r : Written) : List Char :=
  List.replicate r.hashes '#' ++
    (quote r.multiline ++ (r.body ++ terminator r.hashes r.multiline))

variable {hashes : Nat} {multiline : Bool} {body text more : List Char}

theorem getElem?_terminator_of_lt {i : Nat} (h : i < quoteLength multiline) :
    (terminator hashes multiline)[i]? = some '"' := by
  rw [terminator, List.getElem?_append_left (by rwa [List.length_replicate]),
    List.getElem?_replicate_of_lt h]

theorem getElem?_terminator_of_le {i : Nat} (hle : quoteLength multiline ≤ i)
    (hlt : i < quoteLength multiline + hashes) : (terminator hashes multiline)[i]? = some '#' := by
  rw [terminator, List.getElem?_append_right (by rwa [List.length_replicate]), List.length_replicate,
    List.getElem?_replicate_of_lt (by omega)]

-- ---------------------------------------------------------------------------
-- The search for the end
-- ---------------------------------------------------------------------------

/-- What closes a raw string does not start in the body. -/
theorem not_prefix_of_not_infix {c : Char} (hpos : 0 < hashes)
    (hbody : ¬ terminator hashes multiline <:+: c :: body) :
    ¬ terminator hashes multiline <+: c :: body ++ terminator hashes multiline := by
  intro hstarts
  have hquote := Lexer.quoteLength_pos multiline
  have hlength := length_terminator hashes multiline
  by_cases hle : (terminator hashes multiline).length ≤ (c :: body).length
  · exact hbody (List.prefix_of_prefix_length_le hstarts (List.prefix_append ..) hle).isInfix
  · -- at the first place behind the body and behind the marks, a sign would stand where a mark does
    rw [Nat.not_le, hlength] at hle
    have hbehind : 0 < (c :: body).length := Nat.succ_pos _
    generalize hplace : max (c :: body).length (quoteLength multiline) = place
    have hsign : (terminator hashes multiline)[place]? = some '#' :=
      getElem?_terminator_of_le (by omega) (by omega)
    have hmark : (terminator hashes multiline)[place - (c :: body).length]? = some '"' :=
      getElem?_terminator_of_lt (by omega)
    have hsame : (c :: body ++ terminator hashes multiline)[place]? =
        (terminator hashes multiline)[place]? := by
      obtain ⟨rest, hrest⟩ := hstarts
      rw [← hrest, List.getElem?_append_left (by omega)]
    rw [List.getElem?_append_right (by omega), hmark, hsign] at hsame
    cases hsame

/-- The search passes a body and what closes it. -/
theorem bodyExtent_of_not_infix (hpos : 0 < hashes) (hbody : ¬ terminator hashes multiline <:+: body)
    (hline : multiline = false → ∀ c ∈ body, c ≠ '\n' ∧ c ≠ '\r') :
    bodyExtent hashes multiline (body ++ terminator hashes multiline) =
      ⟨body.length + (terminator hashes multiline).length, true⟩ := by
  induction body with
  | nil =>
    have hne : terminator hashes multiline ≠ [] := by
      rw [← List.length_pos_iff, length_terminator]
      omega
    have hstarts : (terminator hashes multiline).isPrefixOf (terminator hashes multiline) = true :=
      List.isPrefixOf_iff_prefix.mpr (List.prefix_refl _)
    obtain ⟨c, rest, hsplit⟩ := List.exists_cons_of_ne_nil hne
    rw [List.nil_append, List.length_nil, Nat.zero_add, hsplit, bodyExtent, ← hsplit, if_pos hstarts]
  | cons c body ih =>
    have hstarts := not_prefix_of_not_infix hpos hbody
    have hbreak : (!multiline && isLineBreak c) = false := by
      cases hmultiline : multiline with
      | true => rfl
      | false =>
        obtain ⟨hfeed, hreturn⟩ := hline hmultiline c (List.mem_cons_self ..)
        simp [isLineBreak, hfeed, hreturn]
    have htail := ih (fun hholds => hbody (hholds.trans (List.suffix_cons c body).isInfix))
      fun hmultiline d hd => hline hmultiline d (List.mem_cons_of_mem _ hd)
    rw [← List.isPrefixOf_iff_prefix, Bool.not_eq_true] at hstarts
    rw [List.cons_append, bodyExtent, ← List.cons_append, hstarts, hbreak, if_neg Bool.false_ne_true,
      if_neg Bool.false_ne_true, htail, Extent.behind, List.length_cons, Nat.add_right_comm]

-- ---------------------------------------------------------------------------
-- The opening quote
-- ---------------------------------------------------------------------------

/-- The characters behind the first mark of an opening quote tell which quote it is. -/
theorem exists_opening (h : multiline = false → ¬ ['"', '"'] <+: more) :
    ∃ text, quote multiline ++ more = '"' :: text ∧ opensMultiline text = multiline ∧
      text.drop (quoteLength multiline - 1) = more := by
  cases multiline with
  | true => exact ⟨_, rfl, rfl, rfl⟩
  | false =>
    refine ⟨more, rfl, ?_, rfl⟩
    rw [StringText.opensMultiline_eq, Bool.eq_false_iff, ne_eq, List.isPrefixOf_iff_prefix]
    exact h rfl

/-- A mark opens one of the quotes. -/
theorem quote_opensMultiline (text : List Char) :
    '"' :: text = quote (opensMultiline text) ++ text.drop (quoteLength (opensMultiline text) - 1) := by
  cases hopens : opensMultiline text with
  | false => rfl
  | true =>
    rw [StringText.opensMultiline_eq, List.isPrefixOf_iff_prefix] at hopens
    obtain ⟨more, rfl⟩ := hopens
    rfl

/-- The number signs before a mark are all that there are. -/
theorem takeWhile_hashes (n : Nat) (text : List Char) :
    (List.replicate n '#' ++ '"' :: text).takeWhile (· == '#') = List.replicate n '#' := by
  rw [List.takeWhile_append_of_pos (by simp)]
  simp

/-- Number signs that are read off a text, and what stands behind them. -/
theorem replicate_append_drop (text : List Char) :
    List.replicate (text.takeWhile (· == '#')).length '#' ++
      text.drop (text.takeWhile (· == '#')).length = text := by
  have hsigns : List.replicate (text.takeWhile (· == '#')).length '#' = text.takeWhile (· == '#') := by
    refine (List.eq_replicate_iff.mpr ⟨rfl, fun c hc => ?_⟩).symm
    exact eq_of_beq (List.all_eq_true.mp List.all_takeWhile c hc)
  obtain ⟨rest, hrest⟩ := List.takeWhile_prefix (· == '#') (l := text)
  generalize text.takeWhile (· == '#') = signs at hsigns hrest ⊢
  rw [hsigns, ← hrest, List.drop_left]

namespace Written

/-- A single mark stays one, whatever the body is. -/
theorem not_opens (r : Written) (hmultiline : r.multiline = false) :
    ¬ ['"', '"'] <+: r.body ++ terminator r.hashes r.multiline := by
  intro hstarts
  obtain ⟨n, hn⟩ := Nat.exists_eq_succ_of_ne_zero (Nat.ne_of_gt r.hashes_pos)
  have hcloses : terminator r.hashes r.multiline = '"' :: '#' :: List.replicate n '#' := by
    rw [hmultiline, hn]
    rfl
  rw [hcloses] at hstarts
  cases hbody : r.body with
  | nil => simp [hbody] at hstarts
  | cons c body =>
    refine r.one_mark hmultiline (List.prefix_of_prefix_length_le hstarts ?_ ?_)
    · exact ⟨'#' :: List.replicate n '#', by rw [List.append_assoc]; rfl⟩
    · rw [hbody, List.length_append, List.length_cons]
      exact Nat.le_add_left 2 _

/-- What stands behind the number signs of a raw string starts with a mark, and tells the quote. -/
theorem exists_opening (r : Written) :
    ∃ text, r.text = List.replicate r.hashes '#' ++ '"' :: text ∧ opensMultiline text = r.multiline ∧
      text.drop (quoteLength r.multiline - 1) = r.body ++ terminator r.hashes r.multiline := by
  obtain ⟨text, htext, hopens, hdrop⟩ := RawString.exists_opening r.not_opens
  exact ⟨text, by rw [Written.text, htext], hopens, hdrop⟩

-- ---------------------------------------------------------------------------
-- One way to write a raw string
-- ---------------------------------------------------------------------------

/-- A raw string is written in one way. -/
theorem eq_of_text_eq {r s : Written} (h : r.text = s.text) : r = s := by
  obtain ⟨text, htext, hopens, hdrop⟩ := r.exists_opening
  obtain ⟨text', htext', hopens', hdrop'⟩ := s.exists_opening
  rw [htext, htext'] at h
  have hhashes : r.hashes = s.hashes := by
    have hsigns := congrArg (List.takeWhile (· == '#')) h
    rw [takeWhile_hashes, takeWhile_hashes] at hsigns
    simpa using congrArg List.length hsigns
  rw [hhashes] at h
  obtain rfl : text = text' := (List.cons.inj (List.append_cancel_left h)).2
  have hmultiline : r.multiline = s.multiline := hopens.symm.trans hopens'
  have hbody : r.body = s.body := by
    rw [hmultiline, hdrop', hhashes] at hdrop
    exact (List.append_cancel_right hdrop).symm
  exact Written.ext hhashes hmultiline hbody

end Written

end RawString

namespace Lexer

open StringText (quote quoteLength opensMultiline)

variable {l : Lexer} {x : Lexeme} {source : List Char} {ts : List Token} {t : Token}

-- ---------------------------------------------------------------------------
-- A source of one raw string
-- ---------------------------------------------------------------------------

/-- The search at number signs and a mark, with what decides about the end. -/
theorem poundLexeme_of_hashes {n : Nat} {text : List Char}
    (hclosed : (RawString.extent (n + 1) text).closed = true) :
    l.poundLexeme (List.replicate n '#' ++ '"' :: text) =
      .ok (l.plain .rawString (RawString.extent (n + 1) text).length) := by
  unfold poundLexeme
  simp only [RawString.takeWhile_hashes, List.length_replicate]
  rw [List.drop_left' (List.length_replicate ..)]
  simp only [hclosed, if_true]

/-- A raw string is read as one token. -/
theorem tokens_of_written (r : RawString.Written) :
    ∃ ts, tokens r.text = .ok ts ∧
      ts.map (fun t => (t.kind, t.text)) = [(.rawString, r.text), (.eof, [])] := by
  obtain ⟨text, htext, hopens, hdrop⟩ := r.exists_opening
  obtain ⟨n, hn⟩ := Nat.exists_eq_succ_of_ne_zero (Nat.ne_of_gt r.hashes_pos)
  have hextent : RawString.extent r.hashes text = ⟨r.text.length, true⟩ := by
    have hbody := RawString.bodyExtent_of_not_infix r.hashes_pos r.not_infix r.one_line
    have hlength := congrArg List.length hdrop
    simp only [RawString.extent, hopens, hdrop, hbody, Extent.behind, RawString.Written.text,
      List.length_append, List.length_replicate, StringText.length_quote, Extent.mk.injEq, and_true]
    omega
  rw [hn] at htext hextent
  have hrest : (ofText r.text).rest = '#' :: (List.replicate n '#' ++ '"' :: text) := htext
  have hlexeme : (ofText r.text).lexeme = .ok ((ofText r.text).plain .rawString r.text.length) := by
    rw [lexeme_of_isCode rfl]
    unfold codeLexeme
    rw [hrest]
    show (ofText r.text).poundLexeme _ = _
    rw [poundLexeme_of_hashes (by rw [hextent]), hextent]
  have hstart : GapStart.ofText false true r.text = .nothing := by
    -- no exclamation mark stands behind the sign
    rw [htext]
    cases n <;> rfl
  have hended : ((ofText r.text).accept ((ofText r.text).plain .rawString r.text.length)).rest = [] :=
    List.drop_length
  have hfirst := next_of_bare (l := ofText r.text) rfl hstart hlexeme (by rw [hended]; rfl)
  have heof := next_of_ended rfl hended
  refine ⟨_, tokens_of_reads (Reads.nil.snoc hfirst (by simp [plain])) heof rfl, ?_⟩
  show [(Kind.rawString, r.text.take r.text.length), (Kind.eof, [])] = _
  rw [List.take_length]

-- ---------------------------------------------------------------------------
-- Raw strings of a source
-- ---------------------------------------------------------------------------

/-- The search for a lexeme that finds a raw string, with what stands behind its number signs. -/
theorem exists_hashes_of_rawString (hx : l.lexeme = .ok x) (hkind : x.kind = .rawString) :
    ∃ n text, l.rest = List.replicate (n + 1) '#' ++ '"' :: text ∧
      (RawString.extent (n + 1) text).closed = true ∧ x.length = (RawString.extent (n + 1) text).length := by
  cases finds_of_lexeme hx with
  | @rawString text body _ hrest hbody hclosed =>
    refine ⟨_, body, ?_, hclosed, rfl⟩
    rw [hrest, ← hbody, List.replicate_succ, List.cons_append, RawString.replicate_append_drop]
  | closingQuote | openingQuote => exact absurd hkind (quoteKind_ne (by decide) (by decide) _)
  | mark _ _ hmark =>
    obtain rfl : _ = Kind.rawString := hkind
    unfold markKind? at hmark
    split at hmark <;> cases hmark
  | angleBracket _ _ hangle => rcases kind_of_angleBracket? hangle with rfl | rfl <;> cases hkind
  | number => cases (isRun_number _).symm.trans (congrArg Kind.isRun hkind)
  | word => cases (isRun_word ..).symm.trans (congrArg Kind.isRun hkind)
  | operator => cases (isRun_operator ..).symm.trans (congrArg Kind.isRun hkind)
  | _ => cases hkind

/-- A raw string that is found can be written. -/
theorem exists_written_of_rawString (hx : l.lexeme = .ok x) (hkind : x.kind = .rawString) :
    ∃ r : RawString.Written, r.text = l.rest.take x.length := by
  obtain ⟨n, text, hrest, hclosed, hlength⟩ := exists_hashes_of_rawString hx hkind
  have hquote := RawString.quote_opensMultiline text
  have hopens : opensMultiline text = false → ¬ ['"', '"'] <+: text := by
    intro hopens hstarts
    rw [StringText.opensMultiline_eq, Bool.eq_false_iff] at hopens
    exact hopens (List.isPrefixOf_iff_prefix.mpr hstarts)
  unfold RawString.extent at hclosed hlength
  simp only [Extent.behind] at hclosed hlength
  generalize opensMultiline text = multiline at hquote hopens hclosed hlength
  obtain ⟨body, hbody, hholds, hline⟩ := RawString.exists_body_of_closed hclosed
  have hmark : multiline = false → ¬ ['"', '"'] <+: body ++ ['"'] := by
    rintro rfl hstarts
    -- the mark behind the body is the first character of what closes the string
    have hcloses : body ++ ['"'] <+: body ++ RawString.terminator (n + 1) false :=
      (List.prefix_append_right_inj body).mpr (List.prefix_append ['"'] _)
    exact hopens rfl (hstarts.trans (hcloses.trans (hbody ▸ List.take_prefix ..)))
  have hlead : (List.replicate (n + 1) '#' ++ quote multiline).length = n + 1 + quoteLength multiline := by
    rw [List.length_append, List.length_replicate, StringText.length_quote]
  have htext : l.rest.take x.length = List.replicate (n + 1) '#' ++
      (quote multiline ++ (body ++ RawString.terminator (n + 1) multiline)) := by
    rw [hrest, hquote, ← List.append_assoc, hlength, Nat.add_comm, List.take_add, List.take_left' hlead,
      List.drop_left' hlead, hbody, List.append_assoc]
  exact ⟨⟨n + 1, multiline, body, Nat.succ_pos n, hholds, hline, hmark⟩, htext.symm⟩

end Lexer

/-- **Raw strings round-trip.** Whatever is written as a raw string, with any number of signs, either quote
and any body that the quote admits, is read as one token that holds it all. And the text of every such token
of a source is written in this way, by one choice of the number of signs, the quote and the body. -/
theorem raw_strings_round_trip :
    (∀ r : RawString.Written, ∃ ts, tokens r.text = .ok ts ∧
      ts.map (fun t => (t.kind, t.text)) = [(.rawString, r.text), (.eof, [])]) ∧
    ∀ source ts t, tokens source = .ok ts → t ∈ ts → t.kind = .rawString →
      ∃! r : RawString.Written, r.text = t.text := by
  refine ⟨Lexer.tokens_of_written, fun source ts t hts ht hkind => ?_⟩
  obtain ⟨l, behind, here, x, hcut⟩ := Lexer.exists_cut_of_mem_tokens hts ht
  obtain ⟨r, hr⟩ := Lexer.exists_written_of_rawString hcut.lexeme_eq (hcut.kind_eq.symm.trans hkind)
  refine ⟨r, hr.trans hcut.text_eq.symm, fun s hs => ?_⟩
  exact RawString.Written.eq_of_text_eq (hs.trans (hcut.text_eq.trans hr.symm))

/-- Two signs on either side, and a body with a mark, a sign and a backslash at its end. And in a call, one
sign and three marks, with three marks in the body. -/
theorem raw_strings_round_trip_marks :
    (∃ ts, tokens "##\"a\"#\\\"##".toList = .ok ts ∧ ts.map (fun t => (t.kind, t.text)) =
      [(.rawString, "##\"a\"#\\\"##".toList), (.eof, [])]) ∧
    ∃ ts t, tokens "f(#\"\"\"a\"\"\"b\"\"\"#)".toList = .ok ts ∧ t ∈ ts ∧ t.kind = .rawString ∧
      ∃! r : RawString.Written, r.text = t.text := by
  constructor
  · exact raw_strings_round_trip.1
      ⟨2, false, "a\"#\\".toList, by decide, by decide, fun _ => List.forall_iff_forall_mem.mp (by decide),
        by decide⟩
  · have hkinds : (tokens "f(#\"\"\"a\"\"\"b\"\"\"#)".toList).toOption.map (List.map Token.kind) =
        some [.identifier, .leftParen, .rawString, .rightParen, .eof] := by
      decide +kernel
    obtain ⟨ts, hts, hmap⟩ := exists_ok_of_toOption_map hkinds
    have hmem : Kind.rawString ∈ ts.map Token.kind := by
      rw [hmap]
      decide
    obtain ⟨t, ht, hkind⟩ := List.mem_map.mp hmem
    exact ⟨ts, t, hts, ht, hkind, raw_strings_round_trip.2 _ ts t hts ht hkind⟩

end SwiftColoring
