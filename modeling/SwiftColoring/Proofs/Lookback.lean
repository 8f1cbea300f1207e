import SwiftColoring.Proofs.Drawn
import SwiftColoring.Proofs.Progress

/-!
# What identifiers name

An identifier is drawn as what it names, and that is read off the token directly before it: off its kind
and nothing else, whether it is drawn or not and whatever trivia lies between. For some kinds it also
matters whether the identifier starts with a capital letter. Names with a dollar sign are identifiers
to this rule, too; they never start with a capital letter, but where capitals do not matter they are
taken for names like any other.

* `Category.NamedBehind` — what an identifier is drawn as, by the kind before it.
* `namedBehind_named?` — the table of names says so.
* `drawing_looks_back_one_token` — the tokens of a source are drawn in order, each by this rule.
* `dollar_names_are_drawn` — what becomes of names with a dollar sign.
-/

namespace SwiftColoring

-- ---------------------------------------------------------------------------
-- Names
-- ---------------------------------------------------------------------------

/-- The kinds behind which a word with a capital letter names a type. -/
def typeIntroducers : List Kind :=
  [.keyword .classKw, .keyword .enumKw, .keyword .structKw, .keyword .protocolKw, .keyword .isKw,
   .keyword .asKw, .period, .comma, .equal, .leftBracket]

/-- What an identifier is drawn as behind a token of the kind `previous`; `capital` says that it starts
with a capital letter. -/
structure Category.NamedBehind (previous : Option Kind) (capital : Bool) (c : Category) : Prop where
  importName_iff : c = .importName ↔ previous = some (.keyword .importKw)
  functionName_iff : c = .functionName ↔ previous = some (.keyword .funcKw)
  className_iff : c = .className ↔
    previous = some (.keyword .typealiasKw) ∨ previous = some .colon ∨
      capital = true ∧ ∃ kind ∈ typeIntroducers, previous = some kind
  /-- Behind any other token, and at the start of the source, it stays an identifier. -/
  identifier_of_not : c ≠ .importName → c ≠ .functionName → c ≠ .className → c = .identifier

/-- The table of names says what an identifier is drawn as. -/
theorem namedBehind_named? (previous : Option Kind) (capital : Bool) :
    Category.NamedBehind previous capital
      ((previous.bind (Category.named? · capital)).getD .identifier) := by
  cases previous with
  | none => constructor <;> simp
  | some kind =>
    rw [Option.bind_some]
    unfold Category.named?
    cases capital
    all_goals
      split
      all_goals constructor <;> simp_all [typeIntroducers]

-- ---------------------------------------------------------------------------
-- One token
-- ---------------------------------------------------------------------------

/-- The stretch is drawn of the token, behind a token of the kind `previous`. -/
structure Drawn.IsOf (previous : Option Kind) (t : Token) (d : Drawn) : Prop where
  text_eq : d.text = t.text
  range_eq : d.range = ⟨t.span.start.offset, t.span.stop.offset⟩
  /-- Whatever is no identifier is drawn by its kind alone. -/
  plain : ∀ c, Category.ofKind? t.kind = some c → c ≠ .identifier → d.category = c
  named : Category.ofKind? t.kind = some .identifier →
    Category.NamedBehind previous (startsWithCapital t.text) d.category

theorem Token.drawText?_eq_none {t : Token} (h : Category.ofKind? t.kind = none)
    (previous : Option Kind) : t.drawText? previous = none := by
  unfold drawText? candidate? Kind.draw?
  rw [h, Option.map_none, ite_self, Option.map_none]

/-- A token with text is drawn if its kind has a category. -/
theorem Token.exists_drawText? {t : Token} {c : Category} (h : Category.ofKind? t.kind = some c)
    (hempty : t.range.isEmpty = false) (previous : Option Kind) :
    ∃ d, t.drawText? previous = some d ∧ d.IsOf previous t := by
  unfold drawText? candidate? Kind.draw?
  rw [hempty, if_neg Bool.false_ne_true, h]
  refine ⟨_, rfl, rfl, rfl, ?_, ?_⟩
  · intro c' hc' hne
    obtain rfl := Option.some.inj (h.symm.trans hc')
    show (Drawn.refinement? _ _ _).getD c = c
    rw [Drawn.refinement?, if_neg hne, Option.getD_none]
  · intro hidentifier
    obtain rfl := Option.some.inj (h.symm.trans hidentifier)
    show Category.NamedBehind previous _ ((Drawn.refinement? _ _ _).getD .identifier)
    rw [Drawn.refinement?, if_pos rfl]
    exact namedBehind_named? previous (startsWithCapital t.text)

/-- Tokens in a row are drawn in order, those of a kind with a category. -/
theorem forall₂_drawText? {places : List (Option Kind × Token)}
    (h : ∀ place ∈ places, (Category.ofKind? place.2.kind).isSome = true →
      place.2.range.isEmpty = false) :
    List.Forall₂ (fun place d => Drawn.IsOf place.1 place.2 d)
      (places.filter fun place => (Category.ofKind? place.2.kind).isSome)
      (places.filterMap fun place => place.2.drawText? place.1) := by
  induction places with
  | nil => exact .nil
  | cons place places ih =>
    have hrest := ih fun other hother => h other (List.mem_cons_of_mem _ hother)
    have hplace := h place (List.mem_cons_self ..)
    rw [List.filterMap_cons]
    cases hcategory : Category.ofKind? place.2.kind with
    | none =>
      rw [List.filter_cons_of_neg (by simp [hcategory]), Token.drawText?_eq_none hcategory]
      exact hrest
    | some c =>
      rw [hcategory] at hplace
      obtain ⟨d, hd, hof⟩ := Token.exists_drawText? hcategory (hplace rfl) place.1
      rw [List.filter_cons_of_pos (by simp [hcategory]), hd]
      exact .cons hof hrest

-- ---------------------------------------------------------------------------
-- The tokens of a source
-- ---------------------------------------------------------------------------

/-- What stands before the end of a source has text. -/
theorem text_ne_nil_of_tokens {source : List Char} {ts : List Token} (h : tokens source = .ok ts) :
    ∀ t ∈ ts, t.kind ≠ .eof → t.text ≠ [] := by
  intro t ht hkind
  obtain ⟨init, eof, m, last, rfl, hreads, -, heof⟩ := Lexer.exists_reads_of_tokens h
  rcases List.mem_append.mp ht with hinit | hlast
  · obtain ⟨first, rest, hsplit⟩ := List.append_of_mem hinit
    obtain ⟨l, behind, hreads', hnext, -⟩ := hreads.exists_next hsplit
    exact (hreads'.inOrder (Lexer.inOrder_ofText source)).text_ne_nil hnext hkind
  · rw [List.mem_singleton.mp hlast] at hkind
    exact absurd heof hkind

/-- A token of a kind with a category has a place to be drawn in. -/
theorem isEmpty_range_of_category {source : List Char} {ts : List Token} (h : tokens source = .ok ts) :
    ∀ t ∈ ts, (Category.ofKind? t.kind).isSome = true → t.range.isEmpty = false := by
  intro t ht hcategory
  have hkind : t.kind ≠ .eof := by
    intro heof
    rw [heof] at hcategory
    cases hcategory
  have htext := text_ne_nil_of_tokens h t ht hkind
  rw [isEmpty_range_of_tokens h t ht]
  exact Bool.eq_false_iff.mpr fun hempty => htext (List.isEmpty_iff.mp hempty)

/-- What is drawn of a source that is drawn at all. -/
theorem exists_drawTokens_of_highlight {source : List Char} {out : List Drawn}
    (h : highlight source.utf8Encode = .ok out) :
    ∃ ts, tokens source = .ok ts ∧
      ofTokens out = (behindKinds none ts).filterMap fun place => place.2.drawText? place.1 := by
  obtain ⟨ts, hts, rfl⟩ := exists_tokens_of_highlight h
  exact ⟨ts, hts, ofTokens_drawTokensFrom none ts⟩

theorem mem_of_mem_behindKinds {previous : Option Kind} {ts : List Token} {place : Option Kind × Token}
    (h : place ∈ behindKinds previous ts) : place.2 ∈ ts :=
  (List.of_mem_zip h).2

/-- **What an identifier names is read off the one token before it.** The stretches drawn of a source,
those of trivia left out, are drawn in order of the tokens whose kind has a category, each of the
text of its token and in its place. The category is that of the kind, and for identifiers it follows
from the kind of the token directly before, if there is one, and from the first letter. -/
theorem drawing_looks_back_one_token {source : List Char} {out : List Drawn}
    (h : highlight source.utf8Encode = .ok out) :
    ∃ ts, tokens source = .ok ts ∧
      List.Forall₂ (fun place d => Drawn.IsOf place.1 place.2 d)
        ((behindKinds none ts).filter fun place => (Category.ofKind? place.2.kind).isSome)
        (out.filter fun d => !d.category.isTrivia) := by
  obtain ⟨ts, hts, hout⟩ := exists_drawTokens_of_highlight h
  refine ⟨ts, hts, ?_⟩
  rw [← ofTokens, hout]
  refine forall₂_drawText? fun place hplace hcategory => ?_
  exact isEmpty_range_of_category hts place.2 (mem_of_mem_behindKinds hplace) hcategory

/-- The colon outside the literal is seen past the comment, and the minus sign, though it is not
drawn, hides the equal sign. -/
theorem drawing_looks_back_one_token_colon :
    ∃ out ts, highlight "\"\\(a)\":/**/b=-C".toList.utf8Encode = .ok out ∧
      tokens "\"\\(a)\":/**/b=-C".toList = .ok ts ∧
      (out.filter fun d => d.text.all isWordStart).map Drawn.category =
        [.identifier, .className, .identifier] ∧
      List.Forall₂ (fun place d => Drawn.IsOf place.1 place.2 d)
        ((behindKinds none ts).filter fun place => (Category.ofKind? place.2.kind).isSome)
        (out.filter fun d => !d.category.isTrivia) := by
  have hcategories : ((treeTokens "\"\\(a)\":/**/b=-C".toList).map drawTokens).toOption.map
      (fun out => (out.filter fun d => d.text.all isWordStart).map Drawn.category) =
        some [.identifier, .className, .identifier] := by
    decide +kernel
  obtain ⟨out, hout, hcategories⟩ := exists_ok_of_toOption_map hcategories
  have hhighlight : highlight "\"\\(a)\":/**/b=-C".toList.utf8Encode = .ok out := by
    rw [highlight, highlightWith_utf8Encode, hout]
  obtain ⟨ts, hts, hdrawn⟩ := drawing_looks_back_one_token hhighlight
  exact ⟨out, ts, hhighlight, hts, hcategories, hdrawn⟩

-- ---------------------------------------------------------------------------
-- Names with a dollar sign
-- ---------------------------------------------------------------------------

/-- The kinds behind which every identifier names something, whatever letter it starts with. -/
def nameIntroducers : List Kind :=
  [.keyword .importKw, .keyword .funcKw, .keyword .typealiasKw, .colon]

/-- Where capitals do not matter, an identifier names something only behind these kinds. -/
theorem Category.NamedBehind.eq_identifier_iff {previous : Option Kind} {c : Category}
    (h : NamedBehind previous false c) :
    c = .identifier ↔ ∀ kind ∈ nameIntroducers, previous ≠ some kind := by
  constructor
  · rintro rfl kind hkind rfl
    simp only [nameIntroducers, List.mem_cons, List.not_mem_nil, or_false] at hkind
    rcases hkind with rfl | rfl | rfl | rfl
    · cases h.importName_iff.mpr rfl
    · cases h.functionName_iff.mpr rfl
    · cases h.className_iff.mpr (.inl rfl)
    · cases h.className_iff.mpr (.inr (.inl rfl))
  · intro hnone
    refine h.identifier_of_not (fun hc => ?_) (fun hc => ?_) fun hc => ?_
    · exact hnone _ (by simp [nameIntroducers]) (h.importName_iff.mp hc)
    · exact hnone _ (by simp [nameIntroducers]) (h.functionName_iff.mp hc)
    · rcases h.className_iff.mp hc with hprevious | hprevious | ⟨hcapital, -⟩
      · exact hnone _ (by simp [nameIntroducers]) hprevious
      · exact hnone _ (by simp [nameIntroducers]) hprevious
      · cases hcapital

/-- Only a dollar sign starts such a name. -/
theorem Lexer.rest_of_dollarIdentifier {l : Lexer} {x : Lexeme} (h : l.lexeme = .ok x)
    (hkind : x.kind = .dollarIdentifier) : ∃ text, l.rest = '$' :: text := by
  have hrun : ∀ {kind : Kind}, kind.isRun = true → kind ≠ .dollarIdentifier := by
    rintro _ hrun rfl
    cases hrun
  cases finds_of_lexeme h with
  | dollar hcode hrest => exact ⟨_, hrest⟩
  | number => exact absurd hkind (hrun (isRun_number _))
  | word => exact absurd hkind (hrun (isRun_word ..))
  | operator => exact absurd hkind (hrun (isRun_operator ..))
  | closingQuote | openingQuote => exact absurd hkind (quoteKind_ne (by decide) (by decide) _)
  | mark _ _ hmark =>
    unfold markKind? at hmark
    split at hmark <;> cases hmark <;> cases hkind
  | angleBracket _ _ hangle => rcases kind_of_angleBracket? hangle with rfl | rfl <;> cases hkind
  | _ => cases hkind

theorem startsWithCapital_of_dollarIdentifier {source : List Char} {ts : List Token}
    (h : tokens source = .ok ts) :
    ∀ t ∈ ts, t.kind = .dollarIdentifier → startsWithCapital t.text = false := by
  intro t ht hkind
  obtain ⟨l, behind, here, x, hcut⟩ := Lexer.exists_cut_of_mem_tokens h ht
  obtain ⟨text, hrest⟩ := Lexer.rest_of_dollarIdentifier hcut.lexeme_eq (hcut.kind_eq.symm.trans hkind)
  rw [hcut.text_eq, hrest]
  cases x.length <;> rfl

/-- **A name with a dollar sign is taken for any other name where capitals do not matter.** Each is drawn
from its text in its place. It stays an identifier unless it stands directly behind the keyword of
an import, of a function or of a type alias, or behind a colon: then it names what other identifiers
name there. -/
theorem dollar_names_are_drawn {source : List Char} {out : List Drawn}
    (h : highlight source.utf8Encode = .ok out) :
    ∃ ts, tokens source = .ok ts ∧ ∀ before t behind, ts = before ++ t :: behind →
      t.kind = .dollarIdentifier →
        ∃ d ∈ out, d.text = t.text ∧ d.range = ⟨t.span.start.offset, t.span.stop.offset⟩ ∧
          Category.NamedBehind (before.getLast?.map Token.kind) false d.category ∧
          (d.category = .identifier ↔
            ∀ kind ∈ nameIntroducers, before.getLast?.map Token.kind ≠ some kind) := by
  obtain ⟨ts, hts, hout⟩ := exists_drawTokens_of_highlight h
  refine ⟨ts, hts, ?_⟩
  rintro before t behind rfl hkind
  have ht : t ∈ before ++ t :: behind := List.mem_append_right _ (List.mem_cons_self ..)
  have hcategory : Category.ofKind? t.kind = some .identifier := by
    rw [hkind]
    rfl
  have hempty := isEmpty_range_of_category hts t ht (by rw [hcategory]; rfl)
  obtain ⟨d, hd, hof⟩ := Token.exists_drawText? hcategory hempty (before.getLast?.map Token.kind)
  -- the token is drawn behind the one before it
  have hplace : (before.getLast?.map Token.kind, t) ∈ behindKinds none (before ++ t :: behind) := by
    have hmem := mem_behindKinds none before t behind
    rwa [Option.or_none] at hmem
  have hmem : d ∈ ofTokens out := by
    rw [hout]
    exact List.mem_filterMap.mpr ⟨_, hplace, hd⟩
  have hnamed := hof.named hcategory
  rw [startsWithCapital_of_dollarIdentifier hts t ht hkind] at hnamed
  exact ⟨d, (List.mem_filter.mp hmem).1, hof.text_eq, hof.range_eq, hnamed, hnamed.eq_identifier_iff⟩

/-- Behind the question mark of a conditional a name with a dollar sign stays one, behind its colon it
is drawn as a type. -/
theorem dollar_names_are_drawn_conditional :
    ∃ out ts, highlight "c ? $0 : $1".toList.utf8Encode = .ok out ∧
      tokens "c ? $0 : $1".toList = .ok ts ∧
      (ts.filter fun t => t.kind = .dollarIdentifier).map Token.text = ["$0".toList, "$1".toList] ∧
      ∀ before t behind, ts = before ++ t :: behind → t.kind = .dollarIdentifier →
        ∃ d ∈ out, d.text = t.text ∧ d.range = ⟨t.span.start.offset, t.span.stop.offset⟩ ∧
          Category.NamedBehind (before.getLast?.map Token.kind) false d.category ∧
          (d.category = .identifier ↔
            ∀ kind ∈ nameIntroducers, before.getLast?.map Token.kind ≠ some kind) := by
  have htexts : (tokens "c ? $0 : $1".toList).toOption.map (fun ts =>
      (ts.filter fun t => t.kind = .dollarIdentifier).map Token.text) =
        some ["$0".toList, "$1".toList] := by
    decide +kernel
  have hdrawn : ((treeTokens "c ? $0 : $1".toList).map drawTokens).toOption.map (fun _ => ()) =
      some () := by
    decide +kernel
  obtain ⟨out, hout, -⟩ := exists_ok_of_toOption_map hdrawn
  have hhighlight : highlight "c ? $0 : $1".toList.utf8Encode = .ok out := by
    rw [highlight, highlightWith_utf8Encode, hout]
  obtain ⟨ts, hts, hdollar⟩ := dollar_names_are_drawn hhighlight
  rw [hts] at htexts
  exact ⟨out, ts, hhighlight, hts, Option.some.inj htexts, hdollar⟩

/-- Not every name with a dollar sign is drawn as an identifier. -/
theorem dollar_names_are_drawn_as_types :
    ∃ out ts t, highlight "c ? 0 : $0".toList.utf8Encode = .ok out ∧
      tokens "c ? 0 : $0".toList = .ok ts ∧ t ∈ ts ∧ t.kind = .dollarIdentifier ∧
      ⟨t.text, .className, ⟨t.span.start.offset, t.span.stop.offset⟩⟩ ∈ out := by
  have htokens : (tokens "c ? 0 : $0".toList).toOption.map (fun ts =>
      (ts.filter fun t => t.kind = .dollarIdentifier).map fun t =>
        (t.text, t.span.start.offset, t.span.stop.offset)) = some [("$0".toList, 8, 10)] := by
    decide +kernel
  have hdrawn : ((treeTokens "c ? 0 : $0".toList).map drawTokens).toOption.map List.getLast? =
      some (some ⟨"$0".toList, .className, ⟨8, 10⟩⟩) := by
    decide +kernel
  obtain ⟨ts, hts, htexts⟩ := exists_ok_of_toOption_map htokens
  obtain ⟨out, hout, hlast⟩ := exists_ok_of_toOption_map hdrawn
  have hhighlight : highlight "c ? 0 : $0".toList.utf8Encode = .ok out := by
    rw [highlight, highlightWith_utf8Encode, hout]
  obtain ⟨t, hone, htext⟩ := List.map_eq_singleton_iff.mp htexts
  obtain ⟨ht, hkind⟩ := List.mem_filter.mp (hone ▸ List.mem_singleton_self t)
  obtain ⟨htext, hstart, hstop⟩ : t.text = "$0".toList ∧ t.span.start.offset = 8 ∧
      t.span.stop.offset = 10 := by
    simpa using htext
  refine ⟨out, ts, t, hhighlight, hts, ht, of_decide_eq_true hkind, ?_⟩
  rw [htext, hstart, hstop]
  exact List.mem_of_getLast? hlast

end SwiftColoring
