import Frontend.Proofs.Cover
import Frontend.Proofs.Linear

namespace Frontend

open Lexeme

def TokenStream.texts? (stream : TokenStream) (s : List Char) : Option (List (List Char)) :=
  stream.proper.mapM fun t => Text.slice? s t.span

/-- The texts laid out anew, with `lead` before them and a gap behind each. -/
def respace (lead : List Char) (texts gaps : List (List Char)) : List Char :=
  lead ++ (List.zipWith (· ++ ·) texts gaps).flatten

/-- Text that is one token wherever a blank stands behind it. -/
def Detached (x : List Char) (t : Token) : Prop :=
  ∀ d back, isBlank d → ∃ l, ofText (x ++ d :: back) = l :: ofText (d :: back) ∧
    l.token? = .ok (some t)

theorem breaks_of_isBlank {d : Char} (hd : isBlank d) (back : List Char) : Breaks (d :: back) :=
  breaks_cons (by simp [isBreak, hd]) back

namespace Lexeme

theorem ofText_keyword (k : Keyword) {d : Char} (hd : isBlank d) (back : List Char) :
    ofText (k.text.toList ++ d :: back) = keyword k :: ofText (d :: back) := by
  obtain ⟨c, cs, hcs⟩ : ∃ c cs, k.text.toList = c :: cs := by
    cases k <;> exact ⟨_, _, rfl⟩
  have halpha := k.isAlpha_text
  rw [hcs, List.forall_mem_cons] at halpha
  obtain ⟨htake, hdrop⟩ :=
    takeWhile_dropWhile_run halpha.2 ((breaks_of_isBlank hd back).stops (by decide))
  have hk : k.text.toList = c :: (cs ++ d :: back).takeWhile Char.isAlpha := by rw [htake, hcs]
  exact ofText_append (keyword k) hcs (.keyword hk (by rw [hdrop]; rfl) hd)

theorem ofText_decimal {whole fraction rest : List Char} (hne : whole ≠ [])
    (hw : ∀ c ∈ whole, c.isDigit) (hf : ∀ c ∈ fraction, c.isDigit) (h : Breaks rest) :
    ofText ((decimal whole fraction).chars ++ rest) = decimal whole fraction :: ofText rest := by
  obtain ⟨c, cs, rfl⟩ := List.exists_cons_of_ne_nil hne
  rw [List.forall_mem_cons] at hw
  have hpoint : ∀ d, ('.' :: (fraction ++ rest)).head? = some d → d.isDigit = false := by
    rintro d ⟨⟩
    rfl
  obtain ⟨htake, hdrop⟩ := takeWhile_dropWhile_run hw.2 hpoint
  obtain ⟨hfraction, -⟩ := takeWhile_dropWhile_run hf (h.stops (by decide))
  have hs := Starts.decimal hw.1 hdrop
  rw [htake, hfraction] at hs
  exact ofText_append (decimal (c :: cs) fraction) rfl (by simpa using hs)

/-- Before a blank the text of a lexeme is read as in its own place. A name spelled like a keyword
is not: the blank makes it one. -/
theorem Starts.detached {c : Char} {rest : List Char} {l : Lexeme} {t : Token}
    (h : Starts c rest l) (ht : l.token? = .ok (some t))
    (hk : ∀ k : Keyword, t ≠ .identifier k.text) : Detached l.chars t := by
  intro d back hd
  have hbreak := breaks_of_isBlank hd back
  cases h with
  | blanks => cases ht
  | lineFeed => exact ⟨_, ofText_append .lineFeed rfl (.lineFeed rfl), ht⟩
  | carriageReturn =>
    have hs : Starts '\r' (d :: back) _ := .carriageReturn rfl
    have htext := ofText_append (.carriageReturn (some d = some '\n')) rfl hs
    exact ⟨_, htext, ht⟩
  | punctuation => exact ⟨_, ofText_punctuation _ _, ht⟩
  | pair | single => exact ⟨_, ofText_operator _ hbreak, ht⟩
  | keyword => exact ⟨_, ofText_keyword _ hd back, ht⟩
  | word hc =>
    have hletters : ∀ k : Keyword, k.text.toList ≠ c :: rest.takeWhile Char.isAlpha := by
      intro k he
      cases ht
      exact hk k (by rw [← he, String.ofList_toList])
    have halpha := List.all_eq_true.mpr (forall_mem_run hc rest)
    exact ⟨_, ofText_word (List.cons_ne_nil _ _) halpha hletters hbreak, ht⟩
  | decimal hc =>
    exact ⟨_, ofText_decimal (List.cons_ne_nil _ _) (forall_mem_run hc rest)
      (fun d hd => List.mem_takeWhile_imp hd) hbreak, ht⟩
  | integer hc =>
    exact ⟨_, ofText_integer (List.cons_ne_nil _ _) (forall_mem_run hc rest) hbreak, ht⟩
  | unknown hc => exact ⟨_, ofText_append (.unknown c) rfl (.unknown hc), ht⟩

theorem tokensOf_blanks {c : Char} (hc : isBlank c) (rest : List Char) :
    tokensOf (ofText (c :: rest)) = tokensOf (ofText (rest.dropWhile isBlank)) := by
  rw [ofText_blanks hc, tokensOf]
  change (tokensOf _).map (fun ts => [] ++ ts) = _
  cases tokensOf (ofText (rest.dropWhile isBlank)) <;> rfl

theorem tokensOf_blank {c : Char} (hc : isBlank c) (rest : List Char) :
    tokensOf (ofText (c :: rest)) = tokensOf (ofText rest) := by
  rw [tokensOf_blanks hc]
  cases rest with
  | nil => rfl
  | cons d rest =>
    by_cases hd : isBlank d
    · rw [List.dropWhile_cons_of_pos hd, tokensOf_blanks hd]
    · rw [List.dropWhile_cons_of_neg hd]

theorem tokensOf_gap {gap : List Char} (h : ∀ c ∈ gap, isBlank c) (rest : List Char) :
    tokensOf (ofText (gap ++ rest)) = tokensOf (ofText rest) := by
  induction gap with
  | nil => rfl
  | cons c gap ih =>
    rw [List.forall_mem_cons] at h
    rw [List.cons_append, tokensOf_blank h.1, ih h.2]

end Lexeme

theorem Detached.tokensOf {x gap : List Char} {t : Token} (h : Detached x t) (hne : gap ≠ [])
    (hgap : ∀ c ∈ gap, isBlank c) (rest : List Char) :
    tokensOf (ofText (x ++ gap ++ rest)) = (tokensOf (ofText rest)).map (t :: ·) := by
  rw [← tokensOf_gap hgap rest]
  obtain ⟨d, gap, rfl⟩ := List.exists_cons_of_ne_nil hne
  obtain ⟨l, hl, ht⟩ := h d (gap ++ rest) (hgap d (by simp))
  rw [List.append_assoc, List.cons_append, hl, Lexeme.tokensOf, ht]
  rfl

theorem tokensOf_respace {texts : List (List Char)} {ts : List Token}
    (h : List.Forall₂ Detached texts ts) {gaps : List (List Char)}
    (hlen : gaps.length = texts.length) (hgaps : ∀ gap ∈ gaps, gap ≠ [] ∧ ∀ c ∈ gap, isBlank c) :
    tokensOf (ofText (List.zipWith (· ++ ·) texts gaps).flatten) = .ok ts := by
  induction h generalizing gaps with
  | nil => rfl
  | @cons x t texts ts hx _ ih =>
    obtain ⟨gap, gaps, rfl⟩ := List.exists_cons_of_length_eq_add_one hlen
    rw [List.forall_mem_cons] at hgaps
    have hrest := ih (Nat.succ.inj hlen) hgaps.2
    rw [List.zipWith_cons_cons, List.flatten_cons, hx.tokensOf hgaps.1.1 hgaps.1.2, hrest]
    rfl

theorem exists_texts {ts : List SpannedToken} {s : List Char}
    (h : ∀ t ∈ ts, ∃ x, Text.slice? s t.span = some x ∧ Detached x t.token) :
    ∃ texts, (ts.mapM fun t => Text.slice? s t.span) = some texts ∧
      List.Forall₂ Detached texts (ts.map SpannedToken.token) := by
  induction ts with
  | nil => exact ⟨[], rfl, .nil⟩
  | cons t ts ih =>
    rw [List.forall_mem_cons] at h
    obtain ⟨⟨x, hx, hdetached⟩, h⟩ := h
    obtain ⟨texts, htexts, hall⟩ := ih h
    refine ⟨x :: texts, ?_, .cons hdetached hall⟩
    rw [List.mapM_cons, hx, htexts]
    rfl

/-- The texts of the tokens of a source give the same tokens again however they are spaced, as long
as no name among them is spelled like a keyword. -/
theorem tokenize_respace {s : List Char} {stream : TokenStream} (h : tokenize s = .ok stream)
    (hlet : .identifier "let" ∉ stream.bare) (hfun : .identifier "fun" ∉ stream.bare) :
    ∃ texts, stream.texts? s = some texts ∧
      ∀ lead gaps, (∀ c ∈ lead, isBlank c) → gaps.length = texts.length →
        (∀ gap ∈ gaps, gap ≠ [] ∧ ∀ c ∈ gap, isBlank c) →
        ∃ stream', tokenize (respace lead texts gaps) = .ok stream' ∧
          stream'.bare = stream.bare := by
  obtain ⟨hread, htokens⟩ := readAll_of_tokenize h
  have hbare : stream.bare = stream.proper.map SpannedToken.token ++ [.eof] := by
    simp [TokenStream.bare, htokens, SpannedToken.eofAt]
  have hdetached : ∀ t ∈ stream.proper,
      ∃ x, Text.slice? s t.span = some x ∧ Detached x t.token := by
    intro t ht
    obtain ⟨c, rest, front, back, hs, htoken, hspan⟩ := exists_lexeme_of_mem hread ht
    have hmem : t.token ∈ stream.bare := by
      rw [hbare]
      exact List.mem_append_left _ (List.mem_map_of_mem ht)
    refine ⟨(start c rest).chars, ?_, (start_starts c rest).detached htoken ?_⟩
    · rw [hspan]
      exact Text.slice?_eq_some_iff.mpr ⟨front, back, hs, rfl, rfl⟩
    · intro k hk
      rw [hk] at hmem
      cases k with
      | letWord => exact hlet hmem
      | funWord => exact hfun hmem
  obtain ⟨texts, htexts, hall⟩ := exists_texts hdetached
  refine ⟨texts, htexts, ?_⟩
  intro lead gaps hlead hlen hgaps
  have hrun : tokensOf (ofText (respace lead texts gaps)) =
      .ok (stream.proper.map SpannedToken.token) := by
    rw [respace, tokensOf_gap hlead, tokensOf_respace hall hlen hgaps]
  obtain ⟨stream', hs', hbare'⟩ := exists_tokenize_of_tokensOf hrun
  exact ⟨stream', hs', by rw [hbare', hbare]⟩

theorem tokenize_respace_split_operator :
    ∃ stream stream', tokenize "let\tx1.+&&&@日\r\n07".toList = .ok stream ∧
      stream.texts? "let\tx1.+&&&@日\r\n07".toList =
        some (["let", "x", "1.", "+", "&&", "&", "@", "日", "\r", "\n", "07"].map String.toList) ∧
      tokenize "\tlet x  1.\t+ &&\t\t& @ 日 \r\t\n 07 ".toList = .ok stream' ∧
      stream'.bare = stream.bare := by
  obtain ⟨stream, h, htexts, hbare⟩ : ∃ stream,
      tokenize "let\tx1.+&&&@日\r\n07".toList = .ok stream ∧
      stream.texts? "let\tx1.+&&&@日\r\n07".toList =
        some (["let", "x", "1.", "+", "&&", "&", "@", "日", "\r", "\n", "07"].map String.toList) ∧
      stream.bare = [.keyword .letWord, .identifier "x", .float (Binary64.ofDecimal 1 0),
        .operator .plus, .operator .and, .operator .amp, .unknown '@', .unknown '日', .newline,
        .newline, .int 7, .eof] := ⟨_, rfl, rfl, rfl⟩
  obtain ⟨texts, htexts', hspaced⟩ :=
    tokenize_respace h (by rw [hbare]; simp) (by rw [hbare]; simp)
  obtain rfl := Option.some.inj (htexts.symm.trans htexts')
  obtain ⟨stream', hs', hbare'⟩ := hspaced ['\t']
    [[' '], [' ', ' '], ['\t'], [' '], ['\t', '\t'], [' '], [' '], [' '], ['\t'], [' '], [' ']]
    (by simp [isBlank]) rfl (by simp [isBlank])
  exact ⟨stream, stream', h, htexts, hs', hbare'⟩

end Frontend
