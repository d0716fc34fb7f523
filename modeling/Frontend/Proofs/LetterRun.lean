import Frontend.Proofs.Site

namespace Frontend

open Lexeme

structure LetterRun where
  before : List Char
  letters : List Char
  after : List Char
  deriving DecidableEq, Repr

/-- Letters of `s` that no other letter stands next to. -/
structure LetterRun.IsMaximal (s : List Char) (r : LetterRun) : Prop where
  split : s = r.before ++ r.letters ++ r.after
  nonempty : r.letters ≠ []
  isAlpha : ∀ c ∈ r.letters, c.isAlpha
  begins : ∀ c, r.before.getLast? = some c → c.isAlpha = false
  stops : ∀ d, r.after.head? = some d → d.isAlpha = false

def Token.isWord : Token → Bool
  | identifier _ | keyword _ => true
  | _ => false

namespace LetterRun

def span (r : LetterRun) : Span :=
  ⟨Text.byteLength r.before, Text.byteLength (r.before ++ r.letters)⟩

/-- A keyword is all of its run and has a blank behind it; any other run is a name. -/
def token (r : LetterRun) : Token :=
  if r.letters = "let".toList ∧ r.after.head?.any isBlank then .keyword .letWord
  else if r.letters = "fun".toList ∧ r.after.head?.any isBlank then .keyword .funWord
  else .identifier (String.ofList r.letters)

def spanned (r : LetterRun) : SpannedToken := ⟨r.token, r.span, positionAfter r.before⟩

theorem token_of_keyword {r : LetterRun} {k : Keyword} {d : Char} (hk : k.text.toList = r.letters)
    (hd : r.after.head? = some d) (hb : isBlank d) : r.token = .keyword k := by
  cases k <;> simp [token, ← hk, hd, hb, Keyword.text]

theorem token_of_word {r : LetterRun}
    (h : ∀ (k : Keyword) (d : Char), k.text.toList = r.letters → r.after.head? = some d →
      isBlank d = false) : r.token = .identifier (String.ofList r.letters) := by
  have hnot : ∀ k : Keyword, ¬(r.letters = k.text.toList ∧ r.after.head?.any isBlank) := by
    rintro k ⟨hletters, hblank⟩
    obtain ⟨d, hd, hb⟩ := (Option.any_eq_true ..).mp hblank
    rw [h k d hletters.symm hd] at hb
    contradiction
  exact (if_neg (hnot .letWord)).trans (if_neg (hnot .funWord))

theorem isWord_token (r : LetterRun) : r.token.isWord := by
  unfold token
  repeat' split
  all_goals rfl

end LetterRun

/-- The run that begins with a character, if it is a letter and none stands before it. -/
def Site.run? (x : Site) : Option LetterRun :=
  if x.char.isAlpha && !x.before.getLast?.any Char.isAlpha then
    some ⟨x.before, x.char :: x.after.takeWhile Char.isAlpha, x.after.dropWhile Char.isAlpha⟩
  else none

def letterRuns (s : List Char) : List LetterRun := (sitesOf s).filterMap Site.run?

theorem Site.run?_eq_some_iff {x : Site} {r : LetterRun} :
    x.run? = some r ↔ x.char.isAlpha ∧ (∀ c, x.before.getLast? = some c → c.isAlpha = false) ∧
      r = ⟨x.before, x.char :: x.after.takeWhile Char.isAlpha, x.after.dropWhile Char.isAlpha⟩ := by
  have hlast : x.before.getLast?.any Char.isAlpha = false ↔
      ∀ c, x.before.getLast? = some c → c.isAlpha = false := by
    cases x.before.getLast? <;> simp
  rw [run?, Option.ite_none_right_eq_some, Bool.and_eq_true, Bool.not_eq_true', hlast, and_assoc,
    Option.some.injEq, @eq_comm _ r]

theorem head?_dropWhile {f : Char → Bool} {cs : List Char} {d : Char}
    (h : (cs.dropWhile f).head? = some d) : f d = false := by
  have hnot := List.head?_dropWhile_not f cs
  rwa [h] at hnot

theorem mem_letterRuns_iff {s : List Char} {r : LetterRun} :
    r ∈ letterRuns s ↔ r.IsMaximal s := by
  simp only [letterRuns, List.mem_filterMap, mem_sitesOf_iff, Site.run?_eq_some_iff]
  constructor
  · rintro ⟨x, rfl, hc, hbefore, rfl⟩
    refine ⟨by simp, by simp, forall_mem_run hc x.after, hbefore, fun d => head?_dropWhile⟩
  · intro h
    obtain ⟨before, letters, after⟩ := r
    obtain ⟨c, letters, rfl⟩ := List.exists_cons_of_ne_nil h.nonempty
    have hletters : ∀ d ∈ letters, d.isAlpha := fun d hd => h.isAlpha d (by simp [hd])
    obtain ⟨htake, hdrop⟩ := takeWhile_dropWhile_run hletters h.stops
    refine ⟨⟨before, c, letters ++ after⟩, by simpa using h.split, h.isAlpha c (by simp),
      h.begins, ?_⟩
    simp [htake, hdrop]

theorem pairwise_letterRuns (s : List Char) :
    (letterRuns s).Pairwise fun r r' => r.span.start < r'.span.start := by
  refine List.Pairwise.filterMap _ ?_ (Site.pairwise_within [] s [])
  rintro x y ⟨mid, hmid⟩ r hr r' hr'
  obtain ⟨-, -, rfl⟩ := Site.run?_eq_some_iff.mp hr
  obtain ⟨-, -, rfl⟩ := Site.run?_eq_some_iff.mp hr'
  have hpos := Text.byteLength_pos (List.cons_ne_nil x.char mid)
  simp only [LetterRun.span, hmid, Text.byteLength_append]
  omega

namespace Lexeme

theorem Starts.letters {c : Char} {rest : List Char} {l : Lexeme} (h : Starts c rest l)
    (hl : l.charClass = .letter) (before : List Char) :
    c.isAlpha ∧ l.chars = c :: rest.takeWhile Char.isAlpha ∧
      l.token? = .ok (some (LetterRun.token
        ⟨before, c :: rest.takeWhile Char.isAlpha, rest.dropWhile Char.isAlpha⟩)) := by
  cases h with
  | @keyword k d hc hd hb =>
    refine ⟨k.isAlpha_text c (by simp [hc]), hc, ?_⟩
    rw [LetterRun.token_of_keyword hc hd hb]
    rfl
  | word hc hk =>
    refine ⟨hc, rfl, ?_⟩
    rw [LetterRun.token_of_word hk]
    rfl
  | _ => cases hl

theorem Starts.not_isAlpha_mem {c d : Char} {rest : List Char} {l : Lexeme} (h : Starts c rest l)
    (hl : l.charClass ≠ .letter) (hd : d ∈ l.chars) : d.isAlpha = false := by
  rw [Bool.eq_false_iff]
  intro halpha
  have hletter := classOf_of_isAlpha halpha
  obtain hclass | ⟨rfl, -⟩ := h.classOf_mem hd
  · exact hl (hclass.symm.trans hletter)
  · contradiction

theorem charClass_of_isWord {l : Lexeme} {t : Token} (ht : l.token? = .ok (some t))
    (hw : t.isWord) : l.charClass = .letter := by
  cases l with
  | keyword | word => rfl
  | blanks => cases ht
  | integer digits =>
    obtain ⟨n, hn⟩ := eq_int_of_token? ht
    cases hn
    contradiction
  | _ =>
    cases ht
    contradiction

theorem drop_start {f : Char → Bool} {c : Char} {rest : List Char}
    (h : (start c rest).chars = c :: rest.takeWhile f) :
    rest.drop ((start c rest).chars.length - 1) = rest.dropWhile f := by
  have happend := start_chars_append c rest
  have hsplit : rest.takeWhile f ++ rest.dropWhile f = rest := List.takeWhile_append_dropWhile
  rw [h] at happend ⊢
  exact List.append_cancel_left ((List.cons.inj happend).2.trans hsplit.symm)

end Lexeme

def PartsLetters (front cs : List Char) : Prop :=
  (∀ c, front.getLast? = some c → c.isAlpha = false) ∨
    ∀ d, cs.head? = some d → d.isAlpha = false

theorem filterMap_run?_of_not_isAlpha (before : List Char) {x : List Char} (after : List Char)
    (hx : ∀ d ∈ x, d.isAlpha = false) : (Site.within before x after).filterMap Site.run? = [] := by
  rw [List.filterMap_eq_nil_iff]
  intro y hy
  simp [Site.run?, hx y.char (Site.char_mem_of_mem_within hy)]

theorem filterMap_run?_letters {before x : List Char} (after : List Char) {c : Char}
    (hbefore : before.getLast? = some c) (hc : c.isAlpha) (hx : ∀ d ∈ x, d.isAlpha) :
    (Site.within before x after).filterMap Site.run? = [] := by
  induction x generalizing before c with
  | nil => rfl
  | cons d x ih =>
    have hnone : Site.run? ⟨before, d, x ++ after⟩ = none := by simp [Site.run?, hbefore, hc]
    rw [Site.within, List.filterMap_cons_none hnone]
    exact ih (by simp) (hx d (by simp)) fun e he => hx e (by simp [he])

theorem PartsLetters.filterMap_run? {before rest : List Char} {c : Char}
    (h : PartsLetters before (c :: rest)) (hc : c.isAlpha) :
    (Site.within before (c :: rest.takeWhile Char.isAlpha)
        (rest.dropWhile Char.isAlpha)).filterMap Site.run? =
      [⟨before, c :: rest.takeWhile Char.isAlpha, rest.dropWhile Char.isAlpha⟩] := by
  have hbefore : ∀ d, before.getLast? = some d → d.isAlpha = false := by
    obtain hbefore | hhead := h
    · exact hbefore
    · rw [hhead c rfl] at hc
      contradiction
  have hletters : ∀ d ∈ rest.takeWhile Char.isAlpha, d.isAlpha :=
    fun d hd => List.mem_takeWhile_imp hd
  have hrun : Site.run? ⟨before, c, rest⟩ = some _ :=
    Site.run?_eq_some_iff.mpr ⟨hc, hbefore, rfl⟩
  rw [Site.within, List.takeWhile_append_dropWhile, List.filterMap_cons_some hrun,
    filterMap_run?_letters _ List.getLast?_concat hc hletters]

theorem PartsLetters.filterMap_start {before rest : List Char} {c : Char}
    (h : PartsLetters before (c :: rest)) :
    (Site.within before (start c rest).chars
        (rest.drop ((start c rest).chars.length - 1))).filterMap
          (fun x => x.run?.map LetterRun.spanned) =
      ((spanned? (Cursor.start.advance before, start c rest)).filter (·.token.isWord)).toList := by
  have hs := start_starts c rest
  rw [← List.map_filterMap]
  by_cases hl : (start c rest).charClass = .letter
  · obtain ⟨hc, hchars, htoken⟩ := hs.letters hl before
    rw [drop_start hchars, hchars, h.filterMap_run? hc, spanned?_advance htoken, hchars,
      Option.filter_some, if_pos (LetterRun.isWord_token _)]
    rfl
  · have hnone : (spanned? (Cursor.start.advance before, start c rest)).filter
        (·.token.isWord) = none := by
      rw [Option.filter_eq_none_iff]
      intro t ht hw
      exact hl (charClass_of_isWord (eq_of_spanned? ht).1 hw)
    rw [filterMap_run?_of_not_isAlpha before _ fun d => hs.not_isAlpha_mem hl, hnone]
    rfl

theorem PartsLetters.step {before rest : List Char} {c : Char} :
    PartsLetters (before ++ (start c rest).chars)
      (rest.drop ((start c rest).chars.length - 1)) := by
  have hs := start_starts c rest
  by_cases hl : (start c rest).charClass = .letter
  · obtain ⟨-, hchars, -⟩ := hs.letters hl before
    rw [drop_start hchars]
    exact .inr fun d => head?_dropWhile
  · left
    intro d hd
    rw [List.getLast?_append_of_ne_nil _ (start_chars_ne_nil c rest)] at hd
    exact hs.not_isAlpha_mem hl (List.mem_of_getLast? hd)

theorem filterMap_isWord_lexemesOf (s : List Char) :
    (lexemesOf s).filterMap (fun y => (spanned? y).filter (·.token.isWord)) =
      (letterRuns s).map LetterRun.spanned := by
  have hstart : PartsLetters [] s := .inl (by simp)
  rw [letterRuns, List.map_filterMap]
  exact (Site.filterMap_within_of_start PartsLetters (fun _ _ _ h => h.filterMap_start)
    (fun _ _ _ _ => .step) hstart).symm

/-- Names and keywords are the maximal runs of letters of a source, in their order and each at its
own bytes. A run is a keyword if it is spelled like one and a blank stands behind it. -/
theorem tokenize_words {s : List Char} {stream : TokenStream} (h : tokenize s = .ok stream) :
    stream.tokens.filter (·.token.isWord) = (letterRuns s).map LetterRun.spanned ∧
    (∀ r, r ∈ letterRuns s ↔ r.IsMaximal s) ∧
    (letterRuns s).Pairwise fun r r' => r.span.start < r'.span.start := by
  refine ⟨?_, fun r => mem_letterRuns_iff, pairwise_letterRuns s⟩
  obtain ⟨ts, hr, hts⟩ := exists_readAll_of_tokenize h
  rw [hts, List.filter_append, eq_filterMap_of_readAll hr, List.filter_filterMap,
    filterMap_isWord_lexemesOf]
  simp [SpannedToken.eofAt, Token.isWord]

theorem tokenize_words_keyword_spellings :
    ∃ stream, tokenize "let letx 1fun\tlet(日fun\nfun".toList = .ok stream ∧
      stream.tokens.filter (·.token.isWord) =
        [⟨.keyword .letWord, ⟨0, 3⟩, ⟨1, 1⟩⟩, ⟨.identifier "letx", ⟨4, 8⟩, ⟨1, 5⟩⟩,
          ⟨.keyword .funWord, ⟨10, 13⟩, ⟨1, 11⟩⟩, ⟨.identifier "let", ⟨14, 17⟩, ⟨1, 15⟩⟩,
          ⟨.identifier "fun", ⟨21, 24⟩, ⟨1, 20⟩⟩, ⟨.identifier "fun", ⟨25, 28⟩, ⟨2, 1⟩⟩] := by
  obtain ⟨stream, h⟩ : ∃ stream,
      tokenize "let letx 1fun\tlet(日fun\nfun".toList = .ok stream := ⟨_, rfl⟩
  exact ⟨stream, h, (tokenize_words h).1⟩

end Frontend
