import Frontend.Proofs.Cover
import Mathlib.Data.List.Basic

namespace Frontend

namespace Lexeme

theorem run_append {f : Char → Bool} {cs : List Char} (h : cs.dropWhile f ≠ []) (more : List Char) :
    (cs ++ more).takeWhile f = cs.takeWhile f ∧
      (cs ++ more).dropWhile f = cs.dropWhile f ++ more := by
  induction cs with
  | nil => contradiction
  | cons c cs ih =>
    by_cases hc : f c
    · rw [List.dropWhile_cons_of_pos hc] at h
      simp [hc, ih h]
    · simp [hc]

theorem dropWhile_ne_nil {f : Char → Bool} {cs : List Char} (h : cs.takeWhile f ≠ cs) :
    cs.dropWhile f ≠ [] := by
  rwa [ne_eq, List.dropWhile_eq_nil_iff, ← List.takeWhile_eq_self_iff]

/-- A lexeme that ends before its text does is not changed by what follows the text. -/
theorem Starts.append {c : Char} {rest : List Char} {l : Lexeme} (h : Starts c rest l)
    (hl : l.chars ≠ c :: rest) (more : List Char) : Starts c (rest ++ more) l := by
  cases h with
  | blanks hc =>
    obtain ⟨htake, -⟩ := run_append (dropWhile_ne_nil fun hr => hl (congrArg (c :: ·) hr)) more
    rw [← htake]
    exact .blanks hc
  | lineFeed hc => exact .lineFeed hc
  | carriageReturn hc =>
    have hrest : rest ≠ [] := by
      rintro rfl
      exact hl (by rw [hc]; rfl)
    have hhead : (rest ++ more).head? = rest.head? := List.head?_append_of_ne_nil rest hrest
    rw [← hhead]
    exact .carriageReturn hc
  | punctuation hc => exact .punctuation hc
  | pair hc hd => exact .pair hc (by rw [List.head?_append, hd]; rfl)
  | single hc hd =>
    have hrest : rest ≠ [] := by
      rintro rfl
      exact hl hc
    refine .single hc ?_
    rwa [List.head?_append_of_ne_nil rest hrest]
  | keyword hc hd hb =>
    have hafter : rest.dropWhile Char.isAlpha ≠ [] := by
      intro hnil
      simp [hnil] at hd
    obtain ⟨htake, hdrop⟩ := run_append hafter more
    refine .keyword (htake ▸ hc) ?_ hb
    rw [hdrop, List.head?_append_of_ne_nil _ hafter, hd]
  | word hc hk =>
    have hafter := dropWhile_ne_nil fun hr => hl (congrArg (c :: ·) hr)
    obtain ⟨htake, hdrop⟩ := run_append hafter more
    rw [← htake]
    refine .word hc ?_
    rwa [htake, hdrop, List.head?_append_of_ne_nil _ hafter]
  | @decimal after hc hd =>
    have hfraction : after.takeWhile Char.isDigit ≠ after := by
      intro hr
      have hsplit : rest.takeWhile Char.isDigit ++ rest.dropWhile Char.isDigit = rest :=
        List.takeWhile_append_dropWhile
      rw [hd] at hsplit
      exact hl (by rw [chars, hr, List.cons_append, hsplit])
    have hafter : rest.dropWhile Char.isDigit ≠ [] := by simp [hd]
    obtain ⟨hwhole, hpoint⟩ := run_append hafter more
    obtain ⟨htake, -⟩ := run_append (dropWhile_ne_nil hfraction) more
    rw [hd, List.cons_append] at hpoint
    rw [← hwhole, ← htake]
    exact .decimal hc hpoint
  | integer hc hd =>
    have hafter := dropWhile_ne_nil fun hr => hl (congrArg (c :: ·) hr)
    obtain ⟨htake, hdrop⟩ := run_append hafter more
    rw [← htake]
    refine .integer hc ?_
    rwa [hdrop, List.head?_append_of_ne_nil _ hafter]
  | unknown hc => exact .unknown hc

theorem start_append {c : Char} {rest : List Char} (h : (start c rest).chars ≠ c :: rest)
    (more : List Char) : start c (rest ++ more) = start c rest :=
  ((start_starts c rest).append h more).eq_start

theorem ofText_eq_nil_iff {cs : List Char} : ofText cs = [] ↔ cs = [] := by
  cases cs with
  | nil => simp [ofText_nil]
  | cons c rest => simp [ofText_cons]

theorem ofText_append_of_concat {cs : List Char} {front : List Lexeme} {last : Lexeme}
    (h : ofText cs = front ++ [last]) (more : List Char) :
    ofText (cs ++ more) = front ++ ofText (last.chars ++ more) := by
  induction cs using ofText_induct generalizing front with
  | nil => simp [ofText_nil] at h
  | cons c rest ih =>
    rw [ofText_cons] at h
    have hchars := start_chars_append c rest
    cases front with
    | nil =>
      obtain ⟨rfl, hrest⟩ := List.cons.inj h
      rw [ofText_eq_nil_iff.mp hrest, List.append_nil] at hchars
      rw [hchars, List.nil_append]
    | cons l front =>
      obtain ⟨rfl, hrest⟩ := List.cons.inj h
      have hne : (start c rest).chars ≠ c :: rest := by
        intro he
        have hnil : rest.drop ((start c rest).chars.length - 1) = [] := by simp [he]
        rw [hnil, ofText_nil] at hrest
        simp at hrest
      rw [List.cons_append, ofText_cons, start_append hne,
        List.drop_append_of_le_length (length_start_le c rest), ih hrest]
      rfl

theorem readAll_singleton_eq_ok {p : Cursor} {l : Lexeme} {ts : List SpannedToken}
    (h : readAll [(p, l)] = .ok ts) : ts = [] ∨ ∃ t, ts = [t] ∧ t.span = l.span p := by
  obtain ⟨o, us, hread, ⟨⟩, rfl⟩ := readAll_cons_eq_ok h
  obtain ⟨t, -, rfl⟩ := read_eq_ok hread
  cases t with
  | none => exact .inl rfl
  | some t => exact .inr ⟨_, rfl, rfl⟩

theorem readAll_singleton_eq_error {p : Cursor} {l : Lexeme} {e : LexError}
    (h : readAll [(p, l)] = .error e) : e.span = l.span p := by
  cases hread : read p l with
  | ok t => simp [readAll, hread, bind, Except.bind, pure, Except.pure] at h
  | error e' =>
    obtain rfl : e' = e := by simpa [readAll, hread, bind, Except.bind] using h
    obtain ⟨fault, -, rfl⟩ := read_eq_error hread
    rfl

end Lexeme

open Lexeme

theorem exists_lexemesOf_append {s : List Char} (hs : s ≠ []) (more : List Char) :
    ∃ front last, s = front.flatMap chars ++ last.chars ∧
      lexemesOf s = place .start front ++ [(Cursor.start.advance (front.flatMap chars), last)] ∧
      lexemesOf (s ++ more) = place .start front ++
        place (Cursor.start.advance (front.flatMap chars)) (ofText (last.chars ++ more)) := by
  obtain hnil | ⟨front, last, hlast⟩ := List.eq_nil_or_concat (ofText s)
  · exact absurd (ofText_eq_nil_iff.mp hnil) hs
  · rw [List.concat_eq_append] at hlast
    refine ⟨front, last, ?_, ?_, ?_⟩
    · rw [← flatMap_chars_ofText s, hlast]
      simp
    · rw [lexemesOf, hlast, place_append]
      rfl
    · rw [lexemesOf, ofText_append_of_concat hlast, place_append]

theorem span_last {s : List Char} {front : List Lexeme} {last : Lexeme}
    (h : s = front.flatMap chars ++ last.chars) :
    last.span (Cursor.start.advance (front.flatMap chars)) =
      ⟨(Cursor.start.advance (front.flatMap chars)).offset, Text.byteLength s⟩ := by
  rw [Lexeme.span, h, Text.byteLength_append, Cursor.offset_start_advance]

theorem offset_le_of_readAll_error {p : Cursor} {ls : List Lexeme} {e : LexError}
    (h : readAll (place p ls) = .error e) : p.offset ≤ e.span.start := by
  obtain ⟨front, q, l, back, ts, hplaced, -, hread⟩ := exists_append_of_readAll_error h
  have hm : (q, l) ∈ place p ls := by simp [hplaced]
  obtain ⟨fault, -, rfl⟩ := read_eq_error hread
  exact offset_le_of_mem_place hm

theorem start_le_advance_of_mem {p : Cursor} {ls : List Lexeme} {ts : List SpannedToken}
    (h : readAll (place p ls) = .ok ts) {t : SpannedToken} (ht : t ∈ ts) :
    t.span.start ≤ (p.advance (ls.flatMap chars)).offset := by
  rw [eq_filterMap_of_readAll h] at ht
  obtain ⟨⟨q, l⟩, hm, hsp⟩ := List.mem_filterMap.mp ht
  rw [(spanned?_eq_some hsp).2]
  exact offset_le_advance_of_mem_place hm

/-- What is read of a longer text begins with the tokens `us` of the shorter one. Behind them, from
`q` on, the shorter text has at most one token more, which takes all that is left of it. -/
theorem exists_shared_tokens {s : List Char} {S : TokenStream} (h : tokenize s = .ok S)
    (more : List Char) :
    ∃ us vs q ls, S.proper = us ++ vs ∧
      readAll (lexemesOf (s ++ more)) = (readAll (place q ls)).map (us ++ ·) ∧
      (∀ t ∈ us, t.span.start ≤ q.offset) ∧
      (vs = [] ∨ ∃ t, vs = [t] ∧ t.span = ⟨q.offset, Text.byteLength s⟩) := by
  obtain ⟨hS, -⟩ := readAll_of_tokenize h
  by_cases hs : s = []
  · subst hs
    refine ⟨[], [], .start, ofText more, (Except.ok.inj hS).symm, ?_, by simp, .inl rfl⟩
    change readAll (lexemesOf more) = (readAll (lexemesOf more)).map fun us => [] ++ us
    cases readAll (lexemesOf more) <;> rfl
  · obtain ⟨front, last, hsplit, hshort, hlong⟩ := exists_lexemesOf_append hs more
    rw [hshort] at hS
    obtain ⟨us, vs, hus, hvs, hproper⟩ := readAll_append_eq_ok hS
    refine ⟨us, vs, _, ofText (last.chars ++ more), hproper, ?_,
      fun t ht => start_le_advance_of_mem hus ht, ?_⟩
    · rw [hlong, readAll_append, hus]
      rfl
    · obtain rfl | ⟨t, rfl, hspan⟩ := readAll_singleton_eq_ok hvs
      · exact .inl rfl
      · refine .inr ⟨t, rfl, ?_⟩
        rw [hspan, span_last hsplit]

/-- What is read of a text stays when more text follows it, but for the last token, and that too if
it ends before the text does. A fault stays where the text goes on behind it, and no fault arises
before the last token. -/
theorem tokenize_append_stable (s more : List Char) :
    (∀ S T, tokenize s = .ok S → tokenize (s ++ more) = .ok T →
      S.proper.dropLast <+: T.tokens ∧
      ∀ last, S.proper.getLast? = some last → last.span.stop < Text.byteLength s →
        S.proper <+: T.tokens) ∧
    (∀ S e, tokenize s = .ok S → tokenize (s ++ more) = .error e →
      ∀ last, S.proper.getLast? = some last → last.span.start ≤ e.span.start) ∧
    ∀ e, tokenize s = .error e → e.span.stop < Text.byteLength s →
      tokenize (s ++ more) = .error e := by
  refine ⟨?_, ?_, ?_⟩
  · intro S T hS hT
    obtain ⟨us, vs, q, ls, hproper, hread, -, hvs⟩ := exists_shared_tokens hS more
    obtain ⟨hT, htokens⟩ := readAll_of_tokenize hT
    have hbegins : us <+: T.tokens := by
      rw [hread] at hT
      cases hq : readAll (place q ls) with
      | error e => simp [hq, Except.map] at hT
      | ok ws =>
        rw [hq] at hT
        rw [htokens, ← Except.ok.inj hT, List.append_assoc]
        exact List.prefix_append ..
    rw [hproper]
    obtain rfl | ⟨t, rfl, hspan⟩ := hvs
    · rw [List.append_nil]
      exact ⟨(List.dropLast_prefix us).trans hbegins, fun _ _ _ => hbegins⟩
    · rw [List.dropLast_concat, List.getLast?_concat]
      refine ⟨hbegins, ?_⟩
      rintro last ⟨⟩ hlt
      rw [hspan] at hlt
      exact absurd hlt (Nat.lt_irrefl _)
  · intro S e hS he last hlast
    obtain ⟨us, vs, q, ls, hproper, hread, hus, hvs⟩ := exists_shared_tokens hS more
    have hle : q.offset ≤ e.span.start := by
      rw [readAll_of_tokenize_error he] at hread
      cases hq : readAll (place q ls) with
      | ok ws => simp [hq, Except.map] at hread
      | error e' =>
        rw [hq] at hread
        obtain rfl := Except.error.inj hread
        exact offset_le_of_readAll_error hq
    refine Nat.le_trans ?_ hle
    rw [hproper] at hlast
    obtain hm | hm := List.mem_append.mp (List.mem_of_getLast? hlast)
    · exact hus last hm
    · obtain rfl | ⟨t, rfl, hspan⟩ := hvs
      · cases hm
      · obtain rfl := List.mem_singleton.mp hm
        rw [hspan]
  · intro e he hlt
    have hs : s ≠ [] := by
      rintro rfl
      cases he
    obtain ⟨front, last, hsplit, hshort, hlong⟩ := exists_lexemesOf_append hs more
    have hread := readAll_of_tokenize_error he
    rw [hshort] at hread
    obtain hfront | ⟨us, -, hlast⟩ := readAll_append_eq_error hread
    · rw [tokenize_eq_map, hlong, readAll_append, hfront]
      rfl
    · rw [readAll_singleton_eq_error hlast, span_last hsplit] at hlt
      exact absurd hlt (Nat.lt_irrefl _)

theorem tokenize_append_stable_reclassified :
    (∃ S T, tokenize "é\r1.let".toList = .ok S ∧
      tokenize ("é\r1.let".toList ++ " &".toList) = .ok T ∧
      S.bare[3]? = some (.identifier "let") ∧ T.bare[3]? = some (.keyword .letWord) ∧
      S.proper.dropLast <+: T.tokens) ∧
    (∃ S T, tokenize "1 ".toList = .ok S ∧ tokenize ("1 ".toList ++ ".5".toList) = .ok T ∧
      S.proper = [⟨.int 1, ⟨0, 1⟩, ⟨1, 1⟩⟩] ∧ S.proper <+: T.tokens) ∧
    (∃ S e, tokenize "x 1".toList = .ok S ∧
      tokenize ("x 1".toList ++ "9223372036854775807".toList) = .error e ∧
      S.proper.getLast? = some ⟨.int 1, ⟨2, 3⟩, ⟨1, 3⟩⟩ ∧ 2 ≤ e.span.start) ∧
    ∃ e, e.span = ⟨0, 19⟩ ∧ tokenize "9223372036854775808 ".toList = .error e ∧
      tokenize ("9223372036854775808 ".toList ++ ".5".toList) = .error e := by
  refine ⟨?_, ?_, ?_, ?_⟩
  · obtain ⟨S, hS, hword⟩ : ∃ S, tokenize "é\r1.let".toList = .ok S ∧
        S.bare[3]? = some (.identifier "let") := ⟨_, rfl, rfl⟩
    obtain ⟨T, hT, hkeyword⟩ : ∃ T, tokenize ("é\r1.let".toList ++ " &".toList) = .ok T ∧
        T.bare[3]? = some (.keyword .letWord) := ⟨_, rfl, rfl⟩
    exact ⟨S, T, hS, hT, hword, hkeyword, ((tokenize_append_stable _ _).1 S T hS hT).1⟩
  · obtain ⟨S, hS, hproper⟩ : ∃ S, tokenize "1 ".toList = .ok S ∧
        S.proper = [⟨.int 1, ⟨0, 1⟩, ⟨1, 1⟩⟩] := ⟨_, rfl, rfl⟩
    obtain ⟨T, hT⟩ : ∃ T, tokenize ("1 ".toList ++ ".5".toList) = .ok T := ⟨_, rfl⟩
    exact ⟨S, T, hS, hT, hproper, ((tokenize_append_stable _ _).1 S T hS hT).2 _
      (by rw [hproper]; rfl) (by decide)⟩
  · obtain ⟨S, hS, hlast⟩ : ∃ S, tokenize "x 1".toList = .ok S ∧
        S.proper.getLast? = some ⟨.int 1, ⟨2, 3⟩, ⟨1, 3⟩⟩ := ⟨_, rfl, rfl⟩
    obtain ⟨e, he⟩ : ∃ e,
        tokenize ("x 1".toList ++ "9223372036854775807".toList) = .error e := ⟨_, rfl⟩
    exact ⟨S, e, hS, he, hlast, (tokenize_append_stable _ _).2.1 S e hS he _ hlast⟩
  · obtain ⟨e, he, hspan⟩ : ∃ e, tokenize "9223372036854775808 ".toList = .error e ∧
        e.span = ⟨0, 19⟩ := ⟨_, rfl, rfl⟩
    exact ⟨e, hspan, he, (tokenize_append_stable _ _).2.2 e he (by rw [hspan]; decide)⟩

end Frontend
