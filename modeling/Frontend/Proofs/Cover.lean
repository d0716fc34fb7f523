import Frontend.Proofs.Integer
import Frontend.Proofs.Layout
import Frontend.Proofs.Start

namespace Frontend

/-- The texts that a token is written as. -/
def Token.IsWritten : Token → List Char → Prop
  | .punctuation p, x => ∃ c, x = [c] ∧ Punctuation.ofChar? c = some p
  | .identifier name, x => x = name.toList ∧ x ≠ [] ∧ ∀ c ∈ x, c.isAlpha
  | .int n, x => x ≠ [] ∧ (∀ c ∈ x, c.isDigit) ∧ n.toInt = Nat.ofDigitChars 10 x 0
  | .float v, x => ∃ whole fraction, x = whole ++ '.' :: fraction ∧ whole ≠ [] ∧
      (∀ c ∈ whole, c.isDigit) ∧ (∀ c ∈ fraction, c.isDigit) ∧
      v = Binary64.ofDecimal (Nat.ofDigitChars 10 (whole ++ fraction) 0) fraction.length
  | .keyword k, x => x = k.text.toList
  | .operator op, x => x = op.symbol.toList
  | .newline, x => x = ['\n'] ∨ x = ['\r']
  | .unknown c, x => x = [c]
  | .eof, x => x = []

/-- Tokens that account for every byte of a source but the blanks between them. -/
structure Covers (s : List Char) (ts : List SpannedToken) : Prop where
  not_eof : ∀ t ∈ ts, t.token ≠ .eof
  boundaries : ∀ t ∈ ts, Text.isBoundary s t.span.start ∧ Text.isBoundary s t.span.stop
  nonempty : ∀ t ∈ ts, t.span.start < t.span.stop
  ordered : ts.Pairwise fun t u => t.span.stop ≤ u.span.start
  written : ∀ t ∈ ts, ∃ x, Text.slice? s t.span = some x ∧ t.token.IsWritten x
  gaps : ∀ i b, (Text.bytes s)[i]? = some b →
    (∀ t ∈ ts, ¬(t.span.start ≤ i ∧ i < t.span.stop)) → b = ' '.toUInt8 ∨ b = '\t'.toUInt8

namespace Lexeme

theorem isWritten_of_token? {c : Char} {rest : List Char} {l : Lexeme} {t : Token}
    (hs : Starts c rest l) (ht : l.token? = .ok (some t)) : t.IsWritten l.chars := by
  cases hs with
  | blanks => simp [token?] at ht
  | lineFeed =>
    cases ht
    exact .inl rfl
  | carriageReturn =>
    cases ht
    exact .inr rfl
  | punctuation hc =>
    cases ht
    exact ⟨_, rfl, Punctuation.ofChar?_char _⟩
  | pair | single | keyword =>
    cases ht
    rfl
  | word hc =>
    cases ht
    exact ⟨String.toList_ofList.symm, by simp [chars], forall_mem_run hc rest⟩
  | decimal hc hd =>
    cases ht
    exact ⟨_, _, rfl, by simp, forall_mem_run hc rest,
      fun d hd => List.mem_takeWhile_imp hd, rfl⟩
  | integer hc hd =>
    have hds := forall_mem_run hc rest
    rw [token?, Numeral.readInteger_digits (by simp) hds] at ht
    split at ht
    · rename_i hle
      cases ht
      exact ⟨by simp [chars], hds, Numeral.toInt_ofInt_of_le hle⟩
    · cases ht
  | unknown =>
    cases ht
    rfl

theorem eq_int_of_token? {digits : List Char} {t : Option Token}
    (h : (integer digits).token? = .ok t) : ∃ n, t = some (.int n) := by
  rw [token?] at h
  cases hr : Numeral.readInteger digits with
  | error fault => simp [hr, Except.map] at h
  | ok n =>
    rw [hr] at h
    cases h
    exact ⟨n, rfl⟩

theorem token?_ne_eof (l : Lexeme) : l.token? ≠ .ok (some .eof) := by
  intro h
  cases l with
  | integer digits =>
    obtain ⟨n, hn⟩ := eq_int_of_token? h
    cases hn
  | _ => cases h

theorem eq_blanks_of_token? {l : Lexeme} (h : l.token? = .ok none) : ∃ text, l = blanks text := by
  cases l with
  | blanks text => exact ⟨text, rfl⟩
  | integer digits =>
    obtain ⟨n, hn⟩ := eq_int_of_token? h
    cases hn
  | _ => cases h

theorem read_eq_ok {p : Cursor} {l : Lexeme} {o : Option SpannedToken} (h : read p l = .ok o) :
    ∃ t, l.token? = .ok t ∧ o = t.map fun t => ⟨t, l.span p, p.position⟩ := by
  unfold read at h
  split at h
  · rename_i t ht
    cases h
    exact ⟨t, ht, rfl⟩
  · cases h

theorem read_eq_error {p : Cursor} {l : Lexeme} {e : LexError} (h : read p l = .error e) :
    ∃ fault, l.token? = .error fault ∧
      e = ⟨String.ofList l.chars, l.span p, p.position, .integer fault⟩ := by
  unfold read at h
  split at h
  · cases h
  · rename_i fault hf
    cases h
    exact ⟨fault, hf, rfl⟩

theorem read_of_spanned? {p : Cursor} {l : Lexeme} {t : SpannedToken}
    (h : spanned? (p, l) = some t) : read p l = .ok (some t) := by
  simp only [spanned?] at h
  split at h
  · simp_all
  · cases h

theorem eq_of_spanned? {p : Cursor} {l : Lexeme} {t : SpannedToken}
    (h : spanned? (p, l) = some t) :
    l.token? = .ok (some t.token) ∧ t = ⟨t.token, l.span p, p.position⟩ := by
  obtain ⟨o, ho, he⟩ := read_eq_ok (read_of_spanned? h)
  cases o with
  | none => cases he
  | some u =>
    cases he
    exact ⟨ho, rfl⟩

theorem spanned?_eq_some {p : Cursor} {l : Lexeme} {t : SpannedToken}
    (h : spanned? (p, l) = some t) : l.token? = .ok (some t.token) ∧ t.span = l.span p := by
  obtain ⟨htoken, he⟩ := eq_of_spanned? h
  exact ⟨htoken, by rw [he]⟩

theorem byte_of_isBlank {c : Char} (h : isBlank c) {b : UInt8} (hb : b ∈ String.utf8EncodeChar c) :
    b = ' '.toUInt8 ∨ b = '\t'.toUInt8 := by
  have hc : c = ' ' ∨ c = '\t' := by simpa [isBlank] using h
  obtain rfl | rfl := hc
  · exact .inl (List.mem_singleton.mp hb)
  · exact .inr (List.mem_singleton.mp hb)

theorem isBlank_of_start {c : Char} {rest text : List Char} (h : start c rest = blanks text) :
    ∀ d ∈ text, isBlank d := by
  have hs := start_starts c rest
  rw [h] at hs
  cases hs with
  | blanks hc => exact forall_mem_run hc rest

end Lexeme

open Lexeme

theorem exists_lexeme_of_mem {s : List Char} {ts : List SpannedToken}
    (hr : readAll (lexemesOf s) = .ok ts) {t : SpannedToken} (ht : t ∈ ts) :
    ∃ c rest front back, s = front ++ (start c rest).chars ++ back ∧
      (start c rest).token? = .ok (some t.token) ∧
      t.span = ⟨Text.byteLength front, Text.byteLength (front ++ (start c rest).chars)⟩ := by
  rw [eq_filterMap_of_readAll hr] at ht
  obtain ⟨⟨p, l⟩, hm, hsp⟩ := List.mem_filterMap.mp ht
  obtain ⟨front, back, hs, rfl⟩ := exists_append_of_mem_lexemesOf hm
  obtain ⟨c, rest, rfl⟩ := exists_start_of_mem_lexemesOf hm
  obtain ⟨htok, hspan⟩ := spanned?_eq_some hsp
  refine ⟨c, rest, front, back, hs, htok, ?_⟩
  rw [hspan, span, Cursor.offset_start_advance, Text.byteLength_append]

theorem mem_of_token? {s : List Char} {ts : List SpannedToken}
    (hr : readAll (lexemesOf s) = .ok ts) {p : Cursor} {l : Lexeme} (hm : (p, l) ∈ lexemesOf s)
    {t : Token} (ht : l.token? = .ok (some t)) : ⟨t, l.span p, p.position⟩ ∈ ts := by
  rw [eq_filterMap_of_readAll hr]
  exact List.mem_filterMap.mpr ⟨(p, l), hm, by simp [spanned?, Lexeme.read, ht]⟩

def TokenStream.proper (stream : TokenStream) : List SpannedToken :=
  stream.tokens.filter fun t => !t.token.isEof

theorem readAll_of_tokenize {s : List Char} {stream : TokenStream} (h : tokenize s = .ok stream) :
    readAll (lexemesOf s) = .ok stream.proper ∧
      stream.tokens = stream.proper ++ [.eofAt (Cursor.start.advance s)] := by
  obtain ⟨ts, hr, hts⟩ := exists_readAll_of_tokenize h
  have hproper : stream.proper = ts := by
    have hall : ∀ t ∈ ts, !t.token.isEof := by
      intro t ht
      obtain ⟨c, rest, -, -, -, htok, -⟩ := exists_lexeme_of_mem hr ht
      cases he : t.token with
      | eof => exact absurd (he ▸ htok) (token?_ne_eof _)
      | _ => rfl
    rw [TokenStream.proper, hts, List.filter_append, List.filter_eq_self.mpr hall]
    simp [SpannedToken.eofAt, Token.isEof]
  rw [hproper]
  exact ⟨hr, hts⟩

theorem blank_of_uncovered {s : List Char} {ts : List SpannedToken}
    (hr : readAll (lexemesOf s) = .ok ts) {i : Nat} {b : UInt8} (hb : (Text.bytes s)[i]? = some b)
    (hi : ∀ t ∈ ts, ¬(t.span.start ≤ i ∧ i < t.span.stop)) :
    b = ' '.toUInt8 ∨ b = '\t'.toUInt8 := by
  have hlt : i < Text.byteLength s := by
    rw [← Text.length_bytes]
    exact (List.getElem?_eq_some_iff.mp hb).1
  have hall : i < Cursor.start.offset + Text.byteLength ((ofText s).flatMap chars) := by
    simpa [flatMap_chars_ofText, Cursor.start] using hlt
  obtain ⟨p, l, hm, hlo, hhi⟩ := exists_mem_place_of_offset (Nat.zero_le i) hall
  obtain ⟨o, ho⟩ := exists_read_of_readAll hr hm
  obtain ⟨t, htok, rfl⟩ := read_eq_ok ho
  cases t with
  | some t => exact absurd ⟨hlo, hhi⟩ (hi _ (mem_of_token? hr hm htok))
  | none =>
    obtain ⟨text, rfl⟩ := eq_blanks_of_token? htok
    obtain ⟨d, rest, hd⟩ := exists_start_of_mem_lexemesOf hm
    obtain ⟨front, back, rfl, rfl⟩ := exists_append_of_mem_lexemesOf hm
    rw [span, Cursor.offset_start_advance] at hlo hhi
    rw [Text.getElem?_bytes_append hlo (by rwa [Text.byteLength_append])] at hb
    obtain ⟨c, hc, hbc⟩ := List.mem_flatMap.mp (List.mem_of_getElem? hb)
    exact byte_of_isBlank (isBlank_of_start hd.symm c hc) hbc

theorem pairwise_spans {s : List Char} {ts : List SpannedToken}
    (hr : readAll (lexemesOf s) = .ok ts) :
    ts.Pairwise fun t u => t.span.stop ≤ u.span.start := by
  rw [eq_filterMap_of_readAll hr, List.pairwise_filterMap]
  refine (pairwise_place Cursor.start _).imp ?_
  rintro ⟨p, l⟩ ⟨q, m⟩ hle t ht u hu
  rw [(spanned?_eq_some ht).2, (spanned?_eq_some hu).2]
  exact hle

/-- No text of a source is lost: its tokens, with one `eof` after them, stand in order under the
text they are written as, and nothing but blanks is left between them. -/
theorem tokenize_covers {s : List Char} {stream : TokenStream} (h : tokenize s = .ok stream) :
    ∃ ts position,
      stream.tokens = ts ++ [⟨.eof, ⟨Text.byteLength s, Text.byteLength s⟩, position⟩] ∧
      Covers s ts := by
  obtain ⟨ts, hr, hts⟩ := exists_readAll_of_tokenize h
  refine ⟨ts, (Cursor.start.advance s).position, ?_, ?_, ?_, ?_, pairwise_spans hr, ?_,
    fun i b hb hi => blank_of_uncovered hr hb hi⟩
  · rw [hts, SpannedToken.eofAt, Cursor.offset_start_advance]
  · intro t ht he
    obtain ⟨c, rest, front, back, -, htok, -⟩ := exists_lexeme_of_mem hr ht
    exact token?_ne_eof _ (he ▸ htok)
  · intro t ht
    obtain ⟨c, rest, front, back, hs, -, hspan⟩ := exists_lexeme_of_mem hr ht
    have hstop := Text.isBoundary_append (front ++ (start c rest).chars) back
    have hstart := Text.isBoundary_append front ((start c rest).chars ++ back)
    rw [← List.append_assoc] at hstart
    rw [hspan, hs]
    exact ⟨hstart, hstop⟩
  · intro t ht
    obtain ⟨c, rest, front, back, -, -, hspan⟩ := exists_lexeme_of_mem hr ht
    have hpos := Text.byteLength_pos (start_chars_ne_nil c rest)
    rw [hspan, Text.byteLength_append]
    exact Nat.lt_add_of_pos_right hpos
  · intro t ht
    obtain ⟨c, rest, front, back, hs, htok, hspan⟩ := exists_lexeme_of_mem hr ht
    refine ⟨(start c rest).chars, ?_, isWritten_of_token? (start_starts c rest) htok⟩
    rw [hspan]
    exact Text.slice?_eq_some_iff.mpr ⟨front, back, hs, rfl, rfl⟩

theorem tokenize_covers_accented :
    ∃ stream, tokenize "let é\t07.5+12\r\n".toList = .ok stream ∧ stream.size = 8 ∧
      ∃ ts position, stream.tokens = ts ++ [⟨.eof, ⟨16, 16⟩, position⟩] ∧
        Covers "let é\t07.5+12\r\n".toList ts := by
  obtain ⟨stream, h, hn⟩ : ∃ stream,
      tokenize "let é\t07.5+12\r\n".toList = .ok stream ∧ stream.size = 8 := ⟨_, rfl, rfl⟩
  exact ⟨stream, h, hn, tokenize_covers h⟩

end Frontend
