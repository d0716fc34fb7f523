import Frontend.Proofs.Separator

namespace Frontend

open Lexeme

theorem Separates.starts {c : Char} {t : Token} (h : Separates c t) (rest : List Char) :
    ∃ l, Starts c rest l ∧ l.chars = [c] ∧ l.token? = .ok (some t) := by
  cases h with
  | lineFeed => exact ⟨_, .lineFeed rfl, rfl, rfl⟩
  | carriageReturn => exact ⟨_, .carriageReturn rfl, rfl, rfl⟩
  | punctuation hp => exact ⟨_, .punctuation rfl, rfl, rfl⟩
  | @arithmetic op c hop hc =>
    refine ⟨_, .single hc ?_, hc, rfl⟩
    intro d op' _ hpair
    have hall : ∀ op ∈ [Operator.plus, .dash, .star, .slash, .percent, .caret],
        ∀ op' ∈ Operator.all, op'.symbol.toList.head? = op.symbol.toList.head? →
          op'.symbol.toList.length = 1 := by decide
    have hlen := hall op hop op' op'.mem_all (by rw [hpair, hc]; rfl)
    simp [hpair] at hlen
  | unrecognized hc => exact ⟨_, .unknown hc, rfl, rfl⟩

def SpannedToken.separator (p : Cursor) (c : Char) (t : Token) : SpannedToken :=
  ⟨t, ⟨p.offset, p.offset + c.utf8Size⟩, p.position⟩

theorem tokensFrom_separator {c : Char} {t : Token} (h : Separates c t) (p : Cursor)
    (b : List Char) :
    tokensFrom p (c :: b) = (tokensFrom (p.step c) b).map (.separator p c t :: ·) := by
  obtain ⟨l, hl, hchars, htoken⟩ := h.starts b
  have hread : Lexeme.read p l = .ok (some (.separator p c t)) := by
    simp [Lexeme.read, Lexeme.span, htoken, hchars, SpannedToken.separator, Text.byteLength]
  rw [tokensFrom_cons, hl.eq_start, hread, hchars]
  rfl

theorem tokensFrom_append_separator {c : Char} {t : Token} (h : Separates c t) (p : Cursor)
    (a b : List Char) :
    tokensFrom p (a ++ c :: b) =
      readAll (place p (ofText a)) >>= fun ts =>
        (shiftTokens (p.advance (a ++ [c])) (tokensFrom Cursor.start b)).map
          (ts ++ .separator (p.advance a) c t :: ·) := by
  have hnext : p.advance (a ++ [c]) = (p.advance a).step c := by
    rw [Cursor.advance_append]
    rfl
  rw [tokensFrom_append_stop h.stops, tokensFrom_separator h, hnext, ← tokensFrom_eq_shiftTokens]
  cases tokensFrom ((p.advance a).step c) b <;> rfl

def Position.below (n : Nat) (p : Position) : Position := ⟨p.line + n, p.column⟩

theorem Position.shift_eq_below {q : Position} (hq : q.column = 1) (hl : 1 ≤ q.line)
    (p : Position) : q.shift p = p.below (q.line - 1) := by
  rw [Position.shift, Position.below]
  by_cases hp : p.line = 1
  · have hline : q.line = 1 + (q.line - 1) := by omega
    have hcol : q.column + p.column - 1 = p.column := by omega
    rw [if_pos hp, hp, hcol, ← hline]
  · have hline : q.line + p.line - 1 = p.line + (q.line - 1) := by omega
    rw [if_neg hp, hline]

theorem shift_lineFeed (a : List Char) (p : Position) :
    (Cursor.start.advance (a ++ ['\n'])).position.shift p = p.below (1 + a.count '\n') := by
  have hline := Cursor.line_advance Cursor.start (a ++ ['\n'])
  rw [List.count_append] at hline
  have hone : (Cursor.start.advance (a ++ ['\n'])).position.column = 1 := by
    rw [Cursor.advance_append]
    rfl
  rw [Position.shift_eq_below hone (by rw [hline]; exact Nat.le_add_right 1 _), hline]
  simp [Cursor.start, Nat.add_comm]

def TokenStream.spans (s : TokenStream) : List (Token × Span) :=
  s.tokens.map fun u => (u.token, u.span)

/-- Texts around a separator are read independently of one another. -/
theorem tokenize_append_separator {c : Char} {t : Token} (h : Separates c t) (a b : List Char) :
    (∀ A B, tokenize a = .ok A → tokenize b = .ok B →
      ∃ S front, tokenize (a ++ c :: b) = .ok S ∧
        A.spans = front ++ [(.eof, ⟨Text.byteLength a, Text.byteLength a⟩)] ∧
        S.spans = front ++ (t, ⟨Text.byteLength a, Text.byteLength (a ++ [c])⟩) ::
          B.spans.map (Prod.map id (Span.shift (Text.byteLength (a ++ [c])))) ∧
        (c = '\n' → (S.tokens.drop A.tokens.length).map SpannedToken.position =
          B.tokens.map fun u => u.position.below (1 + a.count '\n'))) ∧
    (∀ e, tokenize a = .error e → tokenize (a ++ c :: b) = .error e) ∧
    (∀ A e, tokenize a = .ok A → tokenize b = .error e →
      ∃ e', tokenize (a ++ c :: b) = .error e' ∧ e'.fault = e.fault ∧ e'.literal = e.literal ∧
        e'.span = e.span.shift (Text.byteLength (a ++ [c])) ∧
        (c = '\n' → e'.position = e.position.below (1 + a.count '\n'))) := by
  have hjoin := tokensFrom_append_separator h Cursor.start a b
  rw [← lexemesOf] at hjoin
  have hafter : (Cursor.start.advance (a ++ [c])).offset = Text.byteLength (a ++ [c]) :=
    Cursor.offset_start_advance _
  refine ⟨?_, ?_, ?_⟩
  · intro A B hA hB
    obtain ⟨ts, hts, hA'⟩ := exists_readAll_of_tokenize hA
    rw [hts, tokensFrom_of_tokenize hB] at hjoin
    obtain ⟨S, hS, htokens⟩ := exists_tokenize_of_tokensFrom hjoin
    refine ⟨S, ts.map fun u => (u.token, u.span), hS, ?_, ?_, ?_⟩
    · simp [TokenStream.spans, hA', SpannedToken.eofAt, Cursor.offset_start_advance]
    · simp [TokenStream.spans, htokens, SpannedToken.separator, SpannedToken.shift, hafter,
        Cursor.offset_start_advance, Text.byteLength_append, Text.byteLength]
    · rintro rfl
      simp [htokens, hA', SpannedToken.shift, shift_lineFeed]
  · intro e ha
    rw [tokenize_eq_error_iff, hjoin, readAll_of_tokenize_error ha]
    rfl
  · intro A e hA hb
    obtain ⟨ts, hts, -⟩ := exists_readAll_of_tokenize hA
    rw [hts, tokenize_eq_error_iff.mp hb] at hjoin
    refine ⟨e.shift (Cursor.start.advance (a ++ [c])), tokenize_eq_error_iff.mpr hjoin, rfl, rfl,
      ?_, ?_⟩
    · rw [LexError.shift, hafter]
    · rintro rfl
      exact shift_lineFeed a e.position

theorem tokenize_append_lineFeed_overflow :
    ∃ e, tokenize ("let".toList ++ '\n' :: "9223372036854775808".toList) = .error e ∧
      e.literal = "9223372036854775808" ∧ e.span = ⟨4, 23⟩ ∧ e.position = ⟨2, 1⟩ := by
  obtain ⟨e, he, -, hliteral, hspan, hposition⟩ := (tokenize_append_separator .lineFeed
    "let".toList "9223372036854775808".toList).2.2 _ _ rfl rfl
  exact ⟨e, he, hliteral, hspan, hposition rfl⟩

end Frontend
