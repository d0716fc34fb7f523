import Frontend.Proofs.Cover
import Frontend.Proofs.Shift
import Mathlib.Data.List.DropRight

namespace Frontend

def lastLine (front : List Char) : List Char := front.rtakeWhile (· ≠ '\n')

/-- The position behind a text, counted from the text as a whole: its line feeds give the line, the
characters behind the last of them the column. -/
def positionAfter (front : List Char) : Position :=
  ⟨1 + front.count '\n', 1 + (lastLine front).length⟩

def positionAt? (s : List Char) (offset : Nat) : Option Position :=
  (Text.split? s offset).map fun (front, _) => positionAfter front

/-- The bytes passed on a walk down `n` lines and then `k` characters along a line. -/
def walk? : Nat → Nat → List Char → Option Nat
  | 0, 0, _ => some 0
  | _, _, [] => none
  | 0, k + 1, c :: cs => if c = '\n' then none else (walk? 0 k cs).map (c.utf8Size + ·)
  | n + 1, k, c :: cs => (walk? (if c = '\n' then n else n + 1) k cs).map (c.utf8Size + ·)

def offsetAt? (s : List Char) (p : Position) : Option Nat := walk? (p.line - 1) (p.column - 1) s

theorem lastLine_concat (front : List Char) (c : Char) :
    lastLine (front ++ [c]) = if c = '\n' then [] else lastLine front ++ [c] := by
  by_cases hc : c = '\n'
  · rw [if_pos hc, lastLine, List.rtakeWhile_concat_neg _ _ _ (by simpa using hc)]
  · rw [if_neg hc, lastLine, List.rtakeWhile_concat_pos _ _ _ (by simpa using hc)]
    rfl

theorem lastLine_append (front : List Char) {x : List Char} (hx : '\n' ∉ x) :
    lastLine (front ++ x) = lastLine front ++ x := by
  induction x using List.reverseRecOn with
  | nil => simp
  | append_singleton x c ih =>
    have hc : c ≠ '\n' := by
      rintro rfl
      simp at hx
    rw [← List.append_assoc, lastLine_concat, if_neg hc, ih (by simp_all), List.append_assoc]

theorem lastLine_cons (c : Char) (front : List Char) :
    lastLine (c :: front) = if '\n' ∈ c :: front then lastLine front else c :: front := by
  induction front using List.reverseRecOn with
  | nil =>
    change lastLine ([] ++ [c]) = _
    rw [lastLine_concat]
    by_cases hc : c = '\n'
    · simp [hc, lastLine]
    · simp [hc, Ne.symm hc, lastLine]
  | append_singleton front d ih =>
    rw [← List.cons_append, lastLine_concat, lastLine_concat, ih]
    by_cases hd : d = '\n'
    · simp [hd]
    · by_cases hm : '\n' ∈ c :: front
      · have hm' : '\n' ∈ c :: front ++ [d] := List.mem_append_left _ hm
        rw [if_neg hd, if_pos hm, if_neg hd, if_pos hm']
      · have hm' : '\n' ∉ c :: front ++ [d] := by simp_all [Ne.symm hd]
        rw [if_neg hd, if_neg hm, if_neg hm']

theorem position_advance (front : List Char) :
    (Cursor.start.advance front).position = positionAfter front := by
  induction front using List.reverseRecOn with
  | nil => rfl
  | append_singleton front c ih =>
    rw [Cursor.advance_append]
    change ((Cursor.start.advance front).step c).position = _
    rw [Cursor.step, ih, positionAfter, positionAfter, lastLine_concat, List.count_append]
    by_cases hc : c = '\n'
    · simp [hc, Nat.add_assoc]
    · simp [hc, Nat.add_assoc]

theorem walk?_append (front back : List Char) :
    walk? (front.count '\n') (lastLine front).length (front ++ back) =
      some (Text.byteLength front) := by
  induction front with
  | nil => simp [lastLine, walk?, Text.byteLength]
  | cons c front ih =>
    rw [lastLine_cons, List.cons_append, Text.byteLength_cons]
    by_cases hc : c = '\n'
    · simp [hc, walk?, ih]
    · cases hn : front.count '\n' with
      | zero =>
        have hm : '\n' ∉ front := List.count_eq_zero.mp hn
        have hline : lastLine front = front := lastLine_append [] hm
        rw [hn, hline] at ih
        simp [hc, Ne.symm hc, hn, hm, walk?, ih]
      | succ n =>
        have hm : '\n' ∈ front := by
          rw [← List.count_pos_iff, hn]
          exact Nat.succ_pos n
        rw [hn] at ih
        simp [hc, hn, hm, walk?, ih]

theorem Position.compare_eq_lt_iff {p q : Position} :
    compare p q = .lt ↔ p.line < q.line ∨ p.line = q.line ∧ p.column < q.column := by
  change (compare p.line q.line).then (compare p.column q.column) = .lt ↔ _
  rw [Ordering.then_eq_lt, Nat.compare_eq_lt, Nat.compare_eq_eq, Nat.compare_eq_lt]

theorem compare_positionAfter (front : List Char) {x : List Char} (hx : x ≠ []) :
    compare (positionAfter front) (positionAfter (front ++ x)) = .lt := by
  rw [Position.compare_eq_lt_iff]
  simp only [positionAfter, List.count_append]
  by_cases hm : '\n' ∈ x
  · have hpos := List.count_pos_iff.mpr hm
    exact .inl (by omega)
  · have hlen := List.length_pos_iff.mpr hx
    rw [List.count_eq_zero.mpr hm, lastLine_append front hm, List.length_append]
    exact .inr ⟨rfl, by omega⟩

theorem compare_of_positionAt? {s : List Char} {o o' : Nat} {p p' : Position}
    (h : positionAt? s o = some p) (h' : positionAt? s o' = some p') (hlt : o < o') :
    compare p p' = .lt := by
  obtain ⟨⟨front, back⟩, hs, rfl⟩ := Option.map_eq_some_iff.mp h
  obtain ⟨⟨front', back'⟩, hs', rfl⟩ := Option.map_eq_some_iff.mp h'
  obtain ⟨rfl, rfl⟩ := Text.split?_eq_some_iff.mp hs
  obtain ⟨he, rfl⟩ := Text.split?_eq_some_iff.mp hs'
  obtain ⟨x, rfl, -⟩ | ⟨x, rfl, -⟩ := List.append_eq_append_iff.mp he
  · apply compare_positionAfter
    rintro rfl
    simp at hlt
  · rw [Text.byteLength_append] at hlt
    omega

/-- A position that belongs to the start of a span, counted and walked. -/
structure Locates (s : List Char) (span : Span) (position : Position) : Prop where
  counted : positionAt? s span.start = some position
  walked : offsetAt? s position = some span.start

theorem locates_advance (front back : List Char) (stop : Nat) :
    Locates (front ++ back) ⟨(Cursor.start.advance front).offset, stop⟩
      (Cursor.start.advance front).position := by
  rw [Cursor.offset_start_advance, position_advance]
  constructor
  · simp [positionAt?, Text.split?_append]
  · simp [offsetAt?, positionAfter, walk?_append]

theorem locates_of_mem_lexemesOf {s : List Char} {p : Cursor} {l : Lexeme}
    (h : (p, l) ∈ lexemesOf s) : Locates s (l.span p) p.position := by
  obtain ⟨front, back, rfl, rfl⟩ := exists_append_of_mem_lexemesOf h
  rw [List.append_assoc]
  exact locates_advance front _ _

theorem Lexeme.diagnostic?_eq_some {p : Cursor} {l : Lexeme} {d : Diagnostic}
    (h : l.diagnostic? p = some d) : d.span = some (l.span p) ∧ d.position = some p.position := by
  unfold diagnostic? at h
  split at h <;> cases h <;> exact ⟨rfl, rfl⟩

theorem locates_of_mem_tokens {s : List Char} {stream : TokenStream}
    (h : tokenize s = .ok stream) {t : SpannedToken} (ht : t ∈ stream.tokens) :
    Locates s t.span t.position := by
  obtain ⟨ts, hr, hts⟩ := exists_readAll_of_tokenize h
  rw [hts, List.mem_append, List.mem_singleton] at ht
  obtain ht | rfl := ht
  · rw [Lexeme.eq_filterMap_of_readAll hr] at ht
    obtain ⟨⟨p, l⟩, hm, hsp⟩ := List.mem_filterMap.mp ht
    rw [(Lexeme.eq_of_spanned? hsp).2]
    exact locates_of_mem_lexemesOf hm
  · have heof := locates_advance s [] (Cursor.start.advance s).offset
    rw [List.append_nil] at heof
    exact heof

theorem span_bounds {s : List Char} {ts : List SpannedToken}
    (hr : Lexeme.readAll (lexemesOf s) = .ok ts) {t : SpannedToken} (ht : t ∈ ts) :
    t.span.start < t.span.stop ∧ t.span.stop ≤ Text.byteLength s := by
  obtain ⟨c, rest, front, back, rfl, -, hspan⟩ := exists_lexeme_of_mem hr ht
  have hpos := Text.byteLength_pos (Lexeme.start_chars_ne_nil c rest)
  simp only [hspan, Text.byteLength_append]
  omega

theorem pairwise_starts {s : List Char} {stream : TokenStream} (h : tokenize s = .ok stream) :
    stream.tokens.Pairwise fun t u => t.span.start < u.span.start := by
  obtain ⟨ts, hr, hts⟩ := exists_readAll_of_tokenize h
  rw [hts, List.pairwise_append]
  refine ⟨?_, List.pairwise_singleton .., ?_⟩
  · refine (pairwise_spans hr).imp_of_mem ?_
    intro t u ht _ hle
    exact Nat.lt_of_lt_of_le (span_bounds hr ht).1 hle
  · intro t ht u hu
    obtain rfl := List.mem_singleton.mp hu
    have hb := span_bounds hr ht
    rw [SpannedToken.eofAt, Cursor.offset_start_advance]
    exact Nat.lt_of_lt_of_le hb.1 hb.2

/-- Whatever is reported about a source, a token, a diagnostic or a fault, is reported at the line
and column where it stands, so that later tokens have later positions. -/
theorem tokenize_positions (s : List Char) :
    (∀ stream, tokenize s = .ok stream →
      (∀ t ∈ stream.tokens, Locates s t.span t.position) ∧
      (∀ d ∈ stream.sink.diagnostics, ∃ span position,
        d.span = some span ∧ d.position = some position ∧ Locates s span position) ∧
      stream.tokens.Pairwise fun t u => compare t.position u.position = .lt) ∧
    ∀ e, tokenize s = .error e → Locates s e.span e.position := by
  refine ⟨?_, ?_⟩
  · intro stream h
    have htokens : ∀ t ∈ stream.tokens, Locates s t.span t.position :=
      fun t ht => locates_of_mem_tokens h ht
    refine ⟨htokens, ?_, ?_⟩
    · intro d hd
      rw [sink_of_tokenize h] at hd
      obtain ⟨⟨p, l⟩, hm, hd⟩ := List.mem_filterMap.mp hd
      obtain ⟨hspan, hposition⟩ := Lexeme.diagnostic?_eq_some hd
      exact ⟨_, _, hspan, hposition, locates_of_mem_lexemesOf hm⟩
    · refine (pairwise_starts h).imp_of_mem ?_
      intro t u ht hu hlt
      exact compare_of_positionAt? (htokens t ht).counted (htokens u hu).counted hlt
  · intro e h
    obtain ⟨front, p, l, back, ts, hplaced, -, hread⟩ :=
      Lexeme.exists_append_of_readAll_error (readAll_of_tokenize_error h)
    have hm : (p, l) ∈ lexemesOf s := by simp [hplaced]
    obtain ⟨fault, -, rfl⟩ := Lexeme.read_eq_error hread
    exact locates_of_mem_lexemesOf hm

theorem tokenize_positions_mixed_ends :
    (∃ stream, tokenize "é\r7\n日 @\r\n\tfun x".toList = .ok stream ∧
      stream.tokens.map SpannedToken.position =
        [⟨1, 1⟩, ⟨1, 2⟩, ⟨1, 3⟩, ⟨1, 4⟩, ⟨2, 1⟩, ⟨2, 3⟩, ⟨2, 4⟩, ⟨2, 5⟩, ⟨3, 2⟩, ⟨3, 6⟩, ⟨3, 7⟩] ∧
      ∀ t ∈ stream.tokens, Locates "é\r7\n日 @\r\n\tfun x".toList t.span t.position) ∧
    ∃ e, tokenize "é\r\n日9223372036854775808".toList = .error e ∧ e.position = ⟨2, 2⟩ ∧
      Locates "é\r\n日9223372036854775808".toList e.span e.position := by
  refine ⟨?_, ?_⟩
  · obtain ⟨stream, h, hp⟩ : ∃ stream, tokenize "é\r7\n日 @\r\n\tfun x".toList = .ok stream ∧
        stream.tokens.map SpannedToken.position =
          [⟨1, 1⟩, ⟨1, 2⟩, ⟨1, 3⟩, ⟨1, 4⟩, ⟨2, 1⟩, ⟨2, 3⟩, ⟨2, 4⟩, ⟨2, 5⟩, ⟨3, 2⟩, ⟨3, 6⟩,
            ⟨3, 7⟩] := ⟨_, rfl, rfl⟩
    exact ⟨stream, h, hp, ((tokenize_positions _).1 stream h).1⟩
  · obtain ⟨e, h, hp⟩ : ∃ e, tokenize "é\r\n日9223372036854775808".toList = .error e ∧
        e.position = ⟨2, 2⟩ := ⟨_, rfl, rfl⟩
    exact ⟨e, h, hp, (tokenize_positions _).2 e h⟩

end Frontend
