import Frontend.Proofs.Site

namespace Frontend

open Lexeme

def Token.isUnknown : Token → Bool
  | unknown _ => true
  | _ => false

def Token.isNewline : Token → Bool
  | newline => true
  | _ => false

def Diagnostic.mark (d : Diagnostic) : Level × Option Span × Option Position :=
  (d.level, d.span, d.position)

namespace Site

def isUnrecognized (x : Site) : Bool := !isRecognized x.char

/-- A carriage return that no line feed follows, be it at the end of the text. -/
def isLoneReturn (x : Site) : Bool := x.char = '\r' && x.after.head? ≠ some '\n'

def isLineEnd (x : Site) : Bool := x.char = '\n' || x.char = '\r'

def level? (x : Site) : Option Level :=
  if x.isUnrecognized then some .error else if x.isLoneReturn then some .warning else none

def token (x : Site) (t : Token) : SpannedToken := ⟨t, x.span, x.position⟩

def token? (x : Site) : Option SpannedToken :=
  if x.isUnrecognized then some (x.token (.unknown x.char))
  else if x.isLineEnd then some (x.token .newline) else none

def mark (x : Site) (level : Level) : Level × Option Span × Option Position :=
  (level, some x.span, some x.position)

end Site

theorem span_of_alone {l : Lexeme} {c : Char} (h : l.chars = [c]) (before rest : List Char) :
    l.span (Cursor.start.advance before) = Site.span ⟨before, c, rest⟩ := by
  rw [Lexeme.span, Site.span, Cursor.offset_start_advance, h, Text.byteLength_append]

theorem spanned?_of_alone {l : Lexeme} {c : Char} {t : Token} (h : l.chars = [c])
    (ht : l.token? = .ok (some t)) (before rest : List Char) :
    spanned? (Cursor.start.advance before, l) = some (Site.token ⟨before, c, rest⟩ t) := by
  rw [spanned?_advance ht, h]
  rfl

theorem not_standsOut_site {x : Site} (h : (classOf x.char).standsOut = false) :
    x.isUnrecognized = false ∧ x.isLineEnd = false := by
  refine ⟨?_, ?_⟩
  · cases hr : isRecognized x.char with
    | true => simp [Site.isUnrecognized, hr]
    | false =>
      rw [classOf_of_not_isRecognized hr] at h
      contradiction
  · rw [Site.isLineEnd, Bool.or_eq_false_iff, decide_eq_false_iff_not, decide_eq_false_iff_not]
    refine ⟨?_, ?_⟩
    · intro hc
      rw [hc] at h
      contradiction
    · intro hc
      rw [hc] at h
      contradiction

theorem not_standsOut_token {l : Lexeme} {t : Token} (hl : l.charClass.standsOut = false)
    (ht : l.token? = .ok (some t)) : t.isUnknown = false ∧ t.isNewline = false := by
  cases l with
  | lineFeed | carriageReturn | unknown => cases hl
  | blanks => cases ht
  | integer digits =>
    obtain ⟨n, hn⟩ := eq_int_of_token? ht
    cases hn
    exact ⟨rfl, rfl⟩
  | _ =>
    cases ht
    exact ⟨rfl, rfl⟩

theorem seenAlike_mark : SeenAlike (fun x => x.level?.map x.mark)
    fun (p, l) => (l.diagnostic? p).map Diagnostic.mark where
  site x hx := by
    obtain ⟨hu, he⟩ := not_standsOut_site hx
    have hr : x.isLoneReturn = false := by simp_all [Site.isLineEnd, Site.isLoneReturn]
    simp [Site.level?, hu, hr]
  lexeme p l hl := by
    cases l with
    | lineFeed | carriageReturn | unknown => cases hl
    | _ => rfl
  alike before c rest l hs hl := by
    have hspan := span_of_alone (hs.chars_of_standsOut hl) before rest
    have hposition := position_advance before
    obtain ⟨rfl, rfl⟩ | ⟨rfl, rfl⟩ | ⟨hc, rfl⟩ := hs.standsOut_cases hl
    · rfl
    · by_cases hn : rest.head? = some '\n'
      · have hlevel : Site.level? ⟨before, '\r', rest⟩ = none := by
          simp [Site.level?, Site.isUnrecognized, Site.isLoneReturn, isRecognized, hn]
        rw [hlevel, decide_eq_true hn]
        rfl
      · have hlevel : Site.level? ⟨before, '\r', rest⟩ = some .warning := by
          simp [Site.level?, Site.isUnrecognized, Site.isLoneReturn, isRecognized, hn]
        rw [decide_eq_false hn] at hspan ⊢
        rw [hlevel, Option.map_some, Site.mark, Site.position, ← hspan, ← hposition]
        rfl
    · have hlevel : Site.level? ⟨before, c, rest⟩ = some .error := by
        simp [Site.level?, Site.isUnrecognized, hc]
      rw [hlevel, Option.map_some, Site.mark, Site.position, ← hspan, ← hposition]
      rfl

theorem spanned?_of_standsOut {c : Char} {rest : List Char} {l : Lexeme} (h : Starts c rest l)
    (hl : l.charClass.standsOut) (before : List Char) :
    spanned? (Cursor.start.advance before, l) = Site.token? ⟨before, c, rest⟩ := by
  have hchars := h.chars_of_standsOut hl
  obtain ⟨rfl, rfl⟩ | ⟨rfl, rfl⟩ | ⟨hc, rfl⟩ := h.standsOut_cases hl
  · exact spanned?_of_alone hchars rfl before rest
  · exact spanned?_of_alone hchars rfl before rest
  · have htoken : Site.token? ⟨before, c, rest⟩ =
        some (Site.token ⟨before, c, rest⟩ (.unknown c)) := by
      simp [Site.token?, Site.isUnrecognized, hc]
    rw [htoken]
    exact spanned?_of_alone hchars rfl before rest

theorem seenAlike_token {isKind : Token → Bool} (h : ∀ t, isKind t → t.isUnknown ∨ t.isNewline) :
    SeenAlike (fun x => x.token?.filter (isKind ·.token))
      fun y => (spanned? y).filter (isKind ·.token) where
  site x hx := by
    obtain ⟨hu, he⟩ := not_standsOut_site hx
    simp [Site.token?, hu, he]
  lexeme p l hl := by
    rw [Option.filter_eq_none_iff]
    intro t ht hk
    obtain ⟨hu, hn⟩ := not_standsOut_token hl (eq_of_spanned? ht).1
    simpa [hu, hn] using h _ hk
  alike before c rest l hs hl := by rw [spanned?_of_standsOut hs hl]

theorem filter_tokens {s : List Char} {stream : TokenStream} (hs : tokenize s = .ok stream)
    {isKind : Token → Bool} (h : ∀ t, isKind t → t.isUnknown ∨ t.isNewline) :
    stream.tokens.filter (isKind ·.token) =
      (sitesOf s).filterMap fun x => x.token?.filter (isKind ·.token) := by
  obtain ⟨ts, hr, hts⟩ := exists_readAll_of_tokenize hs
  have heof : ¬isKind .eof := by
    intro hk
    simpa [Token.isUnknown, Token.isNewline] using h _ hk
  rw [hts, List.filter_append, eq_filterMap_of_readAll hr, List.filter_filterMap,
    (seenAlike_token h).filterMap_sitesOf]
  simp [SpannedToken.eofAt, heof]

theorem filter_isUnknown {s : List Char} {stream : TokenStream} (h : tokenize s = .ok stream) :
    stream.tokens.filter (·.token.isUnknown) =
      ((sitesOf s).filter Site.isUnrecognized).map fun x => x.token (.unknown x.char) := by
  rw [filter_tokens h fun t ht => .inl ht, ← List.filterMap_eq_map', List.filterMap_filter]
  congr 1
  funext x
  by_cases hu : x.isUnrecognized
  · simp [Site.token?, hu, Site.token, Token.isUnknown]
  · by_cases he : x.isLineEnd <;> simp [Site.token?, hu, he, Site.token, Token.isUnknown]

theorem isUnrecognized_of_isLineEnd {x : Site} (h : x.isLineEnd) : x.isUnrecognized = false := by
  have hc : x.char = '\n' ∨ x.char = '\r' := by simpa [Site.isLineEnd] using h
  obtain hc | hc := hc <;> simp [Site.isUnrecognized, isRecognized, hc]

theorem filter_isNewline {s : List Char} {stream : TokenStream} (h : tokenize s = .ok stream) :
    stream.tokens.filter (·.token.isNewline) =
      ((sitesOf s).filter Site.isLineEnd).map fun x => x.token .newline := by
  rw [filter_tokens h fun t ht => .inr ht, ← List.filterMap_eq_map', List.filterMap_filter]
  congr 1
  funext x
  by_cases he : x.isLineEnd
  · simp [Site.token?, isUnrecognized_of_isLineEnd he, he, Site.token, Token.isNewline]
  · by_cases hu : x.isUnrecognized <;> simp [Site.token?, hu, he, Site.token, Token.isNewline]

theorem map_mark_diagnostics {s : List Char} {stream : TokenStream}
    (h : tokenize s = .ok stream) : stream.sink.diagnostics.map Diagnostic.mark =
      (sitesOf s).filterMap fun x => x.level?.map x.mark := by
  rw [sink_of_tokenize h, List.map_filterMap, seenAlike_mark.filterMap_sitesOf]

theorem count_diagnostics {s : List Char} {stream : TokenStream} (h : tokenize s = .ok stream)
    (level : Level) :
    stream.sink.count level = (sitesOf s).countP fun x => x.level? = some level := by
  have hcount : stream.sink.count level =
      (stream.sink.diagnostics.map Diagnostic.mark).countP fun m => m.1 = level := by
    rw [List.countP_map]
    rfl
  rw [hcount, map_mark_diagnostics h, List.countP_filterMap]
  congr 1
  funext x
  cases x.level? <;> simp [Site.mark]

theorem errorCount_eq {s : List Char} {stream : TokenStream} (h : tokenize s = .ok stream) :
    stream.sink.errorCount = s.countP fun c => !isRecognized c := by
  have hlevel : ∀ x : Site, decide (x.level? = some .error) = !isRecognized x.char := by
    intro x
    by_cases hu : isRecognized x.char
    · by_cases hr : x.isLoneReturn <;> simp [Site.level?, Site.isUnrecognized, hu, hr]
    · simp [Site.level?, Site.isUnrecognized, hu]
  have hchars : s.countP (fun c => !isRecognized c) =
      ((sitesOf s).map Site.char).countP fun c => !isRecognized c := by
    rw [sitesOf, Site.map_char_within]
  rw [Sink.errorCount, count_diagnostics h, hchars, List.countP_map]
  simp only [hlevel]
  rfl

theorem warningCount_eq {s : List Char} {stream : TokenStream} (h : tokenize s = .ok stream) :
    stream.sink.warningCount = (sitesOf s).countP Site.isLoneReturn := by
  rw [Sink.warningCount, count_diagnostics h]
  congr 1
  funext x
  by_cases hr : x.isLoneReturn
  · have he : x.isLineEnd := by simp_all [Site.isLoneReturn, Site.isLineEnd]
    simp [Site.level?, isUnrecognized_of_isLineEnd he, hr]
  · by_cases hu : x.isUnrecognized <;> simp [Site.level?, hu, hr]

/-- What is wrong with a source is said of its characters, one by one: each that cannot be
recognized is an error and an unknown token, each carriage return without a line feed a warning. -/
theorem tokenize_diagnoses {s : List Char} {stream : TokenStream} (h : tokenize s = .ok stream) :
    stream.sink.diagnostics.map Diagnostic.mark =
      (sitesOf s).filterMap (fun x => x.level?.map x.mark) ∧
    stream.tokens.filter (·.token.isUnknown) =
      ((sitesOf s).filter Site.isUnrecognized).map (fun x => x.token (.unknown x.char)) ∧
    stream.tokens.filter (·.token.isNewline) =
      ((sitesOf s).filter Site.isLineEnd).map (fun x => x.token .newline) ∧
    stream.sink.errorCount = s.countP (fun c => !isRecognized c) ∧
    stream.sink.warningCount = (sitesOf s).countP Site.isLoneReturn ∧
    stream.sink.size = s.countP (fun c => !isRecognized c) + (sitesOf s).countP Site.isLoneReturn ∧
    (stream.hadError ↔ ∃ c ∈ s, isRecognized c = false) := by
  have herrors := errorCount_eq h
  have hwarnings := warningCount_eq h
  refine ⟨map_mark_diagnostics h, filter_isUnknown h, filter_isNewline h, herrors, hwarnings, ?_,
    ?_⟩
  · rw [Sink.size_eq, herrors, hwarnings]
  · rw [TokenStream.hadError, Sink.hasErrors_iff, herrors, List.countP_pos_iff]
    simp

theorem tokenize_diagnoses_lone_returns :
    ∃ stream, tokenize "é\r\n@\r日\r".toList = .ok stream ∧
      stream.sink.diagnostics.map Diagnostic.mark =
        [(.error, some ⟨0, 2⟩, some ⟨1, 1⟩), (.error, some ⟨4, 5⟩, some ⟨2, 1⟩),
          (.warning, some ⟨5, 6⟩, some ⟨2, 2⟩), (.error, some ⟨6, 9⟩, some ⟨2, 3⟩),
          (.warning, some ⟨9, 10⟩, some ⟨2, 4⟩)] ∧
      stream.sink.errorCount = 3 ∧ stream.sink.warningCount = 2 := by
  obtain ⟨stream, h⟩ : ∃ stream, tokenize "é\r\n@\r日\r".toList = .ok stream := ⟨_, rfl⟩
  obtain ⟨hmarks, -, -, herrors, hwarnings, -⟩ := tokenize_diagnoses h
  exact ⟨stream, h, hmarks, herrors, hwarnings⟩

end Frontend
