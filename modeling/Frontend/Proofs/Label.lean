import Frontend.Proofs.Verdict

namespace Frontend

open Lexeme

/-- The label of a span shows the text under it: as many characters stand before it as before the
span, and the characters between its ends are the text. -/
structure Span.IsShown (span : Span) (s : List Char) : Prop where
  before : (Text.split? s span.start).map (fun (front, _) => front.length) =
    some (span.label s).start
  text : Text.slice? s span = some (s.extract (span.label s).start (span.label s).stop)
  ordered : (span.label s).start ≤ (span.label s).stop
  inside : (span.label s).stop ≤ s.length

structure Span.IsShownWide (span : Span) (s : List Char) : Prop extends span.IsShown s where
  wide : (span.label s).start < (span.label s).stop

namespace Span

theorem isShown_covering (front x back : List Char) :
    (covering front x).IsShown (front ++ x ++ back) := by
  constructor
  · rw [label_covering, covering, List.append_assoc, Text.split?_append]
    rfl
  · have hslice : Text.slice? (front ++ x ++ back) (covering front x) = some x :=
      Text.slice?_eq_some_iff.mpr ⟨front, back, rfl, rfl, rfl⟩
    rw [hslice, label_covering, List.extract_eq_take_drop, List.append_assoc, List.drop_left,
      List.length_append, Nat.add_sub_cancel_left, List.take_left]
  · rw [label_covering]
    simp
  · rw [label_covering]
    simp

theorem isShownWide_covering (front back : List Char) {x : List Char} (hx : x ≠ []) :
    (covering front x).IsShownWide (front ++ x ++ back) := by
  have hpos := List.length_pos_iff.mpr hx
  refine ⟨isShown_covering front x back, ?_⟩
  rw [label_covering, List.length_append]
  exact Nat.lt_add_of_pos_right hpos

end Span

theorem isShownWide_of_mem_lexemesOf {s : List Char} {p : Cursor} {l : Lexeme}
    (h : (p, l) ∈ lexemesOf s) : (l.span p).IsShownWide s := by
  obtain ⟨c, rest, rfl⟩ := exists_start_of_mem_lexemesOf h
  obtain ⟨front, back, rfl, rfl⟩ := exists_append_of_mem_lexemesOf h
  rw [span_advance]
  exact Span.isShownWide_covering front back (start_chars_ne_nil c rest)

theorem isShown_of_mem_tokens {s : List Char} {stream : TokenStream} (h : tokenize s = .ok stream)
    {t : SpannedToken} (ht : t ∈ stream.tokens) : t.span.IsShown s := by
  obtain ⟨hread, htokens⟩ := readAll_of_tokenize h
  rw [htokens, List.mem_append, List.mem_singleton] at ht
  obtain ht | rfl := ht
  · obtain ⟨c, rest, front, back, rfl, -, hspan⟩ := exists_lexeme_of_mem hread ht
    rw [hspan]
    exact Span.isShown_covering front _ back
  · have heof := Span.isShown_covering s [] []
    rw [Span.covering, List.append_nil, List.append_nil] at heof
    rw [SpannedToken.eofAt, Cursor.offset_start_advance]
    exact heof

theorem isShownWide_of_mem_sink {s : List Char} {stream : TokenStream}
    (h : tokenize s = .ok stream) {d : Diagnostic} (hd : d ∈ stream.sink.diagnostics) :
    ∃ span, d.span = some span ∧ span.IsShownWide s := by
  rw [sink_of_tokenize h] at hd
  obtain ⟨⟨p, l⟩, hm, hd⟩ := List.mem_filterMap.mp hd
  exact ⟨l.span p, (diagnostic?_eq_some hd).1, isShownWide_of_mem_lexemesOf hm⟩

theorem isShownWide_of_tokenize_error {s : List Char} {e : LexError} (h : tokenize s = .error e) :
    e.span.IsShownWide s := by
  obtain ⟨front, p, l, back, ts, hplaced, -, hread⟩ :=
    exists_append_of_readAll_error (readAll_of_tokenize_error h)
  have hm : (p, l) ∈ lexemesOf s := by simp [hplaced]
  obtain ⟨fault, -, rfl⟩ := read_eq_error hread
  exact isShownWide_of_mem_lexemesOf hm

namespace Command

theorem exists_lex (t : Terminal) (source : String) : ∃ outcome, lex t source = .ok outcome := by
  cases h : tokenize source.toList with
  | ok stream =>
    obtain ⟨shown, hlex⟩ := exists_lex_of_ok t h
    exact ⟨_, hlex⟩
  | error e =>
    obtain ⟨shown, hlex⟩ := exists_lex_of_error t h
    exact ⟨_, hlex⟩

theorem exists_check (t : Terminal) (file source : String) :
    ∃ outcome, check t file source = .ok outcome := by
  cases h : tokenize source.toList with
  | ok stream =>
    obtain ⟨outcome, hcheck, -⟩ := exists_check_of_ok t file h
    exact ⟨outcome, hcheck⟩
  | error e =>
    obtain ⟨shown, hcheck⟩ := exists_check_of_error t file h
    exact ⟨_, hcheck⟩

end Command

/-- Every span of a source is labelled with exactly its text, and with some text where something is
wrong with it, so that both commands can show all they find. -/
theorem tokenize_labels (source : String) :
    (∀ stream, tokenize source.toList = .ok stream →
      (∀ t ∈ stream.tokens, t.span.IsShown source.toList) ∧
      ∀ d ∈ stream.sink.diagnostics,
        ∃ span, d.span = some span ∧ span.IsShownWide source.toList) ∧
    (∀ e, tokenize source.toList = .error e →
      e.diagnostic.span = some e.span ∧ e.span.IsShownWide source.toList) ∧
    ∀ (t : Terminal) (file : String),
      (∃ outcome, Command.lex t source = .ok outcome) ∧
      ∃ outcome, Command.check t file source = .ok outcome := by
  refine ⟨?_, ?_, ?_⟩
  · intro stream h
    exact ⟨fun t ht => isShown_of_mem_tokens h ht, fun d hd => isShownWide_of_mem_sink h hd⟩
  · intro e h
    exact ⟨e.span_diagnostic, isShownWide_of_tokenize_error h⟩
  · intro t file
    exact ⟨Command.exists_lex t source, Command.exists_check t file source⟩

theorem tokenize_labels_wide_characters :
    (∃ stream, tokenize "日é @\r".toList = .ok stream ∧
      stream.sink.diagnostics.map (fun d => d.span.map (·.label "日é @\r".toList)) =
        [some ⟨0, 1⟩, some ⟨1, 2⟩, some ⟨3, 4⟩, some ⟨4, 5⟩] ∧
      (∀ t ∈ stream.tokens, t.span.IsShown "日é @\r".toList) ∧
      ∀ d ∈ stream.sink.diagnostics,
        ∃ span, d.span = some span ∧ span.IsShownWide "日é @\r".toList) ∧
    ∃ e, tokenize "日9223372036854775808".toList = .error e ∧
      e.span.label "日9223372036854775808".toList = ⟨1, 20⟩ ∧
      e.span.IsShownWide "日9223372036854775808".toList := by
  refine ⟨?_, ?_⟩
  · obtain ⟨stream, h, hlabels⟩ : ∃ stream, tokenize "日é @\r".toList = .ok stream ∧
        stream.sink.diagnostics.map (fun d => d.span.map (·.label "日é @\r".toList)) =
          [some ⟨0, 1⟩, some ⟨1, 2⟩, some ⟨3, 4⟩, some ⟨4, 5⟩] := ⟨_, rfl, rfl⟩
    exact ⟨stream, h, hlabels, (tokenize_labels "日é @\r").1 stream h⟩
  · obtain ⟨e, h, hlabel⟩ : ∃ e, tokenize "日9223372036854775808".toList = .error e ∧
        e.span.label "日9223372036854775808".toList = ⟨1, 20⟩ := ⟨_, rfl, rfl⟩
    exact ⟨e, h, hlabel, ((tokenize_labels "日9223372036854775808").2.1 e h).2⟩

end Frontend
