import Frontend.Command.Run
import Frontend.Proofs.Position

namespace Frontend

open Lexeme

theorem Text.charsBefore?_append (front back : List Char) :
    charsBefore? (front ++ back) (byteLength front) = some front.length := by
  induction front with
  | nil => cases back <;> rfl
  | cons c front ih =>
    have hpos := Char.utf8Size_pos c
    rw [List.cons_append, charsBefore?, byteLength_cons, if_neg (by omega), if_neg (by omega),
      Nat.add_sub_cancel_left, ih]
    rfl

theorem Text.charOffset_append (front back : List Char) :
    charOffset (front ++ back) (byteLength front) = front.length := by
  rw [charOffset, charsBefore?_append]
  rfl

def Span.covering (front x : List Char) : Span :=
  ⟨Text.byteLength front, Text.byteLength (front ++ x)⟩

theorem Span.label_covering (front x back : List Char) :
    (covering front x).label (front ++ x ++ back) = ⟨front.length, (front ++ x).length⟩ := by
  rw [label, covering, Text.charOffset_append (front ++ x) back, List.append_assoc,
    Text.charOffset_append front (x ++ back)]

/-- A diagnostic is shown beside its source unless the ends of its label are reversed. -/
theorem Terminal.exists_report_iff (t : Terminal) {d : Diagnostic} {span : Span}
    (hd : d.span = some span) (source : String) :
    (∃ shown, t.report source d = .ok shown) ↔
      (span.label source.toList).start ≤ (span.label source.toList).stop := by
  simp only [report, hd, Snippet.layout]
  by_cases hlt : (span.label source.toList).stop < (span.label source.toList).start
  · rw [if_pos hlt]
    simp only [Except.map, reduceCtorEq, exists_false, false_iff]
    exact Nat.not_le.mpr hlt
  · rw [if_neg hlt]
    refine ⟨fun _ => Nat.not_lt.mp hlt, fun _ => ?_⟩
    cases lineAt? source.toList (span.label source.toList).start with
    | none => exact ⟨_, rfl⟩
    | some line => exact ⟨_, rfl⟩

/-- A diagnostic that is about a stretch of the source, and so can be shown beside it. -/
def Diagnostic.IsAbout (d : Diagnostic) (s : List Char) : Prop :=
  ∃ front x back, s = front ++ x ++ back ∧ d.span = some (.covering front x)

theorem Terminal.exists_report (t : Terminal) {source : String} {d : Diagnostic}
    (h : d.IsAbout source.toList) : ∃ shown, t.report source d = .ok shown := by
  obtain ⟨front, x, back, hs, hd⟩ := h
  rw [t.exists_report_iff hd, hs, Span.label_covering, List.length_append]
  exact Nat.le_add_right ..

theorem Lexeme.span_advance (l : Lexeme) (front : List Char) :
    l.span (Cursor.start.advance front) = .covering front l.chars := by
  rw [span, Cursor.offset_start_advance, Span.covering, Text.byteLength_append]

theorem exists_covering_of_mem_lexemesOf {s : List Char} {p : Cursor} {l : Lexeme}
    (h : (p, l) ∈ lexemesOf s) :
    ∃ front x back, s = front ++ x ++ back ∧ l.span p = .covering front x := by
  obtain ⟨front, back, hs, rfl⟩ := exists_append_of_mem_lexemesOf h
  exact ⟨front, l.chars, back, hs, l.span_advance front⟩

theorem isAbout_of_mem_sink {s : List Char} {stream : TokenStream} (h : tokenize s = .ok stream) :
    ∀ d ∈ stream.sink.diagnostics, d.IsAbout s := by
  intro d hd
  rw [sink_of_tokenize h] at hd
  obtain ⟨⟨p, l⟩, hm, hd⟩ := List.mem_filterMap.mp hd
  obtain ⟨front, x, back, hs, hspan⟩ := exists_covering_of_mem_lexemesOf hm
  refine ⟨front, x, back, hs, ?_⟩
  rw [(Lexeme.diagnostic?_eq_some hd).1, hspan]

theorem LexError.span_diagnostic (e : LexError) : e.diagnostic.span = some e.span := by
  unfold diagnostic
  split <;> rfl

theorem isAbout_of_tokenize_error {s : List Char} {e : LexError} (h : tokenize s = .error e) :
    e.diagnostic.IsAbout s := by
  obtain ⟨before, p, l, after, ts, hplaced, -, hread⟩ :=
    exists_append_of_readAll_error (readAll_of_tokenize_error h)
  obtain ⟨fault, -, rfl⟩ := read_eq_error hread
  obtain ⟨front, x, back, hs, hspan⟩ :=
    exists_covering_of_mem_lexemesOf (s := s) (p := p) (l := l) (by simp [hplaced])
  refine ⟨front, x, back, hs, ?_⟩
  rw [LexError.span_diagnostic, hspan]

namespace Command

theorem exists_reportAll (t : Terminal) {source : String} {ds : List Diagnostic}
    (h : ∀ d ∈ ds, d.IsAbout source.toList) : ∃ shown, reportAll t source ds = .ok shown := by
  have hall : ∃ texts, ds.mapM (t.report source) = .ok texts := by
    induction ds with
    | nil => exact ⟨[], rfl⟩
    | cons d ds ih =>
      obtain ⟨text, hd⟩ := t.exists_report (h d (by simp))
      obtain ⟨texts, hds⟩ := ih fun d hm => h d (by simp [hm])
      refine ⟨text :: texts, ?_⟩
      rw [List.mapM_cons, hd, hds]
      rfl
  obtain ⟨texts, htexts⟩ := hall
  exact ⟨String.join texts, by rw [reportAll, htexts]; rfl⟩

end Command

end Frontend
