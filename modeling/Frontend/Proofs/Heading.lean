import Frontend.Proofs.Diagnosis
import Frontend.Proofs.Label
import Frontend.Proofs.Unstyled

namespace Frontend

open Text (plain styled)

theorem flatten_splitLines (s : List Char) : (splitLines s).flatten = s := by
  fun_induction splitLines s with
  | case1 => rfl
  | case2 cs ih => simp [ih]
  | case3 c cs _ hc ih => simp [ih]
  | case4 c cs _ hc hnil ih =>
    rw [hnil] at ih
    simp [← ih]
  | case5 c cs _ hc l ls hcons ih =>
    rw [hcons] at ih
    simp [← ih]

/-- Lines ended by line feeds, but for the last of them, which the end of the text may end. -/
inductive FedLines : List (List Char) → Prop
  | nil : FedLines []
  | last {x : List Char} (hx : '\n' ∉ x) : FedLines [x]
  | cons {x : List Char} {ls : List (List Char)} (hx : '\n' ∉ x) (hls : FedLines ls) :
      FedLines ((x ++ ['\n']) :: ls)

/-- Sources in which only a line feed ends a line: a carriage return stands right before one, and
no other character that a snippet takes for the end of a line is there. -/
structure EndsLinesByFeed (s : List Char) : Prop where
  paired : ∀ x ∈ sitesOf s, x.isLoneReturn = false
  others : ∀ c ∈ s, c ∉ ['\x0b', '\x0c', '\u0085', '\u2028', '\u2029']

theorem EndsLinesByFeed.tail {c : Char} {cs : List Char} (h : EndsLinesByFeed (c :: cs)) :
    EndsLinesByFeed cs := by
  refine ⟨?_, fun d hd => h.others d (List.mem_cons_of_mem c hd)⟩
  intro x hx
  apply h.paired ⟨c :: x.before, x.char, x.after⟩
  rw [mem_sitesOf_iff] at hx ⊢
  rw [hx]
  rfl

theorem EndsLinesByFeed.eq_lineFeed {c : Char} {cs : List Char} (h : EndsLinesByFeed (c :: cs))
    (hc : isTerminator c) (hpair : ∀ ds, c = '\r' → cs ≠ '\n' :: ds) : c = '\n' := by
  have hother := h.others c (by simp)
  have hreturn : c ≠ '\r' := by
    rintro rfl
    have hlone := h.paired ⟨[], '\r', cs⟩ (mem_sitesOf_iff.mpr rfl)
    cases cs with
    | nil => simp [Site.isLoneReturn] at hlone
    | cons d ds =>
      have hd : d ≠ '\n' := by
        rintro rfl
        exact hpair ds rfl rfl
      simp [Site.isLoneReturn, hd] at hlone
  simp_all [isTerminator]

theorem ne_lineFeed_of_not_isTerminator {c : Char} (h : ¬isTerminator c) : c ≠ '\n' := by
  rintro rfl
  exact h rfl

theorem FedLines.cons_head {c : Char} {l : List Char} {ls : List (List Char)} (hc : c ≠ '\n')
    (h : FedLines (l :: ls)) : FedLines ((c :: l) :: ls) := by
  cases h with
  | last hx => exact .last (by simp [Ne.symm hc, hx])
  | cons hx hls => exact .cons (x := c :: _) (by simp [Ne.symm hc, hx]) hls

theorem fedLines_splitLines {s : List Char} (h : EndsLinesByFeed s) : FedLines (splitLines s) := by
  fun_induction splitLines s with
  | case1 => exact .nil
  | case2 cs ih => exact .cons (x := ['\r']) (by decide) (ih h.tail.tail)
  | case3 c cs hpair hc ih =>
    obtain rfl := h.eq_lineFeed hc hpair
    exact .cons (x := []) (by simp) (ih h.tail)
  | case4 c cs _ hc hnil ih =>
    have hfeed := ne_lineFeed_of_not_isTerminator hc
    exact .last (by simp [Ne.symm hfeed])
  | case5 c cs _ hc l ls hcons ih =>
    rw [hcons] at ih
    exact (ih h.tail).cons_head (ne_lineFeed_of_not_isTerminator hc)

theorem lastLine_of_not_mem {front : List Char} (h : '\n' ∉ front) : lastLine front = front :=
  lastLine_append [] h

theorem lastLine_append_lineFeed (x front : List Char) :
    lastLine (x ++ '\n' :: front) = lastLine front := by
  induction x with
  | nil => simp [lastLine_cons]
  | cons c x ih => rw [List.cons_append, lastLine_cons, if_pos (by simp), ih]

theorem length_lastLine_le (front : List Char) : (lastLine front).length ≤ front.length :=
  (List.rtakeWhile_suffix _ front).length_le

theorem cases_lineFeed {x rest front back : List Char} {c : Char}
    (h : x ++ '\n' :: rest = front ++ c :: back) :
    (∃ mid, x = front ++ mid) ∨
      ∃ front', front = x ++ '\n' :: front' ∧ rest = front' ++ c :: back := by
  obtain ⟨mid, hfront, hrest⟩ | ⟨mid, hx, -⟩ := List.append_eq_append_iff.mp h
  · cases mid with
    | nil => exact .inl ⟨[], by simpa using hfront.symm⟩
    | cons m mid =>
      obtain ⟨rfl, htail⟩ := List.cons.inj hrest
      exact .inr ⟨mid, hfront, htail⟩
  · exact .inl ⟨mid, hx⟩

theorem lineFrom?_of_lt {number start o : Nat} {l : List Char} {ls : List (List Char)}
    (h : o < start + l.length) :
    lineFrom? number start o (l :: ls) = some ⟨number, start, l⟩ := by
  cases ls with
  | nil => rfl
  | cons m ls => simp [lineFrom?, h]

theorem lineFrom?_of_le {number start o : Nat} {l m : List Char} {ls : List (List Char)}
    (h : start + l.length ≤ o) :
    lineFrom? number start o (l :: m :: ls) =
      lineFrom? (number + 1) (start + l.length) o (m :: ls) := by
  simp [lineFrom?, Nat.not_lt.mpr h]

/-- On lines ended by line feeds, the line of a place is found by counting them before it. -/
theorem FedLines.exists_lineFrom? {ls : List (List Char)} (h : FedLines ls)
    {front back : List Char} {c : Char} (hs : ls.flatten = front ++ c :: back)
    (number start : Nat) :
    ∃ text, lineFrom? number start (start + front.length) ls =
      some ⟨number + front.count '\n', start + front.length - (lastLine front).length, text⟩ := by
  induction h generalizing front number start with
  | nil => simp at hs
  | @last x hx =>
    have hfront : '\n' ∉ front := by
      intro hm
      apply hx
      rw [← List.flatten_singleton (l := x), hs]
      exact List.mem_append_left _ hm
    exact ⟨x, by simp [lineFrom?, List.count_eq_zero.mpr hfront, lastLine_of_not_mem hfront]⟩
  | @cons x ls hx hls ih =>
    rw [List.flatten_cons, List.append_assoc] at hs
    obtain ⟨mid, rfl⟩ | ⟨front', rfl, hrest⟩ := cases_lineFeed hs
    · have hfront : '\n' ∉ front := fun hm => hx (List.mem_append_left _ hm)
      refine ⟨front ++ mid ++ ['\n'], ?_⟩
      rw [List.count_eq_zero.mpr hfront, lastLine_of_not_mem hfront, Nat.add_sub_cancel]
      apply lineFrom?_of_lt
      simp only [List.length_append, List.length_singleton]
      omega
    · obtain ⟨l, ls, rfl⟩ : ∃ l ls', ls = l :: ls' :=
        List.exists_cons_of_ne_nil (by rintro rfl; simp at hrest)
      obtain ⟨text, hline⟩ := ih hrest (number + 1) (start + (x ++ ['\n']).length)
      have hplace : start + (x ++ ['\n']).length + front'.length =
          start + (x ++ '\n' :: front').length := by
        simp only [List.length_append, List.length_cons, List.length_nil]
        omega
      have hcount : (x ++ '\n' :: front').count '\n' = 1 + front'.count '\n' := by
        rw [List.count_append, List.count_eq_zero.mpr hx, List.count_cons_self, Nat.zero_add,
          Nat.add_comm]
      refine ⟨text, ?_⟩
      rw [lineFrom?_of_le (hplace ▸ Nat.le_add_right ..), ← hplace, hline, hcount,
        lastLine_append_lineFeed, Nat.add_assoc]

theorem EndsLinesByFeed.exists_lineAt? {front back : List Char} {c : Char}
    (h : EndsLinesByFeed (front ++ c :: back)) :
    ∃ line, lineAt? (front ++ c :: back) front.length = some line ∧
      positionAfter front = ⟨line.number, front.length - line.start + 1⟩ := by
  obtain ⟨text, hline⟩ :=
    (fedLines_splitLines h).exists_lineFrom? (flatten_splitLines _) 1 0
  rw [Nat.zero_add] at hline
  refine ⟨_, hline, ?_⟩
  have hle := length_lastLine_le front
  rw [positionAfter, Position.mk.injEq]
  refine ⟨rfl, ?_⟩
  dsimp only
  omega

namespace Snippet

def inked (colors : Bool) (style text : String) : String :=
  if colors then "\x1b[" ++ style ++ "m" ++ text ++ "\x1b[0m" else text

/-- The first lines of a snippet: the message, and below it the line and the column. -/
def heading (colors : Bool) (d : Diagnostic) (p : Position) : String :=
  inked colors (labelStyle d.level) (title d.level) ++ " " ++ d.message ++ "\n" ++
    spaces ((toString p.line).length + 2) ++ inked colors marginStyle "╭" ++
    inked colors marginStyle "─" ++ inked colors marginStyle "[" ++ "<unknown>:" ++ p.text ++
    inked colors marginStyle "]" ++ "\n"

example : heading false (.warning "late") ⟨12, 3⟩ =
    "Warning: late\n    ╭─[<unknown>:12:3]\n" := by decide

def titlePieces (d : Diagnostic) : List Text.Piece :=
  [styled (labelStyle d.level) (title d.level), plain (" " ++ d.message ++ "\n")]

def placePieces (p : Position) : List Text.Piece :=
  [plain (spaces ((toString p.line).length + 2)), styled marginStyle "╭", styled marginStyle "─",
    styled marginStyle "[", plain ("<unknown>:" ++ p.text), styled marginStyle "]", plain "\n"]

theorem draw_cons_plain (colors : Bool) (text : String) (ps : List Text.Piece) :
    Text.draw colors (plain text :: ps) = text ++ Text.draw colors ps := by
  cases colors <;> simp [Text.draw, plain, Text.Piece.ansi]

theorem draw_cons_styled {text : String} (h : '\x1b' ∉ text.toList) (colors : Bool)
    (style : Text.Style) (ps : List Text.Piece) :
    Text.draw colors (styled style text :: ps) =
      inked colors style text ++ Text.draw colors ps := by
  have hansi : (styled style text).ansi = inked true style text := by
    rw [← String.toList_inj]
    simp [Text.Piece.ansi, styled, Text.opening, Text.closing, Text.reopen_of_not_mem h, inked]
  cases colors with
  | false => simp [Text.draw, styled, inked]
  | true => simp [Text.draw, hansi]

theorem draw_heading (colors : Bool) (d : Diagnostic) (p : Position) (rest : List Text.Piece) :
    Text.draw colors (titlePieces d ++ placePieces p ++ rest) =
      heading colors d p ++ Text.draw colors rest := by
  have htitle : '\x1b' ∉ (title d.level).toList := by cases d.level <;> decide
  rw [titlePieces, placePieces, List.append_assoc, List.cons_append, List.cons_append,
    draw_cons_styled htitle]
  simp (disch := decide) only [List.cons_append, List.nil_append, draw_cons_plain, draw_cons_styled,
    heading, String.append_assoc]

theorem placePieces_isPrefix (d : Diagnostic) (label : Label) (line : Line) :
    placePieces ⟨line.number, label.start - line.start + 1⟩ <+: body d label line := by
  simp only [body, placePieces, Position.text, String.append_assoc, List.append_assoc]
  exact ⟨_, rfl⟩

theorem layout_of_isShown {span : Span} {source : List Char} (h : span.IsShown source)
    {line : Line} (hline : lineAt? source (span.label source).start = some line) (d : Diagnostic) :
    layout d span source = .ok (titlePieces d ++ body d (span.label source) line) := by
  have hordered := h.ordered
  have hinside := h.inside
  have hfits : (span.label source).fits source.length := by
    simp only [Label.fits, Bool.and_eq_true, Bool.or_eq_true, decide_eq_true_eq]
    omega
  simp only [layout, if_neg (Nat.not_lt.mpr hordered), hline, hfits]
  rfl

end Snippet

def Diagnostic.IsHeadedByPosition (d : Diagnostic) (source : String) : Prop :=
  ∃ p, d.position = some p ∧ ∀ t : Terminal, ∃ rest,
    t.report source d = .ok (Snippet.heading t.colors d p ++ rest)

theorem isHeadedByPosition_of_mem_lexemesOf {source : String} (h : EndsLinesByFeed source.toList)
    {p : Cursor} {l : Lexeme} (hm : (p, l) ∈ lexemesOf source.toList) {d : Diagnostic}
    (hspan : d.span = some (l.span p)) (hposition : d.position = some p.position) :
    d.IsHeadedByPosition source := by
  obtain ⟨c, x, hchars⟩ : ∃ c x, l.chars = c :: x := by
    obtain ⟨c, rest, rfl⟩ := exists_start_of_mem_lexemesOf hm
    exact List.exists_cons_of_ne_nil (Lexeme.start_chars_ne_nil c rest)
  obtain ⟨front, back, hs, rfl⟩ := exists_append_of_mem_lexemesOf hm
  rw [Lexeme.span_advance] at hspan
  have hshown := Span.isShown_covering front l.chars back
  have hlabel := Span.label_covering front l.chars back
  rw [← hs] at hshown hlabel
  obtain ⟨line, hline, hplace⟩ : ∃ line, lineAt? source.toList front.length = some line ∧
      positionAfter front = ⟨line.number, front.length - line.start + 1⟩ := by
    rw [hs, hchars, List.append_assoc, List.cons_append] at h ⊢
    exact h.exists_lineAt?
  have hlayout := Snippet.layout_of_isShown hshown (by rw [hlabel]; exact hline) d
  obtain ⟨rest, hbody⟩ :=
    Snippet.placePieces_isPrefix d ⟨front.length, (front ++ l.chars).length⟩ line
  refine ⟨_, hposition, fun t => ⟨Text.draw t.colors rest, ?_⟩⟩
  rw [← Snippet.draw_heading, position_advance, hplace]
  simp only [Terminal.report, hspan, hlayout, hlabel, ← hbody, List.append_assoc]
  rfl

theorem LexError.position_diagnostic (e : LexError) : e.diagnostic.position = some e.position := by
  unfold diagnostic
  split <;> rfl

/-- Where only line feeds end lines, the snippet of whatever is wrong with a source names the line
and the column that are reported for it. -/
theorem tokenize_headings {source : String} (h : EndsLinesByFeed source.toList) :
    (∀ stream, tokenize source.toList = .ok stream →
      ∀ d ∈ stream.sink.diagnostics, d.IsHeadedByPosition source) ∧
    ∀ e, tokenize source.toList = .error e → e.diagnostic.IsHeadedByPosition source := by
  refine ⟨?_, ?_⟩
  · intro stream hstream d hd
    rw [sink_of_tokenize hstream] at hd
    obtain ⟨⟨p, l⟩, hm, hd⟩ := List.mem_filterMap.mp hd
    obtain ⟨hspan, hposition⟩ := Lexeme.diagnostic?_eq_some hd
    exact isHeadedByPosition_of_mem_lexemesOf h hm hspan hposition
  · intro e he
    obtain ⟨front, p, l, back, ts, hplaced, -, hread⟩ :=
      Lexeme.exists_append_of_readAll_error (readAll_of_tokenize_error he)
    have hm : (p, l) ∈ lexemesOf source.toList := by simp [hplaced]
    obtain ⟨fault, -, rfl⟩ := Lexeme.read_eq_error hread
    exact isHeadedByPosition_of_mem_lexemesOf h hm (LexError.span_diagnostic _)
      (LexError.position_diagnostic _)

theorem tokenize_headings_mixed_ends :
    (EndsLinesByFeed "é\r\n\t日 x@".toList ∧
      ∃ stream, tokenize "é\r\n\t日 x@".toList = .ok stream ∧
        stream.sink.diagnostics.map Diagnostic.position =
          [some ⟨1, 1⟩, some ⟨2, 2⟩, some ⟨2, 5⟩] ∧
        ∀ d ∈ stream.sink.diagnostics, d.IsHeadedByPosition "é\r\n\t日 x@") ∧
    EndsLinesByFeed "é\n\n日9223372036854775808".toList ∧
      ∃ e, tokenize "é\n\n日9223372036854775808".toList = .error e ∧ e.position = ⟨3, 2⟩ ∧
        e.diagnostic.IsHeadedByPosition "é\n\n日9223372036854775808" := by
  refine ⟨?_, ?_⟩
  · have hfeed : EndsLinesByFeed "é\r\n\t日 x@".toList := ⟨by decide, by simp⟩
    obtain ⟨stream, h, hpositions⟩ : ∃ stream, tokenize "é\r\n\t日 x@".toList = .ok stream ∧
        stream.sink.diagnostics.map Diagnostic.position =
          [some ⟨1, 1⟩, some ⟨2, 2⟩, some ⟨2, 5⟩] := ⟨_, rfl, rfl⟩
    exact ⟨hfeed, stream, h, hpositions, (tokenize_headings hfeed).1 stream h⟩
  · have hfeed : EndsLinesByFeed "é\n\n日9223372036854775808".toList := ⟨by decide, by simp⟩
    obtain ⟨e, h, hposition⟩ : ∃ e, tokenize "é\n\n日9223372036854775808".toList = .error e ∧
        e.position = ⟨3, 2⟩ := ⟨_, rfl, rfl⟩
    exact ⟨hfeed, e, h, hposition, (tokenize_headings hfeed).2 e h⟩

-- after a lone carriage return a snippet counts a new line, and the position does not
example : (lineAt? "a\r@".toList 2).map Line.number = some 2 ∧
    positionAfter "a\r".toList = ⟨1, 3⟩ := by
  decide

end Frontend
