import Frontend.Proofs.PlainText

namespace Frontend

namespace Text

def bare (ps : List Piece) : List Char := ps.flatMap (·.text.toList)

theorem bare_append (ps qs : List Piece) : bare (ps ++ qs) = bare ps ++ bare qs :=
  List.flatMap_append

theorem toList_draw_false (ps : List Piece) : (draw false ps).toList = bare ps := by
  rw [draw, String.toList_join, List.flatMap_map]
  rfl

theorem bare_flatMap (mark : List Char) {line : String → List Piece}
    (h : ∀ text, bare (line text) = mark ++ text.toList ++ ['\n']) (texts : List String) :
    bare (texts.flatMap line) = (markedLines mark texts).flatMap (· ++ ['\n']) := by
  rw [bare, List.flatMap_assoc, markedLines, List.flatMap_map]
  exact List.flatMap_congr fun text _ => h text

/-- The text without its escape sequences: `ESC[` is left out with all that follows it up to the
first `m`. Without an `m` to end it there is no sequence. -/
def unstyle : List Char → List Char
  | [] => []
  | '\x1b' :: '[' :: cs =>
    if 'm' ∈ cs then unstyle (cs.dropWhile (· ≠ 'm')).tail else '\x1b' :: '[' :: cs
  | c :: cs => c :: unstyle cs
termination_by cs => cs.length
decreasing_by
  · have hle := (List.dropWhile_suffix (· ≠ 'm') (l := cs)).length_le
    simp only [List.length_tail, List.length_cons]
    omega
  · simp

theorem unstyle_append {x : List Char} (hx : '\x1b' ∉ x) (rest : List Char) :
    unstyle (x ++ rest) = x ++ unstyle rest := by
  induction x with
  | nil => rfl
  | cons c x ih =>
    rw [List.mem_cons, not_or] at hx
    rw [List.cons_append, unstyle, ih hx.2]
    · rfl
    · rintro cs rfl
      exact absurd rfl hx.1

theorem unstyle_opening {style : Style} (h : 'm' ∉ style.toList) (rest : List Char) :
    unstyle (opening style ++ rest) = unstyle rest := by
  have hend : (style.toList ++ 'm' :: rest).dropWhile (· ≠ 'm') = 'm' :: rest := by
    rw [List.dropWhile_append_of_pos]
    · simp
    · intro c hc
      exact decide_eq_true (ne_of_mem_of_not_mem hc h)
  have hsequence : opening style ++ rest = '\x1b' :: '[' :: (style.toList ++ 'm' :: rest) := by
    simp [opening]
  rw [hsequence, unstyle, if_pos (by simp), hend, List.tail_cons]

theorem unstyle_closing (rest : List Char) : unstyle (closing ++ rest) = unstyle rest :=
  @unstyle_opening "0" (by decide) rest

theorem reopen_of_not_mem {again cs : List Char} (h : '\x1b' ∉ cs) : reopen again cs = cs := by
  induction cs with
  | nil => rfl
  | cons c cs ih =>
    rw [List.mem_cons, not_or] at h
    rw [reopen, ih h.2]
    rintro rest rfl
    exact absurd rfl h.1

/-- A piece whose text holds no escape sequence, in a style whose codes do not end it. -/
structure Piece.IsClean (p : Piece) : Prop where
  text : '\x1b' ∉ p.text.toList
  style : ∀ style ∈ p.style, 'm' ∉ style.toList

theorem isClean_plain {text : String} (h : '\x1b' ∉ text.toList) : (plain text).IsClean :=
  ⟨h, by simp [plain]⟩

theorem isClean_styled {style : Style} (hstyle : 'm' ∉ style.toList) {text : String}
    (h : '\x1b' ∉ text.toList) : (styled style text).IsClean :=
  ⟨h, by simpa [styled] using hstyle⟩

theorem Piece.IsClean.unstyle_ansi {p : Piece} (h : p.IsClean) (rest : List Char) :
    unstyle (p.ansi.toList ++ rest) = p.text.toList ++ unstyle rest := by
  obtain ⟨style, text⟩ := p
  cases style with
  | none => exact unstyle_append h.text rest
  | some style =>
    have hansi : (Piece.mk (some style) text).ansi.toList ++ rest =
        opening style ++ (text.toList ++ (closing ++ rest)) := by
      simp only [ansi, String.toList_ofList, reopen_of_not_mem h.text, List.append_assoc]
    rw [hansi, unstyle_opening (h.style style rfl), unstyle_append h.text, unstyle_closing]

theorem unstyle_draw {ps : List Piece} (h : ∀ p ∈ ps, p.IsClean) :
    unstyle (draw true ps).toList = bare ps := by
  rw [draw, String.toList_join, List.flatMap_map]
  induction ps with
  | nil => simp [unstyle, bare]
  | cons p ps ih =>
    rw [List.forall_mem_cons] at h
    rw [List.flatMap_cons, bare, List.flatMap_cons]
    exact (h.1.unstyle_ansi _).trans (congrArg _ (ih h.2))

end Text

namespace Diagnostic

open Text (plain styled isClean_plain isClean_styled)

theorem bare_detail (m : Text.Piece) (mark : List Char)
    (h : "  ".toList ++ m.text.toList ++ " ".toList = mark) (text : Text.Piece) :
    Text.bare (detail m text) = mark ++ text.text.toList ++ ['\n'] := by
  rw [← h]
  simp [Text.bare, detail, Text.plain]

theorem bare_detail_append (m : Text.Piece) (word : String) (mark : List Char)
    (h : "  ".toList ++ m.text.toList ++ " ".toList ++ word.toList = mark) (style : Text.Style)
    (text : String) :
    Text.bare (detail m (Text.styled style (word ++ text))) = mark ++ text.toList ++ ['\n'] := by
  rw [bare_detail m _ rfl, Text.styled, String.toList_append, ← List.append_assoc, h]

theorem bare_coloredPieces (d : Diagnostic) : Text.bare d.coloredPieces = d.renderPlain.toList := by
  have hlocation := bare_detail (styled "1;34" "-->") locationMark rfl
  have hnote := bare_detail_append (styled "1;34" "=") "note: " noteMark rfl
  have hhelp := bare_detail_append (styled "1;32" "=") "help: " helpMark rfl
  rw [coloredPieces, Text.bare_append, Text.bare_append, Text.bare_append,
    Text.bare_flatMap locationMark (fun l => hlocation (plain l)),
    Text.bare_flatMap noteMark (hnote "90"), Text.bare_flatMap helpMark (hhelp "32"),
    toList_renderPlain, List.flatMap_cons, details, List.flatMap_append, List.flatMap_append]
  simp [Text.bare, plain, styled, headline]

theorem isClean_detail {mark text : Text.Piece} (hmark : mark.IsClean) (htext : text.IsClean) :
    ∀ p ∈ detail mark text, p.IsClean := by
  simp only [detail, List.forall_mem_cons, List.not_mem_nil, false_implies, implies_true, and_true]
  exact ⟨isClean_plain (by decide), hmark, isClean_plain (by decide), htext,
    isClean_plain (by decide)⟩

theorem Lacks.isClean_coloredPieces {d : Diagnostic} (h : d.Lacks '\x1b') :
    ∀ p ∈ d.coloredPieces, p.IsClean := by
  have hword {word text : String} (hword : '\x1b' ∉ word.toList) (htext : '\x1b' ∉ text.toList) :
      '\x1b' ∉ (word ++ text).toList := by
    rw [String.toList_append, List.mem_append, not_or]
    exact ⟨hword, htext⟩
  have hlevel : (styled (levelStyle d.level) d.level.name).IsClean := by
    cases d.level <;> exact isClean_styled (by decide) (by decide)
  simp only [coloredPieces, List.forall_mem_append, List.forall_mem_flatMap, List.forall_mem_cons,
    List.not_mem_nil, false_implies, implies_true, and_true]
  refine ⟨⟨⟨⟨hlevel, isClean_plain (by decide), isClean_styled (by decide) h.message,
    isClean_plain (by decide)⟩, ?_⟩, ?_⟩, ?_⟩
  · intro l hl
    apply isClean_detail (isClean_styled (by decide) (by decide))
    exact isClean_plain (d.not_mem_location? (by decide) l (Option.mem_toList.mp hl))
  · intro n hn
    apply isClean_detail (isClean_styled (by decide) (by decide))
    exact isClean_styled (by decide) (hword (by decide) (h.notes n hn))
  · intro help hhelp
    apply isClean_detail (isClean_styled (by decide) (by decide))
    exact isClean_styled (by decide) (hword (by decide) (h.help help (Option.mem_toList.mp hhelp)))

end Diagnostic

/-- Without colours a diagnostic is its lines, whatever the terminal takes. With colours it is the
same text on a terminal that takes no styles, and on one that does once the styles are taken out. -/
theorem Terminal.render_unstyled (d : Diagnostic) (ansi : Bool) :
    (Terminal.render ⟨false, ansi⟩ d).toList =
      (d.headline :: d.details).flatMap (· ++ ['\n']) ∧
    Terminal.render ⟨true, false⟩ d = Terminal.render ⟨false, ansi⟩ d ∧
    (d.Lacks '\x1b' → Text.unstyle (Terminal.render ⟨true, true⟩ d).toList =
      (Terminal.render ⟨false, ansi⟩ d).toList) := by
  refine ⟨d.toList_renderPlain, ?_, ?_⟩
  · rw [← String.toList_inj]
    exact (Text.toList_draw_false _).trans d.bare_coloredPieces
  · intro h
    exact (Text.unstyle_draw h.isClean_coloredPieces).trans d.bare_coloredPieces

theorem Terminal.render_unstyled_all_parts :
    let d : Diagnostic :=
      { level := .warning, message := "", span := some ⟨3, 4⟩, notes := ["[0m", ""],
        help := some "m" }
    d.Lacks '\x1b' ∧ Terminal.render ⟨true, true⟩ d ≠ Terminal.render ⟨false, true⟩ d ∧
      Text.unstyle (Terminal.render ⟨true, true⟩ d).toList =
        (Terminal.render ⟨false, true⟩ d).toList := by
  intro d
  have hd : d.Lacks '\x1b' := ⟨by decide, by decide, by decide⟩
  exact ⟨hd, by decide, (Terminal.render_unstyled d true).2.2 hd⟩

end Frontend
