import Frontend.Diagnostic.Terminal
import Frontend.Proofs.Spelling

namespace Frontend

def markedLines (mark : List Char) (texts : List String) : List (List Char) :=
  texts.map fun text => mark ++ text.toList

theorem filterMap_markedLines (mark : List Char) (texts : List String) :
    (markedLines mark texts).filterMap (·.dropPrefix? mark) = texts.map String.toList := by
  rw [markedLines, List.filterMap_map, ← List.filterMap_eq_map']
  congr 1
  funext text
  exact List.dropPrefix?_append_of_beq _ BEq.rfl

theorem filterMap_markedLines_other {mark other : List Char} (h : ¬mark <+: other)
    (h' : ¬other <+: mark) (texts : List String) :
    (markedLines other texts).filterMap (·.dropPrefix? mark) = [] := by
  rw [markedLines, List.filterMap_map, List.filterMap_eq_nil_iff]
  intro text _
  rw [Function.comp_apply, Option.eq_none_iff_forall_ne_some]
  intro rest hrest
  obtain ⟨front, heq, hfront⟩ := List.dropPrefix?_eq_some_iff.mp hrest
  obtain rfl := eq_of_beq hfront
  obtain hpre | hpre := List.prefix_or_prefix_of_prefix ⟨rest, heq.symm⟩
    (List.prefix_append other text.toList)
  · exact h hpre
  · exact h' hpre

theorem Span.toList_text (s : Span) :
    s.text.toList = Nat.toDigits 10 s.start ++ '.' :: '.' :: Nat.toDigits 10 s.stop := by
  rw [text, String.toList_append, String.toList_append, toList_toString_nat, toList_toString_nat,
    List.append_assoc]
  rfl

theorem Span.text_injective {s t : Span} (h : s.text = t.text) : s = t := by
  have hcs := congrArg String.toList h
  rw [toList_text, toList_text] at hcs
  obtain ⟨hstart, hstop⟩ :=
    split_unique hcs (not_mem_toDigits rfl _) (not_mem_toDigits rfl _)
  cases s
  cases t
  rw [Span.mk.injEq]
  exact ⟨toDigits_injective hstart, toDigits_injective (List.cons.inj hstop).2⟩

theorem Position.text_ne_span_text (p : Position) (s : Span) : p.text ≠ s.text := by
  intro h
  have hcolon : ':' ∈ s.text.toList := by
    rw [← h, Position.toList_text]
    simp
  rw [Span.toList_text] at hcolon
  simp [not_mem_toDigits (c := ':') rfl] at hcolon

namespace Diagnostic

/-- Two diagnostics that are shown to apply at the same place. -/
def SameLocation (d e : Diagnostic) : Prop :=
  (∃ p, d.position = some p ∧ e.position = some p) ∨
    d.position = none ∧ e.position = none ∧ d.span = e.span

theorem location?_eq_iff {d e : Diagnostic} : d.location? = e.location? ↔ d.SameLocation e := by
  have hposition {p q : Position} : p.text = q.text ↔ p = q :=
    ⟨Position.text_injective, fun h => h ▸ rfl⟩
  have hspan {s t : Span} : s.text = t.text ↔ s = t := ⟨Span.text_injective, fun h => h ▸ rfl⟩
  have hne {p : Position} {s : Span} := p.text_ne_span_text s
  unfold location? SameLocation
  cases d.position with
  | some p =>
    cases e.position with
    | some q => simp [hposition, eq_comm]
    | none => cases e.span <;> simp [hne]
  | none =>
    cases e.position with
    | some q => cases d.span <;> simp [hne.symm]
    | none => cases d.span <;> cases e.span <;> simp [hspan]

theorem not_mem_location? {c : Char} (hc : ¬(c.isDigit ∨ c = ':' ∨ c = '.')) (d : Diagnostic) :
    ∀ l ∈ d.location?, c ∉ l.toList := by
  have hdigits := not_mem_toDigits (eq_false_of_ne_true fun h => hc (.inl h))
  have hcolon : c ≠ ':' := fun h => hc (.inr (.inl h))
  have hstop : c ≠ '.' := fun h => hc (.inr (.inr h))
  intro l hl
  unfold location? at hl
  split at hl
  · cases hl
    simp [Position.toList_text, hdigits, hcolon]
  · cases hl
    simp [Span.toList_text, hdigits, hstop]
  · cases hl

/-- A diagnostic without a character in its own texts. -/
structure Lacks (d : Diagnostic) (c : Char) : Prop where
  message : c ∉ d.message.toList
  notes : ∀ n ∈ d.notes, c ∉ n.toList
  help : ∀ h ∈ d.help, c ∉ h.toList

def locationMark : List Char := "  --> ".toList

def noteMark : List Char := "  = note: ".toList

def helpMark : List Char := "  = help: ".toList

def headline (d : Diagnostic) : List Char :=
  d.level.name.toList ++ (": ".toList ++ d.message.toList)

def details (d : Diagnostic) : List (List Char) :=
  markedLines locationMark d.location?.toList ++ markedLines noteMark d.notes ++
    markedLines helpMark d.help.toList

theorem toList_line (mark text : String) :
    (mark ++ text ++ "\n").toList = mark.toList ++ text.toList ++ ['\n'] := by
  simp

theorem toList_lines (mark : String) (texts : List String) :
    (String.join (texts.map fun text => mark ++ text ++ "\n")).toList =
      (markedLines mark.toList texts).flatMap (· ++ ['\n']) := by
  rw [String.toList_join, markedLines, List.flatMap_map, List.flatMap_map]
  exact List.flatMap_congr fun text _ => toList_line mark text

theorem toList_line? (mark : String) (text : Option String) :
    (text.elim "" fun text => mark ++ text ++ "\n").toList =
      (markedLines mark.toList text.toList).flatMap (· ++ ['\n']) := by
  cases text <;> simp [markedLines]

theorem toList_renderPlain (d : Diagnostic) :
    d.renderPlain.toList = (d.headline :: d.details).flatMap (· ++ ['\n']) := by
  rw [renderPlain, String.toList_append, String.toList_append, String.toList_append,
    toList_line (d.level.name ++ ": ") d.message, toList_line? "  --> " d.location?,
    toList_lines "  = note: " d.notes, toList_line? "  = help: " d.help, List.flatMap_cons,
    headline, details, List.flatMap_append, List.flatMap_append, String.toList_append]
  unfold locationMark noteMark helpMark
  simp only [List.append_assoc]

theorem filterMap_details (d : Diagnostic) :
    d.details.filterMap (·.dropPrefix? locationMark) = d.location?.toList.map String.toList ∧
    d.details.filterMap (·.dropPrefix? noteMark) = d.notes.map String.toList ∧
    d.details.filterMap (·.dropPrefix? helpMark) = d.help.toList.map String.toList := by
  simp only [details, List.filterMap_append, filterMap_markedLines]
  refine ⟨?_, ?_, ?_⟩
  · rw [filterMap_markedLines_other (by decide) (by decide) d.notes,
      filterMap_markedLines_other (by decide) (by decide) d.help.toList]
    simp
  · rw [filterMap_markedLines_other (by decide) (by decide) d.location?.toList,
      filterMap_markedLines_other (by decide) (by decide) d.help.toList]
    simp
  · rw [filterMap_markedLines_other (by decide) (by decide) d.location?.toList,
      filterMap_markedLines_other (by decide) (by decide) d.notes]
    simp

theorem headline_injective {d e : Diagnostic} (h : d.headline = e.headline) :
    d.level = e.level ∧ d.message = e.message := by
  have hlevel : d.level = e.level := by
    have hhead := congrArg List.head? h
    simp only [headline] at hhead
    cases hd : d.level <;> cases he : e.level <;> simp_all [Level.name]
  refine ⟨hlevel, ?_⟩
  rw [headline, headline, hlevel] at h
  exact String.toList_injective (List.append_cancel_left (List.append_cancel_left h))

theorem lineFeed_not_mem_markedLines {mark : List Char} (hmark : '\n' ∉ mark) {texts : List String}
    (h : ∀ text ∈ texts, '\n' ∉ text.toList) : ∀ l ∈ markedLines mark texts, '\n' ∉ l := by
  intro l hl
  obtain ⟨text, htext, rfl⟩ := List.mem_map.mp hl
  rw [List.mem_append, not_or]
  exact ⟨hmark, h text htext⟩

theorem Lacks.lineFeed_not_mem_lines {d : Diagnostic} (h : d.Lacks '\n') :
    ∀ l ∈ d.headline :: d.details, '\n' ∉ l := by
  have hheadline : '\n' ∉ d.headline := by
    rw [headline, List.mem_append, List.mem_append, not_or, not_or]
    exact ⟨by cases d.level <;> decide, by decide, h.message⟩
  rw [List.forall_mem_cons, details, List.forall_mem_append, List.forall_mem_append]
  refine ⟨hheadline, ⟨?_, ?_⟩, ?_⟩
  · apply lineFeed_not_mem_markedLines (by decide)
    exact fun l hl => d.not_mem_location? (by decide) l (Option.mem_toList.mp hl)
  · exact lineFeed_not_mem_markedLines (by decide) h.notes
  · apply lineFeed_not_mem_markedLines (by decide)
    exact fun help hhelp => h.help help (Option.mem_toList.mp hhelp)

theorem details_injective {d e : Diagnostic} (h : d.details = e.details) :
    d.location? = e.location? ∧ d.notes = e.notes ∧ d.help = e.help := by
  have htexts : Function.Injective (List.map String.toList) :=
    List.map_injective_iff.mpr fun _ _ => String.toList_injective
  have hoption {x y : Option String}
      (hxy : x.toList.map String.toList = y.toList.map String.toList) : x = y := by
    have hlists := htexts hxy
    cases x <;> cases y <;> simp_all
  obtain ⟨hlocation, hnotes, hhelp⟩ := d.filterMap_details
  obtain ⟨hlocation', hnotes', hhelp'⟩ := e.filterMap_details
  rw [h] at hlocation hnotes hhelp
  exact ⟨hoption (hlocation.symm.trans hlocation'), htexts (hnotes.symm.trans hnotes'),
    hoption (hhelp.symm.trans hhelp')⟩

/-- A diagnostic whose texts have no line feed can be read back from its plain text: from how grave
it is to its help line, and where it is shown to apply. -/
theorem render_plain_eq_iff {d e : Diagnostic} (hd : d.Lacks '\n') (he : e.Lacks '\n') :
    d.renderPlain = e.renderPlain ↔
      d.level = e.level ∧ d.message = e.message ∧ d.notes = e.notes ∧ d.help = e.help ∧
        d.SameLocation e := by
  rw [← String.toList_inj, toList_renderPlain, toList_renderPlain, ← location?_eq_iff]
  constructor
  · intro h
    have hlines :=
      eq_of_flatMap_lineFeed hd.lineFeed_not_mem_lines he.lineFeed_not_mem_lines h
    obtain ⟨hheadline, hdetails⟩ := List.cons.inj hlines
    obtain ⟨hlevel, hmessage⟩ := headline_injective hheadline
    obtain ⟨hlocation, hnotes, hhelp⟩ := details_injective hdetails
    exact ⟨hlevel, hmessage, hnotes, hhelp, hlocation⟩
  · rintro ⟨hlevel, hmessage, hnotes, hhelp, hlocation⟩
    simp only [headline, details, hlevel, hmessage, hnotes, hhelp, hlocation]

theorem render_plain_eq_iff_imitation :
    let d : Diagnostic :=
      { level := .error, message := "", position := some ⟨1, 2⟩, notes := ["", "  = help: x"] }
    let e : Diagnostic := { d with span := some ⟨3, 4⟩ }
    let f : Diagnostic := { d with notes := [""], help := some "x" }
    (d.Lacks '\n' ∧ e.Lacks '\n' ∧ f.Lacks '\n') ∧ (d.renderPlain = e.renderPlain ∧ d ≠ e) ∧
      d.renderPlain ≠ f.renderPlain := by
  intro d e f
  have hd : d.Lacks '\n' := ⟨by decide, by decide, by decide⟩
  have he : e.Lacks '\n' := ⟨by decide, by decide, by decide⟩
  have hf : f.Lacks '\n' := ⟨by decide, by decide, by decide⟩
  have hplace : d.SameLocation e := .inl ⟨⟨1, 2⟩, rfl, rfl⟩
  have hsame := (render_plain_eq_iff hd he).mpr ⟨rfl, rfl, rfl, rfl, hplace⟩
  have hother : d.renderPlain ≠ f.renderPlain := by
    intro h
    have hnotes := ((render_plain_eq_iff hd hf).mp h).2.2.1
    exact absurd hnotes (by decide)
  exact ⟨⟨hd, he, hf⟩, ⟨hsame, by decide⟩, hother⟩

end Diagnostic

end Frontend
