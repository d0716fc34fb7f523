import Frontend.Proofs.Position
import Frontend.Proofs.Start

namespace Frontend

open Lexeme

/-- A character of a text, with what stands before it and after it. -/
structure Site where
  before : List Char
  char : Char
  after : List Char
  deriving DecidableEq, Repr

namespace Site

def span (x : Site) : Span := ⟨Text.byteLength x.before, Text.byteLength (x.before ++ [x.char])⟩

def position (x : Site) : Position := positionAfter x.before

def within (before : List Char) : List Char → List Char → List Site
  | [], _ => []
  | c :: cs, after => ⟨before, c, cs ++ after⟩ :: within (before ++ [c]) cs after

theorem within_append (before cs ds after : List Char) :
    within before (cs ++ ds) after =
      within before cs (ds ++ after) ++ within (before ++ cs) ds after := by
  induction cs generalizing before with
  | nil => simp [within]
  | cons c cs ih => simp [within, ih]

theorem map_char_within (before cs after : List Char) :
    (within before cs after).map char = cs := by
  induction cs generalizing before with
  | nil => rfl
  | cons c cs ih => simp [within, ih]

theorem char_mem_of_mem_within {before cs after : List Char} {x : Site}
    (h : x ∈ within before cs after) : x.char ∈ cs := by
  rw [← map_char_within before cs after]
  exact List.mem_map_of_mem h

theorem mem_within_iff {before cs after : List Char} {x : Site} :
    x ∈ within before cs after ↔ ∃ front back, cs = front ++ x.char :: back ∧
      x.before = before ++ front ∧ x.after = back ++ after := by
  induction cs generalizing before with
  | nil => simp [within]
  | cons c cs ih =>
    rw [within, List.mem_cons, ih]
    constructor
    · rintro (rfl | ⟨front, back, rfl, hbefore, hafter⟩)
      · exact ⟨[], cs, by simp⟩
      · exact ⟨c :: front, back, by simp, by simp [hbefore], hafter⟩
    · rintro ⟨front, back, hcs, hbefore, hafter⟩
      obtain ⟨rfl, hc, rfl⟩ | ⟨front, rfl, rfl⟩ := List.cons_eq_append_iff.mp hcs
      · obtain ⟨before', c', after'⟩ := x
        simp_all
      · exact .inr ⟨front, back, rfl, by simp [hbefore], hafter⟩

theorem pairwise_within (before cs after : List Char) :
    (within before cs after).Pairwise fun x y => ∃ mid, y.before = x.before ++ x.char :: mid := by
  induction cs generalizing before with
  | nil => exact .nil
  | cons c cs ih =>
    refine .cons ?_ (ih _)
    intro y hy
    obtain ⟨front, -, -, hbefore, -⟩ := mem_within_iff.mp hy
    exact ⟨front, by simp [hbefore]⟩

end Site

def sitesOf (s : List Char) : List Site := Site.within [] s []

theorem mem_sitesOf_iff {s : List Char} {x : Site} :
    x ∈ sitesOf s ↔ s = x.before ++ x.char :: x.after := by
  simp [sitesOf, Site.mem_within_iff]

namespace Lexeme

def CharClass.standsOut : CharClass → Bool
  | lineFeed | carriageReturn | other => true
  | blank | punctuation | operator | letter | digit => false

theorem Starts.standsOut_cases {c : Char} {rest : List Char} {l : Lexeme} (h : Starts c rest l)
    (hl : l.charClass.standsOut) :
    (c = '\n' ∧ l = .lineFeed) ∨ (c = '\r' ∧ l = .carriageReturn (rest.head? = some '\n')) ∨
      (isRecognized c = false ∧ l = .unknown c) := by
  cases h with
  | lineFeed hc => exact .inl ⟨hc, rfl⟩
  | carriageReturn hc => exact .inr (.inl ⟨hc, rfl⟩)
  | unknown hc => exact .inr (.inr ⟨hc, rfl⟩)
  | _ => cases hl

theorem Starts.chars_of_standsOut {c : Char} {rest : List Char} {l : Lexeme} (h : Starts c rest l)
    (hl : l.charClass.standsOut) : l.chars = [c] := by
  obtain ⟨rfl, rfl⟩ | ⟨rfl, rfl⟩ | ⟨-, rfl⟩ := h.standsOut_cases hl <;> rfl

theorem Starts.not_standsOut_mem {c d : Char} {rest : List Char} {l : Lexeme}
    (h : Starts c rest l) (hl : l.charClass.standsOut = false) (hd : d ∈ l.chars) :
    (classOf d).standsOut = false := by
  obtain hd | ⟨rfl, -⟩ := h.classOf_mem hd
  · rw [hd, hl]
  · rfl

end Lexeme

theorem spanned?_advance {l : Lexeme} {t : Token} (ht : l.token? = .ok (some t))
    (front : List Char) : spanned? (Cursor.start.advance front, l) =
      some ⟨t, ⟨Text.byteLength front, Text.byteLength (front ++ l.chars)⟩,
        positionAfter front⟩ := by
  simp [spanned?, Lexeme.read, ht, Lexeme.span, Cursor.offset_start_advance, position_advance,
    Text.byteLength_append]

/-- What is seen within each lexeme, character by character, is seen the same way along the scan.
`fits` is what holds where a lexeme begins, of the text before it and from it on. -/
theorem Site.filterMap_within_of_start {β : Type} {f : Site → Option β}
    {g : Cursor × Lexeme → Option β} (fits : List Char → List Char → Prop)
    (hstart : ∀ before c rest, fits before (c :: rest) →
      (Site.within before (start c rest).chars
          (rest.drop ((start c rest).chars.length - 1))).filterMap f =
        (g (Cursor.start.advance before, start c rest)).toList)
    (hfits : ∀ before c rest, fits before (c :: rest) →
      fits (before ++ (start c rest).chars) (rest.drop ((start c rest).chars.length - 1)))
    {before cs : List Char} (h : fits before cs) :
    (Site.within before cs []).filterMap f =
      (place (Cursor.start.advance before) (ofText cs)).filterMap g := by
  induction cs using ofText_induct generalizing before with
  | nil => rfl
  | cons c rest ih =>
    have hrest := ih (hfits before c rest h)
    rw [← start_chars_append c rest, Site.within_append, List.append_nil, List.filterMap_append,
      hstart before c rest h, hrest, Cursor.advance_append, start_chars_append, ofText_cons, place,
      List.filterMap_cons]
    cases g (Cursor.start.advance before, start c rest) <;> rfl

/-- What is seen at characters and what is seen at lexemes agree where a character stands out, and
nothing is seen elsewhere. -/
structure SeenAlike {β : Type} (f : Site → Option β) (g : Cursor × Lexeme → Option β) : Prop where
  site : ∀ x, (classOf x.char).standsOut = false → f x = none
  lexeme : ∀ p l, l.charClass.standsOut = false → g (p, l) = none
  alike : ∀ before c rest l, Starts c rest l → l.charClass.standsOut →
    f ⟨before, c, rest⟩ = g (Cursor.start.advance before, l)

theorem SeenAlike.filterMap_start {β : Type} {f : Site → Option β} {g : Cursor × Lexeme → Option β}
    (h : SeenAlike f g) (before : List Char) (c : Char) (rest : List Char) :
    (Site.within before (start c rest).chars
        (rest.drop ((start c rest).chars.length - 1))).filterMap f =
      (g (Cursor.start.advance before, start c rest)).toList := by
  have hs := start_starts c rest
  cases hl : (start c rest).charClass.standsOut with
  | true =>
    rw [← h.alike before c rest _ hs hl, hs.chars_of_standsOut hl]
    change List.filterMap f [⟨before, c, rest⟩] = _
    rw [List.filterMap_cons]
    cases f ⟨before, c, rest⟩ <;> rfl
  | false =>
    rw [h.lexeme _ _ hl, Option.toList_none, List.filterMap_eq_nil_iff]
    intro x hx
    apply h.site
    exact hs.not_standsOut_mem hl (Site.char_mem_of_mem_within hx)

theorem SeenAlike.filterMap_sitesOf {β : Type} {f : Site → Option β}
    {g : Cursor × Lexeme → Option β} (h : SeenAlike f g) (s : List Char) :
    (sitesOf s).filterMap f = (lexemesOf s).filterMap g :=
  Site.filterMap_within_of_start (fun _ _ => True)
    (fun before c rest _ => h.filterMap_start before c rest) (fun _ _ _ _ => trivial) trivial

end Frontend
