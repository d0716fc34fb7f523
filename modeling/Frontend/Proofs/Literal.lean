import Frontend.Proofs.Scanner

namespace Frontend

open Lexeme

/-- Where a place stands among the numerals of a text: inside none, among digits that a point would
make the whole part of a decimal, or behind the point of one. -/
inductive NumeralPlace
  | outside | whole | fraction
  deriving DecidableEq, Repr

def NumeralPlace.step : NumeralPlace → Char → NumeralPlace
  | outside, c => if c.isDigit then whole else outside
  | whole, c => if c.isDigit then whole else if c = '.' then fraction else outside
  | fraction, c => if c.isDigit then fraction else outside

def placeAfter (front : List Char) : NumeralPlace := front.foldl NumeralPlace.step .outside

/-- A run of digits that is as long as it can be, is not the fraction of a decimal before it, and
has no point behind it. -/
structure IsIntegerLiteral (front digits back : List Char) : Prop where
  outside : placeAfter front = .outside
  nonempty : digits ≠ []
  isDigit : ∀ d ∈ digits, d.isDigit
  stops : ∀ d, back.head? = some d → d.isDigit = false ∧ d ≠ '.'

theorem placeAfter_append (front x : List Char) :
    placeAfter (front ++ x) = x.foldl NumeralPlace.step (placeAfter front) := by
  rw [placeAfter, List.foldl_append]
  rfl

theorem foldl_step_fixed {place : NumeralPlace} {x : List Char}
    (h : ∀ d ∈ x, place.step d = place) : x.foldl NumeralPlace.step place = place := by
  induction x with
  | nil => rfl
  | cons d x ih =>
    rw [List.foldl_cons, h d (by simp)]
    exact ih fun e he => h e (by simp [he])

theorem step_digit {place : NumeralPlace} {d : Char} (hp : place ≠ .outside) (hd : d.isDigit) :
    place.step d = place := by
  cases place with
  | outside => contradiction
  | whole | fraction => simp [NumeralPlace.step, hd]

theorem placeAfter_digits {front x : List Char} (hf : placeAfter front = .outside) (hne : x ≠ [])
    (hx : ∀ d ∈ x, d.isDigit) : placeAfter (front ++ x) = .whole := by
  obtain ⟨c, x, rfl⟩ := List.exists_cons_of_ne_nil hne
  have hc : NumeralPlace.step .outside c = .whole := by simp [NumeralPlace.step, hx c (by simp)]
  rw [placeAfter_append, hf, List.foldl_cons, hc]
  exact foldl_step_fixed fun d hd => step_digit (by decide) (hx d (by simp [hd]))

theorem placeAfter_decimal {front whole fraction : List Char} (hf : placeAfter front = .outside)
    (hne : whole ≠ []) (hw : ∀ d ∈ whole, d.isDigit) (hfr : ∀ d ∈ fraction, d.isDigit) :
    placeAfter (front ++ (whole ++ '.' :: fraction)) = .fraction := by
  rw [← List.append_assoc, placeAfter_append, placeAfter_digits hf hne hw]
  exact foldl_step_fixed fun d hd => step_digit (by decide) (hfr d hd)

def IsClear (front cs : List Char) : Prop :=
  placeAfter front = .outside ∨
    ∀ d, cs.head? = some d → d.isDigit = false ∧ (placeAfter front = .whole → d ≠ '.')

theorem IsClear.outside {front x rest : List Char} (h : IsClear front (x ++ rest)) (hne : x ≠ [])
    (hx : ∀ d ∈ x, d.isDigit) : placeAfter front = .outside := by
  obtain ⟨c, x, rfl⟩ := List.exists_cons_of_ne_nil hne
  obtain h | h := h
  · exact h
  · have hc := hx c (by simp)
    rw [(h c rfl).1] at hc
    contradiction

theorem IsClear.placeAfter_of_not_isDigit {front x rest : List Char} (h : IsClear front (x ++ rest))
    (hne : x ≠ []) (hx : ∀ d ∈ x, d.isDigit = false) : placeAfter (front ++ x) = .outside := by
  obtain ⟨c, x, rfl⟩ := List.exists_cons_of_ne_nil hne
  have hc : NumeralPlace.step (placeAfter front) c = .outside := by
    have hd := hx c (by simp)
    obtain h | h := h
    · simp [h, NumeralPlace.step, hd]
    · have hp := (h c rfl).2
      cases hplace : placeAfter front <;> simp_all [NumeralPlace.step]
  rw [placeAfter_append, List.foldl_cons, hc]
  exact foldl_step_fixed fun d hd => by simp [NumeralPlace.step, hx d (by simp [hd])]

/-- An integer literal of `cs`, which stands behind `front`; `before` is all that is before it. -/
def LiteralIn (front cs before digits : List Char) : Prop :=
  ∃ mid back, before = front ++ mid ∧ cs = mid ++ digits ++ back ∧
    IsIntegerLiteral before digits back

theorem LiteralIn.of_append {front x rest before digits : List Char}
    (h : LiteralIn (front ++ x) rest before digits) :
    LiteralIn front (x ++ rest) before digits := by
  obtain ⟨mid, back, rfl, rfl, hl⟩ := h
  exact ⟨x ++ mid, back, by simp, by simp, hl⟩

theorem LiteralIn.cases_append {front x rest before digits : List Char}
    (h : LiteralIn front (x ++ rest) before digits) :
    LiteralIn (front ++ x) rest before digits ∨
      ∃ mid d tail back, x = mid ++ d :: tail ∧ d.isDigit ∧ before = front ++ mid ∧
        digits ++ back = d :: tail ++ rest ∧ IsIntegerLiteral before digits back := by
  obtain ⟨mid, back, rfl, hcs, hl⟩ := h
  rw [List.append_assoc] at hcs
  obtain ⟨a, rfl, ha⟩ | ⟨a, rfl, ha⟩ := List.append_eq_append_iff.mp hcs
  · exact .inl ⟨a, back, by simp, by rw [ha, List.append_assoc], hl⟩
  · cases a with
    | nil => exact .inl ⟨[], back, by simp, by simpa using ha.symm, by simpa using hl⟩
    | cons d tail =>
      refine .inr ⟨mid, d, tail, back, rfl, ?_, rfl, ha, hl⟩
      obtain ⟨e, digits, rfl⟩ := List.exists_cons_of_ne_nil hl.nonempty
      obtain rfl : e = d := (List.cons.inj ha).1
      exact hl.isDigit e (by simp)

theorem literalIn_append_iff {front x rest before digits : List Char}
    (hx : ∀ d ∈ x, d.isDigit = false) :
    LiteralIn front (x ++ rest) before digits ↔ LiteralIn (front ++ x) rest before digits := by
  refine ⟨fun h => ?_, LiteralIn.of_append⟩
  obtain h | ⟨mid, d, tail, back, rfl, hd, -⟩ := h.cases_append
  · exact h
  · rw [hx d (by simp)] at hd
    contradiction

theorem forall_eq_false_of_any {f : Char → Bool} {x : List Char} (h : x.any f = false) :
    ∀ c ∈ x, f c = false := by
  simpa using h

theorem run_unique {f : Char → Bool} {x y rest back : List Char} (h : x ++ rest = y ++ back)
    (hx : ∀ c ∈ x, f c) (hy : ∀ c ∈ y, f c) (hr : ∀ d, rest.head? = some d → f d = false)
    (hb : ∀ d, back.head? = some d → f d = false) : x = y ∧ rest = back := by
  obtain ⟨a, rfl, rfl⟩ | ⟨a, rfl, rfl⟩ := List.append_eq_append_iff.mp h
  · cases a with
    | nil => simp
    | cons d a =>
      have hd := hy d (by simp)
      rw [hr d rfl] at hd
      contradiction
  · cases a with
    | nil => simp
    | cons d a =>
      have hd := hx d (by simp)
      rw [hb d rfl] at hd
      contradiction

theorem literalIn_digits_iff {front x rest before digits : List Char}
    (hf : placeAfter front = .outside) (hne : x ≠ []) (hx : ∀ d ∈ x, d.isDigit)
    (hr : ∀ d, rest.head? = some d → d.isDigit = false ∧ d ≠ '.') :
    LiteralIn front (x ++ rest) before digits ↔
      before = front ∧ digits = x ∨ LiteralIn (front ++ x) rest before digits := by
  refine ⟨fun h => ?_, ?_⟩
  · obtain h | ⟨mid, d, tail, back, rfl, -, rfl, ha, hl⟩ := h.cases_append
    · exact .inr h
    · cases mid with
      | nil =>
        obtain ⟨rfl, -⟩ := run_unique ha hl.isDigit hx (fun d hd => (hl.stops d hd).1)
          fun d hd => (hr d hd).1
        exact .inl ⟨by simp, rfl⟩
      | cons e mid =>
        have hin := placeAfter_digits hf (List.cons_ne_nil e mid)
          fun d hd => hx d (List.mem_append_left _ hd)
        rw [hl.outside] at hin
        contradiction
  · rintro (⟨rfl, rfl⟩ | h)
    · exact ⟨[], rest, by simp, by simp, hf, hne, hx, hr⟩
    · exact h.of_append

theorem literalIn_decimal_iff {front whole fraction rest before digits : List Char}
    (hf : placeAfter front = .outside) (hne : whole ≠ []) (hw : ∀ d ∈ whole, d.isDigit)
    (hfr : ∀ d ∈ fraction, d.isDigit) :
    LiteralIn front (whole ++ '.' :: fraction ++ rest) before digits ↔
      LiteralIn (front ++ (whole ++ '.' :: fraction)) rest before digits := by
  refine ⟨fun h => ?_, LiteralIn.of_append⟩
  obtain h | ⟨mid, d, tail, back, hx, hd, rfl, ha, hl⟩ := h.cases_append
  · exact h
  · exfalso
    have hout := hl.outside
    obtain ⟨a, rfl, ha'⟩ | ⟨a, rfl, ha'⟩ := List.append_eq_append_iff.mp hx
    · cases a with
      | nil =>
        obtain ⟨rfl, -⟩ := List.cons.inj ha'
        contradiction
      | cons e a =>
        obtain ⟨rfl, rfl⟩ := List.cons.inj ha'
        rw [placeAfter_decimal hf hne hw fun d hd => hfr d (by simp [hd])] at hout
        contradiction
    · cases mid with
      | nil =>
        rw [ha', List.append_assoc] at ha
        obtain ⟨-, rfl⟩ := run_unique ha hl.isDigit hw (fun d hd => (hl.stops d hd).1) (by simp)
        exact (hl.stops '.' rfl).2 rfl
      | cons e mid =>
        have hin := placeAfter_digits hf (List.cons_ne_nil e mid)
          fun d hd => hw d (List.mem_append_left _ hd)
        rw [hin] at hout
        contradiction

end Frontend
