import Frontend.Proofs.Shift
import Frontend.Proofs.Start

namespace Frontend

open Lexeme

/-- A character that is a token by itself between any two texts: it neither goes on with what is
before it nor begins anything longer. -/
inductive Separates : Char → Token → Prop
  | lineFeed : Separates '\n' .newline
  | carriageReturn : Separates '\r' .newline
  | punctuation {p : Punctuation} (hp : p ≠ .dot) : Separates p.char (.punctuation p)
  | arithmetic {op : Operator} {c : Char}
      (hop : op ∈ [.plus, .dash, .star, .slash, .percent, .caret]) (hc : op.symbol.toList = [c]) :
      Separates c (.operator op)
  | unrecognized {c : Char} (hc : isRecognized c = false) : Separates c (.unknown c)

structure Stops (c : Char) : Prop where
  notBlank : isBlank c = false
  notAlpha : c.isAlpha = false
  notDigit : c.isDigit = false
  notPoint : c ≠ '.'
  notSecond : ∀ op ∈ Operator.all, op.symbol.toList.tail ≠ [c]

instance (c : Char) : Decidable (Stops c) :=
  decidable_of_iff
    (isBlank c = false ∧ c.isAlpha = false ∧ c.isDigit = false ∧ c ≠ '.' ∧
      ∀ op ∈ Operator.all, op.symbol.toList.tail ≠ [c])
    ⟨fun ⟨hb, ha, hd, hp, hs⟩ => ⟨hb, ha, hd, hp, hs⟩,
      fun ⟨hb, ha, hd, hp, hs⟩ => ⟨hb, ha, hd, hp, hs⟩⟩

theorem Separates.stops {c : Char} {t : Token} (h : Separates c t) : Stops c := by
  cases h with
  | lineFeed | carriageReturn => decide
  | @punctuation p hp => cases p <;> first | contradiction | decide
  | @arithmetic op c hop hc =>
    have hall : ∀ op ∈ [Operator.plus, .dash, .star, .slash, .percent, .caret],
        op.symbol.toList.all (Stops ·) := by decide
    simpa [hc] using hall op hop
  | @unrecognized c hc =>
    have hmark : c ∉ marks := by
      intro hm
      simp [isRecognized, hm] at hc
    refine ⟨?_, ?_, ?_, ?_, ?_⟩
    · simp_all [isRecognized]
    · simp_all [isRecognized]
    · simp_all [isRecognized]
    · rintro rfl
      exact hmark (by decide)
    · intro op _ hs
      have ht : c ∈ op.symbol.toList.tail := by simp [hs]
      exact hmark (mem_marks_of_mem_symbol (List.mem_of_mem_tail ht))

theorem takeWhile_append_stop {f : Char → Bool} {c : Char} (hc : f c = false) (a b : List Char) :
    (a ++ c :: b).takeWhile f = a.takeWhile f ∧
      (a ++ c :: b).dropWhile f = a.dropWhile f ++ c :: b := by
  induction a with
  | nil => simp [hc]
  | cons d a ih =>
    by_cases hd : f d
    · simp [hd, ih]
    · simp [hd]

theorem head?_append_stop {c d : Char} {a b : List Char} (h : (a ++ c :: b).head? = some d) :
    a.head? = some d ∨ d = c := by
  cases a with
  | nil => exact .inr (Option.some.inj h).symm
  | cons e a => exact .inl h

/-- What starts before a stop does not depend on the stop and what follows it. Only whether a
carriage return is paired does, and that has no part in its text or its token. -/
theorem Lexeme.Starts.append_stop {c d : Char} {a : List Char} {l : Lexeme} (hc : Stops c)
    (h : Starts d a l) (b : List Char) :
    ∃ l', Starts d (a ++ c :: b) l' ∧ l'.chars = l.chars ∧ l'.token? = l.token? := by
  obtain ⟨hbt, -⟩ := takeWhile_append_stop hc.notBlank a b
  obtain ⟨hat, had⟩ := takeWhile_append_stop hc.notAlpha a b
  obtain ⟨hdt, hdd⟩ := takeWhile_append_stop hc.notDigit a b
  cases h with
  | blanks hd => exact ⟨_, .blanks hd, by rw [hbt], rfl⟩
  | lineFeed hd => exact ⟨_, .lineFeed hd, rfl, rfl⟩
  | carriageReturn hd => exact ⟨_, .carriageReturn hd, rfl, rfl⟩
  | punctuation hd => exact ⟨_, .punctuation hd, rfl, rfl⟩
  | pair hd he =>
    refine ⟨_, .pair hd ?_, rfl, rfl⟩
    rw [List.head?_append, he]
    rfl
  | single hd he =>
    refine ⟨_, .single hd ?_, rfl, rfl⟩
    intro e op' hh
    obtain hh | rfl := head?_append_stop hh
    · exact he e op' hh
    · intro hs
      exact hc.notSecond op' op'.mem_all (by rw [hs]; rfl)
  | keyword hd he hb =>
    refine ⟨_, .keyword ?_ ?_ hb, rfl, rfl⟩
    · rw [hat]
      exact hd
    · rw [had, List.head?_append, he]
      rfl
  | word hd hk =>
    refine ⟨_, .word hd ?_, by rw [hat], by rw [hat]⟩
    intro k e ht hh
    rw [hat] at ht
    rw [had] at hh
    obtain hh | rfl := head?_append_stop hh
    · exact hk k e ht hh
    · exact hc.notBlank
  | @decimal after hd he =>
    obtain ⟨haft, -⟩ := takeWhile_append_stop hc.notDigit after b
    have hpoint : (a ++ c :: b).dropWhile Char.isDigit = '.' :: (after ++ c :: b) := by
      rw [hdd, he]
      rfl
    exact ⟨_, .decimal hd hpoint, by rw [hdt, haft], by rw [hdt, haft]⟩
  | integer hd he =>
    refine ⟨_, .integer hd ?_, by rw [hdt], by rw [hdt]⟩
    rw [hdd]
    intro hh
    obtain hh | hh := head?_append_stop hh
    · exact he hh
    · exact hc.notPoint hh.symm
  | unknown hd => exact ⟨_, .unknown hd, rfl, rfl⟩

theorem start_append_stop {c : Char} (hc : Stops c) (d : Char) (a b : List Char) :
    (start d (a ++ c :: b)).chars = (start d a).chars ∧
      ∀ p, Lexeme.read p (start d (a ++ c :: b)) = Lexeme.read p (start d a) := by
  obtain ⟨l, hl, hchars, htoken⟩ := (start_starts d a).append_stop hc b
  rw [hl.eq_start]
  refine ⟨hchars, fun p => ?_⟩
  unfold Lexeme.read Lexeme.span
  rw [hchars, htoken]

theorem tokensFrom_append_stop {c : Char} (hc : Stops c) (p : Cursor) (a b : List Char) :
    tokensFrom p (a ++ c :: b) =
      readAll (place p (ofText a)) >>= fun ts =>
        (tokensFrom (p.advance a) (c :: b)).map (ts ++ ·) := by
  induction a using ofText_induct generalizing p with
  | nil =>
    change tokensFrom p (c :: b) = (tokensFrom p (c :: b)).map fun us => [] ++ us
    cases tokensFrom p (c :: b) <;> rfl
  | cons d a ih =>
    obtain ⟨hchars, hread⟩ := start_append_stop hc d a b
    rw [List.cons_append, tokensFrom_cons, hread, hchars,
      List.drop_append_of_le_length (length_start_le d a), ih, ofText_cons, place, readAll,
      advance_start p d a]
    cases Lexeme.read p (start d a) with
    | error e => rfl
    | ok token =>
      simp only [bind, Except.bind]
      cases readAll (place (p.advance (start d a).chars)
        (ofText (a.drop ((start d a).chars.length - 1)))) with
      | error e => rfl
      | ok ts =>
        simp only [pure, Except.pure]
        cases tokensFrom ((p.advance (start d a).chars).advance
          (a.drop ((start d a).chars.length - 1))) (c :: b) with
        | error e => rfl
        | ok us => simp [Except.map]

end Frontend
