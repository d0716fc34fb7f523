import Frontend.Proofs.Report

namespace Frontend

namespace Text

def fitting : List Char → Nat → List Char
  | [], _ => []
  | c :: cs, n => if c.utf8Size ≤ n then c :: fitting cs (n - c.utf8Size) else []

/-- An offset inside a character, where no text can be split. -/
def Cuts (cs : List Char) (n : Nat) : Prop :=
  ∃ front c back, cs = front ++ c :: back ∧ byteLength front < n ∧ n < byteLength (front ++ [c])

theorem fitting_isPrefix (cs : List Char) (n : Nat) : fitting cs n <+: cs := by
  induction cs generalizing n with
  | nil => exact List.nil_prefix
  | cons c cs ih =>
    rw [fitting]
    split
    · exact List.cons_prefix_cons.mpr ⟨rfl, ih _⟩
    · exact List.nil_prefix

theorem length_fitting_le (cs : List Char) (n : Nat) : (fitting cs n).length ≤ n := by
  induction cs generalizing n with
  | nil => exact Nat.zero_le n
  | cons c cs ih =>
    have hpos := Char.utf8Size_pos c
    have hrest := ih (n - c.utf8Size)
    rw [fitting]
    split
    · rw [List.length_cons]
      omega
    · exact Nat.zero_le n

theorem length_fitting_mono (cs : List Char) {m n : Nat} (h : m ≤ n) :
    (fitting cs m).length ≤ (fitting cs n).length := by
  induction cs generalizing m n with
  | nil => exact Nat.le_refl 0
  | cons c cs ih =>
    by_cases hm : c.utf8Size ≤ m
    · rw [fitting, fitting, if_pos hm, if_pos (Nat.le_trans hm h)]
      exact Nat.succ_le_succ (ih (by omega))
    · rw [fitting, if_neg hm]
      exact Nat.zero_le _

theorem not_cuts_nil (n : Nat) : ¬Cuts [] n := by
  rintro ⟨front, c, back, h, -⟩
  simp at h

theorem cuts_cons_iff {c : Char} {cs : List Char} {n : Nat} :
    Cuts (c :: cs) n ↔
      (0 < n ∧ n < c.utf8Size) ∨ (c.utf8Size ≤ n ∧ Cuts cs (n - c.utf8Size)) := by
  constructor
  · rintro ⟨front, d, back, h, hlo, hhi⟩
    rw [byteLength_append] at hhi
    cases front with
    | nil =>
      obtain ⟨rfl, rfl⟩ := List.cons.inj h
      exact .inl ⟨hlo, by simpa [byteLength] using hhi⟩
    | cons e front =>
      obtain ⟨rfl, rfl⟩ := List.cons.inj h
      rw [byteLength_cons] at hlo hhi
      refine .inr ⟨by omega, front, d, back, rfl, by omega, ?_⟩
      rw [byteLength_append]
      omega
  · rintro (⟨hlo, hhi⟩ | ⟨hle, front, d, back, rfl, hlo, hhi⟩)
    · exact ⟨[], c, cs, rfl, hlo, by simpa [byteLength] using hhi⟩
    · refine ⟨c :: front, d, back, rfl, ?_, ?_⟩
      · rw [byteLength_cons]
        omega
      · rw [List.cons_append, byteLength_cons]
        omega

theorem charsBefore?_eq_none_iff {cs : List Char} {n : Nat} :
    charsBefore? cs n = none ↔ Cuts cs n := by
  induction cs generalizing n with
  | nil => simp [charsBefore?, not_cuts_nil]
  | cons c cs ih =>
    have hpos := Char.utf8Size_pos c
    rw [charsBefore?, cuts_cons_iff, ← ih]
    by_cases hn : n = 0
    · rw [if_pos hn]
      simp only [reduceCtorEq, false_iff]
      omega
    · by_cases hlt : n < c.utf8Size
      · rw [if_neg hn, if_pos hlt]
        simp only [true_iff]
        exact .inl ⟨Nat.pos_of_ne_zero hn, hlt⟩
      · rw [if_neg hn, if_neg hlt, Option.map_eq_none_iff]
        simp [hlt, Nat.not_lt.mp hlt]

instance (cs : List Char) (n : Nat) : Decidable (Cuts cs n) :=
  decidable_of_iff (charsBefore? cs n = none) charsBefore?_eq_none_iff

theorem charsBefore?_of_not_cuts {cs : List Char} {n : Nat} (h : ¬Cuts cs n) :
    charsBefore? cs n = some (fitting cs n).length := by
  induction cs generalizing n with
  | nil => rfl
  | cons c cs ih =>
    have hpos := Char.utf8Size_pos c
    rw [cuts_cons_iff] at h
    rw [charsBefore?, fitting]
    by_cases hn : n = 0
    · rw [if_pos hn, if_neg (by omega)]
      rfl
    · have hle : c.utf8Size ≤ n := by omega
      rw [if_neg hn, if_neg (by omega), if_pos hle, ih (by tauto)]
      rfl

theorem charOffset_of_cuts {cs : List Char} {n : Nat} (h : Cuts cs n) : charOffset cs n = n := by
  rw [charOffset, charsBefore?_eq_none_iff.mpr h]
  rfl

theorem charOffset_of_not_cuts {cs : List Char} {n : Nat} (h : ¬Cuts cs n) :
    charOffset cs n = (fitting cs n).length := by
  rw [charOffset, charsBefore?_of_not_cuts h]
  rfl

end Text

namespace Span

theorem label_start_le_stop_iff {span : Span} (h : span.start ≤ span.stop) (s : List Char) :
    (span.label s).start ≤ (span.label s).stop ↔
      (Text.Cuts s span.start → ¬Text.Cuts s span.stop →
        span.start ≤ (Text.fitting s span.stop).length) := by
  simp only [label]
  by_cases hstart : Text.Cuts s span.start
  · by_cases hstop : Text.Cuts s span.stop
    · rw [Text.charOffset_of_cuts hstart, Text.charOffset_of_cuts hstop]
      exact ⟨fun _ _ hn => absurd hstop hn, fun _ => h⟩
    · rw [Text.charOffset_of_cuts hstart, Text.charOffset_of_not_cuts hstop]
      exact ⟨fun hle _ _ => hle, fun hle => hle hstart hstop⟩
  · refine ⟨fun _ hc => absurd hc hstart, fun _ => ?_⟩
    rw [Text.charOffset_of_not_cuts hstart]
    by_cases hstop : Text.Cuts s span.stop
    · rw [Text.charOffset_of_cuts hstop]
      exact Nat.le_trans (Text.length_fitting_le s span.start) h
    · rw [Text.charOffset_of_not_cuts hstop]
      exact Text.length_fitting_mono s h

theorem label_stop_le_length_iff (span : Span) (s : List Char) :
    (span.label s).stop ≤ s.length ↔ (Text.Cuts s span.stop → span.stop ≤ s.length) := by
  simp only [label]
  by_cases hstop : Text.Cuts s span.stop
  · rw [Text.charOffset_of_cuts hstop]
    exact ⟨fun hle _ => hle, fun hle => hle hstop⟩
  · rw [Text.charOffset_of_not_cuts hstop]
    exact ⟨fun _ hc => absurd hc hstop, fun _ => (Text.fitting_isPrefix s span.stop).length_le⟩

end Span

/-- The label of a span with ordered ends is a range of characters of the source if neither end is
inside a character. One that is stays a count of bytes, and the label is such a range only as far as
this count happens to fit. -/
theorem Span.label_valid_iff {span : Span} (h : span.start ≤ span.stop) (source : String) :
    ((span.label source.toList).start ≤ (span.label source.toList).stop ∧
        (span.label source.toList).stop ≤ source.toList.length ↔
      (Text.Cuts source.toList span.start → ¬Text.Cuts source.toList span.stop →
        span.start ≤ (Text.fitting source.toList span.stop).length) ∧
      (Text.Cuts source.toList span.stop → span.stop ≤ source.toList.length)) ∧
    ∀ (t : Terminal) (d : Diagnostic), d.span = some span →
      ((∃ shown, t.report source d = .ok shown) ↔
        (Text.Cuts source.toList span.start → ¬Text.Cuts source.toList span.stop →
          span.start ≤ (Text.fitting source.toList span.stop).length)) := by
  have horder := label_start_le_stop_iff h source.toList
  refine ⟨?_, ?_⟩
  · rw [horder, label_stop_le_length_iff]
  · intro t d hd
    rw [t.exists_report_iff hd, horder]

theorem Span.label_valid_past_end :
    (⟨3, 99⟩ : Span).start ≤ (⟨3, 99⟩ : Span).stop ∧
    ((⟨3, 99⟩ : Span).label "日本".toList).start ≤ ((⟨3, 99⟩ : Span).label "日本".toList).stop ∧
    ((⟨3, 99⟩ : Span).label "日本".toList).stop ≤ "日本".toList.length ∧
    ∃ shown, Terminal.report {} "日本" ((Diagnostic.error "bad").withSpan ⟨3, 99⟩) = .ok shown := by
  have hle : (⟨3, 99⟩ : Span).start ≤ (⟨3, 99⟩ : Span).stop := by decide
  obtain ⟨hvalid, hreport⟩ := Span.label_valid_iff hle "日本"
  obtain ⟨horder, hinside⟩ := hvalid.mpr (by decide)
  exact ⟨hle, horder, hinside, (hreport {} _ rfl).mpr (by decide)⟩

/-- Inside a character the ends of a label are in bytes: they can pass each other, and the end of
the source. -/
theorem Span.label_reversed_inside_character :
    (⟨5, 6⟩ : Span).label "日本".toList = ⟨5, 2⟩ ∧
    Terminal.report {} "日本" ((Diagnostic.error "bad").withSpan ⟨5, 6⟩) = .error .reversed ∧
    (⟨0, 5⟩ : Span).label "日本".toList = ⟨0, 5⟩ ∧ "日本".toList.length = 2 := by
  exact ⟨rfl, rfl, rfl, rfl⟩

end Frontend
