import Frontend.Proofs.Literal
import Frontend.Proofs.Position

namespace Frontend

open Lexeme

/-- What a rule takes of a text, with all that is before it. -/
structure Munch where
  before : List Char
  rule : Rule
  text : List Char
  deriving DecidableEq, Repr

/-- What the rules take of `cs`, which stands behind `front`, when the longest match is taken at
each place. -/
def munchesFrom (front : List Char) : List Char → List Munch
  | [] => []
  | c :: rest =>
    if isBlank c then
      munchesFrom (front ++ c :: rest.takeWhile isBlank) (rest.dropWhile isBlank)
    else
      match Rule.longest? (c :: rest) with
      | some (r, x) => ⟨front, r, x⟩ :: munchesFrom (front ++ x) (rest.drop (x.length - 1))
      | none => munchesFrom (front ++ [c]) rest
termination_by cs => cs.length
decreasing_by
  · have hle := (List.dropWhile_sublist isBlank (l := rest)).length_le
    simp only [List.length_cons]
    omega
  · simp only [List.length_drop, List.length_cons]
    omega
  · simp

def munches (s : List Char) : List Munch := munchesFrom [] s

namespace Munch

def isOversized (m : Munch) : Bool :=
  m.rule = .integer && Nat.pow 2 63 - 1 < Nat.ofDigitChars 10 m.text 0

def fault (m : Munch) : LexError :=
  ⟨String.ofList m.text, ⟨Text.byteLength m.before, Text.byteLength (m.before ++ m.text)⟩,
    positionAfter m.before, .integer .tooLarge⟩

theorem isOversized_iff {m : Munch} :
    m.isOversized ↔ m.rule = .integer ∧ Nat.pow 2 63 - 1 < Nat.ofDigitChars 10 m.text 0 := by
  simp [isOversized]

end Munch

theorem emit_of_matches {r : Rule} {x : List Char} (h : r.Matches x) (front : List Char) :
    if Munch.isOversized ⟨front, r, x⟩ then
      r.emit (Cursor.start.advance front) x = .error (Munch.fault ⟨front, r, x⟩)
    else ∃ t, r.emit (Cursor.start.advance front) x = .ok t := by
  cases r with
  | integer =>
    have hread := Numeral.readInteger_digits h.1 h.2
    by_cases hle : Nat.ofDigitChars 10 x 0 ≤ Numeral.maxInt
    · have ho : ¬Munch.isOversized ⟨front, .integer, x⟩ := by
        rw [Munch.isOversized_iff]
        exact fun hlt => absurd hle (Nat.not_le.mpr hlt.2)
      rw [if_pos hle] at hread
      rw [if_neg ho]
      exact ⟨_, by rw [Rule.emit, Rule.token, hread]; rfl⟩
    · have ho : Munch.isOversized ⟨front, .integer, x⟩ :=
        Munch.isOversized_iff.mpr ⟨rfl, Nat.not_le.mp hle⟩
      rw [if_neg hle] at hread
      rw [if_pos ho, Munch.fault, Text.byteLength_append, ← position_advance,
        ← Cursor.offset_start_advance front, Rule.emit, Rule.token, hread]
      rfl
  | _ => exact ⟨_, rfl⟩

theorem scanBy_eq_error_iff (front cs : List Char) (e : LexError) :
    scanBy Rule.longest? (Cursor.start.advance front) cs = .error e ↔
      ((munchesFrom front cs).find? Munch.isOversized).map Munch.fault = some e := by
  fun_induction munchesFrom front cs with
  | case1 front => simp [scanBy]
  | case2 front c rest hc ih => rw [scanBy, if_pos hc, ← Cursor.advance_append, ih]
  | case3 front c rest hc r x hchoose ih =>
    have hemit := emit_of_matches (Rule.longest?_eq_some hchoose).1 front
    rw [scanBy, if_neg hc, hchoose]
    simp only [bind, Except.bind]
    by_cases ho : Munch.isOversized ⟨front, r, x⟩
    · rw [if_pos ho] at hemit
      rw [hemit, List.find?_cons_of_pos ho]
      simp
    · rw [if_neg ho] at hemit
      obtain ⟨t, ht⟩ := hemit
      rw [ht, List.find?_cons_of_neg ho, ← ih, Cursor.advance_append]
      cases scanBy Rule.longest? ((Cursor.start.advance front).advance x)
        (rest.drop (x.length - 1)) <;> simp [pure, Except.pure]
  | case4 front c rest hc hchoose ih =>
    rw [scanBy, if_neg hc, hchoose, ← ih, Cursor.advance_append]
    change (scanBy Rule.longest? ((Cursor.start.advance front).step c) rest >>= _) = _ ↔
      scanBy Rule.longest? ((Cursor.start.advance front).step c) rest = _
    cases scanBy Rule.longest? ((Cursor.start.advance front).step c) rest <;>
      simp [bind, Except.bind, pure, Except.pure]

theorem tokenize_eq_error_iff_munches {s : List Char} {e : LexError} :
    tokenize s = .error e ↔ ((munches s).find? Munch.isOversized).map Munch.fault = some e := by
  rw [tokenize_eq_error_iff, ← scanBy_eq_tokensFrom longest?_takesWinner]
  exact scanBy_eq_error_iff [] s e

theorem append_drop_of_isPrefix {x rest : List Char} {c : Char} (hne : x ≠ [])
    (hp : x <+: c :: rest) : x ++ rest.drop (x.length - 1) = c :: rest := by
  obtain ⟨d, x, rfl⟩ := List.exists_cons_of_ne_nil hne
  obtain ⟨tail, ht⟩ := hp
  obtain ⟨rfl, rfl⟩ := List.cons.inj ht
  simp

namespace Rule

theorem Matches.not_isDigit {r : Rule} {x : List Char} (h : r.Matches x) (hr : r ≠ .integer)
    (hr' : r ≠ .decimal) : ∀ d ∈ x, d.isDigit = false := by
  intro d hd
  rw [Bool.eq_false_iff]
  intro hdigit
  have hclass := classOf_of_isDigit hdigit
  cases r with
  | integer | decimal => contradiction
  | lineFeed | carriageReturn =>
    rw [h, List.mem_singleton] at hd
    subst hd
    contradiction
  | punctuation p =>
    rw [(matches_punctuation_iff p x).mp h, List.mem_singleton] at hd
    rw [hd, classOf_char] at hclass
    contradiction
  | operator op =>
    rw [← (matches_operator_iff op x).mp h] at hd
    rw [classOf_of_mem_symbol hd] at hclass
    contradiction
  | keyword k =>
    obtain ⟨e, he, rfl⟩ := exists_of_matches_keyword h
    obtain hd | hd := List.mem_append.mp hd
    · rw [classOf_of_isAlpha (k.isAlpha_text d hd)] at hclass
      contradiction
    · rw [List.mem_singleton.mp hd, classOf_of_isBlank he] at hclass
      contradiction
  | word =>
    rw [classOf_of_isAlpha (h.2 d hd)] at hclass
    contradiction

theorem not_matches_of_longest? {r : Rule} {x rest : List Char} {d : Char}
    (h : longest? (x ++ rest) = some (r, x)) (hd : rest.head? = some d) (r' : Rule) :
    ¬r'.Matches (x ++ [d]) := by
  intro hm
  obtain ⟨tail, rfl⟩ := List.head?_eq_some_iff.mp hd
  obtain hlt | ⟨-, he⟩ := (longest?_eq_some h).2.2 r' (x ++ [d]) hm ⟨tail, by simp⟩
  · rw [List.length_append, List.length_singleton] at hlt
    omega
  · simp at he

theorem stops_of_integer {x rest : List Char} (h : longest? (x ++ rest) = some (.integer, x)) :
    ∀ d, rest.head? = some d → d.isDigit = false ∧ d ≠ '.' := by
  obtain ⟨hne, hx⟩ := (longest?_eq_some h).1
  intro d hd
  constructor
  · rw [Bool.eq_false_iff]
    intro hdigit
    refine not_matches_of_longest? h hd .integer ⟨by simp, ?_⟩
    intro e he
    obtain he | he := List.mem_append.mp he
    · exact hx e he
    · rwa [List.mem_singleton.mp he]
  · rintro rfl
    exact not_matches_of_longest? h hd .decimal ⟨x, [], rfl, hne, hx, by simp⟩

theorem stops_of_decimal {x rest : List Char} (h : longest? (x ++ rest) = some (.decimal, x)) :
    ∀ d, rest.head? = some d → d.isDigit = false := by
  obtain ⟨whole, fraction, rfl, hne, hw, hf⟩ := (longest?_eq_some h).1
  intro d hd
  rw [Bool.eq_false_iff]
  intro hdigit
  refine not_matches_of_longest? h hd .decimal
    ⟨whole, fraction ++ [d], by simp, hne, hw, ?_⟩
  intro e he
  obtain he | he := List.mem_append.mp he
  · exact hf e he
  · rwa [List.mem_singleton.mp he]

end Rule

theorem isDigit_of_isBlank {d : Char} (h : isBlank d) : d.isDigit = false := by
  rw [Bool.eq_false_iff]
  intro hd
  have hclass := classOf_of_isBlank h
  rw [classOf_of_isDigit hd] at hclass
  contradiction

theorem not_isDigit_of_longest? {c : Char} {rest : List Char}
    (h : Rule.longest? (c :: rest) = none) : c.isDigit = false := by
  rw [Bool.eq_false_iff]
  intro hc
  exact Rule.longest?_eq_none_iff.mp h .integer [c] ⟨by simp, by simpa using hc⟩ ⟨rest, rfl⟩

theorem mem_munchesFrom_iff {front cs : List Char} (h : IsClear front cs)
    {before digits : List Char} :
    ⟨before, .integer, digits⟩ ∈ munchesFrom front cs ↔ LiteralIn front cs before digits := by
  fun_induction munchesFrom front cs with
  | case1 front =>
    refine ⟨by simp, ?_⟩
    rintro ⟨mid, back, -, hnil, hl⟩
    simp [hl.nonempty] at hnil
  | case2 front c rest hc ih =>
    have hsplit : c :: rest = (c :: rest.takeWhile isBlank) ++ rest.dropWhile isBlank := by
      rw [List.cons_append, List.takeWhile_append_dropWhile]
    have hx : ∀ d ∈ c :: rest.takeWhile isBlank, d.isDigit = false :=
      fun d hd => isDigit_of_isBlank (forall_mem_run hc rest d hd)
    rw [hsplit] at h
    rw [ih (.inl (h.placeAfter_of_not_isDigit (by simp) hx)), hsplit, literalIn_append_iff hx]
  | case3 front c rest hc r x hchoose ih =>
    obtain ⟨hm, hp, -⟩ := Rule.longest?_eq_some hchoose
    have hne : x ≠ [] := by
      rintro rfl
      exact r.not_matches_nil hm
    have hsplit := append_drop_of_isPrefix hne hp
    rw [← hsplit] at h hchoose ⊢
    rw [List.mem_cons, Munch.mk.injEq]
    cases r with
    | integer =>
      have hstops := Rule.stops_of_integer hchoose
      have hclear : IsClear (front ++ x) (rest.drop (x.length - 1)) :=
        .inr fun d hd => ⟨(hstops d hd).1, fun _ => (hstops d hd).2⟩
      rw [ih hclear, literalIn_digits_iff (h.outside hne hm.2) hne hm.2 hstops]
      simp
    | decimal =>
      have hstops := Rule.stops_of_decimal hchoose
      obtain ⟨whole, fraction, rfl, hwne, hw, hf⟩ := hm
      have hout : placeAfter front = .outside := by
        rw [List.append_assoc] at h
        exact h.outside hwne hw
      have hclear : IsClear (front ++ (whole ++ '.' :: fraction))
          (rest.drop ((whole ++ '.' :: fraction).length - 1)) := by
        rw [IsClear, placeAfter_decimal hout hwne hw hf]
        exact .inr fun d hd => ⟨hstops d hd, by simp⟩
      rw [ih hclear, literalIn_decimal_iff hout hwne hw hf]
      simp
    | _ =>
      have hx := hm.not_isDigit (by simp) (by simp)
      rw [ih (.inl (h.placeAfter_of_not_isDigit hne hx)), literalIn_append_iff hx]
      simp
  | case4 front c rest hc hchoose ih =>
    have hx : ∀ d ∈ [c], d.isDigit = false := by
      simpa using not_isDigit_of_longest? hchoose
    change IsClear front ([c] ++ rest) at h
    rw [ih (.inl (h.placeAfter_of_not_isDigit (by simp) hx)), ← literalIn_append_iff hx]
    rfl

theorem mem_munches_iff {s before digits : List Char} :
    ⟨before, .integer, digits⟩ ∈ munches s ↔
      ∃ back, s = before ++ digits ++ back ∧ IsIntegerLiteral before digits back := by
  rw [munches, mem_munchesFrom_iff (.inl rfl)]
  constructor
  · rintro ⟨mid, back, rfl, hs, hl⟩
    exact ⟨back, hs, hl⟩
  · rintro ⟨back, hs, hl⟩
    exact ⟨before, back, rfl, hs, hl⟩

theorem length_le_of_mem_munchesFrom {front cs : List Char} {m : Munch}
    (h : m ∈ munchesFrom front cs) : front.length ≤ m.before.length := by
  fun_induction munchesFrom front cs with
  | case1 front => simp at h
  | case2 front c rest hc ih | case4 front c rest hc hchoose ih =>
    have hle := ih h
    rw [List.length_append] at hle
    omega
  | case3 front c rest hc r x hchoose ih =>
    obtain rfl | h := List.mem_cons.mp h
    · exact Nat.le_refl _
    · have hle := ih h
      rw [List.length_append] at hle
      omega

theorem pairwise_munchesFrom (front cs : List Char) :
    (munchesFrom front cs).Pairwise fun m m' => m.before.length < m'.before.length := by
  fun_induction munchesFrom front cs with
  | case1 front => exact .nil
  | case2 front c rest hc ih | case4 front c rest hc hchoose ih => exact ih
  | case3 front c rest hc r x hchoose ih =>
    refine .cons ?_ ih
    intro m hm
    have hle := length_le_of_mem_munchesFrom hm
    have hpos : x.length ≠ 0 := by
      rw [ne_eq, List.length_eq_zero_iff]
      rintro rfl
      exact r.not_matches_nil (Rule.longest?_eq_some hchoose).1
    rw [List.length_append] at hle
    change front.length < m.before.length
    omega

theorem length_le_of_find? {s : List Char} {m m' : Munch}
    (h : (munches s).find? Munch.isOversized = some m) (hm : m' ∈ munches s)
    (ho : m'.isOversized) : m.before.length ≤ m'.before.length := by
  obtain ⟨-, front, back, hsplit, hfront⟩ := List.find?_eq_some_iff_append.mp h
  have hpair : (munches s).Pairwise _ := pairwise_munchesFrom [] s
  rw [hsplit, List.pairwise_append, List.pairwise_cons] at hpair
  rw [hsplit, List.mem_append, List.mem_cons] at hm
  obtain hm | rfl | hm := hm
  · have hnot := hfront m' hm
    simp [ho] at hnot
  · exact Nat.le_refl _
  · exact Nat.le_of_lt (hpair.2.1.1 m' hm)

theorem IsIntegerLiteral.append {front digits back tail : List Char}
    (h : IsIntegerLiteral front digits back)
    (ht : placeAfter (front ++ digits ++ back) = .outside) :
    IsIntegerLiteral front digits (back ++ tail) := by
  refine ⟨h.outside, h.nonempty, h.isDigit, ?_⟩
  cases back with
  | nil =>
    rw [List.append_nil, placeAfter_digits h.outside h.nonempty h.isDigit] at ht
    contradiction
  | cons d back => exact h.stops

theorem exists_tokenize_before {s before digits : List Char}
    (h : (munches s).find? Munch.isOversized = some ⟨before, .integer, digits⟩) :
    ∃ stream, tokenize before = .ok stream := by
  cases ht : tokenize before with
  | ok stream => exact ⟨stream, rfl⟩
  | error e =>
    obtain ⟨back, rfl, hl⟩ := mem_munches_iff.mp (List.mem_of_find?_eq_some h)
    obtain ⟨m, hfind, -⟩ := Option.map_eq_some_iff.mp (tokenize_eq_error_iff_munches.mp ht)
    obtain ⟨before', rule, digits'⟩ := m
    have ho := List.find?_some hfind
    obtain rfl : rule = .integer := (Munch.isOversized_iff.mp ho).1
    obtain ⟨back', rfl, hl'⟩ := mem_munches_iff.mp (List.mem_of_find?_eq_some hfind)
    have hmem : ⟨before', .integer, digits'⟩ ∈
        munches (before' ++ digits' ++ back' ++ digits ++ back) :=
      mem_munches_iff.mpr ⟨back' ++ (digits ++ back), by simp, hl'.append hl.outside⟩
    have hle := length_le_of_find? h hmem ho
    have hpos := List.length_pos_iff.mpr hl'.nonempty
    simp only [List.length_append] at hle
    omega

theorem isOversized_replicate_zero (before digits : List Char) (zeros : Nat) :
    Munch.isOversized ⟨before, .integer, List.replicate zeros '0' ++ digits⟩ =
      Munch.isOversized ⟨before, .integer, digits⟩ := by
  simp [Munch.isOversized, Nat.ofDigitChars_append, Nat.ofDigitChars_replicate_zero]

theorem int_bounds {s : List Char} {stream : TokenStream} (h : tokenize s = .ok stream)
    {t : SpannedToken} (ht : t ∈ stream.tokens) {n : Int64} (hn : t.token = .int n) :
    0 ≤ n.toInt ∧ n.toInt ≤ Nat.pow 2 63 - 1 := by
  obtain ⟨ts, hr, hts⟩ := exists_readAll_of_tokenize h
  rw [hts, List.mem_append, List.mem_singleton] at ht
  obtain ht | rfl := ht
  · obtain ⟨c, rest, front, back, -, htok, -⟩ := exists_lexeme_of_mem hr ht
    have hw := isWritten_of_token? (start_starts c rest) htok
    rw [hn] at hw
    have hlt := n.toInt_lt
    rw [Nat.pow_eq]
    rw [hw.2.2] at hlt ⊢
    omega
  · cases hn

/-- A source has no tokens exactly if an integer literal above the largest 64-bit integer is met in
it; the fault then describes the first one. -/
theorem tokenize_faults (s : List Char) :
    ((∃ e, tokenize s = .error e) ↔ ∃ m ∈ munches s, m.isOversized) ∧
    (∀ before digits, ⟨before, .integer, digits⟩ ∈ munches s ↔
      ∃ back, s = before ++ digits ++ back ∧ IsIntegerLiteral before digits back) ∧
    (∀ before digits zeros,
      Munch.isOversized ⟨before, .integer, List.replicate zeros '0' ++ digits⟩ =
        Munch.isOversized ⟨before, .integer, digits⟩) ∧
    (∀ e, tokenize s = .error e → ∃ before digits stream,
      (munches s).find? Munch.isOversized = some ⟨before, .integer, digits⟩ ∧
      e.fault = .integer .tooLarge ∧ e.literal = String.ofList digits ∧
      e.span = ⟨Text.byteLength before, Text.byteLength (before ++ digits)⟩ ∧
      Text.slice? s e.span = some digits ∧ positionAt? s e.span.start = some e.position ∧
      tokenize before = .ok stream) ∧
    ∀ stream, tokenize s = .ok stream → ∀ t ∈ stream.tokens, ∀ n, t.token = .int n →
      0 ≤ n.toInt ∧ n.toInt ≤ Nat.pow 2 63 - 1 := by
  refine ⟨?_, fun _ _ => mem_munches_iff, isOversized_replicate_zero, ?_,
    fun stream h t ht n hn => int_bounds h ht hn⟩
  · simp only [tokenize_eq_error_iff_munches, ← Option.isSome_iff_exists, Option.isSome_map,
      List.find?_isSome]
  · intro e he
    obtain ⟨m, hfind, rfl⟩ := Option.map_eq_some_iff.mp (tokenize_eq_error_iff_munches.mp he)
    obtain ⟨before, rule, digits⟩ := m
    obtain rfl : rule = .integer := (Munch.isOversized_iff.mp (List.find?_some hfind)).1
    obtain ⟨stream, hstream⟩ := exists_tokenize_before hfind
    obtain ⟨back, rfl, -⟩ := mem_munches_iff.mp (List.mem_of_find?_eq_some hfind)
    refine ⟨before, digits, stream, hfind, rfl, rfl, rfl, ?_, ?_, hstream⟩
    · exact Text.slice?_eq_some_iff.mpr ⟨before, back, rfl, rfl, rfl⟩
    · rw [List.append_assoc]
      simp [positionAt?, Munch.fault, Text.split?_append]

theorem tokenize_faults_third_numeral :
    (∃ stream, tokenize "1.99999999999999999999 009223372036854775807".toList = .ok stream ∧
      ∀ t ∈ stream.tokens, ∀ n, t.token = .int n → 0 ≤ n.toInt ∧ n.toInt ≤ Nat.pow 2 63 - 1) ∧
    ∃ e before digits stream, tokenize "1.2.09223372036854775808".toList = .error e ∧
      e.span = ⟨4, 24⟩ ∧ (munches "1.2.09223372036854775808".toList).find? Munch.isOversized =
        some ⟨before, .integer, digits⟩ ∧
      Text.slice? "1.2.09223372036854775808".toList e.span = some digits ∧
      tokenize before = .ok stream := by
  refine ⟨?_, ?_⟩
  · obtain ⟨stream, h⟩ : ∃ stream,
        tokenize "1.99999999999999999999 009223372036854775807".toList = .ok stream := ⟨_, rfl⟩
    exact ⟨stream, h, (tokenize_faults _).2.2.2.2 stream h⟩
  · obtain ⟨e, h, hspan⟩ : ∃ e, tokenize "1.2.09223372036854775808".toList = .error e ∧
        e.span = ⟨4, 24⟩ := ⟨_, rfl, rfl⟩
    obtain ⟨before, digits, stream, hfind, -, -, -, hslice, -, hstream⟩ :=
      (tokenize_faults _).2.2.2.1 e h
    exact ⟨e, before, digits, stream, h, hspan, hfind, hslice, hstream⟩

end Frontend
