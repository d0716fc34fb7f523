import Frontend.Proofs.Layout
import Frontend.Proofs.Winner

namespace Frontend

open Lexeme

namespace Rule

def token : Rule → List Char → Except Numeral.IntegerFault Token
  | lineFeed, _ | carriageReturn, _ => .ok .newline
  | punctuation p, _ => .ok (.punctuation p)
  | operator op, _ => .ok (.operator op)
  | keyword k, _ => .ok (.keyword k)
  | word, x => .ok (.identifier (String.ofList x))
  | decimal, x =>
    let whole := x.takeWhile Char.isDigit
    let fraction := (x.dropWhile Char.isDigit).tail
    .ok (.float (Binary64.ofDecimal (Nat.ofDigitChars 10 (whole ++ fraction) 0) fraction.length))
  | integer, x => (Numeral.readInteger x).map .int

/-- The part of a matched text that is reported: the blank after a keyword is not. -/
def reported : Rule → List Char → List Char
  | keyword k, _ => k.text.toList
  | _, x => x

def emit (r : Rule) (p : Cursor) (x : List Char) : Except LexError SpannedToken :=
  let span : Span := ⟨p.offset, p.offset + Text.byteLength (r.reported x)⟩
  match r.token x with
  | .ok t => .ok ⟨t, span, p.position⟩
  | .error fault => .error ⟨String.ofList x, span, p.position, .integer fault⟩

end Rule

/-- Reads `cs`, which begins at `p`, from left to right: blanks are skipped, then `choose` says
which rule takes how much of the rest, and a character that no rule takes is unknown. -/
def scanBy (choose : List Char → Option (Rule × List Char)) (p : Cursor) :
    List Char → Except LexError (List SpannedToken)
  | [] => .ok [.eofAt p]
  | c :: rest =>
    if isBlank c then
      scanBy choose (p.advance (c :: rest.takeWhile isBlank)) (rest.dropWhile isBlank)
    else
      match choose (c :: rest) with
      | some (r, x) => do
        let token ← r.emit p x
        let tokens ← scanBy choose (p.advance x) (rest.drop (x.length - 1))
        return token :: tokens
      | none => do
        let tokens ← scanBy choose (p.step c) rest
        return ⟨.unknown c, ⟨p.offset, p.offset + c.utf8Size⟩, p.position⟩ :: tokens
termination_by cs => cs.length
decreasing_by
  · have hle := (List.dropWhile_sublist isBlank (l := rest)).length_le
    simp only [List.length_cons]
    omega
  · simp only [List.length_drop, List.length_cons]
    omega
  · simp

theorem tokensFrom_blanks {c : Char} (hc : isBlank c) (p : Cursor) (rest : List Char) :
    tokensFrom p (c :: rest) =
      tokensFrom (p.advance (c :: rest.takeWhile isBlank)) (rest.dropWhile isBlank) := by
  have hdrop : rest.drop (rest.takeWhile isBlank).length = rest.dropWhile isBlank := by
    calc rest.drop (rest.takeWhile isBlank).length
        = (rest.takeWhile isBlank ++ rest.dropWhile isBlank).drop
            (rest.takeWhile isBlank).length := by rw [List.takeWhile_append_dropWhile]
      _ = rest.dropWhile isBlank := List.drop_left
  rw [tokensFrom_cons, (Starts.blanks hc).eq_start]
  simp only [chars, List.length_cons, Nat.add_sub_cancel, hdrop]
  cases tokensFrom (p.advance (c :: rest.takeWhile isBlank)) (rest.dropWhile isBlank) <;> rfl

theorem tokensFrom_blank {c : Char} (hc : isBlank c) (p : Cursor) (rest : List Char) :
    tokensFrom p (c :: rest) = tokensFrom (p.step c) rest := by
  rw [tokensFrom_blanks hc]
  cases rest with
  | nil => rfl
  | cons d rest =>
    by_cases hd : isBlank d
    · rw [tokensFrom_blanks hd, List.takeWhile_cons_of_pos hd, List.dropWhile_cons_of_pos hd]
      rfl
    · rw [List.takeWhile_cons_of_neg hd, List.dropWhile_cons_of_neg hd]
      rfl

theorem tokensFrom_taken {p : Cursor} {c : Char} {rest x y : List Char} (hne : y ≠ [])
    (hx : x = y ∨ ∃ d, isBlank d ∧ x = y ++ [d]) (hp : x <+: c :: rest) :
    tokensFrom (p.advance y) (rest.drop (y.length - 1)) =
      tokensFrom (p.advance x) (rest.drop (x.length - 1)) := by
  obtain rfl | ⟨d, hd, rfl⟩ := hx
  · rfl
  · obtain ⟨e, y, rfl⟩ := List.exists_cons_of_ne_nil hne
    obtain ⟨tail, ht⟩ := hp
    obtain ⟨rfl, rfl⟩ : e = c ∧ y ++ d :: tail = rest := by simpa using ht
    have hy : (y ++ d :: tail).drop y.length = d :: tail := List.drop_left
    have hyd : (y ++ d :: tail).drop (y.length + 1) = tail := by simp
    simp only [List.length_cons, List.length_append, List.length_nil, Nat.add_sub_cancel, hy, hyd,
      Cursor.advance_append]
    exact tokensFrom_blank hd _ _

theorem read_eq_emit {l : Lexeme} {r : Rule} (ht : l.token? = (r.token l.chars).map some)
    (hr : r.reported l.chars = l.chars) (p : Cursor) :
    read p l = (r.emit p l.chars).map some := by
  unfold Lexeme.read Rule.emit Lexeme.span
  rw [hr, ht]
  cases r.token l.chars <;> rfl

theorem token_decimal {whole fraction : List Char} (hw : ∀ c ∈ whole, c.isDigit) :
    (decimal whole fraction).token? =
      (Rule.decimal.token (decimal whole fraction).chars).map some := by
  obtain ⟨ht, hd⟩ := takeWhile_dropWhile_run hw (forall_head?_cons (d := '.') rfl fraction)
  simp only [token?, Rule.token, chars, ht, hd, List.tail_cons, Except.map]

theorem Lexeme.Starts.exists_wins {c : Char} {rest : List Char} {l : Lexeme} (h : Starts c rest l)
    (hblank : classOf c ≠ .blank) (hother : classOf c ≠ .other) :
    ∃ r x, Rule.Wins r x (c :: rest) ∧ (∀ p, read p l = (r.emit p x).map some) ∧
      (x = l.chars ∨ ∃ d, isBlank d ∧ x = l.chars ++ [d]) := by
  rw [h.classOf_eq] at hblank hother
  cases h with
  | blanks => contradiction
  | lineFeed hc =>
    subst hc
    have hw := Rule.wins_alone (r := .lineFeed) (Nat.zero_le 1) rfl rest
    exact ⟨_, _, hw, read_eq_emit rfl rfl, .inl rfl⟩
  | carriageReturn hc =>
    subst hc
    have hw := Rule.wins_alone (r := .carriageReturn) (Nat.zero_le 1) rfl rest
    exact ⟨_, _, hw, read_eq_emit rfl rfl, .inl rfl⟩
  | @punctuation p hc =>
    subst hc
    have hm := (Rule.matches_punctuation_iff p _).mpr rfl
    have hw := Rule.wins_alone (r := .punctuation p) (Nat.le_refl 1) hm rest
    exact ⟨_, _, hw, read_eq_emit rfl rfl, .inl rfl⟩
  | pair hc hd =>
    refine ⟨.operator _, _, ?_, read_eq_emit rfl rfl, .inl rfl⟩
    rw [chars, hc]
    exact Rule.wins_pair hc hd
  | single hc hd =>
    refine ⟨.operator _, _, ?_, read_eq_emit rfl rfl, .inl rfl⟩
    rw [chars, hc]
    exact Rule.wins_single hc hd
  | keyword hc hd hb => exact ⟨_, _, Rule.wins_keyword hc hd hb, fun _ => rfl, .inr ⟨_, hb, rfl⟩⟩
  | word hc hk => exact ⟨_, _, Rule.wins_word hc hk, read_eq_emit rfl rfl, .inl rfl⟩
  | decimal hc hd =>
    have hw := forall_mem_run hc rest
    exact ⟨_, _, Rule.wins_decimal hc hd, read_eq_emit (token_decimal hw) rfl, .inl rfl⟩
  | integer hc hd =>
    refine ⟨.integer, _, Rule.wins_integer hc hd, read_eq_emit ?_ rfl, .inl rfl⟩
    rw [token?, Rule.token, chars]
    cases Numeral.readInteger _ <;> rfl
  | unknown => contradiction

theorem not_matches_of_other {c : Char} (hc : classOf c = .other) {rest : List Char} (r : Rule)
    (y : List Char) (hm : r.Matches y) : ¬y <+: c :: rest := by
  intro hp
  cases y with
  | nil => exact r.not_matches_nil hm
  | cons d y =>
    obtain rfl := (List.cons_prefix_cons.mp hp).1
    rw [hm.classOf_eq] at hc
    cases r <;> cases hc

theorem start_of_other {c : Char} (hc : classOf c = .other) (rest : List Char) :
    start c rest = unknown c := by
  have hs := start_starts c rest
  have hclass := hs.classOf_eq
  rw [hc] at hclass
  generalize start c rest = l at hs hclass
  cases hs <;> cases hclass
  rfl

structure TakesWinner (choose : List Char → Option (Rule × List Char)) : Prop where
  wins : ∀ r x cs, Rule.Wins r x cs → choose cs = some (r, x)
  none : ∀ cs, (∀ (r : Rule) (y : List Char), r.Matches y → ¬y <+: cs) → choose cs = none

theorem longest?_takesWinner : TakesWinner Rule.longest? :=
  ⟨fun _ _ _ h => h.longest?_eq, fun _ h => Rule.longest?_eq_none_iff.mpr h⟩

theorem first?_takesWinner : TakesWinner Rule.first? :=
  ⟨fun _ _ _ h => h.first?_eq, fun _ h => Rule.first?_eq_none h⟩

theorem scanBy_eq_tokensFrom {choose : List Char → Option (Rule × List Char)}
    (h : TakesWinner choose) (p : Cursor) (cs : List Char) :
    scanBy choose p cs = tokensFrom p cs := by
  fun_induction scanBy choose p cs with
  | case1 p => rfl
  | case2 p c rest hc ih => rw [ih, tokensFrom_blanks hc]
  | case3 p c rest hc r x hchoose ih =>
    have hother : classOf c ≠ .other := by
      intro ho
      rw [h.none _ (not_matches_of_other ho)] at hchoose
      contradiction
    obtain ⟨r', x', hw, hread, hx⟩ :=
      (start_starts c rest).exists_wins (mt isBlank_of_classOf hc) hother
    rw [h.wins _ _ _ hw, Option.some.injEq, Prod.mk.injEq] at hchoose
    obtain ⟨rfl, rfl⟩ := hchoose
    rw [tokensFrom_cons, hread, tokensFrom_taken (start_chars_ne_nil c rest) hx hw.isPrefix, ih]
    cases r'.emit p x' with
    | error e => rfl
    | ok token => cases tokensFrom (p.advance x') (rest.drop (x'.length - 1)) <;> rfl
  | case4 p c rest hc hchoose ih =>
    have hother : classOf c = .other := by
      apply Decidable.byContradiction
      intro ho
      obtain ⟨r, x, hw, -⟩ := (start_starts c rest).exists_wins (mt isBlank_of_classOf hc) ho
      rw [h.wins _ _ _ hw] at hchoose
      contradiction
    have hread : Lexeme.read p (unknown c) =
        .ok (some ⟨.unknown c, ⟨p.offset, p.offset + c.utf8Size⟩, p.position⟩) := by
      simp [Lexeme.read, token?, Lexeme.span, chars, Text.byteLength]
    rw [tokensFrom_cons, start_of_other hother, hread, ih]
    change _ = (tokensFrom (p.step c) rest).map _
    cases tokensFrom (p.step c) rest <;> rfl

/-- A source has the tokens, and the fault, that are found in it by taking the longest match at
each place, where no two rules tie; taking the first rule of the order of priority that matches
finds the same. -/
theorem tokenize_eq_scans (s : List Char) :
    (tokenize s).map TokenStream.tokens = scanBy Rule.longest? Cursor.start s ∧
    (tokenize s).map TokenStream.tokens = scanBy Rule.first? Cursor.start s ∧
    (∀ (cs x : List Char) (r : Rule), Rule.longest? cs = some (r, x) →
      r.Matches x ∧ x <+: cs ∧ ∀ (r' : Rule) (y : List Char), r'.Matches y → y <+: cs →
        y.length < x.length ∨ (r' = r ∧ y = x)) ∧
    ∀ cs : List Char, Rule.longest? cs = none ↔
      ∀ (r : Rule) (y : List Char), r.Matches y → ¬y <+: cs := by
  rw [map_tokens_tokenize]
  refine ⟨?_, ?_, fun cs x r h => Rule.longest?_eq_some h, fun cs => Rule.longest?_eq_none_iff⟩
  · rw [scanBy_eq_tokensFrom longest?_takesWinner]
  · rw [scanBy_eq_tokensFrom first?_takesWinner]

end Frontend
