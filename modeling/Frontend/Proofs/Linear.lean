import Frontend.Proofs.Layout
import Frontend.Proofs.Readability

namespace Frontend

open Lexeme

def Unblanked (rest : List Char) : Prop := ∀ d, rest.head? = some d → isBlank d = false

theorem isBlank_of_not_isBreak {c : Char} (h : isBreak c = false) : isBlank c = false := by
  rw [isBreak, Bool.or_eq_false_iff, Bool.or_eq_false_iff] at h
  exact h.1.1

theorem Breaks.stops {rest : List Char} (h : Breaks rest) {f : Char → Bool}
    (hf : [' ', '\t', '(', ')'].any f = false) : ∀ d, rest.head? = some d → f d = false :=
  fun d hd => forall_eq_false_of_any hf d (mem_of_isBreak (h d hd))

theorem unblanked_append {cs : List Char} (hne : cs ≠ []) (h : ∀ c ∈ cs, isBreak c = false)
    (rest : List Char) : Unblanked (cs ++ rest) := by
  obtain ⟨c, cs, rfl⟩ := List.exists_cons_of_ne_nil hne
  rintro d ⟨⟩
  exact isBlank_of_not_isBreak (h c (by simp))

theorem Operator.symbol_ne_nil (op : Operator) : op.symbol.toList ≠ [] := by
  cases op <;> decide

theorem Numeral.lt_zero_iff {n : Int64} : n < 0 ↔ n.toInt < 0 := Int64.lt_iff_toInt_lt

namespace Lexeme

theorem ofText_append {c : Char} {cs rest : List Char} (l : Lexeme) (hl : l.chars = c :: cs)
    (h : Starts c (cs ++ rest) l) : ofText (l.chars ++ rest) = l :: ofText rest := by
  rw [hl, List.cons_append, ofText_cons, h.eq_start, hl]
  simp

theorem ofText_blanks {c : Char} (hc : isBlank c) (rest : List Char) :
    ofText (c :: rest) =
      blanks (c :: rest.takeWhile isBlank) :: ofText (rest.dropWhile isBlank) := by
  have hsplit : rest.takeWhile isBlank ++ rest.dropWhile isBlank = rest :=
    List.takeWhile_append_dropWhile
  have hs : Starts c (rest.takeWhile isBlank ++ rest.dropWhile isBlank)
      (blanks (c :: rest.takeWhile isBlank)) := by
    rw [hsplit]
    exact .blanks hc
  have htext := ofText_append _ rfl hs
  rwa [chars, List.cons_append, hsplit] at htext

theorem ofText_blank {rest : List Char} (h : Unblanked rest) :
    ofText (' ' :: rest) = blanks [' '] :: ofText rest := by
  rw [ofText_blanks rfl]
  cases rest with
  | nil => rfl
  | cons d rest => simp [h d rfl]

theorem ofText_punctuation (p : Punctuation) (rest : List Char) :
    ofText (p.char :: rest) = punctuation p :: ofText rest :=
  ofText_append (punctuation p) rfl (.punctuation rfl)

theorem ofText_dash (rest : List Char) : ofText ('-' :: rest) = operator .dash :: ofText rest := by
  have hdash : Operator.dash.symbol.toList = ['-'] := by decide
  refine ofText_append (operator .dash) hdash (.single hdash ?_)
  intro d op _
  cases op <;> simp [Operator.symbol]

theorem ofText_operator (op : Operator) {rest : List Char} (h : Breaks rest) :
    ofText (op.symbol.toList ++ rest) = operator op :: ofText rest := by
  have hlen : op.symbol.toList.length = 1 ∨ op.symbol.toList.length = 2 := by
    cases op <;> decide
  obtain hlen | hlen := hlen
  · obtain ⟨c, hc⟩ := List.length_eq_one_iff.mp hlen
    refine ofText_append (operator op) hc (.single hc ?_)
    intro d op' hd hpair
    have hbreak := h d hd
    rw [op'.not_isBreak_symbol d (by simp [hpair])] at hbreak
    contradiction
  · obtain ⟨c, d, hcd⟩ := List.length_eq_two.mp hlen
    exact ofText_append (operator op) hcd (.pair hcd rfl)

theorem ofText_integer {digits rest : List Char} (hne : digits ≠ [])
    (hd : ∀ d ∈ digits, d.isDigit) (h : Breaks rest) :
    ofText (digits ++ rest) = integer digits :: ofText rest := by
  obtain ⟨c, cs, rfl⟩ := List.exists_cons_of_ne_nil hne
  rw [List.forall_mem_cons] at hd
  obtain ⟨htake, hdrop⟩ := takeWhile_dropWhile_run hd.2 (h.stops (by decide))
  have hpoint : ((cs ++ rest).dropWhile Char.isDigit).head? ≠ some '.' := by
    rw [hdrop]
    intro hp
    have hbreak := h '.' hp
    contradiction
  have hs := Starts.integer hd.1 hpoint
  rw [htake] at hs
  exact ofText_append (integer (c :: cs)) rfl hs

theorem ofText_word {letters rest : List Char} (hne : letters ≠ [])
    (ha : letters.all Char.isAlpha) (hk : ∀ k : Keyword, k.text.toList ≠ letters)
    (h : Breaks rest) : ofText (letters ++ rest) = word letters :: ofText rest := by
  obtain ⟨c, cs, rfl⟩ := List.exists_cons_of_ne_nil hne
  rw [List.all_eq_true, List.forall_mem_cons] at ha
  obtain ⟨htake, hdrop⟩ := takeWhile_dropWhile_run ha.2 (h.stops (by decide))
  have hs : Starts c (cs ++ rest) (word (c :: (cs ++ rest).takeWhile Char.isAlpha)) := by
    refine .word ha.1 fun k d hkd _ => ?_
    rw [htake] at hkd
    exact absurd hkd (hk k)
  rw [htake] at hs
  exact ofText_append (word (c :: cs)) rfl hs

/-- What is read of lexemes, wherever they stand: their tokens, or the text of the first that has
no value and why. -/
def tokensOf : List Lexeme → Except (String × LiteralFault) (List Token)
  | [] => .ok []
  | l :: ls =>
    match l.token? with
    | .ok t => (tokensOf ls).map (t.toList ++ ·)
    | .error fault => .error (String.ofList l.chars, .integer fault)

theorem tokensOf_append (ls ms : List Lexeme) :
    tokensOf (ls ++ ms) = tokensOf ls >>= fun ts => (tokensOf ms).map (ts ++ ·) := by
  induction ls with
  | nil =>
    change tokensOf ms = (tokensOf ms).map fun us => [] ++ us
    cases tokensOf ms <;> rfl
  | cons l ls ih =>
    rw [List.cons_append, tokensOf, tokensOf, ih]
    cases l.token? with
    | error fault => rfl
    | ok t => cases tokensOf ls <;> cases tokensOf ms <;> simp [bind, Except.bind, Except.map]

theorem tokensOf_eq_readAll (p : Cursor) (ls : List Lexeme) :
    tokensOf ls = ((readAll (place p ls)).map (List.map SpannedToken.token)).mapError
      fun e => (e.literal, e.fault) := by
  induction ls generalizing p with
  | nil => rfl
  | cons l ls ih =>
    rw [tokensOf, place, readAll, read, ih (p.advance l.chars)]
    cases l.token? with
    | error fault => rfl
    | ok t =>
      cases readAll (place (p.advance l.chars) ls) with
      | error e => rfl
      | ok ts => cases t <;> rfl

end Lexeme

theorem exists_tokenize_of_tokensOf {s : List Char} {ts : List Token}
    (h : tokensOf (ofText s) = .ok ts) :
    ∃ stream, tokenize s = .ok stream ∧ stream.bare = ts ++ [.eof] := by
  rw [tokensOf_eq_readAll .start, ← lexemesOf] at h
  rw [tokenize_eq_map]
  cases hr : readAll (lexemesOf s) with
  | error e =>
    rw [hr] at h
    cases h
  | ok us =>
    rw [hr] at h
    obtain rfl : us.map SpannedToken.token = ts := Except.ok.inj h
    exact ⟨_, rfl, by simp [TokenStream.bare, SpannedToken.eofAt]⟩

theorem exists_error_of_tokensOf {s : List Char} {literal : String} {fault : LiteralFault}
    (h : tokensOf (ofText s) = .error (literal, fault)) :
    ∃ e, tokenize s = .error e ∧ e.literal = literal ∧ e.fault = fault := by
  rw [tokensOf_eq_readAll .start, ← lexemesOf] at h
  rw [tokenize_eq_map]
  cases hr : readAll (lexemesOf s) with
  | ok us =>
    rw [hr] at h
    cases h
  | error e =>
    rw [hr] at h
    cases h
    exact ⟨e, rfl, rfl, rfl⟩

namespace Value

/-- The tokens of a literal that is no float. A sign is one by itself, and what is not a number is
a word. -/
def tokens : Value → List Token
  | int n => if n < 0 then [.operator .dash, .int (-n)] else [.int n]
  | float x => [.float x]
  | bool true => [.identifier "true"]
  | bool false => [.identifier "false"]
  | none => [.identifier "None"]

def lexemes : Value → List Lexeme
  | int n =>
    (if n < 0 then [.operator .dash] else []) ++ [.integer (Nat.toDigits 10 n.toInt.natAbs)]
  | v => [.word v.text.toList]

theorem isNaN_of_kind {v : Value} (h : v.kind ≠ .float) : v.isNaN = false := by
  cases v with
  | float x => contradiction
  | _ => rfl

theorem ofText_text {v : Value} (hv : v.kind ≠ .float) {rest : List Char} (h : Breaks rest) :
    ofText (v.text.toList ++ rest) = v.lexemes ++ ofText rest := by
  cases v with
  | int n =>
    change ofText ((toString n.toInt).toList ++ rest) = _
    have hdigits := ofText_integer (Nat.toDigits_ne_nil (b := 10) (n := n.toInt.natAbs))
      (Numeral.isDigit_toDigits _) h
    rw [Numeral.toList_toString, lexemes]
    by_cases hn : n < 0
    · rw [if_pos hn, if_pos (Numeral.lt_zero_iff.mp hn), List.append_assoc, List.singleton_append,
        ofText_dash, hdigits]
      rfl
    · rw [if_neg hn, if_neg (mt Numeral.lt_zero_iff.mpr hn), List.nil_append, hdigits]
      rfl
  | float x => contradiction
  | bool b => cases b <;> exact ofText_word (by decide) (by decide) (by rintro ⟨⟩ <;> decide) h
  | none => exact ofText_word (by decide) (by decide) (by rintro ⟨⟩ <;> decide) h

theorem token?_toDigits {m : Nat} (h : m ≤ Numeral.maxInt) :
    (Lexeme.integer (Nat.toDigits 10 m)).token? = .ok (some (.int (Int64.ofInt m))) := by
  rw [token?, Numeral.readInteger_digits Nat.toDigits_ne_nil (Numeral.isDigit_toDigits m),
    Nat.ofDigitChars_ten_toDigits, if_pos h]
  rfl

theorem tokensOf_int {n : Int64} (h : n ≠ Int64.minValue) :
    tokensOf (int n).lexemes = .ok (int n).tokens := by
  have hlow := n.le_toInt
  have hhigh := n.toInt_lt
  have hmin : n.toInt ≠ Int64.minValue.toInt := fun he => h (Int64.toInt_inj.mp he)
  have hle : n.toInt.natAbs ≤ Numeral.maxInt := by
    change _ ≠ (-2 ^ 63 : Int) at hmin
    change _ ≤ 2 ^ 63 - 1
    omega
  rw [lexemes, tokens]
  by_cases hn : n < 0
  · have habs : (n.toInt.natAbs : Int) = -n.toInt := by
      have hneg := Numeral.lt_zero_iff.mp hn
      omega
    rw [if_pos hn, if_pos hn, tokensOf_append]
    simp only [tokensOf, token?_toDigits hle, habs, Int64.ofInt_neg, Int64.ofInt_toInt]
    rfl
  · have habs : (n.toInt.natAbs : Int) = n.toInt := by
      have hneg := mt Numeral.lt_zero_iff.mpr hn
      omega
    rw [if_neg hn, if_neg hn]
    simp only [List.nil_append, tokensOf, token?_toDigits hle, habs, Int64.ofInt_toInt]
    rfl

theorem tokensOf_lexemes {v : Value} (hv : v.kind ≠ .float) (hmin : v ≠ .int Int64.minValue) :
    tokensOf v.lexemes = .ok v.tokens := by
  cases v with
  | int n => exact tokensOf_int fun hn => hmin (by rw [hn])
  | float x => contradiction
  | bool b => cases b <;> rfl
  | none => rfl

theorem tokensOf_minValue : tokensOf (int Int64.minValue).lexemes =
    .error ("9223372036854775808", .integer .tooLarge) := by
  rfl

end Value

namespace Expr

def tokens : Expr → List Token
  | literal v => v.tokens
  | binary op lhs rhs =>
    [.punctuation .leftParen] ++ lhs.tokens ++ [.operator op] ++ rhs.tokens ++
      [.punctuation .rightParen]

def lexemes : Expr → List Lexeme
  | literal v => v.lexemes
  | binary op lhs rhs =>
    [.punctuation .leftParen] ++ lhs.lexemes ++ [.blanks [' '], .operator op, .blanks [' ']] ++
      rhs.lexemes ++ [.punctuation .rightParen]

theorem unblanked_text {e : Expr} (he : ∀ v ∈ e.literals, v.isNaN = false) (rest : List Char) :
    Unblanked (e.text.toList ++ rest) := by
  cases e with
  | literal v =>
    have hv := he v (by simp [literals])
    exact unblanked_append (Value.text_ne_nil hv) (Value.not_isBreak_text hv) rest
  | binary op lhs rhs =>
    rw [toList_text_binary]
    rintro d ⟨⟩
    rfl

/-- The text of an expression is taken piece by piece, whatever follows the break after it. -/
theorem ofText_text {e : Expr} (he : ∀ v ∈ e.literals, v.kind ≠ .float) {rest : List Char}
    (h : Breaks rest) : ofText (e.text.toList ++ rest) = e.lexemes ++ ofText rest := by
  induction e generalizing rest with
  | literal v => exact Value.ofText_text (he v (by simp [literals])) h
  | binary op lhs rhs ihl ihr =>
    simp only [literals, List.forall_mem_append] at he
    have hop := unblanked_append op.symbol_ne_nil op.not_isBreak_symbol
    have hrhs := unblanked_text fun v hv => Value.isNaN_of_kind (he.2 v hv)
    simp only [toList_text_binary, List.cons_append, List.append_assoc, List.nil_append]
    change ofText (Punctuation.leftParen.char :: (lhs.text.toList ++ ' ' :: (op.symbol.toList ++
      ' ' :: (rhs.text.toList ++ Punctuation.rightParen.char :: rest)))) = _
    rw [ofText_punctuation, ihl he.1 (breaks_cons rfl _), ofText_blank (hop _),
      ofText_operator op (breaks_cons rfl _), ofText_blank (hrhs _), ihr he.2 (breaks_cons rfl _),
      ofText_punctuation]
    simp [lexemes]

theorem tokensOf_lexemes {e : Expr} (he : ∀ v ∈ e.literals, v.kind ≠ .float)
    (hmin : .int Int64.minValue ∉ e.literals) : tokensOf e.lexemes = .ok e.tokens := by
  induction e with
  | literal v =>
    refine Value.tokensOf_lexemes (he v (by simp [literals])) fun hv => hmin ?_
    simp [literals, hv]
  | binary op lhs rhs ihl ihr =>
    simp only [literals, List.forall_mem_append] at he
    rw [literals, List.mem_append, not_or] at hmin
    simp only [lexemes, tokensOf_append, ihl he.1 hmin.1, ihr he.2 hmin.2]
    rfl

theorem tokensOf_lexemes_minValue {e : Expr} (he : ∀ v ∈ e.literals, v.kind ≠ .float)
    (hmin : .int Int64.minValue ∈ e.literals) :
    tokensOf e.lexemes = .error ("9223372036854775808", .integer .tooLarge) := by
  induction e with
  | literal v =>
    obtain rfl := List.mem_singleton.mp hmin
    exact Value.tokensOf_minValue
  | binary op lhs rhs ihl ihr =>
    simp only [literals, List.forall_mem_append] at he
    simp only [lexemes, tokensOf_append]
    by_cases hl : .int Int64.minValue ∈ lhs.literals
    · rw [ihl he.1 hl]
      rfl
    · rw [literals, List.mem_append] at hmin
      rw [tokensOf_lexemes he.1 hl, ihr he.2 (hmin.resolve_left hl)]
      rfl

theorem diagnostic?_lexemes (e : Expr) : ∀ l ∈ e.lexemes, ∀ p, l.diagnostic? p = none := by
  induction e with
  | literal v =>
    cases v with
    | int n =>
      rw [lexemes, Value.lexemes, List.forall_mem_append]
      refine ⟨?_, by simp [diagnostic?]⟩
      split <;> simp [diagnostic?]
    | _ => simp [lexemes, Value.lexemes, diagnostic?]
  | binary op lhs rhs ihl ihr =>
    simp only [lexemes, List.forall_mem_append]
    refine ⟨⟨⟨⟨?_, ihl⟩, ?_⟩, ihr⟩, ?_⟩ <;> simp [diagnostic?]

/-- The text of an expression is read as its tokens. Only the least integer is not: its digits,
which are read without the sign, have no value. -/
theorem tokenize_text {e : Expr} (he : ∀ v ∈ e.literals, v.kind ≠ .float) :
    (.int Int64.minValue ∉ e.literals →
      ∃ stream, tokenize e.text.toList = .ok stream ∧ stream.sink.diagnostics = [] ∧
        stream.bare = e.tokens ++ [.eof]) ∧
    (.int Int64.minValue ∈ e.literals →
      ∃ err, tokenize e.text.toList = .error err ∧ err.fault = .integer .tooLarge ∧
        err.literal = "9223372036854775808") := by
  have hlex : ofText e.text.toList = e.lexemes := by
    have hall := ofText_text he (by simp [Breaks] : Breaks [])
    rwa [List.append_nil, ofText_nil, List.append_nil] at hall
  constructor
  · intro hmin
    have htokens := tokensOf_lexemes he hmin
    rw [← hlex] at htokens
    obtain ⟨stream, hs, hbare⟩ := exists_tokenize_of_tokensOf htokens
    refine ⟨stream, hs, ?_, hbare⟩
    rw [sink_of_tokenize hs, List.filterMap_eq_nil_iff]
    rintro ⟨p, l⟩ hl
    obtain ⟨front, back, hsplit, -⟩ := exists_append_of_mem_place hl
    rw [hlex] at hsplit
    exact e.diagnostic?_lexemes l (by simp [hsplit]) p
  · intro hmin
    have htokens := tokensOf_lexemes_minValue he hmin
    rw [← hlex] at htokens
    obtain ⟨err, herr, hliteral, hfault⟩ := exists_error_of_tokensOf htokens
    exact ⟨err, herr, hfault, hliteral⟩

theorem tokenize_text_signs :
    (∃ stream, tokenize "(-7 - (true && None))".toList = .ok stream ∧
      stream.sink.diagnostics = [] ∧
      stream.bare =
        [.punctuation .leftParen, .operator .dash, .int 7, .operator .dash, .punctuation .leftParen,
          .identifier "true", .operator .and, .identifier "None", .punctuation .rightParen,
          .punctuation .rightParen, .eof]) ∧
    ∃ err, tokenize "(7 = -9223372036854775808)".toList = .error err ∧
      err.fault = .integer .tooLarge ∧ err.literal = "9223372036854775808" := by
  let signs := binary .dash (literal (.int (-7)))
    (binary .and (literal (.bool true)) (literal .none))
  let least := binary .equal (literal (.int 7)) (literal (.int Int64.minValue))
  have hsigns : signs.text = "(-7 - (true && None))" := by decide
  have hleast : least.text = "(7 = -9223372036854775808)" := by decide
  rw [← hsigns, ← hleast]
  exact ⟨(tokenize_text (by decide)).1 (by simp [signs, literals]),
    (tokenize_text (by decide)).2 (by simp [least, literals])⟩

end Expr

end Frontend
