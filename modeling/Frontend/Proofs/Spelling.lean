import Frontend.Proofs.Cover
import Frontend.Proofs.FloatText
import Frontend.Proofs.Literal

namespace Frontend

namespace Text

def isFrame (c : Char) : Bool := c = '\n' || c = '\t'

def hexValue (c : Char) : Nat := if c.isDigit then c.toNat - '0'.toNat else c.toNat - 'a'.toNat + 10

def readHex (cs : List Char) : Nat := cs.foldl (fun n c => 16 * n + hexValue c) 0

theorem hexValue_digitChar {n : Nat} (h : n < 16) : hexValue (Nat.digitChar n) = n := by
  have hall : ∀ n < 16, hexValue (Nat.digitChar n) = n := by decide
  exact hall n h

theorem readHex_toDigits (n : Nat) : readHex (Nat.toDigits 16 n) = n := by
  induction n using Nat.strongRecOn with
  | ind n ih =>
    rw [Nat.toDigits_eq_if (by decide)]
    split
    · rename_i hlt
      simp [readHex, hexValue_digitChar hlt]
    · have hdiv := ih (n / 16) (by omega)
      have hmod := hexValue_digitChar (Nat.mod_lt n (by decide : 0 < 16))
      rw [readHex] at hdiv
      rw [readHex, List.foldl_append, hdiv, List.foldl_cons, List.foldl_nil, hmod]
      omega

theorem exists_digitChar_of_mem_toDigits {n : Nat} {c : Char} (h : c ∈ Nat.toDigits 16 n) :
    ∃ m, c = Nat.digitChar m := by
  induction n using Nat.strongRecOn with
  | ind n ih =>
    rw [Nat.toDigits_eq_if (by decide)] at h
    split at h
    · exact ⟨n, List.mem_singleton.mp h⟩
    · obtain h | h := List.mem_append.mp h
      · exact ih (n / 16) (by omega) h
      · exact ⟨n % 16, List.mem_singleton.mp h⟩

def named : List (Char × Char) :=
  [('\x00', '0'), ('\t', 't'), ('\r', 'r'), ('\n', 'n'), ('\\', '\\')]

theorem escapeChar_cases (quotes : List Char) (c : Char) :
    (∃ d, (c, d) ∈ named ∧ escapeChar quotes c = ['\\', d]) ∨
    (c ∈ quotes ∧ escapeChar quotes c = ['\\', c]) ∨
    escapeChar quotes c = escapeCode c ∨
    (isFrame c = false ∧ escapeChar quotes c = [c]) := by
  by_cases hn : ∃ d, (c, d) ∈ named
  · refine .inl ?_
    simp only [named, List.mem_cons, Prod.mk.injEq, List.not_mem_nil, or_false] at hn
    obtain ⟨d, ⟨rfl, rfl⟩ | ⟨rfl, rfl⟩ | ⟨rfl, rfl⟩ | ⟨rfl, rfl⟩ | ⟨rfl, rfl⟩⟩ := hn
    all_goals exact ⟨_, by decide, rfl⟩
  · simp only [named, List.mem_cons, Prod.mk.injEq, List.not_mem_nil, or_false, exists_or,
      exists_and_left, exists_eq, and_true, not_or] at hn
    obtain ⟨h0, ht, hr, hn, hb⟩ := hn
    have hplain : escapeChar quotes c =
        if c ∈ quotes then ['\\', c] else if isIllegible c then escapeCode c else [c] := by
      simp [escapeChar, h0, ht, hr, hn, hb]
    rw [hplain]
    split
    · exact .inr (.inl ⟨by assumption, rfl⟩)
    · split
      · exact .inr (.inr (.inl rfl))
      · exact .inr (.inr (.inr ⟨by simp [isFrame, hn, ht], rfl⟩))

/-- The character that a spelling stands for: two characters name it, more give its code. -/
def unescape : List Char → Char
  | [_, d] => ((named.find? fun p => p.2 = d).map Prod.fst).getD d
  | _ :: _ :: _ :: code => Char.ofNat (readHex code.dropLast)
  | c :: _ => c
  | [] => default

theorem unescape_escapeCode (c : Char) : unescape (escapeCode c) = c := by
  change Char.ofNat (readHex (Nat.toDigits 16 c.toNat ++ ['\x7d']).dropLast) = c
  rw [List.dropLast_concat, readHex_toDigits, Char.ofNat_toNat]

theorem unescape_escape (c : Char) : unescape (escape c).toList = c := by
  rw [escape, String.toList_ofList]
  obtain ⟨d, hd, he⟩ | ⟨hq, he⟩ | he | ⟨-, he⟩ := escapeChar_cases ['\'', '"'] c
  · have hall : named.all fun p => unescape ['\\', p.2] = p.1 := by decide
    rw [he]
    simpa using List.all_eq_true.mp hall (c, d) hd
  · have hall : ['\'', '"'].all fun c => unescape ['\\', c] = c := by decide
    rw [he]
    simpa using List.all_eq_true.mp hall c hq
  · rw [he, unescape_escapeCode]
  · rw [he]
    rfl

theorem escape_injective {c d : Char} (h : escape c = escape d) : c = d := by
  rw [← unescape_escape c, h, unescape_escape]

theorem not_isFrame_toDigits (n : Nat) : ∀ c ∈ Nat.toDigits 16 n, isFrame c = false := by
  intro c hc
  obtain ⟨m, rfl⟩ := exists_digitChar_of_mem_toDigits hc
  simp [isFrame, Nat.digitChar_ne]

theorem not_isFrame_backslash {d : Char} (h : isFrame d = false) :
    ∀ c ∈ ['\\', d], isFrame c = false := by
  rw [List.forall_mem_cons, List.forall_mem_singleton]
  exact ⟨rfl, h⟩

theorem not_isFrame_escape (c : Char) : ∀ d ∈ (escape c).toList, isFrame d = false := by
  rw [escape, String.toList_ofList]
  obtain ⟨d, hd, he⟩ | ⟨hq, he⟩ | he | ⟨hf, he⟩ := escapeChar_cases ['\'', '"'] c
  · have hall : named.all fun p => !isFrame p.2 := by decide
    rw [he]
    exact not_isFrame_backslash (by simpa using List.all_eq_true.mp hall (c, d) hd)
  · have hall : ['\'', '"'].all fun c => !isFrame c := by decide
    rw [he]
    exact not_isFrame_backslash (by simpa using List.all_eq_true.mp hall c hq)
  · rw [he, escapeCode]
    simp only [List.forall_mem_append]
    exact ⟨⟨forall_eq_false_of_any (by decide), not_isFrame_toDigits _⟩,
      forall_eq_false_of_any (by decide)⟩
  · rw [he]
    simpa using hf

end Text

open Text (isFrame)

theorem split_unique {d : Char} {x y rest back : List Char} (h : x ++ d :: rest = y ++ d :: back)
    (hx : d ∉ x) (hy : d ∉ y) : x = y ∧ rest = back := by
  obtain ⟨hxy, hrest⟩ := run_unique (f := (· ≠ d)) h
    (fun c hc => decide_eq_true (ne_of_mem_of_not_mem hc hx))
    (fun c hc => decide_eq_true (ne_of_mem_of_not_mem hc hy)) (by simp) (by simp)
  exact ⟨hxy, (List.cons.inj hrest).2⟩

/-- Lines without line feeds of their own are told apart by the line feeds that end them. -/
theorem eq_of_flatMap_lineFeed {xs ys : List (List Char)} (hx : ∀ x ∈ xs, '\n' ∉ x)
    (hy : ∀ y ∈ ys, '\n' ∉ y) (h : xs.flatMap (· ++ ['\n']) = ys.flatMap (· ++ ['\n'])) :
    xs = ys := by
  induction xs generalizing ys with
  | nil =>
    cases ys with
    | nil => rfl
    | cons y ys => simp at h
  | cons x xs ih =>
    cases ys with
    | nil => simp at h
    | cons y ys =>
      rw [List.flatMap_cons, List.flatMap_cons, List.append_assoc, List.append_assoc] at h
      obtain ⟨rfl, hrest⟩ := split_unique h (hx x (by simp)) (hy y (by simp))
      rw [ih (fun x hm => hx x (by simp [hm])) (fun y hm => hy y (by simp [hm])) hrest]

theorem not_mem_of_isFrame {d : Char} (hd : isFrame d) {cs : List Char}
    (h : ∀ c ∈ cs, isFrame c = false) : d ∉ cs := by
  intro hm
  rw [h d hm] at hd
  contradiction

theorem not_isFrame_of {f : Char → Bool} (hf : f '\n' = false ∧ f '\t' = false) {c : Char}
    (h : f c) : isFrame c = false := by
  rw [isFrame, Bool.or_eq_false_iff, decide_eq_false_iff_not, decide_eq_false_iff_not]
  refine ⟨?_, ?_⟩
  · rintro rfl
    rw [hf.1] at h
    contradiction
  · rintro rfl
    rw [hf.2] at h
    contradiction

theorem not_isFrame_of_isDigit {c : Char} (h : c.isDigit) : isFrame c = false :=
  not_isFrame_of (by decide) h

theorem toList_toString_nat (n : Nat) : (toString n).toList = Nat.toDigits 10 n := by
  rw [Nat.toString_eq_ofList_toDigits, String.toList_ofList]

theorem toDigits_injective {m n : Nat} (h : Nat.toDigits 10 m = Nat.toDigits 10 n) : m = n := by
  rw [← Nat.ofDigitChars_ten_toDigits (n := m), h, Nat.ofDigitChars_ten_toDigits]

theorem not_mem_toDigits {c : Char} (h : c.isDigit = false) (n : Nat) : c ∉ Nat.toDigits 10 n := by
  intro hm
  rw [Numeral.isDigit_toDigits n c hm] at h
  contradiction

theorem Position.toList_text (p : Position) :
    p.text.toList = Nat.toDigits 10 p.line ++ ':' :: Nat.toDigits 10 p.column := by
  rw [text, String.toList_append, String.toList_append, toList_toString_nat, toList_toString_nat,
    List.append_assoc]
  rfl

theorem Position.text_injective {p q : Position} (h : p.text = q.text) : p = q := by
  have hcs := congrArg String.toList h
  rw [toList_text, toList_text] at hcs
  obtain ⟨hline, hcolumn⟩ := split_unique hcs (not_mem_toDigits rfl _) (not_mem_toDigits rfl _)
  cases p
  cases q
  rw [Position.mk.injEq]
  exact ⟨toDigits_injective hline, toDigits_injective hcolumn⟩

theorem Position.not_isFrame_text (p : Position) : ∀ c ∈ p.text.toList, isFrame c = false := by
  have hdigits (n : Nat) : ∀ c ∈ Nat.toDigits 10 n, isFrame c = false :=
    fun c hc => not_isFrame_of_isDigit (Numeral.isDigit_toDigits n c hc)
  rw [toList_text]
  simp only [List.forall_mem_append, List.forall_mem_cons]
  exact ⟨hdigits _, rfl, hdigits _⟩

namespace Token

def indexOfText : List Char → Nat
  | 'I' :: 'd' :: _ => 1
  | 'I' :: _ => 2
  | 'F' :: _ => 3
  | 'N' :: _ => 6
  | 'U' :: _ => 7
  | 'E' :: _ => 8
  | c :: _ => if c.isAlpha then 4 else if (Punctuation.ofChar? c).isSome then 0 else 5
  | [] => 9

theorem indexOfText_text (t : Token) : indexOfText t.text.toList = t.ctorIdx := by
  cases t with
  | punctuation p => cases p <;> decide
  | keyword k => cases k <;> decide
  | operator op => cases op <;> decide
  | identifier | int | float | unknown => rw [text, String.toList_append]; rfl
  | newline | eof => rfl

theorem isNaN_of_isWritten {v : Binary64} {x : List Char} (h : (float v).IsWritten x) :
    v.isNaN = false := by
  obtain ⟨whole, fraction, -, -, -, -, rfl⟩ := h
  exact Binary64.isNaN_ofDecimal _ _

/-- A token that can be read from a source is determined by its text. -/
theorem text_injective {t u : Token} {x y : List Char} (ht : t.IsWritten x) (hu : u.IsWritten y)
    (h : t.text = u.text) : t = u := by
  have hindex : t.ctorIdx = u.ctorIdx := by
    rw [← indexOfText_text, ← indexOfText_text, h]
  cases t <;> cases u <;> try cases hindex
  case punctuation.punctuation p q =>
    have hc : p.char = q.char := by simpa [text, Char.toString_eq_singleton] using h
    rw [Punctuation.char_injective hc]
  case identifier.identifier name name' => rw [(String.append_right_inj _).mp h]
  case int.int m n => rw [Numeral.toString_injective ((String.append_right_inj _).mp h)]
  case float.float v w =>
    have htext := (String.append_right_inj _).mp h
    rw [Binary64.text_injective (isNaN_of_isWritten ht) (isNaN_of_isWritten hu) htext]
  case keyword.keyword k l => rw [Keyword.eq_of_toList_text (congrArg String.toList h)]
  case operator.operator op op' => rw [Operator.eq_of_toList_symbol (congrArg String.toList h)]
  case newline.newline | eof.eof => rfl
  case unknown.unknown c d => rw [Text.escape_injective ((String.append_right_inj _).mp h)]

theorem not_isFrame_text {t : Token} {x : List Char} (h : t.IsWritten x) :
    ∀ c ∈ t.text.toList, isFrame c = false := by
  cases t with
  | punctuation p => cases p <;> exact forall_eq_false_of_any (by decide)
  | keyword k => cases k <;> exact forall_eq_false_of_any (by decide)
  | operator op => cases op <;> exact forall_eq_false_of_any (by decide)
  | newline | eof => exact forall_eq_false_of_any (by decide)
  | identifier name =>
    rw [text, String.toList_append, List.forall_mem_append]
    refine ⟨forall_eq_false_of_any (by decide), fun c hc => not_isFrame_of (by decide) (h.2.2 c ?_)⟩
    rwa [h.1]
  | int n =>
    rw [text, String.toList_append, List.forall_mem_append]
    refine ⟨forall_eq_false_of_any (by decide), fun c hc => ?_⟩
    obtain hd | rfl := Numeral.chars_toString n.toInt c hc
    · exact not_isFrame_of_isDigit hd
    · rfl
  | float v =>
    rw [text, String.toList_append, List.forall_mem_append]
    refine ⟨forall_eq_false_of_any (by decide), fun c hc => ?_⟩
    obtain hd | hm := Binary64.text_chars (isNaN_of_isWritten h) c hc
    · exact not_isFrame_of_isDigit hd
    · exact forall_eq_false_of_any (by decide) c hm
  | unknown c =>
    rw [text, String.toList_append, List.forall_mem_append]
    exact ⟨forall_eq_false_of_any (by decide), Text.not_isFrame_escape c⟩

end Token

end Frontend
