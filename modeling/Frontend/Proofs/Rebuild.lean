import Frontend.Proofs.Cover
import Frontend.Proofs.Shift
import Mathlib.Data.List.Basic
import Mathlib.Data.List.Induction

namespace Frontend

open Lexeme

/-- A tab is read as a space, since no token tells which of them a blank is. -/
def untab (c : Char) : Char := if c = '\t' then ' ' else c

def lastDigits : Nat → Nat → List Char
  | 0, _ => []
  | k + 1, n => lastDigits k (n / 10) ++ [Nat.digitChar (n % 10)]

def Token.isFloat : Token → Bool
  | float _ => true
  | _ => false

/-- The text of a token of the given length; `breaks` says whether the next one is on another line.
The digits of a float are lost, and zeros stand for them. -/
def Token.source (length : Nat) (breaks : Bool) : Token → List Char
  | punctuation p => [p.char]
  | identifier name => name.toList
  | int n => lastDigits length n.toInt.toNat
  | float _ => List.replicate length '0'
  | keyword k => k.text.toList
  | operator op => op.symbol.toList
  | newline => if breaks then ['\n'] else ['\r']
  | unknown c => [c]
  | eof => []

/-- The text that tokens were read from, after a text that ends at the given offset. -/
def rebuildFrom (offset : Nat) : List SpannedToken → List Char
  | [] => []
  | t :: ts =>
    List.replicate (t.span.start - offset) ' ' ++
      t.token.source (t.span.stop - t.span.start)
        (ts.head?.any fun u => t.position.line < u.position.line) ++
      rebuildFrom t.span.stop ts

def rebuild (ts : List SpannedToken) : List Char := rebuildFrom 0 ts

theorem digitChar_of_isDigit {d : Char} (h : d.isDigit) :
    Nat.digitChar (d.toNat - '0'.toNat) = d ∧ d.toNat - '0'.toNat < 10 := by
  have hd : 48 ≤ d.toNat ∧ d.toNat ≤ 57 := Char.isDigit_iff_toNat.mp h
  change Nat.digitChar (d.toNat - 48) = d ∧ d.toNat - 48 < 10
  refine ⟨?_, by omega⟩
  apply Char.toNat_inj.mp
  rw [Nat.toNat_digitChar_of_lt_ten (by omega)]
  omega

theorem lastDigits_ofDigitChars {ds : List Char} (hd : ∀ d ∈ ds, d.isDigit) :
    lastDigits ds.length (Nat.ofDigitChars 10 ds 0) = ds := by
  induction ds using List.reverseRecOn with
  | nil => rfl
  | append_singleton ds d ih =>
    obtain ⟨hc, hlt⟩ := digitChar_of_isDigit (hd d (by simp))
    have hvalue : Nat.ofDigitChars 10 (ds ++ [d]) 0 =
        10 * Nat.ofDigitChars 10 ds 0 + (d.toNat - '0'.toNat) := by
      rw [Nat.ofDigitChars_append, Nat.ofDigitChars_cons, Nat.ofDigitChars_nil]
    have hdiv : Nat.ofDigitChars 10 (ds ++ [d]) 0 / 10 = Nat.ofDigitChars 10 ds 0 := by omega
    have hmod : Nat.ofDigitChars 10 (ds ++ [d]) 0 % 10 = d.toNat - '0'.toNat := by omega
    rw [List.length_append, List.length_singleton, lastDigits, hdiv, hmod, hc,
      ih fun e he => hd e (by simp [he])]

theorem utf8Size_of_isDigit {d : Char} (h : d.isDigit) : d.utf8Size = 1 := by
  have hd : 48 ≤ d.toNat ∧ d.toNat ≤ 57 := Char.isDigit_iff_toNat.mp h
  rw [Char.utf8Size_eq_one_iff, UInt32.le_iff_toNat_le]
  change d.toNat ≤ 127
  omega

theorem utf8Size_untab (c : Char) : (untab c).utf8Size = c.utf8Size := by
  unfold untab
  split
  · rename_i hc
    rw [hc]
    rfl
  · rfl

theorem untab_of_isBlank {d : Char} (h : isBlank d) : untab d = ' ' := by
  have hd : d = ' ' ∨ d = '\t' := by simpa [isBlank] using h
  obtain rfl | rfl := hd <;> rfl

theorem utf8Size_of_isBlank {d : Char} (h : isBlank d) : d.utf8Size = 1 := by
  rw [← utf8Size_untab, untab_of_isBlank h]
  rfl

theorem byteLength_map_untab (cs : List Char) :
    Text.byteLength (cs.map untab) = Text.byteLength cs := by
  induction cs with
  | nil => rfl
  | cons c cs ih =>
    rw [List.map_cons, Text.byteLength_cons, utf8Size_untab, ih, Text.byteLength_cons]

namespace Lexeme

/-- The text of a lexeme as far as its token tells it: blanks as spaces, a decimal as zeros. -/
def masked : Lexeme → List Char
  | blanks text => List.replicate text.length ' '
  | decimal whole fraction => List.replicate (whole ++ '.' :: fraction).length '0'
  | l => l.chars

def isDecimal : Lexeme → Bool
  | decimal _ _ => true
  | _ => false

theorem Starts.byteLength_blanks {c : Char} {rest text : List Char}
    (h : Starts c rest (.blanks text)) : Text.byteLength text = text.length := by
  cases h with
  | blanks hc =>
    apply Text.byteLength_of_ascii
    intro d hd
    exact utf8Size_of_isBlank (forall_mem_run hc rest d hd)

theorem Starts.byteLength_decimal {c : Char} {rest whole fraction : List Char}
    (h : Starts c rest (.decimal whole fraction)) :
    Text.byteLength (whole ++ '.' :: fraction) = (whole ++ '.' :: fraction).length := by
  cases h with
  | decimal hc =>
    apply Text.byteLength_of_ascii
    intro d hd
    obtain hd | hd := List.mem_append.mp hd
    · exact utf8Size_of_isDigit (forall_mem_run hc rest d hd)
    · obtain rfl | hd := List.mem_cons.mp hd
      · rfl
      · exact utf8Size_of_isDigit (List.mem_takeWhile_imp hd)

theorem Starts.source_integer {c : Char} {rest digits : List Char} {t : Token}
    (h : Starts c rest (.integer digits)) (ht : (Lexeme.integer digits).token? = .ok (some t))
    (breaks : Bool) : t.source (Text.byteLength digits) breaks = digits := by
  obtain ⟨n, hn⟩ := eq_int_of_token? ht
  cases hn
  obtain ⟨-, hd, hvalue⟩ : (Token.int n).IsWritten digits := isWritten_of_token? h ht
  have hlength : Text.byteLength digits = digits.length :=
    Text.byteLength_of_ascii fun d hm => utf8Size_of_isDigit (hd d hm)
  rw [Token.source, hvalue, Int.toNat_natCast, hlength]
  exact lastDigits_ofDigitChars hd

theorem Starts.source_eq_masked {c : Char} {rest : List Char} {l : Lexeme} {t : Token}
    (h : Starts c rest l) (ht : l.token? = .ok (some t)) {breaks : Bool}
    (hb : breaks = decide (0 < l.chars.count '\n')) :
    t.source (Text.byteLength l.chars) breaks = l.masked := by
  cases h with
  | blanks => cases ht
  | lineFeed =>
    cases ht
    rw [hb]
    rfl
  | carriageReturn =>
    cases ht
    rw [hb]
    rfl
  | punctuation | pair | single | keyword | unknown =>
    cases ht
    rfl
  | word =>
    cases ht
    exact String.toList_ofList
  | decimal hc hd =>
    cases ht
    rw [chars, (Starts.decimal hc hd).byteLength_decimal]
    rfl
  | integer hc hd => exact (Starts.integer hc hd).source_integer ht breaks

theorem Starts.masked_of_token? {c : Char} {rest : List Char} {l : Lexeme} (h : Starts c rest l)
    (ht : l.token? = .ok none) : l.masked = List.replicate (Text.byteLength l.chars) ' ' := by
  obtain ⟨text, rfl⟩ := eq_blanks_of_token? ht
  rw [chars, h.byteLength_blanks, masked]

theorem Starts.byteLength_masked {c : Char} {rest : List Char} {l : Lexeme}
    (h : Starts c rest l) : Text.byteLength l.masked = Text.byteLength l.chars := by
  cases l with
  | blanks text => rw [chars, masked, Text.byteLength_replicate _ rfl, h.byteLength_blanks]
  | decimal whole fraction =>
    rw [chars, masked, Text.byteLength_replicate _ rfl, h.byteLength_decimal]
  | _ => rfl

theorem Starts.map_untab {c : Char} {rest : List Char} {l : Lexeme} (h : Starts c rest l)
    (hb : l.charClass ≠ .blank) : l.chars.map untab = l.chars := by
  have hid : ∀ d ∈ l.chars, untab d = d := by
    intro d hd
    refine if_neg ?_
    rintro rfl
    obtain hclass | ⟨hpoint, -⟩ := h.classOf_mem hd
    · exact hb hclass.symm
    · exact absurd hpoint (by decide)
  rw [List.map_congr_left hid, List.map_id']

theorem Starts.masked_eq_map_untab {c : Char} {rest : List Char} {l : Lexeme} (h : Starts c rest l)
    (hd : l.isDecimal = false) : l.masked = l.chars.map untab := by
  cases l with
  | blanks text =>
    have htext : ∀ d ∈ text, untab d = ' ' := by
      cases h with
      | blanks hc => exact fun d hd => untab_of_isBlank (forall_mem_run hc rest d hd)
    exact (List.map_eq_replicate_iff.mpr htext).symm
  | decimal => cases hd
  | _ => exact (h.map_untab (by simp [charClass])).symm

end Lexeme

theorem line_of_head {p : Cursor} {cs : List Char} {ts : List SpannedToken}
    (h : tokensFrom p cs = .ok ts) :
    ∃ u us, ts = u :: us ∧ u.position.line = p.position.line := by
  induction cs using ofText_induct generalizing p ts with
  | nil =>
    cases h
    exact ⟨_, _, rfl, rfl⟩
  | cons c rest ih =>
    obtain ⟨t, us, hr, hu, rfl⟩ := tokensFrom_cons_eq_ok h
    obtain ⟨t, ht, rfl⟩ := read_eq_ok hr
    cases t with
    | some t => exact ⟨_, _, rfl, rfl⟩
    | none =>
      obtain ⟨text, he⟩ := eq_blanks_of_token? ht
      have hcount : (start c rest).chars.count '\n' = 0 := by
        rw [he, List.count_eq_zero]
        exact fun hm => absurd (isBlank_of_start he _ hm) (by decide)
      obtain ⟨u, us, rfl, hline⟩ := ih hu
      exact ⟨u, us, rfl, by rw [hline, Cursor.line_advance, hcount, Nat.add_zero]⟩

theorem rebuildFrom_eq_masked {p : Cursor} {cs : List Char} {ts : List SpannedToken}
    (h : tokensFrom p cs = .ok ts) {offset : Nat} (ho : offset ≤ p.offset) :
    rebuildFrom offset ts =
      List.replicate (p.offset - offset) ' ' ++ (ofText cs).flatMap masked := by
  induction cs using ofText_induct generalizing p ts offset with
  | nil =>
    cases h
    simp [rebuildFrom, SpannedToken.eofAt, Token.source, ofText_nil, Cursor.advance]
  | cons c rest ih =>
    obtain ⟨t, us, hr, hu, rfl⟩ := tokensFrom_cons_eq_ok h
    obtain ⟨t, ht, rfl⟩ := read_eq_ok hr
    have hs := start_starts c rest
    have hoffset := Cursor.offset_advance p (start c rest).chars
    rw [ofText_cons, List.flatMap_cons]
    cases t with
    | none =>
      have hgap : (p.advance (start c rest).chars).offset - offset =
          p.offset - offset + Text.byteLength (start c rest).chars := by omega
      change rebuildFrom offset us = _
      rw [ih hu (by omega), hgap, ← List.replicate_append_replicate, List.append_assoc,
        hs.masked_of_token? ht]
    | some t =>
      obtain ⟨u, us, rfl, hline⟩ := line_of_head hu
      rw [Cursor.line_advance] at hline
      have hbreaks : decide (p.position.line < u.position.line) =
          decide (0 < (start c rest).chars.count '\n') := by
        rw [hline]
        exact decide_eq_decide.mpr (by omega)
      have hrest := ih hu (Nat.le_refl _)
      rw [Nat.sub_self, List.replicate_zero, List.nil_append, hoffset] at hrest
      rw [← hs.source_eq_masked ht hbreaks, ← hrest, ← List.append_assoc]
      simp [rebuildFrom, span]

namespace Lexeme

theorem getElem?_bytes_masked {p : Cursor} {ls : List Lexeme}
    (hs : ∀ l ∈ ls, ∃ c rest, l = start c rest) {i : Nat}
    (hi : ∀ q l, (q, l) ∈ place p ls → l.isDecimal → ¬((l.span q).start ≤ p.offset + i ∧
      p.offset + i < (l.span q).stop)) :
    (Text.bytes (ls.flatMap masked))[i]? =
      (Text.bytes ((ls.flatMap chars).map untab))[i]? := by
  induction ls generalizing p i with
  | nil => rfl
  | cons l ls ih =>
    obtain ⟨c, rest, hl⟩ := hs l (by simp)
    have hstarts : Starts c rest l := hl ▸ start_starts c rest
    have hmasked : (Text.bytes l.masked).length = Text.byteLength l.chars := by
      rw [Text.length_bytes, hstarts.byteLength_masked]
    have hchars : (Text.bytes (l.chars.map untab)).length = Text.byteLength l.chars := by
      rw [Text.length_bytes, byteLength_map_untab]
    rw [List.flatMap_cons, List.flatMap_cons, List.map_append, Text.bytes_append,
      Text.bytes_append]
    by_cases hlt : i < Text.byteLength l.chars
    · have hd : l.isDecimal = false := by
        refine Bool.eq_false_iff.mpr fun hd => hi p l (by simp [place]) hd ?_
        exact ⟨Nat.le_add_right .., Nat.add_lt_add_left hlt _⟩
      rw [List.getElem?_append_left (by rwa [hmasked]),
        List.getElem?_append_left (by rwa [hchars]), hstarts.masked_eq_map_untab hd]
    · have hoffset := Cursor.offset_advance p l.chars
      have hplace : (p.advance l.chars).offset + (i - Text.byteLength l.chars) = p.offset + i := by
        omega
      rw [List.getElem?_append_right (by omega), List.getElem?_append_right (by omega), hmasked,
        hchars]
      apply ih (fun m hm => hs m (by simp [hm]))
      intro q m hm hd
      rw [hplace]
      exact hi q m (by simp [place, hm]) hd

theorem flatMap_masked_ofText {cs : List Char} (h : ∀ l ∈ ofText cs, l.isDecimal = false) :
    (ofText cs).flatMap masked = cs.map untab := by
  have hall : ∀ l ∈ ofText cs, l.masked = l.chars.map untab := by
    intro l hl
    obtain ⟨c, rest, he⟩ := exists_start_of_mem_ofText hl
    have hs : Starts c rest l := he ▸ start_starts c rest
    exact hs.masked_eq_map_untab (h l hl)
  calc (ofText cs).flatMap masked
      = (ofText cs).flatMap fun l => l.chars.map untab := List.flatMap_congr hall
    _ = ((ofText cs).flatMap chars).map untab := List.map_flatMap.symm
    _ = cs.map untab := by rw [flatMap_chars_ofText]

end Lexeme

theorem exists_float_of_mem_lexemesOf {s : List Char} {ts : List SpannedToken}
    (hr : readAll (lexemesOf s) = .ok ts) {p : Cursor} {l : Lexeme} (hm : (p, l) ∈ lexemesOf s)
    (hd : l.isDecimal) : ∃ t ∈ ts, t.token.isFloat ∧ t.span = l.span p := by
  cases l with
  | decimal whole fraction =>
    obtain ⟨x, hx⟩ : ∃ x, (decimal whole fraction).token? = .ok (some (.float x)) := ⟨_, rfl⟩
    exact ⟨_, mem_of_token? hr hm hx, rfl, rfl⟩
  | _ => cases hd

theorem rebuild_eq_masked {s : List Char} {stream : TokenStream} (h : tokenize s = .ok stream) :
    rebuild stream.tokens = (ofText s).flatMap masked := by
  rw [rebuild, rebuildFrom_eq_masked (tokensFrom_of_tokenize h) (Nat.zero_le _)]
  rfl

theorem getElem?_bytes_rebuild {s : List Char} {stream : TokenStream}
    (h : tokenize s = .ok stream) {i : Nat}
    (hi : ∀ t ∈ stream.tokens, t.token.isFloat → ¬(t.span.start ≤ i ∧ i < t.span.stop)) :
    (Text.bytes (rebuild stream.tokens))[i]? = (Text.bytes (s.map untab))[i]? := by
  obtain ⟨ts, hr, hts⟩ := exists_readAll_of_tokenize h
  have hstart : Cursor.start.offset + i = i := Nat.zero_add i
  rw [rebuild_eq_masked h, getElem?_bytes_masked (fun l hl => exists_start_of_mem_ofText hl),
    flatMap_chars_ofText]
  rw [hstart]
  intro p l hm hd
  obtain ⟨t, ht, hf, hspan⟩ := exists_float_of_mem_lexemesOf hr hm hd
  rw [← hspan]
  exact hi t (by simp [hts, ht]) hf

theorem rebuild_eq_map_untab {s : List Char} {stream : TokenStream}
    (h : tokenize s = .ok stream) (hf : ∀ t ∈ stream.tokens, t.token.isFloat = false) :
    rebuild stream.tokens = s.map untab := by
  obtain ⟨ts, hr, hts⟩ := exists_readAll_of_tokenize h
  rw [rebuild_eq_masked h]
  refine flatMap_masked_ofText fun l hl => Bool.eq_false_iff.mpr fun hd => ?_
  obtain ⟨p, hm⟩ := exists_mem_place hl Cursor.start
  obtain ⟨t, ht, hfloat, -⟩ := exists_float_of_mem_lexemesOf hr hm hd
  rw [hf t (by simp [hts, ht])] at hfloat
  cases hfloat

theorem byteLength_eq_of_tokens {s₁ s₂ : List Char} {stream₁ stream₂ : TokenStream}
    (h₁ : tokenize s₁ = .ok stream₁) (h₂ : tokenize s₂ = .ok stream₂)
    (h : stream₁.tokens = stream₂.tokens) : Text.byteLength s₁ = Text.byteLength s₂ := by
  obtain ⟨ts₁, -, hts₁⟩ := exists_readAll_of_tokenize h₁
  obtain ⟨ts₂, -, hts₂⟩ := exists_readAll_of_tokenize h₂
  rw [hts₁, hts₂] at h
  have heof := List.singleton_inj.mp (List.append_inj_right' h rfl)
  rw [← Cursor.offset_start_advance, ← Cursor.offset_start_advance]
  exact congrArg (·.span.start) heof

/-- Sources with the same tokens are the same text, up to the choice of blanks and the spelling of
floats: `rebuild` reads it off the tokens. -/
theorem tokens_determine_source {s₁ s₂ : List Char} {stream₁ stream₂ : TokenStream}
    (h₁ : tokenize s₁ = .ok stream₁) (h₂ : tokenize s₂ = .ok stream₂)
    (h : stream₁.tokens = stream₂.tokens) :
    Text.byteLength s₁ = Text.byteLength s₂ ∧
    (∀ i, (∀ t ∈ stream₁.tokens, t.token.isFloat → ¬(t.span.start ≤ i ∧ i < t.span.stop)) →
      (Text.bytes (s₁.map untab))[i]? = (Text.bytes (s₂.map untab))[i]?) ∧
    ((∀ t ∈ stream₁.tokens, t.token.isFloat = false) →
      rebuild stream₁.tokens = s₁.map untab ∧ rebuild stream₁.tokens = s₂.map untab) := by
  refine ⟨byteLength_eq_of_tokens h₁ h₂ h, fun i hi => ?_, fun hf => ?_⟩
  · rw [← getElem?_bytes_rebuild h₁ hi, h, getElem?_bytes_rebuild h₂ (h ▸ hi)]
  · exact ⟨rebuild_eq_map_untab h₁ hf, h ▸ rebuild_eq_map_untab h₂ (h ▸ hf)⟩

theorem tokens_determine_source_spellings :
    ∃ stream₁ stream₂, tokenize "\t07\r1.50".toList = .ok stream₁ ∧
      tokenize " 07\r01.5".toList = .ok stream₂ ∧ stream₁.tokens = stream₂.tokens ∧
      Text.byteLength "\t07\r1.50".toList = Text.byteLength " 07\r01.5".toList ∧
      (Text.bytes ("\t07\r1.50".toList.map untab))[3]? =
        (Text.bytes (" 07\r01.5".toList.map untab))[3]? := by
  let tokens (x : Binary64) : List SpannedToken :=
    [⟨.int 7, ⟨1, 3⟩, ⟨1, 2⟩⟩, ⟨.newline, ⟨3, 4⟩, ⟨1, 4⟩⟩, ⟨.float x, ⟨4, 8⟩, ⟨1, 5⟩⟩,
      ⟨.eof, ⟨8, 8⟩, ⟨1, 9⟩⟩]
  have hvalue : Binary64.ofDecimal 150 2 = Binary64.ofDecimal 15 1 :=
    congrArg Binary64.mk (by decide +kernel)
  obtain ⟨sink, h₁⟩ : ∃ sink, tokenize "\t07\r1.50".toList =
      .ok ⟨tokens (Binary64.ofDecimal 150 2), sink⟩ := ⟨_, rfl⟩
  obtain ⟨sink', h₂⟩ : ∃ sink, tokenize " 07\r01.5".toList =
      .ok ⟨tokens (Binary64.ofDecimal 15 1), sink⟩ := ⟨_, rfl⟩
  have h : tokens (Binary64.ofDecimal 150 2) = tokens (Binary64.ofDecimal 15 1) := by rw [hvalue]
  have hd := tokens_determine_source h₁ h₂ h
  refine ⟨_, _, h₁, h₂, h, hd.1, hd.2.1 3 ?_⟩
  simp [tokens, Token.isFloat]

example : ∃ stream, tokenize "fun\tf\r007\n".toList = .ok stream ∧
    rebuild stream.tokens = "fun f\r007\n".toList :=
  ⟨_, rfl, rfl⟩

end Frontend
