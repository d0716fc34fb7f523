import Frontend.Binary64.Text
import Frontend.Proofs.Integer
import Frontend.Proofs.Rule
import Frontend.Proofs.Shortest
import Mathlib.Algebra.Group.Nat.Defs
import Mathlib.Data.List.DropRight

namespace Frontend.Binary64

open Lexeme (forall_head?_cons takeWhile_dropWhile_run)
open Numeral (chars_toString isDigit_toDigits readSigned readSigned_toString)

/-- The decimal units of a number with a point and a power of ten: its digits as one number, moved
by the places behind the point. -/
def unitsOf (whole fraction : List Char) (exponent : Int) : Nat :=
  Nat.ofDigitChars 10 (whole ++ fraction) 0 * 10 ^ (1074 + exponent - fraction.length).toNat

/-- A text that denotes a number of decimal units: digits, a point with more digits, and a power of
ten, of which the point or the power may be missing. -/
inductive Denotes : List Char → Nat → Prop
  | point {whole fraction : List Char} (hne : whole ≠ []) (hw : ∀ c ∈ whole, c.isDigit)
      (hf : ∀ c ∈ fraction, c.isDigit) :
      Denotes (whole ++ '.' :: fraction) (unitsOf whole fraction 0)
  | power {whole : List Char} (hne : whole ≠ []) (hw : ∀ c ∈ whole, c.isDigit) (n : Int) :
      Denotes (whole ++ 'e' :: (toString n).toList) (unitsOf whole [] n)
  | pointPower {whole fraction : List Char} (hne : whole ≠ []) (hw : ∀ c ∈ whole, c.isDigit)
      (hf : ∀ c ∈ fraction, c.isDigit) (n : Int) :
      Denotes (whole ++ '.' :: (fraction ++ 'e' :: (toString n).toList)) (unitsOf whole fraction n)

def readExponent : List Char → Int
  | [] => 0
  | _ :: cs => readSigned cs

def readUnits (cs : List Char) : Nat :=
  match cs.dropWhile Char.isDigit with
  | '.' :: ds =>
    unitsOf (cs.takeWhile Char.isDigit) (ds.takeWhile Char.isDigit)
      (readExponent (ds.dropWhile Char.isDigit))
  | ds => unitsOf (cs.takeWhile Char.isDigit) [] (readExponent ds)

theorem readUnits_point {whole fraction : List Char} (hw : ∀ c ∈ whole, c.isDigit)
    (hf : ∀ c ∈ fraction, c.isDigit) (rest : List Char)
    (hr : ∀ d, rest.head? = some d → d.isDigit = false) :
    readUnits (whole ++ '.' :: (fraction ++ rest)) =
      unitsOf whole fraction (readExponent rest) := by
  obtain ⟨hwhole, hpoint⟩ :=
    takeWhile_dropWhile_run hw (forall_head?_cons (d := '.') rfl (fraction ++ rest))
  obtain ⟨hfraction, hrest⟩ := takeWhile_dropWhile_run hf hr
  rw [readUnits, hwhole, hpoint]
  simp only [hfraction, hrest]

theorem readUnits_power {whole : List Char} (hw : ∀ c ∈ whole, c.isDigit) (rest : List Char) :
    readUnits (whole ++ 'e' :: rest) = unitsOf whole [] (readSigned rest) := by
  obtain ⟨hwhole, hpower⟩ :=
    takeWhile_dropWhile_run hw (forall_head?_cons (d := 'e') rfl rest)
  rw [readUnits, hwhole, hpower]
  rfl

namespace Denotes

theorem readUnits_eq {cs : List Char} {t : Nat} (h : Denotes cs t) : readUnits cs = t := by
  cases h with
  | @point whole fraction hne hw hf =>
    have hread := readUnits_point hw hf [] (by simp)
    rwa [List.append_nil] at hread
  | power hne hw n => rw [readUnits_power hw, readSigned_toString]
  | @pointPower whole fraction hne hw hf n =>
    rw [readUnits_point hw hf _ (by rintro d ⟨⟩; rfl), readExponent, readSigned_toString]

theorem unique {cs : List Char} {t t' : Nat} (h : Denotes cs t) (h' : Denotes cs t') : t = t' :=
  h.readUnits_eq.symm.trans h'.readUnits_eq

theorem head_isDigit {cs : List Char} {t : Nat} (h : Denotes cs t) :
    ∃ c rest, cs = c :: rest ∧ c.isDigit := by
  have hrun : ∀ {whole : List Char}, whole ≠ [] → (∀ c ∈ whole, c.isDigit) → ∀ rest,
      ∃ c rest', whole ++ rest = c :: rest' ∧ c.isDigit := by
    intro whole hne hw rest
    obtain ⟨c, whole, rfl⟩ := List.exists_cons_of_ne_nil hne
    exact ⟨c, whole ++ rest, rfl, hw c (by simp)⟩
  cases h with
  | point hne hw | power hne hw | pointPower hne hw => exact hrun hne hw _

theorem exists_mark {cs : List Char} {t : Nat} (h : Denotes cs t) : '.' ∈ cs ∨ 'e' ∈ cs := by
  cases h with
  | point | pointPower => exact .inl (by simp)
  | power => exact .inr (by simp)

theorem chars {cs : List Char} {t : Nat} (h : Denotes cs t) :
    ∀ c ∈ cs, c.isDigit ∨ c ∈ ['.', 'e', '-'] := by
  have hdigits : ∀ {ds : List Char}, (∀ c ∈ ds, c.isDigit) →
      ∀ c ∈ ds, c.isDigit ∨ c ∈ ['.', 'e', '-'] := fun hd c hc => .inl (hd c hc)
  have hnumber : ∀ n : Int, ∀ c ∈ (toString n).toList, c.isDigit ∨ c ∈ ['.', 'e', '-'] := by
    intro n c hc
    obtain hd | rfl := chars_toString n c hc
    · exact .inl hd
    · exact .inr (by decide)
  cases h with
  | point hne hw hf =>
    simp only [List.forall_mem_append, List.forall_mem_cons]
    exact ⟨hdigits hw, by decide, hdigits hf⟩
  | power hne hw n =>
    simp only [List.forall_mem_append, List.forall_mem_cons]
    exact ⟨hdigits hw, by decide, hnumber n⟩
  | pointPower hne hw hf n =>
    simp only [List.forall_mem_append, List.forall_mem_cons]
    exact ⟨hdigits hw, by decide, hdigits hf, by decide, hnumber n⟩

end Denotes

theorem ofDigitChars_zeros (a b : Nat) (ds : List Char) :
    Nat.ofDigitChars 10 (List.replicate a '0' ++ ds ++ List.replicate b '0') 0 =
      Nat.ofDigitChars 10 ds 0 * 10 ^ b := by
  rw [Nat.ofDigitChars_append, Nat.ofDigitChars_append, Nat.ofDigitChars_replicate_zero,
    Nat.ofDigitChars_replicate_zero, Nat.mul_zero, Nat.mul_comm]

theorem unitsOf_whole_zero (fraction : List Char) (exponent : Int) :
    unitsOf ['0'] fraction exponent = unitsOf [] fraction exponent := by
  rw [unitsOf, unitsOf, Nat.ofDigitChars_append]
  rfl

theorem unitsOf_fraction_zero (whole : List Char) : unitsOf whole ['0'] 0 = unitsOf whole [] 0 := by
  have hzero := ofDigitChars_zeros 0 1 whole
  change Nat.ofDigitChars 10 (whole ++ ['0']) 0 = _ at hzero
  have hplaces : 1 + (1074 + 0 - (['0'].length : Int)).toNat =
      (1074 + 0 - (([] : List Char).length : Int)).toNat := by decide
  rw [unitsOf, unitsOf, hzero, List.append_nil, Nat.mul_assoc, ← Nat.pow_add, hplaces]

theorem unitsOf_split (ds : List Char) {point : Int} (hp : (ds.length : Int) ≤ 1074 + point) :
    unitsOf (ds.take point.toNat ++ List.replicate (point.toNat - ds.length) '0')
        (List.replicate (-point).toNat '0' ++ ds.drop point.toNat) 0 =
      Nat.ofDigitChars 10 ds 0 * 10 ^ (1074 + point - ds.length).toNat := by
  have hdigits : ds.take point.toNat ++ List.replicate (point.toNat - ds.length) '0' ++
      (List.replicate (-point).toNat '0' ++ ds.drop point.toNat) =
      List.replicate (-point).toNat '0' ++ ds ++ List.replicate (point.toNat - ds.length) '0' := by
    by_cases hneg : point < 0
    · have hn : point.toNat = 0 := by omega
      simp [hn]
    · have hn : (-point).toNat = 0 := by omega
      by_cases hlen : point.toNat ≤ ds.length
      · simp [hn, Nat.sub_eq_zero_of_le hlen]
      · have hle : ds.length ≤ point.toNat := by omega
        simp [hn, List.take_of_length_le hle, List.drop_of_length_le hle]
  have hplaces : point.toNat - ds.length +
      (1074 + 0 - ((List.replicate (-point).toNat '0' ++ ds.drop point.toNat).length : Int)).toNat =
      (1074 + point - ds.length).toNat := by
    rw [List.length_append, List.length_replicate, List.length_drop]
    omega
  rw [unitsOf, hdigits, ofDigitChars_zeros, Nat.mul_assoc, ← Nat.pow_add, hplaces]

theorem unitsOf_filled (whole fraction : List Char) :
    unitsOf (if whole.isEmpty then ['0'] else whole)
      (if fraction.isEmpty then ['0'] else fraction) 0 = unitsOf whole fraction 0 := by
  have hfraction : ∀ w, unitsOf w (if fraction.isEmpty then ['0'] else fraction) 0 =
      unitsOf w fraction 0 := by
    intro w
    cases fraction with
    | nil => exact unitsOf_fraction_zero w
    | cons => rfl
  rw [hfraction]
  cases whole with
  | nil => exact unitsOf_whole_zero fraction 0
  | cons => rfl

theorem isDigit_replicate_zero (n : Nat) : ∀ c ∈ List.replicate n '0', c.isDigit := by
  intro c hc
  rw [List.eq_of_mem_replicate hc]
  rfl

theorem isDigit_filled {cs : List Char} (h : ∀ c ∈ cs, c.isDigit) :
    ∀ c ∈ if cs.isEmpty then ['0'] else cs, c.isDigit := by
  split
  · exact isDigit_replicate_zero 1
  · exact h

theorem positional_denotes {ds : List Char} (hd : ∀ c ∈ ds, c.isDigit) (point : Int)
    (hp : (ds.length : Int) ≤ 1074 + point) :
    Denotes (positional ds point)
      (Nat.ofDigitChars 10 ds 0 * 10 ^ (1074 + point - ds.length).toNat) := by
  rw [← unitsOf_split ds hp, ← unitsOf_filled, positional]
  refine .point ?_ (isDigit_filled ?_) (isDigit_filled ?_)
  · split
    · exact List.cons_ne_nil _ _
    · exact fun hnil => absurd (List.isEmpty_iff.mpr hnil) ‹_›
  · rw [List.forall_mem_append]
    exact ⟨fun c hc => hd c (List.mem_of_mem_take hc), isDigit_replicate_zero _⟩
  · rw [List.forall_mem_append]
    exact ⟨isDigit_replicate_zero _, fun c hc => hd c (List.mem_of_mem_drop hc)⟩

theorem scientific_denotes {ds : List Char} (hne : ds ≠ []) (hd : ∀ c ∈ ds, c.isDigit)
    (point : Int) :
    Denotes (scientific ds point)
      (Nat.ofDigitChars 10 ds 0 * 10 ^ (1074 + point - ds.length).toNat) := by
  have hpos := List.length_pos_iff.mpr hne
  have htake : ∀ c ∈ ds.take 1, c.isDigit := fun c hc => hd c (List.mem_of_mem_take hc)
  have hdrop : ∀ c ∈ ds.drop 1, c.isDigit := fun c hc => hd c (List.mem_of_mem_drop hc)
  have hunits : unitsOf (ds.take 1) (ds.drop 1) (point - 1) =
      Nat.ofDigitChars 10 ds 0 * 10 ^ (1074 + point - ds.length).toNat := by
    have hplaces : 1074 + (point - 1) - ((ds.drop 1).length : Int) = 1074 + point - ds.length := by
      rw [List.length_drop]
      omega
    rw [unitsOf, List.take_append_drop, hplaces]
  have hone : ds.take 1 ≠ [] := by simp [hne]
  rw [← hunits, scientific]
  split
  · rename_i hle
    rw [List.drop_eq_nil_of_le hle, List.append_nil]
    exact .power hone htake _
  · rw [List.append_assoc, List.cons_append]
    exact .pointPower hone htake hdrop _

theorem significant_append (ds : List Char) :
    significant ds ++ List.replicate (ds.length - (significant ds).length) '0' = ds := by
  have hsplit : significant ds ++ ds.rtakeWhile (· = '0') = ds :=
    List.rdropWhile_append_rtakeWhile
  have hlength := congrArg List.length hsplit
  rw [List.length_append] at hlength
  have hzeros : ds.rtakeWhile (· = '0') =
      List.replicate (ds.length - (significant ds).length) '0' := by
    rw [List.eq_replicate_iff]
    refine ⟨by omega, ?_⟩
    intro c hc
    simpa using List.mem_rtakeWhile_imp hc
  rw [← hzeros, hsplit]

theorem length_significant_le (ds : List Char) : (significant ds).length ≤ ds.length :=
  (List.rdropWhile_prefix _ ds).length_le

theorem isDigit_significant (n : Nat) : ∀ c ∈ significant (Nat.toDigits 10 n), c.isDigit := by
  intro c hc
  exact isDigit_toDigits n c ((List.rdropWhile_prefix _ _).subset hc)

theorem ofDigitChars_significant (n : Nat) :
    Nat.ofDigitChars 10 (significant (Nat.toDigits 10 n)) 0 *
      10 ^ ((Nat.toDigits 10 n).length - (significant (Nat.toDigits 10 n)).length) = n := by
  have hzeros := ofDigitChars_zeros 0
    ((Nat.toDigits 10 n).length - (significant (Nat.toDigits 10 n)).length)
    (significant (Nat.toDigits 10 n))
  rw [List.replicate_zero, List.nil_append, significant_append,
    Nat.ofDigitChars_ten_toDigits] at hzeros
  exact hzeros.symm

theorem significant_ne_nil {n : Nat} (hn : 0 < n) : significant (Nat.toDigits 10 n) ≠ [] := by
  intro hnil
  have hvalue := ofDigitChars_significant n
  rw [hnil, Nat.ofDigitChars_nil, Nat.zero_mul] at hvalue
  omega

theorem magnitudeText_denotes_shortest {p : Nat} (hp : 0 < p) :
    Denotes (magnitudeText p) (shortest p) := by
  have hvalue := ofDigitChars_significant (shortest p)
  have hle := length_significant_le (Nat.toDigits 10 (shortest p))
  have hplaces : (Nat.toDigits 10 (shortest p)).length -
      (significant (Nat.toDigits 10 (shortest p))).length =
      (1074 + ((Nat.toDigits 10 (shortest p)).length - 1074 : Int) -
        (significant (Nat.toDigits 10 (shortest p))).length).toNat := by omega
  rw [hplaces] at hvalue
  rw [magnitudeText, if_neg (Nat.ne_of_gt hp)]
  simp only
  split
  · have hdenotes := positional_denotes (isDigit_significant (shortest p))
      ((Nat.toDigits 10 (shortest p)).length - 1074) (by omega)
    rwa [hvalue] at hdenotes
  · have hdenotes := scientific_denotes (significant_ne_nil (shortest_pos hp))
      (isDigit_significant (shortest p)) ((Nat.toDigits 10 (shortest p)).length - 1074)
    rwa [hvalue] at hdenotes

theorem magnitudeText_zero_denotes : Denotes (magnitudeText 0) 0 := by
  have hdigits : Nat.ofDigitChars 10 (['0'] ++ ['0']) 0 = 0 := rfl
  have hdenotes := Denotes.point (List.cons_ne_nil '0' []) (isDigit_replicate_zero 1)
    (isDigit_replicate_zero 1)
  rw [unitsOf, List.replicate_one, hdigits, Nat.zero_mul] at hdenotes
  exact hdenotes

/-- The text of a magnitude denotes a decimal that reads back as it. -/
theorem magnitudeText_denotes (p : Nat) : ∃ t, Denotes (magnitudeText p) t ∧ reaches p t := by
  obtain rfl | hp := Nat.eq_zero_or_pos p
  · exact ⟨0, magnitudeText_zero_denotes, reaches_zero⟩
  · exact ⟨shortest p, magnitudeText_denotes_shortest hp, reaches_shortest hp⟩

theorem magnitudeText_injective {p q : Nat} (h : magnitudeText p = magnitudeText q) : p = q := by
  obtain ⟨t, hp, hreaches⟩ := magnitudeText_denotes p
  obtain ⟨u, hq, hreaches'⟩ := magnitudeText_denotes q
  rw [h] at hp
  obtain rfl := hp.unique hq
  exact reaches_unique hreaches hreaches'

def unsignedText (x : Binary64) : List Char :=
  if x.isFinite then magnitudeText x.pattern else ['i', 'n', 'f']

theorem toList_text {x : Binary64} (hx : x.isNaN = false) :
    x.text.toList = (if x.isNegative then ['-'] else []) ++ x.unsignedText := by
  rw [text, if_neg (by simp [hx]), String.toList_ofList]
  rfl

theorem unsignedText_head (x : Binary64) :
    ∃ c rest, x.unsignedText = c :: rest ∧ (c.isDigit ∨ c = 'i') := by
  rw [unsignedText]
  split
  · obtain ⟨t, ht, -⟩ := magnitudeText_denotes x.pattern
    obtain ⟨c, rest, hcs, hc⟩ := ht.head_isDigit
    exact ⟨c, rest, hcs, .inl hc⟩
  · exact ⟨'i', ['n', 'f'], rfl, .inr rfl⟩

theorem unsignedText_chars (x : Binary64) :
    ∀ c ∈ x.unsignedText, c.isDigit ∨ c ∈ ['.', 'e', '-', 'i', 'n', 'f'] := by
  rw [unsignedText]
  split
  · obtain ⟨t, ht, -⟩ := magnitudeText_denotes x.pattern
    intro c hc
    obtain hd | hd := ht.chars c hc
    · exact .inl hd
    · exact .inr (List.mem_append_left _ hd)
  · exact fun c hc => .inr (List.mem_append_right ['.', 'e', '-'] hc)

theorem text_chars {x : Binary64} (hx : x.isNaN = false) :
    ∀ c ∈ x.text.toList, c.isDigit ∨ c ∈ ['.', 'e', '-', 'i', 'n', 'f'] := by
  rw [toList_text hx, List.forall_mem_append]
  refine ⟨?_, x.unsignedText_chars⟩
  split <;> simp

theorem unsignedText_mark (x : Binary64) : ∃ c ∈ x.unsignedText, c ∈ ['.', 'e', 'i'] := by
  rw [unsignedText]
  split
  · obtain ⟨t, ht, -⟩ := magnitudeText_denotes x.pattern
    obtain hm | hm := ht.exists_mark
    · exact ⟨'.', hm, by decide⟩
    · exact ⟨'e', hm, by decide⟩
  · exact ⟨'i', by decide, by decide⟩

theorem pattern_of_not_isFinite {x : Binary64} (hx : x.isNaN = false) (hf : x.isFinite = false) :
    x.pattern = infinity := by
  have hle : ¬infinity < x.pattern := of_decide_eq_false hx
  have hge : ¬x.pattern < infinity := of_decide_eq_false hf
  omega

theorem pattern_injective_unsignedText {x y : Binary64} (hx : x.isNaN = false)
    (hy : y.isNaN = false) (h : x.unsignedText = y.unsignedText) : x.pattern = y.pattern := by
  have hdigit : ∀ {p : Nat}, magnitudeText p ≠ ['i', 'n', 'f'] := by
    intro p hp
    obtain ⟨t, ht, -⟩ := magnitudeText_denotes p
    obtain ⟨c, rest, hcs, hc⟩ := ht.head_isDigit
    rw [hp, List.cons.injEq] at hcs
    rw [← hcs.1] at hc
    contradiction
  rw [unsignedText, unsignedText] at h
  cases hfx : x.isFinite with
  | true =>
    cases hfy : y.isFinite with
    | true =>
      rw [hfx, hfy] at h
      exact magnitudeText_injective h
    | false =>
      rw [hfx, hfy] at h
      exact absurd h hdigit
  | false =>
    cases hfy : y.isFinite with
    | true =>
      rw [hfx, hfy] at h
      exact absurd h.symm hdigit
    | false => rw [pattern_of_not_isFinite hx hfx, pattern_of_not_isFinite hy hfy]

theorem eq_of_pattern {x y : Binary64} (hs : x.isNegative = y.isNegative)
    (hp : x.pattern = y.pattern) : x = y := by
  obtain ⟨a⟩ := x
  obtain ⟨b⟩ := y
  have hsign : Nat.pow 2 63 ≤ a.toNat ↔ Nat.pow 2 63 ≤ b.toNat := decide_eq_decide.mp hs
  have hbits : a.toNat % Nat.pow 2 63 = b.toNat % Nat.pow 2 63 := hp
  rw [Nat.pow_eq] at hsign hbits
  have ha := a.toNat_lt
  have hb := b.toNat_lt
  have hab : a.toNat = b.toNat := by omega
  rw [UInt64.toNat_inj.mp hab]

/-- A number other than NaN is determined by its text. -/
theorem text_injective {x y : Binary64} (hx : x.isNaN = false) (hy : y.isNaN = false)
    (h : x.text = y.text) : x = y := by
  have hcs := congrArg String.toList h
  rw [toList_text hx, toList_text hy] at hcs
  have hdash : ∀ {z : Binary64} {rest : List Char}, z.unsignedText ≠ '-' :: rest := by
    intro z rest hz
    obtain ⟨c, rest', hc, hd⟩ := z.unsignedText_head
    rw [hz, List.cons.injEq] at hc
    rw [← hc.1] at hd
    simp at hd
  cases hnx : x.isNegative with
  | true =>
    cases hny : y.isNegative with
    | true =>
      rw [hnx, hny] at hcs
      exact eq_of_pattern (hnx.trans hny.symm)
        (pattern_injective_unsignedText hx hy (List.append_cancel_left hcs))
    | false =>
      rw [hnx, hny] at hcs
      exact absurd hcs.symm hdash
  | false =>
    cases hny : y.isNegative with
    | true =>
      rw [hnx, hny] at hcs
      exact absurd hcs hdash
    | false =>
      rw [hnx, hny] at hcs
      exact eq_of_pattern (hnx.trans hny.symm)
        (pattern_injective_unsignedText hx hy (List.append_cancel_left hcs))

theorem isNaN_nearest (negative : Bool) (num den : Nat) :
    (ofPattern negative (nearest num den)).isNaN = false := by
  have hle : nearest num den ≤ infinity := Nat.min_le_right _ _
  have hlt : infinity < Nat.pow 2 63 := by decide
  rw [isNaN, pattern_ofPattern negative (Nat.lt_of_le_of_lt hle hlt)]
  exact decide_eq_false (Nat.not_lt.mpr hle)

theorem isNaN_ofDecimal (n places : Nat) : (ofDecimal n places).isNaN = false :=
  isNaN_nearest false _ _

end Frontend.Binary64
