import Frontend.Proofs.Munch

namespace Frontend

open Lexeme Rule

theorem Operator.rest_of_symbol {op : Operator} {c : Char} {y : List Char}
    (h : op.symbol.toList = c :: y) : y = [] ∨ ∃ d, y = [d] := by
  cases op <;> obtain ⟨-, rfl⟩ := List.cons.inj h <;> simp

theorem isAlpha_of_isBlank {d : Char} (h : isBlank d) : d.isAlpha = false := by
  have hd : d = ' ' ∨ d = '\t' := by simpa [isBlank] using h
  obtain rfl | rfl := hd <;> rfl

theorem Rule.exists_of_matches_keyword {k : Keyword} {x : List Char} (h : (keyword k).Matches x) :
    ∃ d, isBlank d ∧ x = k.text.toList ++ [d] := by
  obtain h | h := (matches_keyword_iff k x).mp h
  · exact ⟨' ', rfl, h⟩
  · exact ⟨'\t', rfl, h⟩

theorem Rule.matches_keyword {k : Keyword} {d : Char} (h : isBlank d) :
    (keyword k).Matches (k.text.toList ++ [d]) := by
  rw [matches_keyword_iff]
  have hd : d = ' ' ∨ d = '\t' := by simpa [isBlank] using h
  obtain rfl | rfl := hd
  · exact .inl rfl
  · exact .inr rfl

theorem length_le_takeWhile {f : Char → Bool} {x cs : List Char} (hp : x <+: cs)
    (hx : ∀ c ∈ x, f c) : x.length ≤ (cs.takeWhile f).length := by
  obtain ⟨t, rfl⟩ := hp
  rw [List.takeWhile_append_of_pos hx, List.length_append]
  omega

namespace Rule

/-- Only rules of one class compete at one place. -/
theorem Wins.of_class {r : Rule} {x : List Char} {c : Char} {rest : List Char}
    (hx : r.Matches x) (hp : x <+: c :: rest)
    (hr : ∀ (r' : Rule) (y : List Char), r'.charClass = r.charClass → r'.Matches (c :: y) →
      y <+: rest → y.length < x.length ∧ (r' = r ∨ r.tier < r'.tier)) : Wins r x (c :: rest) := by
  obtain ⟨x, rfl⟩ : ∃ x', x = c :: x' := by
    cases x with
    | nil => exact absurd hx (not_matches_nil r)
    | cons d x => exact ⟨x, by rw [(List.cons_prefix_cons.mp hp).1]⟩
  have hall : ∀ (r' : Rule) (y : List Char), r'.Matches y → y <+: c :: rest →
      y.length ≤ (c :: x).length ∧ (r' = r ∨ r.tier < r'.tier) := by
    intro r' y hm hy
    cases y with
    | nil => exact absurd hm (not_matches_nil r')
    | cons d y =>
      obtain ⟨rfl, hrest⟩ := List.cons_prefix_cons.mp hy
      exact hr r' y (hm.classOf_eq.symm.trans hx.classOf_eq) hm hrest
  exact ⟨hx, hp, fun r' y hm hy => (hall r' y hm hy).1, fun r' y hm hy => (hall r' y hm hy).2⟩

theorem wins_alone {r : Rule} {c : Char} (hr : r.tier ≤ 1) (hx : r.Matches [c])
    (rest : List Char) : Wins r [c] (c :: rest) := by
  refine .of_class hx (by simp) ?_
  intro r' y hclass hm _
  have hy : y = [] := by
    cases r with
    | lineFeed | carriageReturn =>
      cases r' <;> cases hclass
      exact (List.cons.inj hm).2
    | punctuation p =>
      cases r' <;> cases hclass
      rename_i p'
      exact (List.cons.inj ((matches_punctuation_iff p' _).mp hm)).2
    | operator op =>
      simp only [tier] at hr
      split at hr <;> omega
    | keyword | word | decimal | integer => simp [tier] at hr
  subst hy
  exact ⟨by simp, .inl (hm.unique hx)⟩

theorem wins_pair {op : Operator} {c d : Char} {rest : List Char} (hc : op.symbol.toList = [c, d])
    (hd : rest.head? = some d) : Wins (operator op) [c, d] (c :: rest) := by
  obtain ⟨tail, rfl⟩ := List.head?_eq_some_iff.mp hd
  refine .of_class ((matches_operator_iff op _).mpr hc) (by simp) ?_
  intro r' y hclass hm hy
  cases r' <;> cases hclass
  rename_i op'
  have hm' : op'.symbol.toList = c :: y := (matches_operator_iff op' _).mp hm
  obtain rfl | ⟨e, rfl⟩ := Operator.rest_of_symbol hm'
  · exact ⟨by simp, .inr (by simp [tier, hc, hm'])⟩
  · obtain rfl : e = d := (List.cons_prefix_cons.mp hy).1
    exact ⟨by simp, .inl (by rw [Operator.eq_of_toList_symbol (hm'.trans hc.symm)])⟩

theorem wins_single {op : Operator} {c : Char} {rest : List Char} (hc : op.symbol.toList = [c])
    (hd : ∀ (d : Char) (op' : Operator), rest.head? = some d → op'.symbol.toList ≠ [c, d]) :
    Wins (operator op) [c] (c :: rest) := by
  refine .of_class ((matches_operator_iff op _).mpr hc) (by simp) ?_
  intro r' y hclass hm hy
  cases r' <;> cases hclass
  rename_i op'
  have hm' : op'.symbol.toList = c :: y := (matches_operator_iff op' _).mp hm
  obtain rfl | ⟨e, rfl⟩ := Operator.rest_of_symbol hm'
  · exact ⟨by simp, .inl (by rw [Operator.eq_of_toList_symbol (hm'.trans hc.symm)])⟩
  · obtain ⟨tail, rfl⟩ := hy
    exact absurd hm' (hd e op' rfl)

theorem letters_of_keyword {k : Keyword} {c : Char} {y rest : List Char} (hc : c.isAlpha)
    (hm : (keyword k).Matches (c :: y)) (hy : y <+: rest) :
    k.text.toList = c :: rest.takeWhile Char.isAlpha ∧
      ∃ d, isBlank d ∧ (rest.dropWhile Char.isAlpha).head? = some d := by
  obtain ⟨d, hb, he⟩ := exists_of_matches_keyword hm
  obtain ⟨tail, rfl⟩ := hy
  have hsplit : c :: (y ++ tail) = k.text.toList ++ d :: tail := by
    rw [← List.cons_append, he, List.append_assoc, List.singleton_append]
  obtain ⟨ht, hd⟩ :=
    takeWhile_dropWhile_run k.isAlpha_text (forall_head?_cons (isAlpha_of_isBlank hb) tail)
  rw [← hsplit, List.takeWhile_cons_of_pos hc] at ht
  rw [← hsplit, List.dropWhile_cons_of_pos hc] at hd
  exact ⟨ht.symm, d, hb, by rw [hd]; rfl⟩

theorem length_lt_of_run {f : Char → Bool} {c : Char} {y rest : List Char} (hc : f c)
    (hf : ∀ d ∈ c :: y, f d) (hy : y <+: rest) :
    y.length < (c :: rest.takeWhile f).length := by
  have hle := length_le_takeWhile (List.cons_prefix_cons.mpr ⟨rfl, hy⟩) hf
  rw [List.takeWhile_cons_of_pos hc, List.length_cons] at hle
  omega

theorem wins_keyword {k : Keyword} {c d : Char} {rest : List Char}
    (hc : k.text.toList = c :: rest.takeWhile Char.isAlpha)
    (hd : (rest.dropWhile Char.isAlpha).head? = some d) (hb : isBlank d) :
    Wins (keyword k) (k.text.toList ++ [d]) (c :: rest) := by
  have hca : c.isAlpha := k.isAlpha_text c (by simp [hc])
  refine .of_class (matches_keyword hb) ?_ ?_
  · obtain ⟨tail, ht⟩ := List.head?_eq_some_iff.mp hd
    refine ⟨tail, ?_⟩
    rw [hc, List.append_assoc, List.singleton_append, ← ht, List.cons_append,
      List.takeWhile_append_dropWhile]
  · intro r' y hclass hm hy
    cases r' <;> cases hclass
    case keyword.refl k' =>
      obtain ⟨ht, -⟩ := letters_of_keyword hca hm hy
      obtain rfl := Keyword.eq_of_toList_text (ht.trans hc.symm)
      obtain ⟨e, -, he⟩ := exists_of_matches_keyword hm
      have hlen := congrArg List.length he
      rw [List.length_cons, List.length_append, List.length_singleton] at hlen
      rw [List.length_append, List.length_singleton]
      exact ⟨by omega, .inl rfl⟩
    case word.refl =>
      have hlt := length_lt_of_run hca hm.2 hy
      rw [hc, List.length_append]
      exact ⟨by omega, .inr (by simp [tier])⟩

theorem wins_word {c : Char} {rest : List Char} (hc : c.isAlpha)
    (hk : ∀ (k : Keyword) (d : Char), k.text.toList = c :: rest.takeWhile Char.isAlpha →
      (rest.dropWhile Char.isAlpha).head? = some d → isBlank d = false) :
    Wins word (c :: rest.takeWhile Char.isAlpha) (c :: rest) := by
  refine .of_class ⟨by simp, forall_mem_run hc rest⟩ (run_isPrefix rest) ?_
  intro r' y hclass hm hy
  cases r' <;> cases hclass
  case keyword.refl k =>
    obtain ⟨ht, d, hb, hd⟩ := letters_of_keyword hc hm hy
    rw [hk k d ht hd] at hb
    contradiction
  case word.refl => exact ⟨length_lt_of_run hc hm.2 hy, .inl rfl⟩

theorem digits_of_decimal {c : Char} {y rest : List Char} (hc : c.isDigit)
    (hm : decimal.Matches (c :: y)) (hy : y <+: rest) :
    ∃ fraction tail, rest.dropWhile Char.isDigit = '.' :: (fraction ++ tail) ∧
      (∀ d ∈ fraction, d.isDigit) ∧
      (c :: y).length = (c :: rest.takeWhile Char.isDigit).length + 1 + fraction.length := by
  obtain ⟨whole, fraction, he, -, hw, hf⟩ := hm
  obtain ⟨tail, rfl⟩ := hy
  have hsplit : c :: (y ++ tail) = whole ++ '.' :: (fraction ++ tail) := by
    rw [← List.cons_append, he, List.append_assoc, List.cons_append]
  obtain ⟨ht, hd⟩ :=
    takeWhile_dropWhile_run hw (forall_head?_cons (d := '.') rfl (fraction ++ tail))
  rw [← hsplit, List.takeWhile_cons_of_pos hc] at ht
  rw [← hsplit, List.dropWhile_cons_of_pos hc] at hd
  refine ⟨fraction, tail, hd, hf, ?_⟩
  rw [ht, he, List.length_append, List.length_cons]
  omega

theorem wins_decimal {c : Char} {rest after : List Char} (hc : c.isDigit)
    (hd : rest.dropWhile Char.isDigit = '.' :: after) :
    Wins decimal (c :: rest.takeWhile Char.isDigit ++ '.' :: after.takeWhile Char.isDigit)
      (c :: rest) := by
  refine .of_class ⟨_, _, rfl, by simp, forall_mem_run hc rest,
    fun d hd => List.mem_takeWhile_imp hd⟩ ?_ ?_
  · refine ⟨after.dropWhile Char.isDigit, ?_⟩
    rw [List.append_assoc, List.cons_append, List.cons_append, List.takeWhile_append_dropWhile,
      ← hd, List.takeWhile_append_dropWhile]
  · intro r' y hclass hm hy
    simp only [List.length_append, List.length_cons]
    cases r' <;> cases hclass
    case decimal.refl =>
      obtain ⟨fraction, tail, hd', hf, hlen⟩ := digits_of_decimal hc hm hy
      rw [hd, List.cons.injEq] at hd'
      have hle := length_le_takeWhile ⟨tail, hd'.2.symm⟩ hf
      simp only [List.length_cons] at hlen
      exact ⟨by omega, .inl rfl⟩
    case integer.refl =>
      have hlt := length_lt_of_run hc hm.2 hy
      rw [List.length_cons] at hlt
      exact ⟨by omega, .inr (by simp [tier])⟩

theorem wins_integer {c : Char} {rest : List Char} (hc : c.isDigit)
    (hd : (rest.dropWhile Char.isDigit).head? ≠ some '.') :
    Wins integer (c :: rest.takeWhile Char.isDigit) (c :: rest) := by
  refine .of_class ⟨by simp, forall_mem_run hc rest⟩ (run_isPrefix rest) ?_
  intro r' y hclass hm hy
  cases r' <;> cases hclass
  case decimal.refl =>
    obtain ⟨fraction, tail, hd', -⟩ := digits_of_decimal hc hm hy
    exact absurd (by rw [hd']; rfl) hd
  case integer.refl => exact ⟨length_lt_of_run hc hm.2 hy, .inl rfl⟩

end Rule

end Frontend
