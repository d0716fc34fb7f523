import Frontend.Proofs.Soundness
import Mathlib.Data.Int.Bitwise
import Mathlib.Data.Int.ModEq

namespace Frontend

/-- What an operator does to integers without bounds. In the bitwise ones a negative integer has
ones without end above its own bits. -/
def Operator.unbounded? : Operator → Option (Int → Int → Int)
  | plus => some (· + ·)
  | dash => some (· - ·)
  | star => some (· * ·)
  | amp => some Int.land
  | pipe => some Int.lor
  | caret => some Int.xor
  | _ => none

namespace Numeral

theorem getLsbD_toBitVec_ofInt (x : Int) {i : Nat} (hi : i < 64) :
    (Int64.ofInt x).toBitVec.getLsbD i = x.testBit i := by
  rw [Int64.toBitVec_ofInt]
  cases x with
  | ofNat n =>
    rw [Int.ofNat_eq_natCast, BitVec.ofInt_natCast, BitVec.getLsbD_ofNat]
    simp [hi, Int.testBit]
  | negSucc n =>
    rw [BitVec.ofInt_negSucc_eq_not_ofNat, BitVec.getLsbD_not, BitVec.getLsbD_ofNat]
    simp [hi, Int.testBit]

theorem ofInt_eq_of_bits {x : Int} {n : Int64}
    (h : ∀ i < 64, x.testBit i = n.toBitVec.getLsbD i) : Int64.ofInt x = n := by
  apply Int64.toBitVec.inj
  apply BitVec.eq_of_getLsbD_eq
  intro i hi
  rw [getLsbD_toBitVec_ofInt x hi, h i hi]

theorem ofInt_land (x y : Int) : Int64.ofInt (x.land y) = Int64.ofInt x &&& Int64.ofInt y := by
  apply ofInt_eq_of_bits
  intro i hi
  rw [Int.testBit_land, Int64.toBitVec_and, BitVec.getLsbD_and, getLsbD_toBitVec_ofInt x hi,
    getLsbD_toBitVec_ofInt y hi]

theorem ofInt_lor (x y : Int) : Int64.ofInt (x.lor y) = Int64.ofInt x ||| Int64.ofInt y := by
  apply ofInt_eq_of_bits
  intro i hi
  rw [Int.testBit_lor, Int64.toBitVec_or, BitVec.getLsbD_or, getLsbD_toBitVec_ofInt x hi,
    getLsbD_toBitVec_ofInt y hi]

theorem ofInt_xor (x y : Int) : Int64.ofInt (x.xor y) = Int64.ofInt x ^^^ Int64.ofInt y := by
  apply ofInt_eq_of_bits
  intro i hi
  rw [Int.testBit_lxor, Int64.toBitVec_xor, BitVec.getLsbD_xor, getLsbD_toBitVec_ofInt x hi,
    getLsbD_toBitVec_ofInt y hi]

theorem eq_toInt_ofInt_iff (x m : Int) :
    m = (Int64.ofInt x).toInt ↔ -2 ^ 63 ≤ m ∧ m < 2 ^ 63 ∧ m ≡ x [ZMOD 2 ^ 64] := by
  rw [Int64.toInt_ofInt, Int.ModEq, Int.bmod_def]
  simp only [Int64.size]
  omega

theorem toInt_div_of_not_overflow {a b : Int64} (h : ¬ (a = Int64.minValue ∧ b = -1)) :
    (a / b).toInt = a.toInt.tdiv b.toInt := by
  by_cases ha : a = Int64.minValue
  · exact Int64.toInt_div_of_ne_right a b fun hb => h ⟨ha, hb⟩
  · exact Int64.toInt_div_of_ne_left a b ha

theorem div_mul_add_mod (a b : Int64) : a / b * b + a % b = a := by
  have hdiv : Int64.ofInt (a.toInt.tdiv b.toInt) = a / b := by
    rw [← Int64.toInt_inj, Int64.toInt_div, Int64.toInt_ofInt]
  have hmod : Int64.ofInt (a.toInt.tmod b.toInt) = a % b := by
    rw [← Int64.toInt_mod, Int64.ofInt_toInt]
  calc a / b * b + a % b
      = Int64.ofInt (a.toInt.tdiv b.toInt * b.toInt + a.toInt.tmod b.toInt) := by
        rw [Int64.ofInt_add, Int64.ofInt_mul, hdiv, hmod, Int64.ofInt_toInt]
    _ = a := by rw [Int.tdiv_mul_add_tmod, Int64.ofInt_toInt]

end Numeral

namespace Expr

theorem nodeValue_ofInt {op : Operator} {f : Int → Int → Int} (hf : op.unbounded? = some f)
    (x y : Int) :
    nodeValue op (.int (Int64.ofInt x)) (.int (Int64.ofInt y)) =
      .ok (.int (Int64.ofInt (f x y))) := by
  cases op <;> cases hf
  case plus =>
    rw [Int64.ofInt_add]
    rfl
  case dash =>
    rw [Int64.ofInt_sub]
    rfl
  case star =>
    rw [Int64.ofInt_mul]
    rfl
  case amp =>
    rw [Numeral.ofInt_land]
    rfl
  case pipe =>
    rw [Numeral.ofInt_lor]
    rfl
  case caret =>
    rw [Numeral.ofInt_xor]
    rfl

def isModular : Expr → Bool
  | literal v => v.kind = .int
  | binary op lhs rhs =>
    op ∈ [.plus, .dash, .star, .amp, .pipe, .caret] && lhs.isModular && rhs.isModular

def unbounded? : Expr → Option Int
  | literal (.int n) => some n.toInt
  | literal _ => none
  | binary op lhs rhs => do
    let f ← op.unbounded?
    let x ← lhs.unbounded?
    let y ← rhs.unbounded?
    return f x y

theorem evaluate_of_isModular {e : Expr} (h : e.isModular) :
    ∃ x, e.unbounded? = some x ∧ e.evaluate.outcome = .ok (.int (Int64.ofInt x)) := by
  induction e with
  | literal v =>
    cases v with
    | int n => exact ⟨n.toInt, rfl, by rw [Int64.ofInt_toInt]; rfl⟩
    | float | bool | none => contradiction
  | binary op lhs rhs ihl ihr =>
    simp only [isModular, Bool.and_eq_true, decide_eq_true_eq] at h
    obtain ⟨⟨hop, hl⟩, hr⟩ := h
    obtain ⟨f, hf⟩ : ∃ f, op.unbounded? = some f := by
      cases op <;> simp at hop <;> exact ⟨_, rfl⟩
    obtain ⟨x, hx, hlhs⟩ := ihl hl
    obtain ⟨y, hy, hrhs⟩ := ihr hr
    refine ⟨f x y, ?_, ?_⟩
    · simp only [unbounded?, hf, hx, hy]
      rfl
    · rw [evaluate_binary_of_ok hlhs hrhs, nodeValue_ofInt hf]

/-- Sums, differences, products and bitwise combinations of integers, however deep, come to the
one 64-bit integer that is congruent to their exact value. -/
theorem evaluate_modular {e : Expr} (h : e.isModular) :
    e.check.outcome = .ok .int ∧
    ∃ (x : Int) (w : Int64), e.unbounded? = some x ∧ e.evaluate.outcome = .ok (.int w) ∧
      w = Int64.ofInt x ∧
      ∀ m : Int, m = w.toInt ↔ -2 ^ 63 ≤ m ∧ m < 2 ^ 63 ∧ m ≡ x [ZMOD 2 ^ 64] := by
  obtain ⟨x, hx, he⟩ := evaluate_of_isModular h
  exact ⟨check_of_evaluate he, x, Int64.ofInt x, hx, he, rfl, Numeral.eq_toInt_ofInt_iff x⟩

theorem evaluate_modular_mixed :
    let e := binary .caret
      (binary .star (binary .plus (literal (.int 9223372036854775807)) (literal (.int 1)))
        (literal (.int 3)))
      (binary .amp (literal (.int (-6))) (literal (.int 11)))
    e.isModular ∧ e.check.outcome = .ok .int ∧ e.unbounded? = some 27670116110564327434 ∧
      e.evaluate.outcome = .ok (.int (-9223372036854775798)) := by
  intro e
  have h : e.isModular := by decide
  obtain ⟨hcheck, x, w, hx, he, hw, -⟩ := evaluate_modular h
  have hx' : e.unbounded? = some 27670116110564327434 := by decide +kernel
  obtain rfl := Option.some.inj (hx'.symm.trans hx)
  refine ⟨h, hcheck, hx', ?_⟩
  rw [he, hw]
  rfl

theorem nodeValue_divide {op : Operator} {g : Int64 → Int64 → Int64}
    (h : op = .slash ∧ g = (· / ·) ∨ op = .percent ∧ g = (· % ·)) (a b : Int64) :
    nodeValue op (.int a) (.int b) =
      if b = 0 then .error (.divisionByZero op .int) else .ok (.int (g a b)) := by
  obtain ⟨rfl, rfl⟩ | ⟨rfl, rfl⟩ := h <;> by_cases hb : b = 0 <;>
    simp [nodeValue, Kind.rule?, Kind.rules?, Value.kind, Operation.arithmetic?,
      Operation.arithmetic, Value.promote?, hb]

/-- Division truncates toward zero and the remainder goes with it, except that the least integer
divided by minus one stays as it is. Quotient and remainder always give back the dividend. -/
theorem evaluate_division {l r : Expr} {a b : Int64} (hl : l.evaluate.outcome = .ok (.int a))
    (hr : r.evaluate.outcome = .ok (.int b)) :
    (b = 0 →
      (binary .slash l r).evaluate.outcome = .error (.divisionByZero .slash .int) ∧
      (binary .percent l r).evaluate.outcome = .error (.divisionByZero .percent .int)) ∧
    (b ≠ 0 → ¬ (a = Int64.minValue ∧ b = -1) →
      ∃ q m : Int64, (binary .slash l r).evaluate.outcome = .ok (.int q) ∧
        (binary .percent l r).evaluate.outcome = .ok (.int m) ∧
        q.toInt = a.toInt.tdiv b.toInt ∧ m.toInt = a.toInt - b.toInt * q.toInt ∧
        m.toInt.natAbs < b.toInt.natAbs ∧ (m.toInt = 0 ∨ m.toInt.sign = a.toInt.sign)) ∧
    (a = Int64.minValue → b = -1 →
      (binary .slash l r).evaluate.outcome = .ok (.int Int64.minValue) ∧
      (binary .percent l r).evaluate.outcome = .ok (.int 0)) ∧
    (b ≠ 0 →
      (binary .plus (binary .star (binary .slash l r) r) (binary .percent l r)).evaluate.outcome =
        .ok (.int a)) := by
  have hslash := (evaluate_binary_of_ok hl hr .slash).trans
    (nodeValue_divide (.inl ⟨rfl, rfl⟩) a b)
  have hpercent := (evaluate_binary_of_ok hl hr .percent).trans
    (nodeValue_divide (.inr ⟨rfl, rfl⟩) a b)
  refine ⟨?_, ?_, ?_, ?_⟩
  · intro hb
    rw [hslash, hpercent, if_pos hb, if_pos hb]
    exact ⟨rfl, rfl⟩
  · intro hb hmin
    rw [if_neg hb] at hslash hpercent
    have hquotient := Numeral.toInt_div_of_not_overflow hmin
    refine ⟨a / b, a % b, hslash, hpercent, hquotient, ?_, ?_, ?_⟩
    · rw [hquotient, Int64.toInt_mod, Int.tmod_def]
    · have hpos : b.toInt ≠ 0 := fun h => hb (Int64.toInt_inj.mp h)
      rw [Int64.toInt_mod, Int.natAbs_tmod]
      exact Nat.mod_lt _ (Int.natAbs_pos.mpr hpos)
    · rw [Int64.toInt_mod, ← Int.sign_eq_zero_iff_zero, Int.sign_tmod]
      split
      · exact .inl rfl
      · exact .inr rfl
  · rintro rfl rfl
    exact ⟨hslash, hpercent⟩
  · intro hb
    rw [if_neg hb] at hslash hpercent
    have hstar : (binary .star (binary .slash l r) r).evaluate.outcome = .ok (.int (a / b * b)) :=
      evaluate_binary_of_ok hslash hr .star
    rw [evaluate_binary_of_ok hstar hpercent]
    change Except.ok (Value.int (a / b * b + a % b)) = _
    rw [Numeral.div_mul_add_mod]

theorem evaluate_division_overflow :
    let l := binary .plus (literal (.int 9223372036854775807)) (literal (.int 1))
    let r := literal (.int (-1))
    l.evaluate.outcome = .ok (.int Int64.minValue) ∧ r.evaluate.outcome = .ok (.int (-1)) ∧
      (binary .slash l r).evaluate.outcome = .ok (.int Int64.minValue) ∧
      (binary .percent l r).evaluate.outcome = .ok (.int 0) ∧
      (binary .plus (binary .star (binary .slash l r) r) (binary .percent l r)).evaluate.outcome =
        .ok (.int Int64.minValue) := by
  intro l r
  have hl : l.evaluate.outcome = .ok (.int Int64.minValue) := rfl
  have hr : r.evaluate.outcome = .ok (.int (-1)) := rfl
  obtain ⟨-, -, hmin, hback⟩ := evaluate_division hl hr
  obtain ⟨hslash, hpercent⟩ := hmin rfl rfl
  exact ⟨hl, hr, hslash, hpercent, hback (by decide)⟩

end Expr

end Frontend
