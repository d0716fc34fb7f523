import Frontend.Binary64.Text
import Mathlib.Order.Monotone.Basic

namespace Frontend.Binary64

theorem units_lt_units_succ (p : Nat) : units p < units (p + 1) := by
  simp only [units, Nat.pow_eq]
  by_cases hsmall : p + 1 < 2 ^ 52
  · rw [if_pos (by omega), if_pos hsmall]
    omega
  · rw [if_neg hsmall]
    by_cases hp : p < 2 ^ 52
    · obtain rfl : p = 2 ^ 52 - 1 := by omega
      decide
    · rw [if_neg hp]
      by_cases hcarry : p % 2 ^ 52 + 1 < 2 ^ 52
      · have hdiv : (p + 1) / 2 ^ 52 = p / 2 ^ 52 := by omega
        have hmod : (p + 1) % 2 ^ 52 = p % 2 ^ 52 + 1 := by omega
        rw [hdiv, hmod]
        exact Nat.mul_lt_mul_of_pos_right (by omega) (Nat.two_pow_pos _)
      · -- the fraction is full: the next number has the next exponent and no fraction
        obtain ⟨e, he⟩ : ∃ e, p / 2 ^ 52 = e + 1 := ⟨p / 2 ^ 52 - 1, by omega⟩
        have hdiv : (p + 1) / 2 ^ 52 = e + 2 := by omega
        have hmod : (p + 1) % 2 ^ 52 = 0 := by omega
        rw [he, hdiv, hmod, Nat.add_sub_cancel]
        calc (2 ^ 52 + p % 2 ^ 52) * 2 ^ e
            < 2 ^ 53 * 2 ^ e := Nat.mul_lt_mul_of_pos_right (by omega) (Nat.two_pow_pos e)
          _ = (2 ^ 52 + 0) * 2 ^ (e + 1) := by rw [Nat.pow_succ 2 e]; omega

theorem fivePower_pos : 0 < fivePower := by decide +kernel

theorem strictMono_decimalUnits : StrictMono decimalUnits := by
  apply strictMono_nat_of_lt_succ
  intro p
  exact Nat.mul_lt_mul_of_pos_right (units_lt_units_succ p) fivePower_pos

theorem reaches_self {p : Nat} (hp : 0 < p) : reaches p (decimalUnits p) := by
  have hlow : decimalUnits (p - 1) < decimalUnits p := strictMono_decimalUnits (by omega)
  have hhigh : decimalUnits p < decimalUnits (p + 1) := strictMono_decimalUnits (by omega)
  rw [reaches]
  split
  · simp only [Bool.and_eq_true, decide_eq_true_eq]
    omega
  · simp only [Bool.and_eq_true, decide_eq_true_eq]
    omega

theorem reaches_zero : reaches 0 0 := by
  rw [reaches, if_pos rfl]
  simp [decimalUnits, units]

/-- A number that reads back as a pattern is between the midpoints to its neighbours; it is at one
of them only if the pattern is even. -/
theorem reaches_bounds {p t : Nat} (h : reaches p t) :
    decimalUnits (p - 1) + decimalUnits p ≤ 2 * t ∧
      2 * t ≤ decimalUnits p + decimalUnits (p + 1) ∧
      (p % 2 = 1 → decimalUnits (p - 1) + decimalUnits p < 2 * t ∧
        2 * t < decimalUnits p + decimalUnits (p + 1)) := by
  rw [reaches] at h
  split at h
  · simp only [Bool.and_eq_true, decide_eq_true_eq] at h
    omega
  · simp only [Bool.and_eq_true, decide_eq_true_eq] at h
    omega

theorem not_reaches_of_lt {p q t : Nat} (h : p < q) (hp : reaches p t) : reaches q t = false := by
  rw [Bool.eq_false_iff]
  intro hq
  obtain ⟨-, hhigh, hodd⟩ := reaches_bounds hp
  obtain ⟨hlow, -, hodd'⟩ := reaches_bounds hq
  by_cases hnext : q = p + 1
  · subst hnext
    rw [Nat.add_sub_cancel] at hlow hodd'
    omega
  · have hgap : decimalUnits (p + 1) ≤ decimalUnits (q - 1) :=
      strictMono_decimalUnits.monotone (by omega)
    have hlt : decimalUnits p < decimalUnits q := strictMono_decimalUnits h
    omega

theorem reaches_unique {p q t : Nat} (hp : reaches p t) (hq : reaches q t) : p = q := by
  obtain h | h | h := Nat.lt_trichotomy p q
  · rw [not_reaches_of_lt h hp] at hq
    contradiction
  · exact h
  · rw [not_reaches_of_lt h hq] at hp
    contradiction

theorem reaches_of_onGrid? {p step t : Nat} (h : onGrid? p step = some t) : reaches p t := by
  simp only [onGrid?] at h
  split at h
  · rename_i hboth
    rw [Bool.and_eq_true] at hboth
    obtain rfl := Option.some.inj h
    split
    · exact hboth.1
    · exact hboth.2
  · split at h
    · obtain rfl := Option.some.inj h
      assumption
    · split at h
      · obtain rfl := Option.some.inj h
        assumption
      · contradiction

theorem reaches_shortest {p : Nat} (hp : 0 < p) : reaches p (shortest p) := by
  simp only [shortest]
  cases hfind : (List.range 17).findSome? fun i =>
      onGrid? p (Nat.pow 10 ((Nat.toDigits 10 (decimalUnits p)).length - (i + 1))) with
  | none => exact reaches_self hp
  | some t =>
    obtain ⟨i, -, hi⟩ := List.exists_of_findSome?_eq_some hfind
    exact reaches_of_onGrid? hi

theorem shortest_pos {p : Nat} (hp : 0 < p) : 0 < shortest p := by
  obtain ⟨hlow, -⟩ := reaches_bounds (reaches_shortest hp)
  have hlt : decimalUnits (p - 1) < decimalUnits p := strictMono_decimalUnits (by omega)
  omega

end Frontend.Binary64
