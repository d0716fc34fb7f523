import Frontend.Numeral

namespace Frontend.Numeral

/-- Reading digits one by one stays below the limit exactly if the whole number does. -/
theorem readDigits_digits (limit : Nat) (fault : IntegerFault) (n : Nat) (hn : n ≤ limit)
    (ds : List Char) (hd : ∀ d ∈ ds, d.isDigit) :
    readDigits limit fault n ds =
      if Nat.ofDigitChars 10 ds n ≤ limit then .ok (Nat.ofDigitChars 10 ds n)
      else .error fault := by
  induction ds generalizing n with
  | nil => simp [readDigits, hn]
  | cons d ds ih =>
    have hdd : d.isDigit := hd d (by simp)
    have hds : ∀ d ∈ ds, d.isDigit := fun e he => hd e (by simp [he])
    simp only [readDigits, hdd, ↓reduceIte, Nat.ofDigitChars_cons]
    by_cases hm : 10 * n + (d.toNat - '0'.toNat) ≤ limit
    · rw [if_pos hm, ih _ hm hds]
    · have hgrow : 10 * n + (d.toNat - '0'.toNat) ≤
          Nat.ofDigitChars 10 ds (10 * n + (d.toNat - '0'.toNat)) := by
        rw [Nat.ofDigitChars_eq_ofDigitChars_zero]
        have hpow : 0 < 10 ^ ds.length := Nat.pow_pos (by decide)
        exact Nat.le_trans (Nat.le_mul_of_pos_left _ hpow) (Nat.le_add_right _ _)
      rw [if_neg hm, if_neg (by omega)]

theorem toInt_ofInt_of_le {n : Nat} (h : n ≤ maxInt) : (Int64.ofInt n).toInt = n := by
  rw [Int64.toInt_ofInt_of_le]
  · omega
  · rw [maxInt, Nat.pow_eq] at h
    omega

theorem readInteger_digits {ds : List Char} (hne : ds ≠ []) (hd : ∀ d ∈ ds, d.isDigit) :
    readInteger ds =
      if Nat.ofDigitChars 10 ds 0 ≤ maxInt then .ok (Int64.ofInt (Nat.ofDigitChars 10 ds 0))
      else .error .tooLarge := by
  have hs : readInteger ds = (readDigits maxInt .tooLarge 0 ds).map fun n => Int64.ofInt n := by
    cases ds with
    | nil => contradiction
    | cons d ds =>
      have hdd : d.isDigit := hd d (by simp)
      have hplus : d ≠ '+' := by rintro rfl; simp at hdd
      have hminus : d ≠ '-' := by rintro rfl; simp at hdd
      unfold readInteger
      split <;> simp_all
  rw [hs, readDigits_digits maxInt .tooLarge 0 (Nat.zero_le _) ds hd]
  split <;> rfl

theorem toList_toString (n : Int) :
    (toString n).toList = (if n < 0 then ['-'] else []) ++ Nat.toDigits 10 n.natAbs := by
  cases n with
  | ofNat m =>
    change m.repr.toList = _
    rw [Nat.repr_eq_ofList_toDigits, String.toList_ofList, if_neg (by simp)]
    rfl
  | negSucc m =>
    change ("-" ++ (m + 1).repr).toList = _
    rw [Nat.repr_eq_ofList_toDigits, String.toList_append, if_pos (Int.negSucc_lt_zero m)]
    simp

theorem isDigit_toDigits (n : Nat) : ∀ c ∈ Nat.toDigits 10 n, c.isDigit :=
  fun _ hc => Nat.isDigit_of_mem_toDigits (by decide) (by decide) hc

def readSigned : List Char → Int
  | '-' :: ds => -(Nat.ofDigitChars 10 ds 0 : Int)
  | ds => Nat.ofDigitChars 10 ds 0

theorem readSigned_of_isDigit {ds : List Char} (h : ∀ d ∈ ds, d.isDigit) :
    readSigned ds = Nat.ofDigitChars 10 ds 0 := by
  unfold readSigned
  split
  · have hdash := h '-' (by simp)
    contradiction
  · rfl

theorem readSigned_toString (n : Int) : readSigned (toString n).toList = n := by
  rw [toList_toString]
  split
  · change -(Nat.ofDigitChars 10 (Nat.toDigits 10 n.natAbs) 0 : Int) = n
    rw [Nat.ofDigitChars_ten_toDigits]
    omega
  · rw [List.nil_append, readSigned_of_isDigit (isDigit_toDigits _), Nat.ofDigitChars_ten_toDigits]
    omega

theorem toString_injective {m n : Int64} (h : toString m = toString n) : m = n := by
  have hread := congrArg (fun s => readSigned s.toList) h
  change readSigned (toString m.toInt).toList = readSigned (toString n.toInt).toList at hread
  rw [readSigned_toString, readSigned_toString] at hread
  exact Int64.toInt_inj.mp hread

theorem chars_toString (n : Int) : ∀ c ∈ (toString n).toList, c.isDigit ∨ c = '-' := by
  rw [toList_toString, List.forall_mem_append]
  refine ⟨?_, fun c hc => .inl (isDigit_toDigits _ c hc)⟩
  split <;> simp

end Frontend.Numeral
