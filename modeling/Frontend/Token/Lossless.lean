import Frontend.Token.Lexeme

namespace Frontend.Lexeme

theorem symbol_isPrefix {c : Char} {rest : List Char} {op : Operator}
    (h : operatorAt? c rest = some op) : op.symbol.toList <+: c :: rest := by
  rw [operatorAt?_eq] at h
  obtain hpair | ⟨-, hsingle⟩ := Option.or_eq_some_iff.mp h
  · obtain ⟨d, hd, hpair⟩ := Option.bind_eq_some_iff.mp hpair
    obtain ⟨tail, rfl⟩ := List.head?_eq_some_iff.mp hd
    simp [Operator.ofSymbol?_ofList_eq_some_iff.mp hpair]
  · simp [Operator.ofSymbol?_ofList_eq_some_iff.mp hsingle]

theorem text_of_keyword? {letters after : List Char} {k : Keyword}
    (h : keyword? letters after = some k) : k.text.toList = letters := by
  unfold keyword? at h
  split at h
  · split at h
    · rw [Keyword.lookup_patterns_eq_some_iff.mp h, String.toList_ofList]
    · contradiction
  · contradiction

theorem wordAt_isPrefix (c : Char) (rest : List Char) : (wordAt c rest).chars <+: c :: rest := by
  have hp : c :: rest.takeWhile Char.isAlpha <+: c :: rest := by
    simpa using List.takeWhile_prefix _
  unfold wordAt
  split
  · rename_i k hk
    simpa only [chars, text_of_keyword? hk] using hp
  · exact hp

theorem numberAt_isPrefix (c : Char) (rest : List Char) :
    (numberAt c rest).chars <+: c :: rest := by
  unfold numberAt
  split
  · rename_i after ha
    refine ⟨after.dropWhile Char.isDigit, ?_⟩
    have hw := List.takeWhile_append_dropWhile (p := Char.isDigit) (l := rest)
    have hf := List.takeWhile_append_dropWhile (p := Char.isDigit) (l := after)
    rw [ha] at hw
    simp [chars, hf, hw]
  · simpa [chars] using List.takeWhile_prefix _

theorem start_isPrefix (c : Char) (rest : List Char) : (start c rest).chars <+: c :: rest := by
  unfold start
  split
  · simpa [chars] using List.takeWhile_prefix _
  · split
    · simp_all [chars]
    · split
      · simp_all [chars]
      · split
        · rename_i p hp
          have hc : p.char = c := Punctuation.ofPattern?_eq_some_iff.mp hp
          simp [chars, hc]
        · rename_i hop
          exact symbol_isPrefix hop
        · split
          · exact wordAt_isPrefix c rest
          · split
            · exact numberAt_isPrefix c rest
            · simp [chars]

theorem start_chars_ne_nil (c : Char) (rest : List Char) : (start c rest).chars ≠ [] := by
  have hop : ∀ op : Operator, op.symbol.toList ≠ [] := by
    intro op
    cases op <;> simp [Operator.symbol]
  have hk : ∀ k : Keyword, k.text.toList ≠ [] := by
    intro k
    cases k <;> simp [Keyword.text]
  unfold start wordAt numberAt
  repeat' split
  all_goals simp [chars, hop, hk]

theorem start_chars_append (c : Char) (rest : List Char) :
    (start c rest).chars ++ rest.drop ((start c rest).chars.length - 1) = c :: rest := by
  obtain ⟨after, ha⟩ := start_isPrefix c rest
  cases hs : (start c rest).chars with
  | nil => exact absurd hs (start_chars_ne_nil c rest)
  | cons d ds =>
    rw [hs] at ha
    obtain ⟨rfl, rfl⟩ : d = c ∧ ds ++ after = rest := by simpa using ha
    simp

/-- No text is lost between lexemes or taken twice. -/
theorem flatMap_chars_ofText (cs : List Char) : (ofText cs).flatMap chars = cs := by
  cases cs with
  | nil => rfl
  | cons c rest =>
    rw [ofText_cons, List.flatMap_cons, flatMap_chars_ofText, start_chars_append]
termination_by cs.length
decreasing_by simp only [List.length_drop, List.length_cons]; omega

end Frontend.Lexeme
