import Frontend.Proofs.CharClass
import Mathlib.Data.List.TakeWhile

namespace Frontend.Lexeme

/-- What stands at the start of a text, by its first character and what follows it. -/
inductive Starts (c : Char) (rest : List Char) : Lexeme → Prop
  | blanks (hc : isBlank c) : Starts c rest (blanks (c :: rest.takeWhile isBlank))
  | lineFeed (hc : c = '\n') : Starts c rest lineFeed
  | carriageReturn (hc : c = '\r') : Starts c rest (carriageReturn (rest.head? = some '\n'))
  | punctuation {p : Punctuation} (hc : p.char = c) : Starts c rest (punctuation p)
  | pair {op : Operator} {d : Char} (hc : op.symbol.toList = [c, d]) (hd : rest.head? = some d) :
      Starts c rest (operator op)
  | single {op : Operator} (hc : op.symbol.toList = [c])
      (hd : ∀ (d : Char) (op' : Operator), rest.head? = some d → op'.symbol.toList ≠ [c, d]) :
      Starts c rest (operator op)
  | keyword {k : Keyword} {d : Char} (hc : k.text.toList = c :: rest.takeWhile Char.isAlpha)
      (hd : (rest.dropWhile Char.isAlpha).head? = some d) (hb : isBlank d) :
      Starts c rest (keyword k)
  | word (hc : c.isAlpha)
      (hk : ∀ (k : Keyword) (d : Char), k.text.toList = c :: rest.takeWhile Char.isAlpha →
        (rest.dropWhile Char.isAlpha).head? = some d → isBlank d = false) :
      Starts c rest (word (c :: rest.takeWhile Char.isAlpha))
  | decimal {after : List Char} (hc : c.isDigit) (hd : rest.dropWhile Char.isDigit = '.' :: after) :
      Starts c rest (decimal (c :: rest.takeWhile Char.isDigit) (after.takeWhile Char.isDigit))
  | integer (hc : c.isDigit) (hd : (rest.dropWhile Char.isDigit).head? ≠ some '.') :
      Starts c rest (integer (c :: rest.takeWhile Char.isDigit))
  | unknown (hc : isRecognized c = false) : Starts c rest (unknown c)

theorem forall_mem_run {f : Char → Bool} {c : Char} (hc : f c) (rest : List Char) :
    ∀ d ∈ c :: rest.takeWhile f, f d := by
  intro d hd
  rw [← List.takeWhile_cons_of_pos hc] at hd
  exact List.mem_takeWhile_imp hd

theorem run_isPrefix {f : Char → Bool} {c : Char} (rest : List Char) :
    c :: rest.takeWhile f <+: c :: rest :=
  List.cons_prefix_cons.mpr ⟨rfl, List.takeWhile_prefix f⟩

theorem takeWhile_dropWhile_run {f : Char → Bool} {front back : List Char} (hf : ∀ c ∈ front, f c)
    (hb : ∀ d, back.head? = some d → f d = false) :
    (front ++ back).takeWhile f = front ∧ (front ++ back).dropWhile f = back := by
  rw [List.takeWhile_append_of_pos hf, List.dropWhile_append_of_pos hf]
  cases back with
  | nil => simp
  | cons d back => simp [hb d rfl]

theorem forall_head?_cons {f : Char → Bool} {d : Char} (hd : f d = false) (back : List Char) :
    ∀ e, (d :: back).head? = some e → f e = false := by
  simpa using hd

theorem operatorAt?_starts {c : Char} {rest : List Char} {op : Operator}
    (h : operatorAt? c rest = some op) : Starts c rest (operator op) := by
  rw [operatorAt?_eq] at h
  obtain hpair | ⟨hnone, hsingle⟩ := Option.or_eq_some_iff.mp h
  · obtain ⟨d, hd, ho⟩ := Option.bind_eq_some_iff.mp hpair
    exact .pair (Operator.ofSymbol?_ofList_eq_some_iff.mp ho) hd
  · refine .single (Operator.ofSymbol?_ofList_eq_some_iff.mp hsingle) ?_
    intro d op' hd ho
    rw [hd, Option.bind_some, Operator.ofSymbol?_ofList_eq_some_iff.mpr ho] at hnone
    contradiction

theorem keyword?_eq_some_iff {letters after : List Char} {k : Keyword} :
    keyword? letters after = some k ↔
      k.text.toList = letters ∧ ∃ d, after.head? = some d ∧ isBlank d := by
  constructor
  · intro h
    refine ⟨text_of_keyword? h, ?_⟩
    unfold keyword? at h
    split at h
    · rename_i d _
      split at h
      · exact ⟨d, rfl, by assumption⟩
      · contradiction
    · contradiction
  · rintro ⟨rfl, d, hd, hb⟩
    cases after with
    | nil => simp at hd
    | cons e after =>
      obtain rfl : e = d := by simpa using hd
      simp only [keyword?, hb, ↓reduceIte]
      cases k <;> decide

theorem wordAt_starts {c : Char} (rest : List Char) (hc : c.isAlpha) :
    Starts c rest (wordAt c rest) := by
  rw [wordAt]
  split
  · rename_i k hk
    obtain ⟨ht, d, hd, hb⟩ := keyword?_eq_some_iff.mp hk
    exact .keyword ht hd hb
  · rename_i hk
    refine .word hc fun k d ht hd => ?_
    cases hb : isBlank d with
    | false => rfl
    | true =>
      have hs := keyword?_eq_some_iff.mpr ⟨ht, d, hd, hb⟩
      rw [hk] at hs
      contradiction

theorem numberAt_starts {c : Char} (rest : List Char) (hc : c.isDigit) :
    Starts c rest (numberAt c rest) := by
  unfold numberAt
  split
  · rename_i after ha
    exact .decimal hc ha
  · rename_i hn
    refine .integer hc fun hh => ?_
    obtain ⟨after, ha⟩ := List.head?_eq_some_iff.mp hh
    exact hn after ha

theorem not_mem_marks {c : Char} {rest : List Char} (hp : Punctuation.ofPattern? c = none)
    (ho : operatorAt? c rest = none) : c ∉ marks := by
  have hall : marks.all fun c => (Punctuation.ofPattern? c).isSome ||
      (Operator.ofSymbol? (String.ofList [c])).isSome := by decide
  intro hc
  obtain h | h := (Bool.or_eq_true ..).mp (List.all_eq_true.mp hall c hc)
  · simp [hp] at h
  · rw [operatorAt?_eq, Option.or_eq_none_iff] at ho
    rw [ho.2] at h
    contradiction

theorem start_starts (c : Char) (rest : List Char) : Starts c rest (start c rest) := by
  rw [start]
  split
  · exact .blanks (by assumption)
  · split
    · exact .lineFeed (by assumption)
    · split
      · exact .carriageReturn (by assumption)
      · split
        · rename_i p _ hp
          exact .punctuation (Punctuation.ofPattern?_eq_some_iff.mp hp)
        · rename_i op _ ho
          exact operatorAt?_starts ho
        · rename_i hp ho
          split
          · exact wordAt_starts rest (by assumption)
          · split
            · exact numberAt_starts rest (by assumption)
            · refine .unknown ?_
              have hm := not_mem_marks hp ho
              simp_all [isRecognized]

def charClass : Lexeme → CharClass
  | blanks _ => .blank
  | lineFeed => .lineFeed
  | carriageReturn _ => .carriageReturn
  | punctuation _ => .punctuation
  | operator _ => .operator
  | keyword _ | word _ => .letter
  | integer _ | decimal _ _ => .digit
  | unknown _ => .other

theorem Starts.classOf_eq {c : Char} {rest : List Char} {l : Lexeme} (h : Starts c rest l) :
    classOf c = l.charClass := by
  cases h with
  | blanks hc => simp [classOf, charClass, hc]
  | lineFeed hc | carriageReturn hc =>
    subst hc
    rfl
  | punctuation hc =>
    rw [← hc]
    exact classOf_char _
  | pair hc | single hc => exact classOf_symbol hc
  | @keyword k _ hc =>
    exact classOf_of_isAlpha (k.isAlpha_text c (by simp [hc]))
  | word hc => exact classOf_of_isAlpha hc
  | decimal hc | integer hc => exact classOf_of_isDigit hc
  | unknown hc => exact classOf_of_not_isRecognized hc

theorem Starts.classOf_mem {c d : Char} {rest : List Char} {l : Lexeme} (h : Starts c rest l)
    (hd : d ∈ l.chars) : classOf d = l.charClass ∨ d = '.' ∧ l.charClass = .digit := by
  cases h with
  | blanks hc => exact .inl (classOf_of_isBlank (forall_mem_run hc rest d hd))
  | lineFeed | carriageReturn =>
    obtain rfl := List.mem_singleton.mp hd
    exact .inl rfl
  | punctuation =>
    obtain rfl := List.mem_singleton.mp hd
    exact .inl (classOf_char _)
  | pair | single => exact .inl (classOf_of_mem_symbol hd)
  | @keyword k => exact .inl (classOf_of_isAlpha (k.isAlpha_text d hd))
  | word hc => exact .inl (classOf_of_isAlpha (forall_mem_run hc rest d hd))
  | decimal hc =>
    obtain hd | hd := List.mem_append.mp hd
    · exact .inl (classOf_of_isDigit (forall_mem_run hc rest d hd))
    · obtain rfl | hd := List.mem_cons.mp hd
      · exact .inr ⟨rfl, rfl⟩
      · exact .inl (classOf_of_isDigit (List.mem_takeWhile_imp hd))
  | integer hc => exact .inl (classOf_of_isDigit (forall_mem_run hc rest d hd))
  | unknown hc =>
    obtain rfl := List.mem_singleton.mp hd
    exact .inl (classOf_of_not_isRecognized hc)

theorem Starts.eq_start {c : Char} {rest : List Char} {l : Lexeme} (h : Starts c rest l) :
    start c rest = l := by
  have h' := start_starts c rest
  have hclass := h'.classOf_eq.symm.trans h.classOf_eq
  generalize start c rest = l' at h' hclass
  cases h' <;> cases h <;> try cases hclass
  case blanks.blanks | lineFeed.lineFeed | carriageReturn.carriageReturn | word.word |
      integer.integer | unknown.unknown => rfl
  case punctuation.punctuation p hc p' hc' =>
    rw [Punctuation.char_injective (hc.trans hc'.symm)]
  case pair.pair op d hc hd op' d' hc' hd' =>
    obtain rfl : d = d' := Option.some.inj (hd.symm.trans hd')
    rw [Operator.eq_of_toList_symbol (hc.trans hc'.symm)]
  case pair.single op d hc hd op' hc' hd' => exact absurd hc (hd' d op hd)
  case single.pair op hc hd op' d' hc' hd' => exact absurd hc' (hd d' op' hd')
  case single.single op hc hd op' hc' hd' =>
    rw [Operator.eq_of_toList_symbol (hc.trans hc'.symm)]
  case keyword.keyword k d hc hd hb k' d' hc' hd' hb' =>
    rw [Keyword.eq_of_toList_text (hc.trans hc'.symm)]
  case keyword.word k d hc hd hb _ hk =>
    rw [hk k d hc hd] at hb
    contradiction
  case word.keyword _ hk k d hc hd hb =>
    rw [hk k d hc hd] at hb
    contradiction
  case decimal.decimal after _ hd after' _ hd' =>
    rw [hd, List.cons.injEq] at hd'
    rw [hd'.2]
  case decimal.integer after _ hd _ hd' => exact absurd (by rw [hd]; rfl) hd'
  case integer.decimal _ hd after _ hd' => exact absurd (by rw [hd']; rfl) hd

end Frontend.Lexeme
