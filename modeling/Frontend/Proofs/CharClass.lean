import Frontend.Token.Lossless

namespace Frontend

theorem Keyword.eq_of_toList_text {k k' : Keyword} (h : k.text.toList = k'.text.toList) :
    k = k' := by
  cases k <;> cases k' <;> first | rfl | simp [text] at h

theorem Keyword.isAlpha_text (k : Keyword) : ∀ c ∈ k.text.toList, c.isAlpha := by
  rw [← List.all_eq_true]
  cases k <;> decide

namespace Lexeme

def marks : List Char :=
  ['(', ')', '\x7b', '\x7d', '[', ']', ',', '.', ':', '"', '\'',
   '+', '-', '*', '/', '%', '^', '&', '|', '=', '!', '<', '>']

/-- The characters that can stand in a source without being reported. -/
def isRecognized (c : Char) : Bool :=
  isBlank c || c = '\n' || c = '\r' || c.isAlpha || c.isDigit || c ∈ marks

inductive CharClass
  | blank | lineFeed | carriageReturn | punctuation | operator | letter | digit | other
  deriving DecidableEq, Repr

def classOf (c : Char) : CharClass :=
  if isBlank c then .blank
  else if c = '\n' then .lineFeed
  else if c = '\r' then .carriageReturn
  else if (Punctuation.ofChar? c).isSome then .punctuation
  else if (Operator.ofSymbol? (String.ofList [c])).isSome then .operator
  else if c.isAlpha then .letter
  else if c.isDigit then .digit
  else .other

theorem isBlank_of_classOf {c : Char} (h : classOf c = .blank) : isBlank c := by
  by_cases hc : isBlank c
  · exact hc
  · simp only [classOf, hc] at h
    repeat' split at h
    all_goals contradiction

theorem mem_marks_of_mem_symbol {op : Operator} {c : Char} (h : c ∈ op.symbol.toList) :
    c ∈ marks := by
  have hall : ∀ op ∈ Operator.all, op.symbol.toList.all (· ∈ marks) := by decide
  simpa using List.all_eq_true.mp (hall op op.mem_all) c h

theorem classOf_char (p : Punctuation) : classOf p.char = .punctuation := by
  cases p <;> decide

theorem classOf_of_isBlank {c : Char} (h : isBlank c) : classOf c = .blank := by
  rw [classOf, if_pos h]

theorem classOf_of_mem_symbol {op : Operator} {c : Char} (h : c ∈ op.symbol.toList) :
    classOf c = .operator := by
  have hall : ∀ op ∈ Operator.all, op.symbol.toList.all (classOf · = .operator) := by decide
  simpa using List.all_eq_true.mp (hall op op.mem_all) c h

theorem classOf_symbol {op : Operator} {c : Char} {cs : List Char}
    (h : op.symbol.toList = c :: cs) : classOf c = .operator := by
  have hc : c ∈ op.symbol.toList := by simp [h]
  exact classOf_of_mem_symbol hc

theorem classOf_of_not_special {c : Char} (h : c ∉ [' ', '\t', '\n', '\r'] ++ marks) :
    classOf c = if c.isAlpha then .letter else if c.isDigit then .digit else .other := by
  have hp : Punctuation.ofChar? c = none := by
    cases hp : Punctuation.ofChar? c with
    | none => rfl
    | some p =>
      have hm : p.char ∈ marks := by cases p <;> decide
      rw [Punctuation.ofChar?_eq_some_iff.mp hp] at hm
      simp [hm] at h
  have ho : Operator.ofSymbol? (String.ofList [c]) = none := by
    cases ho : Operator.ofSymbol? (String.ofList [c]) with
    | none => rfl
    | some op =>
      have hc : c ∈ op.symbol.toList := by simp [Operator.ofSymbol?_ofList_eq_some_iff.mp ho]
      have hm := mem_marks_of_mem_symbol hc
      simp [hm] at h
  simp_all [classOf, isBlank]

theorem classOf_of_isAlpha {c : Char} (h : c.isAlpha) : classOf c = .letter := by
  have hall : ([' ', '\t', '\n', '\r'] ++ marks).all (!·.isAlpha) := by decide
  have hn : c ∉ [' ', '\t', '\n', '\r'] ++ marks := by
    intro hm
    simpa [h] using List.all_eq_true.mp hall c hm
  rw [classOf_of_not_special hn, if_pos h]

theorem classOf_of_isDigit {c : Char} (h : c.isDigit) : classOf c = .digit := by
  have hall : ([' ', '\t', '\n', '\r'] ++ marks).all (!·.isDigit) := by decide
  have hn : c ∉ [' ', '\t', '\n', '\r'] ++ marks := by
    intro hm
    simpa [h] using List.all_eq_true.mp hall c hm
  have ha : ¬c.isAlpha := by
    intro ha
    have hletter : (decide (c.val ≥ 'A'.val ∧ c.val ≤ 'Z'.val) ||
        (c.val ≥ 'a'.val && c.val ≤ 'z'.val)) = true := ha
    have hdigit : (c.val ≥ '0'.val && c.val ≤ '9'.val) = true := h
    simp only [Bool.or_eq_true, Bool.and_eq_true, decide_eq_true_eq] at hletter hdigit
    grind
  rw [classOf_of_not_special hn, if_neg ha, if_pos h]

theorem classOf_of_not_isRecognized {c : Char} (h : isRecognized c = false) :
    classOf c = .other := by
  rw [classOf_of_not_special] <;> simp_all [isRecognized, isBlank]

end Lexeme

end Frontend
