import Frontend.Expr
import Frontend.Proofs.FloatText
import Frontend.Proofs.Literal

namespace Frontend

/-- The characters that part the text of an expression. No literal and no operator has one. -/
def isBreak (c : Char) : Bool := Lexeme.isBlank c || c = '(' || c = ')'

theorem mem_of_isBreak {c : Char} (h : isBreak c) : c ∈ [' ', '\t', '(', ')'] := by
  simpa [isBreak, Lexeme.isBlank, or_assoc] using h

def Breaks (rest : List Char) : Prop := ∀ d, rest.head? = some d → isBreak d

theorem breaks_cons {c : Char} (hc : isBreak c) (rest : List Char) : Breaks (c :: rest) := by
  rintro d ⟨⟩
  exact hc

theorem run_unique_of_breaks {x y rest rest' : List Char} (h : x ++ rest = y ++ rest')
    (hx : ∀ c ∈ x, isBreak c = false) (hy : ∀ c ∈ y, isBreak c = false) (hr : Breaks rest)
    (hr' : Breaks rest') : x = y ∧ rest = rest' := by
  apply run_unique (f := fun c => !isBreak c) h
  · simpa using hx
  · simpa using hy
  · intro d hd
    simpa using hr d hd
  · intro d hd
    simpa using hr' d hd

theorem Operator.not_isBreak_symbol (op : Operator) :
    ∀ c ∈ op.symbol.toList, isBreak c = false := by
  apply forall_eq_false_of_any
  cases op <;> decide

namespace Value

def isNaN : Value → Bool
  | float x => x.isNaN
  | _ => false

def isNumeric (c : Char) : Bool := c.isDigit || c ∈ ['.', 'e', '-', 'i', 'n', 'f']

theorem isNumeric_int (n : Int64) : ∀ c ∈ (int n).text.toList, isNumeric c := by
  intro c hc
  obtain hd | rfl := Numeral.chars_toString n.toInt c hc
  · simp [isNumeric, hd]
  · rfl

theorem isNumeric_float {x : Binary64} (hx : x.isNaN = false) :
    ∀ c ∈ (float x).text.toList, isNumeric c := by
  intro c hc
  rw [isNumeric, Bool.or_eq_true, decide_eq_true_eq]
  exact Binary64.text_chars hx c hc

theorem not_isBreak_of_isNumeric {c : Char} (h : isNumeric c) : isBreak c = false := by
  have hall : ∀ c ∈ [' ', '\t', '(', ')'], isNumeric c = false :=
    forall_eq_false_of_any (by decide)
  rw [Bool.eq_false_iff]
  intro hb
  rw [hall c (mem_of_isBreak hb)] at h
  contradiction

theorem not_isBreak_text {v : Value} (hv : v.isNaN = false) :
    ∀ c ∈ v.text.toList, isBreak c = false := by
  cases v with
  | int n => exact fun c hc => not_isBreak_of_isNumeric (isNumeric_int n c hc)
  | float x => exact fun c hc => not_isBreak_of_isNumeric (isNumeric_float hv c hc)
  | bool b => cases b <;> exact forall_eq_false_of_any (by decide)
  | none => exact forall_eq_false_of_any (by decide)

theorem text_ne_nil {v : Value} (hv : v.isNaN = false) : v.text.toList ≠ [] := by
  cases v with
  | int n =>
    change (toString n.toInt).toList ≠ []
    rw [Numeral.toList_toString]
    simp [Nat.toDigits_ne_nil]
  | float x =>
    obtain ⟨c, rest, hc, -⟩ := x.unsignedText_head
    change x.text.toList ≠ []
    rw [Binary64.toList_text hv, hc]
    simp
  | bool b => cases b <;> decide
  | none => decide

def kindOfText (cs : List Char) : Kind :=
  if 'N' ∈ cs then .none
  else if 'u' ∈ cs ∨ 'l' ∈ cs then .bool
  else if '.' ∈ cs ∨ 'e' ∈ cs ∨ 'i' ∈ cs then .float
  else .int

theorem kindOfText_int (n : Int64) : kindOfText (int n).text.toList = .int := by
  have hchars : ∀ c ∈ (int n).text.toList, c.isDigit ∨ c = '-' := Numeral.chars_toString n.toInt
  generalize (int n).text.toList = cs at hchars ⊢
  simp [kindOfText, mt (hchars 'N') (by decide), mt (hchars 'u') (by decide),
    mt (hchars 'l') (by decide), mt (hchars '.') (by decide), mt (hchars 'e') (by decide),
    mt (hchars 'i') (by decide)]

theorem kindOfText_float {x : Binary64} (hx : x.isNaN = false) :
    kindOfText (float x).text.toList = .float := by
  have hchars := isNumeric_float hx
  have hmark : '.' ∈ (float x).text.toList ∨ 'e' ∈ (float x).text.toList ∨
      'i' ∈ (float x).text.toList := by
    obtain ⟨c, hc, hm⟩ := x.unsignedText_mark
    have hmem : c ∈ (float x).text.toList := by
      change c ∈ x.text.toList
      rw [Binary64.toList_text hx]
      exact List.mem_append_right _ hc
    simp only [List.mem_cons, List.not_mem_nil, or_false] at hm
    obtain rfl | rfl | rfl := hm
    · exact .inl hmem
    · exact .inr (.inl hmem)
    · exact .inr (.inr hmem)
  simp [kindOfText, mt (hchars 'N') (by decide), mt (hchars 'u') (by decide),
    mt (hchars 'l') (by decide), hmark]

theorem kindOfText_text {v : Value} (hv : v.isNaN = false) :
    kindOfText v.text.toList = v.kind := by
  cases v with
  | int n => exact kindOfText_int n
  | float x => exact kindOfText_float hv
  | bool b => cases b <;> decide
  | none => decide

theorem text_injective {v w : Value} (hv : v.isNaN = false) (hw : w.isNaN = false)
    (h : v.text = w.text) : v = w := by
  have hkind : v.kind = w.kind := by rw [← kindOfText_text hv, h, kindOfText_text hw]
  cases v <;> cases w <;> try cases hkind
  case int.int m n => rw [Numeral.toString_injective h]
  case float.float x y => rw [Binary64.text_injective hv hw h]
  case bool.bool a b =>
    cases a <;> cases b
    case false.false | true.true => rfl
    case false.true | true.false => exact absurd h (by decide)
  case none.none => rfl

end Value

namespace Expr

def literals : Expr → List Value
  | literal v => [v]
  | binary _ lhs rhs => lhs.literals ++ rhs.literals

theorem toList_text_binary (op : Operator) (lhs rhs : Expr) :
    (binary op lhs rhs).text.toList = '(' :: (lhs.text.toList ++
      ' ' :: (op.symbol.toList ++ ' ' :: (rhs.text.toList ++ [')']))) := by
  simp [text]

theorem text_literal_ne_binary {v : Value} (hv : v.isNaN = false) {op : Operator} {lhs rhs : Expr}
    {rest rest' : List Char} :
    (literal v).text.toList ++ rest ≠ (binary op lhs rhs).text.toList ++ rest' := by
  intro h
  obtain ⟨c, cs, hc⟩ := List.exists_cons_of_ne_nil (Value.text_ne_nil hv)
  have hbreak := Value.not_isBreak_text hv c (by simp [hc])
  change v.text.toList ++ rest = _ at h
  rw [hc, toList_text_binary] at h
  obtain rfl : c = '(' := (List.cons.inj h).1
  contradiction

/-- The text of an expression is told from what follows it, and tells the expression. -/
theorem eq_of_text_append {e f : Expr} (he : ∀ v ∈ e.literals, v.isNaN = false)
    (hf : ∀ v ∈ f.literals, v.isNaN = false) {rest rest' : List Char} (hr : Breaks rest)
    (hr' : Breaks rest') (h : e.text.toList ++ rest = f.text.toList ++ rest') :
    e = f ∧ rest = rest' := by
  -- the invariant is that a break follows: it ends a literal, and the parentheses end the rest
  induction e generalizing f rest rest' with
  | literal v =>
    have hv := he v (by simp [literals])
    cases f with
    | literal w =>
      have hw := hf w (by simp [literals])
      obtain ⟨htext, hrest⟩ := run_unique_of_breaks h (Value.not_isBreak_text hv)
        (Value.not_isBreak_text hw) hr hr'
      rw [Value.text_injective hv hw (String.toList_injective htext)]
      exact ⟨rfl, hrest⟩
    | binary op lhs rhs => exact absurd h (text_literal_ne_binary hv)
  | binary op lhs rhs ihl ihr =>
    cases f with
    | literal w => exact absurd h.symm (text_literal_ne_binary (hf w (by simp [literals])))
    | binary op' lhs' rhs' =>
      simp only [literals, List.forall_mem_append] at he hf
      simp only [toList_text_binary, List.cons_append, List.append_assoc, List.nil_append] at h
      obtain ⟨rfl, hop⟩ := ihl he.1 hf.1 (breaks_cons rfl _) (breaks_cons rfl _)
        (List.cons.inj h).2
      obtain ⟨hsymbol, hrhs⟩ := run_unique_of_breaks (List.cons.inj hop).2 op.not_isBreak_symbol
        op'.not_isBreak_symbol (breaks_cons rfl _) (breaks_cons rfl _)
      obtain ⟨rfl, hrest⟩ := ihr he.2 hf.2 (breaks_cons rfl _) (breaks_cons rfl _)
        (List.cons.inj hrhs).2
      rw [Operator.eq_of_toList_symbol hsymbol]
      exact ⟨rfl, (List.cons.inj hrest).2⟩

/-- Expressions without NaN have the same text only if they are the same tree. -/
theorem text_eq_iff {e f : Expr} (he : ∀ v ∈ e.literals, v.isNaN = false)
    (hf : ∀ v ∈ f.literals, v.isNaN = false) : e.text = f.text ↔ e = f := by
  refine ⟨fun h => ?_, fun h => by rw [h]⟩
  have hcs : e.text.toList ++ [] = f.text.toList ++ [] := by rw [h]
  exact (eq_of_text_append he hf (by simp [Breaks]) (by simp [Breaks]) hcs).1

theorem text_eq_iff_grouping :
    (binary .dash (literal (.int (-1)))
        (binary .dash (literal (.int (-2))) (literal (.float ⟨0⟩)))).text ≠
      (binary .dash (binary .dash (literal (.int (-1))) (literal (.int (-2))))
        (literal (.int 0))).text := by
  rw [ne_eq, text_eq_iff (by decide) (by decide)]
  simp

end Expr

end Frontend
