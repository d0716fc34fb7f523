import Frontend.Token

namespace Frontend

theorem mem_of_lookup {α : Type} {patterns : List (String × α)} {s : String} {a : α}
    (h : patterns.lookup s = some a) : (s, a) ∈ patterns := by
  obtain ⟨before, after, rfl, -⟩ := List.lookup_eq_some_iff.mp h
  simp

namespace Punctuation

/-- The marks that are tokens by themselves. `ofChar?` says which. -/
def patterns : List Char := ['(', ')', '\x7b', '\x7d', '[', ']', ',', '.', ':', '"', '\'']

def ofPattern? (c : Char) : Option Punctuation := if c ∈ patterns then ofChar? c else none

theorem mem_patterns_iff {c : Char} : c ∈ patterns ↔ ∃ p : Punctuation, p.char = c := by
  constructor
  · intro h
    have hall : patterns.all fun c => (ofChar? c).isSome := by decide
    obtain ⟨p, hp⟩ := Option.isSome_iff_exists.mp (List.all_eq_true.mp hall c h)
    exact ⟨p, ofChar?_eq_some_iff.mp hp⟩
  · rintro ⟨p, rfl⟩
    cases p <;> decide

theorem ofPattern?_eq_some_iff {c : Char} {p : Punctuation} :
    ofPattern? c = some p ↔ p.char = c := by
  rw [ofPattern?, Option.ite_none_right_eq_some, ofChar?_eq_some_iff]
  constructor
  · exact And.right
  · rintro rfl
    exact ⟨mem_patterns_iff.mpr ⟨p, rfl⟩, rfl⟩

end Punctuation

namespace Operator

def patterns : List (String × Operator) :=
  [("&&", and), ("||", or), ("==", equalEqual), ("!=", bangEqual), ("<=", lessEqual),
   (">=", greaterEqual), ("&", amp), ("|", pipe), ("=", equal), ("!", bang), ("<", less),
   (">", greater), ("+", plus), ("-", dash), ("*", star), ("/", slash), ("%", percent),
   ("^", caret)]

/-- The patterns are the symbols of the operators, one for each of them. -/
theorem mem_patterns_iff {s : String} {op : Operator} : (s, op) ∈ patterns ↔ op.symbol = s := by
  constructor
  · intro h
    have hall : ∀ p ∈ patterns, p.2.symbol = p.1 := by decide
    exact hall (s, op) h
  · rintro rfl
    cases op <;> decide

theorem lookup_patterns (s : String) : patterns.lookup s = ofSymbol? s := by
  apply Option.ext
  intro op
  rw [ofSymbol?_eq_some_iff]
  constructor
  · intro h
    exact mem_patterns_iff.mp (mem_of_lookup h)
  · rintro rfl
    cases op <;> decide

end Operator

namespace Keyword

/-- The patterns of keywords without the blank that has to follow. -/
def patterns : List (String × Keyword) := [("let", letWord), ("fun", funWord)]

theorem mem_patterns_iff {s : String} {k : Keyword} : (s, k) ∈ patterns ↔ k.text = s := by
  constructor
  · intro h
    have hall : ∀ p ∈ patterns, p.2.text = p.1 := by decide
    exact hall (s, k) h
  · rintro rfl
    cases k <;> decide

theorem lookup_patterns_eq_some_iff {s : String} {k : Keyword} :
    patterns.lookup s = some k ↔ k.text = s := by
  constructor
  · intro h
    exact mem_patterns_iff.mp (mem_of_lookup h)
  · rintro rfl
    cases k <;> decide

end Keyword

end Frontend
