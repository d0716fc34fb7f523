import Frontend.Proofs.Start
import Mathlib.Data.List.Infix

namespace Frontend

inductive Rule
  | lineFeed
  | carriageReturn
  | punctuation (p : Punctuation)
  | operator (op : Operator)
  | keyword (k : Keyword)
  | word
  | decimal
  | integer
  deriving DecidableEq, Repr

namespace Rule

open Lexeme

/-- The texts of a pattern. A keyword includes the blank that delimits it. -/
def Matches : Rule → List Char → Prop
  | lineFeed, x => x = ['\n']
  | carriageReturn, x => x = ['\r']
  | punctuation p, x => ∃ c ∈ Punctuation.patterns, Punctuation.ofChar? c = some p ∧ x = [c]
  | operator op, x => (String.ofList x, op) ∈ Operator.patterns
  | keyword k, x => ∃ s, (s, k) ∈ Keyword.patterns ∧
      (x = s.toList ++ [' '] ∨ x = s.toList ++ ['\t'])
  | word, x => x ≠ [] ∧ ∀ c ∈ x, c.isAlpha
  | decimal, x => ∃ whole fraction, x = whole ++ '.' :: fraction ∧ whole ≠ [] ∧
      (∀ c ∈ whole, c.isDigit) ∧ ∀ c ∈ fraction, c.isDigit
  | integer, x => x ≠ [] ∧ ∀ c ∈ x, c.isDigit

theorem matches_punctuation_iff (p : Punctuation) (x : List Char) :
    Matches (punctuation p) x ↔ x = [p.char] := by
  constructor
  · rintro ⟨c, -, hp, rfl⟩
    rw [Punctuation.ofChar?_eq_some_iff.mp hp]
  · rintro rfl
    exact ⟨p.char, Punctuation.mem_patterns_iff.mpr ⟨p, rfl⟩, p.ofChar?_char, rfl⟩

theorem matches_operator_iff (op : Operator) (x : List Char) :
    Matches (operator op) x ↔ op.symbol.toList = x := by
  rw [Matches, Operator.mem_patterns_iff, ← String.toList_inj, String.toList_ofList]

theorem matches_keyword_iff (k : Keyword) (x : List Char) :
    Matches (keyword k) x ↔ x = k.text.toList ++ [' '] ∨ x = k.text.toList ++ ['\t'] := by
  simp only [Matches, Keyword.mem_patterns_iff, exists_eq_left']

theorem matches_decimal_iff (x : List Char) :
    Matches decimal x ↔ x.takeWhile Char.isDigit ≠ [] ∧
      (x.dropWhile Char.isDigit).head? = some '.' ∧
      (x.dropWhile Char.isDigit).tail.all Char.isDigit := by
  rw [List.all_eq_true]
  constructor
  · rintro ⟨whole, fraction, rfl, hne, hw, hf⟩
    obtain ⟨ht, hd⟩ := takeWhile_dropWhile_run hw (forall_head?_cons (d := '.') rfl fraction)
    rw [ht, hd]
    exact ⟨hne, rfl, hf⟩
  · rintro ⟨hne, hh, hf⟩
    obtain ⟨fraction, hd⟩ := List.head?_eq_some_iff.mp hh
    rw [hd] at hf
    refine ⟨x.takeWhile Char.isDigit, fraction, ?_, hne, fun c hc => List.mem_takeWhile_imp hc, hf⟩
    rw [← hd, List.takeWhile_append_dropWhile]

theorem matches_run_iff (x : List Char) (f : Char → Bool) :
    (x ≠ [] ∧ ∀ c ∈ x, f c) ↔ x ≠ [] ∧ x.all f := by
  rw [List.all_eq_true]

instance (r : Rule) : DecidablePred r.Matches := fun x =>
  match r with
  | lineFeed => inferInstanceAs (Decidable (x = ['\n']))
  | carriageReturn => inferInstanceAs (Decidable (x = ['\r']))
  | punctuation p => decidable_of_iff' _ (matches_punctuation_iff p x)
  | operator op => inferInstanceAs (Decidable ((String.ofList x, op) ∈ Operator.patterns))
  | keyword k => decidable_of_iff' _ (matches_keyword_iff k x)
  | word => decidable_of_iff' _ (matches_run_iff x Char.isAlpha)
  | decimal => decidable_of_iff' _ (matches_decimal_iff x)
  | integer => decidable_of_iff' _ (matches_run_iff x Char.isDigit)

/-- The rules in their order of priority: operators of two characters before those of one, a
keyword before a word and a decimal before an integer. -/
def priority : List Rule :=
  [lineFeed, carriageReturn] ++
    Punctuation.patterns.filterMap (fun c => (Punctuation.ofChar? c).map punctuation) ++
    Operator.patterns.map (fun p => operator p.2) ++ Keyword.patterns.map (fun p => keyword p.2) ++
    [word, decimal, integer]

def longest? (cs : List Char) : Option (Rule × List Char) :=
  cs.inits.reverse.findSome? fun x => (priority.find? (·.Matches x)).map fun r => (r, x)

def first? (cs : List Char) : Option (Rule × List Char) :=
  priority.findSome? fun r => (cs.inits.reverse.find? r.Matches).map fun x => (r, x)

end Rule

end Frontend
