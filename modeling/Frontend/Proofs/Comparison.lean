import Frontend.Proofs.Readability
import Frontend.Proofs.Soundness

namespace Frontend

namespace Binary64

theorem isNaN_ofInt (n : Int) : (ofInt n).isNaN = false := isNaN_nearest _ _ _

theorem order?_swap (x y : Binary64) : y.order? x = (x.order? y).map Ordering.swap := by
  rw [order?, order?, Bool.or_comm]
  split
  · rfl
  · rw [Option.map_some, Int.compare_swap]

theorem order?_eq_none_iff {x y : Binary64} : x.order? y = none ↔ x.isNaN ∨ y.isNaN := by
  rw [order?]
  split <;> simp_all

end Binary64

namespace Operator

def comparisons : List Operator :=
  [.less, .lessEqual, .greater, .greaterEqual, .equalEqual, .bangEqual]

def ofOrdering : Ordering → Operator
  | .lt => less
  | .eq => equalEqual
  | .gt => greater

end Operator

namespace Value

def order? (a b : Value) : Option Ordering :=
  match a.promote? b with
  | some (.ints m n) => some (compare m.toInt n.toInt)
  | some (.floats x y) => x.order? y
  | Option.none => Option.none

theorem order?_swap (a b : Value) : b.order? a = (a.order? b).map Ordering.swap := by
  cases a <;> cases b <;> try rfl
  case int.int m n => simp [order?, promote?, Int.compare_swap]
  all_goals exact Binary64.order?_swap _ _

theorem order?_eq_none_iff {a b : Value} (ha : a.kind.isNumber) (hb : b.kind.isNumber) :
    a.order? b = Option.none ↔ a.isNaN ∨ b.isNaN := by
  cases a <;> cases ha <;> cases b <;> cases hb
  case int.refl.int.refl => simp [order?, promote?, isNaN]
  all_goals simp [order?, promote?, isNaN, Binary64.order?_eq_none_iff, Binary64.isNaN_ofInt]

end Value

theorem Operation.comparison_eq_order? (op : Operator) (holds : Option Ordering → Bool)
    {a b : Value} (ha : a.kind.isNumber) (hb : b.kind.isNumber) :
    comparison op holds a b = .ok (.bool (holds (a.order? b))) := by
  cases a <;> cases ha <;> cases b <;> cases hb <;> rfl

namespace Expr

theorem nodeValue_comparison {op : Operator} {f : Operation}
    (hf : Operation.comparison? op = some f) {a b : Value} (ha : a.kind.isNumber)
    (hb : b.kind.isNumber) : nodeValue op a b = f a b := by
  cases a <;> cases ha <;> cases b <;> cases hb <;> cases op <;> cases hf <;> rfl

def Holds (op : Operator) (l r : Expr) : Prop :=
  (binary op l r).evaluate.outcome = .ok (.bool true)

theorem exists_comparison {op : Operator} (hop : op ∈ Operator.comparisons) :
    ∃ holds, Operation.comparison? op = some (Operation.comparison op holds) ∧
      (holds none ↔ op = .bangEqual) := by
  cases op <;> simp [Operator.comparisons] at hop <;> exact ⟨_, rfl, by decide⟩

section

variable {l r : Expr} {a b : Value} (hl : l.evaluate.outcome = .ok a)
  (hr : r.evaluate.outcome = .ok b) (ha : a.kind.isNumber) (hb : b.kind.isNumber)
include hl hr ha hb

theorem evaluate_comparison {op : Operator} {holds : Option Ordering → Bool}
    (hop : Operation.comparison? op = some (Operation.comparison op holds)) :
    (binary op l r).evaluate.outcome = .ok (.bool (holds (a.order? b))) := by
  rw [evaluate_binary_of_ok hl hr, nodeValue_comparison hop ha hb,
    Operation.comparison_eq_order? op holds ha hb]

theorem holds_iff {op : Operator} {holds : Option Ordering → Bool}
    (hop : Operation.comparison? op = some (Operation.comparison op holds)) :
    Holds op l r ↔ holds (a.order? b) := by
  rw [Holds, evaluate_comparison hl hr ha hb hop]
  simp

theorem holds_iff_of_unordered (ho : a.order? b = none) :
    ∀ op ∈ Operator.comparisons, Holds op l r ↔ op = .bangEqual := by
  intro op hop
  obtain ⟨holds, hholds, hnone⟩ := exists_comparison hop
  rw [holds_iff hl hr ha hb hholds, ho, hnone]

theorem holds_iff_ofOrdering {o : Ordering} (ho : a.order? b = some o) :
    ∀ op ∈ [.less, .equalEqual, .greater], Holds op l r ↔ op = .ofOrdering o := by
  intro op hop
  simp only [List.mem_cons, List.not_mem_nil, or_false] at hop
  obtain rfl | rfl | rfl := hop <;> rw [holds_iff hl hr ha hb rfl, ho] <;> cases o <;> decide

/-- Two comparisons that read an order and its reverse alike turn into each other with the operands
swapped, though another kind may then lead. -/
theorem holds_swap_iff {op op' : Operator} {holds holds' : Option Ordering → Bool}
    (hop : Operation.comparison? op = some (Operation.comparison op holds))
    (hop' : Operation.comparison? op' = some (Operation.comparison op' holds'))
    (hswap : ∀ o, holds o = holds' (o.map Ordering.swap)) : Holds op l r ↔ Holds op' r l := by
  rw [holds_iff hl hr ha hb hop, holds_iff hr hl hb ha hop', Value.order?_swap a b, hswap]

end

/-- The six comparisons of two numbers, of one kind or of both, read one order: they go together as
its parts, they turn round with their operands, and of numbers in no order only the inequality
holds. -/
theorem comparisons_coherent {l r : Expr} {a b : Value} (hl : l.evaluate.outcome = .ok a)
    (hr : r.evaluate.outcome = .ok b) (ha : a.kind.isNumber) (hb : b.kind.isNumber) :
    (∀ op ∈ Operator.comparisons, ∃ t, (binary op l r).evaluate.outcome = .ok (.bool t)) ∧
    (Holds .bangEqual l r ↔ ¬Holds .equalEqual l r) ∧
    (Holds .lessEqual l r ↔ Holds .less l r ∨ Holds .equalEqual l r) ∧
    (Holds .greaterEqual l r ↔ Holds .greater l r ∨ Holds .equalEqual l r) ∧
    (Holds .less l r ↔ Holds .greater r l) ∧
    (Holds .lessEqual l r ↔ Holds .greaterEqual r l) ∧
    (Holds .equalEqual l r ↔ Holds .equalEqual r l) ∧
    (¬(a.isNaN ∨ b.isNaN) → ∃ op ∈ [.less, .equalEqual, .greater], Holds op l r ∧
      ∀ op' ∈ [.less, .equalEqual, .greater], Holds op' l r → op' = op) ∧
    (a.isNaN ∨ b.isNaN → ∀ op ∈ Operator.comparisons, Holds op l r ↔ op = .bangEqual) := by
  have hless : Holds .less l r ↔ _ := holds_iff hl hr ha hb rfl
  have hlessEqual : Holds .lessEqual l r ↔ _ := holds_iff hl hr ha hb rfl
  have hgreater : Holds .greater l r ↔ _ := holds_iff hl hr ha hb rfl
  have hgreaterEqual : Holds .greaterEqual l r ↔ _ := holds_iff hl hr ha hb rfl
  have hequal : Holds .equalEqual l r ↔ _ := holds_iff hl hr ha hb rfl
  have hunequal : Holds .bangEqual l r ↔ _ := holds_iff hl hr ha hb rfl
  refine ⟨?_, ?_, ?_, ?_, ?_, ?_, ?_, ?_, ?_⟩
  · intro op hop
    obtain ⟨holds, hholds, -⟩ := exists_comparison hop
    exact ⟨_, evaluate_comparison hl hr ha hb hholds⟩
  · simp [hunequal, hequal]
  · simp [hlessEqual, hless, hequal]
  · simp [hgreaterEqual, hgreater, hequal]
  · apply holds_swap_iff hl hr ha hb rfl rfl
    rintro (_ | _ | _ | _) <;> rfl
  · apply holds_swap_iff hl hr ha hb rfl rfl
    rintro (_ | _ | _ | _) <;> rfl
  · apply holds_swap_iff hl hr ha hb rfl rfl
    rintro (_ | _ | _ | _) <;> rfl
  · intro hnan
    rw [← Value.order?_eq_none_iff ha hb] at hnan
    obtain ⟨o, ho⟩ := Option.ne_none_iff_exists'.mp hnan
    have hexact := holds_iff_ofOrdering hl hr ha hb ho
    have hmem : .ofOrdering o ∈ [Operator.less, .equalEqual, .greater] := by cases o <;> decide
    exact ⟨.ofOrdering o, hmem, (hexact _ hmem).mpr rfl, fun op hop => (hexact op hop).mp⟩
  · intro hnan
    exact holds_iff_of_unordered hl hr ha hb ((Value.order?_eq_none_iff ha hb).mpr hnan)

theorem comparisons_coherent_mixed :
    let l := literal (.int 9007199254740993)
    let r := literal (.float (Binary64.ofInt 9007199254740992))
    let nan := literal (.float .nan)
    (Holds .equalEqual l r ∧ Holds .equalEqual r l ∧ Holds .lessEqual l r ∧
      ¬Holds .bangEqual l r) ∧
    ∀ op ∈ Operator.comparisons, Holds op nan l ↔ op = .bangEqual := by
  intro l r nan
  have heq : Holds .equalEqual l r :=
    (holds_iff rfl rfl rfl rfl rfl).mpr (by decide +kernel)
  obtain ⟨-, hne, hle, -, -, -, hswap, -⟩ := comparisons_coherent (l := l) (r := r) rfl rfl rfl rfl
  obtain ⟨-, -, -, -, -, -, -, -, hnan⟩ := comparisons_coherent (l := nan) (r := l) rfl rfl rfl rfl
  refine ⟨⟨heq, hswap.mp heq, hle.mpr (.inr heq), fun h => hne.mp h heq⟩, ?_⟩
  exact hnan (.inl rfl)

end Expr

end Frontend
