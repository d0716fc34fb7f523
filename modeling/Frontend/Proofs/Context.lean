import Frontend.Proofs.Soundness

namespace Frontend.Expr

/-- An expression that lacks one operand, at any depth. -/
inductive Context
  | hole
  | left (op : Operator) (context : Context) (rhs : Expr)
  | right (op : Operator) (lhs : Expr) (context : Context)
  deriving Repr

namespace Context

def fill (e : Expr) : Context → Expr
  | hole => e
  | left op context rhs => binary op (context.fill e) rhs
  | right op lhs context => binary op lhs (context.fill e)

/-- Whatever is computed from the operands upwards depends on an operand only through what it comes
to, wherever the operand stands and whatever fails beside it. -/
theorem run_fill_congr {α : Type} (run : Expr → Except TypeError α)
    {node : Operator → α → α → Except TypeError α}
    (hbinary : ∀ op lhs rhs, run (binary op lhs rhs) =
      run lhs >>= fun left => run rhs >>= fun right => node op left right)
    {e e' : Expr} (h : run e = run e') (context : Context) :
    run (context.fill e) = run (context.fill e') := by
  induction context with
  | hole => exact h
  | left op context rhs ih => rw [fill, fill, hbinary, hbinary, ih]
  | right op lhs context ih => rw [fill, fill, hbinary, hbinary, ih]

theorem evaluate_fill_congr {e e' : Expr} (h : e.evaluate.outcome = e'.evaluate.outcome)
    (context : Context) :
    (context.fill e).evaluate.outcome = (context.fill e').evaluate.outcome :=
  run_fill_congr (·.evaluate.outcome) outcome_evaluate_binary h context

theorem check_fill_congr {e e' : Expr} (h : e.check.outcome = e'.check.outcome)
    (context : Context) : (context.fill e).check.outcome = (context.fill e').check.outcome :=
  run_fill_congr (·.check.outcome) outcome_check_binary h context

/-- An operand may be evaluated early: with its value in its place the whole comes to the same
value or error, and checks to the same kind or error. -/
theorem fill_literal_of_evaluate {e : Expr} {v : Value} (h : e.evaluate.outcome = .ok v)
    (context : Context) :
    (context.fill e).evaluate.outcome = (context.fill (literal v)).evaluate.outcome ∧
    (context.fill e).check.outcome = (context.fill (literal v)).check.outcome := by
  have hevaluate : e.evaluate.outcome = (literal v).evaluate.outcome := h
  have hcheck : e.check.outcome = (literal v).check.outcome := check_of_evaluate h
  exact ⟨evaluate_fill_congr hevaluate context, check_fill_congr hcheck context⟩

theorem fill_literal_of_evaluate_two_faults :
    let e := binary .star (literal (.int 3)) (literal (.int 4))
    let context := Context.left .plus (.right .less (literal (.int 5)) .hole)
      (binary .slash (literal (.int 1)) (literal (.int 0)))
    e.evaluate.outcome = .ok (.int 12) ∧
      (context.fill e).evaluate.outcome = .error (.divisionByZero .slash .int) ∧
      (context.fill (literal (.int 12))).evaluate.outcome =
        .error (.divisionByZero .slash .int) ∧
      (context.fill e).check.outcome = .error (.mismatch .plus .bool .int) ∧
      (context.fill (literal (.int 12))).check.outcome = .error (.mismatch .plus .bool .int) := by
  intro e context
  have he : e.evaluate.outcome = .ok (.int 12) := rfl
  obtain ⟨hevaluate, hcheck⟩ := fill_literal_of_evaluate he context
  refine ⟨he, ?_, rfl, ?_, rfl⟩
  · rw [hevaluate]
    rfl
  · rw [hcheck]
    rfl

end Context

end Frontend.Expr
