import Frontend.Proofs.Layout

namespace Frontend

def Span.shift (n : Nat) (s : Span) : Span := ⟨n + s.start, n + s.stop⟩

/-- A position in a text that itself begins at `q`: only its first line is moved to the right. -/
def Position.shift (q p : Position) : Position :=
  if p.line = 1 then ⟨q.line, q.column + p.column - 1⟩ else ⟨q.line + p.line - 1, p.column⟩

namespace Cursor

def shift (q p : Cursor) : Cursor := ⟨q.offset + p.offset, q.position.shift p.position⟩

def Valid (p : Cursor) : Prop := 1 ≤ p.position.line ∧ 1 ≤ p.position.column

theorem valid_start : start.Valid := ⟨Nat.le_refl 1, Nat.le_refl 1⟩

theorem Valid.step {p : Cursor} (h : p.Valid) (c : Char) : (p.step c).Valid := by
  unfold Cursor.step Valid
  split
  · exact ⟨by simp, by simp⟩
  · exact ⟨h.1, by simp⟩

theorem Valid.advance {p : Cursor} (h : p.Valid) (cs : List Char) : (p.advance cs).Valid := by
  induction cs generalizing p with
  | nil => exact h
  | cons c cs ih => exact ih (h.step c)

theorem step_shift (q : Cursor) {p : Cursor} (h : p.Valid) (c : Char) :
    (q.shift p).step c = q.shift (p.step c) := by
  obtain ⟨hl, hc⟩ := h
  unfold Cursor.step shift Position.shift
  by_cases hn : c = '\n'
  · by_cases hone : p.position.line = 1
    · simp [hn, hone, Nat.add_assoc]
    · have hline : q.position.line + p.position.line - 1 + 1 =
          q.position.line + (p.position.line + 1) - 1 := by omega
      have hne : ¬p.position.line = 0 := by omega
      simp only [hn, hone, hline, hne, ↓reduceIte, Nat.add_eq_right, Nat.add_assoc]
  · have hcol : q.position.column + p.position.column - 1 + 1 =
        q.position.column + (p.position.column + 1) - 1 := by omega
    by_cases hone : p.position.line = 1
    · simp only [hn, hone, hcol, ↓reduceIte, Nat.add_assoc]
    · simp only [hn, hone, ↓reduceIte, Nat.add_assoc]

theorem advance_shift (q : Cursor) {p : Cursor} (h : p.Valid) (cs : List Char) :
    (q.shift p).advance cs = q.shift (p.advance cs) := by
  induction cs generalizing p with
  | nil => rfl
  | cons c cs ih =>
    change ((q.shift p).step c).advance cs = q.shift ((p.step c).advance cs)
    rw [step_shift q h, ih (h.step c)]

theorem line_advance (p : Cursor) (cs : List Char) :
    (p.advance cs).position.line = p.position.line + cs.count '\n' := by
  induction cs generalizing p with
  | nil => rfl
  | cons c cs ih =>
    change ((p.step c).advance cs).position.line = _
    rw [ih, List.count_cons]
    by_cases hn : c = '\n'
    · simp only [Cursor.step, hn, ↓reduceIte, beq_self_eq_true]
      omega
    · simp [Cursor.step, hn]

end Cursor

def SpannedToken.shift (q : Cursor) (t : SpannedToken) : SpannedToken :=
  ⟨t.token, t.span.shift q.offset, q.position.shift t.position⟩

def LexError.shift (q : Cursor) (e : LexError) : LexError :=
  ⟨e.literal, e.span.shift q.offset, q.position.shift e.position, e.fault⟩

def shiftTokens (q : Cursor) :
    Except LexError (List SpannedToken) → Except LexError (List SpannedToken)
  | .ok ts => .ok (ts.map (·.shift q))
  | .error e => .error (e.shift q)

theorem span_shift (q p : Cursor) (l : Lexeme) :
    l.span (q.shift p) = (l.span p).shift q.offset := by
  simp [Lexeme.span, Cursor.shift, Span.shift, Nat.add_assoc]

theorem tokensFrom_shift (q : Cursor) {p : Cursor} (hp : p.Valid) (cs : List Char) :
    tokensFrom (q.shift p) cs = shiftTokens q (tokensFrom p cs) := by
  induction cs using Lexeme.ofText_induct generalizing p with
  | nil => rfl
  | cons c rest ih =>
    rw [tokensFrom_cons, tokensFrom_cons, Cursor.advance_shift q hp, ih (hp.advance _)]
    unfold Lexeme.read
    rw [span_shift]
    cases (Lexeme.start c rest).token? with
    | error fault => rfl
    | ok t =>
      simp only [bind, Except.bind]
      cases tokensFrom (p.advance (Lexeme.start c rest).chars)
          (rest.drop ((Lexeme.start c rest).chars.length - 1)) with
      | error e => rfl
      | ok ts => cases t <;> rfl

theorem tokensFrom_eq_shiftTokens (q : Cursor) (cs : List Char) :
    tokensFrom q cs = shiftTokens q (tokensFrom Cursor.start cs) :=
  tokensFrom_shift q Cursor.valid_start cs

end Frontend
