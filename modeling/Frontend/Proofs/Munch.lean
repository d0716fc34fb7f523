import Frontend.Proofs.Rule

namespace Frontend.Rule

open Lexeme

def charClass : Rule → CharClass
  | lineFeed => .lineFeed
  | carriageReturn => .carriageReturn
  | punctuation _ => .punctuation
  | operator _ => .operator
  | keyword _ | word => .letter
  | decimal | integer => .digit

theorem not_matches_nil (r : Rule) : ¬r.Matches [] := by
  cases r with
  | operator op =>
    rw [matches_operator_iff]
    cases op <;> simp [Operator.symbol]
  | keyword k => simp [matches_keyword_iff]
  | _ => simp [Matches]

theorem Matches.classOf_eq {r : Rule} {c : Char} {x : List Char} (h : r.Matches (c :: x)) :
    classOf c = r.charClass := by
  cases r with
  | lineFeed | carriageReturn =>
    obtain ⟨rfl, -⟩ := List.cons.inj h
    decide
  | punctuation p =>
    rw [matches_punctuation_iff] at h
    obtain ⟨rfl, -⟩ := List.cons.inj h
    exact classOf_char p
  | operator op => exact classOf_symbol ((matches_operator_iff op _).mp h)
  | keyword k =>
    rw [matches_keyword_iff] at h
    apply classOf_of_isAlpha
    cases k <;> obtain h | h := h <;> obtain ⟨rfl, -⟩ := List.cons.inj h <;> decide
  | word => exact classOf_of_isAlpha (h.2 c (by simp))
  | decimal =>
    obtain ⟨whole, fraction, he, hne, hw, -⟩ := h
    cases whole with
    | nil => contradiction
    | cons d whole =>
      obtain ⟨rfl, -⟩ := List.cons.inj he
      exact classOf_of_isDigit (hw c (by simp))
  | integer => exact classOf_of_isDigit (h.2 c (by simp))

theorem Matches.unique {r r' : Rule} {x : List Char} (h : r.Matches x) (h' : r'.Matches x) :
    r = r' := by
  have hne : x ≠ [] := by
    rintro rfl
    exact not_matches_nil r h
  obtain ⟨c, x, rfl⟩ := List.exists_cons_of_ne_nil hne
  have hclass := h.classOf_eq.symm.trans h'.classOf_eq
  cases r <;> cases r' <;> try cases hclass
  case lineFeed.lineFeed | carriageReturn.carriageReturn | word.word | decimal.decimal |
      integer.integer => rfl
  case punctuation.punctuation p p' =>
    rw [matches_punctuation_iff] at h h'
    rw [Punctuation.char_injective (List.cons.inj (h.symm.trans h')).1]
  case operator.operator op op' =>
    rw [matches_operator_iff] at h h'
    rw [Operator.eq_of_toList_symbol (h.trans h'.symm)]
  case keyword.keyword k k' =>
    rw [matches_keyword_iff] at h h'
    have hk : k.text.toList = k'.text.toList := by
      obtain h | h := h <;> obtain h' | h' := h' <;> simpa using h.symm.trans h'
    rw [Keyword.eq_of_toList_text hk]
  case keyword.word k =>
    rw [matches_keyword_iff] at h
    exact absurd h'.2 (by obtain h | h := h <;> simp [h])
  case word.keyword k =>
    rw [matches_keyword_iff] at h'
    exact absurd h.2 (by obtain h | h := h' <;> simp [h])
  case decimal.integer =>
    obtain ⟨whole, fraction, he, -⟩ := h
    exact absurd (h'.2 '.' (by simp [he])) (by decide)
  case integer.decimal =>
    obtain ⟨whole, fraction, he, -⟩ := h'
    exact absurd (h.2 '.' (by simp [he])) (by decide)

def tier : Rule → Nat
  | lineFeed | carriageReturn => 0
  | punctuation _ => 1
  | operator op => if op.symbol.toList.length = 2 then 2 else 3
  | keyword _ => 4
  | word => 5
  | decimal => 6
  | integer => 7

theorem mem_priority (r : Rule) : r ∈ priority := by
  cases r with
  | punctuation p => cases p <;> decide
  | operator op => cases op <;> decide
  | keyword k => cases k <;> decide
  | _ => decide

theorem pairwise_priority : priority.Pairwise fun r s => r.tier ≤ s.tier ∧ r ≠ s := by
  decide

theorem pairwise_inits (cs : List Char) :
    cs.inits.reverse.Pairwise fun x y => y.length < x.length := by
  rw [List.pairwise_reverse]
  induction cs with
  | nil => simp
  | cons c cs ih =>
    rw [List.inits_cons, List.pairwise_cons, List.pairwise_map]
    exact ⟨by simp, ih.imp fun h => by simpa using h⟩

theorem findSome?_of_pairwise {α β : Type} {R : α → α → Prop} {l : List α} (hl : l.Pairwise R)
    {f : α → Option β} {a : α} {b : β} (ha : a ∈ l) (hf : f a = some b)
    (hR : ∀ d ∈ l, R d a → f d = none) : l.findSome? f = some b := by
  induction l with
  | nil => simp at ha
  | cons d l ih =>
    obtain ⟨hd, hl⟩ := List.pairwise_cons.mp hl
    obtain rfl | ha := List.mem_cons.mp ha
    · simp [hf]
    · rw [List.findSome?_cons, hR d (by simp) (hd a ha)]
      exact ih hl ha fun e he => hR e (by simp [he])

/-- `r` takes `x` at the start of `cs`: no rule takes more there, and every other rule that takes
anything stands behind `r`. -/
structure Wins (r : Rule) (x cs : List Char) : Prop where
  accepts : r.Matches x
  isPrefix : x <+: cs
  longest : ∀ (r' : Rule) (y : List Char), r'.Matches y → y <+: cs → y.length ≤ x.length
  first : ∀ (r' : Rule) (y : List Char), r'.Matches y → y <+: cs → r' = r ∨ r.tier < r'.tier

theorem Wins.longest?_eq {r : Rule} {x cs : List Char} (h : Wins r x cs) :
    longest? cs = some (r, x) := by
  have hr : priority.find? (·.Matches x) = some r := by
    rw [List.find?_eq_findSome?_guard]
    refine findSome?_of_pairwise pairwise_priority (mem_priority r) (by simp [h.accepts]) ?_
    rintro r' - ⟨-, hne⟩
    simpa using fun h' => hne (h'.unique h.accepts)
  refine findSome?_of_pairwise (pairwise_inits cs) (by simpa using h.isPrefix) (by simp [hr]) ?_
  intro y hy hlt
  rw [Option.map_eq_none_iff, List.find?_eq_none]
  intro r' _ hm
  have hle := h.longest r' y (by simpa using hm) (by simpa using hy)
  omega

theorem Wins.first?_eq {r : Rule} {x cs : List Char} (h : Wins r x cs) :
    first? cs = some (r, x) := by
  have hx : cs.inits.reverse.find? r.Matches = some x := by
    rw [List.find?_eq_findSome?_guard]
    refine findSome?_of_pairwise (pairwise_inits cs) (by simpa using h.isPrefix)
      (by simp [h.accepts]) ?_
    intro y hy hlt
    have hm : ¬r.Matches y := by
      intro hm
      have hle := h.longest r y hm (by simpa using hy)
      omega
    simpa using hm
  refine findSome?_of_pairwise pairwise_priority (mem_priority r) (by simp [hx]) ?_
  rintro r' - ⟨hle, hne⟩
  rw [Option.map_eq_none_iff, List.find?_eq_none]
  intro y hy hm
  obtain rfl | hlt := h.first r' y (by simpa using hm) (by simpa using hy)
  · contradiction
  · omega

theorem longest?_eq_some {r : Rule} {x cs : List Char} (h : longest? cs = some (r, x)) :
    r.Matches x ∧ x <+: cs ∧ ∀ (r' : Rule) (y : List Char), r'.Matches y → y <+: cs →
      y.length < x.length ∨ (r' = r ∧ y = x) := by
  obtain ⟨before, z, after, hsplit, hz, hbefore⟩ := List.findSome?_eq_some_iff.mp h
  obtain ⟨r, hr, he⟩ := Option.map_eq_some_iff.mp hz
  cases he
  have hm : r.Matches x := by simpa using List.find?_some hr
  refine ⟨hm, ?_, ?_⟩
  · have hx : x ∈ cs.inits.reverse := by simp [hsplit]
    simpa using hx
  · intro r' y hm' hy
    have hmem : y ∈ cs.inits.reverse := by simpa using hy
    rw [hsplit, List.mem_append, List.mem_cons] at hmem
    obtain hlong | rfl | hshort := hmem
    · have hnone := hbefore y hlong
      rw [Option.map_eq_none_iff, List.find?_eq_none] at hnone
      exact absurd hm' (by simpa using hnone r' (mem_priority r'))
    · exact .inr ⟨hm'.unique hm, rfl⟩
    · have hpair := pairwise_inits cs
      rw [hsplit, List.pairwise_append, List.pairwise_cons] at hpair
      exact .inl (hpair.2.1.1 y hshort)

theorem longest?_eq_none_iff {cs : List Char} :
    longest? cs = none ↔ ∀ (r : Rule) (y : List Char), r.Matches y → ¬y <+: cs := by
  simp only [longest?, List.findSome?_eq_none_iff, Option.map_eq_none_iff, List.find?_eq_none,
    List.mem_reverse, List.mem_inits, decide_eq_true_eq]
  constructor
  · intro h r y hm hy
    exact h y hy r (mem_priority r) hm
  · intro h y hy r _ hm
    exact h r y hm hy

theorem first?_eq_none {cs : List Char}
    (h : ∀ (r : Rule) (y : List Char), r.Matches y → ¬y <+: cs) : first? cs = none := by
  simp only [first?, List.findSome?_eq_none_iff, Option.map_eq_none_iff, List.find?_eq_none]
  intro r _ y hy hm
  exact h r y (by simpa using hm) (by simpa using hy)

end Frontend.Rule
