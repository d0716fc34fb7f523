import Frontend.Proofs.Slice
import Frontend.Token.Lossless
import Frontend.Token.Stream

namespace Frontend

theorem Cursor.offset_advance (p : Cursor) (cs : List Char) :
    (p.advance cs).offset = p.offset + Text.byteLength cs := by
  induction cs generalizing p with
  | nil => rfl
  | cons c cs ih =>
    rw [Text.byteLength_cons]
    exact (ih (p.step c)).trans (Nat.add_assoc ..)

theorem Cursor.offset_start_advance (cs : List Char) :
    (Cursor.start.advance cs).offset = Text.byteLength cs := by
  simp [Cursor.offset_advance, Cursor.start]

namespace Lexeme

/-- Induction along a scan: from the text after the first lexeme to the whole. -/
@[elab_as_elim]
theorem ofText_induct {motive : List Char → Prop} (nil : motive [])
    (cons : ∀ c rest, motive (rest.drop ((start c rest).chars.length - 1)) → motive (c :: rest)) :
    ∀ cs, motive cs
  | [] => nil
  | c :: rest => cons c rest (ofText_induct nil cons _)
termination_by cs => cs.length
decreasing_by simp only [List.length_drop, List.length_cons]; omega

theorem exists_start_of_mem_ofText {l : Lexeme} {cs : List Char} (h : l ∈ ofText cs) :
    ∃ c rest, l = start c rest := by
  induction cs using ofText_induct with
  | nil => simp [ofText_nil] at h
  | cons c rest ih =>
    rw [ofText_cons, List.mem_cons] at h
    obtain rfl | h := h
    · exact ⟨c, rest, rfl⟩
    · exact ih h

theorem exists_append_of_mem_place {p q : Cursor} {l : Lexeme} {ls : List Lexeme}
    (h : (q, l) ∈ place p ls) :
    ∃ front back, ls = front ++ l :: back ∧ q = p.advance (front.flatMap chars) := by
  induction ls generalizing p with
  | nil => simp [place] at h
  | cons m ls ih =>
    simp only [place, List.mem_cons, Prod.mk.injEq] at h
    obtain ⟨rfl, rfl⟩ | h := h
    · exact ⟨[], ls, rfl, rfl⟩
    · obtain ⟨front, back, rfl, rfl⟩ := ih h
      refine ⟨m :: front, back, rfl, ?_⟩
      rw [List.flatMap_cons, Cursor.advance_append]

theorem place_append (p : Cursor) (ls ms : List Lexeme) :
    place p (ls ++ ms) = place p ls ++ place (p.advance (ls.flatMap chars)) ms := by
  induction ls generalizing p with
  | nil => rfl
  | cons l ls ih =>
    rw [List.cons_append, place, place, ih, List.flatMap_cons, Cursor.advance_append,
      List.cons_append]

theorem exists_mem_place {l : Lexeme} {ls : List Lexeme} (h : l ∈ ls) (p : Cursor) :
    ∃ q, (q, l) ∈ place p ls := by
  induction ls generalizing p with
  | nil => cases h
  | cons m ls ih =>
    obtain rfl | h := List.mem_cons.mp h
    · exact ⟨p, by simp [place]⟩
    · obtain ⟨q, hq⟩ := ih h (p.advance m.chars)
      exact ⟨q, by simp [place, hq]⟩

theorem offset_le_of_mem_place {p q : Cursor} {l : Lexeme} {ls : List Lexeme}
    (h : (q, l) ∈ place p ls) : p.offset ≤ q.offset := by
  obtain ⟨front, back, rfl, rfl⟩ := exists_append_of_mem_place h
  rw [Cursor.offset_advance]
  omega

theorem offset_le_advance_of_mem_place {p q : Cursor} {l : Lexeme} {ls : List Lexeme}
    (h : (q, l) ∈ place p ls) : q.offset ≤ (p.advance (ls.flatMap chars)).offset := by
  obtain ⟨front, back, rfl, rfl⟩ := exists_append_of_mem_place h
  rw [List.flatMap_append, Cursor.advance_append, Cursor.offset_advance (Cursor.advance _ _)]
  exact Nat.le_add_right ..

theorem pairwise_place (p : Cursor) (ls : List Lexeme) :
    (place p ls).Pairwise fun x y => (x.2.span x.1).stop ≤ (y.2.span y.1).start := by
  induction ls generalizing p with
  | nil => exact .nil
  | cons l ls ih =>
    refine .cons ?_ (ih _)
    rintro ⟨q, m⟩ hm
    have hq := offset_le_of_mem_place hm
    rw [Cursor.offset_advance] at hq
    exact hq

theorem exists_mem_place_of_offset {p : Cursor} {ls : List Lexeme} {i : Nat}
    (hlo : p.offset ≤ i) (hhi : i < p.offset + Text.byteLength (ls.flatMap chars)) :
    ∃ q l, (q, l) ∈ place p ls ∧ (l.span q).start ≤ i ∧ i < (l.span q).stop := by
  induction ls generalizing p with
  | nil => simp [Text.byteLength] at hhi; omega
  | cons l ls ih =>
    by_cases hi : i < (l.span p).stop
    · exact ⟨p, l, by simp [place], hlo, hi⟩
    · have hp : (p.advance l.chars).offset ≤ i := by
        rw [Cursor.offset_advance]
        simpa [span] using hi
      have hs : i < (p.advance l.chars).offset + Text.byteLength (ls.flatMap chars) := by
        rw [List.flatMap_cons, Text.byteLength_append] at hhi
        rw [Cursor.offset_advance]
        omega
      obtain ⟨q, m, hm, hq⟩ := ih hp hs
      exact ⟨q, m, by simp [place, hm], hq⟩

def spanned? (x : Cursor × Lexeme) : Option SpannedToken :=
  match read x.1 x.2 with
  | .ok t => t
  | .error _ => none

theorem readAll_cons_eq_ok {p : Cursor} {l : Lexeme} {placed : List (Cursor × Lexeme)}
    {ts : List SpannedToken} (h : readAll ((p, l) :: placed) = .ok ts) :
    ∃ t us, read p l = .ok t ∧ readAll placed = .ok us ∧ ts = t.toList ++ us := by
  cases hr : read p l with
  | error e => simp [readAll, hr, bind, Except.bind] at h
  | ok t =>
    cases ha : readAll placed with
    | error e => simp [readAll, hr, ha, bind, Except.bind] at h
    | ok us =>
      refine ⟨t, us, rfl, rfl, ?_⟩
      simpa [readAll, hr, ha, bind, Except.bind, pure, Except.pure] using h.symm

theorem eq_filterMap_of_readAll {placed : List (Cursor × Lexeme)} {ts : List SpannedToken}
    (h : readAll placed = .ok ts) : ts = placed.filterMap spanned? := by
  induction placed generalizing ts with
  | nil =>
    cases h
    rfl
  | cons x placed ih =>
    obtain ⟨t, us, hr, ha, rfl⟩ := readAll_cons_eq_ok h
    rw [ih ha]
    cases t <;> simp [spanned?, hr]

theorem exists_read_of_readAll {placed : List (Cursor × Lexeme)} {ts : List SpannedToken}
    (h : readAll placed = .ok ts) {p : Cursor} {l : Lexeme} (hm : (p, l) ∈ placed) :
    ∃ t, read p l = .ok t := by
  induction placed generalizing ts with
  | nil => simp at hm
  | cons x placed ih =>
    obtain ⟨t, us, hr, ha, -⟩ := readAll_cons_eq_ok h
    obtain rfl | hm := List.mem_cons.mp hm
    · exact ⟨t, hr⟩
    · exact ih ha hm

theorem readAll_append (xs ys : List (Cursor × Lexeme)) :
    readAll (xs ++ ys) = readAll xs >>= fun ts => (readAll ys).map (ts ++ ·) := by
  induction xs with
  | nil =>
    change readAll ys = (readAll ys).map fun us => [] ++ us
    cases readAll ys <;> rfl
  | cons x xs ih =>
    rw [List.cons_append, readAll, readAll, ih]
    cases read x.1 x.2 with
    | error e => rfl
    | ok t =>
      cases readAll xs with
      | error e => rfl
      | ok ts => cases readAll ys <;> simp [bind, Except.bind, pure, Except.pure, Except.map]

theorem readAll_append_eq_ok {xs ys : List (Cursor × Lexeme)} {ts : List SpannedToken}
    (h : readAll (xs ++ ys) = .ok ts) :
    ∃ us vs, readAll xs = .ok us ∧ readAll ys = .ok vs ∧ ts = us ++ vs := by
  rw [readAll_append] at h
  cases hx : readAll xs with
  | error e => simp [hx, bind, Except.bind] at h
  | ok us =>
    cases hy : readAll ys with
    | error e => simp [hx, hy, bind, Except.bind, Except.map] at h
    | ok vs =>
      refine ⟨us, vs, rfl, rfl, ?_⟩
      simpa [hx, hy, bind, Except.bind, Except.map] using h.symm

theorem readAll_append_eq_error {xs ys : List (Cursor × Lexeme)} {e : LexError}
    (h : readAll (xs ++ ys) = .error e) :
    readAll xs = .error e ∨ ∃ us, readAll xs = .ok us ∧ readAll ys = .error e := by
  rw [readAll_append] at h
  cases hx : readAll xs with
  | error e' => simpa [hx, bind, Except.bind] using h
  | ok us =>
    cases hy : readAll ys with
    | error e' => simpa [hx, hy, bind, Except.bind, Except.map] using h
    | ok vs => simp [hx, hy, bind, Except.bind, Except.map] at h

theorem exists_append_of_readAll_error {placed : List (Cursor × Lexeme)} {e : LexError}
    (h : readAll placed = .error e) :
    ∃ front p l back ts, placed = front ++ (p, l) :: back ∧ readAll front = .ok ts ∧
      read p l = .error e := by
  induction placed with
  | nil => cases h
  | cons x placed ih =>
    obtain ⟨p, l⟩ := x
    cases hr : read p l with
    | error e' =>
      simp only [readAll, hr, bind, Except.bind] at h
      cases h
      exact ⟨[], p, l, placed, [], rfl, rfl, hr⟩
    | ok t =>
      cases ha : readAll placed with
      | ok us => simp [readAll, hr, ha, bind, Except.bind, pure, Except.pure] at h
      | error e' =>
        simp only [readAll, hr, ha, bind, Except.bind] at h
        cases h
        obtain ⟨front, q, m, back, ts, rfl, hts, hq⟩ := ih ha
        refine ⟨(p, l) :: front, q, m, back, t.toList ++ ts, rfl, ?_, hq⟩
        simp [readAll, hr, hts, bind, Except.bind, pure, Except.pure]

theorem length_start_le (c : Char) (rest : List Char) :
    (start c rest).chars.length - 1 ≤ rest.length := by
  have hle := (start_isPrefix c rest).length_le
  rw [List.length_cons] at hle
  omega

theorem advance_start (p : Cursor) (c : Char) (rest : List Char) :
    p.advance (c :: rest) = (p.advance (start c rest).chars).advance
      (rest.drop ((start c rest).chars.length - 1)) := by
  rw [← Cursor.advance_append, start_chars_append]

end Lexeme

theorem exists_append_of_mem_lexemesOf {s : List Char} {p : Cursor} {l : Lexeme}
    (h : (p, l) ∈ lexemesOf s) :
    ∃ front back, s = front ++ l.chars ++ back ∧ p = Cursor.start.advance front := by
  obtain ⟨ls, ms, hls, rfl⟩ := Lexeme.exists_append_of_mem_place h
  refine ⟨ls.flatMap Lexeme.chars, ms.flatMap Lexeme.chars, ?_, rfl⟩
  rw [← Lexeme.flatMap_chars_ofText s, hls]
  simp

theorem exists_start_of_mem_lexemesOf {s : List Char} {p : Cursor} {l : Lexeme}
    (h : (p, l) ∈ lexemesOf s) : ∃ c rest, l = Lexeme.start c rest := by
  obtain ⟨ls, ms, hls, -⟩ := Lexeme.exists_append_of_mem_place h
  exact Lexeme.exists_start_of_mem_ofText (by rw [hls]; simp)

def SpannedToken.eofAt (p : Cursor) : SpannedToken := ⟨.eof, ⟨p.offset, p.offset⟩, p.position⟩

theorem tokenize_eq_map (s : List Char) :
    tokenize s = (Lexeme.readAll (lexemesOf s)).map fun ts =>
      ⟨ts ++ [.eofAt (Cursor.start.advance s)],
        Sink.addAll {} ((lexemesOf s).filterMap fun (p, l) => l.diagnostic? p)⟩ := by
  simp only [tokenize]
  cases Lexeme.readAll (lexemesOf s) <;> rfl

theorem exists_readAll_of_tokenize {s : List Char} {stream : TokenStream}
    (h : tokenize s = .ok stream) :
    ∃ ts, Lexeme.readAll (lexemesOf s) = .ok ts ∧
      stream.tokens = ts ++ [.eofAt (Cursor.start.advance s)] := by
  rw [tokenize_eq_map] at h
  cases hr : Lexeme.readAll (lexemesOf s) with
  | error e => simp [hr, Except.map] at h
  | ok ts =>
    rw [hr] at h
    cases h
    exact ⟨ts, rfl, rfl⟩

theorem sink_of_tokenize {s : List Char} {stream : TokenStream} (h : tokenize s = .ok stream) :
    stream.sink.diagnostics = (lexemesOf s).filterMap fun (p, l) => l.diagnostic? p := by
  rw [tokenize_eq_map] at h
  cases hr : Lexeme.readAll (lexemesOf s) with
  | error e => simp [hr, Except.map] at h
  | ok ts =>
    rw [hr] at h
    cases h
    exact Sink.diagnostics_addAll {} _

/-- The tokens of a text that begins at `p`. -/
def tokensFrom (p : Cursor) (cs : List Char) : Except LexError (List SpannedToken) :=
  (Lexeme.readAll (Lexeme.place p (Lexeme.ofText cs))).map (· ++ [.eofAt (p.advance cs)])

theorem map_tokens_tokenize (s : List Char) :
    (tokenize s).map TokenStream.tokens = tokensFrom Cursor.start s := by
  rw [tokenize_eq_map, tokensFrom, lexemesOf]
  cases Lexeme.readAll (Lexeme.place Cursor.start (Lexeme.ofText s)) <;> rfl

theorem tokensFrom_of_tokenize {s : List Char} {stream : TokenStream}
    (h : tokenize s = .ok stream) : tokensFrom Cursor.start s = .ok stream.tokens := by
  rw [← map_tokens_tokenize, h]
  rfl

theorem exists_tokenize_of_tokensFrom {s : List Char} {ts : List SpannedToken}
    (h : tokensFrom Cursor.start s = .ok ts) :
    ∃ stream, tokenize s = .ok stream ∧ stream.tokens = ts := by
  rw [← map_tokens_tokenize] at h
  cases hs : tokenize s with
  | error e => simp [hs, Except.map] at h
  | ok stream =>
    rw [hs] at h
    exact ⟨stream, rfl, Except.ok.inj h⟩

theorem tokenize_eq_error_iff {s : List Char} {e : LexError} :
    tokenize s = .error e ↔ tokensFrom Cursor.start s = .error e := by
  rw [← map_tokens_tokenize]
  cases tokenize s <;> simp [Except.map]

theorem readAll_of_tokenize_error {s : List Char} {e : LexError} (h : tokenize s = .error e) :
    Lexeme.readAll (lexemesOf s) = .error e := by
  rw [tokenize_eq_map] at h
  cases hr : Lexeme.readAll (lexemesOf s) <;> simp_all [Except.map]

theorem tokensFrom_cons (p : Cursor) (c : Char) (rest : List Char) :
    tokensFrom p (c :: rest) =
      Lexeme.read p (Lexeme.start c rest) >>= fun token =>
        (tokensFrom (p.advance (Lexeme.start c rest).chars)
          (rest.drop ((Lexeme.start c rest).chars.length - 1))).map (token.toList ++ ·) := by
  rw [tokensFrom, Lexeme.ofText_cons, Lexeme.place, Lexeme.readAll, Lexeme.advance_start]
  cases Lexeme.read p (Lexeme.start c rest) with
  | error e => rfl
  | ok token =>
    simp only [tokensFrom, bind, Except.bind]
    cases Lexeme.readAll (Lexeme.place (p.advance (Lexeme.start c rest).chars)
      (Lexeme.ofText (rest.drop ((Lexeme.start c rest).chars.length - 1)))) with
    | error e => rfl
    | ok tokens => simp [pure, Except.pure, Except.map]

theorem tokensFrom_cons_eq_ok {p : Cursor} {c : Char} {rest : List Char} {ts : List SpannedToken}
    (h : tokensFrom p (c :: rest) = .ok ts) :
    ∃ t us, Lexeme.read p (Lexeme.start c rest) = .ok t ∧
      tokensFrom (p.advance (Lexeme.start c rest).chars)
        (rest.drop ((Lexeme.start c rest).chars.length - 1)) = .ok us ∧ ts = t.toList ++ us := by
  rw [tokensFrom_cons] at h
  cases hr : Lexeme.read p (Lexeme.start c rest) with
  | error e => simp [hr, bind, Except.bind] at h
  | ok t =>
    cases hu : tokensFrom (p.advance (Lexeme.start c rest).chars)
        (rest.drop ((Lexeme.start c rest).chars.length - 1)) with
    | error e => simp [hr, hu, bind, Except.bind, Except.map] at h
    | ok us =>
      refine ⟨t, us, rfl, rfl, ?_⟩
      simpa [hr, hu, bind, Except.bind, Except.map] using h.symm

end Frontend
