import Frontend.Command.Run
import Frontend.Proofs.Spelling

namespace Frontend

open Command Text

def SpannedToken.entry (t : SpannedToken) : List Char :=
  t.position.text.toList ++ '\t' :: t.token.text.toList

def SpannedToken.line (t : SpannedToken) : List Char := t.entry ++ ['\n']

theorem toList_listing (stream : TokenStream) :
    (listing stream).toList = stream.tokens.flatMap SpannedToken.line := by
  rw [listing, String.toList_join, List.flatMap_map]
  refine List.flatMap_congr fun t _ => ?_
  simp [SpannedToken.line, SpannedToken.entry]

theorem exists_isWritten_of_mem {s : List Char} {stream : TokenStream}
    (h : tokenize s = .ok stream) {t : SpannedToken} (ht : t ∈ stream.tokens) :
    ∃ x, t.token.IsWritten x := by
  obtain ⟨ts, hr, hts⟩ := exists_readAll_of_tokenize h
  rw [hts, List.mem_append, List.mem_singleton] at ht
  obtain ht | rfl := ht
  · obtain ⟨c, rest, -, -, -, htoken, -⟩ := exists_lexeme_of_mem hr ht
    exact ⟨_, Lexeme.isWritten_of_token? (Lexeme.start_starts c rest) htoken⟩
  · exact ⟨[], rfl⟩

namespace SpannedToken

theorem count_line {t : SpannedToken} {x : List Char} (h : t.token.IsWritten x) :
    t.line.count '\n' = 1 ∧ t.line.count '\t' = 1 := by
  have hposition (d : Char) (hd : isFrame d) : t.position.text.toList.count d = 0 :=
    List.count_eq_zero.mpr (not_mem_of_isFrame hd t.position.not_isFrame_text)
  have htoken (d : Char) (hd : isFrame d) : t.token.text.toList.count d = 0 :=
    List.count_eq_zero.mpr (not_mem_of_isFrame hd (Token.not_isFrame_text h))
  have hn : isFrame '\n' := rfl
  have ht : isFrame '\t' := rfl
  simp [line, entry, hposition, htoken, hn, ht]

theorem lineFeed_not_mem_entry {t : SpannedToken} {x : List Char} (h : t.token.IsWritten x) :
    '\n' ∉ t.entry := by
  rw [entry, List.mem_append, List.mem_cons, not_or, not_or]
  exact ⟨not_mem_of_isFrame rfl t.position.not_isFrame_text, by decide,
    not_mem_of_isFrame rfl (Token.not_isFrame_text h)⟩

theorem eq_of_entry {t u : SpannedToken} {x y : List Char} (ht : t.token.IsWritten x)
    (hu : u.token.IsWritten y) (h : t.entry = u.entry) :
    t.token = u.token ∧ t.position = u.position := by
  obtain ⟨hposition, htoken⟩ := split_unique h
    (not_mem_of_isFrame rfl t.position.not_isFrame_text)
    (not_mem_of_isFrame rfl u.position.not_isFrame_text)
  exact ⟨Token.text_injective ht hu (String.toList_injective htoken),
    Position.text_injective (String.toList_injective hposition)⟩

theorem eq_of_flatMap_line {ts us : List SpannedToken} (ht : ∀ t ∈ ts, ∃ x, t.token.IsWritten x)
    (hu : ∀ u ∈ us, ∃ y, u.token.IsWritten y) (h : ts.flatMap line = us.flatMap line) :
    ts.map token = us.map token ∧ ts.map position = us.map position := by
  have hfeed {vs : List SpannedToken} (hv : ∀ v ∈ vs, ∃ x, v.token.IsWritten x) :
      ∀ e ∈ vs.map entry, '\n' ∉ e := by
    intro e he
    obtain ⟨v, hm, rfl⟩ := List.mem_map.mp he
    obtain ⟨x, hx⟩ := hv v hm
    exact lineFeed_not_mem_entry hx
  have hentries : ts.map entry = us.map entry := by
    apply eq_of_flatMap_lineFeed (hfeed ht) (hfeed hu)
    rw [List.flatMap_map, List.flatMap_map]
    exact h
  have hlength : ts.length = us.length := by simpa using congrArg List.length hentries
  have hsame (i : Nat) (hi : i < ts.length) (hi' : i < us.length) :
      ts[i].token = us[i].token ∧ ts[i].position = us[i].position := by
    obtain ⟨x, hx⟩ := ht ts[i] (List.getElem_mem hi)
    obtain ⟨y, hy⟩ := hu us[i] (List.getElem_mem hi')
    apply eq_of_entry hx hy
    simpa [hi, hi'] using congrArg (·[i]?) hentries
  constructor
  · apply List.ext_getElem (by simpa using hlength)
    intro i hi hi'
    simpa using (hsame i (by simpa using hi) (by simpa using hi')).1
  · apply List.ext_getElem (by simpa using hlength)
    intro i hi hi'
    simpa using (hsame i (by simpa using hi) (by simpa using hi')).2

end SpannedToken

theorem count_line_of_tokenize {s : List Char} {stream : TokenStream}
    (h : tokenize s = .ok stream) :
    ∀ t ∈ stream.tokens, t.line.count '\n' = 1 ∧ t.line.count '\t' = 1 := by
  intro t ht
  obtain ⟨x, hx⟩ := exists_isWritten_of_mem h ht
  exact SpannedToken.count_line hx

theorem count_listing {stream : TokenStream} {c : Char}
    (hc : ∀ t ∈ stream.tokens, t.line.count c = 1) :
    (listing stream).toList.count c = stream.size := by
  have hone : stream.tokens.map (List.count c ∘ SpannedToken.line) =
      stream.tokens.map fun _ => 1 := by
    refine List.map_congr_left fun t ht => ?_
    rw [Function.comp_apply, hc t ht]
  rw [toList_listing, List.count_flatMap, hone]
  simp [TokenStream.size]

/-- A listing has one line a token, and tells the tokens and their positions. -/
theorem listing_unambiguous {s₁ s₂ : List Char} {stream₁ stream₂ : TokenStream}
    (h₁ : tokenize s₁ = .ok stream₁) (h₂ : tokenize s₂ = .ok stream₂) :
    ((listing stream₁).toList = stream₁.tokens.flatMap SpannedToken.line ∧
      ∀ t ∈ stream₁.tokens, t.line.count '\n' = 1 ∧ t.line.count '\t' = 1) ∧
    (listing stream₁).toList.count '\n' = stream₁.size ∧
    (listing stream₁).toList.count '\t' = stream₁.size ∧
    (listing stream₁ = listing stream₂ → stream₁.bare = stream₂.bare ∧
      stream₁.tokens.map SpannedToken.position = stream₂.tokens.map SpannedToken.position) := by
  have hlines := count_line_of_tokenize h₁
  refine ⟨⟨toList_listing stream₁, hlines⟩, count_listing fun t ht => (hlines t ht).1,
    count_listing fun t ht => (hlines t ht).2, fun h => ?_⟩
  have hcs := congrArg String.toList h
  rw [toList_listing, toList_listing] at hcs
  exact SpannedToken.eq_of_flatMap_line (fun t ht => exists_isWritten_of_mem h₁ ht)
    (fun t ht => exists_isWritten_of_mem h₂ ht) hcs

theorem listing_unambiguous_spellings :
    ∃ stream₁ stream₂, tokenize "let let\r\u00001.50 x".toList = .ok stream₁ ∧
      tokenize "let let\r\u00001.5\t\tx".toList = .ok stream₂ ∧
      stream₁.tokens.map SpannedToken.span ≠ stream₂.tokens.map SpannedToken.span ∧
      listing stream₁ = listing stream₂ ∧ (listing stream₁).toList.count '\n' = 7 ∧
      stream₁.bare = stream₂.bare := by
  let tokens (x : Binary64) (stop : Nat) : List SpannedToken :=
    [⟨.keyword .letWord, ⟨0, 3⟩, ⟨1, 1⟩⟩, ⟨.identifier "let", ⟨4, 7⟩, ⟨1, 5⟩⟩,
      ⟨.newline, ⟨7, 8⟩, ⟨1, 8⟩⟩, ⟨.unknown '\x00', ⟨8, 9⟩, ⟨1, 9⟩⟩,
      ⟨.float x, ⟨9, stop⟩, ⟨1, 10⟩⟩, ⟨.identifier "x", ⟨14, 15⟩, ⟨1, 15⟩⟩,
      ⟨.eof, ⟨15, 15⟩, ⟨1, 16⟩⟩]
  have hvalue : Binary64.ofDecimal 150 2 = Binary64.ofDecimal 15 1 :=
    congrArg Binary64.mk (by decide +kernel)
  obtain ⟨sink, h₁⟩ : ∃ sink, tokenize "let let\r\u00001.50 x".toList =
      .ok ⟨tokens (Binary64.ofDecimal 150 2) 13, sink⟩ := ⟨_, rfl⟩
  obtain ⟨sink', h₂⟩ : ∃ sink, tokenize "let let\r\u00001.5\t\tx".toList =
      .ok ⟨tokens (Binary64.ofDecimal 15 1) 12, sink⟩ := ⟨_, rfl⟩
  have h : listing ⟨tokens (Binary64.ofDecimal 150 2) 13, sink⟩ =
      listing ⟨tokens (Binary64.ofDecimal 15 1) 12, sink'⟩ := by
    rw [hvalue]
    rfl
  obtain ⟨-, hcount, -, hsame⟩ := listing_unambiguous h₁ h₂
  exact ⟨_, _, h₁, h₂, by simp [tokens], h, hcount, (hsame h).1⟩

end Frontend
