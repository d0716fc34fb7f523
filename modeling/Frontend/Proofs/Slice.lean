import Frontend.Source.Position

namespace Frontend.Text

def bytes (cs : List Char) : List UInt8 := cs.flatMap String.utf8EncodeChar

theorem bytes_append (cs ds : List Char) : bytes (cs ++ ds) = bytes cs ++ bytes ds := by
  simp [bytes]

theorem length_bytes (cs : List Char) : (bytes cs).length = byteLength cs := by
  induction cs with
  | nil => rfl
  | cons c cs ih =>
    have h : bytes (c :: cs) = String.utf8EncodeChar c ++ bytes cs := by simp [bytes]
    rw [h, List.length_append, ih]
    simp [byteLength]

theorem byteLength_cons (c : Char) (cs : List Char) :
    byteLength (c :: cs) = c.utf8Size + byteLength cs := rfl

theorem byteLength_pos {cs : List Char} (h : cs ≠ []) : 0 < byteLength cs := by
  cases cs with
  | nil => contradiction
  | cons c cs =>
    have hc := Char.utf8Size_pos c
    rw [byteLength_cons]
    omega

theorem byteLength_of_ascii {cs : List Char} (h : ∀ c ∈ cs, c.utf8Size = 1) :
    byteLength cs = cs.length := by
  induction cs with
  | nil => rfl
  | cons c cs ih =>
    rw [byteLength_cons, h c (by simp), ih fun d hd => h d (by simp [hd]), List.length_cons]
    omega

theorem byteLength_replicate (n : Nat) {c : Char} (h : c.utf8Size = 1) :
    byteLength (List.replicate n c) = n := by
  rw [byteLength_of_ascii fun d hd => List.eq_of_mem_replicate hd ▸ h, List.length_replicate]

/-- The text before and after a byte offset; `none` if the offset is past the end or falls inside
a character. -/
def split? : List Char → Nat → Option (List Char × List Char)
  | cs, 0 => some ([], cs)
  | [], _ + 1 => none
  | c :: cs, n + 1 =>
    if c.utf8Size ≤ n + 1 then
      (split? cs (n + 1 - c.utf8Size)).map fun (front, back) => (c :: front, back)
    else none

theorem split?_append (front back : List Char) :
    split? (front ++ back) (byteLength front) = some (front, back) := by
  induction front with
  | nil => cases back <;> rfl
  | cons c front ih =>
    obtain ⟨n, hn⟩ : ∃ n, byteLength (c :: front) = n + 1 :=
      Nat.exists_eq_succ_of_ne_zero (Nat.ne_of_gt (byteLength_pos (by simp)))
    have hc := byteLength_cons c front
    have hr : n + 1 - c.utf8Size = byteLength front := by omega
    have hle : c.utf8Size ≤ n + 1 := by omega
    simp [hn, split?, hle, hr, ih]

theorem split?_eq_some_iff {cs front back : List Char} {n : Nat} :
    split? cs n = some (front, back) ↔ cs = front ++ back ∧ byteLength front = n := by
  refine ⟨fun h => ?_, fun ⟨hcs, hn⟩ => by rw [hcs, ← hn, split?_append]⟩
  induction cs generalizing n front with
  | nil =>
    cases n with
    | zero => simp_all [split?, byteLength]
    | succ n => simp [split?] at h
  | cons c cs ih =>
    cases n with
    | zero => simp_all [split?, byteLength]
    | succ n =>
      simp only [split?, Option.ite_none_right_eq_some, Option.map_eq_some_iff] at h
      obtain ⟨hle, ⟨front', back'⟩, hs, he⟩ := h
      obtain ⟨rfl, rfl⟩ : c :: front' = front ∧ back' = back := by simpa using he
      obtain ⟨rfl, hn⟩ := ih hs
      refine ⟨rfl, ?_⟩
      rw [byteLength_cons]
      omega

def isBoundary (cs : List Char) (n : Nat) : Bool := (split? cs n).isSome

theorem isBoundary_append (front back : List Char) :
    isBoundary (front ++ back) (byteLength front) = true := by
  simp [isBoundary, split?_append]

/-- The text under a span; `none` unless both ends are boundaries, in their order. -/
def slice? (cs : List Char) (s : Span) : Option (List Char) := do
  let (upTo, _) ← split? cs s.stop
  let (_, x) ← split? upTo s.start
  return x

theorem slice?_eq_some_iff {cs x : List Char} {s : Span} :
    slice? cs s = some x ↔ ∃ front back, cs = front ++ x ++ back ∧ byteLength front = s.start ∧
      byteLength (front ++ x) = s.stop := by
  simp only [slice?, Option.bind_eq_bind, Option.bind_eq_some_iff, Option.pure_def,
    Option.some.injEq]
  constructor
  · rintro ⟨⟨upTo, back⟩, hu, ⟨front, x'⟩, hf, rfl⟩
    obtain ⟨rfl, hstop⟩ := split?_eq_some_iff.mp hu
    obtain ⟨rfl, hstart⟩ := split?_eq_some_iff.mp hf
    exact ⟨front, back, rfl, hstart, hstop⟩
  · rintro ⟨front, back, hcs, hstart, hstop⟩
    exact ⟨(front ++ x, back), split?_eq_some_iff.mpr ⟨hcs, hstop⟩, (front, x),
      split?_eq_some_iff.mpr ⟨rfl, hstart⟩, rfl⟩

theorem getElem?_bytes_append {front x back : List Char} {i : Nat}
    (hlo : byteLength front ≤ i) (hhi : i < byteLength (front ++ x)) :
    (bytes (front ++ x ++ back))[i]? = (bytes x)[i - byteLength front]? := by
  have hx : i - byteLength front < (bytes x).length := by
    rw [byteLength_append] at hhi
    rw [length_bytes]
    omega
  rw [bytes_append, bytes_append, List.append_assoc,
    List.getElem?_append_right (by rw [length_bytes]; exact hlo), length_bytes,
    List.getElem?_append_left hx]

end Frontend.Text
