import HstongApi.Utf8
import Mathlib.Data.List.DropRight

/-!
# Trimming text

`strings.TrimLeft` and `strings.TrimSpace` take characters from the ends of a text. Here a text is cut
into `chunks`: the bytes of a character, or one byte that is not part of a character. A character that
is a space, or in a set of characters, is taken away; a byte that is not part of a character stays.

The code walks over the end of a text backwards. It finds the same characters, since the bytes of a
character do not occur inside another one.
-/

namespace HstongApi.Utf8

/-! ## Chunks -/

/-- How many bytes a piece has in its text. -/
def Piece.size : Piece → ℕ
  | .rune r => r.1.length
  | .bad => 1

/-- A text cut along its pieces. -/
def cutAlong : List Piece → Bytes → List Bytes
  | [], _ => []
  | p :: l, t => t.take p.size :: cutAlong l (t.drop p.size)

/-- **The chunks of a text.** -/
def chunks (t : Bytes) : List Bytes := cutAlong (pieces t) t

@[simp] theorem chunks_nil : chunks [] = [] := rfl

@[simp] theorem chunks_rune (r : Rune) (t : Bytes) : chunks (r.1 ++ t) = r.1 :: chunks t := by
  rw [chunks, pieces_rune, cutAlong, Piece.size, List.take_left, List.drop_left, chunks]

theorem chunks_bad {b : UInt8} {t : Bytes} (h : rune? (b :: t) = none) :
    chunks (b :: t) = [b] :: chunks t := by
  rw [chunks, pieces_bad h]
  rfl

/-- An ASCII character is a chunk. -/
theorem chunks_ascii {c : UInt8} (h : c < 0x80) (t : Bytes) : chunks (c :: t) = [c] :: chunks t :=
  chunks_rune ⟨[c], decide_eq_true h⟩ t

@[simp] theorem flatten_chunks (t : Bytes) : (chunks t).flatten = t := by
  induction t using text_induction with
  | nil => rfl
  | rune r t ih => rw [chunks_rune, List.flatten_cons, ih]
  | bad b t hbad ih => rw [chunks_bad hbad, List.flatten_cons, ih, List.singleton_append]

/-- The chunks of the rest of a text are the rest of its chunks. -/
theorem chunks_of_suffix {t : Bytes} {l : List Bytes} (h : l <:+ chunks t) :
    chunks l.flatten = l := by
  induction t using text_induction with
  | nil => rw [List.suffix_nil.mp h, List.flatten_nil, chunks_nil]
  | rune r t ih =>
    rw [chunks_rune] at h
    rcases List.suffix_cons_iff.mp h with rfl | h
    · rw [List.flatten_cons, flatten_chunks, chunks_rune]
    · exact ih h
  | bad b t hbad ih =>
    rw [chunks_bad hbad] at h
    rcases List.suffix_cons_iff.mp h with rfl | h
    · rw [List.flatten_cons, flatten_chunks, List.singleton_append, chunks_bad hbad]
    · exact ih h

/-- A byte that does not begin a character does not begin one in a shorter text. -/
theorem rune?_none_of_le {b : UInt8} {t u : Bytes} (hu : u <+: t) (h : rune? (b :: t) = none) :
    rune? (b :: u) = none := by
  cases hrune : rune? (b :: u) with
  | none => rfl
  | some r =>
    obtain ⟨v, hv⟩ := eq_append_of_rune? hrune
    obtain ⟨w, rfl⟩ := hu
    have hsome := rune?_append r (v ++ w)
    rw [← List.append_assoc, ← hv, List.cons_append, h] at hsome
    cases hsome

/-- The chunks of the beginning of a text are the first of its chunks. -/
theorem chunks_flatten_of_le {t : Bytes} {l : List Bytes} (h : l <+: chunks t) :
    chunks l.flatten = l := by
  induction t using text_induction generalizing l with
  | nil => rw [List.prefix_nil.mp h, List.flatten_nil, chunks_nil]
  | rune r t ih =>
    rw [chunks_rune] at h
    rcases List.prefix_cons_iff.mp h with rfl | ⟨l, rfl, hl⟩
    · rfl
    · rw [List.flatten_cons, chunks_rune, ih hl]
  | bad b t hbad ih =>
    rw [chunks_bad hbad] at h
    rcases List.prefix_cons_iff.mp h with rfl | ⟨l, rfl, hl⟩
    · rfl
    · have hshort : l.flatten <+: t := by
        obtain ⟨rest, hrest⟩ := hl
        exact ⟨rest.flatten, by rw [← List.flatten_append, hrest, flatten_chunks]⟩
      rw [List.flatten_cons, List.singleton_append, chunks_bad (rune?_none_of_le hshort hbad), ih hl]

/-! ## Trimming lists -/

section

variable {α : Type*} (p : α → Bool)

/-- A list without what passes a test at its ends. -/
def trim (l : List α) : List α := (l.dropWhile p).rdropWhile p

variable {p}

/-- What is dropped from the end of two lists. -/
theorem rdropWhile_append (l l' : List α) : (l ++ l').rdropWhile p =
    if l'.rdropWhile p = [] then l.rdropWhile p else l ++ l'.rdropWhile p := by
  simp only [List.rdropWhile, List.reverse_append, List.dropWhile_append, List.isEmpty_iff,
    List.reverse_eq_nil_iff]
  split
  · rfl
  · rw [List.reverse_append, List.reverse_reverse]

/-- What does not pass the test keeps what is before it. -/
theorem rdropWhile_append_of_not {l l' : List α} (h : ∃ x ∈ l', p x = false) :
    (l ++ l').rdropWhile p = l ++ l'.rdropWhile p := by
  obtain ⟨x, hx, hfalse⟩ := h
  have hne : l'.rdropWhile p ≠ [] := by
    intro hnil
    cases (List.rdropWhile_eq_nil_iff.mp hnil x hx).symm.trans hfalse
  rw [rdropWhile_append, if_neg hne]

theorem rdropWhile_cons_of_not {a : α} (h : p a = false) (l : List α) :
    (a :: l).rdropWhile p = a :: l.rdropWhile p := by
  rw [← List.singleton_append, rdropWhile_append]
  split
  · rename_i hnil
    rw [List.rdropWhile_singleton, h, hnil]
    rfl
  · rfl

theorem trim_cons_of_not {a : α} (h : p a = false) (l : List α) :
    trim p (a :: l) = a :: l.rdropWhile p := by
  rw [trim, List.dropWhile_cons_of_neg (by simp [h]), rdropWhile_cons_of_not h]

/-- What does not pass the test keeps what is behind it, up to its end. -/
theorem trim_append_of_not {l : List α} (hne : l ≠ []) (h : ∀ x ∈ l, p x = false) (l' : List α) :
    trim p (l ++ l') = l ++ l'.rdropWhile p := by
  obtain ⟨a, l, rfl⟩ := List.exists_cons_of_ne_nil hne
  rw [List.cons_append, trim_cons_of_not (h a List.mem_cons_self), rdropWhile_append]
  split
  · rename_i hnil
    rw [hnil, List.append_nil, List.rdropWhile_eq_self_iff.mpr]
    intro hl hlast
    cases (h _ (List.mem_cons_of_mem a (List.getLast_mem hl))).symm.trans hlast
  · rfl

theorem trim_cons_of_pos {a : α} (h : p a = true) (l : List α) : trim p (a :: l) = trim p l := by
  rw [trim, List.dropWhile_cons_of_pos h, trim]

/-- A list that is trimmed at its end may be trimmed at both. -/
theorem trim_rdropWhile (l : List α) : trim p (l.rdropWhile p) = trim p l := by
  induction l with
  | nil => rfl
  | cons a l ih =>
    cases ha : p a with
    | false =>
      rw [rdropWhile_cons_of_not ha, trim_cons_of_not ha, trim_cons_of_not ha,
        List.rdropWhile_idempotent]
    | true =>
      rw [trim_cons_of_pos ha, ← List.singleton_append, rdropWhile_append]
      split
      · rename_i hnil
        rw [List.rdropWhile_singleton, ha, if_pos rfl, ← ih, hnil]
      · rw [List.singleton_append, trim_cons_of_pos ha, ih]

theorem length_flatten_trim_le {q : List α → Bool} (l : List (List α)) :
    (trim q l).flatten.length ≤ l.flatten.length := by
  obtain ⟨before, hbefore⟩ := List.dropWhile_suffix (l := l) q
  obtain ⟨after, hafter⟩ := List.rdropWhile_prefix q (l.dropWhile q)
  have hl : l = before ++ (trim q l ++ after) := by rw [trim, hafter, hbefore]
  nth_rewrite 2 [hl]
  simp only [List.flatten_append, List.length_append]
  omega

end

/-! ## Trimming texts -/

/-- `strings.TrimLeft` for a set of characters, and `strings.TrimLeftFunc`. -/
def trimLeft (p : Bytes → Bool) (s : Bytes) : Bytes := ((chunks s).dropWhile p).flatten

/-- `strings.TrimRightFunc` -/
def trimRight (p : Bytes → Bool) (s : Bytes) : Bytes := ((chunks s).rdropWhile p).flatten

@[simp] theorem chunks_trimLeft (p : Bytes → Bool) (s : Bytes) :
    chunks (trimLeft p s) = (chunks s).dropWhile p :=
  chunks_of_suffix (List.dropWhile_suffix p)

@[simp] theorem chunks_trimRight (p : Bytes → Bool) (s : Bytes) :
    chunks (trimRight p s) = (chunks s).rdropWhile p :=
  chunks_flatten_of_le (List.rdropWhile_prefix p _)

theorem trimRight_le (p : Bytes → Bool) (s : Bytes) : trimRight p s <+: s := by
  obtain ⟨rest, hrest⟩ := List.rdropWhile_prefix p (chunks s)
  exact ⟨rest.flatten, by rw [trimRight, ← List.flatten_append, hrest, flatten_chunks]⟩

/-- `unicode.IsSpace` -/
def isSpace (c : Bytes) : Bool :=
  [[9], [10], [11], [12], [13], [32], [0xC2, 0x85], [0xC2, 0xA0], [0xE1, 0x9A, 0x80],
    [0xE2, 0x80, 0x80], [0xE2, 0x80, 0x81], [0xE2, 0x80, 0x82], [0xE2, 0x80, 0x83],
    [0xE2, 0x80, 0x84], [0xE2, 0x80, 0x85], [0xE2, 0x80, 0x86], [0xE2, 0x80, 0x87],
    [0xE2, 0x80, 0x88], [0xE2, 0x80, 0x89], [0xE2, 0x80, 0x8A], [0xE2, 0x80, 0xA8],
    [0xE2, 0x80, 0xA9], [0xE2, 0x80, 0xAF], [0xE2, 0x81, 0x9F], [0xE3, 0x80, 0x80]].contains c

/-- `strings.TrimSpace` -/
def trimSpace (s : Bytes) : Bytes := trimRight isSpace (trimLeft isSpace s)

theorem trimSpace_eq (s : Bytes) : trimSpace s = (trim isSpace (chunks s)).flatten := by
  rw [trimSpace, trimRight, chunks_trimLeft, trim]

/-- The spaces of ASCII. -/
theorem isSpace_ascii {c : UInt8} (h : c < 0x80) : isSpace [c] = asciiSpace c := by
  have hall : ∀ n : Fin 128, isSpace [UInt8.ofNat n] = asciiSpace (UInt8.ofNat n) := by
    decide +kernel
  have hc := hall ⟨c.toNat, UInt8.lt_iff_toNat_lt.mp h⟩
  rwa [UInt8.ofNat_toNat] at hc

end HstongApi.Utf8
