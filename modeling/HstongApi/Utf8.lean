import HstongApi.Bytes

/-!
# Text in UTF-8

A string of bytes is cut into `pieces`: characters in UTF-8, and single bytes that are not part of a
character. This is how a decoder walks over a string. What it reports for a byte that is not part of a
character is the same for all of them, so a text with such a byte is not determined by its pieces
(`exists_pieces_eq`), and every other text is (`pieces_inj`).
-/

namespace HstongApi.Utf8

/-! ## Characters -/

/-- A byte that continues a character. -/
def isTail (b : UInt8) : Bool := 0x80 ≤ b && b ≤ 0xBF

/-- The bytes of one character. -/
def isRune : Bytes → Bool
  | [a] => a < 0x80
  | [a, b] => 0xC2 ≤ a && a ≤ 0xDF && isTail b
  | [a, b, c] =>
    (a == 0xE0 && 0xA0 ≤ b || (0xE1 ≤ a && a ≤ 0xEC || a == 0xED && b ≤ 0x9F ||
      0xEE ≤ a && a ≤ 0xEF)) && isTail b && isTail c
  | [a, b, c, d] =>
    (a == 0xF0 && 0x90 ≤ b || 0xF1 ≤ a && a ≤ 0xF3 || a == 0xF4 && b ≤ 0x8F) && isTail b &&
      isTail c && isTail d
  | _ => false

/-- A character. -/
abbrev Rune : Type := { bytes : Bytes // isRune bytes = true }

/-- How long a character with this first byte is. -/
def width (a : UInt8) : ℕ := if a < 0x80 then 1 else if a < 0xE0 then 2 else if a < 0xF0 then 3 else 4

/-- The character at the start of a text. -/
def rune? : Bytes → Option Rune
  | [] => none
  | a :: t => if h : isRune ((a :: t).take (width a)) = true then some ⟨_, h⟩ else none

variable {t : Bytes}

/-- The first byte gives the length, and the highest bytes do not start a character. -/
theorem first_of_isRune {a : UInt8} (h : isRune (a :: t) = true) :
    (a :: t).length = width a ∧ a ≤ 0xF4 := by
  match t with
  | [] =>
    simp only [isRune, decide_eq_true_eq] at h
    simp only [width, List.length_cons, List.length_nil]
    grind
  | [b] =>
    simp only [isRune, Bool.and_eq_true, decide_eq_true_eq] at h
    simp only [width, List.length_cons, List.length_nil]
    grind
  | [b, c] | [b, c, d] =>
    simp only [isRune, Bool.and_eq_true, Bool.or_eq_true, decide_eq_true_eq, beq_iff_eq] at h
    simp only [width, List.length_cons, List.length_nil]
    grind
  | b :: c :: d :: e :: t => cases h

theorem Rune.ne_nil (r : Rune) : r.1 ≠ [] := by
  intro hnil
  have h := r.2
  rw [hnil] at h
  cases h

/-- The character in front of a text is found there. -/
theorem rune?_append (r : Rune) (t : Bytes) : rune? (r.1 ++ t) = some r := by
  obtain ⟨bytes, h⟩ := r
  cases bytes with
  | nil => cases h
  | cons a u =>
    have htake : ((a :: u) ++ t).take (width a) = a :: u := by
      rw [← (first_of_isRune h).1]
      exact List.take_left
    rw [List.cons_append] at htake
    simp only [List.cons_append, rune?, htake, h, dite_true]

theorem eq_append_of_rune? {r : Rune} (h : rune? t = some r) : ∃ u, t = r.1 ++ u := by
  cases t with
  | nil => cases h
  | cons a t =>
    simp only [rune?] at h
    split at h <;> cases h
    exact ⟨_, (List.take_append_drop (width a) (a :: t)).symm⟩

/-! ## Pieces -/

/-- A character, or a byte that is not part of one. -/
inductive Piece
  | rune (r : Rune)
  | bad
  deriving DecidableEq

/-- The pieces of a text, as many as `n`. -/
def piecesUpTo : ℕ → Bytes → List Piece
  | 0, _ => []
  | _ + 1, [] => []
  | n + 1, b :: t =>
    match rune? (b :: t) with
    | some r => .rune r :: piecesUpTo n ((b :: t).drop r.1.length)
    | none => .bad :: piecesUpTo n t

/-- **The pieces of a text.** -/
def pieces (t : Bytes) : List Piece := piecesUpTo t.length t

@[simp] theorem piecesUpTo_nil (n : ℕ) : piecesUpTo n [] = [] := by
  cases n <;> rfl

/-- More than the length of the text makes no difference. -/
theorem piecesUpTo_eq {n m : ℕ} (hn : t.length ≤ n) (hm : t.length ≤ m) :
    piecesUpTo n t = piecesUpTo m t := by
  induction n generalizing m t with
  | zero =>
    rw [List.length_eq_zero_iff.mp (Nat.le_zero.mp hn), piecesUpTo_nil, piecesUpTo_nil]
  | succ n ih =>
    cases t with
    | nil => rw [piecesUpTo_nil, piecesUpTo_nil]
    | cons b t =>
      rw [List.length_cons] at hn hm
      obtain ⟨m, rfl⟩ := Nat.exists_eq_add_of_le' hm
      rw [← Nat.add_assoc, piecesUpTo, piecesUpTo]
      split
      · rename_i r _
        have hpos := List.length_pos_iff.mpr r.ne_nil
        refine congrArg _ (ih ?_ ?_)
        · rw [List.length_drop, List.length_cons]
          omega
        · rw [List.length_drop, List.length_cons]
          omega
      · exact congrArg _ (ih (by omega) (by omega))

@[simp] theorem pieces_nil : pieces [] = [] := rfl

@[simp] theorem pieces_rune (r : Rune) (t : Bytes) : pieces (r.1 ++ t) = .rune r :: pieces t := by
  have hrune := rune?_append r t
  have hpos := List.length_pos_iff.mpr r.ne_nil
  have hdrop : (r.1 ++ t).drop r.1.length = t := List.drop_left
  have hlength : (r.1 ++ t).length = r.1.length + t.length := List.length_append
  unfold pieces
  generalize r.1 ++ t = u at hrune hdrop hlength ⊢
  cases u with
  | nil => cases hrune
  | cons b u =>
    rw [List.length_cons] at hlength ⊢
    rw [piecesUpTo, hrune]
    simp only [hdrop]
    rw [piecesUpTo_eq (n := u.length) (m := t.length) (by omega) (by omega)]

theorem pieces_bad {b : UInt8} (h : rune? (b :: t) = none) :
    pieces (b :: t) = .bad :: pieces t := by
  rw [pieces, List.length_cons, piecesUpTo, h]
  rfl

/-- A text is taken apart piece by piece. -/
theorem text_induction {motive : Bytes → Prop} (nil : motive [])
    (rune : ∀ (r : Rune) t, motive t → motive (r.1 ++ t))
    (bad : ∀ b t, rune? (b :: t) = none → motive t → motive (b :: t)) (t : Bytes) : motive t := by
  induction hlength : t.length using Nat.strong_induction_on generalizing t with
  | _ n ih =>
    cases t with
    | nil => exact nil
    | cons b t =>
      cases hrune : rune? (b :: t) with
      | none => exact bad b t hrune (ih t.length (by rw [← hlength]; exact Nat.lt_succ_self _) t rfl)
      | some r =>
        obtain ⟨u, hu⟩ := eq_append_of_rune? hrune
        have hpos := List.length_pos_iff.mpr r.ne_nil
        rw [hu, List.length_append] at hlength
        rw [hu]
        exact rune r u (ih u.length (by omega) u rfl)

/-- Only the empty text has no pieces. -/
theorem pieces_eq_nil : pieces t = [] ↔ t = [] := by
  refine ⟨fun h => ?_, fun h => h ▸ pieces_nil⟩
  cases t with
  | nil => rfl
  | cons b t =>
    rw [pieces, List.length_cons, piecesUpTo] at h
    split at h <;> cases h

/-! ## Reading pieces back -/

/-- What stands for a piece: a byte that is not part of a character is replaced by `U+FFFD`. -/
def Piece.bytes : Piece → Bytes
  | .rune r => r.1
  | .bad => [0xEF, 0xBF, 0xBD]

/-- The text of pieces. -/
def text (l : List Piece) : Bytes := l.flatMap Piece.bytes

/-- The text is UTF-8. -/
def IsUtf8 (t : Bytes) : Prop := Piece.bad ∉ pieces t

instance (t : Bytes) : Decidable (IsUtf8 t) := inferInstanceAs (Decidable (¬_))

/-- **UTF-8 is read back.** -/
theorem text_pieces (h : IsUtf8 t) : text (pieces t) = t := by
  induction t using text_induction with
  | nil => rfl
  | rune r t ih =>
    rw [IsUtf8, pieces_rune, List.mem_cons, not_or] at h
    rw [pieces_rune, text, List.flatMap_cons, ← text, ih h.2]
    rfl
  | bad b t hbad _ =>
    rw [IsUtf8, pieces_bad hbad] at h
    exact absurd List.mem_cons_self h

/-- ASCII is UTF-8. -/
theorem isUtf8_of_ascii (h : ∀ c ∈ t, c < 0x80) : IsUtf8 t := by
  induction t with
  | nil => exact List.not_mem_nil
  | cons c t ih =>
    have hrune : isRune [c] = true := decide_eq_true (h c List.mem_cons_self)
    have hpieces : pieces (c :: t) = .rune ⟨[c], hrune⟩ :: pieces t := pieces_rune ⟨[c], hrune⟩ t
    rw [IsUtf8, hpieces, List.mem_cons, not_or]
    exact ⟨nofun, ih fun d hd => h d (List.mem_cons_of_mem c hd)⟩

/-- **UTF-8 is determined by its pieces.** -/
theorem pieces_inj {u : Bytes} (h : IsUtf8 t) (heq : pieces t = pieces u) : t = u := by
  have hu : IsUtf8 u := by
    rw [IsUtf8, ← heq]
    exact h
  rw [← text_pieces h, heq, text_pieces hu]

/-- The two highest bytes are not part of a character. -/
theorem rune?_high {b : UInt8} (hb : b = 0xFE ∨ b = 0xFF) (t : Bytes) : rune? (b :: t) = none := by
  cases hrune : rune? (b :: t) with
  | none => rfl
  | some r =>
    obtain ⟨u, hu⟩ := eq_append_of_rune? hrune
    obtain ⟨bytes, h⟩ := r
    cases bytes with
    | nil => cases h
    | cons a v =>
      cases hu
      have hle := (first_of_isRune h).2
      rcases hb with rfl | rfl <;> exact absurd hle (by decide)

/-- **Other texts are not**: another text has the same pieces. -/
theorem exists_pieces_eq (h : ¬IsUtf8 t) : ∃ u, u ≠ t ∧ pieces u = pieces t := by
  induction t using text_induction with
  | nil => exact absurd List.not_mem_nil h
  | rune r t ih =>
    have ht : ¬IsUtf8 t := by
      intro ht
      rw [IsUtf8, pieces_rune, List.mem_cons, not_or] at h
      exact h ⟨nofun, ht⟩
    obtain ⟨u, hne, heq⟩ := ih ht
    refine ⟨r.1 ++ u, fun hsame => hne (List.append_cancel_left hsame), ?_⟩
    rw [pieces_rune, pieces_rune, heq]
  | bad b t hbad _ =>
    obtain ⟨c, hc, hne⟩ : ∃ c : UInt8, (c = 0xFE ∨ c = 0xFF) ∧ c ≠ b := by
      by_cases hb : b = 0xFE
      · exact ⟨0xFF, .inr rfl, hb ▸ by decide⟩
      · exact ⟨0xFE, .inl rfl, fun h => hb h.symm⟩
    refine ⟨c :: t, fun hsame => hne (List.cons.inj hsame).1, ?_⟩
    rw [pieces_bad hbad, pieces_bad (rune?_high hc t)]

end HstongApi.Utf8
