import HstongApi.Numerals
import HstongApi.Errs
import HstongApi.Utf8Trim

/-!
# Failure texts of the Gateway

`classifyFailure` splits the text of a failure into a status code and a message. The text may be a
documented code, a code with a message behind it, or a message. Between the code and the message it
strips characters of a set. The set was meant to hold the fullwidth colon, but the bytes of that
character stand in the source as three others: `ï`, `¼` and `š`. So a fullwidth colon stays in front
of the message, and a message that begins with one of the three loses it
(`classifyFailure_splits_iff`).
-/

namespace HstongApi.FailureText

open GoError (codeTable messageForCode)
open Numeral (isDigit)
open Utf8 (chunks trim isSpace)

/-! ## `classifyFailure` -/

/-- `KnownCode` -/
def knownCode (code : StatusCode) : Bool := (codeTable.lookup code).isSome

/-- The characters that are stripped behind a code: space, colon, hyphen, `ï`, `¼`, `š`. -/
def inCutset (c : Bytes) : Bool :=
  [[32], [58], [45], [0xC3, 0xAF], [0xC2, 0xBC], [0xC5, 0xA1]].contains c

/-- `classifyFailure` -/
def classifyFailure (errText : Bytes) : StatusCode × Bytes :=
  let trimmed := Utf8.trimSpace errText
  if trimmed = [] then ([], [])
  else if knownCode trimmed then (trimmed, messageForCode trimmed)
  else
    let stop := skip isDigit trimmed 0
    if 4 ≤ stop ∧ stop ≤ 5 ∧ knownCode (trimmed.take stop) = true then
      let rest := Utf8.trimSpace (Utf8.trimLeft inCutset (trimmed.drop stop))
      (trimmed.take stop, if rest = [] then messageForCode (trimmed.take stop) else rest)
    else ([], trimmed)

/-! ## What it should do -/

/-- The characters between a code and its message. -/
inductive Separator
  | space
  | colon
  | hyphen
  | wideColon
  deriving DecidableEq

/-- The bytes of a separator; `U+FF1A` is the fullwidth colon. -/
def Separator.bytes : Separator → Bytes
  | .space => [32]
  | .colon => [58]
  | .hyphen => [45]
  | .wideColon => [0xEF, 0xBC, 0x9A]

/-- The text of separators. -/
def separators (seps : List Separator) : Bytes := seps.flatMap Separator.bytes

/-- A message that begins with neither a separator nor a digit. -/
structure IsMessage (t : Bytes) : Prop where
  separator : ∀ sep : Separator, ¬sep.bytes <+: t
  digit : ∀ c ∈ t.head?, isDigit c = false

/-- The message without the spaces around it, or the documented one if nothing is left. -/
def messageFor (code : StatusCode) (t : Bytes) : Bytes :=
  if Utf8.trimSpace t = [] then messageForCode code else Utf8.trimSpace t

/-- **A failure text is split correctly**: a code with a message behind it is taken apart, and a text
that does not begin with a documented code is a message as it is. -/
structure Splits (code : StatusCode) (seps : List Separator) (t : Bytes) : Prop where
  coded : classifyFailure (code ++ separators seps ++ t) = (code, messageFor code t)
  uncoded : ∀ s, knownCode ((Utf8.trimSpace s).takeWhile isDigit) = false →
    classifyFailure s = ([], Utf8.trimSpace s)

/-- The message begins with one of the three characters that are stripped by mistake. -/
def LosesFirst (t : Bytes) : Prop := [0xC3, 0xAF] <+: t ∨ [0xC2, 0xBC] <+: t ∨ [0xC5, 0xA1] <+: t

/-! ## Codes -/

variable {code : StatusCode}

/-- The documented codes have four or five digits, and their messages begin with a letter. -/
theorem knownCode_spec (h : knownCode code = true) :
    (∀ c ∈ code, isDigit c = true) ∧ 4 ≤ code.length ∧ code.length ≤ 5 ∧
      ∃ b rest, messageForCode code = b :: rest ∧ b < 0x80 := by
  have hall : ∀ e ∈ codeTable, (∀ c ∈ e.1, isDigit c = true) ∧ 4 ≤ e.1.length ∧ e.1.length ≤ 5 ∧
      (messageForCode e.1).head?.any (· < 0x80) = true := by
    decide +kernel
  have hmem : ∃ e ∈ codeTable, e.1 = code := by
    by_contra hnone
    have hlookup : codeTable.lookup code = none := by
      rw [List.lookup_eq_none_iff]
      intro e he
      exact bne_iff_ne.mpr fun heq => hnone ⟨e, he, heq.symm⟩
    rw [knownCode, hlookup] at h
    cases h
  obtain ⟨e, he, rfl⟩ := hmem
  obtain ⟨hdigits, hlow, hhigh, hmessage⟩ := hall e he
  refine ⟨hdigits, hlow, hhigh, ?_⟩
  cases hm : messageForCode e.1 with
  | nil =>
    rw [hm] at hmessage
    cases hmessage
  | cons b rest =>
    rw [hm] at hmessage
    exact ⟨b, rest, rfl, of_decide_eq_true hmessage⟩

theorem ascii_of_isDigit {c : UInt8} (h : isDigit c = true) : c < 0x80 := by
  rw [isDigit, Bool.and_eq_true, decide_eq_true_eq, decide_eq_true_eq] at h
  exact UInt8.lt_of_le_of_lt h.2 (by decide)

theorem not_isSpace_of_isDigit {c : UInt8} (h : isDigit c = true) : isSpace [c] = false := by
  rw [Utf8.isSpace_ascii (ascii_of_isDigit h)]
  rw [isDigit, Bool.and_eq_true, decide_eq_true_eq, decide_eq_true_eq] at h
  simp only [asciiSpace]
  grind

/-- Digits in front of a text are chunks of one byte. -/
theorem chunks_digits {code : Bytes} (h : ∀ c ∈ code, isDigit c = true) (u : Bytes) :
    chunks (code ++ u) = code.map ([·]) ++ chunks u := by
  induction code with
  | nil => rfl
  | cons c code ih =>
    rw [List.cons_append, Utf8.chunks_ascii (ascii_of_isDigit (h c List.mem_cons_self)),
      ih fun d hd => h d (List.mem_cons_of_mem c hd), List.map_cons, List.cons_append]

/-- A text that begins with digits is trimmed behind them only. -/
theorem trimSpace_digits {code : Bytes} (hne : code ≠ []) (h : ∀ c ∈ code, isDigit c = true)
    (u : Bytes) : Utf8.trimSpace (code ++ u) = code ++ Utf8.trimRight isSpace u := by
  have hspace : ∀ x ∈ code.map ([·]), isSpace x = false := by
    intro x hx
    obtain ⟨c, hc, rfl⟩ := List.mem_map.mp hx
    exact not_isSpace_of_isDigit (h c hc)
  have hflat : (code.map ([·])).flatten = code := List.flatMap_singleton' code
  rw [Utf8.trimSpace_eq, chunks_digits h, Utf8.trim_append_of_not (by simpa using hne) hspace,
    List.flatten_append, hflat, Utf8.trimRight]

/-! ## Texts with a code -/

/-- A text with a documented code, when no digit follows it. -/
theorem classifyFailure_coded (hcode : knownCode code = true) {s x : Bytes}
    (hs : Utf8.trimSpace s = code ++ x) (hx : ∀ c ∈ x.head?, isDigit c = false) :
    classifyFailure s = (code, if Utf8.trimSpace (Utf8.trimLeft inCutset x) = [] then
      messageForCode code else Utf8.trimSpace (Utf8.trimLeft inCutset x)) := by
  obtain ⟨hdigits, hlow, hhigh, -⟩ := knownCode_spec hcode
  have hne : code ++ x ≠ [] := by
    intro hnil
    rw [(List.append_eq_nil_iff.mp hnil).1] at hlow
    exact absurd hlow (by decide)
  simp only [classifyFailure, hs, if_neg hne]
  cases x with
  | nil =>
    rw [List.append_nil, if_pos hcode]
    rfl
  | cons c x =>
    have hunknown : ¬knownCode (code ++ c :: x) = true := by
      intro hknown
      have hdigit := (knownCode_spec hknown).1 c (by simp)
      cases (hx c rfl).symm.trans hdigit
    have hstop : skip isDigit (code ++ c :: x) 0 = code.length := by
      rw [skip_of_drop (w := code) (r := c :: x) rfl hdigits hx, Nat.zero_add]
    rw [if_neg hunknown, hstop, List.take_left, List.drop_left, if_pos ⟨hlow, hhigh, hcode⟩]

theorem classifyFailure_uncoded {s : Bytes}
    (h : knownCode ((Utf8.trimSpace s).takeWhile isDigit) = false) :
    classifyFailure s = ([], Utf8.trimSpace s) := by
  simp only [classifyFailure]
  generalize Utf8.trimSpace s = trimmed at h ⊢
  have hstop : trimmed.take (skip isDigit trimmed 0) = trimmed.takeWhile isDigit := by
    rw [skip, Nat.zero_add, List.drop_zero]
    exact (List.prefix_iff_eq_take.mp (List.takeWhile_prefix isDigit)).symm
  have hunknown : ¬knownCode trimmed = true := by
    intro hknown
    rw [List.takeWhile_eq_self_iff.mpr (knownCode_spec hknown).1, hknown] at h
    cases h
  rw [if_neg hunknown, hstop, h]
  split
  · rename_i hnil
    rw [hnil]
  · rw [if_neg fun hcode => Bool.false_ne_true hcode.2.2]

/-! ## Separators -/

theorem chunks_separators (seps : List Separator) (t : Bytes) :
    chunks (separators seps ++ t) = seps.map Separator.bytes ++ chunks t := by
  induction seps with
  | nil => rfl
  | cons sep seps ih =>
    have hrune : Utf8.isRune sep.bytes = true := by cases sep <;> decide
    rw [separators, List.flatMap_cons, List.append_assoc, ← separators,
      Utf8.chunks_rune ⟨sep.bytes, hrune⟩, ih, List.map_cons, List.cons_append]

variable {t : Bytes}

/-- Neither a separator nor a message begins with a digit. -/
theorem head_not_digit (seps : List Separator) (ht : IsMessage t) :
    ∀ c ∈ (separators seps ++ t).head?, isDigit c = false := by
  cases seps with
  | nil => exact ht.digit
  | cons sep seps =>
    intro c hc
    cases sep <;> cases hc <;> decide

/-- The chunks of the message that is found behind the separators. -/
def found (seps : List Separator) (t : Bytes) : List Bytes :=
  trim isSpace (((seps.map Separator.bytes ++ chunks t).rdropWhile isSpace).dropWhile inCutset)

/-- **What is found behind a code.** -/
theorem classifyFailure_eq (hcode : knownCode code = true) (seps : List Separator)
    (ht : IsMessage t) : classifyFailure (code ++ separators seps ++ t) =
      (code, if (found seps t).flatten = [] then messageForCode code else (found seps t).flatten) := by
  obtain ⟨hdigits, hlow, -⟩ := knownCode_spec hcode
  have hne : code ≠ [] := by
    rintro rfl
    exact absurd hlow (by decide)
  have hhead : ∀ c ∈ (Utf8.trimRight isSpace (separators seps ++ t)).head?, isDigit c = false := by
    intro c hc
    apply head_not_digit seps ht c
    obtain ⟨rest, hrest⟩ := Utf8.trimRight_le isSpace (separators seps ++ t)
    rw [← hrest, List.head?_append, hc]
    rfl
  have hfound : Utf8.trimSpace (Utf8.trimLeft inCutset
      (Utf8.trimRight isSpace (separators seps ++ t))) = (found seps t).flatten := by
    rw [Utf8.trimSpace_eq, Utf8.chunks_trimLeft, Utf8.chunks_trimRight, chunks_separators, found]
  have htrim := trimSpace_digits hne hdigits (separators seps ++ t)
  rw [← List.append_assoc] at htrim
  rw [classifyFailure_coded hcode htrim hhead, hfound]

/-! ## When the message is found -/

variable {seps : List Separator}

/-- The other separators are stripped. -/
theorem inCutset_separators (h : Separator.wideColon ∉ seps) :
    ∀ c ∈ seps.map Separator.bytes, inCutset c = true := by
  intro c hc
  obtain ⟨sep, hsep, rfl⟩ := List.mem_map.mp hc
  cases sep with
  | wideColon => exact absurd hsep h
  | _ => decide

/-- A text begins with its first chunk. -/
theorem chunk_starts {c : Bytes} (hc : c ∈ (chunks t).head?) : c <+: t := by
  cases hchunks : chunks t with
  | nil =>
    rw [hchunks] at hc
    cases hc
  | cons d l =>
    rw [hchunks] at hc
    cases hc
    exact ⟨l.flatten, by rw [← List.flatten_cons, ← hchunks, Utf8.flatten_chunks]⟩

/-- A message that does not lose its first character begins with a chunk that is not stripped. -/
theorem head_not_inCutset (ht : IsMessage t) (hfirst : ¬LosesFirst t) :
    ∀ c ∈ (chunks t).head?, inCutset c = false := by
  intro c hc
  have hstarts : c <+: t := chunk_starts hc
  apply eq_false_of_ne_true
  intro hcut
  simp only [inCutset, List.contains_iff_mem, List.mem_cons, List.not_mem_nil, or_false] at hcut
  rcases hcut with rfl | rfl | rfl | hlost
  · exact ht.separator .space hstarts
  · exact ht.separator .colon hstarts
  · exact ht.separator .hyphen hstarts
  · apply hfirst
    rcases hlost with rfl | rfl | rfl
    · exact .inl hstarts
    · exact .inr (.inl hstarts)
    · exact .inr (.inr hstarts)

theorem found_eq_trim (hseps : Separator.wideColon ∉ seps)
    (hhead : ∀ c ∈ (chunks t).head?, inCutset c = false) :
    found seps t = trim isSpace (chunks t) := by
  have hcut := inCutset_separators hseps
  rw [found, Utf8.rdropWhile_append]
  split
  · rename_i hnil
    have hstarts := List.rdropWhile_prefix isSpace (seps.map Separator.bytes)
    rw [← Utf8.trim_rdropWhile (chunks t), hnil,
      List.dropWhile_eq_nil_iff.mpr fun c hc => hcut c (hstarts.subset hc)]
  · have hkeep : ((chunks t).rdropWhile isSpace).dropWhile inCutset =
        (chunks t).rdropWhile isSpace := by
      cases hrest : (chunks t).rdropWhile isSpace with
      | nil => rfl
      | cons c l =>
        apply List.dropWhile_cons_of_neg
        obtain ⟨rest, happend⟩ := List.rdropWhile_prefix isSpace (chunks t)
        rw [hhead c (by rw [← happend, hrest]; rfl)]
        exact Bool.false_ne_true
    rw [List.dropWhile_append_of_pos hcut, hkeep, Utf8.trim_rdropWhile]

/-- A fullwidth colon stays, with everything behind it. -/
theorem found_wideColon (h : Separator.wideColon ∈ seps) (t : Bytes) :
    ∃ rest, found seps t = Separator.wideColon.bytes :: rest ∧
      (trim isSpace (chunks t)).flatten.length ≤ rest.flatten.length := by
  obtain ⟨before, after, rfl, hbefore⟩ := List.eq_append_cons_of_mem h
  have hcut := inCutset_separators hbefore
  have hspace : isSpace Separator.wideColon.bytes = false := by decide
  refine ⟨(after.map Separator.bytes ++ chunks t).rdropWhile isSpace, ?_, ?_⟩
  · rw [found, List.map_append, List.map_cons, List.append_assoc, List.cons_append,
      Utf8.rdropWhile_append_of_not ⟨_, List.mem_cons_self, hspace⟩, List.dropWhile_append_of_pos hcut,
      Utf8.rdropWhile_cons_of_not hspace, List.dropWhile_cons_of_neg (by decide),
      Utf8.trim_cons_of_not hspace, List.rdropWhile_idempotent]
  · have hle := Utf8.length_flatten_trim_le (q := isSpace) ((chunks t).rdropWhile isSpace)
    rw [Utf8.trim_rdropWhile] at hle
    rw [Utf8.rdropWhile_append]
    split
    · rename_i hnil
      rw [hnil] at hle
      exact hle.trans (Nat.zero_le _)
    · rw [List.flatten_append, List.length_append]
      omega

/-- Such a message begins with a character that is stripped, though it is not a space. -/
theorem LosesFirst.chunks (h : LosesFirst t) : ∃ (b c : UInt8) (l : List Bytes),
    chunks t = [b, c] :: l ∧ ¬b < 0x80 ∧ inCutset [b, c] = true ∧ isSpace [b, c] = false := by
  have hrune : ∀ b c : UInt8, Utf8.isRune [b, c] = true ∧ ¬b < 0x80 ∧ inCutset [b, c] = true ∧
      isSpace [b, c] = false → [b, c] <+: t → ∃ (b c : UInt8) (l : List Bytes),
        Utf8.chunks t = [b, c] :: l ∧ ¬b < 0x80 ∧ inCutset [b, c] = true ∧ isSpace [b, c] = false := by
    rintro b c ⟨hbytes, hcut⟩ ⟨u, rfl⟩
    exact ⟨b, c, _, Utf8.chunks_rune ⟨[b, c], hbytes⟩ u, hcut⟩
  rcases h with h | h | h <;> exact hrune _ _ (by decide) h

/-- A message that begins with one of the three characters is found without it. -/
theorem found_losesFirst (hseps : Separator.wideColon ∉ seps) (h : LosesFirst t) :
    (found seps t).flatten.length < (trim isSpace (chunks t)).flatten.length ∧
      ∃ b rest, (trim isSpace (chunks t)).flatten = b :: rest ∧ ¬b < 0x80 := by
  obtain ⟨b, c, l, hchunks, hb, hlost, hspace⟩ := h.chunks
  have hcut := inCutset_separators hseps
  have hfound : found seps t = trim isSpace ((l.rdropWhile isSpace).dropWhile inCutset) := by
    rw [found, hchunks, Utf8.rdropWhile_append_of_not ⟨_, List.mem_cons_self, hspace⟩,
      List.dropWhile_append_of_pos hcut, Utf8.rdropWhile_cons_of_not hspace,
      List.dropWhile_cons_of_pos hlost]
  rw [hfound, hchunks, Utf8.trim_cons_of_not hspace]
  refine ⟨?_, b, c :: (l.rdropWhile isSpace).flatten, rfl, hb⟩
  have htrim := Utf8.length_flatten_trim_le (q := isSpace) ((l.rdropWhile isSpace).dropWhile inCutset)
  obtain ⟨before, hbefore⟩ := List.dropWhile_suffix (l := l.rdropWhile isSpace) inCutset
  have hdrop : ((l.rdropWhile isSpace).dropWhile inCutset).flatten.length ≤
      (l.rdropWhile isSpace).flatten.length := by
    nth_rewrite 2 [← hbefore]
    rw [List.flatten_append, List.length_append]
    exact Nat.le_add_left _ _
  rw [List.flatten_cons, List.length_append, List.length_cons, List.length_singleton]
  omega

/-- **When a failure text is split correctly.** -/
theorem classifyFailure_splits_iff (code : StatusCode) (seps : List Separator) (t : Bytes)
    (hcode : knownCode code = true) (ht : IsMessage t) :
    Splits code seps t ↔ Separator.wideColon ∉ seps ∧ ¬LosesFirst t := by
  have heq := classifyFailure_eq hcode seps ht
  have htrim := Utf8.trimSpace_eq t
  constructor
  · intro h
    have hmessage := congrArg Prod.snd (heq.symm.trans h.coded)
    dsimp only at hmessage
    obtain ⟨-, -, -, a, letters, hdocumented, hascii⟩ := knownCode_spec hcode
    have hwide : Separator.wideColon ∉ seps := by
      intro hmem
      obtain ⟨rest, hfound, hlength⟩ := found_wideColon hmem t
      rw [hfound, List.flatten_cons, if_neg (by simp [Separator.bytes]), messageFor, htrim] at hmessage
      split at hmessage
      · rw [hdocumented] at hmessage
        cases hmessage
        exact absurd hascii (by decide)
      · have := congrArg List.length hmessage
        rw [List.length_append, Separator.bytes, List.length_cons] at this
        omega
    refine ⟨hwide, fun hloses => ?_⟩
    obtain ⟨hlength, b, rest, hfirst, hb⟩ := found_losesFirst hwide hloses
    have hne : (trim isSpace (chunks t)).flatten ≠ [] := hfirst ▸ List.cons_ne_nil _ _
    rw [messageFor, htrim, if_neg hne] at hmessage
    split at hmessage
    · rw [hdocumented, hfirst] at hmessage
      cases hmessage
      exact hb hascii
    · rw [hmessage] at hlength
      exact absurd hlength (Nat.lt_irrefl _)
  · rintro ⟨hseps, hfirst⟩
    refine ⟨?_, fun s hs => classifyFailure_uncoded hs⟩
    rw [heq, found_eq_trim hseps (head_not_inCutset ht hfirst), messageFor, htrim]

/-- A code, a colon and a space, and a message. -/
theorem classifyFailure_splits_loggedOut :
    Splits (bytes "1012") [.colon, .space] (bytes "not logged in") := by
  refine (classifyFailure_splits_iff _ _ _ (by decide +kernel) ⟨?_, ?_⟩).mpr ⟨by decide, ?_⟩
  · intro sep
    cases sep <;> decide +kernel
  · decide +kernel
  · rw [LosesFirst]
    decide +kernel

/-- A fullwidth colon that stays, and a message that loses its first character. -/
theorem classifyFailure_missplits :
    classifyFailure (bytes "1012：not logged in") = (bytes "1012", bytes "：not logged in") ∧
      classifyFailure (bytes "1012 šifra") = (bytes "1012", bytes "ifra") := by
  decide +kernel

end HstongApi.FailureText
