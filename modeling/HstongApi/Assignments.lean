import HstongApi.RedactText

/-!
# Sensitive assignments, and when redaction is total

The loop of `redactText` finds its values by scanning. Here the same values are
described by what they are: an `Assignment` of a text is a way to read it as

  `before ++ key ++ gap ++ value ++ after`

where `key` is a whole word that names a secret, `gap` is the separator with its
blanks and quotes, and `value` reaches up to its terminator. `mem_spans` says that
the values the loop means to mask are exactly the values of the assignments.

Assignments may overlap: in `password=token=x` the value of `password` holds a
second assignment. Such a text is `Nested`, and `redactText` panics on exactly
the nested texts (`redactText_returns_iff`): the cut point has then moved past the
start of the inner value.
-/

namespace HstongApi

/-! ## The grammar of an assignment -/

/-- A run of spaces and tabs. -/
def Blanks (w : Bytes) : Prop := ∀ c ∈ w, isBlank c = true

/-- What may stand between a key and its separator. -/
inductive KeyClose : Bytes → Prop where
  /-- blanks only -/
  | bare {w : Bytes} : Blanks w → KeyClose w
  /-- the closing quote of the key -/
  | quoted {w₁ w₂ : Bytes} {c : UInt8} :
      Blanks w₁ → isQuote c = true → Blanks w₂ → KeyClose (w₁ ++ c :: w₂)

/-- What may stand between a separator and the value, which is quoted or not. -/
inductive ValueOpen : Bool → Bytes → Prop where
  /-- blanks only -/
  | bare {w : Bytes} : Blanks w → ValueOpen false w
  /-- the opening quote of the value -/
  | quoted {w : Bytes} {c : UInt8} : Blanks w → isQuote c = true → ValueOpen true (w ++ [c])

/-- The text between a key and its value. -/
def Gap (quoted : Bool) (gap : Bytes) : Prop :=
  ∃ close sep opening, gap = close ++ sep :: opening ∧ KeyClose close ∧
    isSeparator sep = true ∧ ValueOpen quoted opening

section

variable [UnicodeTables]

/-- A value and the text after it. -/
inductive IsValue : Bool → Bytes → Bytes → Prop where
  /-- a quoted value ends at the next quote of either kind -/
  | quoted {value after : Bytes} : value ≠ [] → (∀ c ∈ value, isQuote c = false) →
      (∀ c ∈ after.head?, isQuote c = true) → IsValue true value after
  /-- a bare value ends at a terminator -/
  | word {value after : Bytes} : value ≠ [] →
      (∀ c ∈ value, isValueTerminator c false = false) →
      (∀ c ∈ after.head?, isValueTerminator c false = true) →
      (isAuthScheme value = true → after = []) → IsValue false value after
  /-- a credential is a scheme word and everything up to the end of the field -/
  | credential {scheme rest after : Bytes} : scheme ≠ [] →
      (∀ c ∈ scheme, isValueTerminator c false = false) →
      (∀ c ∈ (rest ++ after).head?, isValueTerminator c false = true) →
      rest ++ after ≠ [] → isAuthScheme scheme = true →
      (∀ c ∈ rest, isCredentialTerminator c = false) →
      (∀ c ∈ after.head?, isCredentialTerminator c = true) → IsValue false (scheme ++ rest) after

/-- An assignment to a sensitive key in the text `s`. -/
structure Assignment (s : Bytes) where
  /-- the text before the key -/
  before : Bytes
  /-- the key -/
  key : Bytes
  /-- the separator, with blanks and quotes -/
  gap : Bytes
  /-- the assigned value -/
  value : Bytes
  /-- the text after the value -/
  after : Bytes
  /-- whether the value is quoted -/
  quoted : Bool
  text : s = before ++ key ++ gap ++ value ++ after
  key_ne_nil : key ≠ []
  key_bytes : ∀ c ∈ key, isKeyByte c = true
  key_first : ∀ c ∈ before.getLast?, isKeyByte c = false
  sensitive : isSensitiveKey key = true
  gap_ok : Gap quoted gap
  value_ok : IsValue quoted value after

namespace Assignment

variable {s : Bytes}

/-- The position of the first byte of the key. -/
def keyStart (a : Assignment s) : ℕ := a.before.length

/-- The position after the last byte of the key. -/
def keyEnd (a : Assignment s) : ℕ := a.before.length + a.key.length

/-- The position of the first byte of the value. -/
def valStart (a : Assignment s) : ℕ := a.before.length + a.key.length + a.gap.length

/-- The position after the last byte of the value. -/
def valEnd (a : Assignment s) : ℕ := a.valStart + a.value.length

end Assignment

/-- Some sensitive assignment starts its value inside the value of another. -/
def Nested (s : Bytes) : Prop :=
  ∃ a b : Assignment s, a.valStart < b.valStart ∧ b.valStart < a.valEnd

end

/-! ## Bytes of the grammar -/

variable {c : UInt8} {s r : Bytes} {quoted : Bool} {e v j : ℕ}

theorem isBlank_of_isSeparator (h : isSeparator c = true) : isBlank c = false := by
  simp only [isSeparator, isBlank] at *
  grind

theorem isQuote_of_isSeparator (h : isSeparator c = true) : isQuote c = false := by
  simp only [isSeparator, isQuote] at *
  grind

theorem isBlank_of_isQuote (h : isQuote c = true) : isBlank c = false := by
  simp only [isQuote, isBlank] at *
  grind

/-- A byte that may stand between a key and its value. -/
def IsGapByte (c : UInt8) : Prop := isBlank c = true ∨ isQuote c = true ∨ isSeparator c = true

theorem IsGapByte.not_key (h : IsGapByte c) : isKeyByte c = false := by
  rcases h with h | h | h
  · simp only [isBlank, isKeyByte] at *
    grind
  · simp only [isQuote, isKeyByte] at *
    grind
  · simp only [isSeparator, isKeyByte] at *
    grind

/-- A byte that does not end a bare value is neither blank nor a quote. -/
theorem not_terminator (h : isValueTerminator c false = false) :
    isBlank c = false ∧ isQuote c = false := by
  simp only [isValueTerminator, isCredentialTerminator, Bool.false_eq_true, if_false,
    Bool.or_eq_false_iff] at h
  exact ⟨h.1, h.2.2⟩

variable {w : Bytes}

theorem KeyClose.gapByte (h : KeyClose w) : ∀ c ∈ w, IsGapByte c := by
  intro c hc
  cases h with
  | bare hw => exact .inl (hw c hc)
  | quoted hw₁ hq hw₂ =>
    rcases List.mem_append.mp hc with hc | hc
    · exact .inl (hw₁ c hc)
    · rcases List.mem_cons.mp hc with rfl | hc
      · exact .inr (.inl hq)
      · exact .inl (hw₂ c hc)

theorem ValueOpen.gapByte (h : ValueOpen quoted w) : ∀ c ∈ w, IsGapByte c := by
  intro c hc
  cases h with
  | bare hw => exact .inl (hw c hc)
  | quoted hw hq =>
    rcases List.mem_append.mp hc with hc | hc
    · exact .inl (hw c hc)
    · rw [List.mem_singleton.mp hc]
      exact .inr (.inl hq)

variable {gap : Bytes}

theorem Gap.gapByte (h : Gap quoted gap) : ∀ c ∈ gap, IsGapByte c := by
  obtain ⟨close, sep, opening, rfl, hclose, hsep, hopen⟩ := h
  intro c hc
  rcases List.mem_append.mp hc with hc | hc
  · exact hclose.gapByte c hc
  · rcases List.mem_cons.mp hc with rfl | hc
    · exact .inr (.inr hsep)
    · exact hopen.gapByte c hc

theorem Gap.ne_nil (h : Gap quoted gap) : gap ≠ [] := by
  obtain ⟨close, sep, opening, rfl, -⟩ := h
  simp

/-- A key ends where the gap begins. -/
theorem Gap.head_not_key (h : Gap quoted gap) (r : Bytes) :
    ∀ c ∈ (gap ++ r).head?, isKeyByte c = false := by
  intro c hc
  obtain ⟨d, gap', rfl⟩ := List.exists_cons_of_ne_nil h.ne_nil
  obtain rfl := Option.some.inj hc
  exact (h.gapByte d List.mem_cons_self).not_key

/-! ## The scan finds the gap -/

variable {i : ℕ}

theorem byteAt_eq {p : UInt8 → Bool} (h : s.drop i = r) : byteAt p s i = r.head?.any p := by
  rw [byteAt, ← h, List.head?_drop]

/-- A byte that passes a test is there. -/
theorem cons_of_byteAt {p : UInt8 → Bool} (hdrop : s.drop i = r) (h : byteAt p s i = true) :
    ∃ c r', r = c :: r' ∧ p c = true := by
  rw [byteAt_eq hdrop] at h
  cases r with
  | nil => cases h
  | cons c r' => exact ⟨c, r', rfl, by simpa using h⟩

theorem drop_add (h : s.drop i = w ++ r) : s.drop (i + w.length) = r := by
  rw [← List.drop_drop, h, List.drop_left]

/-- The bytes of a part of the text. -/
theorem exists_byte_at {p : ℕ} (h : s.drop i = w ++ r) (hle : i ≤ p) (hlt : p < i + w.length) :
    ∃ c ∈ w, s[p]? = some c := by
  have hin : p - i < w.length := by omega
  refine ⟨w[p - i], List.getElem_mem hin, ?_⟩
  have hget : (s.drop i)[p - i]? = some w[p - i] := by
    rw [h, List.getElem?_append_left hin, List.getElem?_eq_getElem]
  rwa [List.getElem?_drop, Nat.add_sub_cancel' hle] at hget

/-- The separator is looked for behind the close of the key. -/
theorem separatorAt_of_close {close : Bytes} {sep : UInt8} (hs : s.drop e = close ++ sep :: r)
    (hclose : KeyClose close) (hsep : isSeparator sep = true) :
    separatorAt s e = e + close.length := by
  have hblank : ∀ c ∈ (sep :: r).head?, isBlank c = false := by
    intro c hc
    cases hc
    exact isBlank_of_isSeparator hsep
  cases hclose with
  | bare hw =>
    have hskip : skipSpace s e = e + close.length := skip_of_drop hs hw hblank
    have hq : byteAt isQuote s (e + close.length) = false := by
      rw [byteAt_eq (drop_add hs)]
      simp [isQuote_of_isSeparator hsep]
    simp only [separatorAt, hskip, hq, Bool.false_eq_true, if_false]
  | @quoted w₁ w₂ c hw₁ hc hw₂ =>
    have hs₁ : s.drop e = w₁ ++ (c :: (w₂ ++ sep :: r)) := by simpa using hs
    have hskip : skipSpace s e = e + w₁.length := by
      refine skip_of_drop hs₁ hw₁ fun d hd => ?_
      cases hd
      exact isBlank_of_isQuote hc
    have hq : byteAt isQuote s (e + w₁.length) = true := by
      rw [byteAt_eq (drop_add hs₁)]
      simpa using hc
    have hs₂ : s.drop (e + w₁.length + 1) = w₂ ++ sep :: r :=
      drop_add (w := [c]) (by simpa using drop_add hs₁)
    have hskip₂ : skipSpace s (e + w₁.length + 1) = e + w₁.length + 1 + w₂.length :=
      skip_of_drop hs₂ hw₂ hblank
    simp only [separatorAt, hskip, hq, if_true, hskip₂, List.length_append, List.length_cons]
    omega

theorem separatorAt_close (s : Bytes) (e : ℕ) :
    ∃ close r, s.drop e = close ++ r ∧ KeyClose close ∧ separatorAt s e = e + close.length ∧
      s.drop (separatorAt s e) = r := by
  obtain ⟨w₁, r₁, hs₁, hw₁, -, hskip₁, hdrop₁⟩ := drop_eq_skip isBlank s e
  have hi : skipSpace s e = e + w₁.length := hskip₁
  by_cases hq : byteAt isQuote s (e + w₁.length) = true
  · obtain ⟨w₂, r₂, hs₂, hw₂, -, hskip₂, hdrop₂⟩ := drop_eq_skip isBlank s (e + w₁.length + 1)
    have hsep : separatorAt s e = e + w₁.length + 1 + w₂.length := by
      simp only [separatorAt, hi, hq, if_true]
      exact hskip₂
    obtain ⟨c, r₁', rfl, hc⟩ := cons_of_byteAt (drop_add hs₁) hq
    have hr₁ : s.drop (e + w₁.length + 1) = r₁' :=
      drop_add (w := [c]) (by simpa using drop_add hs₁)
    have hrest : r₁' = w₂ ++ r₂ := hr₁.symm.trans hs₂
    refine ⟨w₁ ++ c :: w₂, r₂, by rw [hs₁, hrest]; simp,
      KeyClose.quoted hw₁ hc hw₂, ?_, ?_⟩
    · rw [hsep]
      simp
      omega
    · rw [hsep]
      exact drop_add hs₂
  · have hsep : separatorAt s e = e + w₁.length := by
      simp only [separatorAt, hi, hq, Bool.false_eq_true, if_false]
    exact ⟨w₁, r₁, hs₁, KeyClose.bare hw₁, hsep, by rw [hsep]; exact drop_add hs₁⟩

/-- The value that the scan finds stands behind a gap, and the rest of a bare gap starts
with neither blank nor quote. -/
theorem gap_of_valueStart (h : valueStart s e = some (v, quoted)) :
    ∃ gap r, s.drop e = gap ++ r ∧ Gap quoted gap ∧
      (quoted = false → ∀ c ∈ r.head?, isBlank c = false ∧ isQuote c = false) ∧
      v = e + gap.length := by
  obtain ⟨close, r₁, hs₁, hclose, hi, hdrop⟩ := separatorAt_close s e
  rw [valueStart] at h
  by_cases hsep : byteAt isSeparator s (separatorAt s e) = true
  · rw [if_pos hsep] at h
    obtain ⟨hv, hquoted⟩ := Prod.mk.inj (Option.some.inj h)
    obtain ⟨sep, r₂, rfl, hsep'⟩ := cons_of_byteAt hdrop hsep
    have hs₂ : s.drop (separatorAt s e + 1) = r₂ := drop_add (w := [sep]) (by simpa using hdrop)
    obtain ⟨w, r₃, hs₃, hw, hr₃, hskip, hdrop₃⟩ :=
      drop_eq_skip isBlank s (separatorAt s e + 1)
    have hr₂ : r₂ = w ++ r₃ := hs₂.symm.trans hs₃
    have hstart : skipSpace s (separatorAt s e + 1) = separatorAt s e + 1 + w.length := hskip
    rw [hstart] at hv hquoted
    have hquote := byteAt_eq (p := isQuote) (drop_add hs₃)
    rw [hquoted] at hquote
    cases quoted with
    | false =>
      rw [hquoted, if_neg Bool.false_ne_true] at hv
      refine ⟨close ++ sep :: w, r₃, by rw [hs₁, hr₂]; simp,
        ⟨close, sep, w, rfl, hclose, hsep', ValueOpen.bare hw⟩, ?_, ?_⟩
      · intro _ c hc
        refine ⟨hr₃ c hc, ?_⟩
        rw [Option.mem_def] at hc
        simpa [hc] using hquote.symm
      · rw [← hv, hi]
        simp
        omega
    | true =>
      rw [hquoted, if_pos rfl] at hv
      obtain ⟨c, r₄, rfl, hc⟩ := cons_of_byteAt (drop_add hs₃) hquoted
      refine ⟨close ++ sep :: (w ++ [c]), r₄, by rw [hs₁, hr₂]; simp,
        ⟨close, sep, w ++ [c], rfl, hclose, hsep', ValueOpen.quoted hw hc⟩, ?_, ?_⟩
      · intro hfalse
        cases hfalse
      · rw [← hv, hi]
        simp
        omega
  · rw [if_neg hsep] at h
    cases h

/-- The scan passes a gap. -/
theorem valueStart_of_gap (hs : s.drop e = gap ++ r) (hgap : Gap quoted gap)
    (hr : quoted = false → ∀ c ∈ r.head?, isBlank c = false ∧ isQuote c = false) :
    valueStart s e = some (e + gap.length, quoted) := by
  obtain ⟨close, sep, opening, rfl, hclose, hsep, hopen⟩ := hgap
  have hs₁ : s.drop e = close ++ sep :: (opening ++ r) := by simpa using hs
  have hi := separatorAt_of_close hs₁ hclose hsep
  have hdrop : s.drop (separatorAt s e) = sep :: (opening ++ r) := by
    rw [hi]
    exact drop_add hs₁
  have hbyte : byteAt isSeparator s (separatorAt s e) = true := by
    rw [byteAt_eq hdrop]
    simpa using hsep
  have hs₂ : s.drop (separatorAt s e + 1) = opening ++ r :=
    drop_add (w := [sep]) (by simpa using hdrop)
  rw [valueStart, if_pos hbyte]
  cases hopen with
  | bare hw =>
    have hskip : skipSpace s (separatorAt s e + 1) = separatorAt s e + 1 + opening.length :=
      skip_of_drop hs₂ hw fun c hc => (hr rfl c hc).1
    have hquote : byteAt isQuote s (separatorAt s e + 1 + opening.length) = false := by
      rw [byteAt_eq (drop_add hs₂)]
      rcases hhead : r.head? with _ | c
      · rfl
      · simpa using (hr rfl c hhead).2
    simp only [hskip, hquote, Bool.false_eq_true, if_false, List.length_append,
      List.length_cons]
    rw [hi]
    congr 2
    omega
  | @quoted w c hw hc =>
    have hs₃ : s.drop (separatorAt s e + 1) = w ++ c :: r := by simpa using hs₂
    have hskip : skipSpace s (separatorAt s e + 1) = separatorAt s e + 1 + w.length := by
      refine skip_of_drop hs₃ hw fun d hd => ?_
      cases hd
      exact isBlank_of_isQuote hc
    have hquote : byteAt isQuote s (separatorAt s e + 1 + w.length) = true := by
      rw [byteAt_eq (drop_add hs₃)]
      simpa using hc
    simp only [hskip, hquote, if_true, List.length_append, List.length_cons,
      List.length_nil]
    rw [hi]
    congr 2
    omega

/-! ## The scan finds the value -/

variable {value after : Bytes}

/-- The first word of a value ends at the first terminator. -/
theorem skip_terminator (quoted : Bool) (hs : s.drop v = value ++ after)
    (hvalue : ∀ c ∈ value, isValueTerminator c quoted = false)
    (hafter : ∀ c ∈ after.head?, isValueTerminator c quoted = true) :
    skip (fun c => !isValueTerminator c quoted) s v = v + value.length :=
  skip_of_drop hs (fun c hc => by simp [hvalue c hc]) fun c hc => by simp [hafter c hc]

/-- A word of the text, read back as a slice. -/
theorem take_drop_of_drop (hs : s.drop v = w ++ r) : (s.take (v + w.length)).drop v = w := by
  rw [List.drop_take, hs, Nat.add_sub_cancel_left, List.take_left]

section

variable [UnicodeTables]

omit [UnicodeTables] in
/-- The length of a text whose rest is known. -/
theorem length_of_drop (hv : v ≤ s.length) (hs : s.drop v = w ++ r) :
    s.length = v + w.length + r.length := by
  have hlen := congrArg List.length hs
  simp only [List.length_drop, List.length_append] at hlen
  omega

/-- A value does not start with a quote, and a bare one not with a blank. -/
theorem IsValue.head (h : IsValue quoted value after) :
    ∃ c r, value = c :: r ∧ isQuote c = false ∧ (quoted = false → isBlank c = false) := by
  cases h with
  | quoted hne hval _ =>
    obtain ⟨c, r, rfl⟩ := List.exists_cons_of_ne_nil hne
    exact ⟨c, r, rfl, hval c List.mem_cons_self, nofun⟩
  | word hne hval _ _ | credential hne hval _ _ _ _ _ =>
    obtain ⟨c, r, rfl⟩ := List.exists_cons_of_ne_nil hne
    obtain ⟨hblank, hquote⟩ := not_terminator (hval c List.mem_cons_self)
    exact ⟨c, _, rfl, hquote, fun _ => hblank⟩

/-- The end of a declared value is where the scan ends it. -/
theorem credentialEnd_of_value (hv : v ≤ s.length) (hs : s.drop v = value ++ after)
    (hvalue : IsValue quoted value after) : skip (fun c => !isValueTerminator c quoted) s v ≠ v ∧
      credentialEnd s v (skip (fun c => !isValueTerminator c quoted) s v) quoted =
        some (v + value.length) := by
  have hlen := length_of_drop hv hs
  cases hvalue with
  | quoted hne hval hafter =>
    have hpos : 0 < value.length := List.length_pos_of_ne_nil hne
    have hskip := skip_terminator true hs hval hafter
    rw [hskip]
    refine ⟨by omega, ?_⟩
    rw [credentialEnd, if_neg (by simp)]
  | word hne hval hafter hauth =>
    have hpos : 0 < value.length := List.length_pos_of_ne_nil hne
    have hskip := skip_terminator false hs hval hafter
    rw [hskip]
    refine ⟨by omega, ?_⟩
    rw [credentialEnd, slice_eq_some (by omega) (by omega), take_drop_of_drop hs]
    by_cases hlt : v + value.length < s.length
    · have hscheme : isAuthScheme value = false := by
        cases h : isAuthScheme value
        · rfl
        · rw [hauth h, List.length_nil] at hlen
          omega
      rw [if_pos (by simp [hlt])]
      simp [hscheme]
    · rw [if_neg (by simp [hlt])]
  | @credential scheme rest _ hne hval hstop hmore hauth hrest hafter =>
    have hs' : s.drop v = scheme ++ (rest ++ after) := by simpa using hs
    have hpos : 0 < scheme.length := List.length_pos_of_ne_nil hne
    have hmore' : 0 < (rest ++ after).length := List.length_pos_of_ne_nil hmore
    simp only [List.length_append] at hlen hmore'
    have hskip := skip_terminator false hs' hval hstop
    have hcred : skip (fun c => !isCredentialTerminator c) s (v + scheme.length) =
        v + scheme.length + rest.length :=
      skip_of_drop (drop_add hs') (fun c hc => by simp [hrest c hc])
        fun c hc => by simp [hafter c hc]
    rw [hskip]
    refine ⟨by omega, ?_⟩
    rw [credentialEnd, slice_eq_some (by omega) (by omega), take_drop_of_drop hs',
      if_pos (by simp; omega)]
    simp [hauth, hcred, Nat.add_assoc]

/-- What the scan takes for the value is one by the grammar. -/
theorem value_of_credentialEnd (hv : v ≤ s.length)
    (hne : skip (fun c => !isValueTerminator c quoted) s v ≠ v)
    (hend : credentialEnd s v (skip (fun c => !isValueTerminator c quoted) s v) quoted = some j) :
    ∃ value after, s.drop v = value ++ after ∧ IsValue quoted value after ∧
      j = v + value.length := by
  obtain ⟨word, after, hs, hword, hafter, hskip, hdrop⟩ :=
    drop_eq_skip (fun c => !isValueTerminator c quoted) s v
  have hlen := length_of_drop hv hs
  have hword_ne : word ≠ [] := by
    rintro rfl
    exact hne hskip
  have hval : ∀ c ∈ word, isValueTerminator c quoted = false := fun c hc => by
    simpa using hword c hc
  have hstop : ∀ c ∈ after.head?, isValueTerminator c quoted = true := fun c hc => by
    simpa using hafter c hc
  rw [hskip, credentialEnd, slice_eq_some (by omega) (by omega), take_drop_of_drop hs] at hend
  cases quoted with
  | true =>
    rw [if_neg (by simp)] at hend
    exact ⟨word, after, hs, IsValue.quoted hword_ne hval hstop, (Option.some.inj hend).symm⟩
  | false =>
    by_cases hlt : v + word.length < s.length
    · rw [if_pos (by simp [hlt])] at hend
      by_cases hauth : isAuthScheme word = true
      · -- the credential runs on from the scheme word
        obtain ⟨rest, after', hs', hrest, hafter', hskip', -⟩ :=
          drop_eq_skip (fun c => !isCredentialTerminator c) s (v + word.length)
        have hcut : after = rest ++ after' := (drop_add hs).symm.trans hs'
        have hj : skip (fun c => !isCredentialTerminator c) s (v + word.length) = j := by
          simpa [hauth] using hend
        refine ⟨word ++ rest, after', by rw [hs, hcut, List.append_assoc],
          IsValue.credential hword_ne hval (hcut ▸ hstop) ?_ hauth
            (fun c hc => by simpa using hrest c hc) (fun c hc => by simpa using hafter' c hc), ?_⟩
        · rw [← hcut]
          rintro rfl
          simp at hlen
          omega
        · rw [← hj, hskip', List.length_append, Nat.add_assoc]
      · have hj : v + word.length = j := by simpa [hauth] using hend
        exact ⟨word, after, hs, IsValue.word hword_ne hval hstop fun h => absurd h hauth, hj.symm⟩
    · have hnil : after = [] := List.eq_nil_of_length_eq_zero (by omega)
      rw [if_neg (by simp [hlt])] at hend
      exact ⟨word, after, hs, IsValue.word hword_ne hval hstop fun _ => hnil,
        (Option.some.inj hend).symm⟩

/-- The value assigned to a key, declaratively. -/
theorem valueSpan_eq_some :
    valueSpan s e = some (some (v, j)) ↔ ∃ quoted gap value after,
      s.drop e = gap ++ value ++ after ∧ Gap quoted gap ∧ IsValue quoted value after ∧
      v = e + gap.length ∧ j = v + value.length := by
  constructor
  · intro h
    rw [valueSpan] at h
    rcases hstart : valueStart s e with _ | ⟨v', quoted⟩
    · rw [hstart] at h
      cases h
    · rw [hstart] at h
      have hv := valueStart_le hstart
      obtain ⟨gap, r, hs, hgap, -, hvgap⟩ := gap_of_valueStart hstart
      by_cases hne : skip (fun c => !isValueTerminator c quoted) s v' = v'
      · simp [hne] at h
      · simp only [if_neg hne, Option.map_eq_some_iff, Option.some.injEq, Prod.mk.injEq] at h
        obtain ⟨j', hend, rfl, rfl⟩ := h
        obtain ⟨value, after, hs', hvalue, hj⟩ := value_of_credentialEnd hv hne hend
        refine ⟨quoted, gap, value, after, ?_, hgap, hvalue, hvgap, hj⟩
        rw [hs, List.append_assoc, ← hs', hvgap, drop_add hs]
  · rintro ⟨quoted, gap, value, after, hs, hgap, hvalue, rfl, rfl⟩
    have hs' : s.drop e = gap ++ (value ++ after) := by simpa using hs
    have hstart : valueStart s e = some (e + gap.length, quoted) := by
      refine valueStart_of_gap hs' hgap fun hbare c hc => ?_
      obtain ⟨d, value', rfl, hquote, hblank⟩ := hvalue.head
      obtain rfl := Option.some.inj hc
      exact ⟨hblank hbare, hquote⟩
    obtain ⟨hne, hend⟩ := credentialEnd_of_value (valueStart_le hstart) (drop_add hs') hvalue
    rw [valueSpan, hstart]
    simp only [if_neg hne, hend, Option.map_some]

/-! ## The spans are the values of the assignments -/

omit [UnicodeTables] in
theorem isAscii_of_isKeyByte {key : Bytes} (h : ∀ c ∈ key, isKeyByte c = true) :
    isAscii key = true := by
  rw [isAscii, List.all_eq_true]
  intro c hc
  have hkey := h c hc
  simp only [isKeyByte, Bool.or_eq_true, Bool.and_eq_true, decide_eq_true_eq, beq_iff_eq] at *
  grind

/-- The key is normalized twice on the way to the key set, which is as good as
once. -/
theorem isSensitiveKey_normalizeKey {key : Bytes} (h : ∀ c ∈ key, isKeyByte c = true) :
    isSensitiveKey (normalizeKey key) = isSensitiveKey key := by
  have hascii := isAscii_of_isKeyByte h
  have hlower : isAscii (normalizeKey key) = true := by
    have hmap := isAscii_map_lowerByte hascii
    rw [isAscii, List.all_eq_true] at hmap ⊢
    rw [normalizeKey, toLower_ascii hascii]
    exact fun c hc => hmap c (List.mem_filter.mp hc).1
  have hfix : (normalizeKey key).map lowerByte = normalizeKey key := by
    refine (List.map_congr_left fun c hc => ?_).trans (List.map_id _)
    rw [normalizeKey, toLower_ascii hascii] at hc
    obtain ⟨d, -, rfl⟩ := List.mem_map.mp (List.mem_filter.mp hc).1
    exact lowerByte_idem d
  have hidem : normalizeKey (normalizeKey key) = normalizeKey key := by
    rw [normalizeKey, toLower_ascii hlower, hfix, normalizeKey, List.filter_filter]
    simp
  rw [isSensitiveKey, isSensitiveKey, hidem]

namespace Assignment

variable {s : Bytes} (a : Assignment s)

theorem keyStart_lt_keyEnd : a.keyStart < a.keyEnd :=
  Nat.lt_add_of_pos_right (List.length_pos_of_ne_nil a.key_ne_nil)

theorem keyEnd_lt_valStart : a.keyEnd < a.valStart :=
  Nat.lt_add_of_pos_right (List.length_pos_of_ne_nil a.gap_ok.ne_nil)

/-- The text from the start of the key on. -/
theorem drop_keyStart : s.drop a.keyStart = a.key ++ a.gap ++ a.value ++ a.after := by
  obtain ⟨x, k, gap, value, after, quoted, rfl, -⟩ := a
  simp [keyStart]

/-- The text from the end of the key on. -/
theorem drop_keyEnd : s.drop a.keyEnd = a.gap ++ a.value ++ a.after := by
  obtain ⟨x, k, gap, value, after, quoted, rfl, -⟩ := a
  simp [keyEnd, List.drop_append]

/-- The text from the start of the value on. -/
theorem drop_valStart : s.drop a.valStart = a.value ++ a.after := by
  have h := a.drop_keyEnd
  rw [List.append_assoc] at h
  exact drop_add h

/-- The key is one of the matches the loop runs over. -/
theorem key_mem_runs : (a.keyStart, a.keyEnd) ∈ runs isKeyByte 0 s := by
  refine mem_runs.mpr ⟨a.before, a.key, a.gap ++ (a.value ++ a.after), ?_, a.key_ne_nil,
    a.key_bytes, a.key_first, a.gap_ok.head_not_key _, by simp [keyStart], by simp [keyEnd]⟩
  simpa using a.text

/-- The bytes of the key. -/
theorem keyByte_at {p : ℕ} (hle : a.keyStart ≤ p) (hlt : p < a.keyEnd) :
    ∃ c, s[p]? = some c ∧ isKeyByte c = true := by
  have hdrop := a.drop_keyStart
  rw [List.append_assoc, List.append_assoc] at hdrop
  obtain ⟨c, hc, hp⟩ := exists_byte_at hdrop hle hlt
  exact ⟨c, hp, a.key_bytes c hc⟩

/-- The bytes between the key and the value. -/
theorem gapByte_at {p : ℕ} (hle : a.keyEnd ≤ p) (hlt : p < a.valStart) :
    ∃ c, s[p]? = some c ∧ IsGapByte c := by
  have hdrop := a.drop_keyEnd
  rw [List.append_assoc] at hdrop
  obtain ⟨c, hc, hp⟩ := exists_byte_at hdrop hle hlt
  exact ⟨c, hp, a.gap_ok.gapByte c hc⟩

/-- A value does not start with a quote. -/
theorem value_head : ∃ c, s[a.valStart]? = some c ∧ isQuote c = false := by
  obtain ⟨c, r, hvalue, hc, -⟩ := a.value_ok.head
  refine ⟨c, ?_, hc⟩
  have h := congrArg List.head? a.drop_valStart
  rw [List.head?_drop, hvalue] at h
  exact h

/-- The key is what the text holds at its place. -/
theorem key_eq {x k y : Bytes} (hs : s = x ++ k ++ y) (hst : a.keyStart = x.length)
    (he : a.keyEnd = x.length + k.length) : a.key = k := by
  have hdrop : a.key ++ (a.gap ++ a.value ++ a.after) = k ++ y := by
    have hdrop : s.drop x.length = k ++ y := by
      rw [hs, List.append_assoc, List.drop_left]
    rw [← hdrop, ← hst, a.drop_keyStart]
    simp
  have hlen : a.key.length = k.length := by
    have : a.keyEnd = a.keyStart + a.key.length := rfl
    omega
  exact (List.append_inj hdrop hlen).1

end Assignment

/-- A match is masked exactly when it is the key of an assignment, and then the
masked part is the value of that assignment. -/
theorem assignedSpan_eq_some {st : ℕ} (hloc : (st, e) ∈ runs isKeyByte 0 s) :
    assignedSpan s (st, e) = some (v, j) ↔ ∃ a : Assignment s,
      a.keyStart = st ∧ a.keyEnd = e ∧ a.valStart = v ∧ a.valEnd = j := by
  obtain ⟨x, k, y, rfl, hne, hk, hx, hy, rfl, rfl⟩ := mem_runs.mp hloc
  rw [Nat.zero_add]
  have hkey : ((x ++ k ++ y).take (x.length + k.length)).drop x.length = k :=
    take_drop_of_drop (r := y) (by simp)
  obtain ⟨r, hr, -⟩ := valueSpan_total (x ++ k ++ y) (x.length + k.length)
  rw [assignedSpan, hkey, isSensitiveKey_normalizeKey hk, hr, Option.join_some]
  constructor
  · intro hspan
    by_cases hsens : isSensitiveKey k = true
    · rw [if_pos hsens] at hspan
      rw [hspan] at hr
      obtain ⟨quoted, gap, value, after, hs, hgap, hvalue, rfl, rfl⟩ := valueSpan_eq_some.mp hr
      have hrest : y = gap ++ value ++ after := by
        rw [← hs]
        simp [List.drop_append]
      exact ⟨⟨x, k, gap, value, after, quoted, by rw [hrest]; simp, hne, hk, hx, hsens, hgap,
        hvalue⟩, rfl, rfl, rfl, rfl⟩
    · rw [if_neg hsens] at hspan
      cases hspan
  · rintro ⟨a, hst, he, rfl, rfl⟩
    have hak : a.key = k := a.key_eq rfl hst he
    rw [if_pos (hak ▸ a.sensitive)]
    rw [← he] at hr
    rw [valueSpan_eq_some.mpr ⟨a.quoted, a.gap, a.value, a.after, a.drop_keyEnd, a.gap_ok,
      a.value_ok, rfl, rfl⟩] at hr
    exact (Option.some.inj hr).symm

/-- **The loop masks the assignments**: the spans of a text are the values of its
sensitive assignments. -/
theorem mem_spans : (v, j) ∈ spans s ↔ ∃ a : Assignment s, a.valStart = v ∧ a.valEnd = j := by
  rw [spans, List.mem_filterMap]
  constructor
  · rintro ⟨⟨st, e⟩, hloc, hspan⟩
    obtain ⟨a, -, -, hv, hj⟩ := (assignedSpan_eq_some hloc).mp hspan
    exact ⟨a, hv, hj⟩
  · rintro ⟨a, hv, hj⟩
    exact ⟨_, a.key_mem_runs, (assignedSpan_eq_some a.key_mem_runs).mpr ⟨a, rfl, rfl, hv, hj⟩⟩

/-- A later key starts behind the gap of an earlier one, which holds no byte of a
key. -/
theorem Assignment.valStart_le (a : Assignment s) {st : ℕ} (hloc : (st, e) ∈ runs isKeyByte 0 s)
    (hlt : a.keyEnd ≤ st) : a.valStart ≤ st := by
  obtain ⟨x, k, y, rfl, hne, hk, -, -, rfl, rfl⟩ := mem_runs.mp hloc
  by_contra hcon
  obtain ⟨c, hc, hgap⟩ := a.gapByte_at hlt (Nat.not_le.mp hcon)
  obtain ⟨d, k', rfl⟩ := List.exists_cons_of_ne_nil hne
  have hd : (x ++ d :: k' ++ y)[0 + x.length]? = some d := by simp
  obtain rfl := Option.some.inj (hd.symm.trans hc)
  have hnot := hgap.not_key
  rw [hk d List.mem_cons_self] at hnot
  cases hnot

/-- The loop meets the values in the order of their starts. -/
theorem spans_pairwise (s : Bytes) : (spans s).Pairwise fun a b => a.1 < b.1 := by
  rw [spans, List.pairwise_filterMap]
  refine (runs_pairwise (i := 0)).2.imp_of_mem ?_
  rintro ⟨st₁, e₁⟩ ⟨st₂, e₂⟩ hmem₁ hmem₂ hlt ⟨v₁, j₁⟩ hspan₁ ⟨v₂, j₂⟩ hspan₂
  obtain ⟨a, -, rfl, rfl, -⟩ := (assignedSpan_eq_some hmem₁).mp hspan₁
  obtain ⟨b, rfl, rfl, rfl, -⟩ := (assignedSpan_eq_some hmem₂).mp hspan₂
  calc a.valStart ≤ b.keyStart := a.valStart_le hmem₂ (Nat.le_of_lt hlt)
    _ < b.keyEnd := b.keyStart_lt_keyEnd
    _ < b.valStart := b.keyEnd_lt_valStart

/-! ## When redaction returns -/

omit [UnicodeTables] in
/-- Nonempty spans that come in order of their starts are in order exactly when
no one starts inside another. -/
theorem ordered_iff {l : List (ℕ × ℕ)} (hne : ∀ span ∈ l, span.1 < span.2)
    (hlt : l.Pairwise fun a b => a.1 < b.1) {last : ℕ} :
    Ordered last l ↔ (∀ span ∈ l, last ≤ span.1) ∧
      ∀ a ∈ l, ∀ b ∈ l, a.1 < b.1 → a.2 ≤ b.1 := by
  induction l generalizing last with
  | nil => simp [Ordered]
  | cons span l ih =>
    obtain ⟨hhead, htail⟩ := List.pairwise_cons.mp hlt
    have hspan : span.1 < span.2 := hne span List.mem_cons_self
    rw [Ordered, ih (fun t ht => hne t (List.mem_cons_of_mem _ ht)) htail]
    constructor
    · rintro ⟨hle, hfirst, hrest⟩
      constructor
      · intro t ht
        rcases List.mem_cons.mp ht with rfl | ht
        · exact hle
        · have := hfirst t ht
          omega
      · intro a ha b hb hab
        rcases List.mem_cons.mp ha with rfl | ha' <;> rcases List.mem_cons.mp hb with rfl | hb'
        · omega
        · exact hfirst b hb'
        · have := hhead a ha'
          omega
        · exact hrest a ha' b hb' hab
    · rintro ⟨hle, hall⟩
      exact ⟨hle span List.mem_cons_self,
        fun t ht => hall span List.mem_cons_self t (List.mem_cons_of_mem _ ht) (hhead t ht),
        fun a ha b hb => hall a (List.mem_cons_of_mem _ ha) b (List.mem_cons_of_mem _ hb)⟩

/-- The spans of a text are in order exactly when no assignment is nested. -/
theorem ordered_spans_iff (s : Bytes) : Ordered 0 (spans s) ↔ ¬ Nested s := by
  rw [ordered_iff (fun span hspan => (spans_bounds hspan).1) (spans_pairwise s)]
  constructor
  · rintro ⟨-, hall⟩ ⟨a, b, hab, hin⟩
    have hle := hall _ (mem_spans.mpr ⟨a, rfl, rfl⟩) _ (mem_spans.mpr ⟨b, rfl, rfl⟩) hab
    exact absurd hin (Nat.not_lt.mpr hle)
  · intro hnest
    refine ⟨fun span _ => Nat.zero_le _, ?_⟩
    rintro ⟨v, j⟩ hmem ⟨v', j'⟩ hmem' hlt
    obtain ⟨a, rfl, rfl⟩ := mem_spans.mp hmem
    obtain ⟨b, rfl, rfl⟩ := mem_spans.mp hmem'
    by_contra hcon
    exact hnest ⟨a, b, hlt, Nat.not_le.mp hcon⟩

/-- **Redaction is total exactly on the texts without nested assignments.** -/
theorem redactText_returns_iff (s : Bytes) : (∃ t, redactText s = some t) ↔ ¬ Nested s := by
  simp [redactText_eq_some, ordered_spans_iff]

/-- **An excerpt of an error body** is made exactly when the trimmed body has no nested assignment,
and then it is short and on one line. -/
theorem bodySnippet_spec (body : Bytes) :
    ((∃ t, bodySnippet body = some t) ↔ ¬ Nested (trimSpace body)) ∧
      ∀ t, bodySnippet body = some t → t.length ≤ 261 ∧ 10 ∉ t := by
  have htexts : bytes ": " = [58, 32] ∧ bytes "..." = [46, 46, 46] := by decide +kernel
  rw [← ordered_spans_iff, bodySnippet]
  by_cases hnil : trimSpace body = []
  · have hordered : Ordered 0 (spans []) := trivial
    simp [hnil, hordered]
  obtain ⟨hsome, hnone⟩ := redactText_eq (trimSpace body)
  by_cases ho : Ordered 0 (spans (trimSpace body))
  · simp only [if_neg hnil, hsome ho]
    by_cases hlong : (masked (trimSpace body) 0 (spans (trimSpace body))).length > 256
    · simp [hlong, slice_eq_some (Nat.zero_le 256) (Nat.le_of_lt hlong), ho, htexts]
      grind
    · simp [hlong, ho, htexts]
      grind
  · simp [hnil, hnone ho, ho]

end

/-- The value of `password` holds an assignment to `token`, and the cut point is
past the start of its value when the loop reaches it. -/
theorem redactText_panics : @redactText asciiTables (bytes "password=token=x") = none := by
  decide +kernel

end HstongApi
