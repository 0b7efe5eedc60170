import HstongApi.Assignments

/-!
# Secrecy of a quoted field

What redaction does to a JSON field `"key":"…"` whose key names a secret, in any
surroundings that name no secret themselves. The value stands in the text in some
JSON encoding; every way to escape it is allowed, since the text comes from an
arbitrary peer.

Masking the field means that the redacted text is `text mask`, which no longer
depends on the value. `masks_iff` says exactly which encodings are masked: those
without any quote byte, raw or escaped, in which no word makes an assignment of its
own (`QuotedField.Opaque`). A value such as `it's` or `a"b` loses only its first
part, and the rest stays in the text for everyone to read.
-/

namespace HstongApi

/-! ## JSON strings -/

/-- Four hexadecimal digits of either case that denote `n`. -/
def Hex4 (n : ℕ) (h : Bytes) : Prop :=
  h.length = 4 ∧ ∃ ds, h.Forall₂ (fun c d => hexValue c = some d) ds ∧
    ds.foldl (fun m d => 16 * m + d) 0 = n

/-- The bytes of a character and its `\u` escape, a surrogate pair where one is
needed. -/
inductive UnicodeEscape : Bytes → Bytes → Prop where
  /-- a character of the basic plane -/
  | unit {c : Char} {h : Bytes} : c.toNat < 0x10000 → Hex4 c.toNat h →
      UnicodeEscape (String.utf8EncodeChar c) (92 :: 117 :: h)
  /-- a character beyond it -/
  | pair {c : Char} {h l : Bytes} : 0x10000 ≤ c.toNat →
      Hex4 (0xD800 + (c.toNat - 0x10000) / 0x400) h →
      Hex4 (0xDC00 + (c.toNat - 0x10000) % 0x400) l →
      UnicodeEscape (String.utf8EncodeChar c) (92 :: 117 :: h ++ 92 :: 117 :: l)

/-- The two-byte escapes: each byte with the byte that stands for it behind a
backslash. -/
def shortEscapes : List (UInt8 × UInt8) :=
  [(34, 34), (92, 92), (47, 47), (8, 98), (12, 102), (10, 110), (13, 114), (9, 116)]

/-- A string value and the text between the quotes of one of its JSON encodings. -/
inductive JsonEncodes : Bytes → Bytes → Prop where
  /-- the empty string -/
  | nil : JsonEncodes [] []
  /-- a byte that stands for itself -/
  | plain {c : UInt8} {v e : Bytes} : 32 ≤ c → c ≠ 34 → c ≠ 92 → JsonEncodes v e →
      JsonEncodes (c :: v) (c :: e)
  /-- a two-byte escape -/
  | short {c x : UInt8} {v e : Bytes} : (c, x) ∈ shortEscapes → JsonEncodes v e →
      JsonEncodes (c :: v) (92 :: x :: e)
  /-- a `\u` escape -/
  | unicode {b u v e : Bytes} : UnicodeEscape b u → JsonEncodes v e →
      JsonEncodes (b ++ v) (u ++ e)

theorem Hex4.quote_not_mem {n : ℕ} {h : Bytes} (hh : Hex4 n h) : (34 : UInt8) ∉ h := by
  obtain ⟨-, ds, hds, -⟩ := hh
  intro hmem
  induction hds with
  | nil => cases hmem
  | cons hd _ ih =>
    rcases List.mem_cons.mp hmem with rfl | hmem
    · cases hd
    · exact ih hmem

theorem UnicodeEscape.quote_not_mem {b u : Bytes} (h : UnicodeEscape b u) : (34 : UInt8) ∉ u := by
  cases h with
  | unit _ hh => simp [hh.quote_not_mem]
  | pair _ hh hl => simp [hh.quote_not_mem, hl.quote_not_mem]

theorem UnicodeEscape.ne_nil {b u : Bytes} (h : UnicodeEscape b u) : u ≠ [] := by
  cases h with
  | unit => exact List.cons_ne_nil _ _
  | pair => simp

/-- In an encoding a double quote stands behind a backslash only. -/
theorem JsonEncodes.quote_escaped {v e : Bytes} (h : JsonEncodes v e) :
    ∀ {x y : Bytes}, e = x ++ 34 :: y → x.getLast? = some 92 := by
  induction h with
  | nil =>
    intro x y he
    simp at he
  | @plain c v e _ hc _ _ ih =>
    intro x y he
    cases x with
    | nil => exact absurd (List.cons.inj he).1 hc
    | cons d x =>
      have hlast := ih (List.cons.inj he).2
      cases x with
      | nil => cases hlast
      | cons d' x => simpa using hlast
  | @short c d v e _ _ ih =>
    intro x y he
    rcases x with _ | ⟨a, _ | ⟨b, x⟩⟩
    · exact absurd (List.cons.inj he).1 (by decide)
    · cases he
      rfl
    · have hlast := ih (List.cons.inj (List.cons.inj he).2).2
      cases x with
      | nil => cases hlast
      | cons d' x => simpa using hlast
  | @unicode b u v e hu _ ih =>
    intro x y he
    -- the quote lies behind the whole escape
    rcases List.append_eq_append_iff.mp he with ⟨x', rfl, hx'⟩ | ⟨u', rfl, hu'⟩
    · have hlast := ih hx'
      have hne : x' ≠ [] := by
        rintro rfl
        cases hlast
      rw [List.getLast?_append_of_ne_nil _ hne]
      exact hlast
    · have hmem : (34 : UInt8) ∈ u' ∨ u' = [] := by
        cases u' with
        | nil => exact .inr rfl
        | cons d u' => exact .inl ((List.cons.inj hu').1 ▸ List.mem_cons_self)
      rcases hmem with hmem | rfl
      · exact absurd (List.mem_append_right _ hmem) hu.quote_not_mem
      · have hlast := ih (x := []) (by simpa using hu'.symm)
        cases hlast

theorem JsonEncodes.ne_nil {v e : Bytes} (h : JsonEncodes v e) (hv : v ≠ []) : e ≠ [] := by
  cases h with
  | nil => exact absurd rfl hv
  | plain | short => exact List.cons_ne_nil _ _
  | unicode hu _ => simp [hu.ne_nil]

/-- Text that needs no escape is an encoding of itself. -/
theorem JsonEncodes.self {v : Bytes} (hv : ∀ c ∈ v, 32 ≤ c ∧ c ≠ 34 ∧ c ≠ 92) :
    JsonEncodes v v := by
  induction v with
  | nil => exact .nil
  | cons c v ih =>
    obtain ⟨h32, hquote, hback⟩ := hv c List.mem_cons_self
    exact .plain h32 hquote hback (ih fun d hd => hv d (List.mem_cons_of_mem _ hd))

/-- A nonempty string value in one of its encodings. -/
structure JsonText where
  /-- the value -/
  value : Bytes
  /-- the text between the quotes -/
  enc : Bytes
  encodes : JsonEncodes value enc
  value_ne_nil : value ≠ []

/-! ## The field -/

section

variable [UnicodeTables]

/-- No match of `textKeyPattern` in the text is a sensitive key. -/
def FreeOfKeys (t : Bytes) : Prop :=
  ∀ loc ∈ runs isKeyByte 0 t, isSensitiveKey ((t.take loc.2).drop loc.1) = false

theorem FreeOfKeys.run {t x k y : Bytes} (h : FreeOfKeys t) (ht : t = x ++ k ++ y)
    (hne : k ≠ []) (hk : ∀ c ∈ k, isKeyByte c = true) (hx : ∀ c ∈ x.getLast?, isKeyByte c = false)
    (hy : ∀ c ∈ y.head?, isKeyByte c = false) : isSensitiveKey k = false := by
  have hmem : (x.length, x.length + k.length) ∈ runs isKeyByte 0 t :=
    mem_runs.mpr ⟨x, k, y, ht, hne, hk, hx, hy, by simp, by simp⟩
  have hkey := h _ hmem
  subst ht
  rwa [take_drop_of_drop (r := y) (by simp)] at hkey

/-- A quoted field with a sensitive key, in surroundings without one. -/
structure QuotedField where
  /-- the text before the field -/
  pre : Bytes
  /-- the key -/
  key : Bytes
  /-- the text after the field -/
  suf : Bytes
  key_ne_nil : key ≠ []
  key_bytes : ∀ c ∈ key, isKeyByte c = true
  sensitive : isSensitiveKey key = true
  pre_free : FreeOfKeys pre
  suf_free : FreeOfKeys suf

namespace QuotedField

/-- The text up to the value: `pre"key":"`. -/
def head (f : QuotedField) : Bytes := f.pre ++ 34 :: (f.key ++ [34, 58, 34])

/-- The text of the field with `enc` between the quotes of the value. -/
def text (f : QuotedField) (enc : Bytes) : Bytes := f.head ++ (enc ++ 34 :: f.suf)

/-- The position of the value. -/
def start (f : QuotedField) : ℕ := f.pre.length + f.key.length + 4

/-- Nothing of the encoding escapes the mask: it holds no quote, and no word of
it makes an assignment of its own, unless to a value behind the field that reads
like the mask already. -/
structure Opaque (f : QuotedField) (enc : Bytes) : Prop where
  no_quote : ∀ c ∈ enc, isQuote c = false
  no_inner : ∀ a : Assignment (f.text enc), a.valStart ≠ f.start →
    f.start + enc.length < a.valStart ∧ a.value = mask

/-- The redacted texts with the two values are one text, from which every byte of
the value is gone. -/
def Masks (f : QuotedField) (enc₁ enc₂ : Bytes) : Prop :=
  ∃ t, redactText (f.text enc₁) = some t ∧ redactText (f.text enc₂) = some t ∧ t = f.text mask

/-! ## The spans of the field -/

variable {f : QuotedField} {enc : Bytes}

theorem length_head (f : QuotedField) : f.head.length = f.start := by
  simp [head, start]
  omega

theorem take_text (f : QuotedField) (enc : Bytes) : (f.text enc).take f.start = f.head := by
  rw [text, ← f.length_head, List.take_left]

theorem drop_text (f : QuotedField) (enc : Bytes) :
    (f.text enc).drop f.start = enc ++ 34 :: f.suf := by
  rw [text, ← f.length_head, List.drop_left]

/-- The matches in the text: those before the field, the key, those in the value
and those behind the field. -/
theorem runs_text (f : QuotedField) (enc : Bytes) :
    runs isKeyByte 0 (f.text enc) = runs isKeyByte 0 f.pre ++
      ([(f.pre.length + 1, f.pre.length + 1 + f.key.length)] ++ (runs isKeyByte f.start enc ++
        runs isKeyByte (f.start + enc.length + 1) f.suf)) := by
  have htext : f.text enc =
      f.pre ++ 34 :: (f.key ++ 34 :: 58 :: 34 :: (enc ++ 34 :: f.suf)) := by
    simp [text, head]
  have hquote : isKeyByte 34 = false := by decide
  have hcolon : isKeyByte 58 = false := by decide
  have hstart : f.pre.length + 1 + f.key.length + 1 + 1 + 1 = f.start := by
    simp [start]
    omega
  have hhead : ∀ c ∈ (34 :: 58 :: 34 :: (enc ++ 34 :: f.suf)).head?, isKeyByte c = false := by
    intro c hc
    cases hc
    exact hquote
  rw [htext, runs_split hquote, Nat.zero_add, runs_append f.key_ne_nil f.key_bytes hhead,
    runs_cons hquote, runs_cons hcolon, runs_cons hquote, hstart, runs_split hquote]
  rfl

/-- An assignment of the text is the field itself or has its key in the value. -/
theorem key_cases (a : Assignment (f.text enc)) :
    (a.keyStart = f.pre.length + 1 ∧ a.keyEnd = f.pre.length + 1 + f.key.length) ∨
      (a.keyStart, a.keyEnd) ∈ runs isKeyByte f.start enc := by
  have hmem := a.key_mem_runs
  rw [runs_text] at hmem
  rcases List.mem_append.mp hmem with hpre | hmem
  · -- a key before the field is not sensitive
    obtain ⟨x, k, y, hp, hne, hk, hx, hy, hst, he⟩ := mem_runs.mp hpre
    have htext : f.text enc = x ++ k ++ (y ++ (f.text enc).drop f.pre.length) := by
      simp [text, head, hp]
    have hkey := a.key_eq htext (by omega) (by omega)
    have hsens := a.sensitive
    rw [hkey, f.pre_free.run hp hne hk hx hy] at hsens
    cases hsens
  · rcases List.mem_append.mp hmem with hown | hmem
    · obtain ⟨hst, he⟩ := Prod.mk.inj (List.mem_singleton.mp hown)
      exact .inl ⟨hst, he⟩
    · rcases List.mem_append.mp hmem with hin | hsuf
      · exact .inr hin
      · -- neither is one behind it
        obtain ⟨x, k, y, hp, hne, hk, hx, hy, hst, he⟩ := mem_runs.mp hsuf
        have htext : f.text enc = (f.head ++ enc ++ 34 :: x) ++ k ++ y := by
          simp [text, hp]
        have hlen : (f.head ++ enc ++ 34 :: x).length = f.start + enc.length + 1 + x.length := by
          simp [f.length_head]
          omega
        have hkey := a.key_eq htext (by omega) (by omega)
        have hsens := a.sensitive
        rw [hkey, f.suf_free.run hp hne hk hx hy] at hsens
        cases hsens

/-- The matches in the value that the loop masks. -/
def inner (f : QuotedField) (enc : Bytes) : List (ℕ × ℕ) :=
  (runs isKeyByte f.start enc).filterMap (assignedSpan (f.text enc))

/-- The value of the field, as the loop finds it. -/
def own (f : QuotedField) (enc : Bytes) : Option (ℕ × ℕ) :=
  assignedSpan (f.text enc) (f.pre.length + 1, f.pre.length + 1 + f.key.length)

theorem mem_runs_text {loc : ℕ × ℕ} (h : loc ∈ runs isKeyByte f.start enc) :
    loc ∈ runs isKeyByte 0 (f.text enc) := by
  rw [runs_text]
  exact List.mem_append_right _ (List.mem_append_right _ (List.mem_append_left _ h))

/-- A masked match inside the value. -/
theorem mem_inner {v j : ℕ} (h : (v, j) ∈ f.inner enc) : ∃ a : Assignment (f.text enc),
    (a.keyStart, a.keyEnd) ∈ runs isKeyByte f.start enc ∧ a.valStart = v ∧ a.valEnd = j := by
  obtain ⟨⟨st, e⟩, hloc, hspan⟩ := List.mem_filterMap.mp h
  obtain ⟨a, rfl, rfl, hv, hj⟩ := (assignedSpan_eq_some (mem_runs_text hloc)).mp hspan
  exact ⟨a, hloc, hv, hj⟩

/-- A match inside the value lies between the quotes. -/
theorem inner_bounds {st e : ℕ} (h : (st, e) ∈ runs isKeyByte f.start enc) :
    f.start ≤ st ∧ st < e ∧ e ≤ f.start + enc.length := by
  obtain ⟨x, k, y, rfl, hne, -, -, -, rfl, rfl⟩ := mem_runs.mp h
  have := List.length_pos_of_ne_nil hne
  simp only [List.length_append]
  omega

/-- Assignments made inside the value start their own values behind its first byte. -/
theorem start_lt_of_inner {span : ℕ × ℕ} (h : span ∈ f.inner enc) : f.start < span.1 := by
  obtain ⟨v, j⟩ := span
  obtain ⟨a, hloc, rfl, rfl⟩ := mem_inner h
  have hbounds := inner_bounds hloc
  have hkey := a.keyEnd_lt_valStart
  exact Nat.lt_of_le_of_lt hbounds.1 (by omega)

/-- Only the value of the field and the matches in it can be masked. -/
theorem spans_text (f : QuotedField) (enc : Bytes) :
    spans (f.text enc) = (f.own enc).toList ++ f.inner enc := by
  -- a masked match is the key of an assignment, and `key_cases` says where that is
  have hnone : ∀ loc ∈ runs isKeyByte 0 (f.text enc),
      loc ∉ runs isKeyByte f.start enc → loc.1 ≠ f.pre.length + 1 →
      assignedSpan (f.text enc) loc = none := by
    rintro ⟨st, e⟩ hloc hin hown
    rcases hspan : assignedSpan (f.text enc) (st, e) with _ | ⟨v, j⟩
    · rfl
    · obtain ⟨a, rfl, rfl, -, -⟩ := (assignedSpan_eq_some hloc).mp hspan
      rcases key_cases a with ⟨hst, -⟩ | hmem
      · exact absurd hst hown
      · exact absurd hmem hin
  have hpre : (runs isKeyByte 0 f.pre).filterMap (assignedSpan (f.text enc)) = [] := by
    refine List.filterMap_eq_nil_iff.mpr ?_
    rintro ⟨st, e⟩ hloc
    have hall : (st, e) ∈ runs isKeyByte 0 (f.text enc) := by
      rw [runs_text]
      exact List.mem_append_left _ hloc
    obtain ⟨x, k, y, hp, -, -, -, -, rfl, rfl⟩ := mem_runs.mp hloc
    have hlen : x.length ≤ f.pre.length := by
      rw [hp]
      simp
    refine hnone _ hall (fun hin => ?_) (by simp; omega)
    have := (inner_bounds hin).1
    simp [start] at this
    omega
  have hsuf : (runs isKeyByte (f.start + enc.length + 1) f.suf).filterMap
      (assignedSpan (f.text enc)) = [] := by
    refine List.filterMap_eq_nil_iff.mpr ?_
    rintro ⟨st, e⟩ hloc
    have hall : (st, e) ∈ runs isKeyByte 0 (f.text enc) := by
      rw [runs_text]
      exact List.mem_append_right _ (List.mem_append_right _ (List.mem_append_right _ hloc))
    have hst := runs_pairwise.1 _ hloc
    refine hnone _ hall (fun hin => ?_) ?_
    · have := inner_bounds hin
      simp only at hst
      omega
    · simp only [start] at hst ⊢
      omega
  rw [spans, runs_text, List.filterMap_append, List.filterMap_append, List.filterMap_append, hpre,
    hsuf, List.nil_append, List.append_nil]
  rfl

/-! ## The value of the field

The loop takes the value to end at the first quote of either kind: at the closing
quote when the encoding holds none, earlier otherwise. -/

/-- The start of the value of the field. -/
theorem valueStart_text (f : QuotedField) (enc : Bytes) :
    valueStart (f.text enc) (f.pre.length + 1 + f.key.length) = some (f.start, true) := by
  have hnone : Blanks [] := nofun
  have hgap : Gap true [34, 58, 34] :=
    ⟨[34], 58, [34], rfl, KeyClose.quoted hnone rfl hnone, rfl, ValueOpen.quoted hnone rfl⟩
  have htext : f.text enc = (f.pre ++ 34 :: f.key) ++ ([34, 58, 34] ++ (enc ++ 34 :: f.suf)) := by
    simp [text, head]
  have hstart : f.start = f.pre.length + 1 + f.key.length + [34, 58, 34].length := by
    simp [start]
    omega
  rw [hstart]
  refine valueStart_of_gap (r := enc ++ 34 :: f.suf) ?_ hgap nofun
  rw [htext, List.drop_left' (by simp; omega)]

/-- The key of the field is sensitive, so its value is what the scan says. -/
theorem own_eq (f : QuotedField) (enc : Bytes) :
    f.own enc = (valueSpan (f.text enc) (f.pre.length + 1 + f.key.length)).join := by
  have hkey : ((f.text enc).take (f.pre.length + 1 + f.key.length)).drop (f.pre.length + 1) =
      f.key := by
    refine take_drop_of_drop (r := [34, 58, 34] ++ (enc ++ 34 :: f.suf)) ?_
    have htext : f.text enc =
        (f.pre ++ [34]) ++ (f.key ++ ([34, 58, 34] ++ (enc ++ 34 :: f.suf))) := by
      simp [text, head]
    rw [htext, List.drop_left' (by simp)]
  rw [own, assignedSpan, hkey, isSensitiveKey_normalizeKey f.key_bytes, if_pos f.sensitive]

/-- The value is masked up to its first quote. -/
theorem own_of_ne_nil {w r : Bytes} (hw : ∀ c ∈ w, isQuote c = false) (hne : w ≠ [])
    (hr : ∀ c ∈ (r ++ 34 :: f.suf).head?, isQuote c = true) :
    f.own (w ++ r) = some (f.start, f.start + w.length) := by
  have hdrop : (f.text (w ++ r)).drop f.start = w ++ (r ++ 34 :: f.suf) := by
    rw [drop_text, List.append_assoc]
  have hle := valueStart_le (valueStart_text f (w ++ r))
  obtain ⟨hskip, hend⟩ := credentialEnd_of_value hle hdrop (IsValue.quoted hne hw hr)
  rw [own_eq, valueSpan, valueStart_text]
  simp only [if_neg hskip, hend]
  rfl

/-- A value that starts with a quote is taken to be empty and not masked. -/
theorem own_of_quote {q : UInt8} {r : Bytes} (hq : isQuote q = true) : f.own (q :: r) = none := by
  have hdrop : (f.text (q :: r)).drop f.start = [] ++ (q :: (r ++ 34 :: f.suf)) := by
    rw [drop_text]
    rfl
  have hskip := skip_terminator true hdrop (fun c hc => absurd hc List.not_mem_nil)
    (fun c hc => Option.some.inj hc ▸ hq)
  rw [own_eq, valueSpan, valueStart_text]
  simp only [hskip, List.length_nil, Nat.add_zero, if_true]
  rfl

/-! ## Encodings without a quote -/

omit [UnicodeTables] in
/-- Every encoding, cut at its first quote. -/
theorem cut_at_quote (enc : Bytes) : (∀ c ∈ enc, isQuote c = false) ∨
    ∃ w q r, enc = w ++ q :: r ∧ (∀ c ∈ w, isQuote c = false) ∧ isQuote q = true := by
  induction enc with
  | nil => exact .inl fun c hc => absurd hc List.not_mem_nil
  | cons c enc ih =>
    cases hc : isQuote c with
    | true => exact .inr ⟨[], c, enc, rfl, fun d hd => absurd hd List.not_mem_nil, hc⟩
    | false =>
      rcases ih with ih | ⟨w, q, r, rfl, hw, hq⟩
      · exact .inl fun d hd => (List.mem_cons.mp hd).elim (fun h => h ▸ hc) (ih d)
      · exact .inr ⟨c :: w, q, r, rfl,
          fun d hd => (List.mem_cons.mp hd).elim (fun h => h ▸ hc) (hw d), hq⟩

/-- Of the matches in the value only the last can find its own value behind the
closing quote. -/
theorem inner_pairwise (f : QuotedField) (enc : Bytes) :
    (f.inner enc).Pairwise fun a _ => a.1 < f.start + enc.length := by
  rw [inner, List.pairwise_filterMap]
  refine runs_pairwise.2.imp_of_mem ?_
  rintro ⟨st₁, e₁⟩ ⟨st₂, e₂⟩ hmem₁ hmem₂ hlt ⟨v, j⟩ hspan _ -
  obtain ⟨a, -, rfl, rfl, -⟩ := (assignedSpan_eq_some (mem_runs_text hmem₁)).mp hspan
  have hle := a.valStart_le (mem_runs_text hmem₂) (Nat.le_of_lt hlt)
  have hbound := inner_bounds hmem₂
  exact Nat.lt_of_le_of_lt hle (by omega)

/-- At most one match in the value finds its own value behind the closing quote. -/
theorem inner_eq (hbehind : ∀ span ∈ f.inner enc, f.start + enc.length ≤ span.1) :
    f.inner enc = [] ∨ ∃ span, f.inner enc = [span] := by
  have hpair := f.inner_pairwise enc
  rcases hin : f.inner enc with _ | ⟨span, _ | ⟨span', l⟩⟩
  · exact .inl rfl
  · exact .inr ⟨span, rfl⟩
  · rw [hin] at hpair hbehind
    have hlt := (List.pairwise_cons.mp hpair).1 span' List.mem_cons_self
    exact absurd hlt (Nat.not_lt.mpr (hbehind span List.mem_cons_self))

theorem drop_end (f : QuotedField) (enc : Bytes) :
    (f.text enc).drop (f.start + enc.length) = 34 :: f.suf :=
  drop_add (f.drop_text enc)

/-- The value that starts at a given place, as part of the text. -/
theorem drop_value (a : Assignment (f.text enc)) {i : ℕ} (hi : i ≤ a.valStart) :
    (f.text enc).drop i =
      ((f.text enc).take a.valStart).drop i ++ a.value ++ (f.text enc).drop a.valEnd := by
  have hend : (f.text enc).drop a.valEnd = a.after := drop_add a.drop_valStart
  have hcut : f.text enc = (f.text enc).take a.valStart ++ (a.value ++ a.after) := by
    rw [← a.drop_valStart, List.take_append_drop]
  have hlen : i ≤ ((f.text enc).take a.valStart).length := by
    have : a.valStart ≤ (f.text enc).length :=
      Nat.le_of_lt (byteAt_lt (p := fun _ => true) (by
        obtain ⟨c, hc, -⟩ := a.value_head
        simp [byteAt, hc]))
    rw [List.length_take]
    omega
  conv_lhs => rw [hcut]
  rw [List.drop_append_of_le_length hlen, hend, List.append_assoc]

/-- An encoding without a quote is masked as a whole. -/
theorem spans_no_quote (hne : enc ≠ []) (hq : ∀ c ∈ enc, isQuote c = false) :
    spans (f.text enc) = (f.start, f.start + enc.length) :: f.inner enc := by
  have hown := own_of_ne_nil (f := f) (r := []) hq hne fun c hc => Option.some.inj hc ▸ rfl
  rw [List.append_nil] at hown
  rw [spans_text, hown]
  rfl

/-- A value behind the closing quote starts after it. -/
theorem end_lt_valStart (a : Assignment (f.text enc)) (hle : f.start + enc.length ≤ a.valStart) :
    f.start + enc.length < a.valStart := by
  refine Nat.lt_of_le_of_ne hle fun heq => ?_
  obtain ⟨c, hc, hnq⟩ := a.value_head
  have hhead := congrArg List.head? (f.drop_end enc)
  rw [heq, List.head?_drop, hc] at hhead
  rw [Option.some.inj hhead] at hnq
  cases hnq

/-- The redacted text of an encoding without a quote. -/
theorem redactText_no_quote (hne : enc ≠ []) (hq : ∀ c ∈ enc, isQuote c = false) :
    redactText (f.text enc) = some (f.text mask) ↔ f.Opaque enc := by
  have hspans := spans_no_quote (f := f) hne hq
  have hmasked : masked (f.text enc) 0 (spans (f.text enc)) =
      f.head ++ (mask ++ masked (f.text enc) (f.start + enc.length) (f.inner enc)) := by
    rw [hspans, masked, f.take_text]
    simp
  have hgoal : f.text mask = f.head ++ (mask ++ (f.text enc).drop (f.start + enc.length)) := by
    rw [drop_end]
    rfl
  rw [redactText_eq_some, hmasked, hgoal, List.append_cancel_left_eq, List.append_cancel_left_eq]
  constructor
  · rintro ⟨ho, hrest⟩
    refine ⟨hq, fun a hown' => ?_⟩
    have hmem : (a.valStart, a.valEnd) ∈ f.inner enc := by
      have := mem_spans.mpr ⟨a, rfl, rfl⟩
      rw [hspans] at this
      rcases List.mem_cons.mp this with heq | hin
      · exact absurd (Prod.mk.inj heq).1 hown'
      · exact hin
    rw [hspans] at ho
    obtain ⟨-, ho⟩ := ho
    have hle : ∀ span ∈ f.inner enc, f.start + enc.length ≤ span.1 := by
      have hlt := (spans_pairwise (f.text enc))
      rw [hspans] at hlt
      exact ((ordered_iff (fun span hspan => (spans_bounds (hspans ▸ List.mem_cons_of_mem _ hspan)).1)
        (List.pairwise_cons.mp hlt).2).mp ho).1
    have hbehind := end_lt_valStart a (hle _ hmem)
    refine ⟨hbehind, ?_⟩
    rcases inner_eq hle with hin | ⟨span, hin⟩
    · rw [hin] at hmem
      cases hmem
    · rw [hin] at hmem hrest
      obtain rfl := List.mem_singleton.mp hmem
      rw [masked, masked, drop_value a (Nat.le_of_lt hbehind)] at hrest
      have h := List.append_cancel_left (List.append_cancel_right hrest)
      exact h.symm
  · intro hop
    have hle : ∀ span ∈ f.inner enc, f.start + enc.length < span.1 := by
      rintro ⟨v, j⟩ hspan
      have hstart := start_lt_of_inner hspan
      obtain ⟨a, -, rfl, rfl⟩ := mem_inner hspan
      exact (hop.no_inner a hstart.ne').1
    rcases inner_eq fun span hspan => Nat.le_of_lt (hle span hspan) with hin | ⟨⟨v, j⟩, hin⟩
    · rw [hspans, hin]
      exact ⟨⟨Nat.zero_le _, trivial⟩, rfl⟩
    · have hmem : (v, j) ∈ f.inner enc := hin ▸ List.mem_cons_self
      have hlt := hle _ hmem
      have hstart := start_lt_of_inner hmem
      obtain ⟨a, -, rfl, rfl⟩ := mem_inner hmem
      have hval := (hop.no_inner a hstart.ne').2
      rw [hspans, hin]
      refine ⟨⟨Nat.zero_le _, Nat.le_of_lt hlt, trivial⟩, ?_⟩
      rw [masked, masked, drop_value a (Nat.le_of_lt hlt), hval]

/-! ## Encodings with a quote

Part of such an encoding stays in the text. -/

omit [UnicodeTables] in
/-- Nothing changes before the first masked value. -/
theorem take_masked {s : Bytes} {l : List (ℕ × ℕ)} {n : ℕ}
    (hl : ∀ span ∈ l, n ≤ span.1 ∧ span.1 ≤ s.length) : (masked s 0 l).take n = s.take n := by
  cases l with
  | nil => rfl
  | cons span l =>
    obtain ⟨hle, hlen⟩ := hl span List.mem_cons_self
    rw [masked, List.drop_zero, List.append_assoc,
      List.take_append_of_le_length (by rw [List.length_take]; omega), List.take_take,
      Nat.min_eq_left hle]

/-- A value that starts with a quote keeps it. -/
theorem redactText_quote_first {q : UInt8} {r : Bytes} (hq : isQuote q = true) :
    redactText (f.text (q :: r)) ≠ some (f.text mask) := by
  intro h
  obtain ⟨-, hmasked⟩ := redactText_eq_some.mp h
  have hspans : spans (f.text (q :: r)) = f.inner (q :: r) := by
    rw [spans_text, own_of_quote hq]
    rfl
  have htake : (f.text mask).take (f.start + 1) = (f.text (q :: r)).take (f.start + 1) := by
    rw [← hmasked]
    refine take_masked fun span hspan => ⟨?_, ?_⟩
    · exact start_lt_of_inner (hspans ▸ hspan)
    · have := spans_bounds hspan
      omega
  have hdrop := congrArg (List.drop f.start) htake
  simp only [List.drop_take, drop_text, Nat.add_sub_cancel_left] at hdrop
  rw [mask_eq] at hdrop
  cases hdrop
  exact absurd hq (by decide)

/-- An assignment made inside an encoding with its key behind an escaped double
quote leaves a sensitive key behind the mask, where the masked text has none. -/
theorem suf_ne_of_key {i : ℕ} (a : Assignment (f.text enc)) (hi : i < a.keyStart) (rest : Bytes) :
    ((f.text enc).take a.valStart).drop i ++ rest ≠ 34 :: f.suf := by
  intro heq
  have htake : (f.text enc).take a.valStart = a.before ++ (a.key ++ a.gap) :=
    (congrArg (List.take a.valStart) a.text).trans (by
      rw [List.append_assoc _ a.value, List.append_assoc a.before]
      exact List.take_left' (by simp [Assignment.valStart]; omega))
  have hlt : i < a.before.length := hi
  rw [htake, List.drop_append_of_le_length (Nat.le_of_lt hlt), List.drop_eq_getElem_cons hlt]
    at heq
  have hsuf : f.suf = a.before.drop (i + 1) ++ a.key ++ (a.gap ++ rest) := by
    simpa using (List.cons.inj heq).2.symm
  have hsens := a.sensitive
  rw [f.suf_free.run hsuf a.key_ne_nil a.key_bytes ?_ ?_] at hsens
  · cases hsens
  · intro c hc
    rw [List.getLast?_drop] at hc
    split at hc
    · cases hc
    · exact a.key_first c hc
  · exact a.gap_ok.head_not_key rest

/-- A value with a quote further on keeps what follows the quote. -/
theorem redactText_quote {w r : Bytes} {q : UInt8} (hw : ∀ c ∈ w, isQuote c = false)
    (hne : w ≠ []) (hq : isQuote q = true) (hesc : q = 34 → w.getLast? = some 92) :
    redactText (f.text (w ++ q :: r)) ≠ some (f.text mask) := by
  intro h
  obtain ⟨ho, hmasked⟩ := redactText_eq_some.mp h
  have hspans : spans (f.text (w ++ q :: r)) =
      (f.start, f.start + w.length) :: f.inner (w ++ q :: r) := by
    rw [spans_text, own_of_ne_nil (r := q :: r) hw hne fun c hc => Option.some.inj hc ▸ hq]
    rfl
  have hdrop : (f.text (w ++ q :: r)).drop (f.start + w.length) = q :: (r ++ 34 :: f.suf) :=
    drop_add (by rw [drop_text]; simp)
  have hrest : masked (f.text (w ++ q :: r)) (f.start + w.length) (f.inner (w ++ q :: r)) =
      34 :: f.suf := by
    rw [hspans, masked, f.take_text, List.drop_zero, text, List.append_assoc] at hmasked
    exact List.append_cancel_left (List.append_cancel_left hmasked)
  rcases hin : f.inner (w ++ q :: r) with _ | ⟨⟨v, j⟩, l⟩
  · rw [hin, masked, hdrop] at hrest
    have hlen := congrArg List.length hrest
    simp at hlen
    omega
  · rw [hspans, hin] at ho
    obtain ⟨-, hle, -⟩ := ho
    obtain ⟨a, -, rfl, rfl⟩ := mem_inner (hin ▸ List.mem_cons_self)
    have hbyte : (f.text (w ++ q :: r))[f.start + w.length]? = some q := by
      rw [← List.head?_drop, hdrop]
      rfl
    -- the value cannot start at the quote
    have hlt : f.start + w.length < a.valStart := by
      refine Nat.lt_of_le_of_ne hle fun heq => ?_
      obtain ⟨c, hc, hnq⟩ := a.value_head
      rw [← heq, hbyte] at hc
      rw [← Option.some.inj hc, hq] at hnq
      cases hnq
    rw [hin, masked, List.append_assoc] at hrest
    -- so the quote is kept, and it is the double quote that follows the mask
    obtain rfl : q = 34 := by
      have hhead := congrArg List.head? hrest
      rw [List.head?_append, List.head?_drop, List.getElem?_take_of_lt hlt, hbyte] at hhead
      exact Option.some.inj hhead
    -- which an encoding has behind a backslash only, and no assignment spans that
    have hpos := List.length_pos_of_ne_nil hne
    have hback : (f.text (w ++ 34 :: r))[f.start + w.length - 1]? = some 92 := by
      have hlast := hesc rfl
      rw [List.getLast?_eq_getElem?] at hlast
      rw [show f.start + w.length - 1 = f.start + (w.length - 1) by omega, ← List.getElem?_drop,
        drop_text, List.append_assoc, List.getElem?_append_left (by omega), hlast]
    refine suf_ne_of_key a ?_ _ hrest
    by_contra hkey
    by_cases hend : f.start + w.length - 1 < a.keyEnd
    · by_cases hstart : a.keyStart ≤ f.start + w.length - 1
      · obtain ⟨c, hc, hk⟩ := a.keyByte_at hstart hend
        cases hback.symm.trans hc
        exact absurd hk (by decide)
      · obtain ⟨c, hc, hk⟩ := a.keyByte_at (p := f.start + w.length) (by omega)
          (by have := a.keyStart_lt_keyEnd; omega)
        cases hbyte.symm.trans hc
        exact absurd hk (by decide)
    · obtain ⟨c, hc, hk⟩ := a.gapByte_at (Nat.not_lt.mp hend) (by omega)
      cases hback.symm.trans hc
      exact absurd hk (by unfold IsGapByte; decide)

/-- **What is masked**: the value of a field is replaced by the mask exactly when
its encoding is opaque. -/
theorem redactText_text_iff (f : QuotedField) (e : JsonText) :
    redactText (f.text e.enc) = some (f.text mask) ↔ f.Opaque e.enc := by
  rcases cut_at_quote e.enc with hq | ⟨w, q, r, henc, hw, hq⟩
  · exact redactText_no_quote (e.encodes.ne_nil e.value_ne_nil) hq
  · have hleak : redactText (f.text (w ++ q :: r)) ≠ some (f.text mask) := by
      by_cases hne : w = []
      · subst hne
        exact redactText_quote_first hq
      · exact redactText_quote hw hne hq fun h34 => e.encodes.quote_escaped (h34 ▸ henc)
    rw [henc]
    refine iff_of_false hleak fun hop => ?_
    have hnq := hop.no_quote q (by simp)
    rw [hq] at hnq
    cases hnq

/-- **Noninterference holds exactly for opaque encodings.** -/
theorem masks_iff (f : QuotedField) (e₁ e₂ : JsonText) :
    f.Masks e₁.enc e₂.enc ↔ f.Opaque e₁.enc ∧ f.Opaque e₂.enc := by
  rw [← redactText_text_iff, ← redactText_text_iff]
  constructor
  · rintro ⟨t, h₁, h₂, rfl⟩
    exact ⟨h₁, h₂⟩
  · rintro ⟨h₁, h₂⟩
    exact ⟨f.text mask, h₁, h₂, rfl⟩

end QuotedField

end

/-- The apostrophe of `it's` is taken for the end of the value, and the rest of
the secret stays in the text. -/
theorem redactText_leaks : ∃ (f : @QuotedField asciiTables) (e₁ e₂ : JsonText),
    @QuotedField.text asciiTables f e₁.enc = bytes "\"password\":\"hunter2\"" ∧
      @QuotedField.text asciiTables f e₂.enc = bytes "\"password\":\"it's me\"" ∧
      @redactText asciiTables (@QuotedField.text asciiTables f e₁.enc) =
        some (bytes "\"password\":\"***\"") ∧
      @redactText asciiTables (@QuotedField.text asciiTables f e₂.enc) =
        some (bytes "\"password\":\"***'s me\"") := by
  refine ⟨@QuotedField.mk asciiTables [] (bytes "password") [] ?_ ?_ ?_ nofun nofun,
    ⟨bytes "hunter2", bytes "hunter2", .self ?_, ?_⟩,
    ⟨bytes "it's me", bytes "it's me", .self ?_, ?_⟩, ?_, ?_, ?_, ?_⟩
  all_goals decide +kernel

end HstongApi
