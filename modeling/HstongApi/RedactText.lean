import HstongApi.Bytes
import HstongApi.Runs

/-!
# Redaction of free-form text

The masking of secret-looking assignments in untrusted text
(`internal/logging/logging.go`) and its caller on the error path
(`internal/transport/transport.go`, `bodySnippet`).

`redactText` walks over the candidate keys of a text from left to right. A
sensitive key that is followed by a separator and a nonempty value has the value
replaced by `mask`; `last`, the end of the value masked last, is the cut point up
to which the text has been copied. Every slice expression is partial here, so a
panic of the code is the result `none`.

The loop is then put in closed form. `spans s` are the values the loop means to
mask, in order; `redactText_eq` says that the loop succeeds exactly when each of
them starts at or after the end of the one before (`Ordered`), and that it then
returns `masked`, the text with these values replaced.
-/

namespace HstongApi

/-! ## The code -/

/-- `Mask` -/
def mask : Bytes := bytes "***"

theorem mask_eq : mask = [42, 42, 42] := by decide +kernel

/-- `sensitiveKeys`: the normalized names that trigger redaction. -/
def sensitiveKeys : List Bytes :=
  ["password", "passwd", "pwd", "tradepassword", "token", "accesstoken", "refreshtoken",
    "encryptedkey", "secret", "apikey", "privatekey", "authorization", "signature", "cookie",
    "sessionid", "credential", "credentials", "accountid", "fundaccount"].map bytes

/-- `authSchemes`: the credential prefixes whose remainder is one opaque secret. -/
def authSchemes : List Bytes :=
  ["bearer", "basic", "digest", "negotiate", "token"].map bytes

/-- The class of `textKeyPattern`, `[A-Za-z0-9_.\-]`. -/
def isKeyByte (c : UInt8) : Bool :=
  (65 ≤ c && c ≤ 90) || (97 ≤ c && c ≤ 122) || (48 ≤ c && c ≤ 57) ||
    c == 95 || c == 46 || c == 45

/-- A space or a tab. -/
def isBlank (c : UInt8) : Bool := c == 32 || c == 9

/-- A double or a single quote. -/
def isQuote (c : UInt8) : Bool := c == 34 || c == 39

/-- A colon or an equals sign. -/
def isSeparator (c : UInt8) : Bool := c == 58 || c == 61

/-- `isCredentialTerminator`: line feed, carriage return, `,` `;` `&` `}` `]` and
the quotes. -/
def isCredentialTerminator (c : UInt8) : Bool :=
  c == 10 || c == 13 || c == 44 || c == 59 || c == 38 || c == 125 || c == 93 || isQuote c

/-- `isValueTerminator`: a quoted value ends at a quote, a bare one also at white
space and at the separators of a list. -/
def isValueTerminator (c : UInt8) (quoted : Bool) : Bool :=
  if quoted then isQuote c else isBlank c || isCredentialTerminator c

/-- Whether the byte at `i` exists and passes `p`. -/
def byteAt (p : UInt8 → Bool) (s : Bytes) (i : ℕ) : Bool := s[i]?.any p

/-- `skipSpace` -/
def skipSpace (s : Bytes) (i : ℕ) : ℕ := skip isBlank s i

/-- `RedactValue` -/
def redactValue (value : Bytes) : Bytes := if value = [] then [] else mask

section

variable [UnicodeTables]

/-- `normalizeKey` -/
def normalizeKey (key : Bytes) : Bytes :=
  (toLower key).filter fun c => !(c == 95 || c == 45 || c == 32)

/-- `IsSensitiveKey` -/
def isSensitiveKey (key : Bytes) : Bool := sensitiveKeys.contains (normalizeKey key)

/-- `isAuthScheme` -/
def isAuthScheme (word : Bytes) : Bool :=
  authSchemes.contains (toLower (trimSuffix word (bytes ":")))

/-- Where the separator of a key that ends at `e` is expected: past blanks and an
optional closing quote of the key. -/
def separatorAt (s : Bytes) (e : ℕ) : ℕ :=
  let i := skipSpace s e
  if byteAt isQuote s i then skipSpace s (i + 1) else i

/-- Where the value assigned to a key that ends at `e` starts, and whether it is
quoted. Without a separator the loop continues with the next key. -/
def valueStart (s : Bytes) (e : ℕ) : Option (ℕ × Bool) :=
  let i := separatorAt s e
  if byteAt isSeparator s i then
    let i := skipSpace s (i + 1)
    let quoted := byteAt isQuote s i
    some (if quoted then i + 1 else i, quoted)
  else none

/-- The end of the value that starts at `valStart` and has its first word end at
`i`: the remainder of a scheme-prefixed credential belongs to it. -/
def credentialEnd (s : Bytes) (valStart i : ℕ) (quoted : Bool) : Option ℕ :=
  if i < s.length && !quoted then do
    let word ← slice s valStart i
    if isAuthScheme word then
      return skip (fun c => !isCredentialTerminator c) s i
    else
      return i
  else some i

/-- The value assigned to a key that ends at `e`, as its first position and the
position after its last; the inner `none` is the `continue` of the loop. -/
def valueSpan (s : Bytes) (e : ℕ) : Option (Option (ℕ × ℕ)) :=
  match valueStart s e with
  | none => some none
  | some (valStart, quoted) =>
    let i := skip (fun c => !isValueTerminator c quoted) s valStart
    if i = valStart then some none
    else (credentialEnd s valStart i quoted).map fun i => some (valStart, i)

/-- One turn of the loop over the matches of `textKeyPattern`, on the text built
so far and the cut point. -/
def redactMatch (s : Bytes) (state : Bytes × ℕ) (loc : ℕ × ℕ) : Option (Bytes × ℕ) := do
  let key ← slice s loc.1 loc.2
  if !isSensitiveKey (normalizeKey key) then
    return state
  match ← valueSpan s loc.2 with
  | none => return state
  | some (valStart, i) =>
    let kept ← slice s state.2 valStart
    return (state.1 ++ kept ++ mask, i)

/-- `RedactText`; `none` is a panic. -/
def redactText (s : Bytes) : Option Bytes := do
  if s = [] then
    return s
  let (b, last) ← (runs isKeyByte 0 s).foldlM (redactMatch s) ([], 0)
  if last = 0 then
    return s
  let rest ← slice s last s.length
  return b ++ rest

/-- `bodySnippet`: a short single-line excerpt of an error body. -/
def bodySnippet (body : Bytes) : Option Bytes := do
  let text := trimSpace body
  if text = [] then
    return []
  let text ← redactText text
  let text ← if text.length > 256 then (slice text 0 256).map (· ++ bytes "...") else some text
  return bytes ": " ++ text.map fun c => if c = 10 then 32 else c

end

/-! ## The closed form of the loop -/

section

variable [UnicodeTables]

/-- The value that a match assigns, when it is one the loop masks. -/
def assignedSpan (s : Bytes) (loc : ℕ × ℕ) : Option (ℕ × ℕ) :=
  if isSensitiveKey (normalizeKey ((s.take loc.2).drop loc.1)) then (valueSpan s loc.2).join
  else none

/-- The values of the text that the loop masks, from left to right. -/
def spans (s : Bytes) : List (ℕ × ℕ) := (runs isKeyByte 0 s).filterMap (assignedSpan s)

end

/-- Each span starts at or after the end of the one before; the first one at or
after `last`. -/
def Ordered : ℕ → List (ℕ × ℕ) → Prop
  | _, [] => True
  | last, span :: rest => last ≤ span.1 ∧ Ordered span.2 rest

/-- The text from `last` on, with the spans replaced by the mask. -/
def masked (s : Bytes) : ℕ → List (ℕ × ℕ) → Bytes
  | last, [] => s.drop last
  | last, span :: rest => (s.take span.1).drop last ++ mask ++ masked s span.2 rest

/-- Masking one span: the loop body once the span is known. -/
def maskSpan (s : Bytes) (state : Bytes × ℕ) (span : ℕ × ℕ) : Option (Bytes × ℕ) :=
  (slice s state.2 span.1).map fun kept => (state.1 ++ kept ++ mask, span.2)

variable {s : Bytes}

/-- Masking spans that lie in the text and are in order succeeds. -/
theorem foldlM_maskSpan {l : List (ℕ × ℕ)} (hl : ∀ span ∈ l, span.1 ≤ s.length) {b : Bytes}
    {last : ℕ} (ho : Ordered last l) :
    ∃ b' last', l.foldlM (maskSpan s) (b, last) = some (b', last') ∧
      b' ++ s.drop last' = b ++ masked s last l ∧ last' = (l.getLast?.map Prod.snd).getD last := by
  induction l generalizing b last with
  | nil => exact ⟨b, last, rfl, rfl, rfl⟩
  | cons span l ih =>
    obtain ⟨hle, ho⟩ := ho
    obtain ⟨b', last', hfold, htext, hlast⟩ :=
      ih (b := b ++ (s.take span.1).drop last ++ mask)
        (fun t ht => hl t (List.mem_cons_of_mem _ ht)) ho
    refine ⟨b', last', ?_, ?_, ?_⟩
    · rw [List.foldlM_cons, maskSpan, slice_eq_some hle (hl span List.mem_cons_self)]
      exact hfold
    · rw [htext, masked]
      simp [List.append_assoc]
    · rw [hlast]
      cases l with
      | nil => rfl
      | cons t l => rw [List.getLast?_cons_cons]; simp [List.getLast?_cons]

/-- Masking spans that are out of order panics. -/
theorem foldlM_maskSpan_none {l : List (ℕ × ℕ)} {b : Bytes} {last : ℕ} (ho : ¬ Ordered last l) :
    l.foldlM (maskSpan s) (b, last) = none := by
  induction l generalizing b last with
  | nil => exact absurd trivial ho
  | cons span l ih =>
    rw [List.foldlM_cons]
    by_cases hle : last ≤ span.1
    · have ho' : ¬ Ordered span.2 l := fun h => ho ⟨hle, h⟩
      rcases hs : slice s last span.1 with _ | kept
      · simp [maskSpan, hs]
      · simp [maskSpan, hs, ih ho']
    · simp [maskSpan, slice_eq_none (Nat.not_le.mp hle)]

theorem byteAt_lt {p : UInt8 → Bool} {i : ℕ} (h : byteAt p s i = true) : i < s.length := by
  by_contra hlt
  rw [byteAt, List.getElem?_eq_none (Nat.not_lt.mp hlt)] at h
  cases h

section

variable [UnicodeTables]

omit [UnicodeTables] in
theorem valueStart_le {e v : ℕ} {quoted : Bool} (h : valueStart s e = some (v, quoted)) :
    v ≤ s.length := by
  unfold valueStart at h
  by_cases hsep : byteAt isSeparator s (separatorAt s e) = true
  · have hi := skip_le (p := isBlank) (byteAt_lt hsep)
    rw [if_pos hsep] at h
    obtain ⟨hv, -⟩ := Prod.mk.inj (Option.some.inj h)
    by_cases hq : byteAt isQuote s (skipSpace s (separatorAt s e + 1)) = true
    · rw [if_pos hq] at hv
      exact hv ▸ byteAt_lt hq
    · rw [if_neg hq] at hv
      exact hv ▸ hi
  · rw [if_neg hsep] at h
    cases h

/-- The end of a value is found without a panic, at or after the end of its first
word. -/
theorem credentialEnd_total {v i : ℕ} (quoted : Bool) (hv : v ≤ i) (hi : i ≤ s.length) :
    ∃ j, credentialEnd s v i quoted = some j ∧ i ≤ j ∧ j ≤ s.length := by
  unfold credentialEnd
  by_cases hscheme : (i < s.length && !quoted) = true
  · rw [if_pos hscheme, slice_eq_some hv hi]
    by_cases hauth : isAuthScheme ((s.take i).drop v) = true
    · exact ⟨_, if_pos hauth, le_skip .., skip_le hi⟩
    · exact ⟨_, if_neg hauth, Nat.le_refl _, hi⟩
  · exact ⟨i, if_neg hscheme, Nat.le_refl _, hi⟩

/-- Finding the value of a key never panics, and a value is a nonempty part of
the text. -/
theorem valueSpan_total (s : Bytes) (e : ℕ) :
    ∃ r, valueSpan s e = some r ∧ ∀ v j, r = some (v, j) → v < j ∧ j ≤ s.length := by
  unfold valueSpan
  rcases hstart : valueStart s e with _ | ⟨v, quoted⟩
  · exact ⟨none, rfl, fun v j h => by cases h⟩
  · have hi := le_skip (fun c => !isValueTerminator c quoted) s v
    have hlen := skip_le (p := fun c => !isValueTerminator c quoted) (valueStart_le hstart)
    obtain ⟨j, hj, hij, hjlen⟩ := credentialEnd_total quoted hi hlen
    by_cases heq : skip (fun c => !isValueTerminator c quoted) s v = v
    · exact ⟨none, if_pos heq, fun v j h => by cases h⟩
    · refine ⟨some (v, j), ?_, ?_⟩
      · simp only [if_neg heq, hj, Option.map_some]
      · intro v' j' h
        cases h
        omega

theorem spans_bounds {span : ℕ × ℕ} (h : span ∈ spans s) : span.1 < span.2 ∧ span.2 ≤ s.length := by
  obtain ⟨loc, -, hloc⟩ := List.mem_filterMap.mp h
  obtain ⟨r, hr, hbound⟩ := valueSpan_total s loc.2
  rw [assignedSpan, hr] at hloc
  split at hloc
  · exact hbound _ _ hloc
  · cases hloc

/-- One turn of the loop masks the value the match assigns, if there is one. -/
theorem redactMatch_eq {loc : ℕ × ℕ} (hloc : loc ∈ runs isKeyByte 0 s) (state : Bytes × ℕ) :
    redactMatch s state loc = match assignedSpan s loc with
      | none => some state
      | some span => maskSpan s state span := by
  obtain ⟨x, k, y, rfl, -, -, -, -, hx, hk⟩ := mem_runs.mp (show (loc.1, loc.2) ∈ _ from hloc)
  obtain ⟨r, hr, -⟩ := valueSpan_total (x ++ k ++ y) loc.2
  have hle : loc.1 ≤ loc.2 := by omega
  have hlen : loc.2 ≤ (x ++ k ++ y).length := by simp; omega
  rw [redactMatch, slice_eq_some hle hlen, assignedSpan, hr]
  by_cases hkey : isSensitiveKey (normalizeKey (((x ++ k ++ y).take loc.2).drop loc.1)) = true
  · simp only [Option.bind_eq_bind, Option.bind_some, hkey, Bool.not_true, if_pos,
      Bool.false_eq_true, if_false, Option.join_some]
    rcases r with _ | ⟨v, j⟩
    · rfl
    · rcases hs : slice (x ++ k ++ y) state.2 v with _ | kept
      · simp only [maskSpan, hs]
        rfl
      · simp only [maskSpan, hs]
        rfl
  · simp only [Option.bind_eq_bind, Option.bind_some, hkey]
    rfl

/-- The loop masks the spans of the text one after another. -/
theorem foldlM_redactMatch {locs : List (ℕ × ℕ)} (h : ∀ loc ∈ locs, loc ∈ runs isKeyByte 0 s)
    (state : Bytes × ℕ) : locs.foldlM (redactMatch s) state =
      (locs.filterMap (assignedSpan s)).foldlM (maskSpan s) state := by
  induction locs generalizing state with
  | nil => rfl
  | cons loc locs ih =>
    have ih' := ih fun l hl => h l (List.mem_cons_of_mem _ hl)
    rw [List.foldlM_cons, redactMatch_eq (h loc List.mem_cons_self)]
    rcases hspan : assignedSpan s loc with _ | span
    · rw [List.filterMap_cons_none hspan]
      exact ih' state
    · rw [List.filterMap_cons_some hspan, List.foldlM_cons]
      exact congrArg _ (funext ih')

/-- **The loop in closed form**: redaction succeeds exactly when the spans of the
text are in order, and then replaces each of them by the mask. -/
theorem redactText_eq (s : Bytes) :
    (Ordered 0 (spans s) → redactText s = some (masked s 0 (spans s))) ∧
      (¬ Ordered 0 (spans s) → redactText s = none) := by
  have hbounds : ∀ span ∈ spans s, span.1 ≤ s.length := fun span hspan => by
    have := spans_bounds hspan
    omega
  have hloop := foldlM_redactMatch (s := s) (fun loc hloc => hloc) ([], 0)
  rw [← spans] at hloop
  rcases s with _ | ⟨c, s⟩
  · exact ⟨fun _ => rfl, fun h => absurd trivial h⟩
  constructor
  · intro ho
    obtain ⟨b, last, hfold, htext, hlast⟩ := foldlM_maskSpan hbounds (b := []) ho
    rw [redactText, if_neg (List.cons_ne_nil c s), hloop, hfold]
    rw [List.nil_append] at htext
    by_cases hzero : last = 0
    · -- no value was masked, since a masked one ends after position 0
      have hnil : spans (c :: s) = [] := by
        rcases hl : (spans (c :: s)).getLast? with _ | span
        · exact List.getLast?_eq_none_iff.mp hl
        · have hb := spans_bounds (List.mem_of_getLast? hl)
          rw [hl, Option.map_some, Option.getD_some, hzero] at hlast
          omega
      rw [hnil]
      simp [hzero, masked]
    · have hle : last ≤ (c :: s).length := by
        rcases hl : (spans (c :: s)).getLast? with _ | span
        · rw [hl] at hlast
          exact absurd hlast hzero
        · have hb := spans_bounds (List.mem_of_getLast? hl)
          rw [hl, Option.map_some, Option.getD_some] at hlast
          omega
      simp only [Option.bind_eq_bind, Option.bind_some, if_neg hzero,
        slice_eq_some hle (Nat.le_refl _), List.take_length, htext]
      rfl
  · intro ho
    rw [redactText, if_neg (List.cons_ne_nil c s), hloop, foldlM_maskSpan_none ho]
    rfl

theorem redactText_eq_some {t : Bytes} :
    redactText s = some t ↔ Ordered 0 (spans s) ∧ masked s 0 (spans s) = t := by
  obtain ⟨hsome, hnone⟩ := redactText_eq s
  by_cases ho : Ordered 0 (spans s)
  · simp [hsome ho, ho]
  · simp [hnone ho, ho]

end

end HstongApi
