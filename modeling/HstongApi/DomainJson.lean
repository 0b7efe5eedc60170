import HstongApi.Domain
import HstongApi.JsonGrammar

/-!
# Domain numbers in JSON

`MarshalJSON` of the five number types of the domain package writes the decimal in quotes.
`UnmarshalJSON` cuts off the first and the last byte of the text, whatever they are, and reads the
rest as a decimal.

For a string this is right: what is cut off are the quotes, and a decimal has no escapes. What is
written is read back. Other texts may be misread (`unmarshal_exact_iff`): a number token loses two of
its digits, and the brackets of a list with one number are taken for quotes. A token of one digit is
too short to be cut.

Of the decimal package it is assumed that its reader stores the number which a text denotes, that it
writes plain text, and that it reads what it has written. Which other texts the reader accepts is left
to the package: where it matters, the condition asks the reader.
-/

namespace HstongApi

open DecimalPackage JsonGrammar

/-! ## Texts -/

/-- `s[1 : len(s)-1]`, for a text of two bytes at least. -/
def inside (s : Bytes) : Bytes := (s.drop 1).take (s.length - 2)

@[simp] theorem inside_cut (c d : UInt8) (s : Bytes) : inside (c :: s ++ [d]) = s := by
  simp [inside]

/-- A byte of the text of a decimal. -/
def isNumeralByte (c : UInt8) : Bool :=
  Numeral.isDigit c || c == 43 || c == 45 || Numeral.isPoint c || Numeral.isMark c

variable {t : Bytes} {c : UInt8}

theorem isNumeralByte_of_intText {n : ℤ} (h : Numeral.IntText t n) (hc : c ∈ t) :
    isNumeralByte c = true := by
  rcases h.bytes c hc with hdigit | rfl | rfl
  · rw [isNumeralByte, hdigit]
    rfl
  · rfl
  · rfl

theorem isNumeralByte_of_pointText {n : ℤ} {k : ℕ} (h : Numeral.PointText t n k) (hc : c ∈ t) :
    isNumeralByte c = true := by
  cases h with
  | whole h => exact isNumeralByte_of_intText h hc
  | point h =>
    rw [List.mem_append, List.mem_cons, or_left_comm] at hc
    rcases hc with rfl | hc
    · rfl
    · exact isNumeralByte_of_intText h (List.mem_append.mpr hc)

/-- A numeral is made of digits, signs, points and marks. -/
theorem isNumeralByte_of_denotes {n e : ℤ} (h : Numeral.Denotes t n e) (hc : c ∈ t) :
    isNumeralByte c = true := by
  cases h with
  | plain hpoint => exact isNumeralByte_of_pointText hpoint hc
  | scientific hpoint hmark hint =>
    rcases List.mem_append.mp hc with hc | hc
    · exact isNumeralByte_of_pointText hpoint hc
    · rcases List.mem_cons.mp hc with rfl | hc
      · rw [isNumeralByte, hmark, Bool.or_true]
      · exact isNumeralByte_of_intText hint hc

theorem not_isNumeralByte_of_isBlank (h : isBlank c = true) : isNumeralByte c = false := by
  simp only [isBlank, Bool.or_eq_true, beq_iff_eq] at h
  rcases h with ((rfl | rfl) | rfl) | rfl <;> decide

/-! ## Reading and writing -/

variable {typeName : Bytes}

section

variable [DecimalPackage]

/-- The error `domain: T: UnmarshalJSON: invalid decimal`, with the type and the text. -/
structure UnmarshalError where
  /-- the type that was to be decoded -/
  typeName : Bytes
  /-- the text that is no decimal -/
  text : Bytes
  deriving DecidableEq

/-- What an `UnmarshalJSON` does: it cuts the text, reads the decimal and stores it in a value. -/
def unmarshalWith {α : Type} (typeName : Bytes) (store : α → Decimal → α) (a : α) (data : Bytes) :
    Except Panic (α × Option UnmarshalError) :=
  if data.length < 2 then .error .sliceBounds
  else
    match newFromString (inside data) with
    | none => .ok (a, some ⟨typeName, inside data⟩)
    | some dec => .ok (store a dec, none)

/-- A decimal in quotes. -/
def quotedDecimal (dec : Decimal) : Bytes := 34 :: string dec ++ [34]

/-- `domain.Rate` -/
structure Rate where
  dec : Decimal := zero
  deriving DecidableEq

/-- `domain.Tick` -/
structure Tick where
  dec : Decimal := zero
  deriving DecidableEq

/-- `Price.MarshalJSON` -/
def Price.marshalJSON (p : Price) : Bytes := quotedDecimal p.dec

/-- `Money.MarshalJSON` -/
def Money.marshalJSON (m : Money) : Bytes := quotedDecimal m.dec

/-- `Quantity.MarshalJSON` -/
def Quantity.marshalJSON (q : Quantity) : Bytes := quotedDecimal q.dec

/-- `Rate.MarshalJSON` -/
def Rate.marshalJSON (r : Rate) : Bytes := quotedDecimal r.dec

/-- `Tick.MarshalJSON` -/
def Tick.marshalJSON (t : Tick) : Bytes := quotedDecimal t.dec

/-- `Price.UnmarshalJSON` -/
def Price.unmarshalJSON : Price → Bytes → Except Panic (Price × Option UnmarshalError) :=
  unmarshalWith (bytes "Price") fun p dec => { p with dec }

/-- `Money.UnmarshalJSON` -/
def Money.unmarshalJSON : Money → Bytes → Except Panic (Money × Option UnmarshalError) :=
  unmarshalWith (bytes "Money") fun m dec => { m with dec }

/-- `Quantity.UnmarshalJSON` -/
def Quantity.unmarshalJSON : Quantity → Bytes → Except Panic (Quantity × Option UnmarshalError) :=
  unmarshalWith (bytes "Quantity") fun q dec => { q with dec }

/-- `Rate.UnmarshalJSON` -/
def Rate.unmarshalJSON : Rate → Bytes → Except Panic (Rate × Option UnmarshalError) :=
  unmarshalWith (bytes "Rate") fun r dec => { r with dec }

/-- `Tick.UnmarshalJSON` -/
def Tick.unmarshalJSON : Tick → Bytes → Except Panic (Tick × Option UnmarshalError) :=
  unmarshalWith (bytes "Tick") fun t dec => { t with dec }

/-! ## What it should do -/

section

variable {α : Type} (dec : α → Decimal) (unmarshal : α → Bytes → Except Panic (α × Option UnmarshalError))
  (marshal : α → Bytes)

/-- **Decoding is safe and exact** for a JSON text: there is no panic, and without an error the number
that the text denotes is stored. -/
def DecodesExactly (v : JsonTree) : Prop :=
  ∀ a, ∃ a' err, unmarshal a v.text = .ok (a', err) ∧ (err = none → v.Denotes (dec a').toRat)

/-- **What is written is read back**: decoding restores the number. -/
def RestoresNumber : Prop :=
  ∀ a b, ∃ b', unmarshal b (marshal a) = .ok (b', none) ∧ (dec b').toRat = (dec a).toRat

end

/-- The five types decode a text exactly and restore what they have written. -/
structure DomainNumbersExact (v : JsonTree) : Prop where
  price : DecodesExactly Price.dec Price.unmarshalJSON v ∧
    RestoresNumber Price.dec Price.unmarshalJSON Price.marshalJSON
  money : DecodesExactly Money.dec Money.unmarshalJSON v ∧
    RestoresNumber Money.dec Money.unmarshalJSON Money.marshalJSON
  quantity : DecodesExactly Quantity.dec Quantity.unmarshalJSON v ∧
    RestoresNumber Quantity.dec Quantity.unmarshalJSON Quantity.marshalJSON
  rate : DecodesExactly Rate.dec Rate.unmarshalJSON v ∧
    RestoresNumber Rate.dec Rate.unmarshalJSON Rate.marshalJSON
  tick : DecodesExactly Tick.dec Tick.unmarshalJSON v ∧
    RestoresNumber Tick.dec Tick.unmarshalJSON Tick.marshalJSON

/-- A list of one number, without blanks. -/
def oneNumber (n : Number) : JsonTree := .array (.last ⟨[], rfl⟩ (.number n) ⟨[], rfl⟩)

/-- The texts that are not misread. A number token must have two bytes, and what is between its first
and its last byte must not be read as a decimal, or be the same number. A list must not be that of one
number which is read as a decimal. -/
def Legible (v : JsonTree) : Prop :=
  (∀ n, v = .number n → 2 ≤ n.text.length ∧
    ∀ d, newFromString (inside n.text) = some d → d.toRat = n.value) ∧
  ∀ n, v = oneNumber n → ¬Readable n.text

/-! ## When a text is cut right -/

variable {v : JsonTree}

/-- A text is decoded exactly if it can be cut, and what is read is what it denotes. -/
def CutExactly (v : JsonTree) : Prop :=
  2 ≤ v.text.length ∧ ∀ d, newFromString (inside v.text) = some d → v.Denotes d.toRat

theorem cutExactly_of_decodesExactly {α : Type} {dec : α → Decimal} {store : α → Decimal → α}
    (hstore : ∀ a d, dec (store a d) = d) (a : α)
    (h : DecodesExactly dec (unmarshalWith typeName store) v) : CutExactly v := by
  obtain ⟨a', err, hresult, hexact⟩ := h a
  rw [unmarshalWith] at hresult
  split at hresult
  · cases hresult
  · rename_i hlength
    refine ⟨not_lt.mp hlength, fun d hd => ?_⟩
    rw [hd] at hresult
    cases hresult
    rw [← hstore a d]
    exact hexact rfl

theorem decodesExactly_of_cutExactly {α : Type} {dec : α → Decimal} {store : α → Decimal → α}
    (hstore : ∀ a d, dec (store a d) = d) (h : CutExactly v) :
    DecodesExactly dec (unmarshalWith typeName store) v := by
  obtain ⟨hlength, hexact⟩ := h
  intro a
  rw [unmarshalWith, if_neg (not_lt.mpr hlength)]
  cases hd : newFromString (inside v.text) with
  | none => exact ⟨_, _, rfl, nofun⟩
  | some d =>
    refine ⟨_, _, rfl, fun _ => ?_⟩
    rw [hstore]
    exact hexact d hd

/-- What is between the first and the last byte is not a decimal. -/
theorem cutExactly_of_not_readable {d : UInt8} {s : Bytes} (htext : v.text = c :: s ++ [d])
    (h : ¬Readable s) : CutExactly v := by
  rw [CutExactly, htext, inside_cut]
  refine ⟨by simp, fun n hn => ?_⟩
  exact absurd (readable_iff.mpr ⟨n, hn⟩) h

/-- A list is never a number, so nothing may be read of it. -/
theorem cutExactly_array (items : Items) : CutExactly (.array items) ↔ ¬Readable items.text := by
  constructor
  · rintro ⟨-, hexact⟩ h
    obtain ⟨d, hd⟩ := readable_iff.mp h
    rw [JsonTree.text, inside_cut] at hexact
    cases hexact d hd
  · exact cutExactly_of_not_readable rfl

theorem legible_of_ne (hnumber : ∀ n, v ≠ .number n) (hlist : ∀ n, v ≠ oneNumber n) : Legible v :=
  ⟨fun n hn => absurd hn (hnumber n), fun n hn => absurd hn (hlist n)⟩

/-! ## Texts that are not decimals -/

variable [LawfulReading]

/-- A text with another byte in it is not read. -/
theorem not_readable_of_mem (hc : c ∈ t) (hother : isNumeralByte c = false) : ¬Readable t := by
  intro h
  obtain ⟨n, e, hdenotes⟩ := h.denotes
  rw [isNumeralByte_of_denotes hdenotes hc] at hother
  cases hother

/-- There are no blanks in a decimal. -/
theorem blanks_eq_nil (h : Readable t) {w : Blanks} (hw : ∀ c ∈ w.1, c ∈ t) : w = ⟨[], rfl⟩ := by
  obtain ⟨w, hblank⟩ := w
  cases w with
  | nil => rfl
  | cons c w =>
    have hc := List.all_eq_true.mp hblank c List.mem_cons_self
    exact absurd h (not_readable_of_mem (hw c List.mem_cons_self) (not_isNumeralByte_of_isBlank hc))

/-- Blanks alone are not a decimal. -/
theorem not_readable_of_blanks (w : Blanks) : ¬Readable w.1 := by
  intro h
  have hnil := blanks_eq_nil h fun c hc => hc
  rw [hnil] at h
  exact absurd h (not_readable (by decide))

/-- Only a number token is a decimal. -/
theorem exists_number_of_readable (h : Readable v.text) : ∃ n, v = .number n := by
  cases v with
  | number n => exact ⟨n, rfl⟩
  | null => exact absurd h (not_readable (by decide +kernel))
  | bool b => cases b <;> exact absurd h (not_readable (by decide +kernel))
  | string s => exact absurd h (not_readable_of_mem (c := 34) (by simp [JsonTree.text, quoted]) (by decide))
  | emptyArray | array =>
    exact absurd h (not_readable_of_mem (c := 91) (by simp [JsonTree.text]) (by decide))
  | _ =>
    exact absurd h (not_readable_of_mem (c := 123) (by simp [JsonTree.text]) (by decide))

/-- The items of a list are a decimal only if there is one item, a number, and no blank. -/
theorem oneNumber_of_readable {items : Items} (h : Readable items.text) :
    ∃ n, JsonTree.array items = oneNumber n ∧ Readable n.text := by
  cases items with
  | more before v after rest =>
    exact absurd h (not_readable_of_mem (c := 44) (by simp [Items.text]) (by decide))
  | last before v after =>
    obtain rfl := blanks_eq_nil h (w := before) (fun c hc => by simp [Items.text, hc])
    obtain rfl := blanks_eq_nil h (w := after) (fun c hc => by simp [Items.text, hc])
    rw [Items.text, List.nil_append, List.append_nil] at h
    obtain ⟨n, rfl⟩ := exists_number_of_readable h
    exact ⟨n, rfl, h⟩

/-! ## When the numbers are exact -/

theorem restoresNumber [PlainRendering] [ReadsOwnText] {α : Type} {dec : α → Decimal}
    {store : α → Decimal → α} (hstore : ∀ a d, dec (store a d) = d) :
    RestoresNumber dec (unmarshalWith typeName store) fun a => quotedDecimal (dec a) := by
  intro a b
  obtain ⟨d, hd, hnumber⟩ := exists_read_string (dec a)
  have hlength : ¬(quotedDecimal (dec a)).length < 2 := by simp [quotedDecimal]
  refine ⟨store b d, ?_, by rw [hstore, hnumber]⟩
  change unmarshalWith typeName store b (quotedDecimal (dec a)) = _
  rw [unmarshalWith, if_neg hlength, quotedDecimal, inside_cut, hd]

/-- A string is decoded exactly: a decimal has no escapes. -/
theorem cutExactly_string (s : List StringUnit) : CutExactly (.string s) := by
  rw [CutExactly, JsonTree.text, quoted, inside_cut]
  refine ⟨by simp, fun d hd => ?_⟩
  have hplain : (92 : UInt8) ∉ content s := by
    intro hmem
    exact not_readable_of_mem hmem (by decide) (readable_iff.mpr ⟨d, hd⟩)
  obtain ⟨n, e, hdenotes, hrat⟩ := LawfulReading.denotes _ d hd
  rw [hrat]
  apply JsonTree.Denotes.string
  rw [characters_of_not_mem hplain]
  exact hdenotes

theorem cutExactly_iff (v : JsonTree) : CutExactly v ↔ Legible v := by
  cases v with
  | null =>
    have htext : JsonTree.null.text = 110 :: [117, 108] ++ [108] := by decide +kernel
    exact iff_of_true (cutExactly_of_not_readable htext (not_readable (by decide))) (legible_of_ne nofun nofun)
  | bool b =>
    refine iff_of_true ?_ (legible_of_ne nofun nofun)
    cases b with
    | true =>
      have htext : (JsonTree.bool true).text = 116 :: [114, 117] ++ [101] := by decide +kernel
      exact cutExactly_of_not_readable htext (not_readable (by decide))
    | false =>
      have htext : (JsonTree.bool false).text = 102 :: [97, 108, 115] ++ [101] := by decide +kernel
      exact cutExactly_of_not_readable htext (not_readable (by decide))
  | string s => exact iff_of_true (cutExactly_string s) (legible_of_ne nofun nofun)
  | emptyArray pad | emptyObject pad =>
    exact iff_of_true (cutExactly_of_not_readable rfl (not_readable_of_blanks pad))
      (legible_of_ne nofun nofun)
  | object members =>
    refine iff_of_true (cutExactly_of_not_readable rfl ?_) (legible_of_ne nofun nofun)
    apply not_readable_of_mem (c := 34) ?_ (by decide)
    cases members <;> simp [Members.text, quoted]
  | array items =>
    rw [cutExactly_array]
    constructor
    · intro h
      refine ⟨nofun, fun n hn hread => h ?_⟩
      cases hn
      simpa [Items.text, JsonTree.text] using hread
    · rintro ⟨-, h⟩ hread
      obtain ⟨n, hn, hnumber⟩ := oneNumber_of_readable hread
      exact h n hn hnumber
  | number n =>
    constructor
    · rintro ⟨hlength, hexact⟩
      refine ⟨fun m hm => ?_, nofun⟩
      cases hm
      refine ⟨hlength, fun d hd => ?_⟩
      exact (hexact d hd).eq_value
    · rintro ⟨h, -⟩
      obtain ⟨hlength, hexact⟩ := h n rfl
      refine ⟨hlength, fun d hd => ?_⟩
      rw [hexact d hd]
      exact .number n

/-- **When domain numbers are decoded exactly.** -/
theorem unmarshal_exact_iff [PlainRendering] [ReadsOwnText] (v : JsonTree) : DomainNumbersExact v ↔ Legible v := by
  rw [← cutExactly_iff]
  constructor
  · intro h
    exact cutExactly_of_decodesExactly (fun _ _ => rfl) {} h.price.1
  · intro h
    exact ⟨⟨decodesExactly_of_cutExactly (fun _ _ => rfl) h, restoresNumber fun _ _ => rfl⟩,
      ⟨decodesExactly_of_cutExactly (fun _ _ => rfl) h, restoresNumber fun _ _ => rfl⟩,
      ⟨decodesExactly_of_cutExactly (fun _ _ => rfl) h, restoresNumber fun _ _ => rfl⟩,
      ⟨decodesExactly_of_cutExactly (fun _ _ => rfl) h, restoresNumber fun _ _ => rfl⟩,
      ⟨decodesExactly_of_cutExactly (fun _ _ => rfl) h, restoresNumber fun _ _ => rfl⟩⟩

end

/-! ## Texts that are decoded, and texts that are misread -/

section

attribute [local instance] ScaledInt.scaledInts

/-- A string is decoded exactly, whatever is in it. -/
theorem unmarshal_exact_string : DomainNumbersExact (.string [.plain 49 (by decide)]) :=
  (unmarshal_exact_iff _).mpr (legible_of_ne nofun nofun)

/-- The token `5`. -/
def five : Number :=
  ⟨false, [53], ⟨⟨by decide, List.all_eq_true.mp (by decide)⟩, by decide⟩, none, none⟩

/-- The token `123`. -/
def hundredTwentyThree : Number :=
  ⟨false, [49, 50, 51], ⟨⟨by decide, List.all_eq_true.mp (by decide)⟩, by decide⟩, none, none⟩

/-- A number that is too short to be cut, one that loses its first and its last digit, and a list
that is read as a number. -/
theorem price_misread :
    Price.unmarshalJSON {} five.text = .error .sliceBounds ∧
    Price.unmarshalJSON {} hundredTwentyThree.text = .ok ({ dec := ⟨2, 0⟩ }, none) ∧
    hundredTwentyThree.value = 123 ∧
    Price.unmarshalJSON {} (oneNumber five).text = .ok ({ dec := ⟨5, 0⟩ }, none) ∧
    ∀ x, ¬(oneNumber five).Denotes x := by
  refine ⟨by decide +kernel, by decide +kernel, by decide +kernel, by decide +kernel, fun x h => ?_⟩
  cases h

end

end HstongApi
