import HstongApi.NumeralText

/-!
# The texts of JSON

`JsonTree` is the grammar of JSON, with the blanks between the tokens, the form of every number and
every escape: `JsonTree.text` ranges over all JSON texts that do not begin or end with a blank. A
number token denotes a rational number, and a string denotes the number that its characters are the
notation of. No other text denotes a number.
-/

namespace HstongApi

open Numeral (IsDigits isMark)

namespace JsonGrammar

/-! ## Blanks and strings -/

/-- Space, tab and the two line ends. -/
def isBlank (c : UInt8) : Bool := c == 32 || c == 9 || c == 10 || c == 13

/-- Blanks between tokens. -/
abbrev Blanks : Type := { t : Bytes // t.all isBlank = true }

/-- A hexadecimal digit. -/
abbrev HexDigit : Type := { c : UInt8 // (hexValue c).isSome = true }

/-- What the letter of a short escape stands for. -/
def escaped (c : UInt8) : Option UInt8 :=
  if c = 34 ∨ c = 92 ∨ c = 47 then some c
  else if c = 98 then some 8
  else if c = 102 then some 12
  else if c = 110 then some 10
  else if c = 114 then some 13
  else if c = 116 then some 9
  else none

/-- One unit of a string. -/
inductive StringUnit
  /-- a byte that stands for itself -/
  | plain (b : UInt8) (h : 32 ≤ b ∧ b ≠ 34 ∧ b ≠ 92)
  /-- a backslash and a letter -/
  | short (c : UInt8) (h : (escaped c).isSome = true)
  /-- a backslash, `u` and four digits -/
  | long (a b c d : HexDigit)

/-- The text of a unit. -/
def StringUnit.text : StringUnit → Bytes
  | .plain b _ => [b]
  | .short c _ => [92, c]
  | .long a b c d => [92, 117, a.1, b.1, c.1, d.1]

/-- The number of a hexadecimal digit. -/
def HexDigit.value (c : HexDigit) : ℕ := (hexValue c.1).get c.2

/-- The code unit of four digits. -/
def codeUnit (a b c d : HexDigit) : ℕ :=
  4096 * HexDigit.value a + 256 * HexDigit.value b + 16 * HexDigit.value c + HexDigit.value d

/-- The bytes of a code point in UTF-8. -/
def utf8 (n : ℕ) : Bytes :=
  if n < 0x80 then [.ofNat n]
  else if n < 0x800 then [.ofNat (0xC0 + n / 64), .ofNat (0x80 + n % 64)]
  else if n < 0x10000 then
    [.ofNat (0xE0 + n / 4096), .ofNat (0x80 + n / 64 % 64), .ofNat (0x80 + n % 64)]
  else
    [.ofNat (0xF0 + n / 262144), .ofNat (0x80 + n / 4096 % 64), .ofNat (0x80 + n / 64 % 64),
      .ofNat (0x80 + n % 64)]

/-- The first half of a surrogate pair. -/
def isHigh (n : ℕ) : Bool := 0xD800 ≤ n && n < 0xDC00

/-- The second half. -/
def isLow (n : ℕ) : Bool := 0xDC00 ≤ n && n < 0xE000

/-- A code unit that is not part of a pair; half of a pair is replaced by `U+FFFD`. -/
def single (n : ℕ) : Bytes := if isHigh n || isLow n then utf8 0xFFFD else utf8 n

/-- The characters of a string. -/
def characters : List StringUnit → Bytes
  | [] => []
  | .plain b _ :: s => b :: characters s
  | .short c h :: s => (escaped c).get h :: characters s
  | .long a b c d :: .long e f g h :: s =>
    if isHigh (codeUnit a b c d) && isLow (codeUnit e f g h) then
      utf8 (0x10000 + 0x400 * (codeUnit a b c d - 0xD800) + (codeUnit e f g h - 0xDC00)) ++
        characters s
    else single (codeUnit a b c d) ++ characters (.long e f g h :: s)
  | .long a b c d :: s => single (codeUnit a b c d) ++ characters s

/-- The text between the quotes. -/
def content (s : List StringUnit) : Bytes := s.flatMap StringUnit.text

/-- A string in quotes. -/
def quoted (s : List StringUnit) : Bytes := 34 :: content s ++ [34]

/-- Without escapes the text is what the string stands for. -/
theorem characters_of_not_mem {s : List StringUnit} (h : (92 : UInt8) ∉ content s) :
    characters s = content s := by
  induction s with
  | nil => rfl
  | cons u s ih =>
    rw [content, List.flatMap_cons, List.mem_append, not_or] at h
    obtain ⟨hu, hs⟩ := h
    cases u with
    | plain b hb => rw [characters, ih hs, content, content, List.flatMap_cons]; rfl
    | _ => exact absurd List.mem_cons_self hu

/-! ## Numbers -/

/-- The exponent of a number. -/
structure Exponent where
  mark : UInt8
  mark_ok : isMark mark = true
  /-- the sign is negative, if there is one -/
  sign : Option Bool
  digits : Bytes
  digits_ok : IsDigits digits

/-- A number token: no zero stands in front of another digit. -/
structure Number where
  negative : Bool
  int : Bytes
  int_ok : IsDigits int ∧ (int.head? = some 48 → int = [48])
  frac : Option { t : Bytes // IsDigits t }
  exp : Option Exponent

/-- The text of an exponent. -/
def Exponent.text (e : Exponent) : Bytes :=
  e.mark :: (match e.sign with
    | none => []
    | some true => [45]
    | some false => [43]) ++ e.digits

def Exponent.value (e : Exponent) : ℤ :=
  if e.sign = some true then -(natOfText e.digits : ℤ) else natOfText e.digits

/-- The digits after the point. -/
def Number.fracDigits (n : Number) : Bytes := (n.frac.map Subtype.val).getD []

/-- The text of a number. -/
def Number.text (n : Number) : Bytes :=
  (if n.negative then [45] else []) ++ n.int ++ (n.frac.map fun f => 46 :: f.1).getD [] ++
    (n.exp.map Exponent.text).getD []

/-- **The number that a token denotes.** -/
def Number.value (n : Number) : ℚ :=
  (if n.negative then -1 else 1) * natOfText (n.int ++ n.fracDigits) *
    10 ^ ((n.exp.map Exponent.value).getD 0 - n.fracDigits.length)

/-! ## Documents -/

mutual
/-- A JSON text. -/
inductive JsonTree
  | null
  | bool (b : Bool)
  | number (n : Number)
  | string (s : List StringUnit)
  | emptyArray (pad : Blanks)
  | array (items : Items)
  | emptyObject (pad : Blanks)
  | object (members : Members)

/-- The items of a list, with the blanks around them. -/
inductive Items
  | last (before : Blanks) (v : JsonTree) (after : Blanks)
  | more (before : Blanks) (v : JsonTree) (after : Blanks) (rest : Items)

/-- The members of an object, with the blanks around their names and values. -/
inductive Members
  | last (before : Blanks) (name : List StringUnit) (colon : Blanks × Blanks) (v : JsonTree)
      (after : Blanks)
  | more (before : Blanks) (name : List StringUnit) (colon : Blanks × Blanks) (v : JsonTree)
      (after : Blanks) (rest : Members)
end

mutual
/-- The text of a document. -/
def JsonTree.text : JsonTree → Bytes
  | .null => bytes "null"
  | .bool true => bytes "true"
  | .bool false => bytes "false"
  | .number n => n.text
  | .string s => quoted s
  | .emptyArray pad => 91 :: pad.1 ++ [93]
  | .array items => 91 :: items.text ++ [93]
  | .emptyObject pad => 123 :: pad.1 ++ [125]
  | .object members => 123 :: members.text ++ [125]

/-- Items with commas between them. -/
def Items.text : Items → Bytes
  | .last before v after => before.1 ++ v.text ++ after.1
  | .more before v after rest => before.1 ++ v.text ++ after.1 ++ 44 :: rest.text

/-- Members with commas between them. -/
def Members.text : Members → Bytes
  | .last before name colon v after =>
    before.1 ++ quoted name ++ colon.1.1 ++ 58 :: colon.2.1 ++ v.text ++ after.1
  | .more before name colon v after rest =>
    before.1 ++ quoted name ++ colon.1.1 ++ 58 :: colon.2.1 ++ v.text ++ after.1 ++ 44 :: rest.text
end

/-- **The number that a text denotes**, if it denotes one. -/
inductive JsonTree.Denotes : JsonTree → ℚ → Prop
  | number (n : Number) : Denotes (.number n) n.value
  | string {s : List StringUnit} {n e : ℤ} :
      Numeral.Denotes (characters s) n e → Denotes (.string s) (n * 10 ^ e)

theorem JsonTree.Denotes.eq_value {n : Number} {x : ℚ} (h : Denotes (.number n) x) : x = n.value := by
  cases h with
  | number => rfl

end JsonGrammar

end HstongApi
