import HstongApi.DecimalPackage

/-!
# Domain values

The numbers and the instrument symbol of the domain package. A number is a decimal with what belongs
to it: a price has a tick, an amount of money a currency and a scale.

The constructors of the numbers take text and panic on text that the decimal package does not read, so
what they build is in `Except Panic`. Whether they return is a question to the reader of the package
only (`Readable`), and nothing is assumed about that reader here.
-/

namespace HstongApi

/-! ## Numbers -/

section

open DecimalPackage

variable [DecimalPackage]

/-- `decimal.NewFromString`, with a panic for an error. -/
def mustDecimal (panic : Panic) (value : Bytes) : Except Panic Decimal :=
  match newFromString value with
  | some dec => .ok dec
  | none => .error panic

theorem returns_mustDecimal (panic : Panic) (value : Bytes) :
    Returns (mustDecimal panic value) ↔ Readable value := by
  rw [readable_iff]
  unfold mustDecimal
  split
  · rename_i dec hdec
    exact iff_of_true ⟨dec, rfl⟩ ⟨dec, hdec⟩
  · rename_i hnone
    refine iff_of_false (not_returns_error panic) ?_
    rintro ⟨dec, hdec⟩
    cases hnone.symm.trans hdec

/-- `domain.Price` -/
structure Price where
  /-- the price itself -/
  dec : Decimal := zero
  /-- the grid on which it should be; zero for none -/
  tick : Decimal := zero
  deriving DecidableEq

/-- `domain.Quantity` -/
structure Quantity where
  dec : Decimal := zero
  deriving DecidableEq

/-- `domain.Money` -/
structure Money where
  /-- the amount -/
  dec : Decimal := zero
  /-- the code of the currency, such as `HKD` -/
  currency : Bytes := []
  /-- the digits after the point that the amount is meant to have -/
  scale : ℕ := 0
  deriving DecidableEq

/-- `MustNewPrice` -/
def mustNewPrice (value tick : Bytes) : Except Panic Price := do
  let dec ← mustDecimal (.price value) value
  let t ← mustDecimal (.tick tick) tick
  return ⟨dec, t⟩

/-- `MustNewQuantity` -/
def mustNewQuantity (value : Bytes) : Except Panic Quantity := do
  let dec ← mustDecimal (.quantity value) value
  return ⟨dec⟩

/-- `MustNewMoney` -/
def mustNewMoney (value currency : Bytes) (scale : ℕ) : Except Panic Money := do
  let dec ← mustDecimal (.money value) value
  return ⟨dec, currency, scale⟩

theorem returns_mustNewPrice (value tick : Bytes) :
    Returns (mustNewPrice value tick) ↔ Readable value ∧ Readable tick := by
  rw [mustNewPrice, returns_bind_and fun dec => returns_map _, returns_mustDecimal,
    returns_mustDecimal]

theorem returns_mustNewQuantity (value : Bytes) :
    Returns (mustNewQuantity value) ↔ Readable value := by
  rw [mustNewQuantity, returns_map, returns_mustDecimal]

theorem returns_mustNewMoney (value currency : Bytes) (scale : ℕ) :
    Returns (mustNewMoney value currency scale) ↔ Readable value := by
  rw [mustNewMoney, returns_map, returns_mustDecimal]

end

/-! ## Instruments -/

/-- `domain.Market` -/
inductive Market
  /-- the empty text -/
  | none
  | hk
  | us
  | shenzhenConnect
  | shanghaiConnect
  deriving DecidableEq

/-- The text of a market. -/
def Market.text : Market → Bytes
  | .none => []
  | .hk => bytes "HK"
  | .us => bytes "US"
  | .shenzhenConnect => bytes "SZ"
  | .shanghaiConnect => bytes "SH"

/-- `domain.Symbol` -/
structure Symbol where
  market : Market := .none
  code : Bytes := []
  dataType : ℤ := 0
  fullCode : Bytes := []
  displayName : Bytes := []
  deriving DecidableEq

/-- `len(code) >= 3 && code[len(code)-3:] == suffix` -/
def hasSuffix (code suffix : Bytes) : Bool :=
  3 ≤ code.length && code.drop (code.length - 3) == suffix

/-- `MarketFromCode` -/
def marketFromCode (code : Bytes) : Market :=
  if hasSuffix code (bytes ".HK") then .hk
  else if hasSuffix code (bytes ".US") then .us
  else if hasSuffix code (bytes ".SZ") then .shenzhenConnect
  else if hasSuffix code (bytes ".SH") then .shanghaiConnect
  else .none

theorem hasSuffix_length {code suffix : Bytes} (h : hasSuffix code suffix = true) :
    3 ≤ code.length :=
  of_decide_eq_true (Bool.and_eq_true_iff.mp h).1

/-- A code that names a market is longer than the market. -/
theorem marketFromCode_length {code : Bytes} (h : marketFromCode code ≠ .none) :
    (marketFromCode code).text.length + 1 ≤ code.length := by
  have htext : (marketFromCode code).text.length = 2 := by
    cases hmarket : marketFromCode code with
    | none => exact absurd hmarket h
    | _ => decide +kernel
  rw [htext]
  unfold marketFromCode at h
  split at h
  · exact hasSuffix_length ‹_›
  · split at h
    · exact hasSuffix_length ‹_›
    · split at h
      · exact hasSuffix_length ‹_›
      · split at h
        · exact hasSuffix_length ‹_›
        · exact absurd rfl h

end HstongApi
