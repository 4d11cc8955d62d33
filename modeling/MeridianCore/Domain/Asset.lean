import MeridianCore.Domain.Records
import MeridianCore.Domain.Text

/-! What a money names: a fiat currency by its code, a cash instrument, or both. -/

namespace MeridianCore

/-- Whether a code has an ISO 4217 code's form: three capital letters. -/
def isIso4217 (code : String) : Bool := code.toList.length == 3 && code.toList.all fun c => 'A' ≤ c ∧ c ≤ 'Z'

/-- What a money names. -/
inductive Asset where
  | code (code : String)
  | instrument (instrument : String)
  | both (code instrument : String)
  deriving DecidableEq

namespace Asset

/-- The code an asset is named by. -/
def codeOf : Asset → Option String
  | code named => some named
  | both named _ => some named
  | instrument _ => none

/-- The cash instrument an asset is named by. -/
def instrumentOf : Asset → Option String
  | instrument named => some named
  | both _ named => some named
  | code _ => none

/-- One asset: of one code, or of one cash instrument where neither has a code. -/
def Alike (a b : Asset) : Prop :=
  a.codeOf = b.codeOf ∧ (a.codeOf = none → a.instrumentOf = b.instrumentOf)

end Asset

/-- What a money names, or why it names none: a token's code for a currency's, or neither. -/
def assetOf (field : String) (money : Money) : Except String Asset :=
  let code := Text.trim money.currencyCode
  let instrument := Text.trim money.instrumentId
  if code ≠ "" ∧ ¬ isIso4217 code then
    .error (s!"{field}.currency_code \"{code}\" is not an ISO 4217 code: an asset with none, a " ++
      "token, is named by its cash instrument alone, in instrument_id")
  else if code = "" ∧ instrument = "" then
    .error (s!"{field} names no asset: a Money names its cash instrument (instrument_id), or a " ++
      "fiat currency by its ISO 4217 code (currency_code)")
  else if instrument = "" then .ok (.code code)
  else if code = "" then .ok (.instrument instrument)
  else .ok (.both code instrument)

namespace Money

/-- The asset a money names. -/
def Names (money : Money) (asset : Asset) : Prop := ∀ field, assetOf field money = .ok asset

/-- A money named by an ISO 4217 code. -/
def HasCode (money : Money) : Prop := Text.trim money.currencyCode ≠ "" ∧ isIso4217 (Text.trim money.currencyCode) = true

instance (money : Money) : Decidable money.HasCode :=
  inferInstanceAs (Decidable (Text.trim money.currencyCode ≠ "" ∧ isIso4217 (Text.trim money.currencyCode) = true))

/-- A money that names no cash instrument. -/
def NoInstrument (money : Money) : Prop := Text.trim money.instrumentId = ""

variable {money other : Money} {asset : Asset}

theorem names_iff : money.Names asset ↔
    (Text.trim money.currencyCode = "" ∨ isIso4217 (Text.trim money.currencyCode) = true) ∧
      asset.codeOf = (if Text.trim money.currencyCode = "" then none else some (Text.trim money.currencyCode)) ∧
      asset.instrumentOf = (if Text.trim money.instrumentId = "" then none else some (Text.trim money.instrumentId)) := by
  unfold Names assetOf
  generalize Text.trim money.currencyCode = code
  generalize Text.trim money.instrumentId = instrument
  by_cases coded : code = ""
  · by_cases named : instrument = ""
    · cases asset <;> simp [coded, named, Asset.codeOf, Asset.instrumentOf]
    · cases asset <;> simp [coded, named, Asset.codeOf, Asset.instrumentOf, @eq_comm String instrument]
  · by_cases iso : isIso4217 code = true
    · by_cases named : instrument = ""
      · cases asset <;> simp [coded, named, iso, Asset.codeOf, Asset.instrumentOf, @eq_comm String code]
      · cases asset <;> simp [coded, named, iso, Asset.codeOf, Asset.instrumentOf, @eq_comm String code,
          @eq_comm String instrument]
    · simp [coded, iso]

theorem codeOf_names (names : money.Names asset) (coded : money.HasCode) :
    asset.codeOf = some (Text.trim money.currencyCode) := by
  rw [(names_iff.mp names).2.1, if_neg coded.1]

theorem instrumentOf_none (names : money.Names asset) (none' : money.NoInstrument) : asset.instrumentOf = none := by
  have blank : Text.trim money.instrumentId = "" := none'
  rw [(names_iff.mp names).2.2, if_pos blank]

theorem instrumentOf_some (names : money.Names asset) (some' : ¬ money.NoInstrument) :
    asset.instrumentOf = some (Text.trim money.instrumentId) := by
  have filled : ¬ Text.trim money.instrumentId = "" := some'
  rw [(names_iff.mp names).2.2, if_neg filled]

/-- A money named by a code names an asset. -/
theorem names_of_code (coded : money.HasCode) : ∃ asset, money.Names asset := by
  obtain ⟨some', iso⟩ := coded
  by_cases none' : Text.trim money.instrumentId = ""
  · refine ⟨.code (Text.trim money.currencyCode), names_iff.mpr ⟨.inr iso, ?_, ?_⟩⟩
    · rw [if_neg some']
      rfl
    · rw [if_pos none']
      rfl
  · refine ⟨.both (Text.trim money.currencyCode) (Text.trim money.instrumentId), names_iff.mpr ⟨.inr iso, ?_, ?_⟩⟩
    · rw [if_neg some']
      rfl
    · rw [if_neg none']
      rfl

/-- A money that names an asset with no cash instrument is named by a code. -/
theorem hasCode_of_names (names : money.Names asset) (none' : money.NoInstrument) : money.HasCode := by
  obtain ⟨iso, code, -⟩ := names_iff.mp names
  have coded : Text.trim money.currencyCode ≠ "" := by
    intro empty
    rw [if_pos empty] at code
    have instrument := instrumentOf_none names none'
    cases asset with
    | code named => cases code
    | instrument named => cases instrument
    | both code instrument => cases code
  exact ⟨coded, iso.resolve_left coded⟩

end Money

end MeridianCore
