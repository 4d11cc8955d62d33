import MeridianCore.Bor.Store

namespace MeridianCore.Bor

/-- What one process has learned: what each instrument ID became, and each currency's cash instrument. -/
structure Process where
  became : BTreeMap String String := ∅
  cashInstruments : BTreeMap String String := ∅

namespace Process

/-- Keep that `replaced` is now `by`. -/
def record (process : Process) (replaced replacement : String) : Process :=
  if replaced = "" ∨ replacement = "" ∨ replaced = replacement then process
  else { process with became := process.became.insert replaced replacement }

/-- Replacements followed `hops` times at most. -/
def follow (became : BTreeMap String String) : Nat → String → String
  | 0, now => now
  | hops + 1, now =>
    match became[now]? with
    | some next => if next ≠ now then follow became hops next else now
    | none => now

/-- What `instrument` became: itself, unless it was replaced. -/
def current (process : Process) (instrument : String) : String := follow process.became 8 instrument

/-- Whether two IDs name one instrument, through the replacement. -/
def same (process : Process) (a b : String) : Bool :=
  a == b || process.current a == process.current b

/-- The cash instrument a currency's code was resolved to. -/
def known (process : Process) (code : String) : Option String := process.cashInstruments[code]?

/-- The code a cash instrument was resolved from. -/
def codeOf (process : Process) (instrument : String) : Option String :=
  (process.cashInstruments.find? fun _ held => held == instrument).map Prod.fst

def learn (process : Process) (code instrument : String) : Process :=
  { process with cashInstruments := process.cashInstruments.insert code instrument }

@[simp] theorem same_self (process : Process) (a : String) : process.same a a = true := by
  simp [same]

end Process

end MeridianCore.Bor
