import MeridianCore.AnalyticsEngine.Exact.Text

namespace MeridianCore.AnalyticsEngine.Exactness
open Limbs

/-- An operation on the results before it, each named by its place. A decimal may be given in any form. -/
inductive Op where
  | given (dec : Dec)
  | quotient (numerator denominator : Big)
  | parse (text : String)
  | add (a b : Nat)
  | sub (a b : Nat)
  | mul (a b : Nat)
  | negated (a : Nat)
  | cmp (a b : Nat)
  | eq (a b : Nat)
  | toRatio (a : Nat)
  | div (a b : Nat)
  | roundHalfEven (a : Nat) (scale : UInt32)
  | text (a : Nat)

inductive Result where
  | dec (dec : Dec)
  | ratio (ratio : Ratio)
  | order (order : Ordering)
  | truth (truth : Bool)
  | text (text : String)

/-- What an operation answers in rational arithmetic. -/
inductive Exact where
  | decimal (value : ℚ)
  | ratio (value : ℚ)
  | order (order : Ordering)
  | truth (truth : Bool)
  | text (value : ℚ)
  deriving DecidableEq

/-- What a result denotes. -/
def Result.denotes : Result → Option Exact
  | .dec held => some (.decimal held.value)
  | .ratio held => some (.ratio held.value)
  | .order held => some (.order held)
  | .truth held => some (.truth held)
  | .text held => (Dec.denoted held).map Exact.text

/-- The result at a place. -/
def placed {α : Type} (results : List (Option α)) (place : Nat) : Option α := results[place]?.join

/-- An operation both decimals and ratios have. -/
def onBoth (dec : Dec → Dec → Option Result) (ratio : Ratio → Ratio → Option Result) : Option Result → Option Result → Option Result
  | some (.dec a), some (.dec b) => dec a b
  | some (.ratio a), some (.ratio b) => ratio a b
  | _, _ => none

def exactOnBoth (decimal ratio : ℚ → ℚ → Option Exact) : Option Exact → Option Exact → Option Exact
  | some (.decimal a), some (.decimal b) => decimal a b
  | some (.ratio a), some (.ratio b) => ratio a b
  | _, _ => none

def onOne (dec : Dec → Option Result) (ratio : Ratio → Option Result) : Option Result → Option Result
  | some (.dec a) => dec a
  | some (.ratio a) => ratio a
  | _ => none

def exactOnOne (decimal ratio : ℚ → Option Exact) : Option Exact → Option Exact
  | some (.decimal a) => decimal a
  | some (.ratio a) => ratio a
  | _ => none

/-- What an operation answers: nothing where it fails, or where it is on results it does not take. -/
def perform (results : List (Option Result)) : Op → Option Result
  | .given dec => some (.dec dec)
  | .quotient numerator denominator => (Ratio.new numerator denominator).map .ratio
  | .parse text =>
    match Dec.parse text with
    | .ok dec => some (.dec dec)
    | .error _ => none
  | .add a b =>
    onBoth (fun a b => some (.dec (a.add b))) (fun a b => some (.ratio (a.add b))) (placed results a) (placed results b)
  | .sub a b =>
    onBoth (fun a b => some (.dec (a.sub b))) (fun a b => some (.ratio (a.sub b))) (placed results a) (placed results b)
  | .mul a b =>
    onBoth (fun a b => some (.dec (a.mul b))) (fun a b => some (.ratio (a.mul b))) (placed results a) (placed results b)
  | .negated a => onOne (fun a => some (.dec a.negated)) (fun a => some (.ratio a.negated)) (placed results a)
  | .cmp a b =>
    onBoth (fun a b => some (.order (a.cmp b))) (fun a b => some (.order (a.cmp b))) (placed results a) (placed results b)
  | .eq a b =>
    onBoth (fun a b => some (.truth (a.eq b))) (fun a b => some (.truth (a.eq b))) (placed results a) (placed results b)
  | .toRatio a => onOne (fun a => some (.ratio a.toRatio)) (fun _ => none) (placed results a)
  | .div a b => onBoth (fun _ _ => none) (fun a b => (a.div b).map .ratio) (placed results a) (placed results b)
  | .roundHalfEven a scale =>
    onOne (fun a => some (.dec (a.roundHalfEven scale))) (fun a => some (.dec (a.roundHalfEven scale))) (placed results a)
  | .text a => onOne (fun a => a.text.map .text) (fun _ => none) (placed results a)

/-- A rational rounded to places, an exact half to the even digit. -/
def rounded (value : ℚ) (scale : UInt32) : ℚ := halfEven (value * 10 ^ scale.toNat) / 10 ^ scale.toNat

/-- What an operation answers in rational arithmetic, on answers of that arithmetic. -/
def exactly (exact_ : List (Option Exact)) : Op → Option Exact
  | .given dec => some (.decimal dec.value)
  | .quotient numerator denominator =>
    if denominator.value = 0 then none else some (.ratio (numerator.value / denominator.value))
  | .parse text => (Dec.denoted text).map .decimal
  | .add a b =>
    exactOnBoth (fun a b => some (.decimal (a + b))) (fun a b => some (.ratio (a + b))) (placed exact_ a) (placed exact_ b)
  | .sub a b =>
    exactOnBoth (fun a b => some (.decimal (a - b))) (fun a b => some (.ratio (a - b))) (placed exact_ a) (placed exact_ b)
  | .mul a b =>
    exactOnBoth (fun a b => some (.decimal (a * b))) (fun a b => some (.ratio (a * b))) (placed exact_ a) (placed exact_ b)
  | .negated a => exactOnOne (fun a => some (.decimal (-a))) (fun a => some (.ratio (-a))) (placed exact_ a)
  | .cmp a b =>
    exactOnBoth (fun a b => some (.order (compare a b))) (fun a b => some (.order (compare a b))) (placed exact_ a) (placed exact_ b)
  | .eq a b =>
    exactOnBoth (fun a b => some (.truth (decide (a = b)))) (fun a b => some (.truth (decide (a = b)))) (placed exact_ a)
      (placed exact_ b)
  | .toRatio a => exactOnOne (fun a => some (.ratio a)) (fun _ => none) (placed exact_ a)
  | .div a b =>
    exactOnBoth (fun _ _ => none) (fun a b => if b = 0 then none else some (.ratio (a / b))) (placed exact_ a) (placed exact_ b)
  | .roundHalfEven a scale =>
    exactOnOne (fun a => some (.decimal (rounded a scale))) (fun a => some (.decimal (rounded a scale))) (placed exact_ a)
  | .text a => exactOnOne (fun a => some (.text a)) (fun _ => none) (placed exact_ a)

/-- The results of operations in turn. -/
def run (ops : List Op) : List (Option Result) := ops.foldl (fun results op => results ++ [perform results op]) []

def exactRun (ops : List Op) : List (Option Exact) := ops.foldl (fun answers op => answers ++ [exactly answers op]) []

/-- What results denote, one for one. -/
def denoted (results : List (Option Result)) : List (Option Exact) := results.map fun result => result.bind Result.denotes

/-- A step within what the code's widths hold: a product whose scale fits 32 bits, or is zero; a text parsed whose
places count within 32 bits, or is zero; a text written within a format's width. -/
def Within (results : List (Option Result)) : Op → Prop
  | .parse text => Dec.placesOf text < 2 ^ 32 ∨ ∀ q, Dec.denoted text = some q → q = 0
  | .mul a b => ∀ x y, placed results a = some (.dec x) → placed results b = some (.dec y) →
      x.scale.toNat + y.scale.toNat < 2 ^ 32 ∨ x.value = 0 ∨ y.value = 0
  | .text a => ∀ x, placed results a = some (.dec x) → x.scale.toNat < Dec.maxWidth
  | _ => True

variable {results : List (Option Result)}

section steps

theorem placed_denoted (place : Nat) : placed (denoted results) place = (placed results place).bind Result.denotes := by
  unfold placed denoted
  rw [List.getElem?_map]
  cases results[place]? <;> rfl

/-- An operation that denotes the exact one on the operands that are there denotes it on the answers they denote. -/
theorem onBoth_denotes {dec : Dec → Dec → Option Result} {ratio : Ratio → Ratio → Option Result}
    {decimal ratio_ : ℚ → ℚ → Option Exact} (x y : Option Result)
    (decs : ∀ a b, x = some (.dec a) → y = some (.dec b) → (dec a b).bind Result.denotes = decimal a.value b.value)
    (ratios : ∀ a b, (ratio a b).bind Result.denotes = ratio_ a.value b.value) :
    (onBoth dec ratio x y).bind Result.denotes = exactOnBoth decimal ratio_ (x.bind Result.denotes) (y.bind Result.denotes) := by
  have texts (held : String) : (Result.text held).denotes = (Dec.denoted held).map Exact.text := rfl
  rcases x with _ | (a | a | a | a | a) <;> rcases y with _ | (b | b | b | b | b) <;>
    first
      | rfl
      | exact decs a b rfl rfl
      | exact ratios a b
      | (simp only [Option.bind_some, texts]; cases Dec.denoted a <;> first | rfl | (cases Dec.denoted b <;> rfl))
      | (simp only [Option.bind_some, texts]; cases Dec.denoted b <;> rfl)

theorem onOne_denotes {dec : Dec → Option Result} {ratio : Ratio → Option Result} {decimal ratio_ : ℚ → Option Exact}
    (x : Option Result) (decs : ∀ a, x = some (.dec a) → (dec a).bind Result.denotes = decimal a.value)
    (ratios : ∀ a, (ratio a).bind Result.denotes = ratio_ a.value) :
    (onOne dec ratio x).bind Result.denotes = exactOnOne decimal ratio_ (x.bind Result.denotes) := by
  match x with
  | none => rfl
  | some (.dec a) => exact decs a rfl
  | some (.ratio a) => exact ratios a
  | some (.order _) => rfl
  | some (.truth _) => rfl
  | some (.text held) =>
    change none = exactOnOne decimal ratio_ ((Dec.denoted held).map Exact.text)
    cases Dec.denoted held <;> rfl

theorem eq_denotes {a b : ℚ} : (compare a b == Ordering.eq) = decide (a = b) := by
  rw [Bool.eq_iff_iff, beq_iff_eq, decide_eq_true_eq, compare_eq_iff_eq]

/-- One step denotes the exact answer exactly where it is within the code's widths. -/
theorem perform_denotes_iff (op : Op) :
    (perform results op).bind Result.denotes = exactly (denoted results) op ↔ Within results op := by
  cases op with
  | given dec => exact iff_of_true rfl trivial
  | quotient numerator denominator =>
    refine iff_of_true ?_ trivial
    have whole := Ratio.value_new numerator denominator
    rw [perform, exactly]
    cases made : Ratio.new numerator denominator with
    | none =>
      rw [made] at whole
      by_cases zero : denominator.value = 0
      · rw [if_pos zero]
        rfl
      · rw [if_neg zero] at whole
        cases whole
    | some ratio =>
      rw [made] at whole
      by_cases zero : denominator.value = 0
      · rw [if_pos zero] at whole
        cases whole
      · rw [if_neg zero] at whole ⊢
        exact congrArg (fun value => value.map Exact.ratio) whole
  | parse text =>
    rw [perform, exactly, Within]
    rcases Dec.parse_spec text with ⟨⟨bad, failed⟩, none_⟩ | ⟨dec, q, read, denotes, same⟩
    · rw [failed, none_]
      refine iff_of_true rfl (Or.inr ?_)
      rintro q impossible
      cases impossible
    · rw [read, denotes]
      dsimp only [Option.bind_some, Option.map_some, Result.denotes]
      rw [Option.some.injEq, Exact.decimal.injEq, same]
      refine or_congr_right ?_
      constructor
      · rintro zero p denoted
        rw [← Option.some.inj denoted, zero]
      · intro all
        exact all q rfl
  | add a b =>
    refine iff_of_true ?_ trivial
    rw [perform, exactly]
    rw [placed_denoted, placed_denoted]
    refine onBoth_denotes _ _ (fun a b _ _ => ?_) (fun a b => ?_)
    · rw [← Dec.value_add]
      rfl
    · rw [← Ratio.value_add]
      rfl
  | sub a b =>
    refine iff_of_true ?_ trivial
    rw [perform, exactly]
    rw [placed_denoted, placed_denoted]
    refine onBoth_denotes _ _ (fun a b _ _ => ?_) (fun a b => ?_)
    · rw [← Dec.value_sub]
      rfl
    · rw [← Ratio.value_sub]
      rfl
  | mul a b =>
    rw [perform, exactly, Within]
    rw [placed_denoted, placed_denoted]
    generalize placed results a = x
    generalize placed results b = y
    constructor
    · rintro same u v rfl rfl
      exact (Dec.value_mul_iff u v).mp (Exact.decimal.inj (Option.some.inj same))
    · intro within
      refine onBoth_denotes _ _ (fun u v first second => ?_) (fun a b => ?_)
      · rw [← (Dec.value_mul_iff u v).mpr (within u v first second)]
        rfl
      · rw [← Ratio.value_mul]
        rfl
  | negated a =>
    refine iff_of_true ?_ trivial
    rw [perform, exactly]
    rw [placed_denoted]
    refine onOne_denotes _ (fun a _ => ?_) (fun a => ?_)
    · rw [← Dec.value_negated]
      rfl
    · rw [← Ratio.value_negated]
      rfl
  | cmp a b =>
    refine iff_of_true ?_ trivial
    rw [perform, exactly]
    rw [placed_denoted, placed_denoted]
    refine onBoth_denotes _ _ (fun a b _ _ => ?_) (fun a b => ?_)
    · rw [← Dec.cmp_eq]
      rfl
    · rw [← Ratio.cmp_eq]
      rfl
  | eq a b =>
    refine iff_of_true ?_ trivial
    rw [perform, exactly]
    rw [placed_denoted, placed_denoted]
    refine onBoth_denotes _ _ (fun a b _ _ => ?_) (fun a b => ?_)
    · rw [← eq_denotes, ← Dec.cmp_eq]
      rfl
    · rw [← eq_denotes, ← Ratio.cmp_eq]
      rfl
  | toRatio a =>
    refine iff_of_true ?_ trivial
    rw [perform, exactly]
    rw [placed_denoted]
    refine onOne_denotes _ (fun a _ => ?_) (fun _ => rfl)
    rw [← Dec.value_toRatio]
    rfl
  | div a b =>
    refine iff_of_true ?_ trivial
    rw [perform, exactly]
    rw [placed_denoted, placed_denoted]
    refine onBoth_denotes _ _ (fun _ _ _ _ => rfl) (fun a b => ?_)
    have whole := congrArg (fun value => value.map Exact.ratio) (Ratio.value_div a b)
    rw [apply_ite (fun value => Option.map Exact.ratio value)] at whole
    rw [← Option.map_some, ← Option.map_none, ← whole]
    cases a.div b <;> rfl
  | roundHalfEven a scale =>
    refine iff_of_true ?_ trivial
    rw [perform, exactly]
    unfold rounded
    rw [placed_denoted]
    refine onOne_denotes _ (fun a _ => ?_) (fun a => ?_)
    · rw [← Dec.value_roundHalfEven]
      rfl
    · rw [← Ratio.value_roundHalfEven]
      rfl
  | text a =>
    rw [perform, exactly, Within]
    rw [placed_denoted]
    generalize placed results a = x
    constructor
    · rintro same u rfl
      by_contra wide
      have none_ := Dec.text_spec u
      rw [if_neg wide] at none_
      dsimp only [onOne] at same
      rw [none_] at same
      cases same
    · intro within
      refine onOne_denotes _ (fun u held => ?_) (fun _ => rfl)
      have written := Dec.text_spec u
      rw [if_pos (within u held)] at written
      obtain ⟨text, written, denotes⟩ := written
      rw [written]
      change (Dec.denoted text).map Exact.text = some (.text u.value)
      rw [denotes]
      rfl

end steps

section runs

theorem run_concat (ops : List Op) (op : Op) : run (ops ++ [op]) = run ops ++ [perform (run ops) op] := by
  rw [run, List.foldl_append]
  rfl

theorem exactRun_concat (ops : List Op) (op : Op) : exactRun (ops ++ [op]) = exactRun ops ++ [exactly (exactRun ops) op] := by
  rw [exactRun, List.foldl_append]
  rfl

theorem length_denoted_run (ops : List Op) : (denoted (run ops)).length = (exactRun ops).length := by
  induction ops using List.reverseRecOn with
  | nil => rfl
  | append_singleton ops op ih =>
    rw [run_concat, exactRun_concat, denoted, List.map_append, List.length_append, List.length_append]
    exact congrArg (· + 1) ih

/-- Results are exact through one more operation where they were before it and it is within the code's widths. -/
theorem denoted_concat_iff (ops : List Op) (op : Op) :
    denoted (run (ops ++ [op])) = exactRun (ops ++ [op]) ↔ denoted (run ops) = exactRun ops ∧ Within (run ops) op := by
  have parts : denoted (run (ops ++ [op])) = denoted (run ops) ++ [(perform (run ops) op).bind Result.denotes] := by
    rw [run_concat, denoted, List.map_append]
    rfl
  have step := @perform_denotes_iff (run ops) op
  rw [parts, exactRun_concat]
  constructor
  · intro same
    obtain ⟨before, last⟩ := List.append_inj same (length_denoted_run ops)
    rw [← before] at last
    exact ⟨before, step.mp (List.cons.inj last).1⟩
  · rintro ⟨before, within⟩
    rw [step.mpr within, before]

/-- The results of every run denote the exact answers, whatever forms they are held in, exactly where each of its
steps is within the code's widths. -/
theorem results_exact_iff (ops : List Op) :
    denoted (run ops) = exactRun ops ↔ ∀ (n : Nat) (op : Op), ops[n]? = some op → Within (run (ops.take n)) op := by
  induction ops using List.reverseRecOn with
  | nil =>
    refine iff_of_true rfl ?_
    intro n op impossible
    cases impossible
  | append_singleton ops op ih =>
    rw [denoted_concat_iff, ih]
    constructor
    · rintro ⟨before, last⟩ n each at_
      rcases Nat.lt_trichotomy n ops.length with less | rfl | more
      · rw [List.getElem?_append_left less] at at_
        rw [List.take_append_of_le_length less.le]
        exact before n each at_
      · rw [List.getElem?_append_right (le_refl _), Nat.sub_self] at at_
        obtain rfl := Option.some.inj at_
        rw [List.take_left]
        exact last
      · rw [List.getElem?_eq_none (by simp; omega)] at at_
        cases at_
    · intro all
      constructor
      · intro n each at_
        have less := List.getElem?_eq_some_iff.mp at_ |>.1
        have kept := all n each (by rw [List.getElem?_append_left less, at_])
        rwa [List.take_append_of_le_length less.le] at kept
      · have last := all ops.length op (by rw [List.getElem?_append_right (le_refl _), Nat.sub_self]; rfl)
        rwa [List.take_left] at last

/-- A tenth, and its square over and over. -/
def squarings (times : Nat) : List Op := .parse "0.1" :: (List.range times).map fun n => .mul n n

/-- A result that is a decimal of so many places, and not zero. -/
def someDecimal (result : Option Result) (scale : Nat) : Bool :=
  match result with
  | some (.dec held) => held.scale.toNat == scale && !held.isZero
  | _ => false

/-- A tenth squared thirty-two times is one: the scale has come round. -/
theorem tenth_squared_to_one : denoted (run (squarings 32)) ≠ exactRun (squarings 32) := by
  have last : squarings 32 = squarings 31 ++ [.mul 31 31] := rfl
  have before : someDecimal (placed (run (squarings 31)) 31) (2 ^ 31) = true := by decide +kernel
  rw [last]
  intro same
  have within := ((denoted_concat_iff _ _).mp same).2
  rw [Within] at within
  cases held : placed (run (squarings 31)) 31 with
  | none =>
    rw [held] at before
    cases before
  | some result =>
    rw [held] at before
    cases result with
    | dec decimal =>
      obtain ⟨scale, nonzero⟩ := (Bool.and_eq_true _ _).mp before
      have scale : decimal.scale.toNat = 2 ^ 31 := beq_iff_eq.mp scale
      have nonzero : decimal.value ≠ 0 := by
        intro zero
        have none := (Num.isZero_iff _).mpr ((Dec.value_eq_zero_iff decimal).mp zero)
        rw [Dec.isZero, none] at nonzero
        cases nonzero
      rcases within decimal decimal held held with small | zero | zero
      · omega
      · exact nonzero zero
      · exact nonzero zero
    | ratio _ => cases before
    | order _ => cases before
    | truth _ => cases before
    | text _ => cases before

end runs

end MeridianCore.AnalyticsEngine.Exactness
