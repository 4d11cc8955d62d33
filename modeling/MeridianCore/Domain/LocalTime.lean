import MeridianCore.Domain.Zone

/-! The instant a local time names, of every zone. -/

namespace MeridianCore.Zone

variable {zone : Zone} {date : Date} {seconds v : ℤ}

/-- An instant whose nanoseconds an i64 holds. -/
def HeldNs (v : ℤ) : Prop := -2 ^ 63 ≤ v * 1000000000 ∧ v * 1000000000 < 2 ^ 63

/-- The instant computed is the one the local time names, and where a clock there ever reads so, it reads so then. -/
def NamesInstant (zone : Zone) (date : Date) (seconds : ℤ) : Prop :=
  (∃ v, Named zone.east (reading date seconds) v) ∧ ∀ v, Named zone.east (reading date seconds) v →
    (zone.instantOf date seconds).toInt = v * 1000000000 ∧ ((∃ w, Reads zone.east (reading date seconds) w) →
      zone.local_ (zone.instantOf date seconds) = some (date, seconds))

theorem east_bounded (zone : Zone) (v : ℤ) : |zone.east v| ≤ 2 ^ 31 := by
  have low := (zone.offsetAt v).le_toInt
  have high := (zone.offsetAt v).toInt_lt
  rw [abs_le]
  exact ⟨low, high.le⟩

/-- A product kept to 64 bits is what it is of another second, within reach, only where it is that second, and held. -/
theorem toInt_ofInt_eq_iff {u v : ℤ} (near : |u - v| ≤ 2 ^ 33) :
    (Int64.ofInt (u * 1000000000)).toInt = v * 1000000000 ↔ u = v ∧ HeldNs v := by
  have low := (Int64.ofInt (u * 1000000000)).le_toInt
  have high := (Int64.ofInt (u * 1000000000)).toInt_lt
  obtain ⟨lower, upper⟩ := abs_le.mp near
  constructor
  · intro same
    rw [same] at low high
    refine ⟨?_, low, high⟩
    rw [Int64.toInt_ofInt] at same
    have whole := Int.bmod_add_bdiv (u * 1000000000) Int64.size
    have size : ((Int64.size : ℕ) : ℤ) = 18446744073709551616 := rfl
    have power : (2 : ℤ) ^ 33 = 8589934592 := by norm_num
    rw [same, size] at whole
    rw [power] at lower upper
    generalize Int.bdiv (u * 1000000000) Int64.size = k at whole
    -- A whole turn of the word is more than the seconds between them come to.
    have below : k < 1 := by
      by_contra more
      have more := not_lt.mp more
      linarith
    have above : -1 < k := by
      by_contra less
      have less := not_lt.mp less
      linarith
    have none' : k = 0 := by
      clear whole
      omega
    rw [none'] at whole
    linarith
  · rintro ⟨rfl, held⟩
    exact Int64.toInt_ofInt_of_le held.1 held.2

theorem reading_div (inside : 0 ≤ seconds ∧ seconds < 86400) :
    reading date seconds / 86400 = date.daysSinceEpoch ∧ reading date seconds % 86400 = seconds := by
  unfold reading
  omega

/-- At an instant the clock reads so at, the local time is the one it is. -/
theorem local_of_reads (inside : 0 ≤ seconds ∧ seconds < 86400) (reads : Reads zone.east (reading date seconds) v)
    {ns : Int64} (at_ : ns.toInt = v * 1000000000) : zone.local_ ns = some (date, seconds) := by
  have second : ns.toInt / 1000000000 = v := by omega
  obtain ⟨days, rest⟩ := @reading_div date seconds inside
  unfold local_
  dsimp only
  rw [second, show v + (zone.offsetAt v).toInt = reading date seconds from reads, days, rest, Date.fromDays_daysSinceEpoch]
  rfl

/-- A local time names its instant exactly where the second look is at the offset of the instant it names, and that is held. -/
theorem namesInstant_iff (inside : 0 ≤ seconds ∧ seconds < 86400) :
    zone.NamesInstant date seconds ↔ ∀ v, Named zone.east (reading date seconds) v →
      HeldNs v ∧ looked zone.east (reading date seconds) = v := by
  have near {v : ℤ} (named : Named zone.east (reading date seconds) v) :
      |looked zone.east (reading date seconds) - v| ≤ 2 ^ 33 := by
    have close := abs_le.mp (named.near zone.east_bounded)
    have second := abs_le.mp (zone.east_bounded (reading date seconds - zone.east (reading date seconds)))
    unfold looked
    rw [abs_le]
    norm_num at close second ⊢
    omega
  constructor
  · rintro ⟨-, each⟩ v named
    obtain ⟨same, held⟩ := (toInt_ofInt_eq_iff (near named)).mp (each v named).1
    exact ⟨held, same⟩
  · intro each
    refine ⟨exists_named zone.east_bounded _, fun v named => ?_⟩
    obtain ⟨held, same⟩ := each v named
    have instant : (zone.instantOf date seconds).toInt = v * 1000000000 := (toInt_ofInt_eq_iff (near named)).mpr ⟨same, held⟩
    refine ⟨instant, fun ⟨w, reads⟩ => ?_⟩
    rcases named with ⟨first, -⟩ | ⟨never, -⟩
    · exact local_of_reads inside first instant
    · exact absurd reads (never w)

/-- Where one change at most is within reach of it, a local time names its instant exactly where the instant is held, and
the change neither skips it and comes later than it, nor repeats it and comes no later. -/
theorem namesInstant_alone_iff {reach t before after : ℤ} (inside : 0 ≤ seconds ∧ seconds < 86400)
    (alone : Alone zone.east (reading date seconds) reach t before after) :
    zone.NamesInstant date seconds ↔ (∀ v, Named zone.east (reading date seconds) v → HeldNs v) ∧
      ¬ (t + before ≤ reading date seconds ∧ reading date seconds < t + after ∧ reading date seconds < t) ∧
        ¬ (t + after ≤ reading date seconds ∧ reading date seconds < t + before ∧ t ≤ reading date seconds) := by
  have unique {v : ℤ} (named : Named zone.east (reading date seconds) v) :
      looked zone.east (reading date seconds) = v ↔ Named zone.east (reading date seconds) (looked zone.east (reading date seconds)) := by
    constructor
    · intro same
      rwa [same]
    · intro found
      rw [alone.named_iff] at named found
      rw [found, named]
  rw [namesInstant_iff inside]
  have found := alone.looked_named_iff
  obtain ⟨v, named⟩ := exists_named zone.east_bounded (reading date seconds)
  constructor
  · intro each
    have placed := found.mp ((unique named).mp (each v named).2)
    refine ⟨fun w named => (each w named).1, ?_, ?_⟩
    · have first := placed.1
      omega
    · have second := placed.2
      omega
  · rintro ⟨held, first, second⟩ w named
    refine ⟨held w named, (unique named).mpr (found.mpr ⟨?_, ?_⟩)⟩
    · omega
    · omega

end MeridianCore.Zone
