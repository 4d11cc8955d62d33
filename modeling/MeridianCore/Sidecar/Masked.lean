import MeridianCore.Lake.Stripped
import MeridianCore.Sidecar.Subscriptions

namespace MeridianCore.Sidecar

open MeridianCore.Lake

section Masks

variable {entitled : BTreeSet String} {meta_ : Option String}

theorem contains_foldl_insert (fields : List String) (held : BTreeSet String) (field : String) :
    (fields.foldl (fun held field => held.insert field) held).contains field = true ↔
      held.contains field = true ∨ field ∈ fields := by
  induction fields generalizing held with
  | nil => simp
  | cons first rest ih =>
    rw [List.foldl_cons, ih, List.mem_cons]
    simp only [Std.ExtTreeSet.contains_insert, Bool.or_eq_true]
    constructor
    · rintro ((same | before) | later)
      · have named : first = field := by simpa using same
        exact .inr (.inl named.symm)
      · exact .inl before
      · exact .inr (.inr later)
    · rintro (before | rfl | later)
      · exact .inl (.inr before)
      · exact .inl (.inl (by simp))
      · exact .inr later

theorem contains_union (a b : BTreeSet String) (field : String) :
    (union a b).contains field = true ↔ a.contains field = true ∨ b.contains field = true := by
  rw [union, Std.ExtTreeSet.foldl_eq_foldl_toList, contains_foldl_insert]
  simp

theorem not_isEmpty_of_contains {set : BTreeSet String} {field : String} (held : set.contains field = true) :
    set.isEmpty = false := by
  by_contra empty
  rw [Bool.not_eq_false] at empty
  simp [Std.ExtTreeSet.isEmpty_iff.mp empty] at held

/-- A field a selector reads of an entitled dataset is entitled, or the envelope. -/
theorem Open.entitled_of_mask {held : Open} (restricted : entitled.isEmpty = false) {field : String}
    (reads : (held.mask entitled meta_).contains field = true) :
    entitled.contains field = true ∨ meta_ = some field := by
  unfold Open.mask at reads
  split at reads
  · exact .inl reads
  · rw [restricted] at reads
    cases meta_ with
    | none =>
      left
      simp at reads
      simpa using reads.2
    | some meta_ =>
      simp only [Std.ExtTreeSet.contains_insert, Bool.or_eq_true] at reads
      rcases reads with same | kept
      · right
        simpa using same
      · left
        simp at kept
        simpa using kept.2

/-- A selector's mask is empty only where neither it nor the entitlement names a field. -/
theorem Open.mask_isEmpty {held : Open} {envelope : String} (empty : (held.mask entitled (some envelope)).isEmpty = true) :
    held.fields.isEmpty = true ∧ entitled.isEmpty = true := by
  unfold Open.mask at empty
  split at empty
  · next every => exact ⟨every, empty⟩
  · have inside : ∀ set : BTreeSet String, (set.insert envelope).isEmpty = false := by
      intro set
      exact not_isEmpty_of_contains (by simp : (set.insert envelope).contains envelope = true)
    rw [inside] at empty
    cases empty

theorem joined_eq_some {mask : Option (BTreeSet String)} {theirs held : BTreeSet String}
    (both : joined mask theirs = some held) : theirs.isEmpty = false ∧ ∃ before, mask = some before ∧ union before theirs = held := by
  unfold joined at both
  split at both
  · cases both
  · next some_ =>
    obtain ⟨before, held, rfl⟩ := Option.map_eq_some_iff.mp both
    exact ⟨Bool.not_eq_true _ ▸ some_, before, held, rfl⟩

/-- What the masks of the subscriptions matched hold together, where none reads every field. -/
theorem foldl_joined {selected : List (String × Open)} {before held : BTreeSet String}
    (together : selected.foldl (fun mask entry => joined mask (entry.2.mask entitled meta_)) (some before) = some held) :
    (∀ field, held.contains field = true →
        before.contains field = true ∨ ∃ entry ∈ selected, (entry.2.mask entitled meta_).contains field = true) ∧
      (selected ≠ [] → held.isEmpty = false) := by
  induction selected using List.reverseRecOn generalizing held with
  | nil =>
    cases together
    exact ⟨fun field inside => .inl inside, fun absent => absurd rfl absent⟩
  | append_singleton others entry ih =>
    rw [List.foldl_append] at together
    obtain ⟨theirs, earlier, held, rfl⟩ := joined_eq_some together
    obtain ⟨from_, -⟩ := ih held
    refine ⟨fun field inside => ?_, fun _ => ?_⟩
    · rcases (contains_union _ _ _).mp inside with before | last
      · rcases from_ field before with initial | ⟨other, member, reads⟩
        · exact .inl initial
        · exact .inr ⟨other, List.mem_append_left _ member, reads⟩
      · exact .inr ⟨entry, List.mem_append_right _ (List.mem_singleton.mpr rfl), last⟩
    · obtain ⟨field, inside⟩ : ∃ field, (entry.2.mask entitled meta_).contains field = true := by
        by_contra none_
        simp only [not_exists, Std.ExtTreeSet.contains_iff_mem] at none_
        have empty : entry.2.mask entitled meta_ = ∅ := Std.ExtTreeSet.eq_empty_iff_forall_not_mem.mpr none_
        rw [empty] at theirs
        simp at theirs
      exact not_isEmpty_of_contains ((contains_union _ _ _).mpr (.inr inside))

/-- Of an entitled dataset, a delivery's mask names an entitled field or the envelope, and some field. -/
theorem deliveryMask_entitled (restricted : entitled.isEmpty = false) (named : Bool) (selected : List (String × Open)) :
    (deliveryMask entitled named (matchedOf selected entitled meta_)).isEmpty = false ∧
      ∀ field, (deliveryMask entitled named (matchedOf selected entitled meta_)).contains field = true →
        entitled.contains field = true ∨ meta_ = some field := by
  unfold deliveryMask
  split
  · exact ⟨restricted, fun field inside => .inl inside⟩
  · cases together : (matchedOf selected entitled meta_).mask with
    | none => exact ⟨restricted, fun field inside => .inl inside⟩
    | some held =>
      rw [matchedOf] at together
      dsimp only at together
      split at together
      · cases together
      · next some_ =>
        obtain ⟨from_, held⟩ := foldl_joined together
        refine ⟨held some_, fun field inside => ?_⟩
        rcases from_ field inside with initial | ⟨entry, member, reads⟩
        · simp at initial
        · exact entry.2.entitled_of_mask restricted reads

/-- A delivery's mask is empty, which is every field, only where the entitlement names none and the row
is the stream's own or some subscription it matches names none. -/
theorem deliveryMask_isEmpty {named : Bool} {selected : List (String × Open)} {envelope : String}
    (every : (deliveryMask entitled named (matchedOf selected entitled (some envelope))).isEmpty = true)
    (heard : named = true ∨ selected ≠ []) :
    entitled.isEmpty = true ∧ (named = true ∨ ∃ entry ∈ selected, entry.2.fields.isEmpty = true) := by
  unfold deliveryMask at every
  split at every
  · next named => exact ⟨every, .inl named⟩
  · next unnamed =>
    have some_ := heard.resolve_left unnamed
    cases together : (matchedOf selected entitled (some envelope)).mask with
    | some held =>
      rw [together] at every
      rw [matchedOf] at together
      dsimp only at together
      rw [if_neg some_] at together
      rw [Option.getD_some, (foldl_joined together).2 some_] at every
      cases every
    | none =>
      rw [together] at every
      refine ⟨every, .inr ?_⟩
      rw [matchedOf] at together
      dsimp only at together
      rw [if_neg some_] at together
      by_contra named
      have reads : ∀ entry ∈ selected, (entry.2.mask entitled (some envelope)).isEmpty = false := by
        intro entry member
        by_contra empty
        exact named ⟨entry, member, (entry.2.mask_isEmpty (Bool.not_eq_false _ ▸ empty)).1⟩
      suffices stands : ∀ before, ∃ held, selected.foldl
          (fun mask entry => joined mask (entry.2.mask entitled (some envelope))) (some before) = some held by
        obtain ⟨held, stands⟩ := stands ∅
        rw [together] at stands
        cases stands
      clear together some_ heard named
      induction selected with
      | nil => exact fun before => ⟨before, rfl⟩
      | cons entry rest ih =>
        intro before
        rw [List.foldl_cons, joined, reads entry List.mem_cons_self]
        exact ih (fun other member => reads other (List.mem_cons_of_mem _ member)) _

end Masks

/-- A payload's row is of the data type its envelope's entry is listed first under. -/
theorem metaEntry_row {payload : Payload} {row : Observation} (carried : payload.row = some row) :
    metaEntry payload = (fieldsOf row.dataType).head? ∧ Observation.readWhole row.dataType = false := by
  cases payload with
  | liveness | observationsWanted | wantWithdrawn => cases carried
  | _ held =>
    obtain ⟨held, -, rfl⟩ := Option.map_eq_some_iff.mp carried
    exact ⟨rfl, rfl⟩

/-- The envelope's entry is no other field's. -/
theorem envelope_not_shown (dataType : DataType) :
    ∀ entry ∈ Observation.entriesOf dataType, (fieldsOf dataType).head? ≠ some entry := by
  cases dataType <;> decide

theorem entriesOf_of_shows {row : Observation} {entry : String} (shows : row.Shows entry) :
    entry ∈ Observation.entriesOf row.dataType := by
  rw [← Observation.entries_shown]
  exact List.mem_map_of_mem (f := Prod.fst) shows

/-- What a row delivered shows of a dataset the plugin may read in part is entitled, or never stripped. -/
theorem entitled_of_delivered {heard : Heard} {open_ after : BTreeMap String Open} {row : String} {payload : Payload}
    {delivered : Delivered} {saidOf : Said} {fields : BTreeSet String}
    (taken : deliver heard open_ row payload = (after, some delivered)) (said_ : said payload = some saidOf)
    (observed : saidOf.isWant = false) (entitled : heard.entitled saidOf.dataset = some fields)
    (restricted : fields.isEmpty = false) {observation : Observation} (carried : delivered.payload.row = some observation)
    {entry : String} (shows : observation.Shows entry) :
    fields.contains entry = true ∨ entry ∈ spared observation.dataType := by
  unfold deliver at taken
  rw [said_] at taken
  dsimp only at taken
  rw [if_neg (by simp [observed]), entitled] at taken
  dsimp only at taken
  rw [Sidecar.queued] at taken
  split at taken
  · cases taken
  · cases taken
    rw [row_stripped] at carried
    obtain ⟨held, came, rfl⟩ := Option.map_eq_some_iff.mp carried
    obtain ⟨named, partly⟩ := metaEntry_row came
    obtain ⟨some_, inside⟩ := @deliveryMask_entitled _ (metaEntry payload) restricted _ _
    rw [Observation.dataType_strip]
    rcases Observation.allowed_of_shows some_ partly shows with reads | spares
    · left
      refine (inside entry reads).resolve_right fun envelope => ?_
      have shown := entriesOf_of_shows shows
      rw [Observation.dataType_strip] at shown
      exact envelope_not_shown _ entry shown (named ▸ envelope)
    · exact .inr spares

/-- A row read or delivered in part shows only what is allowed and what is never stripped, every other
entry named once; and a delivery's mask is every field only where the entitlement is, and the row is the
stream's own or of a subscription that names no field. -/
theorem shows_only_allowed :
    (∀ (allowed : BTreeSet String) (row : Observation), allowed.isEmpty = false →
      Observation.readWhole row.dataType = false →
        (∀ entry, (row.strip allowed).1.Shows entry → allowed.contains entry = true ∨ entry ∈ spared row.dataType) ∧
        (row.strip allowed).2.Nodup ∧
        (∀ entry, entry ∈ (row.strip allowed).2 ↔
          entry ∈ Observation.takable row.dataType ∧ allowed.contains entry = false) ∧
        (∀ field ∈ row.shown, field.1 ∈ Observation.takable row.dataType ∨ field.1 ∈ spared row.dataType) ∧
        (∀ (asked : BTreeSet String) (entry : String), (stripFor allowed asked row.dataType row).1.Shows entry →
          allowed.contains entry = true ∨ entry ∈ spared row.dataType)) ∧
    (∀ (heard : Heard) (open_ after : BTreeMap String Open) (row : String) (payload : Payload) (delivered : Delivered)
        (saidOf : Said) (fields : BTreeSet String), deliver heard open_ row payload = (after, some delivered) →
      said payload = some saidOf → saidOf.isWant = false → heard.entitled saidOf.dataset = some fields →
      fields.isEmpty = false → ∀ observation entry, delivered.payload.row = some observation →
        observation.Shows entry → fields.contains entry = true ∨ entry ∈ spared observation.dataType) ∧
    (∀ (entitled : BTreeSet String) (named : Bool) (selected : List (String × Open)) (payload : Payload)
        (row : Observation), payload.row = some row → (named = true ∨ selected ≠ []) →
      (deliveryMask entitled named (matchedOf selected entitled (metaEntry payload))).isEmpty = true →
        entitled.isEmpty = true ∧ (named = true ∨ ∃ entry ∈ selected, entry.2.fields.isEmpty = true)) := by
  refine ⟨fun allowed row restricted partly => ⟨?_, ?_, ?_, ?_, ?_⟩, ?_, ?_⟩
  · exact fun entry shows => Observation.allowed_of_shows restricted partly shows
  · rw [Observation.strip_removed restricted]
    exact (Observation.takable_nodup _).filter _
  · intro entry
    rw [Observation.strip_removed restricted, List.mem_filter]
    simp
  · intro field member
    refine Observation.takable_of_shown _ partly _ ?_
    rw [← Observation.entries_shown]
    exact List.mem_map_of_mem member
  · exact fun asked entry shows => allowed_of_stripFor restricted partly shows
  · intro heard open_ after row payload delivered saidOf fields taken said_ observed entitled restricted observation entry
      carried shows
    exact entitled_of_delivered taken said_ observed entitled restricted carried shows
  · intro entitled named selected payload row carried heard every
    obtain ⟨envelope, -⟩ := metaEntry_row carried
    obtain ⟨first, listed⟩ : ∃ first, (fieldsOf row.dataType).head? = some first := by
      cases payload with
      | liveness | observationsWanted | wantWithdrawn => cases carried
      | _ held =>
        obtain ⟨held, -, rfl⟩ := Option.map_eq_some_iff.mp carried
        exact ⟨_, rfl⟩
    rw [envelope, listed] at every
    exact deliveryMask_isEmpty every heard

/-- A quote read by who may read its bid alone: what it still shows of its ask and its bid. -/
theorem quote_shows_bid :
    ∀ entry, ((Observation.quote { bid := some { currencyCode := "USD" }, ask := some { currencyCode := "USD" } }).strip
        (setOf ["meridian.v1.Quote.bid"])).1.Shows entry →
      (setOf ["meridian.v1.Quote.bid"]).contains entry = true ∨ entry ∈ spared .quote :=
  (shows_only_allowed.1 (setOf ["meridian.v1.Quote.bid"])
    (.quote { bid := some { currencyCode := "USD" }, ask := some { currencyCode := "USD" } })
    (by decide +kernel) rfl).1

/-- A signal plugin's row is read whole, whatever is allowed. -/
theorem derived_shows_all :
    ¬ ∀ (allowed : BTreeSet String) (row : Observation), allowed.isEmpty = false →
      ∀ entry, (row.strip allowed).1.Shows entry → allowed.contains entry = true ∨ entry ∈ spared row.dataType := by
  intro claim
  have shows : ((Observation.derived { series := "carry" }).strip (setOf ["meridian.v1.DerivedSeries.meta"])).1.Shows
      "meridian.v1.DerivedSeries.series" := by
    rw [Observation.Shows]
    decide
  rcases claim (setOf ["meridian.v1.DerivedSeries.meta"]) (.derived { series := "carry" }) (by decide +kernel) _ shows with
    allowed | spares
  · revert allowed
    decide +kernel
  · cases spares

end MeridianCore.Sidecar
