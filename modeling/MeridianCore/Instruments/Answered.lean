import MeridianCore.Instruments.Hot
import MeridianCore.Ordered.Run

namespace MeridianCore.Instruments

namespace Layer
variable {layer after : Layer} {key : Bool × String} {answer : Answer} {size used bound : Nat}

theorem pop_eq_evict (tidy : layer.Tidy) (found : layer.byUse[used]? = some key) : layer.pop used key = Lru.evict layer used key := by
  obtain ⟨answer, size, held⟩ := tidy.keys used key found
  have again : (layer.byUse.erase used).erase used = layer.byUse.erase used := by
    ext other : 1
    simp only [Std.ExtTreeMap.getElem?_erase]
    split <;> rfl
  unfold pop Lru.forget Lru.evict
  simp only [held, again]

/-- What is popped last used is what is evicted of it: the two trims are one. -/
theorem trimWithin_eq {fuel : Nat} (tidy : layer.Tidy) : trimWithin bound fuel layer = Lru.trimWithin bound fuel layer := by
  induction fuel generalizing layer with
  | zero => rfl
  | succ fuel ih =>
    unfold trimWithin Lru.trimWithin
    split
    · cases first : layer.byUse.toList.head? with
      | some least =>
        have found : layer.byUse[least.1]? = some least.2 := BTreeMap.mem_toList.mp (List.mem_of_head? first)
        dsimp only
        rw [pop_eq_evict tidy found]
        exact ih (Lru.tidy_evict tidy found)
      | none => rfl
    · rfl

theorem tidy_insert (encodedLen : Instrument → Nat) (bound : Nat) (tidy : layer.Tidy) (key : Bool × String)
    (answer : Answer) :
    (layer.insert encodedLen bound key answer).Tidy ∧ (layer.insert encodedLen bound key answer).bytes ≤ bound := by
  have kept := Lru.tidy_keep (Lru.tidy_forget tidy key) (Lru.forget_self layer key) answer (answer.cost encodedLen key.2)
  have same : layer.insert encodedLen bound key answer = Lru.trim bound _ := trimWithin_eq kept
  rw [same]
  exact Lru.tidy_trim kept

/-- What is held after an insert: what was inserted, or what was held before. -/
theorem held_insert {encodedLen : Instrument → Nat} {inserted : Answer} {other : Bool × String} (tidy : layer.Tidy)
    (found : (layer.insert encodedLen bound key inserted).held[other]? = some (answer, size, used)) :
    (other = key ∧ answer = inserted) ∨ ∃ size used, layer.held[other]? = some (answer, size, used) := by
  have kept := Lru.tidy_keep (Lru.tidy_forget tidy key) (Lru.forget_self layer key) inserted (inserted.cost encodedLen key.2)
  have same : layer.insert encodedLen bound key inserted = Lru.trim bound _ := trimWithin_eq kept
  rw [same] at found
  have before := Lru.within_trim bound _ other answer size used found
  simp only [Lru.keep, Std.ExtTreeMap.getElem?_insert] at before
  split at before
  · next equal =>
    cases before
    exact Or.inl ⟨(Std.LawfulEqOrd.eq_of_compare equal).symm, rfl⟩
  · next apart =>
    have different : other ≠ key := by
      rintro rfl
      exact apart Std.ReflOrd.compare_self
    rw [Lru.forget_other different] at before
    exact Or.inr ⟨_, _, before⟩

theorem get_some (got : layer.get key = some (answer, after)) :
    ∃ size used, layer.held[key]? = some (answer, size, used) ∧ after = layer.touch key answer size used := by
  unfold get at got
  split at got
  · next found =>
    cases got
    exact ⟨_, _, found, rfl⟩
  · cases got

theorem held_get {other : Bool × String} {held : Answer} (got : layer.get key = some (answer, after))
    (found : after.held[other]? = some (held, size, used)) : ∃ size used, layer.held[other]? = some (held, size, used) := by
  obtain ⟨size, used, before, rfl⟩ := get_some got
  simp only [Lru.touch, Std.ExtTreeMap.getElem?_insert] at found
  split at found
  · next same =>
    obtain rfl := Std.LawfulEqOrd.eq_of_compare same
    cases found
    exact ⟨_, _, before⟩
  · exact ⟨_, _, found⟩

theorem tidy_after (tidy : layer.Tidy) (eviction : Eviction) : (layer.after eviction).Tidy := by
  cases eviction with
  | one id => exact Lru.tidy_forget (Lru.tidy_forget tidy _) _
  | all => exact Lru.tidy_empty

end Layer

namespace HotStore
variable {encodedLen : Instrument → Nat} {bound : Nat} {store after : HotStore} {key : Bool × String}
  {answer : Answer}

/-- Every key a call may write is one its evictions reach. -/
theorem evictions_reach {held : Held} {outcome : Outcome} {call : Call} (member : key ∈ call.keys) :
    ∃ eviction ∈ held.evictions outcome (some call), eviction.reaches key = true := by
  cases call with
  | mint candidate set =>
    obtain rfl := List.mem_singleton.mp member
    exact ⟨.one candidate.instrumentId, List.mem_cons_self, decide_eq_true rfl⟩
  | write record expected =>
    obtain rfl := List.mem_singleton.mp member
    exact ⟨.one record.instrumentId, List.mem_cons_self, decide_eq_true rfl⟩
  | replace replacedId replacedBy => exact ⟨.all, List.mem_cons_self, rfl⟩
  | readTo sequence => exact ⟨.all, List.mem_cons_self, rfl⟩

/-- What an eviction leaves held it did not reach, and was held before. -/
theorem held_after {layer : Layer} {eviction : Eviction} {size used : Nat}
    (found : (layer.after eviction).held[key]? = some (answer, size, used)) :
    layer.held[key]? = some (answer, size, used) ∧ eviction.reaches key = false := by
  cases eviction with
  | all => simp [Layer.after] at found
  | one id =>
    have apart (record : Bool) : key ≠ (record, id) := by
      rintro rfl
      cases record with
      | false => simp [Layer.after, Layer.evict, Lru.forget_self] at found
      | true =>
        have other : ((true, id) : Bool × String) ≠ (false, id) := by simp
        simp [Layer.after, Layer.evict, Lru.forget_other other, Lru.forget_self] at found
    have kept : ((Lru.forget layer (true, id)).forget (false, id)).held[key]? = some (answer, size, used) := found
    rw [Lru.forget_other (apart false), Lru.forget_other (apart true)] at kept
    refine ⟨kept, decide_eq_false fun same => ?_⟩
    exact apart key.1 (Prod.ext rfl same)

theorem bytes_forget (layer : Layer) (key : Bool × String) : (Lru.forget layer key).bytes ≤ layer.bytes := by
  unfold Lru.forget
  split
  · exact Nat.sub_le ..
  · exact le_refl _

theorem bytes_after (layer : Layer) (eviction : Eviction) : (layer.after eviction).bytes ≤ layer.bytes := by
  cases eviction with
  | one id => exact (bytes_forget _ _).trans (bytes_forget _ _)
  | all => exact Nat.zero_le _

/-- An answer the record gave once it had that many writes, or more. -/
def Fresh (store : HotStore) (key : Bool × String) (since : Nat) (answer : Answer) : Prop :=
  ∃ index held, since ≤ index ∧ store.stateAt index = some held ∧ held.answer key = answer

/-- What a read answers: from the layer at once, or what it loaded; with the last write of its key returned
before the read began. -/
inductive Answers (store : HotStore) (key : Bool × String) : Nat → Answer → Prop where
  | held {answer : Answer} {layer : Layer} (got : store.layer.get key = some (answer, layer)) :
    Answers store key (store.returned key) answer
  | loaded {since index : Nat} {answer : Answer} (read : { key, since, loaded := some (index, answer) } ∈ store.reads) :
    Answers store key since answer

/-- The layer's bytes are those of what it holds, within the bound, and each entry held is last used at one tick. -/
structure Counted (bound : Nat) (store : HotStore) : Prop where
  bytes : store.layer.bytes = store.layer.held.sum fun held => held.2.1
  within : store.layer.bytes ≤ bound
  once : ∀ key : Bool × String, (store.layer.held[key]?).isSome → ∃! tick : Nat, store.layer.byUse[tick]? = some key
  uses : ∀ (tick : Nat) (key : Bool × String), store.layer.byUse[tick]? = some key → (store.layer.held[key]?).isSome

/-- Every read answers what the record held at the last write of its key returned before the read began, or at a
later one; and what the layer holds is counted. -/
structure AnswersLater (bound : Nat) (store : HotStore) : Prop where
  later : ∀ key since answer, store.Answers key since answer → store.Fresh key since answer
  counted : Counted bound store

/-- A read puts into the layer what the record held at the last write that evicted its key, or at a later one. -/
def PutsLater (store : HotStore) : Move → Prop
  | .answers read => ∀ asked index answer, store.reads[read]? = some asked → asked.loaded = some (index, answer) →
      store.Fresh asked.key (store.evicted asked.key) answer
  | _ => True

theorem Fresh.mono {earlier since : Nat} (fresh : store.Fresh key since answer) (before : earlier ≤ since) :
    store.Fresh key earlier answer := by
  obtain ⟨index, held, later, found, same⟩ := fresh
  exact ⟨index, held, before.trans later, found, same⟩

/-- What the record held it held, whatever is written after. -/
theorem Fresh.commits {since : Nat} (fresh : store.Fresh key since answer) {record : Held} {writes : List WriteCall} :
    Fresh { store with record, past := store.past ++ [store.record], writes } key since answer := by
  obtain ⟨index, held, later, found, same⟩ := fresh
  refine ⟨index, held, later, ?_, same⟩
  exact List.getElem?_append_left (List.getElem?_eq_some_iff.mp found).1 |>.trans found

/-- What the record answers now, it held at its last write. -/
theorem fresh_now (store : HotStore) (key : Bool × String) : store.Fresh key store.past.length (store.record.answer key) := by
  refine ⟨store.past.length, store.record, le_refl _, ?_, rfl⟩
  exact List.getElem?_concat_length

/-- The layer's uses and bytes. -/
def Trimmed (bound : Nat) (store : HotStore) : Prop := store.layer.Tidy ∧ store.layer.bytes ≤ bound

theorem trimmed_move (trimmed : Trimmed bound store) {label : Move}
    (moved : store.move encodedLen bound label = some after) : Trimmed bound after := by
  cases label with
  | commits call outcome =>
    cases moved
    exact trimmed
  | evicts write =>
    obtain ⟨call, -, moved⟩ := Option.bind_eq_some_iff.mp moved
    obtain ⟨eviction, -, moved⟩ := Option.bind_eq_some_iff.mp moved
    cases moved
    exact ⟨Layer.tidy_after trimmed.1 eviction, (bytes_after store.layer eviction).trans trimmed.2⟩
  | returns write =>
    obtain ⟨call, -, moved⟩ := Option.bind_eq_some_iff.mp moved
    split at moved
    · cases moved
      exact trimmed
    · cases moved
  | asks key =>
    simp only [move] at moved
    split at moved
    · next got =>
      cases moved
      obtain ⟨size, used, found, rfl⟩ := Layer.get_some got
      exact ⟨Lru.tidy_touch trimmed.1 found, trimmed.2⟩
    · cases moved
      exact trimmed
  | loads read =>
    obtain ⟨asked, -, moved⟩ := Option.bind_eq_some_iff.mp moved
    split at moved
    · cases moved
    · cases moved
      exact trimmed
  | answers read =>
    obtain ⟨asked, -, moved⟩ := Option.bind_eq_some_iff.mp moved
    obtain ⟨loaded, -, moved⟩ := Option.bind_eq_some_iff.mp moved
    cases moved
    exact Layer.tidy_insert encodedLen bound trimmed.1 asked.key loaded.2
  | fails read =>
    obtain ⟨asked, -, moved⟩ := Option.bind_eq_some_iff.mp moved
    cases moved
    exact trimmed

theorem counted_of_trimmed (trimmed : Trimmed bound store) : Counted bound store where
  bytes := trimmed.1.bytes
  within := trimmed.2
  once key holds := by
    obtain ⟨⟨answer, size, used⟩, found⟩ := Option.isSome_iff_exists.mp holds
    refine ⟨used, trimmed.1.uses key answer size used found, fun tick named => ?_⟩
    obtain ⟨answer', size', again⟩ := trimmed.1.keys tick key named
    rw [found] at again
    cases again
    rfl
  uses tick key named := by
    obtain ⟨answer, size, found⟩ := trimmed.1.keys tick key named
    exact Option.isSome_iff_exists.mpr ⟨_, found⟩

/-- What the layer holds is counted in every run, whatever order its steps are in. -/
theorem counted_of_any_run {record : Held} {labels : List Move}
    (run : Run (fun store label after => store.move encodedLen bound label = some after) { record } labels store) :
    Counted bound store := by
  have trimmed : Trimmed bound store :=
    run.invariant (Trimmed bound) ⟨Lru.tidy_empty, Nat.zero_le _⟩ fun _ _ _ held moved => trimmed_move held moved
  exact counted_of_trimmed trimmed

/-- What every answer rests on: what is held was the record's at the last write that evicted its key or later,
no write has returned that has not evicted what it wrote, and what was loaded is no earlier than its read. -/
structure Sound (store : HotStore) : Prop where
  tidy : store.layer.Tidy
  held : ∀ (key : Bool × String) (answer : Answer) (size used : Nat),
    store.layer.held[key]? = some (answer, size, used) → store.Fresh key (store.evicted key) answer
  returned : ∀ key, store.returned key ≤ store.evicted key
  evicted : ∀ key, store.evicted key ≤ store.past.length
  reached : ∀ call ∈ store.writes, call.index ≤ store.past.length
  pending : ∀ call ∈ store.writes, ∀ key ∈ call.keys,
    call.index ≤ store.evicted key ∨ ∃ eviction ∈ call.evictions, eviction.reaches key = true
  loaded : ∀ read ∈ store.reads, ∀ index answer, read.loaded = some (index, answer) →
    store.Fresh read.key read.since answer
  asked : ∀ read ∈ store.reads, read.since ≤ store.returned read.key

theorem sound_commits (sound : Sound store) {call : Option Call} {outcome : Outcome}
    (moved : store.move encodedLen bound (.commits call outcome) = some after) : Sound after := by
  cases moved
  have grows : store.past.length ≤ (store.past ++ [store.record]).length := by simp
  refine { sound with
    held := fun key answer size used found => (sound.held key answer size used found).commits
    evicted := fun key => (sound.evicted key).trans grows
    reached := fun write member => ?_
    pending := fun write member key wrote => ?_
    loaded := fun read member index answer loaded => (sound.loaded read member index answer loaded).commits }
  · rcases List.mem_append.mp member with before | own
    · exact (sound.reached write before).trans grows
    · obtain rfl := List.mem_singleton.mp own
      simp
  · rcases List.mem_append.mp member with before | own
    · exact sound.pending write before key wrote
    · obtain rfl := List.mem_singleton.mp own
      cases call with
      | none => exact absurd wrote List.not_mem_nil
      | some call => exact Or.inr (evictions_reach wrote)

theorem sound_evicts (sound : Sound store) {write : Nat}
    (moved : store.move encodedLen bound (.evicts write) = some after) : Sound after := by
  obtain ⟨call, found, moved⟩ := Option.bind_eq_some_iff.mp moved
  obtain ⟨eviction, first, moved⟩ := Option.bind_eq_some_iff.mp moved
  have member := List.mem_of_getElem? found
  have parts : call.evictions = eviction :: call.evictions.tail := List.eq_cons_of_mem_head? first
  have grows (key : Bool × String) : store.evicted key ≤
      if eviction.reaches key then max (store.evicted key) call.index else store.evicted key := by
    split
    · exact le_max_left ..
    · exact le_refl _
  cases moved
  refine ⟨Layer.tidy_after sound.tidy eviction, ?_, ?_, ?_, ?_, ?_, sound.loaded, sound.asked⟩
  · intro key answer size used inLayer
    obtain ⟨before, unreached⟩ := held_after inLayer
    dsimp only
    rw [if_neg (by simp [unreached])]
    exact sound.held key answer size used before
  · intro key
    exact (sound.returned key).trans (grows key)
  · intro key
    dsimp only
    split
    · exact max_le (sound.evicted key) (sound.reached call member)
    · exact sound.evicted key
  · intro other among
    rcases List.mem_or_eq_of_mem_set among with before | rfl
    · exact sound.reached other before
    · exact sound.reached call member
  · intro other among key wrote
    rcases List.mem_or_eq_of_mem_set among with before | rfl
    · rcases sound.pending other before key wrote with evicted | yet
      · exact Or.inl (evicted.trans (grows key))
      · exact Or.inr yet
    · rcases sound.pending call member key wrote with evicted | ⟨reaching, yet, reaches⟩
      · exact Or.inl (evicted.trans (grows key))
      · rw [parts] at yet
        rcases List.mem_cons.mp yet with rfl | later
        · left
          dsimp only
          rw [if_pos reaches]
          exact le_max_right ..
        · exact Or.inr ⟨reaching, later, reaches⟩

theorem sound_returns (sound : Sound store) {write : Nat}
    (moved : store.move encodedLen bound (.returns write) = some after) : Sound after := by
  obtain ⟨call, found, moved⟩ := Option.bind_eq_some_iff.mp moved
  have member := List.mem_of_getElem? found
  split at moved
  · next done =>
    cases moved
    refine { sound with returned := ?_, reached := ?_, pending := ?_, asked := ?_ }
    · intro key
      dsimp only
      split
      · next wrote =>
        refine max_le (sound.returned key) ?_
        rcases sound.pending call member key wrote with evicted | ⟨_, yet, _⟩
        · exact evicted
        · rw [done] at yet
          exact absurd yet List.not_mem_nil
      · exact sound.returned key
    · exact fun other among => sound.reached other (List.mem_of_mem_eraseIdx among)
    · exact fun other among => sound.pending other (List.mem_of_mem_eraseIdx among)
    · intro read among
      dsimp only
      split
      · exact (sound.asked read among).trans (le_max_left ..)
      · exact sound.asked read among
  · cases moved

theorem sound_asks (sound : Sound store) {key : Bool × String}
    (moved : store.move encodedLen bound (.asks key) = some after) : Sound after := by
  simp only [move] at moved
  split at moved
  · next answer layer got =>
    cases moved
    obtain ⟨size, used, found, touched⟩ := Layer.get_some got
    refine { sound with tidy := touched ▸ Lru.tidy_touch sound.tidy found, held := ?_ }
    intro other held size used inLayer
    obtain ⟨size, used, before⟩ := Layer.held_get got inLayer
    exact sound.held other held size used before
  · cases moved
    refine { sound with loaded := fun read member index answer loaded => ?_, asked := fun read member => ?_ }
    · rcases List.mem_append.mp member with before | own
      · exact sound.loaded read before index answer loaded
      · rw [List.mem_singleton.mp own] at loaded
        cases loaded
    · rcases List.mem_append.mp member with before | own
      · exact sound.asked read before
      · rw [List.mem_singleton.mp own]

/-- A read that reads the record after it began reads all that had returned before it. -/
theorem sound_loads (sound : Sound store) {read : Nat}
    (moved : store.move encodedLen bound (.loads read) = some after) : Sound after := by
  obtain ⟨asked, found, moved⟩ := Option.bind_eq_some_iff.mp moved
  have before := List.mem_of_getElem? found
  split at moved
  · cases moved
  · cases moved
    refine { sound with loaded := fun other member index answer loaded => ?_, asked := fun other member => ?_ }
    · rcases List.mem_or_eq_of_mem_set member with earlier | rfl
      · exact sound.loaded other earlier index answer loaded
      · cases loaded
        have began : asked.since ≤ store.past.length := calc
          asked.since ≤ store.returned asked.key := sound.asked asked before
          _ ≤ store.evicted asked.key := sound.returned asked.key
          _ ≤ store.past.length := sound.evicted asked.key
        exact (store.fresh_now asked.key).mono began
    · rcases List.mem_or_eq_of_mem_set member with earlier | rfl
      · exact sound.asked other earlier
      · exact sound.asked asked before

theorem sound_answers (sound : Sound store) {read : Nat} (later : store.PutsLater (.answers read))
    (moved : store.move encodedLen bound (.answers read) = some after) : Sound after := by
  obtain ⟨asked, found, moved⟩ := Option.bind_eq_some_iff.mp moved
  obtain ⟨⟨index, answer⟩, loaded, moved⟩ := Option.bind_eq_some_iff.mp moved
  cases moved
  refine { sound with
    tidy := (Layer.tidy_insert encodedLen bound sound.tidy asked.key answer).1
    held := fun key held size used inLayer => ?_
    loaded := fun other member => sound.loaded other (List.mem_of_mem_eraseIdx member)
    asked := fun other member => sound.asked other (List.mem_of_mem_eraseIdx member) }
  rcases Layer.held_insert sound.tidy inLayer with ⟨rfl, rfl⟩ | ⟨size, used, before⟩
  · exact later asked index held found loaded
  · exact sound.held key held size used before

theorem sound_fails (sound : Sound store) {read : Nat}
    (moved : store.move encodedLen bound (.fails read) = some after) : Sound after := by
  obtain ⟨asked, -, moved⟩ := Option.bind_eq_some_iff.mp moved
  cases moved
  exact { sound with
    loaded := fun other member => sound.loaded other (List.mem_of_mem_eraseIdx member)
    asked := fun other member => sound.asked other (List.mem_of_mem_eraseIdx member) }

theorem sound_move (sound : Sound store) {label : Move} (later : store.PutsLater label)
    (moved : store.move encodedLen bound label = some after) : Sound after := by
  cases label with
  | commits call outcome => exact sound_commits sound moved
  | evicts write => exact sound_evicts sound moved
  | returns write => exact sound_returns sound moved
  | asks key => exact sound_asks sound moved
  | loads read => exact sound_loads sound moved
  | answers read => exact sound_answers sound later moved
  | fails read => exact sound_fails sound moved

theorem sound_empty (record : Held) : Sound { record } where
  tidy := Lru.tidy_empty
  held key answer size used found := by simp at found
  returned _ := le_refl _
  evicted _ := Nat.zero_le _
  reached call member := absurd member List.not_mem_nil
  pending call member := absurd member List.not_mem_nil
  loaded read member := absurd member List.not_mem_nil
  asked read member := absurd member List.not_mem_nil

theorem later_of_sound (sound : Sound store) {key : Bool × String} {since : Nat} {answer : Answer}
    (answers : store.Answers key since answer) : store.Fresh key since answer := by
  cases answers with
  | held got =>
    obtain ⟨size, used, found, -⟩ := Layer.get_some got
    exact (sound.held key answer size used found).mono (sound.returned key)
  | loaded read => exact sound.loaded _ read _ answer rfl

/-- In every run in which no read puts into the layer what the record held before a write that has since evicted
its key, every read answers the last write of its key returned before it began or a later one, and what the layer
holds is counted. -/
theorem answers_later_of_run {record : Held} {labels : List Move}
    (run : Run (fun store label after => store.PutsLater label ∧ store.move encodedLen bound label = some after)
      { record } labels store) : AnswersLater bound store where
  later key since answer answers := by
    have sound : Sound store :=
      run.invariant_of Sound (sound_empty record) fun _ _ _ sound later moved => sound_move sound later moved
    exact later_of_sound sound answers
  counted := counted_of_any_run run.forget

/-- Whether the record gave an answer once it had that many writes, or more. -/
def freshNow (store : HotStore) (key : Bool × String) (since : Nat) (answer : Answer) : Bool :=
  (List.range (store.past.length + 1)).any fun index =>
    since ≤ index && (store.stateAt index).any fun held => held.answer key == answer

theorem fresh_of_now {since : Nat} (now : store.freshNow key since answer = true) : store.Fresh key since answer := by
  obtain ⟨index, -, fresh⟩ := List.any_eq_true.mp now
  obtain ⟨later, found⟩ := Bool.and_eq_true_iff.mp fresh
  obtain ⟨held, found, same⟩ := Option.any_eq_true _ _ |>.mp found
  exact ⟨index, held, of_decide_eq_true later, found, beq_iff_eq.mp same⟩

theorem now_of_fresh {since : Nat} (fresh : store.Fresh key since answer) : store.freshNow key since answer = true := by
  obtain ⟨index, held, later, found, same⟩ := fresh
  have within : index < store.past.length + 1 := by
    have bound := (List.getElem?_eq_some_iff.mp found).1
    simpa using bound
  refine List.any_eq_true.mpr ⟨index, List.mem_range.mpr within, ?_⟩
  simp [later, found, same]

/-- Whether what a read puts into the layer is later than its key's evictions. -/
def putsLaterNow (store : HotStore) : Move → Bool
  | .answers read => ((store.reads[read]?).bind fun asked => asked.loaded.map fun loaded =>
      store.freshNow asked.key (store.evicted asked.key) loaded.2).getD true
  | _ => true

def moveLater (encodedLen : Instrument → Nat) (bound : Nat) (store : HotStore) (label : Move) : Option HotStore :=
  if store.putsLaterNow label then store.move encodedLen bound label else none

theorem moveLater_some {label : Move} (moved : moveLater encodedLen bound store label = some after) :
    store.PutsLater label ∧ store.move encodedLen bound label = some after := by
  unfold moveLater at moved
  split at moved
  · next later =>
    refine ⟨?_, moved⟩
    cases label with
    | answers read =>
      intro asked index answer found loaded
      unfold putsLaterNow at later
      dsimp only at later
      rw [found, Option.bind_some, loaded] at later
      exact fresh_of_now later
    | _ => trivial
  · cases moved

/-- A record of a version. -/
def versioned (version : Int) : Instrument := { instrumentId := "INS-1", version }

def onRecord : HotStore where
  record := { byId := (∅ : BTreeMap String Instrument).insert "INS-1" (versioned 1) }

/-- A read that puts what it loaded before the record's next version is written, and one after. -/
def readThenWritten : List Move := [
  .asks (true, "INS-1"), .loads 0, .answers 0, .commits (some (.write (versioned 2) 1)) .done, .evicts 0, .returns 0,
  .asks (true, "INS-1"), .loads 0, .answers 0]

/-- What the layer answers of a record, with the last write of it returned. -/
def answersNow (store : HotStore) (since : Nat) (answer : Answer) : Bool :=
  store.returned (true, "INS-1") == since && (store.layer.get (true, "INS-1")).any fun got => got.1 == answer

theorem answers_of_now {since : Nat} (now : store.answersNow since answer = true) :
    store.Answers (true, "INS-1") since answer := by
  obtain ⟨returned, got⟩ := Bool.and_eq_true_iff.mp now
  obtain ⟨⟨held, layer⟩, got, same⟩ := Option.any_eq_true _ _ |>.mp got
  rw [← beq_iff_eq.mp returned, ← show held = answer from beq_iff_eq.mp same]
  exact .held got

theorem read_then_written_later : ∃ store, Run (fun store label after => store.move (fun _ => 9) 1300 label = some after)
      onRecord readThenWritten store ∧
    store.Answers (true, "INS-1") 1 (.record (some (versioned 2))) ∧ AnswersLater 1300 store := by
  have computed : (readThenWritten.foldlM (moveLater (fun _ => 9) 1300) onRecord).any
      (fun store => store.answersNow 1 (.record (some (versioned 2)))) = true := by
    decide +kernel
  obtain ⟨store, run, answers⟩ := Run.of_any computed
  have run := run.imp fun before label after moved => moveLater_some moved
  exact ⟨store, run.forget, answers_of_now answers, answers_later_of_run run⟩

/-- A record read before its next version is written and evicted is put into the layer after, and answers in its
place. -/
theorem stale_record_answered :
    ¬ ∀ (encodedLen : Instrument → Nat) (bound : Nat) (record : Held) (labels : List Move) (store : HotStore),
      Run (fun store label after => store.move encodedLen bound label = some after) { record } labels store →
        AnswersLater bound store := by
  intro claim
  have computed : (([.asks (true, "INS-1"), .loads 0, .commits (some (.write (versioned 2) 1)) .done, .evicts 0,
      .returns 0, .answers 0] : List Move).foldlM (move (fun _ => 9) 1300) onRecord).any (fun store =>
        store.answersNow 1 (.record (some (versioned 1))) &&
          !store.freshNow (true, "INS-1") 1 (.record (some (versioned 1)))) = true := by
    decide +kernel
  obtain ⟨store, run, ends⟩ := Run.of_any computed
  obtain ⟨answers, stale⟩ := Bool.and_eq_true_iff.mp ends
  have fresh := (claim _ _ _ _ _ run).later _ _ _ (answers_of_now answers)
  rw [now_of_fresh fresh] at stale
  cases stale

end HotStore

end MeridianCore.Instruments
