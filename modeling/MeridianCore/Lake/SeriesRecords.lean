import MeridianCore.Lake.SeriesNames
import MeridianCore.Ordered.Run

namespace MeridianCore.Lake

def seriesAskedAtOnce : Nat := 32

def seriesRecordsKept : Nat := 200000

/-- What the instrument store answers of a series key it is asked for. -/
structure Resolved where
  found : Bool := false
  minted : Bool := false
  provisional : Bool := false
  instrumentId : String := ""
  deriving DecidableEq

/-- What a series' record is remembered under. -/
def recordName (key : List Identifier) : String :=
  String.intercalate "\u001e" (key.map fun i => s!"{i.scheme}\u001f{i.value}")

/-- One read's series, each with the record it is answered with so far, empty where none is held, and the
places the store has still to be asked for. -/
structure SeriesAsking where
  keys : List (List Identifier)
  out : List String
  asking : List Nat
  deriving DecidableEq

/-- The records remembered, and the reads that ask for them. -/
structure SeriesRecords where
  known : BTreeMap String String := ∅
  reads : List SeriesAsking := []

inductive SeriesEvent where
  /-- A read takes what is remembered. -/
  | look (keys : List (List Identifier))
  /-- The store's answers to one read's next keys, in the order they come; one that failed carries none. -/
  | answered (read : Nat) (answers : List (Nat × Option Resolved))

namespace SeriesRecords

def look (known : BTreeMap String String) (keys : List (List Identifier)) : SeriesAsking :=
  let out := keys.map fun key => known[recordName key]?.getD ""
  { keys, out, asking := (List.range keys.length).filter fun i => out.getD i "" = "" && !(keys.getD i []).isEmpty }

/-- One answer kept: a record found, neither minted nor provisional. -/
def keepAnswer (kept : BTreeMap String String × SeriesAsking) (answer : Nat × Option Resolved) :
    BTreeMap String String × SeriesAsking :=
  match answer.2 with
  | none => kept
  | some reply =>
    if reply.found && !reply.minted && !reply.provisional then
      (kept.1.insert (recordName (kept.2.keys.getD answer.1 [])) reply.instrumentId,
        { kept.2 with out := kept.2.out.set answer.1 reply.instrumentId })
    else kept

def answer (known : BTreeMap String String) (read : SeriesAsking) (answers : List (Nat × Option Resolved)) :
    BTreeMap String String × SeriesAsking :=
  let known := if known.size > seriesRecordsKept then ∅ else known
  answers.foldl keepAnswer (known, { read with asking := read.asking.drop seriesAskedAtOnce })

/-- One step, the instrument store's answers being what `store` says it may answer of a key. -/
inductive Step (store : List Identifier → Resolved → Prop) : SeriesRecords → SeriesEvent → SeriesRecords → Prop where
  | look (records : SeriesRecords) (keys : List (List Identifier)) :
      Step store records (.look keys) { records with reads := records.reads ++ [SeriesRecords.look records.known keys] }
  | answered {records : SeriesRecords} {i : Nat} {read : SeriesAsking} {answers : List (Nat × Option Resolved)}
      (asks : records.reads[i]? = some read)
      (next : ∀ answer ∈ answers, answer.1 ∈ read.asking.take seriesAskedAtOnce)
      (stored : ∀ answer ∈ answers, ∀ reply, answer.2 = some reply → store (read.keys.getD answer.1 []) reply) :
      Step store records (.answered i answers) {
        known := (SeriesRecords.answer records.known read answers).1
        reads := records.reads.set i (SeriesRecords.answer records.known read answers).2 }

end SeriesRecords

/-- The instrument store may answer a key with a record it holds. -/
def RecordOf (store : List Identifier → Resolved → Prop) (key : List Identifier) (record : String) : Prop :=
  ∃ reply, store key reply ∧ reply.found = true ∧ reply.minted = false ∧ reply.provisional = false ∧
    reply.instrumentId = record

/-- Every series of every read is answered with a record the store answered its own key with, or none. -/
def EachItsOwn (store : List Identifier → Resolved → Prop) (records : SeriesRecords) : Prop :=
  ∀ read ∈ records.reads, ∀ (i : Nat) (key : List Identifier) (record : String),
    read.keys[i]? = some key → read.out[i]? = some record → record = "" ∨ RecordOf store key record

/-- Every key a read names is none, or one of those identifiers. -/
def AsksOnly (asked : Identifier → Prop) : SeriesEvent → Prop
  | .look keys => ∀ key ∈ keys, key = [] ∨ ∃ a, key = [a] ∧ asked a
  | .answered _ _ => True

section Own

variable {store : List Identifier → Resolved → Prop} {asked : Identifier → Prop}

/-- What is remembered is the record of a key it is remembered under. -/
def OwnKnown (store : List Identifier → Resolved → Prop) (asked : Identifier → Prop) (known : BTreeMap String String) :
    Prop :=
  ∀ name record, known[name]? = some record → ∃ a, asked a ∧ recordName [a] = name ∧ RecordOf store [a] record

structure OwnRead (store : List Identifier → Resolved → Prop) (asked : Identifier → Prop) (read : SeriesAsking) : Prop where
  keys : ∀ key ∈ read.keys, key = [] ∨ ∃ a, key = [a] ∧ asked a
  out : ∀ (i : Nat) (key : List Identifier) (record : String), read.keys[i]? = some key → read.out[i]? = some record →
    record = "" ∨ RecordOf store key record
  asking : ∀ i ∈ read.asking, ∃ a, read.keys[i]? = some [a] ∧ asked a

structure Own (store : List Identifier → Resolved → Prop) (asked : Identifier → Prop) (records : SeriesRecords) : Prop where
  known : OwnKnown store asked records.known
  reads : ∀ read ∈ records.reads, OwnRead store asked read

theorem recordName_one (a : Identifier) : recordName [a] = s!"{a.scheme}\u001f{a.value}" := rfl

theorem recordName_ne_empty (a : Identifier) : recordName [a] ≠ "" := by
  intro empty
  have listed := congrArg String.toList empty
  rw [recordName_one] at listed
  simp [toString] at listed

/-- A record is remembered under its identifier's scheme and value alone. -/
theorem parts_of_recordName {a b : Identifier} (admitted : seriesKeyProblem [a] = none)
    (admitted' : seriesKeyProblem [b] = none) (same : recordName [a] = recordName [b]) :
    a.scheme = b.scheme ∧ a.value = b.value := by
  have free {c : Identifier} (admitted : seriesKeyProblem [c] = none) : '\u001f' ∉ c.scheme.toList := by
    rcases scheme_of_admitted admitted with occ | ticker
    · rw [occ]
      decide
    · rw [ticker]
      decide
  have listed : a.scheme.toList ++ '\u001f' :: a.value.toList = b.scheme.toList ++ '\u001f' :: b.value.toList := by
    simpa [recordName_one, toString] using congrArg String.toList same
  obtain ⟨scheme, value⟩ := split_of_separator (free admitted) (free admitted') listed
  exact ⟨String.toList_injective scheme, String.toList_injective value⟩

variable (admitted : ∀ a, asked a → seriesKeyProblem [a] = none)
  (apart : ∀ a b, asked a → asked b → a.scheme = b.scheme → a.value = b.value → a.source = b.source)

include admitted apart in
theorem eq_of_recordName {a b : Identifier} (asks : asked a) (asks' : asked b) (same : recordName [a] = recordName [b]) :
    a = b := by
  obtain ⟨scheme, value⟩ := parts_of_recordName (admitted a asks) (admitted b asks') same
  have source := apart a b asks asks' scheme value
  cases a
  cases b
  exact congr (congr (congrArg Identifier.mk scheme) value) source

include admitted apart in
theorem OwnRead.look {known : BTreeMap String String} (own : OwnKnown store asked known) {keys : List (List Identifier)}
    (only : AsksOnly asked (.look keys)) : OwnRead store asked (SeriesRecords.look known keys) := by
  refine ⟨only, fun i key record listed answered => ?_, fun i member => ?_⟩
  · have taken : record = known[recordName key]?.getD "" := by
      have listed : keys[i]? = some key := listed
      simpa [SeriesRecords.look, listed] using answered.symm
    cases remembered : known[recordName key]? with
    | none => exact .inl (by rw [taken, remembered, Option.getD_none])
    | some held =>
      obtain ⟨b, asks, named, answer⟩ := own _ _ remembered
      rw [taken, remembered, Option.getD_some]
      rcases only key (List.mem_of_getElem? listed) with rfl | ⟨a, rfl, asks'⟩
      · exact absurd named (recordName_ne_empty b)
      · exact .inr (eq_of_recordName admitted apart asks asks' named ▸ answer)
  · obtain ⟨inside, bare⟩ := List.mem_filter.mp member
    have inside : i < keys.length := List.mem_range.mp inside
    have listed : keys[i]? = some keys[i] := List.getElem?_eq_getElem inside
    rcases only keys[i] (List.getElem_mem inside) with empty | ⟨a, key, asks⟩
    · rw [Bool.and_eq_true] at bare
      have kept := bare.2
      rw [List.getD_eq_getElem?_getD, listed, Option.getD_some, empty] at kept
      cases kept
    · exact ⟨a, by rw [← key]; exact listed, asks⟩

/-- One answer kept is its own key's record, and is remembered as that key's. -/
theorem own_keepAnswer {kept : BTreeMap String String × SeriesAsking} {answer : Nat × Option Resolved}
    (known : OwnKnown store asked kept.1) (read : OwnRead store asked kept.2)
    (asks : ∃ a, kept.2.keys[answer.1]? = some [a] ∧ asked a)
    (stored : ∀ reply, answer.2 = some reply → store (kept.2.keys.getD answer.1 []) reply) :
    OwnKnown store asked (SeriesRecords.keepAnswer kept answer).1 ∧
      OwnRead store asked (SeriesRecords.keepAnswer kept answer).2 ∧
      (SeriesRecords.keepAnswer kept answer).2.keys = kept.2.keys := by
  unfold SeriesRecords.keepAnswer
  cases given : answer.2 with
  | none => exact ⟨known, read, rfl⟩
  | some reply =>
    dsimp only
    split
    · next held =>
      simp only [Bool.and_eq_true, Bool.not_eq_true'] at held
      obtain ⟨a, listed, asks⟩ := asks
      have key : kept.2.keys.getD answer.1 [] = [a] := by
        rw [List.getD_eq_getElem?_getD, listed, Option.getD_some]
      have found : RecordOf store [a] reply.instrumentId :=
        ⟨reply, key ▸ stored reply given, held.1.1, held.1.2, held.2, rfl⟩
      refine ⟨fun name record remembered => ?_, ⟨read.keys, fun i key' record listed' taken => ?_, read.asking⟩, rfl⟩
      · rw [key, Std.ExtTreeMap.getElem?_insert] at remembered
        split at remembered
        · next same =>
          cases remembered
          exact ⟨a, asks, Std.LawfulEqOrd.eq_of_compare same, found⟩
        · exact known name record remembered
      · dsimp only at listed' taken
        by_cases same : answer.1 = i
        · subst same
          rw [List.getElem?_set_self'] at taken
          cases before : kept.2.out[answer.1]? with
          | none => simp [before] at taken
          | some old =>
            rw [before] at taken
            cases taken
            rw [listed] at listed'
            cases listed'
            exact .inr found
        · rw [List.getElem?_set_ne same] at taken
          exact read.out i key' record listed' taken
    · exact ⟨known, read, rfl⟩

theorem own_answer {known : BTreeMap String String} {read : SeriesAsking} {answers : List (Nat × Option Resolved)}
    (own : OwnKnown store asked known) (owns : OwnRead store asked read)
    (next : ∀ answer ∈ answers, answer.1 ∈ read.asking.take seriesAskedAtOnce)
    (stored : ∀ answer ∈ answers, ∀ reply, answer.2 = some reply → store (read.keys.getD answer.1 []) reply) :
    OwnKnown store asked (SeriesRecords.answer known read answers).1 ∧
      OwnRead store asked (SeriesRecords.answer known read answers).2 := by
  have kept (answers : List (Nat × Option Resolved)) (kept : BTreeMap String String × SeriesAsking)
      (same : kept.2.keys = read.keys) (known : OwnKnown store asked kept.1) (owns' : OwnRead store asked kept.2)
      (next : ∀ answer ∈ answers, answer.1 ∈ read.asking.take seriesAskedAtOnce)
      (stored : ∀ answer ∈ answers, ∀ reply, answer.2 = some reply → store (read.keys.getD answer.1 []) reply) :
      OwnKnown store asked (answers.foldl SeriesRecords.keepAnswer kept).1 ∧
        OwnRead store asked (answers.foldl SeriesRecords.keepAnswer kept).2 := by
    induction answers generalizing kept with
    | nil => exact ⟨known, owns'⟩
    | cons answer rest ih =>
      obtain ⟨known', owns'', same'⟩ := own_keepAnswer known owns'
        (by rw [same]; exact owns.asking _ (List.mem_of_mem_take (next answer List.mem_cons_self)))
        (by rw [same]; exact stored answer List.mem_cons_self)
      exact ih _ (same'.trans same) known' owns'' (fun other member => next other (List.mem_cons_of_mem _ member))
        fun other member => stored other (List.mem_cons_of_mem _ member)
  unfold SeriesRecords.answer
  refine kept answers _ rfl ?_ ⟨owns.keys, owns.out, fun i member => owns.asking i (List.mem_of_mem_drop member)⟩ next stored
  dsimp only
  split
  · intro name record remembered
    simp at remembered
  · exact own

include admitted apart in
/-- What one step of the lake's reads preserves. -/
theorem Own.step {records after : SeriesRecords} {event : SeriesEvent} (own : Own store asked records)
    (only : AsksOnly asked event) (step : SeriesRecords.Step store records event after) : Own store asked after := by
  cases step with
  | look keys =>
    refine ⟨own.known, fun read member => ?_⟩
    rcases List.mem_append.mp member with before | new
    · exact own.reads read before
    · rw [List.mem_singleton.mp new]
      exact OwnRead.look admitted apart own.known only
  | answered asks next stored =>
    obtain ⟨known, read'⟩ := own_answer own.known (own.reads _ (List.mem_of_getElem? asks)) next stored
    refine ⟨known, fun read member => ?_⟩
    rcases List.mem_or_eq_of_mem_set member with before | rfl
    · exact own.reads read before
    · exact read'

include admitted apart in
/-- In a run whose reads name no value of one scheme under two sources, every series is answered with the
record of its own identifier. -/
theorem each_its_own {events : List SeriesEvent} {records : SeriesRecords}
    (run : Run (fun state event next => AsksOnly asked event ∧ SeriesRecords.Step store state event next) {} events
      records) : EachItsOwn store records := by
  have own : Own store asked records := by
    refine run.invariant_of (Own store asked) ⟨fun name record remembered => ?_, fun read member => ?_⟩ ?_
    · simp at remembered
    · exact absurd member List.not_mem_nil
    · intro state event next own only step
      exact own.step admitted apart only step
  intro read member
  exact (own.reads read member).out

end Own

/-- Two series' identifiers are named alike wherever series are told apart exactly when they are spelled
alike; and in a run whose reads name no value of one scheme under two sources, every series is answered
with the record of its own identifier. -/
theorem named_and_answered_iff (a b : Identifier) (admitted : seriesKeyProblem [a] = none)
    (admitted' : seriesKeyProblem [b] = none) :
    (NamedAlike a b ↔ SpelledAlike a b) ∧
      ∀ (store : List Identifier → Resolved → Prop) (asked : Identifier → Prop),
        (∀ a, asked a → seriesKeyProblem [a] = none) →
        (∀ a b, asked a → asked b → a.scheme = b.scheme → a.value = b.value → a.source = b.source) →
        ∀ events records, Run (fun state event next => AsksOnly asked event ∧ SeriesRecords.Step store state event next)
          {} events records → EachItsOwn store records :=
  ⟨namedAlike_iff admitted admitted', fun _ _ admitted apart _ _ run => each_its_own admitted apart run⟩

/-- A future's ticker on one venue. -/
def december (venue : String) : Identifier where
  scheme := tickerScheme
  value := "ESZ6"
  source := venue

def futureHeld : Resolved where
  found := true
  instrumentId := "INS-1"

/-- The store holds the future of one venue only. -/
def heldOnOne (key : List Identifier) (reply : Resolved) : Prop := key = [december "XCME"] ∧ reply = futureHeld

/-- The first venue's future asked for. -/
def firstAsked : SeriesRecords := { reads := [SeriesRecords.look ∅ [[december "XCME"]]] }

/-- And answered. -/
def firstAnswered : SeriesRecords where
  known := (SeriesRecords.answer ∅ (SeriesRecords.look ∅ [[december "XCME"]]) [(0, some futureHeld)]).1
  reads := [(SeriesRecords.answer ∅ (SeriesRecords.look ∅ [[december "XCME"]]) [(0, some futureHeld)]).2]

theorem first_asked : SeriesRecords.Step heldOnOne {} (.look [[december "XCME"]]) firstAsked := .look _ _

theorem first_answered : SeriesRecords.Step heldOnOne firstAsked (.answered 0 [(0, some futureHeld)]) firstAnswered := by
  refine .answered rfl (by decide +kernel) fun answer member reply given => ?_
  rw [List.mem_singleton.mp member] at given ⊢
  cases given
  exact ⟨rfl, rfl⟩

theorem named_and_answered_december :
    (NamedAlike (december "XCME") (december "XLON") ↔ SpelledAlike (december "XCME") (december "XLON")) ∧
      EachItsOwn heldOnOne firstAnswered := by
  have settled := named_and_answered_iff (december "XCME") (december "XLON") (by decide) (by decide)
  have quiet : AsksOnly (fun a => a = december "XCME") (.answered 0 [(0, some futureHeld)]) := trivial
  refine ⟨settled.1, settled.2 heldOnOne (fun a => a = december "XCME") ?_ ?_ _ firstAnswered
    (((Run.nil _).snoc ⟨?_, first_asked⟩).snoc ⟨quiet, first_answered⟩)⟩
  · rintro a rfl
    decide
  · rintro a b rfl rfl _ _
    rfl
  · intro key member
    exact .inr ⟨_, List.mem_singleton.mp member, rfl⟩

/-- The second venue's read after it. -/
def bothRead : SeriesRecords :=
  { firstAnswered with reads := firstAnswered.reads ++ [SeriesRecords.look firstAnswered.known [[december "XLON"]]] }

/-- One ticker with its venue in capitals and in small letters is one series to a read and two to the text
its rows are stored by; and the same ticker on another venue is answered with the first venue's record. -/
theorem december_named_apart :
    (seriesKeyProblem [december "XCME"] = none ∧ seriesKeyProblem [december "xcme"] = none ∧
      ¬ NamedAlike (december "XCME") (december "xcme")) ∧
    ∃ events, Run (SeriesRecords.Step heldOnOne) {} events bothRead ∧ ¬ EachItsOwn heldOnOne bothRead := by
  refine ⟨⟨by decide, by decide, fun alike => ?_⟩, _,
    (((Run.nil _).snoc first_asked).snoc first_answered).snoc (.look _ [[december "XLON"]]), fun own => ?_⟩
  · have spelled := (namedAlike_iff (by decide) (by decide)).mp alike
    exact absurd (spelled.source rfl rfl fun _ => by decide) (by decide)
  · have listed : bothRead.reads[1]? = some (SeriesRecords.look firstAnswered.known [[december "XLON"]]) := rfl
    have answered : (SeriesRecords.look firstAnswered.known [[december "XLON"]]).out[0]? = some "INS-1" := by
      decide +kernel
    rcases own _ (List.mem_of_getElem? listed) 0 [december "XLON"] "INS-1" rfl answered with none_ | ⟨reply, stored, _⟩
    · exact absurd none_ (by decide)
    · exact absurd stored.1 (by decide)

end MeridianCore.Lake
