import MeridianCore.Domain.DateNumbers
import MeridianCore.Domain.DateOrder
import MeridianCore.Lake.Query
import MeridianCore.Lake.SeriesNames

/-! What a source declined: kept under its dataset, each subject and the date, range or latest its want asked, and answered for it
until it is asked again. -/

namespace MeridianCore.Lake

deriving instance DecidableEq for When

/-- Why a dataset answers nothing. -/
inductive UnansweredReason where
  | unspecified
  | notEntitled
  | notCovered
  | askedSource
  | sourceSilent
  | beyondHistory
  | notKept
  | quarantined
  deriving DecidableEq, Inhabited

inductive ObservationMode where
  | pull
  | stream
  deriving DecidableEq

/-- What a read asks of a dataset it could not answer from. -/
structure Ask where
  dataset : String
  subjects : List String
  dataType : DataType
  kinds : List Enumeration := []
  intervalNs : Int := 0
  «when» : When
  standing : Bool := false
  seriesKeys : List Identifier := []
  allSeries : Bool := false
  window : Window := {}

/-- A want as the instance serving its dataset hears it. -/
structure ObservationsWanted where
  dataset : String
  dataType : DataType
  subjects : List String
  kinds : List Enumeration
  intervalNs : Int
  businessDate : String
  validFromNs : Int
  validUntilNs : Int
  standing : Bool
  window : Window
  seriesKeys : List Identifier
  allSeries : Bool

/-- What readers' identical asks coalesce by. -/
structure WantKey where
  dataset : String
  dataType : DataType
  kinds : List Enumeration
  intervalNs : Int
  businessDate : String
  validFromNs : Int
  validUntilNs : Int
  standing : Bool
  subjects : List String
  named : List String
  allSeries : Bool
  deriving DecidableEq

/-- The date and the range a want carries of the time a read asks about. -/
def wantTimes : When → String × Int × Int
  | .businessDate date => (toString date, 0, 0)
  | .range fromNs untilNs => ("", fromNs, untilNs)
  | .latest _ | .after _ => ("", 0, 0)

def wantKey (ask : Ask) : WantKey :=
  let (date, from_, until_) := wantTimes ask.when
  { dataset := ask.dataset
    dataType := ask.dataType
    kinds := ask.kinds.insertionSort (· ≤ ·)
    intervalNs := ask.intervalNs
    businessDate := date
    validFromNs := from_
    validUntilNs := until_
    standing := ask.standing
    subjects := ask.subjects
    named := ((ask.seriesKeys.map seriesNamed).insertionSort (· ≤ ·)).dedup
    allSeries := ask.allSeries }

def wanted (ask : Ask) : ObservationsWanted :=
  let (date, from_, until_) := wantTimes ask.when
  { dataset := ask.dataset
    dataType := ask.dataType
    subjects := ask.subjects
    kinds := ask.kinds.insertionSort (· ≤ ·)
    intervalNs := ask.intervalNs
    businessDate := date
    validFromNs := from_
    validUntilNs := until_
    standing := ask.standing
    window := ask.window
    seriesKeys := ask.seriesKeys
    allSeries := ask.allSeries }

/-- A want open, coalescing readers' identical asks, and its subjects answered or declined. -/
structure OpenWant where
  key : WantKey
  event : ObservationsWanted
  settled : BTreeSet String := ∅

/-- What a want asked, as a decline is kept by: its business date, its range, or the latest at a time. -/
def When.asked : When → String
  | .businessDate date => "date " ++ toString date
  | .range fromNs untilNs => "range " ++ (toString fromNs ++ " " ++ toString untilNs)
  | .latest atNs => "latest " ++ toString atNs
  | .after _ => "after"

/-- The time a want asks about, as its event carries it. -/
def wantTime (event : ObservationsWanted) : When :=
  match Date.parse event.businessDate with
  | some date => .businessDate date
  | none => if event.validFromNs ≠ 0 ∨ event.validUntilNs ≠ 0 then .range event.validFromNs event.validUntilNs else .latest 0

def wantAsked (event : ObservationsWanted) : String := (wantTime event).asked

/-- What a decline is kept by. -/
structure DeclineKey where
  dataset : String
  subject : String
  asked : String
  deriving DecidableEq

namespace DeclineKey

def parts (key : DeclineKey) : List String := [key.dataset, key.subject, key.asked]

instance : Ord DeclineKey := ⟨compareOn parts⟩

instance : Std.TransOrd DeclineKey := inferInstanceAs (Std.TransCmp (compareOn parts))

instance : Std.LawfulEqOrd DeclineKey where
  eq_of_compare {a b} equal := by
    have same : a.parts = b.parts := Std.LawfulEqOrd.eq_of_compare equal
    cases a
    cases b
    simpa [parts] using same

end DeclineKey

/-- Each decline: its reason and when. -/
abbrev Declined := BTreeMap DeclineKey (UnansweredReason × Int)

/-- The wants open and what was declined. -/
structure Wants where
  opened : BTreeMap String OpenWant := ∅
  declined : Declined := ∅

/-- A want declined for some of its subjects. -/
structure DeclineWantRequest where
  wantId : String
  subjects : List String
  reason : UnansweredReason

namespace Wants

/-- The want one asks for: the one open that is asked the same, its window widened, or one opened under a new ID. -/
def want (wants : Wants) (ask : Ask) (id : String) : Wants :=
  match wants.opened.find? fun _ open_ => decide (open_.key = wantKey ask) with
  | some (held, open_) =>
    let window := if open_.event.window.covers ask.window then open_.event.window else open_.event.window.union ask.window
    { wants with opened := wants.opened.insert held { open_ with event := { open_.event with window } } }
  | none => { wants with opened := wants.opened.insert id { key := wantKey ask, event := wanted ask } }

/-- A want's subjects settled; the want closed where every subject is and it does not stand. -/
def settle (wants : Wants) (wantId : String) (subjects : List String) : Wants :=
  match wants.opened[wantId]? with
  | none => wants
  | some open_ =>
    let mine := subjects.filter open_.event.subjects.contains
    let settled := mine.foldl (fun settled subject => settled.insert subject) open_.settled
    if !open_.event.standing && decide (open_.event.subjects.length ≤ settled.size) then
      { wants with opened := wants.opened.erase wantId }
    else { wants with opened := wants.opened.insert wantId { open_ with settled } }

def decline (wants : Wants) (request : DeclineWantRequest) (instance_ : String) (nowNs : Int) : Except String Wants :=
  if request.reason ≠ .notCovered ∧ request.reason ≠ .sourceSilent ∧ request.reason ≠ .beyondHistory then
    .error "reason: not_covered, source_silent or beyond_history"
  else if ¬ (1 ≤ request.subjects.length ∧ request.subjects.length ≤ 500) then
    .error s!"subjects names {request.subjects.length}; 1 to 500"
  else
    match wants.opened[request.wantId]? with
    | none => .error ("want_id: no want " ++ request.wantId ++ " is open")
    | some open_ =>
      if Sidecar.instanceOf open_.event.dataset ≠ some instance_ then
        .error ("want_id: the want is of " ++ open_.event.dataset ++ ", which this instance does not serve")
      else
        let declined := request.subjects.foldl (fun declined subject =>
          declined.insert ⟨open_.event.dataset, subject, wantAsked open_.event⟩ (request.reason, nowNs)) wants.declined
        .ok ({ wants with declined }.settle request.wantId request.subjects)

end Wants

/-- How long a source's decline answers for it before it is asked again. -/
def declineStandsNs : Int := Date.nsPerDay

/-- What a dataset is declared and licensed to do. -/
structure Declaration where
  history : Int := 0
  modes : List ObservationMode := []
  kept : Bool := true

/-- What a read asks for that its declines are looked up by, and what it does not. -/
structure Read where
  dataType : DataType
  kinds : List Enumeration := []
  «when» : When
  seriesKeys : List Identifier := []
  allSeries : Bool := false

/-- Why a dataset holds nothing for a subject, and whether to ask it, where nothing it declined stands. -/
def undeclined (read : Read) (declaration : Declaration) (nowNs : Int) : UnansweredReason × Bool :=
  let beyond := match read.when with
    | .businessDate date => decide (0 < declaration.history) &&
      decide (date.daysSinceEpoch < (Date.ofUtcInstant nowNs).daysSinceEpoch - declaration.history)
    | _ => false
  let latest := decide (read.when = .latest 0)
  if beyond then (.beyondHistory, false)
  else if declaration.modes.contains .pull || (latest && declaration.modes.contains .stream) then (.askedSource, true)
  else if !declaration.kept then (.notKept, false)
  else (.notCovered, false)

/-- Why a dataset holds nothing for a subject, and whether to ask it. -/
def whyNot (read : Read) (config : String → Declaration) (declined : Declined) (nowNs : Int) (dataset subject : String) :
    UnansweredReason × Bool :=
  match declined[(⟨dataset, subject, read.when.asked⟩ : DeclineKey)]? with
  | some (reason, atNs) => if nowNs - atNs < declineStandsNs then (reason, false) else undeclined read (config dataset) nowNs
  | none => undeclined read (config dataset) nowNs

/-- A decline of a want's for one of the subjects it names. -/
structure Decline where
  want : ObservationsWanted
  subject : String
  reason : UnansweredReason
  atNs : Int

/-- What happens to wants: one asked for, one declined by an instance, one withdrawn or closed. -/
inductive WantAct where
  | wanted (ask : Ask) (id : String)
  | declined (request : DeclineWantRequest) (instance_ : String) (nowNs : Int)
  | withdrawn (wantId : String)

/-- The wants, what was asked for and what was declined, the last first. -/
structure Told where
  wants : Wants := {}
  asks : List Ask := []
  declines : List Decline := []

namespace Told

/-- The declines a request makes of a want open. -/
def made (told : Told) (request : DeclineWantRequest) (nowNs : Int) : List Decline :=
  match told.wants.opened[request.wantId]? with
  | some open_ => request.subjects.reverse.map fun subject => ⟨open_.event, subject, request.reason, nowNs⟩
  | none => []

def step (told : Told) : WantAct → Told
  | .wanted ask id => { told with wants := told.wants.want ask id, asks := ask :: told.asks }
  | .declined request instance_ nowNs =>
    match told.wants.decline request instance_ nowNs with
    | .ok wants => { told with wants, declines := told.made request nowNs ++ told.declines }
    | .error _ => told
  | .withdrawn wantId => { told with wants := { told.wants with opened := told.wants.opened.erase wantId } }

/-- What every run of wants leads to. -/
def after (acts : List WantAct) : Told := acts.foldl step {}

end Told

/-- Whether a decline is of the dataset, the subject and the time a read asks about. -/
def Decline.answers (decline : Decline) (read : Read) (dataset subject : String) : Bool :=
  decide (decline.want.dataset = dataset) && decide (decline.subject = subject) && decide (wantTime decline.want = read.when)

/-- Whether a decline answers a read still, and not what would be asked. -/
def StandsFor (told : Told) (read : Read) (nowNs : Int) (dataset subject : String) : Prop :=
  ∃ reason atNs, told.wants.declined[(⟨dataset, subject, read.when.asked⟩ : DeclineKey)]? = some (reason, atNs) ∧
    nowNs - atNs < declineStandsNs

/-- A want of the read's own: it names the subject, and asks for the read's data type and series. -/
def ReadsAs (want : ObservationsWanted) (read : Read) (subject : String) : Prop :=
  subject ∈ want.subjects ∧ want.dataType = read.dataType ∧ want.seriesKeys = read.seriesKeys ∧ want.allSeries = read.allSeries

/-- A read is answered with a decline only where a want of its own was declined, for the time it asks about. -/
def AnswersOwn (told : Told) (read : Read) (nowNs : Int) (dataset subject : String) : Prop :=
  StandsFor told read nowNs dataset subject →
    ∃ decline ∈ told.declines, decline.answers read dataset subject = true ∧ ReadsAs decline.want read subject

section asked
variable {a b : When}

theorem toString_int_inj {m n : Int} (same : toString m = toString n) : m = n := Int.repr_injective same

/-- A date, a range and the latest are each kept under a text of their own. -/
theorem asked_inj (point : ∀ watermark, a ≠ .after watermark) : a.asked = b.asked ↔ a = b := by
  constructor
  · intro same
    have chars := congrArg String.toList same
    cases a with
    | businessDate date =>
      cases b with
      | businessDate other =>
        simp only [When.asked, String.toList_append, List.append_cancel_left_eq] at chars
        have read := Date.parse_toString date
        rw [String.toList_inj.mp chars, Date.parse_toString] at read
        exact congrArg When.businessDate (Option.some.inj read).symm
      | _ => simp [When.asked] at chars
    | range fromNs untilNs =>
      cases b with
      | range fromNs' untilNs' =>
        simp only [When.asked, String.toList_append, List.append_cancel_left_eq] at chars
        have split : (toString fromNs).toList ++ ' ' :: (toString untilNs).toList =
            (toString fromNs').toList ++ ' ' :: (toString untilNs').toList := by simpa using chars
        obtain ⟨first, second⟩ := split_of_separator (free_int (by decide) (by decide) fromNs)
          (free_int (by decide) (by decide) fromNs') split
        rw [toString_int_inj (String.toList_inj.mp first), toString_int_inj (String.toList_inj.mp second)]
      | _ => simp [When.asked] at chars
    | latest atNs =>
      cases b with
      | latest atNs' =>
        simp only [When.asked, String.toList_append, List.append_cancel_left_eq] at chars
        rw [toString_int_inj (String.toList_inj.mp chars)]
      | _ => simp [When.asked] at chars
    | after watermark => exact absurd rfl (point watermark)
  · rintro rfl
    rfl

end asked

def Decline.key (decline : Decline) : DeclineKey := ⟨decline.want.dataset, decline.subject, wantAsked decline.want⟩

/-- The declines kept are the last of each key. -/
def KeepsLast (declined : Declined) (declines : List Decline) : Prop :=
  ∀ key : DeclineKey, declined[key]? = (declines.find? fun decline => decide (decline.key = key)).map fun decline => (decline.reason, decline.atNs)

/-- A want is one asked for, its window widened by others'. -/
def WantedBy (asks : List Ask) (want : ObservationsWanted) : Prop := ∃ ask ∈ asks, ∃ window, want = { wanted ask with window }

/-- What wants keep of what was asked and declined. -/
structure Tells (told : Told) : Prop where
  last : KeepsLast told.wants.declined told.declines
  opened : ∀ (id : String) (open_ : OpenWant), told.wants.opened[id]? = some open_ → WantedBy told.asks open_.event
  wanted : ∀ decline ∈ told.declines, WantedBy told.asks decline.want

section tells
variable {declined : Declined} {declines : List Decline} {asks : List Ask} {told : Told} {want : ObservationsWanted}

theorem keepsLast_cons (last : KeepsLast declined declines) (decline : Decline) :
    KeepsLast (declined.insert decline.key (decline.reason, decline.atNs)) (decline :: declines) := by
  intro key
  rw [Std.ExtTreeMap.getElem?_insert, List.find?_cons]
  by_cases same : decline.key = key
  · subst same
    simp
  · simp [same, last key]

theorem keepsLast_foldl (last : KeepsLast declined declines) (want : ObservationsWanted) (reason : UnansweredReason) (atNs : Int)
    (subjects : List String) : KeepsLast
      (subjects.foldl (fun declined subject => declined.insert ⟨want.dataset, subject, wantAsked want⟩ (reason, atNs)) declined)
      (subjects.reverse.map (fun subject => (⟨want, subject, reason, atNs⟩ : Decline)) ++ declines) := by
  induction subjects generalizing declined declines with
  | nil => exact last
  | cons subject rest ih =>
    rw [List.foldl_cons, List.reverse_cons, List.map_append, List.append_assoc]
    exact ih (keepsLast_cons last ⟨want, subject, reason, atNs⟩)

theorem WantedBy.cons (wantedBy : WantedBy asks want) (ask : Ask) : WantedBy (ask :: asks) want := by
  obtain ⟨earlier, member, window, same⟩ := wantedBy
  exact ⟨earlier, List.mem_cons_of_mem _ member, window, same⟩

theorem WantedBy.widened (wantedBy : WantedBy asks want) (window : Window) : WantedBy asks { want with window } := by
  obtain ⟨ask, member, held, rfl⟩ := wantedBy
  exact ⟨ask, member, window, rfl⟩

theorem wantTime_of_wantedBy (wantedBy : WantedBy asks want) : ∃ ask ∈ asks, want.dataset = ask.dataset ∧
    wantTime want = wantTime (Lake.wanted ask) := by
  obtain ⟨ask, member, window, rfl⟩ := wantedBy
  exact ⟨ask, member, rfl, rfl⟩

theorem opened_insert {P : OpenWant → Prop} {opened : BTreeMap String OpenWant} {id : String} {open_ : OpenWant} (new : P open_)
    (each : ∀ (id : String) (held : OpenWant), opened[id]? = some held → P held) :
    ∀ (other : String) (held : OpenWant), (opened.insert id open_)[other]? = some held → P held := by
  intro other held found
  rw [Std.ExtTreeMap.getElem?_insert] at found
  split at found
  · cases found
    exact new
  · exact each other held found

theorem opened_erase {P : OpenWant → Prop} {opened : BTreeMap String OpenWant} {id : String}
    (each : ∀ (id : String) (held : OpenWant), opened[id]? = some held → P held) :
    ∀ (other : String) (held : OpenWant), (opened.erase id)[other]? = some held → P held := by
  intro other held found
  rw [Std.ExtTreeMap.getElem?_erase] at found
  split at found
  · cases found
  · exact each other held found

theorem tells_wanted (tells : Tells told) (ask : Ask) (id : String) : Tells (told.step (.wanted ask id)) := by
  have earlier (other : String) (held : OpenWant) (found : told.wants.opened[other]? = some held) : WantedBy (ask :: told.asks) held.event :=
    (tells.opened other held found).cons ask
  refine ⟨?_, ?_, fun decline member => (tells.wanted decline member).cons ask⟩
  · unfold Told.step Wants.want
    dsimp only
    split <;> exact tells.last
  · unfold Told.step Wants.want
    dsimp only
    split
    · next held open_ found =>
      have inOpened := BTreeMap.mem_toList.mp (List.mem_of_find?_eq_some found)
      exact @opened_insert (fun open_ => WantedBy (ask :: told.asks) open_.event) _ _ _ ((earlier held open_ inOpened).widened _) earlier
    · exact @opened_insert (fun open_ => WantedBy (ask :: told.asks) open_.event) _ _ _ ⟨ask, List.mem_cons_self, ask.window, rfl⟩ earlier

theorem settle_declined (wants : Wants) (id : String) (subjects : List String) : (wants.settle id subjects).declined = wants.declined := by
  unfold Wants.settle
  split
  · rfl
  · dsimp only
    split <;> rfl

theorem opened_settle {P : ObservationsWanted → Prop} {wants : Wants} (id : String) (subjects : List String)
    (each : ∀ (id : String) (held : OpenWant), wants.opened[id]? = some held → P held.event) :
    ∀ (other : String) (held : OpenWant), (wants.settle id subjects).opened[other]? = some held → P held.event := by
  unfold Wants.settle
  split
  · exact each
  · next open_ found =>
    dsimp only
    split
    · exact @opened_erase (fun open_ => P open_.event) _ _ each
    · exact @opened_insert (fun open_ => P open_.event) _ _ _ (each id open_ found) each

theorem tells_declined (tells : Tells told) (request : DeclineWantRequest) (instance_ : String) (nowNs : Int) :
    Tells (told.step (.declined request instance_ nowNs)) := by
  unfold Told.step
  dsimp only
  split
  · next wants taken =>
    unfold Wants.decline at taken
    split at taken
    · cases taken
    · split at taken
      · cases taken
      · split at taken
        · cases taken
        · next open_ found =>
          split at taken
          · cases taken
          · cases taken
            have opened := tells.opened request.wantId open_ found
            have made : told.made request nowNs =
                request.subjects.reverse.map fun subject => ⟨open_.event, subject, request.reason, nowNs⟩ := by
              rw [Told.made, found]
            refine ⟨?_, opened_settle _ _ tells.opened, fun decline member => ?_⟩
            · dsimp only
              rw [settle_declined, made]
              exact keepsLast_foldl tells.last open_.event request.reason nowNs request.subjects
            · rcases List.mem_append.mp member with new | earlier
              · rw [made] at new
                obtain ⟨subject, -, rfl⟩ := List.mem_map.mp new
                exact opened
              · exact tells.wanted decline earlier
  · exact tells

theorem tells_step (tells : Tells told) (act : WantAct) : Tells (told.step act) := by
  cases act with
  | wanted ask id => exact tells_wanted tells ask id
  | declined request instance_ nowNs => exact tells_declined tells request instance_ nowNs
  | withdrawn wantId => exact ⟨tells.last, @opened_erase (fun open_ => WantedBy told.asks open_.event) _ _ tells.opened, tells.wanted⟩

theorem tells_after (acts : List WantAct) : Tells (Told.after acts) := by
  unfold Told.after
  have start : Tells {} := by
    refine ⟨fun key => rfl, fun id open_ found => ?_, fun decline member => ?_⟩
    · cases found
    · cases member
  generalize ({} : Told) = told at start
  induction acts generalizing told with
  | nil => exact start
  | cons act rest ih => exact ih _ (tells_step start act)

end tells

section answers
variable {read : Read} {dataset subject : String} {nowNs : Int}

theorem key_answers (point : ∀ watermark, read.when ≠ .after watermark) :
    (fun decline : Decline => decide (decline.key = ⟨dataset, subject, read.when.asked⟩)) =
      fun decline => decline.answers read dataset subject := by
  funext decline
  have texts : (wantTime decline.want).asked = read.when.asked ↔ wantTime decline.want = read.when := by
    rw [eq_comm, asked_inj point, eq_comm]
  rw [Bool.eq_iff_iff]
  simp only [Decline.answers, Decline.key, wantAsked, DeclineKey.mk.injEq, Bool.and_eq_true, decide_eq_true_eq, texts, and_assoc]

theorem declined_eq (acts : List WantAct) (point : ∀ watermark, read.when ≠ .after watermark) :
    (Told.after acts).wants.declined[(⟨dataset, subject, read.when.asked⟩ : DeclineKey)]? =
      ((Told.after acts).declines.find? fun decline => decline.answers read dataset subject).map
        fun decline => (decline.reason, decline.atNs) := by
  rw [(tells_after acts).last, key_answers point]

/-- A decline stands for a read where the last of its dataset, subject and time was made within a day. -/
theorem standsFor_iff (acts : List WantAct) (point : ∀ watermark, read.when ≠ .after watermark) :
    StandsFor (Told.after acts) read nowNs dataset subject ↔
      ∃ decline, (Told.after acts).declines.find? (fun decline => decline.answers read dataset subject) = some decline ∧
        nowNs - decline.atNs < declineStandsNs := by
  unfold StandsFor
  rw [declined_eq acts point]
  constructor
  · rintro ⟨reason, atNs, found, stands⟩
    obtain ⟨decline, last, same⟩ := Option.map_eq_some_iff.mp found
    cases same
    exact ⟨decline, last, stands⟩
  · rintro ⟨decline, last, stands⟩
    exact ⟨_, _, by rw [last]; rfl, stands⟩

/-- What answers a read of a dataset and a subject: the last decline of the dataset for the subject and the time asked, for a day;
and otherwise what would be were nothing declined. -/
theorem whyNot_eq (acts : List WantAct) (config : String → Declaration) (point : ∀ watermark, read.when ≠ .after watermark) :
    whyNot read config (Told.after acts).wants.declined nowNs dataset subject =
      match (Told.after acts).declines.find? fun decline => decline.answers read dataset subject with
      | some decline =>
        if nowNs - decline.atNs < declineStandsNs then (decline.reason, false) else undeclined read (config dataset) nowNs
      | none => undeclined read (config dataset) nowNs := by
  unfold whyNot
  rw [declined_eq acts point]
  cases (Told.after acts).declines.find? fun decline => decline.answers read dataset subject <;> rfl

end answers

/-- After every run a decline answers only what it declined exactly where the last decline of the dataset for the subject and the
time asked is a day old, or a want of the read's own was declined for that time; so where every want declined of the dataset for
the subject is the read's own. A read no decline stands for is answered as where nothing was declined. -/
theorem declines_answer_own (acts : List WantAct) (read : Read) (nowNs : Int) (dataset subject : String)
    (point : ∀ watermark, read.when ≠ .after watermark) :
    (AnswersOwn (Told.after acts) read nowNs dataset subject ↔
      ∀ decline, (Told.after acts).declines.find? (fun decline => decline.answers read dataset subject) = some decline →
        nowNs - decline.atNs < declineStandsNs → ∃ own ∈ (Told.after acts).declines, own.answers read dataset subject = true ∧
          ReadsAs own.want read subject) ∧
    ((∀ decline ∈ (Told.after acts).declines, decline.want.dataset = dataset → decline.subject = subject →
      ReadsAs decline.want read subject) → AnswersOwn (Told.after acts) read nowNs dataset subject) ∧
    (∀ decline ∈ (Told.after acts).declines, ∃ ask ∈ (Told.after acts).asks, decline.want.dataset = ask.dataset ∧
      wantTime decline.want = wantTime (wanted ask)) ∧
    ∀ config : String → Declaration, ¬ StandsFor (Told.after acts) read nowNs dataset subject →
      whyNot read config (Told.after acts).wants.declined nowNs dataset subject = undeclined read (config dataset) nowNs := by
  have exact_ : AnswersOwn (Told.after acts) read nowNs dataset subject ↔
      ∀ decline, (Told.after acts).declines.find? (fun decline => decline.answers read dataset subject) = some decline →
        nowNs - decline.atNs < declineStandsNs → ∃ own ∈ (Told.after acts).declines, own.answers read dataset subject = true ∧
          ReadsAs own.want read subject := by
    unfold AnswersOwn
    rw [standsFor_iff acts point]
    exact ⟨fun own decline last stands => own ⟨decline, last, stands⟩, fun each ⟨decline, last, stands⟩ => each decline last stands⟩
  refine ⟨exact_, fun each => exact_.mpr fun decline last stands => ?_,
    fun decline member => wantTime_of_wantedBy ((tells_after acts).wanted decline member), fun config lapsed => ?_⟩
  · have member := List.mem_of_find?_eq_some last
    have answers : decline.answers read dataset subject = true :=
      @List.find?_some _ (fun decline : Decline => decline.answers read dataset subject) _ _ last
    have same := answers
    simp only [Decline.answers, Bool.and_eq_true, decide_eq_true_eq] at same
    exact ⟨decline, member, answers, each decline member same.1.1 same.1.2⟩
  · rw [standsFor_iff acts point] at lapsed
    rw [whyNot_eq acts config point]
    cases last : (Told.after acts).declines.find? fun decline => decline.answers read dataset subject with
    | none => rfl
    | some decline => exact if_neg fun stands => lapsed ⟨decline, last, stands⟩

/-- A want of prices, then its decline. -/
def pricesDeclined : List WantAct :=
  [.wanted { dataset := "feed:eod", subjects := ["INS-1"], dataType := .price, «when» := .latest 0 } "WANT-1",
    .declined ⟨"WANT-1", ["INS-1"], .notCovered⟩ "feed" 1000]

def tradesLatest : Read := { dataType := .trade, «when» := .latest 0 }

/-- Prices declined answer a read of trades, which no want asked for. -/
theorem trades_declined_by_prices : ¬ AnswersOwn (Told.after pricesDeclined) tradesLatest 2000 "feed:eod" "INS-1" ∧
    whyNot tradesLatest (fun _ => { modes := [.pull] }) (Told.after pricesDeclined).wants.declined 2000 "feed:eod" "INS-1" =
      (.notCovered, false) := by
  have declined : (Told.after pricesDeclined).wants.declined[(⟨"feed:eod", "INS-1", tradesLatest.when.asked⟩ : DeclineKey)]? =
      some (.notCovered, 1000) := by decide +kernel
  have types : ∀ decline ∈ (Told.after pricesDeclined).declines, decline.want.dataType = .price := by decide +kernel
  constructor
  · intro own
    obtain ⟨decline, member, -, -, same, -⟩ := own ⟨_, _, declined, by decide⟩
    rw [types decline member] at same
    cases same
  · unfold whyNot
    rw [declined]
    rfl

/-- A read of prices is answered with their decline alone. -/
theorem prices_declined_own : AnswersOwn (Told.after pricesDeclined) { dataType := .price, «when» := .latest 0 } 2000 "feed:eod" "INS-1" := by
  have answers := declines_answer_own pricesDeclined { dataType := .price, «when» := .latest 0 } 2000 "feed:eod" "INS-1"
    (fun watermark => by rintro ⟨⟩)
  refine answers.2.1 fun decline member _ _ => ?_
  have own : ∀ decline ∈ (Told.after pricesDeclined).declines, "INS-1" ∈ decline.want.subjects ∧ decline.want.dataType = .price ∧
      decline.want.seriesKeys = [] ∧ decline.want.allSeries = false := by decide +kernel
  exact own decline member

end MeridianCore.Lake
