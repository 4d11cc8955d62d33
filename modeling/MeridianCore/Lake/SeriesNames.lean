import MeridianCore.Domain.Text
import MeridianCore.Sidecar.Subscriptions

namespace MeridianCore.Lake

def isAsciiAlphanumeric (c : Char) : Bool :=
  ('0' ≤ c && c ≤ '9') || ('A' ≤ c && c ≤ 'Z') || ('a' ≤ c && c ≤ 'z')

/-- Two texts the same but for the case of their ASCII letters. -/
def eqIgnoreAsciiCase (a b : String) : Bool := a.toList.map Char.toLower == b.toList.map Char.toLower

def toAsciiUppercase (text : String) : String := String.ofList (text.toList.map Char.toUpper)

/-- What a series key lacks, if anything: the path under the key that is wrong, empty for the key itself,
and why. A key is one identifier: an option's symbol, or a ticker carrying its venue's MIC in its source. -/
def seriesKeyProblem (key : List Identifier) : Option (String × String) :=
  match key with
  | [identifier] =>
    if Text.trim identifier.scheme = "" ∨ Text.trim identifier.value = "" then some ("[0]", "names a scheme and a value")
    else if identifier.scheme = occOsiScheme then none
    else if identifier.scheme = tickerScheme then
      let mic := Text.trim identifier.source
      if mic.utf8ByteSize ≠ 4 ∨ mic.toList.all isAsciiAlphanumeric = false then
        some ("[0].source", "a ticker carries its venue's ISO 10383 MIC, four letters or digits")
      else none
    else some ("[0].scheme",
      s!"\"{identifier.scheme}\" keys no series; occ_osi, or ticker with its venue's MIC in source")
  | key => some ("",
    s!"names {key.length}; one identifier, an occ_osi symbol or a ticker carrying its venue's MIC in source")

/-- Whether a row keyed by `key` is one a read asked for: a row keyed by no series always; a series' row
where the read asks for every series, or names its key, the same scheme and value, and for a ticker the
same venue. -/
def seriesAsked (key asked : List Identifier) (all : Bool) : Bool :=
  if key.isEmpty || all then true
  else key.any fun identifier => asked.any fun a =>
    a.scheme = identifier.scheme && a.value = identifier.value &&
      (identifier.scheme ≠ tickerScheme || eqIgnoreAsciiCase a.source identifier.source)

/-- A series key as the window's listing is matched by: its scheme and value, and for a ticker its venue's
MIC, as `seriesAsked` matches one. -/
def seriesNamed (identifier : Identifier) : String :=
  if identifier.scheme = tickerScheme then
    let venue := toAsciiUppercase identifier.source
    s!"{identifier.scheme}\u001f{identifier.value}\u001f{venue}"
  else s!"{identifier.scheme}\u001f{identifier.value}"

/-- The places that tell two series apart agree: a read of one answers the other's rows exactly when the
lake, a sidecar and the text rows are stored and conflated by name them equally. -/
structure NamedAlike (a b : Identifier) : Prop where
  lake : seriesAsked [a] [b] false = true ↔ seriesNamed a = seriesNamed b
  sidecar : seriesAsked [a] [b] false = true ↔ Sidecar.seriesNamed a = Sidecar.seriesNamed b
  text : seriesAsked [a] [b] false = true ↔ seriesKeyText [a] = seriesKeyText [b]

/-- A symbol with its source after it, as a key's text spells it. -/
def symbolText (identifier : Identifier) : String :=
  if identifier.source = "" then identifier.value else s!"{identifier.value}@{identifier.source}"

/-- Two identifiers of one series are spelled alike, a ticker's venue in one case and a symbol under one
source, and two symbols do not run into each other's sources. -/
structure SpelledAlike (a b : Identifier) : Prop where
  source : a.scheme = b.scheme → a.value = b.value →
    (a.scheme = tickerScheme → eqIgnoreAsciiCase b.source a.source = true) → a.source = b.source
  value : a.scheme = occOsiScheme → b.scheme = occOsiScheme → symbolText a = symbolText b → a.value = b.value

theorem toNat_toUpper (c : Char) : c.toUpper.toNat = if 97 ≤ c.toNat ∧ c.toNat ≤ 122 then c.toNat - 32 else c.toNat := by
  unfold Char.toUpper
  have low : 'a'.val ≤ c.val ↔ 97 ≤ c.toNat := UInt32.le_iff_toNat_le
  have high : c.val ≤ 'z'.val ↔ c.toNat ≤ 122 := UInt32.le_iff_toNat_le
  by_cases letter : 97 ≤ c.toNat ∧ c.toNat ≤ 122
  · rw [dif_pos ⟨low.mpr letter.1, high.mpr letter.2⟩, if_pos letter]
    change (c.val + ('A'.val - 'a'.val)).toNat = c.toNat - 32
    have inside : c.val.toNat = c.toNat := rfl
    rw [UInt32.toNat_add, inside, show ('A'.val - 'a'.val : UInt32).toNat = 4294967264 from rfl]
    omega
  · rw [dif_neg fun inside => letter ⟨low.mp inside.1, high.mp inside.2⟩, if_neg letter]

theorem toNat_toLower (c : Char) : c.toLower.toNat = if 65 ≤ c.toNat ∧ c.toNat ≤ 90 then c.toNat + 32 else c.toNat := by
  unfold Char.toLower
  have low : c.val ≥ 'A'.val ↔ 65 ≤ c.toNat := UInt32.le_iff_toNat_le
  have high : c.val ≤ 'Z'.val ↔ c.toNat ≤ 90 := UInt32.le_iff_toNat_le
  by_cases letter : 65 ≤ c.toNat ∧ c.toNat ≤ 90
  · rw [dif_pos ⟨low.mpr letter.1, high.mpr letter.2⟩, if_pos letter]
    change (c.val + ('a'.val - 'A'.val)).toNat = c.toNat + 32
    have inside : c.val.toNat = c.toNat := rfl
    rw [UInt32.toNat_add, inside, show ('a'.val - 'A'.val : UInt32).toNat = 32 from rfl]
    omega
  · rw [dif_neg fun inside => letter ⟨low.mp inside.1, high.mp inside.2⟩, if_neg letter]

theorem char_eq_iff {c d : Char} : c = d ↔ c.toNat = d.toNat :=
  ⟨congrArg Char.toNat, fun same => Char.ext (UInt32.toNat_inj.mp same)⟩

/-- Two characters are one letter in lower case exactly when they are in upper case. -/
theorem toLower_eq_iff {c d : Char} : c.toLower = d.toLower ↔ c.toUpper = d.toUpper := by
  rw [char_eq_iff, char_eq_iff, toNat_toLower, toNat_toLower, toNat_toUpper, toNat_toUpper]
  split_ifs <;> omega

theorem map_toLower_eq_iff {a b : List Char} : a.map Char.toLower = b.map Char.toLower ↔ a.map Char.toUpper = b.map Char.toUpper := by
  induction a generalizing b with
  | nil => cases b <;> simp
  | cons c rest ih =>
    cases b with
    | nil => simp
    | cons d rest' => simp only [List.map_cons, List.cons.injEq, ih, toLower_eq_iff]

theorem eqIgnoreAsciiCase_iff {a b : String} : eqIgnoreAsciiCase a b = true ↔ toAsciiUppercase a = toAsciiUppercase b := by
  unfold eqIgnoreAsciiCase toAsciiUppercase
  rw [beq_iff_eq, map_toLower_eq_iff]
  exact ⟨congrArg String.ofList, fun same => by simpa using congrArg String.toList same⟩

theorem mem_or_mem_dropWhile {p : Char → Bool} {c : Char} {text : List Char} (member : c ∈ text) :
    p c = true ∨ c ∈ text.dropWhile p := by
  rw [← List.takeWhile_append_dropWhile (p := p) (l := text)] at member
  exact (List.mem_append.mp member).imp List.mem_takeWhile_imp id

theorem mem_trim {c : Char} {text : String} (member : c ∈ text.toList) :
    Text.isWhitespace c = true ∨ c ∈ (Text.trim text).toList := by
  unfold Text.trim
  rw [String.toList_ofList, List.mem_reverse]
  rcases mem_or_mem_dropWhile (p := Text.isWhitespace) member with white | held
  · exact .inl white
  · exact mem_or_mem_dropWhile (List.mem_reverse.mpr held)

/-- Two texts from a separator neither holds after it are the same, and what comes before it is. -/
theorem split_of_last {separator : Char} {a a' b b' : List Char} (free : separator ∉ b) (free' : separator ∉ b')
    (same : a ++ separator :: b = a' ++ separator :: b') : a = a' ∧ b = b' := by
  have turned := congrArg List.reverse same
  simp only [List.reverse_append, List.reverse_cons, List.append_assoc, List.singleton_append] at turned
  obtain ⟨after, before⟩ := split_of_separator (fun member => free (List.mem_reverse.mp member))
    (fun member => free' (List.mem_reverse.mp member)) turned
  exact ⟨List.reverse_injective before, List.reverse_injective after⟩

section Admitted

variable {a b : Identifier}

theorem scheme_of_admitted (admitted : seriesKeyProblem [a] = none) : a.scheme = occOsiScheme ∨ a.scheme = tickerScheme := by
  unfold seriesKeyProblem at admitted
  by_cases occ : a.scheme = occOsiScheme
  · exact .inl occ
  · by_cases ticker : a.scheme = tickerScheme
    · exact .inr ticker
    · simp only [occ, ticker, if_false] at admitted
      split at admitted <;> cases admitted

/-- A ticker's venue is four letters or digits with white space around them. -/
theorem venue_of_admitted (admitted : seriesKeyProblem [a] = none) (ticker : a.scheme = tickerScheme) :
    (Text.trim a.source).utf8ByteSize = 4 ∧ (Text.trim a.source).toList.all isAsciiAlphanumeric = true := by
  have other : tickerScheme ≠ occOsiScheme := by decide
  simp only [seriesKeyProblem, ticker, other, if_false, if_true] at admitted
  split at admitted
  · cases admitted
  · split at admitted
    · cases admitted
    · next valid =>
      rw [not_or, not_not, Bool.not_eq_false] at valid
      exact valid

theorem venue_present (admitted : seriesKeyProblem [a] = none) (ticker : a.scheme = tickerScheme) : a.source ≠ "" := by
  intro empty
  have sized := (venue_of_admitted admitted ticker).1
  rw [empty] at sized
  revert sized
  decide

/-- No key's separator is in a ticker's venue. -/
theorem free_venue (admitted : seriesKeyProblem [a] = none) (ticker : a.scheme = tickerScheme) {separator : Char}
    (divides : separator = '\u001f' ∨ separator = '@') : Free separator a.source := by
  intro member
  rcases mem_trim member with white | held
  · rcases divides with rfl | rfl <;> exact absurd white (by decide)
  · have letter := List.all_eq_true.mp (venue_of_admitted admitted ticker).2 separator held
    rcases divides with rfl | rfl <;> exact absurd letter (by decide)

theorem free_upper {separator : Char} {text : String} (divides : separator = '\u001f' ∨ separator = '@')
    (free : Free separator text) : Free separator (toAsciiUppercase text) := by
  intro member
  unfold toAsciiUppercase at member
  rw [String.toList_ofList, List.mem_map] at member
  obtain ⟨c, inside, raised⟩ := member
  have numbered : c.toUpper.toNat = separator.toNat := congrArg Char.toNat raised
  rw [toNat_toUpper] at numbered
  have same : c = separator := by
    rw [char_eq_iff]
    have bounds : separator.toNat < 65 := by rcases divides with rfl | rfl <;> decide
    split_ifs at numbered <;> omega
  exact free (same ▸ inside)

/-- The two are one series: the same scheme and value, and for a ticker the same venue. -/
structure SameSeries (a b : Identifier) : Prop where
  scheme : a.scheme = b.scheme
  value : a.value = b.value
  venue : a.scheme = tickerScheme → toAsciiUppercase a.source = toAsciiUppercase b.source

/-- An identifier's scheme and value after one separator, a ticker's venue in capitals after another. -/
def namedBy (first second : Char) (identifier : Identifier) : List Char :=
  identifier.scheme.toList ++ first :: if identifier.scheme = tickerScheme then
    identifier.value.toList ++ second :: (toAsciiUppercase identifier.source).toList else identifier.value.toList

theorem namedBy_eq_iff {first second : Char} (outside : first ∉ tickerScheme.toList) (outside' : first ∉ occOsiScheme.toList)
    (divides : second = '\u001f' ∨ second = '@') (admitted : seriesKeyProblem [a] = none)
    (admitted' : seriesKeyProblem [b] = none) : namedBy first second a = namedBy first second b ↔ SameSeries a b := by
  have free {c : Identifier} (admitted : seriesKeyProblem [c] = none) : first ∉ c.scheme.toList := by
    rcases scheme_of_admitted admitted with occ | ticker
    · rwa [occ]
    · rwa [ticker]
  constructor
  · intro same
    obtain ⟨scheme, rest⟩ := split_of_separator (free admitted) (free admitted') same
    have scheme : a.scheme = b.scheme := String.toList_injective scheme
    by_cases ticker : a.scheme = tickerScheme
    · have ticker' : b.scheme = tickerScheme := scheme ▸ ticker
      rw [if_pos ticker, if_pos ticker'] at rest
      obtain ⟨value, venue⟩ := split_of_last (free_upper divides (free_venue admitted ticker divides))
        (free_upper divides (free_venue admitted' ticker' divides)) rest
      exact ⟨scheme, String.toList_injective value, fun _ => String.toList_injective venue⟩
    · rw [if_neg ticker, if_neg (scheme ▸ ticker)] at rest
      exact ⟨scheme, String.toList_injective rest, fun ticker' => absurd ticker' ticker⟩
  · intro same
    unfold namedBy
    rw [same.scheme, same.value]
    by_cases ticker : b.scheme = tickerScheme
    · rw [if_pos ticker, if_pos ticker, same.venue (same.scheme.trans ticker)]
    · rw [if_neg ticker, if_neg ticker]

theorem toList_seriesNamed (identifier : Identifier) :
    (seriesNamed identifier).toList = namedBy '\u001f' '\u001f' identifier := by
  unfold seriesNamed namedBy
  split <;> simp [toString]

theorem toList_sidecarNamed (identifier : Identifier) :
    (Sidecar.seriesNamed identifier).toList = namedBy '=' '@' identifier := by
  unfold Sidecar.seriesNamed namedBy toAsciiUppercase
  split <;> simp [toString]

theorem seriesNamed_eq_iff (admitted : seriesKeyProblem [a] = none) (admitted' : seriesKeyProblem [b] = none) :
    seriesNamed a = seriesNamed b ↔ SameSeries a b := by
  have named := @namedBy_eq_iff a b '\u001f' '\u001f' (by decide) (by decide) (.inl rfl) admitted admitted'
  rw [← named, ← toList_seriesNamed, ← toList_seriesNamed, String.toList_inj]

theorem sidecarNamed_eq_iff (admitted : seriesKeyProblem [a] = none) (admitted' : seriesKeyProblem [b] = none) :
    Sidecar.seriesNamed a = Sidecar.seriesNamed b ↔ SameSeries a b := by
  have named := @namedBy_eq_iff a b '=' '@' (by decide) (by decide) (.inr rfl) admitted admitted'
  rw [← named, ← toList_sidecarNamed, ← toList_sidecarNamed, String.toList_inj]

theorem seriesAsked_iff : seriesAsked [a] [b] false = true ↔ SameSeries a b := by
  have asked : seriesAsked [a] [b] false = true ↔ (b.scheme = a.scheme ∧ b.value = a.value) ∧
      (a.scheme ≠ tickerScheme ∨ eqIgnoreAsciiCase b.source a.source = true) := by
    simp [seriesAsked]
  rw [asked, eqIgnoreAsciiCase_iff]
  constructor
  · rintro ⟨⟨scheme, value⟩, venue⟩
    exact ⟨scheme.symm, value.symm, fun ticker => (venue.resolve_left (not_not.mpr ticker)).symm⟩
  · intro same
    refine ⟨⟨same.scheme.symm, same.value.symm⟩, ?_⟩
    by_cases ticker : a.scheme = tickerScheme
    · exact .inr (same.venue ticker).symm
    · exact .inl ticker

theorem seriesKeyText_eq (identifier : Identifier) :
    (seriesKeyText [identifier]).toList = identifier.scheme.toList ++ '=' :: (symbolText identifier).toList := by
  have alone (text : String) : String.intercalate "|" ([text].mergeSort fun a b => !decide (b < a)) = text := by
    rw [List.mergeSort_singleton]
    rfl
  unfold seriesKeyText symbolText
  rw [List.map_singleton, alone]
  split <;> simp [toString]

theorem seriesKeyText_eq_iff (admitted : seriesKeyProblem [a] = none) (admitted' : seriesKeyProblem [b] = none) :
    seriesKeyText [a] = seriesKeyText [b] ↔ a.scheme = b.scheme ∧ symbolText a = symbolText b := by
  have free {c : Identifier} (admitted : seriesKeyProblem [c] = none) : '=' ∉ c.scheme.toList := by
    rcases scheme_of_admitted admitted with occ | ticker
    · rw [occ]
      decide
    · rw [ticker]
      decide
  rw [← String.toList_inj, seriesKeyText_eq, seriesKeyText_eq]
  constructor
  · intro same
    obtain ⟨scheme, symbol⟩ := split_of_separator (free admitted) (free admitted') same
    exact ⟨String.toList_injective scheme, String.toList_injective symbol⟩
  · rintro ⟨scheme, symbol⟩
    rw [scheme, symbol]

theorem toList_symbolText (identifier : Identifier) : (symbolText identifier).toList =
    identifier.value.toList ++ if identifier.source = "" then [] else '@' :: identifier.source.toList := by
  unfold symbolText
  split <;> simp [toString]

/-- Symbols of one value are spelled alike under one source only. -/
theorem source_of_symbolText (value : a.value = b.value) (same : symbolText a = symbolText b) : a.source = b.source := by
  have listed := congrArg String.toList same
  rw [toList_symbolText, toList_symbolText, value, List.append_cancel_left_eq] at listed
  by_cases bare : a.source = "" <;> by_cases bare' : b.source = ""
  · rw [bare, bare']
  · rw [if_pos bare, if_neg bare'] at listed
    cases listed
  · rw [if_neg bare, if_pos bare'] at listed
    cases listed
  · rw [if_neg bare, if_neg bare'] at listed
    exact String.toList_injective (List.cons.inj listed).2

/-- A ticker's value and venue are told from its text: no venue holds the mark before it. -/
theorem value_of_symbolText (admitted : seriesKeyProblem [a] = none) (admitted' : seriesKeyProblem [b] = none)
    (ticker : a.scheme = tickerScheme) (ticker' : b.scheme = tickerScheme) (same : symbolText a = symbolText b) :
    a.value = b.value := by
  have listed := congrArg String.toList same
  rw [toList_symbolText, toList_symbolText, if_neg (venue_present admitted ticker),
    if_neg (venue_present admitted' ticker')] at listed
  exact String.toList_injective (split_of_last (free_venue admitted ticker (.inr rfl))
    (free_venue admitted' ticker' (.inr rfl)) listed).1

/-- The places that tell series apart agree on two identifiers exactly when they are spelled alike. -/
theorem namedAlike_iff (admitted : seriesKeyProblem [a] = none) (admitted' : seriesKeyProblem [b] = none) :
    NamedAlike a b ↔ SpelledAlike a b := by
  have text : NamedAlike a b ↔ (SameSeries a b ↔ a.scheme = b.scheme ∧ symbolText a = symbolText b) := by
    rw [← seriesKeyText_eq_iff admitted admitted', ← seriesAsked_iff]
    refine ⟨NamedAlike.text, fun text => ⟨?_, ?_, text⟩⟩
    · rw [seriesAsked_iff, seriesNamed_eq_iff admitted admitted']
    · rw [seriesAsked_iff, sidecarNamed_eq_iff admitted admitted']
  rw [text]
  constructor
  · intro alike
    refine ⟨fun scheme value venue => ?_, fun occ occ' symbol => ?_⟩
    · have same : SameSeries a b :=
        ⟨scheme, value, fun ticker => (eqIgnoreAsciiCase_iff.mp (venue ticker)).symm⟩
      exact source_of_symbolText value (alike.mp same).2
    · exact (alike.mpr ⟨occ.trans occ'.symm, symbol⟩).value
  · intro spelled
    constructor
    · intro same
      have source := spelled.source same.scheme same.value fun ticker =>
        eqIgnoreAsciiCase_iff.mpr (same.venue ticker).symm
      refine ⟨same.scheme, ?_⟩
      unfold symbolText
      rw [source, same.value]
    · rintro ⟨scheme, symbol⟩
      have value : a.value = b.value := by
        rcases scheme_of_admitted admitted with occ | ticker
        · exact spelled.value occ (scheme ▸ occ) symbol
        · exact value_of_symbolText admitted admitted' ticker (scheme ▸ ticker) symbol
      exact ⟨scheme, value, fun _ => congrArg toAsciiUppercase (source_of_symbolText value symbol)⟩

end Admitted

end MeridianCore.Lake
