import MeridianCore.AnalyticsEngine.Canonical.Same
import MeridianCore.AnalyticsEngine.Canonical.Strings

/-! The canonical text of a value is read back as a value of its meaning, each object's members in order. So two values have one
text exactly where they are one. -/

namespace MeridianCore.AnalyticsEngine.Canonical

mutual

/-- Whether every object in a value has its members in the strict order of their names' code units. -/
def Ordered : Value → Prop
  | .array items => OrderedItems items
  | .object members => (members.map Prod.fst).Pairwise (fun a b => encodeUtf16 a < encodeUtf16 b) ∧ OrderedMembers members
  | _ => True

def OrderedItems : List Value → Prop
  | [] => True
  | item :: rest => Ordered item ∧ OrderedItems rest

def OrderedMembers : List (String × Value) → Prop
  | [] => True
  | (_, value) :: rest => Ordered value ∧ OrderedMembers rest

end

/-- What is written of a value, up to what ends it, is read as a value of its meaning. -/
def ReadsBack (value : Value) : Prop := ∀ text, write value = .ok text → ∀ rest fuel, Ends rest → text.length ≤ fuel →
  ∃ read, readValue fuel (text ++ rest) = some (read, rest) ∧ meaning read = meaning value ∧ Ordered read

section
variable {value : Value} {items : List Value} {members : List (String × Value)} {text rest : List Char}
  {parts : List (List Char)} {names : List String} {fuel : Nat} {first : Char}

/-- A whole number's text begins with a minus or a digit. -/
theorem wholeText_head (value : Int) : ∃ first rest, (wholeText value).toList = first :: rest ∧ (first = '-' ∨ first.isDigit = true) := by
  unfold wholeText
  rw [String.toList_ofList]
  split_ifs
  · exact ⟨_, _, rfl, .inl rfl⟩
  · match digits : Nat.toDigits 10 value.natAbs, @Nat.toDigits_ne_nil value.natAbs 10 with
    | digit :: others, _ => exact ⟨digit, others, rfl, .inr (Limbs.digit_of_toDigits (digits ▸ List.mem_cons_self))⟩

/-- A minus and a digit begin nothing but a number. -/
theorem numeral_apart (is : first = '-' ∨ first.isDigit = true) : isSpace first = false ∧ first ≠ ']' ∧ first ≠ QUOTE ∧ first ≠ '[' ∧
    first ≠ '{' ∧ first ≠ 'n' ∧ first ≠ 't' ∧ first ≠ 'f' := by
  rcases is with rfl | is
  · decide
  · obtain ⟨low, high⟩ := Char.isDigit_iff_toNat.mp is
    have zero : '0'.toNat = 48 := rfl
    have nine : '9'.toNat = 57 := rfl
    have other : ∀ character : Char, (character.toNat < 48 ∨ 57 < character.toNat) → first ≠ character := by
      rintro character out rfl
      omega
    refine ⟨?_, other _ (by decide), other _ (by decide), other _ (by decide), other _ (by decide), other _ (by decide),
      other _ (by decide), other _ (by decide)⟩
    unfold isSpace
    rw [decide_eq_false_iff_not]
    rintro (rfl | tab | line | back)
    · cases is
    · omega
    · omega
    · omega

/-- A value's text begins with no space and no close. -/
theorem write_head (written : write value = .ok text) : ∃ first rest, text = first :: rest ∧ isSpace first = false ∧ first ≠ ']' := by
  cases value with
  | null =>
    cases written
    exact ⟨_, _, rfl, rfl, by decide⟩
  | bool value =>
    cases value <;>
    · cases written
      exact ⟨_, _, rfl, rfl, by decide⟩
  | number number =>
    cases number with
    | float text => cases written
    | whole value =>
      rw [write, writeNumber] at written
      split_ifs at written
      cases written
      obtain ⟨first, rest, same, is⟩ := wholeText_head value
      exact ⟨first, rest, same, (numeral_apart is).1, (numeral_apart is).2.1⟩
  | string text =>
    cases written
    rw [writeString_eq]
    exact ⟨_, _, rfl, rfl, by decide⟩
  | array items =>
    rw [write] at written
    cases held : writeItems items with
    | error bad =>
      rw [held] at written
      cases written
    | ok parts =>
      rw [held] at written
      cases written
      exact ⟨_, _, rfl, rfl, by decide⟩
  | object members =>
    rw [write] at written
    cases held : (sortedNames (members.map Prod.fst)).mapM (writeMember (writeMembers members)) with
    | error bad =>
      rw [held] at written
      cases written
    | ok parts =>
      rw [held] at written
      cases written
      exact ⟨_, _, rfl, rfl, by decide⟩

theorem ok_of_bind {ε α β : Type} {first : Except ε α} {next : α → Except ε β} {answer : β} (read : (first >>= next) = .ok answer) :
    ∃ middle, first = .ok middle ∧ next middle = .ok answer := by
  cases first with
  | error bad => cases read
  | ok middle => exact ⟨middle, rfl, read⟩

theorem joined_cons (part next : List Char) (others : List (List Char)) :
    joined (part :: next :: others) = part ++ ',' :: joined (next :: others) := by
  unfold joined
  rw [List.intercalate_cons_cons]
  simp

theorem joined_singleton (part : List Char) : joined [part] = part := by
  unfold joined
  simp [List.intercalate]

theorem ends_cons (is : first = ',' ∨ first = ']' ∨ first = '}') : Ends (first :: rest) := by
  rintro character ⟨⟩
  exact is

theorem skip_next (is : first = ',' ∨ first = ']' ∨ first = '}') : skip (first :: rest) = first :: rest := by
  rcases is with rfl | rfl | rfl <;> rfl

/-- An array's items, written with commas between, are read in turn. -/
theorem readItems_joined (each : ∀ item ∈ items, ReadsBack item) (written : writeItems items = .ok parts) (some' : items ≠ [])
    (rest : List Char) (more : (joined parts).length < fuel) :
    ∃ read, readItems fuel (joined parts ++ ']' :: rest) = some (read, rest) ∧ read.map meaning = items.map meaning ∧
      OrderedItems read := by
  induction items generalizing parts fuel with
  | nil => exact absurd rfl some'
  | cons item others ih =>
    obtain ⟨fuel, rfl⟩ : ∃ k, fuel = k + 1 := ⟨fuel - 1, by omega⟩
    obtain ⟨own, later⟩ := List.forall_mem_cons.mp each
    rw [writeItems] at written
    obtain ⟨part, first, written⟩ := ok_of_bind written
    obtain ⟨others', held, written⟩ := ok_of_bind written
    cases written
    cases others with
    | nil =>
      cases held
      rw [joined_singleton] at more ⊢
      obtain ⟨read, found, same, order⟩ := own part first (']' :: rest) fuel (ends_cons (.inr (.inl rfl))) (by omega)
      refine ⟨[read], ?_, by rw [List.map_singleton, same, List.map_singleton], order, trivial⟩
      rw [readItems, found]
      dsimp only [bind, Option.bind]
      rw [skip_next (.inr (.inl rfl))]
      rfl
    | cons item' others =>
      cases others' with
      | nil =>
        rw [writeItems] at held
        obtain ⟨_, _, held⟩ := ok_of_bind held
        obtain ⟨_, _, held⟩ := ok_of_bind held
        cases held
      | cons next others' =>
        rw [joined_cons, List.length_append, List.length_cons] at more
        obtain ⟨read, found, same, order⟩ := own part first (',' :: (joined (next :: others') ++ ']' :: rest)) fuel
          (ends_cons (.inl rfl)) (by omega)
        obtain ⟨reads, found', same', order'⟩ := ih later held (List.cons_ne_nil _ _)
          (show (joined (next :: others')).length < fuel by omega)
        refine ⟨read :: reads, ?_, by rw [List.map_cons, same, same', ← List.map_cons], order, order'⟩
        rw [joined_cons, List.append_assoc, List.cons_append, readItems, found]
        dsimp only [bind, Option.bind]
        rw [skip_next (.inl rfl)]
        dsimp only
        rw [if_pos rfl, found']
        rfl

theorem skip_writeString (name : String) (rest : List Char) : skip (writeString name ++ rest) = writeString name ++ rest := by
  rw [writeString_eq]
  exact skip_cons rfl

theorem writeMember_ok {name : String} {part : List Char} (value : Value) (found : members.lookup name = some value)
    (written : writeMember (writeMembers members) name = .ok part) :
    ∃ text, write value = .ok text ∧ part = writeString name ++ ':' :: text := by
  rw [writeMember_eq, found] at written
  obtain ⟨text, held, written⟩ := ok_of_bind written
  cases written
  exact ⟨text, held, rfl⟩

/-- One member read, and what is after it. -/
theorem readMembers_succ {name : String} {part rest : List Char} {read : Value} (found : readValue fuel (part ++ rest) = some (read, rest)) :
    readMembers (fuel + 1) (writeString name ++ ':' :: part ++ rest) = match skip rest with
      | [] => none
      | next :: rest =>
        if next = ',' then (readMembers fuel rest).map fun (members, rest) => (placed name read members, rest)
        else if next = '}' then some ([(name, read)], rest)
        else none := by
  rw [readMembers, List.append_assoc, skip_writeString, readString_writeString]
  dsimp only [bind, Option.bind]
  rw [List.cons_append, skip_cons rfl]
  dsimp only
  rw [if_pos rfl, found]
  all_goals rfl

/-- An object's members, written with commas between, are read in turn. -/
theorem readMembers_joined (once : names.Nodup)
    (each : ∀ name ∈ names, ∃ value, members.lookup name = some value ∧ ReadsBack value)
    (written : names.mapM (writeMember (writeMembers members)) = .ok parts) (some' : names ≠ []) (rest : List Char)
    (more : (joined parts).length < fuel) :
    ∃ read, readMembers fuel (joined parts ++ '}' :: rest) = some (read, rest) ∧ read.map Prod.fst = names ∧
      (∀ name ∈ names, (read.lookup name).map meaning = (members.lookup name).map meaning) ∧ OrderedMembers read := by
  induction names generalizing parts fuel with
  | nil => exact absurd rfl some'
  | cons name others ih =>
    obtain ⟨fuel, rfl⟩ : ∃ k, fuel = k + 1 := ⟨fuel - 1, by omega⟩
    obtain ⟨⟨value, held, own⟩, later⟩ := List.forall_mem_cons.mp each
    obtain ⟨fresh, once'⟩ := List.nodup_cons.mp once
    rw [List.mapM_cons] at written
    obtain ⟨part, first, written⟩ := ok_of_bind written
    obtain ⟨others', rest', written⟩ := ok_of_bind written
    cases written
    obtain ⟨text, wrote, rfl⟩ := writeMember_ok value held first
    cases others with
    | nil =>
      rw [List.mapM_nil] at rest'
      cases rest'
      rw [joined_singleton, List.length_append, List.length_cons] at more
      obtain ⟨read, found, same, order⟩ := own text wrote ('}' :: rest) fuel (ends_cons (.inr (.inr rfl))) (by omega)
      refine ⟨[(name, read)], ?_, rfl, ?_, order, trivial⟩
      · rw [joined_singleton, readMembers_succ found, skip_next (.inr (.inr rfl))]
        rfl
      · intro other member
        obtain rfl := List.mem_singleton.mp member
        rw [lookup_cons, if_pos rfl, held, Option.map_some, Option.map_some, same]
    | cons name' others =>
      cases others' with
      | nil =>
        rw [List.mapM_cons] at rest'
        obtain ⟨_, _, rest'⟩ := ok_of_bind rest'
        obtain ⟨_, _, rest'⟩ := ok_of_bind rest'
        cases rest'
      | cons next others' =>
        rw [joined_cons, List.length_append, List.length_append, List.length_cons, List.length_cons] at more
        obtain ⟨read, found, same, order⟩ := own text wrote (',' :: (joined (next :: others') ++ '}' :: rest)) fuel
          (ends_cons (.inl rfl)) (by omega)
        obtain ⟨reads, found', listed, same', order'⟩ := ih once' later rest' (List.cons_ne_nil _ _)
          (show (joined (next :: others')).length < fuel by omega)
        have placed_ : placed name read reads = (name, read) :: reads := if_neg (listed ▸ fresh)
        refine ⟨(name, read) :: reads, ?_, by rw [List.map_cons, listed], ?_, order, order'⟩
        · rw [joined_cons, List.append_assoc, List.cons_append, readMembers_succ found, skip_next (.inl rfl)]
          dsimp only
          rw [if_pos rfl, found', ← placed_]
          rfl
        · refine List.forall_mem_cons.mpr ⟨?_, fun other member => ?_⟩
          · rw [lookup_cons, if_pos rfl, held, Option.map_some, Option.map_some, same]
          · have apart : other ≠ name := fun equal => fresh (equal ▸ member)
            rw [lookup_cons, if_neg apart, same' other member]

theorem sortedNames_ne_nil {name : String} (member : name ∈ names) : sortedNames names ≠ [] :=
  List.ne_nil_of_mem (mem_sortedNames.mpr member)

theorem joined_head (written : writeItems items = .ok parts) (some' : items ≠ []) :
    ∃ first rest, joined parts = first :: rest ∧ isSpace first = false ∧ first ≠ ']' := by
  cases items with
  | nil => exact absurd rfl some'
  | cons item others =>
    rw [writeItems] at written
    obtain ⟨part, first, written⟩ := ok_of_bind written
    obtain ⟨others', held, written⟩ := ok_of_bind written
    cases written
    obtain ⟨character, rest, rfl, facts⟩ := write_head first
    cases others' with
    | nil => exact ⟨character, rest, joined_singleton _, facts⟩
    | cons next others' => exact ⟨character, _, joined_cons _ _ _, facts⟩

theorem not_prefix {word : List Char} {letter : Char} {others : List Char} (same : word = letter :: others) (other : first ≠ letter) :
    ¬ word <+: first :: rest := by
  rw [same, List.cons_prefix_cons]
  exact fun both => other both.1.symm

theorem readValue_number {number : Number} {after : List Char} (is : first = '-' ∨ first.isDigit = true)
    (read : readNumber (first :: rest) = some (number, after)) :
    readValue (fuel + 1) (first :: rest) = some (.number number, after) := by
  obtain ⟨space, -, quote, open_, brace, n, t, f⟩ := numeral_apart is
  have null' : ¬ "null".toList <+: first :: rest := not_prefix rfl n
  have true' : ¬ "true".toList <+: first :: rest := not_prefix rfl t
  have false' : ¬ "false".toList <+: first :: rest := not_prefix rfl f
  rw [readValue, skip_cons space]
  dsimp only
  rw [if_neg quote, if_neg open_, if_neg brace, if_neg null', if_neg true', if_neg false', read]
  rfl

theorem readValue_array {close : Char} {after : List Char} (space : isSpace close = false) (more : close ≠ ']') :
    readValue (fuel + 1) ('[' :: close :: after) =
      (readItems fuel (close :: after)).map fun (items, rest) => (.array items, rest) := by
  rw [readValue, skip_cons rfl]
  dsimp only
  rw [if_neg (by decide), if_pos rfl, skip_cons space]
  dsimp only
  rw [if_neg more]

theorem readValue_object {close : Char} {after : List Char} (space : isSpace close = false) (more : close ≠ '}') :
    readValue (fuel + 1) ('{' :: close :: after) =
      (readMembers fuel (close :: after)).map fun (members, rest) => (.object members, rest) := by
  rw [readValue, skip_cons rfl]
  dsimp only
  rw [if_neg (by decide), if_neg (by decide), if_pos rfl, skip_cons space]
  dsimp only
  rw [if_neg more]

/-- An object's text begins, past its brace, with its first name's quote. -/
theorem joined_quote (each : ∀ name ∈ names, ∃ value, members.lookup name = some value ∧ ReadsBack value)
    (written : names.mapM (writeMember (writeMembers members)) = .ok parts) (some' : names ≠ []) :
    ∃ rest, joined parts = QUOTE :: rest := by
  cases names with
  | nil => exact absurd rfl some'
  | cons name others =>
    obtain ⟨⟨value, held, -⟩, -⟩ := List.forall_mem_cons.mp each
    rw [List.mapM_cons] at written
    obtain ⟨part, first, written⟩ := ok_of_bind written
    obtain ⟨others', -, written⟩ := ok_of_bind written
    cases written
    obtain ⟨text, -, rfl⟩ := writeMember_ok value held first
    cases others' with
    | nil =>
      rw [joined_singleton, writeString_eq]
      exact ⟨_, rfl⟩
    | cons next others' =>
      rw [joined_cons, writeString_eq]
      exact ⟨_, rfl⟩

/-- A word is read as its value. -/
theorem readValue_null (rest : List Char) : readValue (fuel + 1) ("null".toList ++ rest) = some (.null, rest) := by
  have found : "null".toList <+: 'n' :: 'u' :: 'l' :: 'l' :: rest := ⟨rest, rfl⟩
  change readValue (fuel + 1) ('n' :: 'u' :: 'l' :: 'l' :: rest) = _
  rw [readValue, skip_cons rfl]
  dsimp only
  rw [if_neg (by decide), if_neg (by decide), if_neg (by decide), if_pos found]
  rfl

theorem readValue_true (rest : List Char) : readValue (fuel + 1) ("true".toList ++ rest) = some (.bool true, rest) := by
  have found : "true".toList <+: 't' :: 'r' :: 'u' :: 'e' :: rest := ⟨rest, rfl⟩
  have null' : ¬ "null".toList <+: 't' :: 'r' :: 'u' :: 'e' :: rest := not_prefix rfl (by decide)
  change readValue (fuel + 1) ('t' :: 'r' :: 'u' :: 'e' :: rest) = _
  rw [readValue, skip_cons rfl]
  dsimp only
  rw [if_neg (by decide), if_neg (by decide), if_neg (by decide), if_neg null', if_pos found]
  rfl

theorem readValue_false (rest : List Char) : readValue (fuel + 1) ("false".toList ++ rest) = some (.bool false, rest) := by
  have found : "false".toList <+: 'f' :: 'a' :: 'l' :: 's' :: 'e' :: rest := ⟨rest, rfl⟩
  have null' : ¬ "null".toList <+: 'f' :: 'a' :: 'l' :: 's' :: 'e' :: rest := not_prefix rfl (by decide)
  have true' : ¬ "true".toList <+: 'f' :: 'a' :: 'l' :: 's' :: 'e' :: rest := not_prefix rfl (by decide)
  change readValue (fuel + 1) ('f' :: 'a' :: 'l' :: 's' :: 'e' :: rest) = _
  rw [readValue, skip_cons rfl]
  dsimp only
  rw [if_neg (by decide), if_neg (by decide), if_neg (by decide), if_neg null', if_neg true', if_pos found]
  rfl

theorem readValue_string (text : String) (rest : List Char) :
    readValue (fuel + 1) (writeString text ++ rest) = some (.string text, rest) := by
  have read := readString_writeString text rest
  rw [writeString_eq, List.cons_append] at read ⊢
  rw [readValue, skip_cons rfl]
  dsimp only
  rw [if_pos rfl, read]
  rfl

theorem readsBack_atom (noArray : ∀ items, value ≠ .array items) (noObject : ∀ members, value ≠ .object members) : ReadsBack value := by
  intro text written rest fuel ends more
  have some' : 0 < text.length := by
    obtain ⟨first, others, rfl, -⟩ := write_head written
    exact Nat.succ_pos _
  obtain ⟨fuel, rfl⟩ : ∃ k, fuel = k + 1 := ⟨fuel - 1, by omega⟩
  cases value with
  | array items => exact absurd rfl (noArray items)
  | object members => exact absurd rfl (noObject members)
  | null =>
    cases written
    exact ⟨.null, readValue_null rest, rfl, trivial⟩
  | bool value =>
    cases value with
    | true =>
      cases written
      exact ⟨.bool true, readValue_true rest, rfl, trivial⟩
    | false =>
      cases written
      exact ⟨.bool false, readValue_false rest, rfl, trivial⟩
  | string text =>
    cases written
    exact ⟨.string text, readValue_string text rest, rfl, trivial⟩
  | number number =>
    cases number with
    | float text => cases written
    | whole value =>
      rw [write, writeNumber] at written
      split_ifs at written with small
      cases written
      have read := readNumber_wholeText small ends
      obtain ⟨first, others, same, is⟩ := wholeText_head value
      rw [same, List.cons_append] at read ⊢
      exact ⟨.number (.whole value), readValue_number is read, rfl, trivial⟩

theorem readsBack_array (each : ∀ item ∈ items, ReadsBack item) : ReadsBack (.array items) := by
  intro text written rest fuel ends more
  rw [write] at written
  obtain ⟨parts, held, written⟩ := ok_of_bind written
  cases written
  rw [List.length_cons, List.length_append, List.length_singleton] at more
  obtain ⟨fuel, rfl⟩ : ∃ k, fuel = k + 1 := ⟨fuel - 1, by omega⟩
  rw [List.cons_append, List.append_assoc, List.singleton_append]
  by_cases none' : items = []
  · subst none'
    cases held
    exact ⟨.array [], rfl, rfl, trivial⟩
  · obtain ⟨read, found, same, order⟩ := readItems_joined each held none' rest (show (joined parts).length < fuel by omega)
    obtain ⟨first, others, head, space, more'⟩ := joined_head held none'
    refine ⟨.array read, ?_, ?_, order⟩
    · rw [head, List.cons_append] at found ⊢
      rw [readValue_array space more', found]
      rfl
    · rw [meaning, meaning, meaningItems_eq, meaningItems_eq, same]

theorem readsBack_object (once : (members.map Prod.fst).Nodup) (each : ∀ member ∈ members, ReadsBack member.2) :
    ReadsBack (.object members) := by
  intro text written rest fuel ends more
  rw [write] at written
  obtain ⟨parts, held, written⟩ := ok_of_bind written
  cases written
  rw [List.length_cons, List.length_append, List.length_singleton] at more
  obtain ⟨fuel, rfl⟩ : ∃ k, fuel = k + 1 := ⟨fuel - 1, by omega⟩
  rw [List.cons_append, List.append_assoc, List.singleton_append]
  have strict := sortedNames_strict once
  have found : ∀ name ∈ sortedNames (members.map Prod.fst), ∃ value, members.lookup name = some value ∧ ReadsBack value := by
    intro name member
    obtain ⟨value, looked⟩ := Option.isSome_iff_exists.mp (lookup_isSome_iff.mpr (mem_sortedNames.mp member))
    exact ⟨value, looked, each _ (mem_of_lookup looked)⟩
  by_cases none' : members = []
  · subst none'
    cases held
    exact ⟨.object [], rfl, rfl, List.Pairwise.nil, trivial⟩
  · obtain ⟨⟨name, value⟩, member⟩ := List.exists_mem_of_ne_nil members none'
    have some' := sortedNames_ne_nil (List.mem_map_of_mem (f := Prod.fst) member)
    have nodup : (sortedNames (members.map Prod.fst)).Nodup :=
      List.Pairwise.imp (fun {a b} (below : encodeUtf16 a < encodeUtf16 b) (same : a = b) => lt_irrefl _ (same ▸ below)) strict
    obtain ⟨read, reads, listed, same, order⟩ := readMembers_joined nodup found held some' rest
      (show (joined parts).length < fuel by omega)
    obtain ⟨others, head⟩ := joined_quote found held some'
    refine ⟨.object read, ?_, ?_, listed ▸ strict, order⟩
    · rw [head, List.cons_append] at reads ⊢
      rw [readValue_object rfl (by decide), reads]
      rfl
    · rw [meaning, meaning]
      congr 1
      funext name
      rw [meaningMembers_eq, meaningMembers_eq]
      by_cases member : name ∈ sortedNames (members.map Prod.fst)
      · exact same name member
      · have absent : members.lookup name = none := by
          by_contra some''
          exact member (mem_sortedNames.mpr (lookup_isSome_iff.mp (Option.isSome_iff_ne_none.mpr some'')))
        have absent' : read.lookup name = none := by
          by_contra some''
          exact member (listed ▸ lookup_isSome_iff.mp (Option.isSome_iff_ne_none.mpr some''))
        rw [absent, absent']

/-- What is written of a value is read as a value of its meaning, its members in order. -/
theorem readsBack (unique : Unique value) : ReadsBack value := by
  induction value using Value.all with
  | atom value noArray noObject => exact readsBack_atom noArray noObject
  | array items ih => exact readsBack_array fun item member => ih item member (uniqueItems_iff.mp unique item member)
  | object members ih =>
    exact readsBack_object unique.1 fun member held => ih member held (uniqueMembers_iff.mp unique.2 member held)

/-- A value's canonical text is parsed as a value of its meaning, its members in order at every depth. -/
theorem parse_canonical {text : String} (unique : Unique value) (written : canonical value = .ok text) :
    ∃ read, parse text = some read ∧ meaning read = meaning value ∧ Ordered read := by
  unfold canonical at written
  cases held : write value with
  | error bad =>
    rw [held] at written
    cases written
  | ok characters =>
    rw [held] at written
    cases written
    obtain ⟨read, found, same, order⟩ := readsBack unique characters held [] (characters.length + 1) nofun (Nat.le_succ _)
    rw [List.append_nil] at found
    refine ⟨read, ?_, same, order⟩
    unfold parse
    rw [String.length_ofList, String.toList_ofList, found]
    rfl

mutual

/-- Whether a value has no fractional number, and no whole one past what is written bare. -/
def Writable : Value → Prop
  | .number (.whole value) => value.natAbs < EXACT
  | .number (.float _) => False
  | .array items => WritableItems items
  | .object members => WritableMembers members
  | _ => True

def WritableItems : List Value → Prop
  | [] => True
  | item :: rest => Writable item ∧ WritableItems rest

def WritableMembers : List (String × Value) → Prop
  | [] => True
  | (_, value) :: rest => Writable value ∧ WritableMembers rest

end

theorem writableItems_iff : WritableItems items ↔ ∀ item ∈ items, Writable item := by
  induction items with
  | nil => exact ⟨fun _ item member => absurd member List.not_mem_nil, fun _ => trivial⟩
  | cons item rest ih => rw [WritableItems, ih, List.forall_mem_cons]

theorem writableMembers_iff : WritableMembers members ↔ ∀ member ∈ members, Writable member.2 := by
  induction members with
  | nil => exact ⟨fun _ member held => absurd held List.not_mem_nil, fun _ => trivial⟩
  | cons member rest ih =>
    obtain ⟨name, value⟩ := member
    rw [WritableMembers, ih, List.forall_mem_cons]

theorem writeItems_ok_iff : (∃ parts, writeItems items = .ok parts) ↔ ∀ item ∈ items, ∃ text, write item = .ok text := by
  induction items with
  | nil => exact ⟨fun _ item member => absurd member List.not_mem_nil, fun _ => ⟨[], rfl⟩⟩
  | cons item rest ih =>
    rw [List.forall_mem_cons, ← ih]
    constructor
    · rintro ⟨parts, written⟩
      rw [writeItems] at written
      obtain ⟨part, first, written⟩ := ok_of_bind written
      obtain ⟨others, held, -⟩ := ok_of_bind written
      exact ⟨⟨part, first⟩, others, held⟩
    · rintro ⟨⟨part, first⟩, others, held⟩
      refine ⟨part :: others, ?_⟩
      rw [writeItems, first, held]
      rfl

theorem mapM_ok_iff {α β ε : Type} {f : α → Except ε β} {list : List α} :
    (∃ out, list.mapM f = .ok out) ↔ ∀ entry ∈ list, ∃ answer, f entry = .ok answer := by
  induction list with
  | nil => exact ⟨fun _ entry member => absurd member List.not_mem_nil, fun _ => ⟨[], rfl⟩⟩
  | cons entry rest ih =>
    rw [List.forall_mem_cons, ← ih, List.mapM_cons]
    constructor
    · rintro ⟨out, mapped⟩
      obtain ⟨answer, first, mapped⟩ := ok_of_bind mapped
      obtain ⟨others, held, -⟩ := ok_of_bind mapped
      exact ⟨⟨answer, first⟩, others, held⟩
    · rintro ⟨⟨answer, first⟩, others, held⟩
      refine ⟨answer :: others, ?_⟩
      rw [first, held]
      rfl

theorem lookup_of_mem {name : String} (once : (members.map Prod.fst).Nodup) (member : (name, value) ∈ members) :
    members.lookup name = some value := by
  induction members with
  | nil => cases member
  | cons entry rest ih =>
    obtain ⟨held, value'⟩ := entry
    obtain ⟨fresh, once'⟩ := List.nodup_cons.mp once
    rw [lookup_cons]
    rcases List.mem_cons.mp member with now | later
    · cases now
      exact if_pos rfl
    · have listed : name ∈ rest.map Prod.fst := List.mem_map_of_mem (f := Prod.fst) later
      have apart : name ≠ held := fun same => fresh (same ▸ listed)
      rw [if_neg apart, ih once' later]

theorem writeMembers_ok_iff (once : (members.map Prod.fst).Nodup) :
    (∃ parts, (sortedNames (members.map Prod.fst)).mapM (writeMember (writeMembers members)) = .ok parts) ↔
      ∀ member ∈ members, ∃ text, write member.2 = .ok text := by
  rw [mapM_ok_iff]
  constructor
  · rintro each ⟨name, value⟩ member
    obtain ⟨part, written⟩ := each name (mem_sortedNames.mpr (List.mem_map_of_mem (f := Prod.fst) member))
    obtain ⟨text, held, -⟩ := writeMember_ok value (lookup_of_mem once member) written
    exact ⟨text, held⟩
  · intro each name member
    obtain ⟨value, looked⟩ := Option.isSome_iff_exists.mp (lookup_isSome_iff.mpr (mem_sortedNames.mp member))
    obtain ⟨text, held⟩ := each _ (mem_of_lookup looked)
    refine ⟨writeString name ++ ':' :: text, ?_⟩
    rw [writeMember_eq, looked, Option.map_some, Option.getD_some, held]
    rfl

/-- A value is written exactly where it has no fractional number and no whole one past what is written bare. -/
theorem write_ok_iff (unique : Unique value) : (∃ text, write value = .ok text) ↔ Writable value := by
  induction value using Value.all with
  | atom value noArray noObject =>
    cases value with
    | array items => exact absurd rfl (noArray items)
    | object members => exact absurd rfl (noObject members)
    | null => exact ⟨fun _ => trivial, fun _ => ⟨_, rfl⟩⟩
    | bool value => cases value <;> exact ⟨fun _ => trivial, fun _ => ⟨_, rfl⟩⟩
    | string text => exact ⟨fun _ => trivial, fun _ => ⟨_, rfl⟩⟩
    | number number =>
      cases number with
      | float text =>
        refine ⟨fun written => ?_, False.elim⟩
        obtain ⟨_, written⟩ := written
        cases written
      | whole value =>
        rw [write, writeNumber, Writable]
        split_ifs with small
        · exact ⟨fun _ => small, fun _ => ⟨_, rfl⟩⟩
        · refine ⟨fun written => ?_, fun held => absurd held small⟩
          obtain ⟨_, written⟩ := written
          cases written
  | array items ih =>
    have each := uniqueItems_iff.mp unique
    rw [Writable, writableItems_iff, ← forall₂_congr fun item member => ih item member (each item member), ← writeItems_ok_iff, write]
    constructor
    · rintro ⟨text, written⟩
      obtain ⟨parts, held, -⟩ := ok_of_bind written
      exact ⟨parts, held⟩
    · rintro ⟨parts, held⟩
      rw [held]
      exact ⟨_, rfl⟩
  | object members ih =>
    have each := uniqueMembers_iff.mp unique.2
    rw [Writable, writableMembers_iff, ← forall₂_congr fun member held => ih member held (each member held),
      ← writeMembers_ok_iff unique.1, write]
    constructor
    · rintro ⟨text, written⟩
      obtain ⟨parts, held, -⟩ := ok_of_bind written
      exact ⟨parts, held⟩
    · rintro ⟨parts, held⟩
      rw [held]
      exact ⟨_, rfl⟩

end

/-- A JSON document: a value with each name once in every object. -/
structure Document where
  value : Value
  unique : Unique value

/-- The answer's hash: a digest of the canonical text. -/
def answerHash (digest : String → String) (inputs : Value) : Except NotCanonical String := (canonical inputs).map digest

theorem canonical_ok_iff (document : Document) : (∃ text, canonical document.value = .ok text) ↔ Writable document.value := by
  rw [← write_ok_iff document.unique]
  unfold canonical
  cases write document.value with
  | error bad => exact ⟨fun ⟨_, written⟩ => (nomatch written), fun ⟨_, written⟩ => (nomatch written)⟩
  | ok text => exact ⟨fun _ => ⟨text, rfl⟩, fun _ => ⟨String.ofList text, rfl⟩⟩

theorem canonical_eq_iff {a b : Document} {text : String} (written : canonical a.value = .ok text) :
    canonical b.value = .ok text ↔ meaning a.value = meaning b.value := by
  constructor
  · intro written'
    obtain ⟨read, parsed, same, -⟩ := parse_canonical a.unique written
    obtain ⟨read', parsed', same', -⟩ := parse_canonical b.unique written'
    rw [parsed] at parsed'
    cases parsed'
    exact same.symm.trans same'
  · intro same
    unfold canonical at *
    rw [← write_congr a.unique b.unique same, written]

/-- The canonical form is one text for each value: a value with no fractional number, its whole ones within what is written bare, has
one; two have the same exactly where they are one as JSON; it is parsed as that value, its members in the order of their names' code
units at every depth; and two documents hash alike only where they are one, or the digest of two texts is the same. -/
theorem canonical_one_text (a b : Document) :
    (Writable a.value ↔ ∃ text, canonical a.value = .ok text) ∧
      (∀ text, canonical a.value = .ok text →
        (canonical b.value = .ok text ↔ meaning a.value = meaning b.value) ∧
        (∃ read, parse text = some read ∧ meaning read = meaning a.value ∧ Ordered read) ∧
        ∀ (digest : String → String) (hash : String), answerHash digest a.value = .ok hash → answerHash digest b.value = .ok hash →
          meaning a.value = meaning b.value ∨
            ∃ other, canonical b.value = .ok other ∧ other ≠ text ∧ digest other = digest text) := by
  refine ⟨(canonical_ok_iff a).symm, fun text written => ⟨canonical_eq_iff written, parse_canonical a.unique written, ?_⟩⟩
  intro digest hash first second
  unfold answerHash at first second
  rw [written] at first
  cases held : canonical b.value with
  | error bad =>
    rw [held] at second
    cases second
  | ok other =>
    rw [held] at second
    by_cases same : other = text
    · subst same
      exact .inl ((canonical_eq_iff written).mp held)
    · exact .inr ⟨other, rfl, same, (Except.ok.inj second).trans (Except.ok.inj first).symm⟩

end MeridianCore.AnalyticsEngine.Canonical
