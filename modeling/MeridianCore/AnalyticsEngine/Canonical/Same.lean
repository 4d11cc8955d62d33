import MeridianCore.AnalyticsEngine.Canonical.Write

/-! Names in the order of their code units. No two names have the same, so the order is one, whatever order the names came in. -/

namespace MeridianCore.AnalyticsEngine.Canonical

section
variable {a b : Char} {names names' : List String} {x y : List Nat}

theorem toNat_range (a : Char) : a.toNat < 0xD800 ∨ (0xDFFF < a.toNat ∧ a.toNat < 0x110000) := by
  have valid := a.valid
  rcases valid with low | ⟨high, most⟩
  · exact .inl low
  · exact .inr ⟨high, most⟩

/-- Code units begin with one character's. -/
theorem units_append (same : units a ++ x = units b ++ y) : a = b ∧ x = y := by
  have range := toNat_range a
  have range' := toNat_range b
  unfold units at same
  split_ifs at same
  · obtain ⟨first, rest⟩ := List.cons_eq_cons.mp same
    exact ⟨Char.toNat_inj.mp first, rest⟩
  · obtain ⟨first, -⟩ := List.cons_eq_cons.mp same
    omega
  · obtain ⟨first, -⟩ := List.cons_eq_cons.mp same
    omega
  · obtain ⟨first, rest⟩ := List.cons_eq_cons.mp same
    obtain ⟨second, rest⟩ := List.cons_eq_cons.mp rest
    exact ⟨Char.toNat_inj.mp (by omega), rest⟩

theorem units_ne_nil (a : Char) : units a ≠ [] := by
  unfold units
  split_ifs <;> exact List.cons_ne_nil _ _

theorem flatMap_units_injective : Function.Injective fun characters : List Char => characters.flatMap units := by
  intro first
  induction first with
  | nil =>
    intro second same
    cases second with
    | nil => rfl
    | cons b rest => exact absurd (List.append_eq_nil_iff.mp same.symm).1 (units_ne_nil b)
  | cons a rest ih =>
    intro second same
    cases second with
    | nil => exact absurd (List.append_eq_nil_iff.mp same).1 (units_ne_nil a)
    | cons b others =>
      obtain ⟨rfl, later⟩ := units_append same
      exact congrArg (List.cons a) (ih later)

theorem encodeUtf16_injective : Function.Injective encodeUtf16 := fun _ _ same =>
  String.toList_injective (flatMap_units_injective same)

theorem encodeUtf16_ascii {name : String} (ascii : name.toList.all (fun character => character.toNat < 0x80) = true) :
    encodeUtf16 name = name.toList.map Char.toNat := by
  unfold encodeUtf16
  generalize name.toList = characters at ascii
  induction characters with
  | nil => rfl
  | cons character rest ih =>
    rw [List.all_cons, Bool.and_eq_true, decide_eq_true_eq] at ascii
    have plain : units character = [character.toNat] := if_pos (by omega)
    rw [List.flatMap_cons, plain, ih ascii.2]
    rfl

/-- The names' code units are in order. -/
theorem sortedNames_units (names : List String) :
    (sortedNames names).map encodeUtf16 = (names.map encodeUtf16).insertionSort (· ≤ ·) := by
  unfold sortedNames
  split
  · next ascii =>
    rw [List.all_eq_true] at ascii
    refine List.map_insertionSort _ _ _ _ fun a member b member' => ?_
    rw [encodeUtf16_ascii (ascii a member), encodeUtf16_ascii (ascii b member')]
  · exact List.map_insertionSort _ _ _ _ fun a _ b _ => Iff.rfl

theorem mem_sortedNames {name : String} : name ∈ sortedNames names ↔ name ∈ names := by
  unfold sortedNames
  split <;> exact List.mem_insertionSort _

/-- Names each once are in strict order. -/
theorem sortedNames_strict (once : names.Nodup) : (sortedNames names).Pairwise fun a b => encodeUtf16 a < encodeUtf16 b := by
  have order : ((sortedNames names).map encodeUtf16).Pairwise (· ≤ ·) := by
    rw [sortedNames_units]
    exact List.pairwise_insertionSort _ _
  have apart : ((sortedNames names).map encodeUtf16).Nodup := by
    rw [sortedNames_units]
    exact (List.perm_insertionSort _ _).nodup_iff.mpr (once.map encodeUtf16_injective)
  have strict := order.and apart
  rw [List.pairwise_map] at strict
  exact strict.imp fun both => lt_of_le_of_ne both.1 both.2

/-- The order of names is that of their set. -/
theorem sortedNames_congr (once : names.Nodup) (once' : names'.Nodup) (same : ∀ name, name ∈ names ↔ name ∈ names') :
    sortedNames names = sortedNames names' := by
  have perm : (names.map encodeUtf16).Perm (names'.map encodeUtf16) := ((List.perm_ext_iff_of_nodup once once').mpr same).map _
  refine List.map_injective_iff.mpr encodeUtf16_injective ?_
  rw [sortedNames_units, sortedNames_units]
  refine List.Perm.eq_of_pairwise' (List.pairwise_insertionSort _ _) (List.pairwise_insertionSort _ _) ?_
  exact (List.perm_insertionSort _ _).trans (perm.trans (List.perm_insertionSort _ _).symm)

end

section
variable {P : Value → Prop}

mutual

theorem Value.all (atom : ∀ value, (∀ items, value ≠ .array items) → (∀ members, value ≠ .object members) → P value)
    (array : ∀ items, (∀ item ∈ items, P item) → P (.array items))
    (object : ∀ members, (∀ member ∈ members, P member.2) → P (.object members)) : ∀ value, P value
  | .null => atom .null nofun nofun
  | .bool value => atom (.bool value) nofun nofun
  | .number n => atom (.number n) nofun nofun
  | .string text => atom (.string text) nofun nofun
  | .array items => array items (Value.allItems atom array object items)
  | .object members => object members (Value.allMembers atom array object members)

theorem Value.allItems (atom : ∀ value, (∀ items, value ≠ .array items) → (∀ members, value ≠ .object members) → P value)
    (array : ∀ items, (∀ item ∈ items, P item) → P (.array items))
    (object : ∀ members, (∀ member ∈ members, P member.2) → P (.object members)) : ∀ items : List Value, ∀ item ∈ items, P item
  | [] => fun item member => absurd member List.not_mem_nil
  | first :: rest => List.forall_mem_cons.mpr
    ⟨Value.all atom array object first, Value.allItems atom array object rest⟩

theorem Value.allMembers (atom : ∀ value, (∀ items, value ≠ .array items) → (∀ members, value ≠ .object members) → P value)
    (array : ∀ items, (∀ item ∈ items, P item) → P (.array items))
    (object : ∀ members, (∀ member ∈ members, P member.2) → P (.object members)) :
    ∀ members : List (String × Value), ∀ member ∈ members, P member.2
  | [] => fun member held => absurd held List.not_mem_nil
  | (_, value) :: rest => List.forall_mem_cons.mpr
    ⟨Value.all atom array object value, Value.allMembers atom array object rest⟩

end

end

end MeridianCore.AnalyticsEngine.Canonical

/-! Values of one meaning are written alike: the items of an array in turn, the members of an object each by its name. -/

namespace MeridianCore.AnalyticsEngine.Canonical

section
variable {a b : Value} {items items' : List Value} {members members' : List (String × Value)} {name : String}

theorem meaningItems_eq (items : List Value) : meaningItems items = items.map meaning := by
  induction items with
  | nil => rfl
  | cons item rest ih => rw [meaningItems, ih, List.map_cons]

theorem uniqueItems_iff : UniqueItems items ↔ ∀ item ∈ items, Unique item := by
  induction items with
  | nil => exact ⟨fun _ item member => absurd member List.not_mem_nil, fun _ => trivial⟩
  | cons item rest ih => rw [UniqueItems, ih, List.forall_mem_cons]

theorem uniqueMembers_iff : UniqueMembers members ↔ ∀ member ∈ members, Unique member.2 := by
  induction members with
  | nil => exact ⟨fun _ member held => absurd held List.not_mem_nil, fun _ => trivial⟩
  | cons member rest ih =>
    obtain ⟨name, value⟩ := member
    rw [UniqueMembers, ih, List.forall_mem_cons]

theorem lookup_cons (name member : String) (value : Value) (rest : List (String × Value)) :
    ((member, value) :: rest).lookup name = if name = member then some value else rest.lookup name := by
  rw [List.lookup_cons]
  by_cases same : name = member
  · rw [if_pos same, beq_iff_eq.mpr same]
  · rw [if_neg same, beq_eq_false_iff_ne.mpr same]

theorem meaningMembers_eq (members : List (String × Value)) (name : String) :
    meaningMembers members name = (members.lookup name).map meaning := by
  induction members with
  | nil => rfl
  | cons member rest ih =>
    obtain ⟨member, value⟩ := member
    rw [meaningMembers, ih, lookup_cons]
    split_ifs <;> rfl

theorem lookup_writeMembers (members : List (String × Value)) (name : String) :
    (writeMembers members).lookup name = (members.lookup name).map write := by
  induction members with
  | nil => rfl
  | cons member rest ih =>
    obtain ⟨member, value⟩ := member
    rw [writeMembers, List.lookup_cons, List.lookup_cons, ih]
    cases name == member <;> rfl

theorem mem_of_lookup {value : Value} (found : members.lookup name = some value) : (name, value) ∈ members := by
  induction members with
  | nil => cases found
  | cons member rest ih =>
    obtain ⟨member, held⟩ := member
    rw [lookup_cons] at found
    split_ifs at found with same
    · cases found
      rw [same]
      exact List.mem_cons_self
    · exact List.mem_cons_of_mem _ (ih found)

theorem lookup_isSome_iff : (members.lookup name).isSome ↔ name ∈ members.map Prod.fst := by
  induction members with
  | nil => simp
  | cons member rest ih =>
    obtain ⟨member, value⟩ := member
    rw [lookup_cons, List.map_cons, List.mem_cons, ← ih]
    split_ifs with same
    · simp [same]
    · simp [same]

/-- An object's members are written each by its name, in the names' order. -/
theorem writeMember_eq (members : List (String × Value)) (name : String) : writeMember (writeMembers members) name = (do
    let value ← ((members.lookup name).map write).getD (.error ⟨name⟩)
    return writeString name ++ ':' :: value) := by
  rw [writeMember, lookup_writeMembers]

theorem writeItems_congr (each : ∀ item ∈ items, ∀ other, meaning item = meaning other → Unique other → write item = write other)
    (same : items.map meaning = items'.map meaning) (unique : ∀ item ∈ items', Unique item) : writeItems items = writeItems items' := by
  induction items generalizing items' with
  | nil =>
    cases items' with
    | nil => rfl
    | cons other rest => cases same
  | cons item rest ih =>
    cases items' with
    | nil => cases same
    | cons other others =>
      obtain ⟨first, later⟩ := List.cons_eq_cons.mp same
      obtain ⟨own, rest_⟩ := List.forall_mem_cons.mp unique
      obtain ⟨mine, after⟩ := List.forall_mem_cons.mp each
      rw [writeItems, writeItems, mine other first own, ih after later rest_]

/-- Values of one meaning are written alike. -/
theorem write_congr (unique : Unique a) (unique' : Unique b) (same : meaning a = meaning b) : write a = write b := by
  induction a using Value.all generalizing b with
  | atom a noArray noObject =>
    cases a with
    | array items => exact absurd rfl (noArray items)
    | object members => exact absurd rfl (noObject members)
    | null => cases b <;> simp_all [meaning]
    | bool value => cases b <;> simp_all [meaning]
    | number n => cases b <;> simp_all [meaning]
    | string text => cases b <;> simp_all [meaning]
  | array items ih =>
    cases b with
    | array others =>
      rw [meaning, meaning, meaningItems_eq, meaningItems_eq] at same
      have each := uniqueItems_iff.mp unique
      rw [write, write, writeItems_congr (fun item member other same' own => ih item member (each item member) own same')
        (Meaning.array.inj same) (uniqueItems_iff.mp unique')]
    | _ => cases same
  | object members ih =>
    cases b with
    | object others =>
      have values : ∀ name, (members.lookup name).map meaning = (others.lookup name).map meaning := fun name => by
        rw [← meaningMembers_eq, ← meaningMembers_eq, Meaning.object.inj same]
      have names : ∀ name, name ∈ members.map Prod.fst ↔ name ∈ others.map Prod.fst := fun name => by
        rw [← lookup_isSome_iff, ← lookup_isSome_iff, ← Option.isSome_map (f := meaning), values name, Option.isSome_map]
      have written : ∀ name, (members.lookup name).map write = (others.lookup name).map write := by
        intro name
        have value := values name
        cases found : members.lookup name with
        | none =>
          rw [found] at value
          rw [Option.map_eq_none_iff.mp value.symm]
        | some held =>
          rw [found] at value
          obtain ⟨other, found', same'⟩ := Option.map_eq_some_iff.mp value.symm
          have member := mem_of_lookup found
          have member' := mem_of_lookup found'
          rw [found', Option.map_some, Option.map_some]
          exact congrArg some (ih (name, held) member (uniqueMembers_iff.mp unique.2 _ member)
            (uniqueMembers_iff.mp unique'.2 _ member') same'.symm)
      have each : writeMember (writeMembers members) = writeMember (writeMembers others) := by
        funext name
        rw [writeMember_eq, writeMember_eq, written name]
      rw [write, write, sortedNames_congr unique.1 unique'.1 names, each]
    | _ => cases same

end

end MeridianCore.AnalyticsEngine.Canonical
