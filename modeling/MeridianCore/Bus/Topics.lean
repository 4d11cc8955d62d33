import MeridianCore.Ordered.Segmented

/-! Topic patterns, and what a pattern is as a broker's subject. -/

namespace MeridianCore.Bus
open Segmented

/-- A topic's segments, as its points part them. -/
def segments (topic : String) : List String := (topic.toList.splitOn '.').map String.ofList

/-- The segments of a pattern from one on, held to a topic's. -/
def matchesFrom (pattern topic : List String) (i : Nat) : List String → Bool
  | [] => pattern.length == topic.length
  | segment :: rest =>
    if segment = "**" then i < topic.length && i + 1 == pattern.length
    else if segment = "*" then
      if topic.length ≤ i then false else matchesFrom pattern topic (i + 1) rest
    else if topic[i]? ≠ some segment then false else matchesFrom pattern topic (i + 1) rest

/-- Does a topic match a pattern? A pattern with no wildcard is an exact match. -/
def topicMatches (pattern topic : String) : Bool :=
  if '*' ∉ pattern.toList then pattern = topic
  else matchesFrom (segments pattern) (segments topic) 0 (segments pattern)

/-- Is this a well-formed topic to publish on? -/
def isPublishable (topic : String) : Bool :=
  topic ≠ "" && '*' ∉ topic.toList && ¬ ['.', '.'] <:+: topic.toList && topic.toList.head? ≠ some '.' &&
    topic.toList.getLast? ≠ some '.'

/-- What a segment of a pattern takes. -/
def piece (segment : String) : Piece String :=
  if segment = "**" then .tail else if segment = "*" then .one else .literal segment

def pieces (pattern : String) : List (Piece String) := (segments pattern).map piece

/-- A text without a suffix, where it ends with it. -/
def stripSuffix (suffix text : String) : Option String :=
  if suffix.toList <:+ text.toList then some (String.ofList (text.toList.take (text.toList.length - suffix.toList.length))) else none

/-- A pattern as a broker's subject: only the tail wildcard differs. -/
def NatsBackend.subject (pattern : String) : String :=
  match stripSuffix ".**" pattern with
  | some head => head ++ ".>"
  | none => if pattern = "**" then ">" else pattern

/-- What a token of a broker's subject takes. -/
def token (segment : String) : Piece String :=
  if segment = ">" then .tail else if segment = "*" then .one else .literal segment

/-- A broker that carries a subject as its documentation says: a star is one token, and an angle, the last, one or more. -/
def Grammar (carries : String → String → Bool) : Prop :=
  ∀ subject topic, carries subject topic = true ↔ Delivers ((segments subject).map token) (segments topic)

section Segments

variable {pattern topic : String}

theorem ofList_injective : Function.Injective String.ofList := by
  intro one other same
  rw [← String.toList_ofList (l := one), same, String.toList_ofList]

theorem joined_split (name : List Char) : ['.'].intercalate (name.splitOn '.') = name := List.intercalate_splitOn '.'

theorem segments_some (topic : String) : segments topic ≠ [] := by
  unfold segments
  exact fun none' => List.splitOn_ne_nil _ _ (List.map_eq_nil_iff.mp none')

theorem segments_injective : Function.Injective segments := by
  intro one other same
  have split := List.map_injective_iff.mpr ofList_injective same
  apply String.toList_injective
  rw [← joined_split one.toList, split, joined_split]

theorem segments_append (before after : List Char) :
    segments (String.ofList (before ++ '.' :: after)) = segments (String.ofList before) ++ segments (String.ofList after) := by
  unfold segments
  rw [String.toList_ofList, String.toList_ofList, String.toList_ofList, List.splitOn_append_cons_self, List.map_append]

/-- What is in a segment is in the topic. -/
theorem mem_segments {segment : String} {c : Char} (member : segment ∈ segments topic) (among : c ∈ segment.toList) : c ∈ topic.toList := by
  obtain ⟨part, listed, rfl⟩ := List.mem_map.mp member
  rw [String.toList_ofList] at among
  rw [← joined_split topic.toList]
  obtain ⟨before, after, split⟩ := List.append_of_mem listed
  have within : part <:+: ['.'].intercalate (topic.toList.splitOn '.') := by
    rw [split]
    exact infix_intercalate before after part
  exact within.subset among
where
  infix_intercalate (before after : List (List Char)) (part : List Char) : part <:+: ['.'].intercalate (before ++ part :: after) := by
    induction before with
    | nil =>
      cases after with
      | nil => rw [List.nil_append, List.intercalate_singleton]
      | cons second rest =>
        rw [List.nil_append, List.intercalate_cons_cons, List.append_assoc]
        exact (List.prefix_append _ _).isInfix
    | cons first before ih =>
      rw [List.cons_append, List.intercalate_cons_of_ne_nil (by simp)]
      exact ih.trans (List.suffix_append _ _).isInfix

theorem piece_literal {segment : String} (plain : '*' ∉ segment.toList) : piece segment = .literal segment := by
  have one : segment ≠ "*" := by
    rintro rfl
    exact plain (by decide)
  have tail : segment ≠ "**" := by
    rintro rfl
    exact plain (by decide)
  rw [piece, if_neg tail, if_neg one]

theorem pieces_literal (plain : '*' ∉ pattern.toList) : pieces pattern = (segments pattern).map .literal := by
  unfold pieces
  refine List.map_congr_left fun segment member => piece_literal fun star => plain (mem_segments member star)

end Segments

section Matches

variable {pattern topic : List String}

/-- The loop, past the segments it held: what is left of the pattern takes what is left of the topic. -/
theorem matchesFrom_iff (i : Nat) (rest : List String) (length : i + rest.length = pattern.length) (within : i ≤ topic.length) :
    matchesFrom pattern topic i rest = true ↔ Delivers (rest.map piece) (topic.drop i) := by
  induction rest generalizing i with
  | nil =>
    rw [matchesFrom, List.map_nil, delivers_nil, List.drop_eq_nil_iff, beq_iff_eq, ← length]
    simp only [List.length_nil]
    omega
  | cons segment rest ih =>
    rw [matchesFrom, List.map_cons]
    simp only [List.length_cons] at length
    by_cases tail : segment = "**"
    · rw [if_pos tail, tail, show piece "**" = .tail by decide, delivers_tail, Bool.and_eq_true, decide_eq_true_eq, beq_iff_eq,
        List.map_eq_nil_iff, Ne, List.drop_eq_nil_iff, ← List.length_eq_zero_iff]
      omega
    · rw [if_neg tail]
      by_cases one : segment = "*"
      · rw [if_pos one, one, show piece "*" = .one by decide, delivers_one]
        by_cases past : topic.length ≤ i
        · rw [if_pos past, List.drop_eq_nil_of_le past]
          simp
        · rw [if_neg past, ih (i + 1) (by omega) (by omega), List.drop_eq_getElem_cons (Nat.lt_of_not_le past)]
          constructor
          · exact fun later => ⟨_, _, rfl, later⟩
          · rintro ⟨_, _, same, later⟩
            rwa [(List.cons.inj same).2]
      · rw [if_neg one, show piece segment = .literal segment by rw [piece, if_neg tail, if_neg one], delivers_literal]
        by_cases past : topic.length ≤ i
        · rw [if_pos (by rw [List.getElem?_eq_none past]; simp), List.drop_eq_nil_of_le past]
          simp
        · rw [List.getElem?_eq_getElem (Nat.lt_of_not_le past), List.drop_eq_getElem_cons (Nat.lt_of_not_le past)]
          have inside := Nat.lt_of_not_le past
          by_cases same : topic[i] = segment
          · rw [if_neg (by simp [same]), ih (i + 1) (by omega) (by omega), same]
            constructor
            · exact fun later => ⟨_, rfl, later⟩
            · rintro ⟨_, same', later⟩
              rwa [(List.cons.inj same').2]
          · rw [if_pos (by simpa using same)]
            refine ⟨fun never => absurd never Bool.false_ne_true, ?_⟩
            rintro ⟨_, same', -⟩
            exact absurd (List.cons.inj same').1 same

end Matches

/-- Matching is the grammar's: a star exactly one segment, a last double star one or more, and any other segment itself. -/
theorem topicMatches_iff (pattern topic : String) : topicMatches pattern topic = true ↔ Delivers (pieces pattern) (segments topic) := by
  unfold topicMatches
  by_cases plain : '*' ∉ pattern.toList
  · rw [if_pos plain, decide_eq_true_eq, pieces_literal plain, delivers_literals, segments_injective.eq_iff]
  · rw [if_neg plain]
    exact matchesFrom_iff 0 (segments pattern) (Nat.zero_add _) (Nat.zero_le _)

theorem stripSuffix_some {suffix text head : String} (stripped : stripSuffix suffix text = some head) : text = head ++ suffix := by
  unfold stripSuffix at stripped
  split at stripped
  · next ends =>
    obtain ⟨start, same⟩ := ends
    obtain rfl := Option.some.inj stripped
    apply String.toList_injective
    rw [String.toList_append, String.toList_ofList, ← same]
    simp
  · cases stripped

theorem stripSuffix_append (head suffix : String) : stripSuffix suffix (head ++ suffix) = some head := by
  unfold stripSuffix
  rw [String.toList_append, if_pos (List.suffix_append _ _)]
  simp

/-- Segments with the last, where it is the tail wildcard, as a broker writes it. -/
def retail : List String → List String
  | [] => []
  | [last] => [if last = "**" then ">" else last]
  | first :: second :: rest => first :: retail (second :: rest)

theorem retail_tail (before : List String) : retail (before ++ ["**"]) = before ++ [">"] := by
  induction before with
  | nil => rfl
  | cons first before ih =>
    cases before with
    | nil => rfl
    | cons second before => exact congrArg (first :: ·) ih

theorem retail_plain (all : List String) (plain : all.getLast? ≠ some "**") : retail all = all := by
  induction all with
  | nil => rfl
  | cons first rest ih =>
    cases rest with
    | nil =>
      rw [retail, if_neg]
      rintro rfl
      exact plain rfl
    | cons second rest =>
      rw [retail, ih]
      rwa [List.getLast?_cons_cons] at plain

section Subjects

variable {carries : String → String → Bool} {pattern topic : String}

theorem segments_literal (text : String) (plain : '.' ∉ text.toList) : segments text = [text] := by
  unfold segments
  rw [List.splitOn_eq_singleton plain, List.map_singleton, String.ofList_toList]

/-- A pattern whose last segment is the tail wildcard is that alone, or ends in it. -/
theorem tailed (last : (segments pattern).getLast? = some "**") : pattern = "**" ∨ ∃ head, pattern = head ++ ".**" := by
  obtain ⟨before, split⟩ := List.getLast?_eq_some_iff.mp last
  have parts := congrArg (List.map String.toList) split
  unfold segments at parts
  have unmade : String.toList ∘ String.ofList = id := funext fun text => String.toList_ofList
  rw [List.map_map, unmade, List.map_id, List.map_append] at parts
  have whole := joined_split pattern.toList
  rw [parts] at whole
  rcases List.eq_nil_or_concat before with rfl | ⟨front, final, rfl⟩
  · left
    apply String.toList_injective
    exact whole.symm
  · right
    refine ⟨String.ofList (['.'].intercalate ((front ++ [final]).map String.toList)), ?_⟩
    apply String.toList_injective
    rw [← whole, String.toList_append, String.toList_ofList, List.concat_eq_append, List.map_singleton, intercalate_last _ _ (by simp)]
    rfl
where
  intercalate_last (parts : List (List Char)) (last : List Char) (some' : parts ≠ []) :
      ['.'].intercalate (parts ++ [last]) = ['.'].intercalate parts ++ '.' :: last := by
    induction parts with
    | nil => exact absurd rfl some'
    | cons first rest ih =>
      cases rest with
      | nil => simp
      | cons second rest =>
        have later := ih (List.cons_ne_nil _ _)
        rw [List.cons_append] at later
        rw [List.cons_append, List.cons_append, List.intercalate_cons_cons, later, List.intercalate_cons_cons, List.append_assoc,
          List.append_assoc, List.append_assoc]

/-- A subject's tokens are the pattern's segments, the last wildcard as a broker writes it. -/
theorem segments_subject (pattern : String) : segments (NatsBackend.subject pattern) = retail (segments pattern) := by
  have ended (head : String) (last : List Char) (free : '.' ∉ last) :
      segments (head ++ String.ofList ('.' :: last)) = segments head ++ [String.ofList last] := by
    rw [show head ++ String.ofList ('.' :: last) = String.ofList (head.toList ++ '.' :: last) by
      apply String.toList_injective
      simp, segments_append, String.ofList_toList, segments_literal (String.ofList last) (by simpa using free)]
  unfold NatsBackend.subject
  cases stripped : stripSuffix ".**" pattern with
  | some head =>
    obtain rfl := stripSuffix_some stripped
    dsimp only
    rw [show ".>" = String.ofList ['.', '>'] by rfl, show ".**" = String.ofList ['.', '*', '*'] by rfl, ended head _ (by decide),
      ended head _ (by decide)]
    exact (retail_tail _).symm
  | none =>
    dsimp only
    by_cases whole : pattern = "**"
    · rw [if_pos whole, whole]
      decide +kernel
    · rw [if_neg whole, retail_plain]
      intro last
      rcases tailed last with same | ⟨head, rfl⟩
      · exact whole same
      · rw [stripSuffix_append] at stripped
        cases stripped

theorem token_piece {segment : String} (angle : segment ≠ ">") (tail : segment ≠ "**") : token segment = piece segment := by
  rw [token, piece, if_neg angle, if_neg tail]

theorem delivers_retail (all topic : List String) (free : ">" ∉ all) (sent : "**" ∉ topic) :
    Delivers ((retail all).map token) topic ↔ Delivers (all.map piece) topic := by
  induction all generalizing topic with
  | nil => rfl
  | cons first rest ih =>
    obtain ⟨own, later⟩ := not_or.mp fun either => free (List.mem_cons.mpr either)
    cases rest with
    | nil =>
      by_cases tail : first = "**"
      · subst tail
        rfl
      · rw [retail, if_neg tail, List.map_singleton, List.map_singleton, token_piece (Ne.symm own) tail]
    | cons second rest =>
      rw [retail, List.map_cons, List.map_cons]
      by_cases tail : first = "**"
      · subst tail
        rw [show token "**" = .literal "**" by decide, show piece "**" = .tail by decide, delivers_literal, delivers_tail]
        constructor
        · rintro ⟨others, rfl, -⟩
          exact absurd List.mem_cons_self sent
        · rintro ⟨none', -⟩
          cases none'
      · rw [token_piece (Ne.symm own) tail]
        by_cases one : first = "*"
        · subst one
          rw [show piece "*" = .one by decide, delivers_one, delivers_one]
          refine exists_congr fun segment => exists_congr fun others => and_congr_right ?_
          rintro rfl
          exact ih others later fun among => sent (List.mem_cons_of_mem _ among)
        · rw [piece, if_neg tail, if_neg one, delivers_literal, delivers_literal]
          refine exists_congr fun others => and_congr_right ?_
          rintro rfl
          exact ih others later fun among => sent (List.mem_cons_of_mem _ among)

theorem publishable_plain (sent : isPublishable topic = true) : '*' ∉ topic.toList := by
  unfold isPublishable at sent
  simp only [Bool.and_eq_true, decide_eq_true_eq] at sent
  exact sent.1.1.1.2

/-- What a subject carries of what may be sent is what its pattern takes. -/
theorem carries_iff (grammar : Grammar carries) (free : '>' ∉ pattern.toList) (sent : isPublishable topic = true) :
    carries (NatsBackend.subject pattern) topic = true ↔ Delivers (pieces pattern) (segments topic) := by
  rw [grammar, segments_subject]
  refine delivers_retail _ _ (fun angle => free (mem_segments angle (by decide))) fun stars => ?_
  exact publishable_plain sent (mem_segments stars (by decide))

/-- A message is carried to a subscription by a broker exactly where the bus in memory delivers it there. -/
theorem subject_agrees (grammar : Grammar carries) (free : '>' ∉ pattern.toList) (sent : isPublishable topic = true) :
    carries (NatsBackend.subject pattern) topic = topicMatches pattern topic := by
  rw [Bool.eq_iff_iff, carries_iff grammar free sent, topicMatches_iff]

/-- A broker as its documentation says. -/
def documented (subject topic : String) : Bool := decide (Delivers ((segments subject).map token) (segments topic))

theorem documented_grammar : Grammar documented := fun _ _ => decide_eq_true_iff

theorem subject_agrees_tail : isPublishable "platform.street.event" = true ∧
    documented (NatsBackend.subject "platform.street.**") "platform.street.event" =
      topicMatches "platform.street.**" "platform.street.event" :=
  ⟨by decide +kernel, subject_agrees documented_grammar (by decide) (by decide +kernel)⟩

end Subjects

end MeridianCore.Bus
