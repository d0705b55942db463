import Opale.Ask.Validated
import Opale.Sql.Like
import Opale.Sql.Places

namespace Opale.Ask

open Js Sql

/-- The types of the places of parameters; `pattern` is the text behind ILIKE. -/
inductive Place where
  | days | limit | numeric | text | pattern | bool | uuid
  deriving Repr, DecidableEq

def isHex (u : UInt16) : Bool := (48 ≤ u && u ≤ 57) || (97 ≤ u && u ≤ 102) || (65 ≤ u && u ≤ 70)

/-- Eight digits, three times four and twelve, with hyphens between them. -/
def isUuid (s : Units) : Bool :=
  s.length = 36 && s.zipIdx.all fun (u, i) => if i ∈ [8, 13, 18, 23] then u = 45 else isHex u

/-- What a session of PostgreSQL has: the `now()` of its transaction in microseconds since 2000 (UTC), and what its time
zone adds, now and at a local time. -/
structure Session where
  now : Int
  offset : Int
  offsetAt : Int → Int

/-- The first instant of 4714-11-24 BC. -/
def MIN_TIMESTAMP : Int := -211813488000000000

/-- The first instant of 294277. -/
def END_TIMESTAMP : Int := 9223371331200000000

/-- `now() - make_interval(days => days)`, the days taken from the local date; none is "timestamp out of range". -/
def Session.daysAgo (session : Session) (days : Int) : Option Int :=
  let local_ := session.now + session.offset - days * 86400000000
  let time := local_ - session.offsetAt local_
  if MIN_TIMESTAMP ≤ local_ ∧ MIN_TIMESTAMP ≤ time ∧ time < END_TIMESTAMP then some time else none

/-- A number of days that the session takes from now: an `int4`, and the instant is in range. -/
def Session.TakesDays (session : Session) (n : Int) : Prop := -2 ^ 31 ≤ n ∧ n < 2 ^ 31 ∧ (session.daysAgo n).isSome

/-- A text that PostgreSQL stores. -/
def IsText (v : FilterValue) : Prop := ∃ s, v = .string s ∧ 0 ∉ s

def IsUuid (v : FilterValue) : Prop := ∃ s, v = .string s ∧ isUuid s

/-- The backslash of the last unit escapes nothing. -/
def BadPattern (s : Units) : Prop := endsInEscape (92 : UInt16) s = true

/-- The values with which PostgreSQL does not fail at a place of the type. -/
def Place.Domain (session : Session) : Place → FilterValue → Prop
  | .days, v => ∃ n : Int, v = .number ((n : ℚ) : JsNumber) ∧ session.TakesDays n
  | .limit, v => ∃ n : Int, v = .number ((n : ℚ) : JsNumber) ∧ 0 ≤ n ∧ n < 2 ^ 63
  | .numeric, v => ∃ q : ℚ, v = .number (q : JsNumber)
  | .text, v => IsText v
  | .pattern, v => ∃ s, v = .string s ∧ 0 ∉ s ∧ ¬BadPattern s
  | .bool, v => ∃ b, v = .bool b
  | .uuid, v => IsUuid v

/-- The columns that are compared with a parameter. -/
def columns : List (String × Place) := [
  ("d.disk_used_pct", .numeric), ("d.ram_gb", .numeric), ("d.assigned_user_id", .text), ("u.department", .text),
  ("t.status", .text), ("t.priority", .text), ("t.user_id", .text), ("t.is_auto", .bool), ("tt.tag_id", .uuid),
  ("cr.rule_id", .text), ("cr.status", .text), ("cr.severity", .text), ("anc.group_id", .uuid)]

def operators : List String := [" = ", " >= ", " < "]

/-- What stands before a parameter, and the type that it imposes. -/
def CONTEXTS : List (List Char × Place) :=
  ("make_interval(days => ".toList, .days) :: ("\n    LIMIT ".toList, .limit) :: (" ILIKE ".toList, .pattern) ::
    (")::bool = ".toList, .bool) :: columns.flatMap fun (column, place) =>
      operators.map fun operator => ((column ++ operator).toList, place)

/-- Every parameter belongs to the domain of its places. -/
def Query.InDomain (query : Query) (session : Session) : Prop :=
  Admitted CONTEXTS (Place.Domain session) query.text query.params

/-- The column of the identifiers that a name of the kind resolves to. -/
def Kind.column : Kind → Place
  | .group | .tag => .uuid
  | .user | .department | .rule => .text

/-- A value of the column. -/
def Kind.Identifier : Kind → FilterValue → Prop
  | .group, v | .tag, v => IsUuid v
  | .user, v | .department, v | .rule, v => IsText v

theorem Kind.Identifier.domain {session : Session} {kind : Kind} {v : FilterValue} (identifier : kind.Identifier v) :
    kind.column.Domain session v := by
  cases kind <;> exact identifier

/-- What a filter is applied to: a checked value, or one that a name has resolved to. -/
def FilterType.Given : FilterType → FilterValue → Prop
  | .enum values, v => ∃ s ∈ values, v = .string s
  | .text, v => ∃ s, v = .string s
  | .number, v => ∃ q : ℚ, v = .number (q : JsNumber)
  | .bool, v => ∃ b, v = .bool b
  | .resolve kind, v => kind.Identifier v

def dayFilters : List Units :=
  ["offline_since_days", "seen_within_days", "created_within_days", "older_than_days"].map ascii

/-- The filter whose text is the pattern itself. -/
def patternFilter : Units := ascii "manufacturer"

/-- What is asked of the value of a filter: days that the session takes, and a text without a zero, which ends in no
escape where it is a pattern by itself. -/
structure Fine (session : Session) (name : Units) (type : FilterType) (v : FilterValue) : Prop where
  days : name ∈ dayFilters → Place.days.Domain session v
  text : type = .text → ∀ s, v = .string s → 0 ∉ s
  pattern : name = patternFilter → ∀ s, v = .string s → ¬BadPattern s

/-- The filter gives a fragment that binds those values, at places of those types. -/
def Filter.Binds (f : Filter) (bind : FilterValue → List (Place × FilterValue)) : Prop :=
  ∀ thresholds v, f.type.Given v → ∀ params, ∃ t, Sound t ∧ Fills CONTEXTS t params.length (bind v) ∧
    ((f.apply v).run thresholds).run params = pure (some t, params ++ (bind v).map (·.2))

/-- What the filter binds belongs to its places exactly when its value is fine. -/
def Meets (session : Session) (entry : Units × Filter) : Prop :=
  ∃ bind, entry.2.Binds bind ∧ ∀ v, entry.2.type.Given v →
    ((∀ b ∈ bind v, b.1.Domain session b.2) ↔ Fine session entry.1 entry.2.type v)

theorem fills_nothing {t : Template} (plain : ∀ front, t.places front = []) (n : Nat) :
    Fills (V := FilterValue) CONTEXTS t n [] where
  placed front p member := by
    rw [plain] at member
    cases member
  used _ _ less := absurd less (Nat.not_lt_zero _)

theorem fills_one {t : Template} {n : Nat} {place : Place} {v : FilterValue}
    (placed : ∀ front, ∀ p ∈ t.places front, p.2 = n + 1 ∧ imposed CONTEXTS p.1 = some place)
    (used : ∀ front, ∃ before, (before, n + 1) ∈ t.places front) : Fills CONTEXTS t n [(place, v)] where
  placed front p member := by
    obtain ⟨number, imposes⟩ := placed front p member
    exact ⟨0, (place, v), number, rfl, imposes⟩
  used front i less := by
    have first : i = 0 := Nat.lt_one_iff.mp less
    subst first
    exact used front

/-- The text before a placeholder, and what it imposes there whatever stands before it. -/
structure Imposing (before : List Char) (place : Place) : Prop where
  closed : Closed CONTEXTS before
  imposes : imposed CONTEXTS before = some place

theorem Imposing.behind {before : List Char} {place : Place} (imposing : Imposing before place) (front : List Char) :
    imposed CONTEXTS (front ++ before) = some place := by
  rw [imposed_append imposing.closed, imposing.imposes]

theorem operators_unnested : operators.Pairwise fun o p => Unnested o.toList p.toList := by
  decide

theorem columns_unnested : columns.Pairwise fun c d => Unnested c.1.toList d.1.toList := by
  decide

/-- Two comparisons differ in the column, or they have the same column and another operator. -/
theorem comparisons_unnested : (columns.flatMap fun (column, place) =>
    operators.map fun operator => ((column ++ operator).toList, place)).Pairwise fun c d => Unnested c.1 d.1 := by
  rw [List.pairwise_flatMap]
  constructor
  · rintro ⟨column, place⟩ -
    rw [List.pairwise_map]
    refine operators_unnested.imp ?_
    intro o p apart
    simp only [String.toList_append]
    exact apart.behind _ _
  · refine columns_unnested.imp ?_
    rintro ⟨column, place⟩ ⟨column', place'⟩ apart _ first _ second
    obtain ⟨o, known, rfl⟩ := List.mem_map.mp first
    obtain ⟨p, known', rfl⟩ := List.mem_map.mp second
    simp only [String.toList_append]
    by_cases same : o = p
    · rw [same]
      exact apart.before _
    · exact (unnested_of_pairwise operators_unnested known known' same).behind _ _

theorem contexts_unnested : CONTEXTS.Pairwise fun c d => Unnested c.1 d.1 := by
  -- An operator tells the first four from every comparison, but for `)::bool = `, where the column does.
  have first : ∀ c ∈ CONTEXTS.take 4, ∀ o ∈ operators,
      Unnested c.1 o.toList ∨ ∀ column ∈ columns, Unnested c.1 (column.1.toList ++ o.toList) := by decide
  rw [← List.take_append_drop 4 CONTEXTS, List.pairwise_append]
  refine ⟨by decide, comparisons_unnested, fun c special d comparison => ?_⟩
  obtain ⟨⟨column, place⟩, known, inside⟩ := List.mem_flatMap.mp comparison
  obtain ⟨operator, compares, rfl⟩ := List.mem_map.mp inside
  rw [String.toList_append]
  rcases first c special operator compares with apart | apart
  · exact apart.append_right _
  · exact apart (column, place) known

/-- No context is the end of another one. -/
theorem closed_contexts : ∀ c ∈ CONTEXTS, Closed CONTEXTS c.1 ∧ imposed CONTEXTS c.1 = some c.2 :=
  fun _ known => closed_of_pairwise contexts_unnested known

section

variable {before : List Char}

theorem imposing_context {c : List Char × Place} (known : c ∈ CONTEXTS) (ends : c.1 <:+ before) : Imposing before c.2 := by
  obtain ⟨closed, imposes⟩ := closed_contexts c known
  obtain ⟨front, rfl⟩ := ends
  constructor
  · intro d member within
    have inside : d.1 <:+ c.1 := closed d member ((List.suffix_append front c.1).trans within)
    exact inside.trans (List.suffix_append front c.1)
  · rw [imposed_append closed, imposes]

theorem imposing_days (ends : "make_interval(days => ".toList <:+ before) : Imposing before .days :=
  imposing_context (List.mem_cons_self) ends

theorem imposing_limit (ends : "\n    LIMIT ".toList <:+ before) : Imposing before .limit :=
  imposing_context (.tail _ List.mem_cons_self) ends

theorem imposing_ilike (ends : " ILIKE ".toList <:+ before) : Imposing before .pattern :=
  imposing_context (.tail _ (.tail _ List.mem_cons_self)) ends

theorem imposing_bool (ends : ")::bool = ".toList <:+ before) : Imposing before .bool :=
  imposing_context (.tail _ (.tail _ (.tail _ List.mem_cons_self))) ends

theorem imposing_column (column operator : String) {place : Place} (known : (column, place) ∈ columns)
    (compares : operator ∈ operators) (ends : (column ++ operator).toList <:+ before) : Imposing before place := by
  have member : ((column ++ operator).toList, place) ∈ CONTEXTS :=
    .tail _ (.tail _ (.tail _ (.tail _ (List.mem_flatMap.mpr ⟨_, known, List.mem_map.mpr ⟨operator, compares, rfl⟩⟩))))
  exact imposing_context member ends

end

section

variable {session : Session} {before after : List Char} {place : Place} {name : Units}

theorem binds_comparing (around : Around before after) (imposing : Imposing before place) (type : FilterType)
    (g : FilterValue → FilterValue) :
    Filter.Binds ⟨type, fun v => comparing (.ofList before) (.ofList after) (g v)⟩ fun v => [(place, g v)] := by
  intro thresholds v _ params
  let shape := Shape.repeated before [after] (List.cons_ne_nil _ _) around.plain around.apart
  refine ⟨shape.text params.length, shape.sound _, fills_one (fun front p member => ?_) (fun front => ?_), ?_⟩
  · rw [List.mem_singleton.mp member]
    exact ⟨rfl, imposing.behind front⟩
  · exact ⟨_, List.mem_singleton_self _⟩
  · simp [comparing, shape, Shape.repeated, Shape.holes]

/-- The name ends otherwise than those of the days and than that of the pattern. -/
def Unasked (name : Units) : Prop := ¬ascii "days" <:+ name ∧ ¬ascii "rer" <:+ name

instance (name : Units) : Decidable (Unasked name) := inferInstanceAs (Decidable (_ ∧ _))

theorem Unasked.apart (other : Unasked name) : name ∉ dayFilters ∧ name ≠ patternFilter := by
  have ends : ∀ day ∈ dayFilters, ascii "days" <:+ day := by decide
  refine ⟨fun day => other.1 (ends name day), ?_⟩
  rintro rfl
  exact other.2 (by decide)

/-- A value of which nothing is asked. -/
theorem Fine.of_other {type : FilterType} (other : name ∉ dayFilters ∧ name ≠ patternFilter) (text : type ≠ .text)
    (v : FilterValue) : Fine session name type v :=
  ⟨fun day => absurd day other.1, fun same => absurd same text, fun same => absurd same other.2⟩

/-- What the fragment of the value takes is what any value of the type of the filter is. -/
theorem meets_comparing {type : FilterType} (around : Around before after) (imposing : Imposing before place)
    (other : Unasked name) (text : type ≠ .text)
    (always : ∀ v, type.Given v → place.Domain session v) :
    Meets session (name, ⟨type, comparing (.ofList before) (.ofList after)⟩) := by
  refine ⟨_, binds_comparing around imposing type id, fun v given => ?_⟩
  have fine : Fine session name type v := .of_other other.apart text v
  simp [fine, always v given]

theorem meets_days (around : Around before after) (imposing : Imposing before .days) (day : name ∈ dayFilters) :
    Meets session (name, ⟨.number, comparing (.ofList before) (.ofList after)⟩) := by
  have apart : name ≠ patternFilter := by
    rintro rfl
    exact absurd day (by decide)
  refine ⟨_, binds_comparing around imposing .number id, fun v _ => ?_⟩
  simp only [id_eq, List.forall_mem_singleton]
  constructor
  · exact fun inside => ⟨fun _ => inside, FilterType.noConfusion, fun same => absurd same apart⟩
  · exact fun fine => fine.days day

theorem meets_numeric (around : Around before after) (imposing : Imposing before .numeric)
    (other : Unasked name) :
    Meets session (name, ⟨.number, comparing (.ofList before) (.ofList after)⟩) :=
  meets_comparing around imposing other FilterType.noConfusion fun _ given => given

theorem meets_bool (around : Around before after) (imposing : Imposing before .bool)
    (other : Unasked name) :
    Meets session (name, ⟨.bool, comparing (.ofList before) (.ofList after)⟩) :=
  meets_comparing around imposing other FilterType.noConfusion fun _ given => given

theorem meets_resolve {kind : Kind} (around : Around before after) (imposing : Imposing before kind.column)
    (other : Unasked name) :
    Meets session (name, ⟨.resolve kind, comparing (.ofList before) (.ofList after)⟩) :=
  meets_comparing around imposing other FilterType.noConfusion fun _ given => Kind.Identifier.domain given

theorem meets_enum {values : List Units} (around : Around before after) (imposing : Imposing before .text)
    (other : Unasked name) (clean : ∀ s ∈ values, 0 ∉ s) :
    Meets session (name, ⟨.enum values, comparing (.ofList before) (.ofList after)⟩) := by
  refine meets_comparing around imposing other FilterType.noConfusion fun v given => ?_
  obtain ⟨s, member, rfl⟩ := given
  exact ⟨s, rfl, clean s member⟩

/-- A text between two `%` is in its domain when it has no zero: the last `%` is not an escape. -/
theorem domain_pattern (s : Units) : Place.pattern.Domain session (pattern (.string s)) ↔ 0 ∉ s := by
  have percent : (0 : UInt16) ∉ ascii "%" := by decide
  have closed : ¬BadPattern (ascii "%" ++ s ++ ascii "%") := by
    have last : endsInEscape (92 : UInt16) (ascii "%" ++ s ++ [37]) = false := endsInEscape_concat (by decide) _
    unfold BadPattern
    rw [show ascii "%" = [37] from rfl] at last ⊢
    rw [last]
    exact Bool.false_ne_true
  simp only [Place.Domain, pattern, FilterValue.text, FilterValue.string.injEq, exists_eq_left', List.mem_append, percent,
    false_or, or_false, closed, not_false_eq_true, and_true]

theorem meets_containing (around : Around before after) (imposing : Imposing before .pattern)
    (other : Unasked name) :
    Meets session (name, ⟨.text, containing (.ofList before) (.ofList after)⟩) := by
  refine ⟨_, binds_comparing around imposing .text pattern, fun v given => ?_⟩
  obtain ⟨s, rfl⟩ := given
  simp only [List.forall_mem_singleton, domain_pattern]
  constructor
  · intro clean
    refine ⟨fun day => absurd day other.apart.1, ?_, fun same => absurd same other.apart.2⟩
    rintro - _ ⟨⟩
    exact clean
  · exact fun fine => fine.text rfl s rfl

/-- The text that is the pattern itself. -/
theorem meets_pattern (around : Around before after) (imposing : Imposing before .pattern) :
    Meets session (patternFilter, ⟨.text, comparing (.ofList before) (.ofList after)⟩) := by
  refine ⟨_, binds_comparing around imposing .text id, fun v given => ?_⟩
  obtain ⟨s, rfl⟩ := given
  simp only [id_eq, List.forall_mem_singleton]
  constructor
  · rintro ⟨_, ⟨⟩, clean, closed⟩
    refine ⟨fun day => absurd day (by decide), ?_, ?_⟩
    · rintro - _ ⟨⟩
      exact clean
    · rintro - _ ⟨⟩
      exact closed
  · exact fun fine => ⟨s, rfl, fine.text rfl s rfl, fine.pattern rfl s rfl⟩

/-- A fragment without parameters. -/
theorem meets_plain {f : Filter} (other : Unasked name) (text : f.type ≠ .text)
    (each : ∀ thresholds v, f.type.Given v → ∃ s : List Char, '$' ∉ s ∧
      ∀ params, ((f.apply v).run thresholds).run params = pure (some [.text s], params)) : Meets session (name, f) := by
  refine ⟨fun _ => [], fun thresholds v given params => ?_, fun v _ => ?_⟩
  · obtain ⟨s, plain, run⟩ := each thresholds v given
    exact ⟨[.text s], ⟨plain, trivial⟩, Fills.text s _, by rw [run, List.map_nil, List.append_nil]⟩
  · have fine : Fine session name f.type v := .of_other other.apart text v
    simp [fine]

theorem meets_choosing {yes no : String} (other : Unasked name) (affirmed : '$' ∉ yes.toList)
    (denied : '$' ∉ no.toList) : Meets session (name, ⟨.bool, choosing yes no⟩) := by
  refine meets_plain other FilterType.noConfusion fun thresholds v _ =>
    ⟨(if v.truthy then yes else no).toList, ?_, fun _ => rfl⟩
  split
  · exact affirmed
  · exact denied

theorem places_holes {n : Nat} {after : List (List Char)} {front : List Char}
    (here : imposed CONTEXTS front = some place) (each : ∀ s ∈ after.dropLast, Imposing s place) :
    ∀ p ∈ (Shape.holes n after).places front, p.2 = n ∧ imposed CONTEXTS p.1 = some place := by
  induction after generalizing front with
  | nil =>
    intro p member
    cases member
  | cons s rest ih =>
    intro p member
    have whole : (Shape.holes n (s :: rest)).places front =
        (front, n) :: (Shape.holes n rest).places (front ++ Piece.render (.placeholder n) ++ s) := rfl
    rw [whole, List.mem_cons] at member
    rcases member with rfl | later
    · exact ⟨rfl, here⟩
    · cases rest with
      | nil => cases later
      | cons t rest =>
        rw [List.dropLast_cons_cons, List.forall_mem_cons] at each
        exact ih (each.1.behind _) each.2 p later

theorem meets_search (other : Unasked name) : Meets session (name, ⟨.text, Devices.search⟩) := by
  have ends : ∀ s ∈ List.dropLast [" OR u.email ILIKE ".toList, " OR u.display_name ILIKE ".toList,
      " OR d.model ILIKE ".toList, ")".toList], " ILIKE ".toList <:+ s := by decide
  have first : Imposing "(d.hostname ILIKE ".toList .pattern := imposing_ilike (by decide)
  refine ⟨fun v => [(.pattern, pattern v)], fun thresholds v _ params => ?_, fun v given => ?_⟩
  · refine ⟨searchShape.text params.length, searchShape.sound _, fills_one (fun front p member => ?_) (fun front => ?_),
      run_search thresholds v params⟩
    · exact places_holes (first.behind front) (fun s inside => imposing_ilike (ends s inside)) p member
    · exact ⟨_, List.mem_cons_self⟩
  · obtain ⟨s, rfl⟩ := given
    simp only [List.forall_mem_singleton, domain_pattern]
    constructor
    · intro clean
      refine ⟨fun day => absurd day other.apart.1, ?_, fun same => absurd same other.apart.2⟩
      rintro - _ ⟨⟩
      exact clean
    · exact fun fine => fine.text rfl s rfl

end

variable (session : Session)

theorem clean_rules : ∀ s ∈ RULE_IDS, 0 ∉ s := forall_mem_of_all (by decide)

set_option maxRecDepth 4000 in
theorem meets_devices : ∀ f ∈ devices.filters ++ devices.crossFilters, Meets session f := by
  simp only [devices, Devices.filters, Devices.crossFilters, List.cons_append, List.nil_append, List.forall_mem_cons]
  refine ⟨meets_plain (by decide) FilterType.noConfusion fun thresholds v given => text_status thresholds v given,
    meets_search (by decide),
    meets_containing (by decide) (imposing_ilike (by decide)) (by decide),
    meets_containing (by decide) (imposing_ilike (by decide)) (by decide),
    meets_containing (by decide) (imposing_ilike (by decide)) (by decide),
    meets_pattern (by decide) (imposing_ilike (by decide)),
    meets_numeric (by decide) (imposing_column "d.disk_used_pct" " >= " (by decide) (by decide) (by decide))
      (by decide),
    meets_numeric (by decide) (imposing_column "d.disk_used_pct" " < " (by decide) (by decide) (by decide))
      (by decide),
    meets_numeric (by decide) (imposing_column "d.ram_gb" " < " (by decide) (by decide) (by decide)) (by decide),
    meets_days (by decide) (imposing_days (by decide)) (by decide),
    meets_days (by decide) (imposing_days (by decide)) (by decide),
    meets_choosing (by decide) (plain_ofList (by decide)) (plain_ofList (by decide)),
    meets_choosing (by decide) (plain_ofList (by decide)) (plain_ofList (by decide)),
    meets_bool (by decide) (imposing_bool (by decide)) (by decide),
    meets_choosing (by decide) plain_bitlocker plain_noBitlocker,
    meets_resolve (by decide) (imposing_column "u.department" " = " (by decide) (by decide) (by decide))
      (by decide),
    meets_resolve (by decide) (imposing_column "d.assigned_user_id" " = " (by decide) (by decide) (by decide))
      (by decide),
    meets_plain (by decide) FilterType.noConfusion fun thresholds v _ => text_hasTicket thresholds v,
    meets_enum (by decide) (imposing_column "cr.rule_id" " = " (by decide) (by decide) (by decide)) (by decide)
      clean_rules,
    meets_resolve (by decide) (imposing_column "anc.group_id" " = " (by decide) (by decide) (by decide))
      (by decide),
    List.forall_mem_nil _⟩

set_option maxRecDepth 4000 in
theorem meets_tickets : ∀ f ∈ tickets.filters ++ tickets.crossFilters, Meets session f := by
  simp only [tickets, List.cons_append, List.nil_append, List.forall_mem_cons]
  refine ⟨meets_enum (by decide) (imposing_column "t.status" " = " (by decide) (by decide) (by decide))
      (by decide) (forall_mem_of_all (by decide)),
    meets_choosing (by decide) (plain_ofList (by decide)) (plain_ofList (by decide)),
    meets_enum (by decide) (imposing_column "t.priority" " = " (by decide) (by decide) (by decide)) (by decide)
      (forall_mem_of_all (by decide)),
    meets_containing (by decide) (imposing_ilike (by decide)) (by decide),
    meets_bool (by decide) (imposing_column "t.is_auto" " = " (by decide) (by decide) (by decide)) (by decide),
    meets_days (by decide) (imposing_days (by decide)) (by decide),
    meets_days (by decide) (imposing_days (by decide)) (by decide),
    meets_resolve (by decide) (imposing_column "t.user_id" " = " (by decide) (by decide) (by decide)) (by decide),
    meets_resolve (by decide) (imposing_column "tt.tag_id" " = " (by decide) (by decide) (by decide)) (by decide),
    meets_containing (by decide) (imposing_ilike (by decide)) (by decide), List.forall_mem_nil _⟩

theorem meets_compliance : ∀ f ∈ compliance.filters ++ compliance.crossFilters, Meets session f := by
  simp only [compliance, List.append_nil, List.forall_mem_cons]
  refine ⟨meets_enum (by decide) (imposing_column "cr.rule_id" " = " (by decide) (by decide) (by decide))
      (by decide) clean_rules,
    meets_enum (by decide) (imposing_column "cr.status" " = " (by decide) (by decide) (by decide)) (by decide)
      (forall_mem_of_all (by decide)),
    meets_enum (by decide) (imposing_column "cr.severity" " = " (by decide) (by decide) (by decide)) (by decide)
      (forall_mem_of_all (by decide)),
    meets_containing (by decide) (imposing_ilike (by decide)) (by decide), List.forall_mem_nil _⟩

theorem meets_registry : ∀ entry ∈ REGISTRY, ∀ f ∈ entry.2.filters ++ entry.2.crossFilters, Meets session f := by
  simp only [REGISTRY, List.forall_mem_cons]
  exact ⟨meets_devices session, meets_tickets session, meets_compliance session, List.forall_mem_nil _⟩

end Opale.Ask
