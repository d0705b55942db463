import Opale.Ask.Domains

namespace Opale.Ask

open Js Sql

/-- Every value is what its filter is applied to. -/
def Given (defs : List (Units × Filter)) (values : List (Units × FilterValue)) : Prop :=
  ∀ entry ∈ values, ∃ filter, ownEntry defs entry.1 = some filter ∧ filter.type.Given entry.2

/-- Every value is fine for its filter. -/
def AllFine (session : Session) (defs : List (Units × Filter)) (values : List (Units × FilterValue)) : Prop :=
  ∀ entry ∈ values, ∀ filter, ownEntry defs entry.1 = some filter → Fine session entry.1 filter.type entry.2

variable {session : Session}

/-- Fragments, one after the other, and all that they bind. -/
inductive FillsAll : List Template → Nat → List (Place × FilterValue) → Prop
  | nil {n} : FillsAll [] n []
  | cons {t rest n bound later} : Fills CONTEXTS t n bound → FillsAll rest (n + bound.length) later →
      FillsAll (t :: rest) n (bound ++ later)

theorem FillsAll.append {ts us : List Template} {n : Nat} {bound later : List (Place × FilterValue)}
    (fills : FillsAll ts n bound) (fills' : FillsAll us (n + bound.length) later) :
    FillsAll (ts ++ us) n (bound ++ later) := by
  induction fills with
  | nil => exact fills'
  | cons first rest ih =>
    rw [List.append_assoc]
    refine .cons first (ih ?_)
    rwa [List.length_append, ← Nat.add_assoc] at fills'

theorem FillsAll.joined {ts : List Template} {n : Nat} {bound : List (Place × FilterValue)}
    (fills : FillsAll ts n bound) : Fills CONTEXTS (joined (ts.map some)) n bound := by
  induction fills with
  | nil => exact fills_nothing (fun _ => rfl) _
  | @cons t rest n bound later first others ih =>
    cases rest with
    | nil =>
      cases others
      rwa [List.append_nil]
    | cons u rest =>
      have between := (Fills.text " AND ".toList (n + bound.length)).append ih
      exact first.append between

/-- What a list of filters binds, in the order of their values. -/
theorem applied_fills {defs : List (Units × Filter)} (meets : ∀ f ∈ defs, Meets session f) (thresholds : Option Thresholds)
    {values : List (Units × FilterValue)} (given : Given defs values) (params : List FilterValue) :
    ∃ ts bound, (∀ t ∈ ts, Sound t) ∧ FillsAll ts params.length bound ∧
      ((∀ b ∈ bound, b.1.Domain session b.2) ↔ AllFine session defs values) ∧
      ((applyFilters defs values).run thresholds).run params = pure (.ok (ts.map some), params ++ bound.map (·.2)) := by
  induction values generalizing params with
  | nil =>
    refine ⟨[], [], by simp, .nil, by simp [AllFine], ?_⟩
    simp [applyFilters]
  | cons entry rest ih =>
    obtain ⟨name, value⟩ := entry
    obtain ⟨⟨filter, own, here⟩, later⟩ := List.forall_mem_cons.mp given
    obtain ⟨bind, binds, fine⟩ := meets (name, filter) (ownEntry_some own)
    obtain ⟨t, sound, fills, run⟩ := binds thresholds value here params
    obtain ⟨ts, bound, sounds, others, fine', run'⟩ := ih later (params ++ (bind value).map (·.2))
    refine ⟨t :: ts, bind value ++ bound, List.forall_mem_cons.mpr ⟨sound, sounds⟩, ?_, ?_, ?_⟩
    · rw [List.length_append, List.length_map] at others
      exact .cons fills others
    · have own_ : (∀ other, ownEntry defs name = some other → Fine session name other.type value) ↔
          Fine session name filter.type value := by
        simp [own]
      rw [AllFine, List.forall_mem_append, List.forall_mem_cons, own_, fine value here, fine']
      rfl
    · simp [applyFilters, own, run, run', Except.map]

/-- The query without the blanks before it. -/
def strippedText (res : Resource) (sort : Option SortKey) (conditions : List (Option Template)) (n : Nat) : Template :=
  .text ((opening res).dropWhile Js.isSpaceChar) ::
    (where_ conditions ++ [.text (ordering res sort), .placeholder n])

theorem trim_queryText (res : Resource) (sort : Option SortKey) (conditions : List (Option Template)) (n : Nat) :
    Js.trim (Template.render (queryText res sort conditions (.placeholder n))) =
      Template.render (strippedText res sort conditions n) := by
  let rest : Template := where_ conditions ++ [.text (ordering res sort), .placeholder n]
  have whole : Template.render (queryText res sort conditions (.placeholder n)) =
      opening res ++ Template.render rest := rfl
  have stripped : Template.render (strippedText res sort conditions n) =
      (opening res).dropWhile Js.isSpaceChar ++ Template.render rest := rfl
  have letter : 'S' ∈ opening res := by
    have first : 'S' ∈ "\n    SELECT ".toList := by decide
    unfold opening
    simp only [List.mem_append]
    exact .inl (.inl (.inl (.inl (.inl (.inl first)))))
  have some_ : (opening res).dropWhile Js.isSpaceChar ≠ [] := by
    intro blank
    have space : Js.isSpaceChar 'S' = true := List.dropWhile_eq_nil_iff.mp blank _ letter
    exact absurd space (by decide)
  obtain ⟨init, digit, ends⟩ : ∃ init digit, Template.render rest = init ++ [digit] ∧ digit.isDigit = true := by
    have digits := digits_toDigits n
    have ending : Template.render rest =
        Template.render (where_ conditions ++ [.text (ordering res sort)]) ++ '$' :: Nat.toDigits 10 n := by
      simp [rest, Template.render, Piece.render]
    obtain nothing | ⟨init, c, last⟩ := List.eq_nil_or_concat (Nat.toDigits 10 n)
    · exact absurd nothing Nat.toDigits_ne_nil
    · rw [List.concat_eq_append] at last
      refine ⟨Template.render (where_ conditions ++ [.text (ordering res sort)]) ++ '$' :: init, c, ?_, digits c ?_⟩
      · rw [ending, last, List.append_assoc, List.cons_append]
      · rw [last]
        exact List.mem_append_right _ (List.mem_singleton_self c)
  have solid : ¬Js.isSpaceChar digit = true := by
    intro blank
    have bare : ∀ c ∈ Js.jsSpaces, c.isDigit = false := forall_mem_of_all (by decide)
    rw [bare digit (List.contains_iff_mem.mp blank)] at ends
    cases ends.2
  have before : (opening res ++ Template.render rest).dropWhile Js.isSpaceChar =
      (opening res).dropWhile Js.isSpaceChar ++ Template.render rest := by
    rw [List.dropWhile_append, if_neg (by simpa using some_)]
  rw [whole, stripped, Js.trim, before, ends.1, ← List.append_assoc]
  exact List.rdropWhile_concat_neg _ _ _ solid

section

variable {res : Resource} {ts : List Template} {bound : List (Place × FilterValue)} (sort : Option SortKey)

theorem fills_stripped (fills : FillsAll ts 0 bound) (limit : FilterValue) :
    Fills CONTEXTS (strippedText res sort (ts.map some) (bound.length + 1)) 0 (bound ++ [(.limit, limit)]) := by
  have condition : Fills CONTEXTS (where_ (ts.map some)) 0 bound := by
    unfold where_
    split
    next none_ =>
      rw [List.map_eq_nil_iff] at none_
      subst none_
      cases fills
      exact fills_nothing (fun _ => rfl) _
    next => exact (Fills.text "WHERE ".toList 0).append fills.joined
  have ordering_ : ∃ start, ordering res sort = start ++ "\n    LIMIT ".toList := ⟨_, rfl⟩
  have ending : Fills CONTEXTS [.text (ordering res sort), .placeholder (bound.length + 1)] bound.length
      [(.limit, limit)] := by
    obtain ⟨start, whole⟩ := ordering_
    refine fills_one (fun front p member => ?_) fun front => ⟨_, List.mem_singleton_self _⟩
    rw [List.mem_singleton.mp member, whole]
    refine ⟨rfl, ?_⟩
    dsimp only
    rw [← List.append_assoc]
    exact (imposing_limit List.suffix_rfl).behind _
  have later : Fills CONTEXTS [.text (ordering res sort), .placeholder (bound.length + 1)] (0 + bound.length)
      [(.limit, limit)] := by rwa [Nat.zero_add]
  exact (Fills.text _ 0).append (condition.append later)

theorem sound_stripped (lawful : res.Lawful) (sound : ∀ t ∈ ts, Sound t) (n : Nat) :
    Sound (strippedText res sort (ts.map some) n) := by
  have whole := sound_queryText lawful sort (n := n) sound
  have opening_ : '$' ∉ (opening res).dropWhile Js.isSpaceChar := fun member =>
    whole.1 ((List.dropWhile_sublist _).mem member)
  exact ⟨opening_, whole.2⟩

end

/-- What `compile` binds: the values of the filters, then the limit. -/
theorem compile_fills (session : Session) {spec : QuerySpec} {res : Resource} {n : JsNumber}
    (own : ownEntry REGISTRY spec.resource = some res) (filters : Given res.filters spec.filters) (cross : Given res.crossFilters spec.cross) (limit : spec.limit = some n)
    (thresholds : Option Thresholds) :
    ∃ t bound, Sound t ∧ Fills CONTEXTS t 0 (bound ++ [(.limit, .number n)]) ∧
      ((∀ b ∈ bound, b.1.Domain session b.2) ↔ AllFine session res.filters spec.filters ∧ AllFine session res.crossFilters spec.cross) ∧
      compile spec thresholds = .ok ⟨t.render, (bound ++ [(.limit, .number n)]).map (·.2)⟩ := by
  obtain ⟨entry, member, rfl⟩ := mem_of_ownEntry own
  have meets := meets_registry session entry member
  obtain ⟨ts, bound, sound, fills, fine, run⟩ := applied_fills
    (fun f inside => meets f (List.mem_append_left _ inside)) thresholds filters []
  obtain ⟨ts', bound', sound', fills', fine', run'⟩ := applied_fills
    (fun f inside => meets f (List.mem_append_right _ inside)) thresholds cross ([] ++ bound.map (·.2))
  have both : FillsAll (ts ++ ts') 0 (bound ++ bound') := by
    refine fills.append ?_
    rw [List.nil_append, List.length_map] at fills'
    rwa [List.length_nil, Nat.zero_add]
  rw [List.nil_append] at run run'
  have whole : ((conditions entry.2 spec).run thresholds).run [] =
      pure (.ok ((ts ++ ts').map some), (bound ++ bound').map (·.2)) := by
    simp [conditions, run, run', Except.map]
  have lawful := lawful_registry entry member
  have sounds : ∀ t ∈ ts ++ ts', Sound t := List.forall_mem_append.mpr ⟨sound, sound'⟩
  refine ⟨strippedText entry.2 spec.sort ((ts ++ ts').map some) ((bound ++ bound').length + 1), bound ++ bound',
    sound_stripped spec.sort lawful sounds _, fills_stripped spec.sort both _, ?_, ?_⟩
  · rw [List.forall_mem_append, fine, fine']
  · unfold compile
    rw [own]
    simp only [ReaderT.run_bind, StateT.run_bind, whole, pure_bind, run_param, limit, Option.getD_some]
    have pushed : (bound ++ bound' ++ [(Place.limit, FilterValue.number n)]).map (·.2) =
        (bound ++ bound').map (·.2) ++ [.number n] := List.map_append
    rw [← trim_queryText, List.length_map, pushed]
    rfl

theorem limit_domain {res : Resource} {limit : Option Json} {n : JsNumber} (passes : validateLimit res limit = (n, []))
    (bounds : res.defaultLimit ≤ res.maxLimit ∧ res.maxLimit < 2 ^ 63) : Place.limit.Domain session (.number n) := by
  have default_ : Place.limit.Domain session (.number ((res.defaultLimit : ℚ) : JsNumber)) :=
    ⟨res.defaultLimit, rfl, by omega, by omega⟩
  unfold validateLimit at passes
  split at passes
  next =>
    cases passes
    exact default_
  next =>
    cases passes
    exact default_
  next =>
    split at passes
    next q _ =>
      split at passes
      next => cases passes
      next positive =>
        cases passes
        have above : 0 ≤ ⌊q⌋ := Int.floor_nonneg.mpr (not_le.mp positive).le
        exact ⟨min ⌊q⌋ res.maxLimit, rfl, by omega, by omega⟩
    next => cases passes

/-- The filters of days take numbers, and the one whose text is a pattern takes a text. -/
structure Named (defs : List (Units × Filter)) : Prop where
  days : ∀ f ∈ defs, f.1 ∈ dayFilters → f.2.type = .number
  pattern : ∀ f ∈ defs, f.1 = patternFilter → f.2.type = .text

def FilterType.isNumber : FilterType → Bool
  | .number => true
  | _ => false

theorem FilterType.eq_number {type : FilterType} (number : type.isNumber = true) : type = .number := by
  cases type with
  | number => rfl
  | enum | text | bool | resolve => cases number

def FilterType.isText : FilterType → Bool
  | .text => true
  | _ => false

theorem FilterType.eq_text {type : FilterType} (text : type.isText = true) : type = .text := by
  cases type with
  | text => rfl
  | enum | number | bool | resolve => cases text

theorem Named.left {defs others : List (Units × Filter)} (named : Named (defs ++ others)) : Named defs :=
  ⟨fun f member => named.days f (List.mem_append_left _ member), fun f member => named.pattern f (List.mem_append_left _ member)⟩

theorem Named.right {defs others : List (Units × Filter)} (named : Named (defs ++ others)) : Named others :=
  ⟨fun f member => named.days f (List.mem_append_right _ member), fun f member => named.pattern f (List.mem_append_right _ member)⟩

theorem named_registry : ∀ entry ∈ REGISTRY, Named (entry.2.filters ++ entry.2.crossFilters) := by
  have number : ∀ entry ∈ REGISTRY, ∀ f ∈ entry.2.filters ++ entry.2.crossFilters, f.1 ∈ dayFilters →
      f.2.type.isNumber = true := by
    simp only [REGISTRY, List.forall_mem_cons]
    exact ⟨forall_mem_of_all (by decide), forall_mem_of_all (by decide), forall_mem_of_all (by decide),
      List.forall_mem_nil _⟩
  have text : ∀ entry ∈ REGISTRY, ∀ f ∈ entry.2.filters ++ entry.2.crossFilters, f.1 = patternFilter →
      f.2.type.isText = true := by
    simp only [REGISTRY, List.forall_mem_cons]
    exact ⟨forall_mem_of_all (by decide), forall_mem_of_all (by decide), forall_mem_of_all (by decide),
      List.forall_mem_nil _⟩
  exact fun entry member => ⟨fun f inside day => FilterType.eq_number (number entry member f inside day),
    fun f inside same => FilterType.eq_text (text entry member f inside same)⟩

theorem sizes_registry : ∀ entry ∈ REGISTRY, entry.2.maxLimit < 2 ^ 63 := by
  simp only [REGISTRY, List.forall_mem_cons]
  exact ⟨by decide, by decide, by decide, List.forall_mem_nil _⟩

theorem FilterType.Checked.given {type : FilterType} {v : FilterValue} (checked : type.Checked v)
    (other : ∀ kind, type ≠ .resolve kind) : type.Given v := by
  cases type with
  | enum | number | bool => exact checked
  | text =>
    obtain ⟨s, same, -⟩ := checked
    exact ⟨s, same⟩
  | resolve kind => exact absurd rfl (other kind)

section

variable {toLowerCase : Units → Units} {World : Type}
variable {exec : (o : Lookup) → World → List Row → World → Prop} {w w₁ : World}

/-- The rows hold identifiers: values of the columns that the queries select. -/
def Identifies (exec : (o : Lookup) → World → List Row → World → Prop) : Prop :=
  ∀ o w rows w₁, exec o w rows w₁ → ∀ r ∈ rows, o.kind.Identifier r.given

theorem resolveOne_given {kind : Kind} {raw v : FilterValue} (identifies : Identifies exec)
    (ends : Rules.Ends exec (resolveOne toLowerCase kind raw) w (.ok v) w₁) : kind.Identifier v := by
  unfold resolveOne at ends
  split at ends
  · cases ends
  · obtain ⟨rows, w₂, ran, ends⟩ := ends.of_bind
    obtain ⟨rows, w₂, run, answered⟩ := ran.of_op
    cases answered
    have each := identifies _ _ _ _ run
    split at ends
    · cases ends
    next first others =>
      split at ends
      next exact found =>
        cases ends
        exact each exact (List.mem_of_find?_eq_some found)
      next =>
        split at ends
        · cases ends
          exact each first List.mem_cons_self
        · cases ends

theorem allFine_cons {defs : List (Units × Filter)} {name : Units} {value : FilterValue} {filter : Filter}
    {rest : List (Units × FilterValue)} (own : ownEntry defs name = some filter) :
    AllFine session defs ((name, value) :: rest) ↔ Fine session name filter.type value ∧ AllFine session defs rest := by
  rw [AllFine, List.forall_mem_cons]
  simp [own, AllFine]

/-- The values of a group once its names are resolved. -/
theorem resolved_given (session : Session) {defs : List (Units × Filter)} {values out : List (Units × FilterValue)}
    (identifies : Identifies exec) (named : Named defs)
    (ends : Rules.Ends exec (resolveGroup toLowerCase defs values) w (out, []) w₁) (typed : Typed defs values) :
    Given defs out ∧ (AllFine session defs out ↔ AllFine session defs values) := by
  induction values generalizing w w₁ out with
  | nil =>
    cases ends
    exact ⟨fun _ member => absurd member List.not_mem_nil, Iff.rfl⟩
  | cons entry rest ih =>
    obtain ⟨name, value⟩ := entry
    obtain ⟨⟨filter, own, checked⟩, later⟩ := List.forall_mem_cons.mp typed
    have day := named.days (name, filter) (ownEntry_some own)
    have pattern := named.pattern (name, filter) (ownEntry_some own)
    simp only [resolveGroup, own, Option.map_some, Program.bind_eq, Program.pure_eq] at ends
    split at ends
    next kind resolves =>
      have type : filter.type = .resolve kind := Option.some.inj resolves
      obtain ⟨answer, w₂, resolved, ends⟩ := ends.of_bind
      obtain ⟨⟨out₁, errors₁⟩, w₃, group, ends⟩ := ends.of_bind
      cases answer with
      | error e => cases ends
      | ok given =>
        cases ends
        obtain ⟨each, same⟩ := ih group later
        have fine (v : FilterValue) : Fine session name filter.type v := by
          refine .of_other ⟨fun inside => ?_, fun same => ?_⟩ ?_ v
          · cases type.symm.trans (day inside)
          · cases type.symm.trans (pattern same)
          · rw [type]
            exact FilterType.noConfusion
        refine ⟨List.forall_mem_cons.mpr ⟨⟨filter, own, ?_⟩, each⟩, ?_⟩
        · rw [type]
          exact resolveOne_given identifies resolved
        · rw [allFine_cons own, allFine_cons own, same]
          exact and_congr_left' (iff_of_true (fine given) (fine value))
    next other =>
      obtain ⟨⟨out₁, errors₁⟩, w₃, group, ends⟩ := ends.of_bind
      cases ends
      obtain ⟨each, same⟩ := ih group later
      have type (kind : Kind) : filter.type ≠ .resolve kind := fun same => other kind (congrArg some same)
      refine ⟨List.forall_mem_cons.mpr ⟨⟨filter, own, checked.given type⟩, each⟩, ?_⟩
      rw [allFine_cons own, allFine_cons own, same]

end

/-- What a group of filters may give: days that the session takes, texts whose beginning has no zero, and no pattern
whose beginning ends in an escape. -/
def GroupStorable (session : Session) (defs : List (Units × Filter)) (input : Option Json) : Prop :=
  ∀ j name value filter, input = some j → j.get name = some value → ownEntry defs name = some filter →
    (name ∈ dayFilters → ∀ q, coerceNumber value = some q → ∃ n : Int, q = n ∧ session.TakesDays n) ∧
    (filter.type = .text → ∀ s, value = .string s → 0 ∉ (trimUnits s).take TEXT_MAX) ∧
    (name = patternFilter → ∀ s, value = .string s → ¬BadPattern ((trimUnits s).take TEXT_MAX))

theorem coerce_of_checkValue {group : String} {name : Units} {raw : Json} {v : FilterValue} :
    checkValue group name raw .number = .ok v ↔ ∃ q : ℚ, coerceNumber raw = some q ∧ v = .number (q : JsNumber) := by
  simp only [checkValue]
  cases coerceNumber raw with
  | none => simp
  | some q =>
    simp only [Except.ok.injEq, Option.some.injEq, exists_eq_left']
    exact eq_comm

theorem days_domain {q : ℚ} :
    Place.days.Domain session (.number (q : JsNumber)) ↔ ∃ n : Int, q = n ∧ session.TakesDays n := by
  have inj (n : Int) : FilterValue.number (q : JsNumber) = .number ((n : ℚ) : JsNumber) ↔ q = n := by
    constructor
    · exact fun same => WithTop.coe_injective (WithBot.coe_injective (FilterValue.number.inj same))
    · exact fun same => by rw [same]
  simp only [Place.Domain, inj]

/-- The values of a group are fine when the input of the group is. -/
theorem allFine_iff {defs : List (Units × Filter)} {group : String} (input : Option Json) (named : Named defs) :
    AllFine session defs (validateFilterGroup input defs group).1 ↔ GroupStorable session defs input := by
  constructor
  · intro fine j name value filter given found own
    -- a text is kept unless it is blank
    have kept_ (text : filter.type = .text) (s : Units) (same : value = .string s) : trimUnits s = [] ∨
        Fine session name filter.type (.string ((trimUnits s).take TEXT_MAX)) := by
      subst same
      by_cases some_ : trimUnits s = []
      · exact .inl some_
      · have isText : filter.type.IsText := by
          rw [text]
          trivial
        have checked : checkValue group name (.string s) filter.type = .ok (.string ((trimUnits s).take TEXT_MAX)) :=
          (checkValue_text isText).mpr ⟨s, rfl, some_, rfl⟩
        have kept := mem_validateFilterGroup.mpr ⟨j, _, filter, given, found, own, Json.noConfusion, checked⟩
        exact .inr (fine _ kept filter own)
    refine ⟨?_, ?_, ?_⟩
    · intro day q number
      have type := named.days (name, filter) (ownEntry_some own) day
      have checked : checkValue group name value filter.type = .ok (.number (q : JsNumber)) := by
        rw [type]
        exact coerce_of_checkValue.mpr ⟨q, number, rfl⟩
      have present : value ≠ .null := by
        rintro rfl
        cases number
      have kept := mem_validateFilterGroup.mpr ⟨j, value, filter, given, found, own, present, checked⟩
      exact days_domain.mp ((fine _ kept filter own).days day)
    · intro type s same
      rcases kept_ type s same with blank | kept
      · simp [blank]
      · exact kept.text type _ rfl
    · intro pattern s same
      have type := named.pattern (name, filter) (ownEntry_some own) pattern
      rcases kept_ type s same with blank | kept
      · simp [blank, BadPattern, endsInEscape]
      · exact kept.pattern pattern _ rfl
  · rintro storable ⟨name, value⟩ member filter own
    obtain ⟨j, raw, other, given, found, own', -, checked⟩ := mem_validateFilterGroup.mp member
    cases own.symm.trans own'
    obtain ⟨integer, clean, closed⟩ := storable j name raw filter given found own
    have cut (type : filter.type = .text) (s : Units) (same : value = .string s) :
        ∃ t, raw = .string t ∧ s = (trimUnits t).take TEXT_MAX := by
      subst same
      have text : filter.type.IsText := by
        rw [type]
        trivial
      obtain ⟨t, rfl, -, cut⟩ := (checkValue_text text).mp checked
      cases cut
      exact ⟨t, rfl, rfl⟩
    refine ⟨?_, ?_, ?_⟩
    · intro day
      rw [named.days (name, filter) (ownEntry_some own) day] at checked
      obtain ⟨q, number, rfl⟩ := coerce_of_checkValue.mp checked
      exact days_domain.mpr (integer day q number)
    · intro type s same
      obtain ⟨t, rfl, rfl⟩ := cut type s same
      exact clean type t rfl
    · intro pattern s same
      obtain ⟨t, rfl, rfl⟩ := cut (named.pattern (name, filter) (ownEntry_some own) pattern) s same
      exact closed pattern t rfl

/-- What the input may give, in the filters and the cross filters of its resource. -/
structure Storable (session : Session) (raw : Json) : Prop where
  filters : ∀ res ∈ resourceOf raw, GroupStorable session res.filters (raw.get (ascii "filters"))
  cross : ∀ res ∈ resourceOf raw, GroupStorable session res.crossFilters (raw.get (ascii "cross"))

/-- What `compile` binds for an accepted question is in the domains of its places exactly when the session takes the
days, the texts have no zero, and the pattern for the manufacturer does not end in an escape. -/
theorem in_domain_iff {toLowerCase : Units → Units} {World : Type}
    {exec : (o : Lookup) → World → List Row → World → Prop} {w w₁ : World} {raw : Json} {spec out : QuerySpec}
    {thresholds : Option Thresholds} {query : Query} (identifies : Identifies exec)
    (accepted : validateQuerySpec raw = .ok spec)
    (resolved : Rules.Ends exec (resolveSpec toLowerCase spec) w (.ok out) w₁)
    (compiled : compile out thresholds = .ok query) : query.InDomain session ↔ Storable session raw := by
  obtain ⟨res, passes⟩ := validateQuerySpec_eq_ok.mp accepted
  obtain ⟨entry, inside, rfl⟩ := mem_of_ownEntry passes.own
  obtain ⟨n, limit, limited⟩ := passes.limit
  have named := named_registry entry inside
  have filters : spec.filters = (validateFilterGroup (raw.get (ascii "filters")) entry.2.filters "filters").1 := by
    rw [passes.filters]
  have cross : spec.cross = (validateFilterGroup (raw.get (ascii "cross")) entry.2.crossFilters "cross").1 := by
    rw [passes.cross]
  simp only [resolveSpec, passes.own, Program.bind_eq] at resolved
  obtain ⟨⟨filters', errors⟩, w₂, direct, resolved⟩ := resolved.of_bind
  obtain ⟨⟨cross', errors'⟩, w₃, crossed, resolved⟩ := resolved.of_bind
  dsimp only at resolved
  split at resolved
  next none_ =>
    cases resolved
    rw [List.append_eq_nil_iff] at none_
    obtain ⟨rfl, rfl⟩ := none_
    have typed : Typed entry.2.filters spec.filters := by
      rw [filters]
      exact typed_validateFilterGroup _
    have typed' : Typed entry.2.crossFilters spec.cross := by
      rw [cross]
      exact typed_validateFilterGroup _
    obtain ⟨given, same⟩ := resolved_given session identifies named.left direct typed
    obtain ⟨given', same'⟩ := resolved_given session identifies named.right crossed typed'
    let out : QuerySpec := { spec with filters := filters', cross := cross' }
    have own : ownEntry REGISTRY out.resource = some entry.2 := passes.own
    obtain ⟨t, bound, sound, fills, fine, gives⟩ := compile_fills session own given given' limited thresholds
    cases compiled.symm.trans gives
    have sizes := limits_registry entry inside
    have last : Place.limit.Domain session (.number n) := limit_domain limit ⟨sizes.2, sizes_registry entry inside⟩
    rw [Query.InDomain, admitted_iff sound fills, List.forall_mem_append, List.forall_mem_singleton, fine, same, same',
      filters, cross, allFine_iff _ named.left, allFine_iff _ named.right]
    constructor
    · rintro ⟨⟨storable, storable'⟩, -⟩
      refine ⟨fun res named => ?_, fun res named => ?_⟩
      · cases passes.resourceOf.symm.trans named
        exact storable
      · cases passes.resourceOf.symm.trans named
        exact storable'
    · intro storable
      exact ⟨⟨storable.filters _ passes.resourceOf, storable.cross _ passes.resourceOf⟩, last⟩
  next => cases resolved

section

/-- Les postes d'un groupe qui n'ont pas été vus depuis `days` jours. -/
def daysQuestion (days : ℚ) : Json :=
  .object [(ascii "resource", .string (ascii "devices")),
    (ascii "filters", .object [(ascii "offline_since_days", .number (days : JsNumber))]),
    (ascii "cross", .object [(ascii "in_group", .string (ascii "compta"))])]

def daysSpec (days : ℚ) (group : String) : QuerySpec where
  resource := ascii "devices"
  filters := [(ascii "offline_since_days", .number (days : JsNumber))]
  cross := [(ascii "in_group", .string (ascii group))]
  sort := some ⟨ascii "hostname", false⟩
  limit := some ((100 : ℚ) : JsNumber)

def comptaId : String := "0b6f2c1e-93d4-4a57-8e21-5cf0a7d9b36e"

/-- A database with one group. -/
def oneGroup (o : Lookup) (_ : Unit) (rows : List Row) (_ : Unit) : Prop :=
  o.kind = .group ∧ rows = [groupRow comptaId "Compta"]

theorem identifies_oneGroup : Identifies oneGroup := by
  rintro o w rows w₁ ⟨group, rfl⟩ r member
  rw [List.mem_singleton.mp member, group]
  exact ⟨ascii comptaId, rfl, by decide⟩

theorem own_days : ownEntry Devices.filters (ascii "offline_since_days") = some ⟨.number,
    comparing "(d.last_seen IS NULL OR d.last_seen < now() - make_interval(days => " "))"⟩ := by
  rfl

theorem accepted_days (days : ℚ) : validateQuerySpec (daysQuestion days) = .ok (daysSpec days "compta") := by
  let list := [(ascii "offline_since_days", Json.number (days : JsNumber))]
  have letter : 'o' ∈ scalars (ascii "offline_since_days") := by decide
  have plain : entries list = list :=
    entries_eq (List.nodup_singleton _) fun name member => by
      rw [List.mem_singleton.mp member]
      exact arrayIndex?_eq_none ⟨'o', letter, by decide⟩
  have filters : validateFilterGroup (some (.object list)) Devices.filters "filters" =
      ((daysSpec days "compta").filters, []) := by
    change validateEntries Devices.filters "filters" (entries list) = _
    rw [plain, validateEntries_own "filters" [] own_days Json.noConfusion]
    rfl
  exact validateQuerySpec_eq_ok.mpr ⟨devices, ⟨_, rfl⟩, rfl, rfl, filters, by rfl, ⟨_, rfl, rfl⟩, _, rfl, rfl⟩

theorem resolved_days (days : ℚ) :
    Rules.Ends oneGroup (resolveSpec asciiLower (daysSpec days "compta")) () (.ok (daysSpec days comptaId)) () :=
  .op ⟨rfl, rfl⟩ .ret

theorem storable_days {days : Int} (takes : session.TakesDays days) : Storable session (daysQuestion days) where
  filters res named j name value filter given found own := by
    cases given
    cases List.mem_singleton.mp (mem_of_get found)
    refine ⟨?_, ?_, fun other => absurd other (by decide)⟩
    · rintro - q ⟨⟩
      exact ⟨days, rfl, takes⟩
    · rintro - s ⟨⟩
  cross res named j name value filter given found own := by
    cases named
    cases given
    cases List.mem_singleton.mp (mem_of_get found)
    refine ⟨fun day => absurd day (by decide), fun text => ?_, fun other => absurd other (by decide)⟩
    cases own
    cases text

theorem given_days (days : ℚ) : Given devices.filters (daysSpec days comptaId).filters := by
  intro entry member
  cases List.mem_singleton.mp member
  exact ⟨_, own_days, days, rfl⟩

theorem given_group (days : ℚ) : Given devices.crossFilters (daysSpec days comptaId).cross := by
  intro entry member
  cases List.mem_singleton.mp member
  exact ⟨_, rfl, ascii comptaId, rfl, by decide⟩

/-- The first day of 2026, in UTC. -/
def newYear : Session := ⟨820540800000000, 0, fun _ => 0⟩

theorem in_domain_iff_days : ∃ query, compile (daysSpec 3 comptaId) none = .ok query ∧ query.InDomain newYear := by
  obtain ⟨t, bound, -, -, -, gives⟩ := compile_fills newYear rfl (given_days 3) (given_group 3) rfl none
  have storable : Storable newYear (daysQuestion 3) := storable_days ⟨by decide, by decide, by decide⟩
  exact ⟨_, gives, (in_domain_iff identifies_oneGroup (accepted_days 3) (resolved_days 3) gives).mpr storable⟩

/-- A day and a half passes the checks, and its place takes an integer. -/
theorem half_day_bound : ∃ spec out query, validateQuerySpec (daysQuestion (3 / 2)) = .ok spec ∧
    Rules.Ends oneGroup (resolveSpec asciiLower spec) () (.ok out) () ∧ compile out none = .ok query ∧
    ∀ session, ¬query.InDomain session := by
  obtain ⟨t, bound, -, -, -, gives⟩ := compile_fills newYear rfl (given_days (3 / 2)) (given_group (3 / 2)) rfl none
  refine ⟨_, _, _, accepted_days (3 / 2), resolved_days (3 / 2), gives, fun session inside => ?_⟩
  obtain ⟨t', bound', sound', fills', fine', gives'⟩ :=
    compile_fills session rfl (given_days (3 / 2)) (given_group (3 / 2)) rfl none
  rw [gives] at gives'
  injection gives' with same
  rw [same, Query.InDomain, admitted_iff sound' fills', List.forall_mem_append, fine'] at inside
  obtain ⟨n, whole, -⟩ := days_domain.mp ((inside.1.1 _ (List.mem_singleton_self _) _ own_days).days (by decide))
  have doubled : (3 : ℚ) = 2 * n := by linarith
  have integers : (3 : Int) = 2 * n := by exact_mod_cast doubled
  omega

end

end Opale.Ask
