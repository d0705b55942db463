import Opale.Ask.Questions
import Opale.Relations.Firsts
import Opale.Sql.Like
import Mathlib.Data.List.Dedup

namespace Opale.Ask

open Js Sql Relations

structure User where
  entraId : Units
  displayName : Option Units
  email : Option Units
  department : Option Units

/-- The tables that names are looked up in, with their primary keys. -/
structure Content where
  groups : List (Units × Units)
  users : List User
  tags : List (Units × Units)
  groupIds : (groups.map (·.1)).Nodup
  userIds : (users.map (·.entraId)).Nodup
  tagIds : (tags.map (·.1)).Nodup

deriving instance DecidableEq for Row

/-- What a name of the kind may resolve to, as its query selects it. -/
def Kind.entities (content : Content) : Kind → List Row
  | .group => content.groups.map fun (id, name) => ⟨some id, some name, none⟩
  | .user => content.users.map fun u => ⟨some u.entraId, u.displayName, u.email⟩
  | .department => (content.users.filterMap (·.department)).dedup.map fun d => ⟨some d, some d, none⟩
  | .tag => content.tags.map fun (id, name) => ⟨some id, some name, none⟩
  | .rule => []

/-- The characters of `length(name)`, or of `length(coalesce(display_name, email))`. -/
def Row.size (r : Row) : Nat := ((r.label.or r.email).map fun s => (scalars s).length).getD 0

/-- The order of the query; departments come in any. -/
def Kind.le (kind : Kind) (a b : Row) : Prop := kind = .department ∨ a.size ≤ b.size

instance {kind : Kind} : DecidableRel kind.le := fun _ _ => inferInstanceAs (Decidable (_ ∨ _))

def LIMIT : Nat := 6

section

variable (lower : List Char → List Char)

/-- `text ILIKE pattern`, false of a NULL. -/
def ilike (pattern : List Char) (text : Option Units) : Bool :=
  match text with
  | none => false
  | some s => like (lower pattern) (lower (scalars s))

def Kind.matches (kind : Kind) (pattern : List Char) (r : Row) : Bool :=
  ilike lower pattern r.label || (kind = .user && ilike lower pattern r.email)

/-- An answer of the database to the query of a kind; it takes no text with a zero. -/
def database (o : Lookup) (content : Content) (rows : List Row) (content' : Content) : Prop :=
  content' = content ∧ ∃ pattern, o.param = .string pattern ∧ 0 ∉ pattern ∧
    Firsts o.kind.le LIMIT ((o.kind.entities content).filter (o.kind.matches lower (scalars pattern))) rows

/-- The name is in the text, up to case. -/
def within (name : List Char) (text : Option Units) : Bool :=
  match text with
  | none => false
  | some s => lower name <:+: lower (scalars s)

def Kind.contains (kind : Kind) (name : List Char) (r : Row) : Bool :=
  within lower name r.label || (kind = .user && within lower name r.email)

end

/-- The entity that a name stands for: the only one that matches it exactly, or, without any, the only one that contains
it. -/
def Meant (entities : List Row) (exact contains : Row → Bool) (e : Row) : Prop :=
  entities.filter exact = [e] ∨ entities.filter exact = [] ∧ entities.filter contains = [e]

/-- A name resolves without guessing. -/
structure Unguessed (kind : Kind) (name : FilterValue) (entities : List Row) (exact contains : Row → Bool)
    (result : Except ResolveError FilterValue) : Prop where
  value : ∀ v, result = .ok v → ∃ e, Meant entities exact contains e ∧ v = e.given
  ambiguity : (∃ e ∈ entities, exact e ∨ contains e) → (∀ e, ¬Meant entities exact contains e) →
    ∃ labels, result = .error (.ambiguous kind name labels)
  found : ∀ e, entities.filter exact = [e] → result = .ok e.given

/-- What the tables and the name are like for that: what matches the pattern decides as what the name stands for does, and
nothing that counts is beyond the limit. -/
structure Clear (le : Row → Row → Prop) [DecidableRel le] (entities : List Row) (exact contains matches_ : Row → Bool) :
    Prop where
  one : ∀ e, entities.filter exact = [e] → matches_ e = true ∧
    ((entities.filter matches_).filter fun x => x ≠ e ∧ le x e).length < LIMIT
  several : 2 ≤ (entities.filter exact).length → 2 ≤ (entities.filter matches_).length ∧
    ∀ e ∈ entities.filter matches_, exact e → LIMIT ≤ ((entities.filter matches_).filter fun x => ¬le e x).length
  single : ∀ m, entities.filter exact = [] → entities.filter matches_ = [m] → entities.filter contains = [m]
  many : entities.filter exact = [] → 2 ≤ (entities.filter contains).length → 2 ≤ (entities.filter matches_).length

/-- What `resolveOne` makes of the candidates. -/
def settle (exact : Row → Bool) (kind : Kind) (raw : FilterValue) (rows : List Row) : Except ResolveError FilterValue :=
  match rows with
  | [] => .error (.notFound kind raw)
  | first :: others =>
    match rows.find? exact with
    | some exact => .ok exact.given
    | none =>
      if others = [] then .ok first.given
      else .error (.ambiguous kind raw ((rows.filterMap (·.label)).filter (· ≠ [])))

section

variable {kind : Kind} {raw : FilterValue} {exact_ : Row → Bool} {rows : List Row}

theorem settle_eq_ok {v : FilterValue} : settle exact_ kind raw rows = .ok v ↔
    (∃ x, rows.find? exact_ = some x ∧ v = x.given) ∨
      (∀ x ∈ rows, exact_ x = false) ∧ ∃ x, rows = [x] ∧ v = x.given := by
  cases rows with
  | nil => simp [settle]
  | cons first others =>
    simp only [settle]
    cases found : (first :: others).find? exact_ with
    | some x =>
      have holds := List.find?_some found
      have member := List.mem_of_find?_eq_some found
      constructor
      · intro given
        exact .inl ⟨x, rfl, (Except.ok.inj given).symm⟩
      · rintro (⟨y, same, rfl⟩ | ⟨none_, -⟩)
        · cases same
          rfl
        · rw [none_ x member] at holds
          cases holds
    | none =>
      have none_ : ∀ x ∈ first :: others, exact_ x = false := by
        simpa using found
      by_cases alone : others = []
      · subst alone
        constructor
        · intro given
          exact .inr ⟨none_, first, rfl, (Except.ok.inj given).symm⟩
        · rintro (⟨y, same, -⟩ | ⟨-, y, same, rfl⟩)
          · cases same
          · cases same
            rfl
      · rw [if_neg alone]
        constructor
        · intro given
          cases given
        · rintro (⟨y, same, -⟩ | ⟨-, y, same, -⟩)
          · cases same
          · exact absurd (List.cons.inj same).2 alone

theorem settle_ambiguous : (∃ labels, settle exact_ kind raw rows = .error (.ambiguous kind raw labels)) ↔
    2 ≤ rows.length ∧ ∀ x ∈ rows, exact_ x = false := by
  cases rows with
  | nil => simp [settle]
  | cons first others =>
    simp only [settle]
    cases found : (first :: others).find? exact_ with
    | some x =>
      have holds := List.find?_some found
      have member := List.mem_of_find?_eq_some found
      constructor
      · rintro ⟨labels, given⟩
        cases given
      · rintro ⟨-, none_⟩
        rw [none_ x member] at holds
        cases holds
    | none =>
      have none_ : ∀ x ∈ first :: others, exact_ x = false := by
        simpa using found
      by_cases alone : others = []
      · subst alone
        simp
      · have positive := List.length_pos_iff.mpr alone
        rw [if_neg alone]
        refine iff_of_true ⟨_, rfl⟩ ⟨?_, none_⟩
        rw [List.length_cons]
        omega

end

theorem le_total (kind : Kind) (a b : Row) : kind.le a b ∨ kind.le b a := by
  rcases Nat.le_total a.size b.size with first | second
  · exact .inl (.inr first)
  · exact .inr (.inr second)

theorem le_trans (kind : Kind) (a b c : Row) (first : kind.le a b) (second : kind.le b c) : kind.le a c := by
  rcases first with any | first
  · exact .inl any
  · exact second.imp id first.trans

/-- Different entities have different identifiers. -/
theorem given_entities (kind : Kind) (content : Content) : ((kind.entities content).map Row.given).Nodup := by
  have strings {ids : List Units} (distinct : ids.Nodup) : (ids.map FilterValue.string).Nodup :=
    distinct.map fun _ _ => FilterValue.string.inj
  cases kind with
  | group => simpa [Kind.entities, Row.given, Function.comp_def] using strings content.groupIds
  | user => simpa [Kind.entities, Row.given, Function.comp_def] using strings content.userIds
  | department =>
    have departments := strings (List.nodup_dedup (content.users.filterMap (·.department)))
    simpa [Kind.entities, Row.given, Function.comp_def] using departments
  | tag => simpa [Kind.entities, Row.given, Function.comp_def] using strings content.tagIds
  | rule => exact List.nodup_nil

section

variable {entities : List Row} {p : Row → Bool} {e x : Row}

theorem eq_of_only (one : entities.filter p = [e]) (member : x ∈ entities) (holds : p x = true) : x = e := by
  have inside : x ∈ entities.filter p := List.mem_filter.mpr ⟨member, holds⟩
  rw [one] at inside
  exact List.mem_singleton.mp inside

theorem mem_of_only (one : entities.filter p = [e]) : e ∈ entities ∧ p e = true := by
  have inside : e ∈ entities.filter p := by
    rw [one]
    exact List.mem_singleton_self e
  exact List.mem_filter.mp inside

theorem false_of_none (none_ : entities.filter p = []) : ∀ x ∈ entities, p x = false := fun x member => by
  simpa using List.filter_eq_nil_iff.mp none_ x member

theorem exists_of_several (several : 2 ≤ (entities.filter p).length) : ∃ x ∈ entities, p x = true := by
  have positive : 0 < (entities.filter p).length := by omega
  obtain ⟨x, inside⟩ := List.exists_mem_of_length_pos positive
  obtain ⟨member, holds⟩ := List.mem_filter.mp inside
  exact ⟨x, member, holds⟩

theorem several_of_cons {rest : List Row} (some_ : entities.filter p = e :: x :: rest) :
    2 ≤ (entities.filter p).length := by
  rw [some_, List.length_cons, List.length_cons]
  omega

theorem not_meant {exact_ contains : Row → Bool} (several : 2 ≤ (entities.filter exact_).length) (e : Row) :
    ¬Meant entities exact_ contains e := by
  rintro (one | ⟨none_, -⟩)
  · rw [one, List.length_singleton] at several
    omega
  · rw [none_, List.length_nil] at several
    omega

end

section

variable {kind : Kind} {raw : FilterValue} {le : Row → Row → Prop} [DecidableRel le] {entities : List Row}
variable {exact_ contains matches_ : Row → Bool}
variable (total : ∀ a b, le a b ∨ le b a) (trans : ∀ a b c, le a b → le b c → le a c)
variable (distinct : (entities.map Row.given).Nodup)

include total trans distinct

/-- Where a name never resolves by a guess, the tables are clear. -/
theorem clear_of_unguessed (all : ∀ rows, Firsts le LIMIT (entities.filter matches_) rows →
    Unguessed kind raw entities exact_ contains (settle exact_ kind raw rows)) :
    Clear le entities exact_ contains matches_ := by
  have apart : (entities.filter matches_).Nodup := (List.Nodup.of_map _ distinct).filter _
  have same {a b : Row} (first : a ∈ entities) (second : b ∈ entities) (given : a.given = b.given) : a = b :=
    List.inj_on_of_nodup_map distinct first second given
  have source {rows : List Row} (firsts : Firsts le LIMIT (entities.filter matches_) rows) {x : Row}
      (member : x ∈ rows) : x ∈ entities := (List.mem_filter.mp (firsts.subset x member)).1
  have ambiguous {rows : List Row} (firsts : Firsts le LIMIT (entities.filter matches_) rows)
      (some_ : ∃ e ∈ entities, exact_ e ∨ contains e) (other : ∀ e, ¬Meant entities exact_ contains e) :
      2 ≤ rows.length ∧ ∀ x ∈ rows, exact_ x = false :=
    settle_ambiguous.mp ((all rows firsts).ambiguity some_ other)
  obtain ⟨rows₀, firsts₀⟩ := exists_firsts total trans LIMIT (entities.filter matches_)
  have two : 2 ≤ rows₀.length ↔ 2 ≤ (entities.filter matches_).length := firsts₀.le_length (by decide)
  refine ⟨fun e one => ?_, fun several => ?_, fun m none_ single => ?_, fun none_ many => ?_⟩
  · have every : ∀ rows, Firsts le LIMIT (entities.filter matches_) rows → e ∈ rows := by
      intro rows firsts
      have found := (all rows firsts).found e one
      rcases settle_eq_ok.mp found with ⟨x, first, given⟩ | ⟨-, x, rfl, given⟩
      · have member := List.mem_of_find?_eq_some first
        rwa [← eq_of_only one (source firsts member) (List.find?_some first)]
      · have member := List.mem_singleton_self x
        rw [same (mem_of_only one).1 (source firsts member) given]
        exact member
    obtain ⟨member, few⟩ := (mem_every_firsts total trans apart).mp every
    exact ⟨(List.mem_filter.mp member).2, few⟩
  · obtain ⟨x, member, holds⟩ := exists_of_several several
    have some_ : ∃ e ∈ entities, exact_ e ∨ contains e := ⟨x, member, .inl holds⟩
    refine ⟨two.mp (ambiguous firsts₀ some_ (not_meant several)).1, fun e candidate equal => ?_⟩
    by_contra few
    obtain ⟨rows, firsts, found⟩ := (mem_some_firsts total trans apart).mpr ⟨candidate, not_le.mp few⟩
    rw [(ambiguous firsts some_ (not_meant several)).2 e found] at equal
    cases equal
  · have rows : rows₀ = [m] := (firsts₀.eq_singleton (by decide)).mpr single
    have member : m ∈ entities := source firsts₀ (by rw [rows]; exact List.mem_singleton_self m)
    have settled : settle exact_ kind raw rows₀ = .ok m.given :=
      settle_eq_ok.mpr (.inr ⟨fun x inside => false_of_none none_ x (source firsts₀ inside), m, rows, rfl⟩)
    obtain ⟨e, one | ⟨-, one⟩, given⟩ := (all rows₀ firsts₀).value _ settled
    · rw [none_] at one
      cases one
    · rwa [same member (mem_of_only one).1 given]
  · have other : ∀ e, ¬Meant entities exact_ contains e := by
      rintro e (one | ⟨-, one⟩)
      · rw [none_] at one
        cases one
      · rw [one, List.length_singleton] at many
        omega
    obtain ⟨x, member, holds⟩ := exists_of_several many
    exact two.mp (ambiguous firsts₀ ⟨x, member, .inr holds⟩ other).1

/-- Clear tables settle a name without guessing, whichever candidates come first. -/
theorem Clear.unguessed (clear : Clear le entities exact_ contains matches_) {rows : List Row}
    (firsts : Firsts le LIMIT (entities.filter matches_) rows) :
    Unguessed kind raw entities exact_ contains (settle exact_ kind raw rows) := by
  have apart : (entities.filter matches_).Nodup := (List.Nodup.of_map _ distinct).filter _
  have source {x : Row} (member : x ∈ rows) : x ∈ entities := (List.mem_filter.mp (firsts.subset x member)).1
  have two : 2 ≤ rows.length ↔ 2 ≤ (entities.filter matches_).length := firsts.le_length (by decide)
  have beyond (several : 2 ≤ (entities.filter exact_).length) : ∀ x ∈ rows, exact_ x = false := by
    intro x inside
    by_contra holds
    rw [Bool.not_eq_false] at holds
    obtain ⟨candidate, few⟩ := (mem_some_firsts total trans apart).mp ⟨rows, firsts, inside⟩
    exact absurd ((clear.several several).2 x candidate holds) (not_le.mpr few)
  have reached {e : Row} (one : entities.filter exact_ = [e]) : e ∈ rows := by
    obtain ⟨matched, few⟩ := clear.one e one
    have candidate := List.mem_filter.mpr ⟨(mem_of_only one).1, matched⟩
    exact (mem_every_firsts total trans apart).mpr ⟨candidate, few⟩ rows firsts
  refine ⟨fun v settled => ?_, fun some_ other => ?_, fun e one => ?_⟩
  · rcases settle_eq_ok.mp settled with ⟨x, first, rfl⟩ | ⟨none_, x, rfl, rfl⟩
    · have inside := List.mem_of_find?_eq_some first
      have holds : exact_ x = true := List.find?_some first
      refine ⟨x, .inl ?_, rfl⟩
      rcases equal : entities.filter exact_ with - | ⟨e, - | ⟨e', rest⟩⟩
      · rw [false_of_none equal x (source inside)] at holds
        cases holds
      · rw [eq_of_only equal (source inside) holds]
      · rw [beyond (several_of_cons equal) x inside] at holds
        cases holds
    · have single := (firsts.eq_singleton (by decide)).mp rfl
      refine ⟨x, .inr ?_, rfl⟩
      rcases equal : entities.filter exact_ with - | ⟨e, - | ⟨e', rest⟩⟩
      · exact ⟨rfl, clear.single x equal single⟩
      · have holds := (mem_of_only equal).2
        rw [none_ e (reached equal)] at holds
        cases holds
      · have more := (clear.several (several_of_cons equal)).1
        rw [single, List.length_singleton] at more
        omega
  · refine settle_ambiguous.mpr ?_
    rcases equal : entities.filter exact_ with - | ⟨e, - | ⟨e', rest⟩⟩
    · rcases held : entities.filter contains with - | ⟨c, - | ⟨c', rest⟩⟩
      · obtain ⟨e, member, holds | holds⟩ := some_
        · rw [false_of_none equal e member] at holds
          cases holds
        · rw [false_of_none held e member] at holds
          cases holds
      · exact absurd (.inr ⟨equal, held⟩) (other c)
      · have many := clear.many equal (several_of_cons held)
        exact ⟨two.mpr many, fun x inside => false_of_none equal x (source inside)⟩
    · exact absurd (.inl equal) (other e)
    · have several := several_of_cons equal
      exact ⟨two.mpr (clear.several several).1, beyond several⟩
  · have some_ : (rows.find? exact_).isSome := List.find?_isSome.mpr ⟨e, reached one, (mem_of_only one).2⟩
    obtain ⟨x, first⟩ := Option.isSome_iff_exists.mp some_
    have inside := List.mem_of_find?_eq_some first
    rw [eq_of_only one (source inside) (List.find?_some first)] at first
    exact settle_eq_ok.mpr (.inl ⟨e, first, rfl⟩)

end

section

variable {lower : List Char → List Char} {toLowerCase : Units → Units} {kind : Kind} {name : Units}
variable {content content' : Content} {result : Except ResolveError FilterValue} {rows : List Row}

/-- The candidates of a name, as the database may answer them. -/
def Candidates (lower : List Char → List Char) (kind : Kind) (name : Units) (content : Content) (rows : List Row) :
    Prop :=
  Firsts kind.le LIMIT
    ((kind.entities content).filter (kind.matches lower (scalars (ascii "%" ++ name ++ ascii "%")))) rows

theorem resolveOne_of_kind (queried : kind ≠ .rule) (raw : FilterValue) : resolveOne toLowerCase kind raw =
    (Program.perform ⟨kind, pattern raw⟩).bind fun rows => .ret (settle (Row.exact toLowerCase kind raw) kind raw rows) := by
  unfold resolveOne
  rw [if_neg queried]
  refine congrArg (Program.op _) (funext fun rows => ?_)
  cases rows with
  | nil => rfl
  | cons first others =>
    simp only [Program.pure_eq, Program.ret_bind, settle]
    cases (first :: others).find? (Row.exact toLowerCase kind raw) with
    | some exact => rfl
    | none =>
      by_cases alone : others = []
      · simp only [if_pos alone]
      · simp only [if_neg alone]

/-- How resolving a name ends: with what its candidates settle. -/
theorem resolveOne_ends (queried : kind ≠ .rule) :
    Rules.Ends (database lower) (resolveOne toLowerCase kind (.string name)) content result content' ↔
      content' = content ∧ 0 ∉ name ∧ ∃ rows, Candidates lower kind name content rows ∧
        result = settle (Row.exact toLowerCase kind (.string name)) kind (.string name) rows := by
  have storable : 0 ∉ ascii "%" ++ name ++ ascii "%" ↔ 0 ∉ name := by
    have percent : 0 ∉ ascii "%" := by decide
    simp only [List.mem_append, percent, false_or, or_false]
  rw [resolveOne_of_kind queried]
  constructor
  · intro ends
    obtain ⟨rows, w, ran, settled⟩ := ends.of_bind
    obtain ⟨rows, w, ⟨rfl, _, given, stored, firsts⟩, answered⟩ := ran.of_op
    cases answered
    cases settled
    cases given
    exact ⟨rfl, storable.mp stored, rows, firsts, rfl⟩
  · rintro ⟨rfl, stored, rows, firsts, rfl⟩
    exact .op ⟨rfl, _, rfl, storable.mpr stored, firsts⟩ .ret

/-- Names resolve without guessing in exactly the clear tables; a name with a zero makes the query raise. -/
theorem resolves_iff (lower : List Char → List Char) (toLowerCase : Units → Units) (kind : Kind) (name : Units)
    (content : Content) :
    (∀ result content', Rules.Ends (database lower) (resolveOne toLowerCase kind (.string name)) content result content' →
      Unguessed kind (.string name) (kind.entities content) (Row.exact toLowerCase kind (.string name))
        (kind.contains lower (scalars name)) result) ↔
    0 ∈ name ∨ Clear kind.le (kind.entities content) (Row.exact toLowerCase kind (.string name))
      (kind.contains lower (scalars name)) (kind.matches lower (scalars (ascii "%" ++ name ++ ascii "%"))) := by
  have distinct := given_entities kind content
  by_cases rule : kind = .rule
  · subst rule
    have nothing (p : Row → Bool) : (Kind.rule.entities content).filter p = [] := rfl
    refine iff_of_true (fun result content' ends => ?_) (.inr ?_)
    · cases ends
      refine ⟨fun v given => ?_, fun some_ => ?_, fun e one => ?_⟩
      · cases given
      · obtain ⟨e, member, -⟩ := some_
        cases member
      · cases one
    · refine ⟨fun e one => ?_, fun several => ?_, fun m _ single => ?_, fun _ many => ?_⟩
      · cases one
      · rw [nothing] at several
        cases several
      · cases single
      · rw [nothing] at many
        cases many
  · simp only [resolveOne_ends rule]
    constructor
    · intro all
      by_cases zero : 0 ∈ name
      · exact .inl zero
      · exact .inr (clear_of_unguessed (le_total kind) (le_trans kind) distinct fun rows firsts =>
          all _ content ⟨rfl, zero, rows, firsts, rfl⟩)
    · rintro (zero | clear) result content' ⟨-, stored, rows, firsts, rfl⟩
      · exact absurd zero stored
      · exact clear.unguessed (le_total kind) (le_trans kind) distinct firsts

end

section

def namesake (id : String) : User := ⟨ascii id, some (ascii "ana"), none, none⟩

/-- Two users of one name. -/
def homonyms : Content where
  groups := []
  users := [namesake "u-1", namesake "u-2"]
  tags := []
  groupIds := List.nodup_nil
  userIds := by decide
  tagIds := List.nodup_nil

theorem homonyms_found : (Kind.user.entities homonyms).filter (Kind.user.matches (List.map Char.toLower)
    (scalars (ascii "%" ++ ascii "ana" ++ ascii "%"))) = Kind.user.entities homonyms := by
  decide

theorem homonym_guessed : ∃ result content', Rules.Ends (database (List.map Char.toLower))
    (resolveOne asciiLower .user (.string (ascii "ana"))) homonyms result content' ∧
    ¬Unguessed .user (.string (ascii "ana")) (Kind.user.entities homonyms)
      (Row.exact asciiLower .user (.string (ascii "ana")))
      (Kind.user.contains (List.map Char.toLower) (scalars (ascii "ana"))) result := by
  have both : (Kind.user.entities homonyms).filter (Row.exact asciiLower .user (.string (ascii "ana"))) =
      Kind.user.entities homonyms := by
    decide
  refine ⟨.ok (.string (ascii "u-1")), homonyms, ?_, fun unguessed => ?_⟩
  · have candidates : Candidates (List.map Char.toLower) .user (ascii "ana") homonyms
        (Kind.user.entities homonyms) := by
      rw [Candidates, homonyms_found]
      exact ⟨_, .refl _, by decide, rfl⟩
    exact (resolveOne_ends (by decide)).mpr ⟨rfl, by decide, _, candidates, rfl⟩
  · obtain ⟨e, meant, -⟩ := unguessed.value _ rfl
    have several : 2 ≤ ((Kind.user.entities homonyms).filter
        (Row.exact asciiLower .user (.string (ascii "ana")))).length := by
      rw [both]
      decide
    exact not_meant several e meant

end

end Opale.Ask
