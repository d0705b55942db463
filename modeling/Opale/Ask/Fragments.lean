import Opale.Ask.Registry

namespace Opale.Ask

open Js Sql

/-- A fragment, whatever the parameters before it: its placeholders are those of the values that it pushes. -/
structure Shape where
  size : Nat
  text : Nat → Template
  sound : ∀ n, Sound (text n)
  numbered : ∀ n m, m ∈ Template.parameters (text n) ↔ n < m ∧ m ≤ n + size

namespace Shape

def constant (s : List Char) (plain : '$' ∉ s) : Shape where
  size := 0
  text _ := [.text s]
  sound _ := ⟨plain, trivial⟩
  numbered n m := by simp [Template.parameters, Piece.parameter?]

/-- The placeholder of one value, each time with the text that follows. -/
def holes (n : Nat) (after : List (List Char)) : Template := after.flatMap fun s => [.placeholder n, .text s]

theorem sound_holes {n : Nat} {after : List (List Char)} (plain : ∀ s ∈ after, '$' ∉ s)
    (apart : ∀ s ∈ after, Apart [.text s]) : Apart (holes n after) ∧ Sound (holes n after) := by
  induction after with
  | nil => exact ⟨trivial, trivial⟩
  | cons s rest ih =>
    obtain ⟨later, sound⟩ := ih (fun s member => plain s (List.mem_cons_of_mem _ member))
      (fun s member => apart s (List.mem_cons_of_mem _ member))
    have here : Apart ([.text s] ++ holes n rest) := (apart s List.mem_cons_self).append later
    exact ⟨trivial, here, plain s List.mem_cons_self, sound⟩

theorem parameters_holes (n : Nat) (after : List (List Char)) :
    Template.parameters (holes n after) = List.replicate after.length n := by
  induction after with
  | nil => rfl
  | cons s rest ih =>
    have here : Template.parameters (holes n (s :: rest)) = n :: Template.parameters (holes n rest) := rfl
    rw [here, ih, List.length_cons, List.replicate_succ]

def repeated (before : List Char) (after : List (List Char)) (some_ : after ≠ []) (plain : ∀ s ∈ before :: after, '$' ∉ s)
    (apart : ∀ s ∈ after, Apart [.text s]) : Shape where
  size := 1
  text n := .text before :: holes (n + 1) after
  sound n := by
    have sound := sound_holes (n := n + 1) (fun s member => plain s (List.mem_cons_of_mem _ member)) apart
    exact ⟨plain before List.mem_cons_self, sound.2⟩
  numbered n m := by
    have same : Template.parameters (.text before :: holes (n + 1) after) = Template.parameters (holes (n + 1) after) := rfl
    rw [same, parameters_holes, List.mem_replicate, Ne, List.length_eq_zero_iff]
    have numbered : m = n + 1 ↔ n < m ∧ m ≤ n + 1 := by omega
    exact ⟨fun member => numbered.mp member.2, fun inside => ⟨some_, numbered.mpr inside⟩⟩

/-- A program of a filter that gives the fragment and pushes its values. -/
def Of (shape : Shape) (thresholds : Option Thresholds) (build : Ctx (Option Template)) : Prop :=
  ∀ params, ∃ pushed, pushed.length = shape.size ∧
    (build.run thresholds).run params = pure (some (shape.text params.length), params ++ pushed)

end Shape

/-- What a filter is applied to, once validated and resolved. -/
def FilterType.Accepts : FilterType → FilterValue → Prop
  | .enum values, v => ∃ s ∈ values, v = .string s
  | .text, v => ∃ s, v = .string s
  | .number, v => ∃ n, v = .number n
  | .bool, v => ∃ b, v = .bool b
  | .resolve _, _ => True

/-- The values that choose the text: those of an enumeration, and the booleans. -/
def FilterType.visible : FilterType → FilterValue → Option FilterValue
  | .enum _, v | .bool, v => some v
  | .text, _ | .number, _ | .resolve _, _ => none

/-- The fragment of the filter goes by the visible value alone. -/
def Filter.Lawful (f : Filter) : Prop :=
  ∀ thresholds, ∃ shape : Option FilterValue → Shape, ∀ v, f.type.Accepts v →
    (shape (f.type.visible v)).Of thresholds (f.apply v)

theorem lawful_of_visible {f : Filter} (visible : ∀ v, f.type.visible v = some v)
    (each : ∀ thresholds v, f.type.Accepts v → ∃ shape : Shape, shape.Of thresholds (f.apply v)) : f.Lawful := by
  intro thresholds
  have chosen (v : FilterValue) : ∃ shape : Shape, f.type.Accepts v → shape.Of thresholds (f.apply v) := by
    by_cases accepted : f.type.Accepts v
    · obtain ⟨shape, gives⟩ := each thresholds v accepted
      exact ⟨shape, fun _ => gives⟩
    · exact ⟨.constant [] List.not_mem_nil, fun other => absurd other accepted⟩
  choose shape gives using chosen
  refine ⟨fun seen => shape (seen.getD .null), fun v accepted => ?_⟩
  rw [visible]
  exact gives v accepted

theorem lawful_of_shape {f : Filter} (shape : Shape) (each : ∀ thresholds v, shape.Of thresholds (f.apply v)) : f.Lawful :=
  fun thresholds => ⟨fun _ => shape, fun v _ => each thresholds v⟩

@[simp] theorem run_param (v : FilterValue) (thresholds : Option Thresholds) (params : List FilterValue) :
    ((param v).run thresholds).run params = pure (.placeholder (params.length + 1), params ++ [v]) := by
  have pushed : ((param v).run thresholds).run params = pure (.placeholder (params ++ [v]).length, params ++ [v]) := rfl
  simpa using pushed

/-- The two texts around a placeholder: without a dollar, and no digit behind it. -/
def Around (before after : List Char) : Prop :=
  '$' ∉ before ∧ '$' ∉ after ∧ ∀ c ∈ after.head?, c.isDigit = false

instance {before after : List Char} : Decidable (Around before after) :=
  have : Decidable (∀ c ∈ after.head?, c.isDigit = false) := Option.decidableForallMem _
  inferInstanceAs (Decidable (_ ∧ _ ∧ ∀ c ∈ after.head?, c.isDigit = false))

section

variable {before after : List Char} (around : Around before after)

include around

theorem Around.apart : ∀ s ∈ [after], Apart [.text s] := by
  intro s member
  rw [List.mem_singleton.mp member]
  have digit := around.2.2
  cases after with
  | nil => trivial
  | cons c s => exact digit c rfl

theorem Around.plain : ∀ s ∈ [before, after], '$' ∉ s := by
  simpa using ⟨around.1, around.2.1⟩

theorem of_comparing {thresholds : Option Thresholds} (v : FilterValue) :
    (Shape.repeated before [after] (List.cons_ne_nil _ _) around.plain around.apart).Of thresholds
      (comparing (.ofList before) (.ofList after) v) :=
  fun params => ⟨[v], rfl, by simp [comparing, Shape.repeated, Shape.holes]⟩

theorem lawful_comparing (type : FilterType) : Filter.Lawful ⟨type, comparing (.ofList before) (.ofList after)⟩ :=
  lawful_of_shape _ fun _ v => of_comparing around v

theorem lawful_containing (type : FilterType) : Filter.Lawful ⟨type, containing (.ofList before) (.ofList after)⟩ :=
  lawful_of_shape _ fun _ v => of_comparing around (pattern v)

end

/-- A filter of an enumeration or a boolean without parameters. -/
theorem lawful_of_text {f : Filter} (visible : ∀ v, f.type.visible v = some v)
    (each : ∀ thresholds v, f.type.Accepts v → ∃ s : List Char, '$' ∉ s ∧
      ∀ params, ((f.apply v).run thresholds).run params = pure (some [.text s], params)) : f.Lawful := by
  refine lawful_of_visible visible fun thresholds v accepted => ?_
  obtain ⟨s, plain, gives⟩ := each thresholds v accepted
  refine ⟨.constant s plain, fun params => ⟨[], rfl, ?_⟩⟩
  rw [gives, List.append_nil]
  rfl

theorem lawful_choosing {yes no : String} (affirmed : '$' ∉ yes.toList) (denied : '$' ∉ no.toList) :
    Filter.Lawful ⟨.bool, choosing yes no⟩ := by
  refine lawful_of_text (fun _ => rfl) fun thresholds v _ => ⟨(if v.truthy then yes else no).toList, ?_, fun _ => rfl⟩
  split
  · exact affirmed
  · exact denied

theorem plain_append {s t : List Char} (first : '$' ∉ s) (second : '$' ∉ t) : '$' ∉ s ++ t := by
  simp [first, second]

theorem plain_ofList {s : List Char} (plain : '$' ∉ s) : '$' ∉ (String.ofList s).toList := by
  rwa [String.toList_ofList]

theorem plain_bitlocker : '$' ∉ Devices.bitlocker.toList := plain_ofList (by decide)

theorem plain_noBitlocker : '$' ∉ ("NOT (" ++ Devices.bitlocker ++ ")").toList := by
  rw [String.toList_append, String.toList_append]
  exact plain_append (plain_append (plain_ofList (by decide)) plain_bitlocker) (plain_ofList (by decide))

theorem text_status (thresholds : Option Thresholds) (v : FilterValue)
    (accepted : (FilterType.enum Devices.statuses).Accepts v) : ∃ s : List Char, '$' ∉ s ∧
      ∀ params, ((Devices.status v).run thresholds).run params = pure (some [.text s], params) := by
  obtain ⟨s, member, rfl⟩ := accepted
  have warn := plain_numberText (thresholds.getD DEFAULT_THRESHOLDS).warn
  have critical := plain_numberText (thresholds.getD DEFAULT_THRESHOLDS).critical
  have above : '$' ∉ "d.disk_used_pct >= ".toList := plain_ofList (by decide)
  have below : '$' ∉ " AND d.disk_used_pct < ".toList := plain_ofList (by decide)
  simp only [Devices.statuses, List.map_cons, List.map_nil, List.mem_cons, List.not_mem_nil, or_false] at member
  rcases member with rfl | rfl | rfl | rfl | rfl
  · exact ⟨"d.last_seen > now() - interval '1 hour'".toList, plain_ofList (by decide), fun _ => rfl⟩
  · exact ⟨"(d.last_seen IS NULL OR d.last_seen < now() - interval '1 hour')".toList, plain_ofList (by decide),
      fun _ => rfl⟩
  · exact ⟨_, plain_append above critical, fun _ => rfl⟩
  · exact ⟨_, plain_append (plain_append (plain_append above warn) below) critical, fun _ => rfl⟩
  · exact ⟨"d.assigned_user_id IS NULL".toList, plain_ofList (by decide), fun _ => rfl⟩

theorem lawful_status : Filter.Lawful ⟨.enum Devices.statuses, Devices.status⟩ :=
  lawful_of_text (fun _ => rfl) text_status

def searchShape : Shape :=
  .repeated "(d.hostname ILIKE ".toList
    [" OR u.email ILIKE ".toList, " OR u.display_name ILIKE ".toList, " OR d.model ILIKE ".toList, ")".toList]
    (List.cons_ne_nil _ _) (by simp) (by simp [Apart])

theorem run_search (thresholds : Option Thresholds) (v : FilterValue) (params : List FilterValue) :
    ((Devices.search v).run thresholds).run params =
      pure (some (searchShape.text params.length), params ++ [pattern v]) := by
  simp [Devices.search, searchShape, Shape.repeated, Shape.holes]

theorem lawful_search : Filter.Lawful ⟨.text, Devices.search⟩ :=
  lawful_of_shape searchShape fun thresholds v params => ⟨[pattern v], rfl, run_search thresholds v params⟩

set_option maxRecDepth 4000 in
theorem text_hasTicket (thresholds : Option Thresholds) (v : FilterValue) : ∃ s : List Char, '$' ∉ s ∧
    ∀ params, ((Devices.hasTicket v).run thresholds).run params = pure (some [.text s], params) := by
  refine ⟨_, plain_append (plain_append ?_ ?_) ?_, fun _ => rfl⟩
  · exact plain_ofList (by decide)
  · unfold Devices.extra
    split_ifs <;> exact plain_ofList (by decide)
  · exact plain_ofList (by decide)

theorem lawful_hasTicket : Filter.Lawful ⟨.enum (["any", "open", "critical", "high"].map ascii), Devices.hasTicket⟩ :=
  lawful_of_text (fun _ => rfl) fun thresholds v _ => text_hasTicket thresholds v

/-- The texts of a resource hold no placeholder, its filters push theirs, and its own sort is one of its sorts. -/
structure Resource.Lawful (res : Resource) : Prop where
  filters : ∀ f ∈ res.filters, f.2.Lawful
  crossFilters : ∀ f ∈ res.crossFilters, f.2.Lawful
  table : '$' ∉ res.table.toList
  select : '$' ∉ res.select.toList
  joins : ∀ s ∈ res.joins, '$' ∉ s.toList
  sort : ∀ entry ∈ res.sort, '$' ∉ entry.2.toList
  defaultSort : (ownEntry res.sort res.defaultSort.field).isSome

theorem lawful_deviceFilters : ∀ f ∈ Devices.filters, f.2.Lawful := by
  simp only [Devices.filters, List.forall_mem_cons]
  exact ⟨lawful_status, lawful_search, lawful_containing (by decide) _, lawful_containing (by decide) _,
    lawful_containing (by decide) _, lawful_comparing (by decide) _, lawful_comparing (by decide) _,
    lawful_comparing (by decide) _, lawful_comparing (by decide) _, lawful_comparing (by decide) _,
    lawful_comparing (by decide) _, lawful_choosing (plain_ofList (by decide)) (plain_ofList (by decide)),
    lawful_choosing (plain_ofList (by decide)) (plain_ofList (by decide)), lawful_comparing (by decide) _,
    lawful_choosing plain_bitlocker plain_noBitlocker, lawful_comparing (by decide) _,
    lawful_comparing (by decide) _, List.forall_mem_nil _⟩

set_option maxRecDepth 4000 in
theorem lawful_deviceCrossFilters : ∀ f ∈ Devices.crossFilters, f.2.Lawful := by
  simp only [Devices.crossFilters, List.forall_mem_cons]
  exact ⟨lawful_hasTicket, lawful_comparing (by decide) _, lawful_comparing (by decide) _,
    List.forall_mem_nil _⟩

set_option maxRecDepth 4000 in
theorem lawful_devices : devices.Lawful where
  filters := lawful_deviceFilters
  crossFilters := lawful_deviceCrossFilters
  table := plain_ofList (by decide)
  select := plain_ofList (by decide)
  joins := by
    simp only [devices, List.forall_mem_cons]
    exact ⟨plain_ofList (by decide), List.forall_mem_nil _⟩
  sort := by
    simp only [devices, List.forall_mem_cons]
    exact ⟨plain_ofList (by decide), plain_ofList (by decide), plain_ofList (by decide), plain_ofList (by decide),
      plain_ofList (by decide), List.forall_mem_nil _⟩
  defaultSort := by decide

set_option maxRecDepth 4000 in
theorem lawful_tickets : tickets.Lawful where
  filters := by
    simp only [tickets, List.forall_mem_cons]
    exact ⟨lawful_comparing (by decide) _, lawful_choosing (plain_ofList (by decide)) (plain_ofList (by decide)),
      lawful_comparing (by decide) _, lawful_containing (by decide) _, lawful_comparing (by decide) _,
      lawful_comparing (by decide) _, lawful_comparing (by decide) _,
      lawful_comparing (by decide) _, lawful_comparing (by decide) _, List.forall_mem_nil _⟩
  crossFilters := by
    simp only [tickets, List.forall_mem_cons]
    exact ⟨lawful_containing (by decide) _, List.forall_mem_nil _⟩
  table := plain_ofList (by decide)
  select := plain_ofList (by decide)
  joins := by
    simp only [tickets, List.forall_mem_cons]
    exact ⟨plain_ofList (by decide), plain_ofList (by decide), List.forall_mem_nil _⟩
  sort := by
    simp only [tickets, List.forall_mem_cons]
    exact ⟨plain_ofList (by decide), plain_ofList (by decide), plain_ofList (by decide), plain_ofList (by decide),
      List.forall_mem_nil _⟩
  defaultSort := by decide

set_option maxRecDepth 4000 in
theorem lawful_compliance : compliance.Lawful where
  filters := by
    simp only [compliance, List.forall_mem_cons]
    exact ⟨lawful_comparing (by decide) _, lawful_comparing (by decide) _, lawful_comparing (by decide) _,
      lawful_containing (by decide) _, List.forall_mem_nil _⟩
  crossFilters := List.forall_mem_nil _
  table := plain_ofList (by decide)
  select := plain_ofList (by decide)
  joins := by
    simp only [compliance, List.forall_mem_cons]
    exact ⟨plain_ofList (by decide), plain_ofList (by decide), List.forall_mem_nil _⟩
  sort := by
    simp only [compliance, List.forall_mem_cons]
    exact ⟨plain_ofList (by decide), plain_ofList (by decide), plain_ofList (by decide), List.forall_mem_nil _⟩
  defaultSort := by decide

theorem lawful_registry : ∀ entry ∈ REGISTRY, entry.2.Lawful := by
  simp only [REGISTRY, List.forall_mem_cons]
  exact ⟨lawful_devices, lawful_tickets, lawful_compliance, List.forall_mem_nil _⟩

end Opale.Ask
