import Opale.Js.Values

namespace Opale.AgentGo

open Js

structure LocalTime where
  weekday : Nat
  hour : Nat
  minute : Nat
  deriving DecidableEq

/-- An instant as both sides see it: `format` is what `Intl.DateTimeFormat` says for the value of
`timeZone`, `location` what `time.LoadLocation` says for a name; nothing for an unknown zone. Both
know the same zones and tell the same time in them. -/
structure Instant where
  format : Json → Option LocalTime
  location : List Char → Option LocalTime
  utc : LocalTime
  format_utc : format (.string (ascii "UTC")) = some utc
  format_string : ∀ s, s ≠ [] → format (.string s) = location (scalars s)

inductive WindowKey where
  | weekdays | start | end_ | tz
  deriving DecidableEq

def WindowKey.name : WindowKey → Units
  | .weekdays => ascii "weekdays"
  | .start => ascii "start"
  | .end_ => ascii "end"
  | .tz => ascii "tz"

def WINDOW_KEYS : List WindowKey := [.weekdays, .start, .end_, .tz]

def isText : Option Json → Bool
  | none | some .null | some (.string _) => true
  | _ => false

def isDay : Json → Bool
  | .number n => n.integer?.any fun d => |d| < 2 ^ 31
  | _ => false

def isDays : Option Json → Bool
  | none | some .null => true
  | some (.array items) => items.all isDay
  | _ => false

/-- The window that the agent is sent: its own members under the exact keys, or null. -/
def windowForAgent (w : Json) : Option (List (WindowKey × Json)) :=
  match w with
  | .object _ =>
    let field (k : WindowKey) := w.get k.name
    if isText (field .start) && isText (field .end_) && isText (field .tz) && isDays (field .weekdays) then
      some (WINDOW_KEYS.filterMap fun k => (field k).map fun v => (k, v))
    else none
  | _ => none

/-- `^(\d{1,2}):(\d{2})$`: the hour and the minute. -/
def HHMM_RE {α : Type} (digit : α → Option Nat) (colon : α → Bool) : List α → Option (Nat × Nat)
  | [h, c, m, n] => do
    guard (colon c)
    return (← digit h, 10 * (← digit m) + (← digit n))
  | [g, h, c, m, n] => do
    guard (colon c)
    return (10 * (← digit g) + (← digit h), 10 * (← digit m) + (← digit n))
  | _ => none

/-- Minutes since midnight. -/
def minutes : Nat × Nat → Option Nat
  | (h, m) => if h > 23 || m > 59 then none else some (h * 60 + m)

namespace Server

def digit (u : UInt16) : Option Nat := if 48 ≤ u.toNat && u.toNat ≤ 57 then some (u.toNat - 48) else none

def parseHHMM : Option Json → Option Nat
  | some (.string s) => (HHMM_RE digit (· = 58) s).bind minutes
  | _ => none

/-- `weekdays.includes(weekday)`; without an array, or with an empty one, every day counts. -/
def includes (weekday : Nat) : Option Json → Bool
  | some (.array items) => items.isEmpty || items.any fun d =>
    match d with
    | .number n => n = ((weekday : Int) : ℚ)
    | _ => false
  | _ => true

/-- isMaintenanceWindowActive -/
def isMaintenanceWindowActive (now : Instant) (w : Json) : Bool :=
  match w with
  | .null | .bool _ | .number _ | .string _ => true
  | .array _ | .object _ =>
    let field (k : WindowKey) := w.get k.name
    let hasFields := truthyLength (field .weekdays) || truthy (field .start) || truthy (field .end_)
    if !hasFields then true
    else
      let tz := ((field .tz).filter fun tz => truthy (some tz)).getD (.string (ascii "UTC"))
      match now.format tz with
      | none => true
      | some here =>
        if !includes here.weekday (field .weekdays) then false
        else
          match parseHHMM (field .start), parseHHMM (field .end_) with
          | some start, some end_ =>
            if start = end_ then true
            else
              let cur := here.hour * 60 + here.minute
              if start < end_ then start ≤ cur && cur < end_ else start ≤ cur || cur < end_
          | _, _ => true

end Server

structure MaintenanceWindow where
  weekdays : List Int
  start : List Char
  end_ : List Char
  tz : List Char
  deriving DecidableEq

/-- A JSON value into an `int`; null leaves the zero of a new element. -/
def decodeInt : Json → Option Int
  | .null => some 0
  | .number n => n.integer?.filter fun d => -2 ^ 63 ≤ d && d < 2 ^ 63
  | _ => none

def decodeDays : Option Json → Option (List Int)
  | none | some .null => some []
  | some (.array items) => items.mapM decodeInt
  | _ => none

def decodeText : Option Json → Option (List Char)
  | none | some .null => some []
  | some (.string s) => some (scalars s)
  | _ => none

/-- `json.Unmarshal` of a window, each of its keys there at most once. -/
def decodeWindow (sent : List (WindowKey × Json)) : Option MaintenanceWindow := do
  return {
    weekdays := ← decodeDays (sent.lookup .weekdays)
    start := ← decodeText (sent.lookup .start)
    end_ := ← decodeText (sent.lookup .end_)
    tz := ← decodeText (sent.lookup .tz) }

/-- What the agent makes of the response; nothing when it cannot decode it. -/
def received (sent : Option (List (WindowKey × Json))) : Option (Option MaintenanceWindow) :=
  match sent with
  | none => some none
  | some members => (decodeWindow members).map some

def digit (c : Char) : Option Nat := if 48 ≤ c.toNat && c.toNat ≤ 57 then some (c.toNat - 48) else none

def parseHHMM (s : List Char) : Option Nat := (HHMM_RE digit (· = ':') s).bind minutes

/-- IsActive; no window is a nil pointer. -/
def isActive (now : Instant) : Option MaintenanceWindow → Bool
  | none => true
  | some w =>
    if w.weekdays = [] && w.start = [] && w.end_ = [] then true
    else
      match if w.tz = [] then some now.utc else now.location w.tz with
      | none => true
      | some here =>
        if w.weekdays ≠ [] && !w.weekdays.contains (here.weekday : Int) then false
        else
          match parseHHMM w.start, parseHHMM w.end_ with
          | some start, some end_ =>
            let cur := here.hour * 60 + here.minute
            if start = end_ then true
            else if start < end_ then start ≤ cur && cur < end_
            else start ≤ cur || cur < end_
          | _, _ => true

/-- Neither a digit nor a colon. -/
def Foreign {α : Type} (digit : α → Option Nat) (colon : α → Bool) (a : α) : Prop := digit a = none ∧ colon a = false

theorem HHMM_map {α β : Type} (digit : α → Option Nat) (colon : α → Bool) (f : β → α) (s : List β) :
    HHMM_RE digit colon (s.map f) = HHMM_RE (digit ∘ f) (colon ∘ f) s := by
  match s with
  | [] | [_] | [_, _] | [_, _, _] | [_, _, _, _] | [_, _, _, _, _] | _ :: _ :: _ :: _ :: _ :: _ :: _ => rfl

theorem HHMM_foreign {α : Type} {digit : α → Option Nat} {colon : α → Bool} {s : List α} {a : α} (member : a ∈ s)
    (foreign : Foreign digit colon a) : HHMM_RE digit colon s = none := by
  obtain ⟨noDigit, noColon⟩ := foreign
  unfold HHMM_RE
  split
  · rename_i h c m n
    simp only [List.mem_cons, List.not_mem_nil, or_false] at member
    rcases member with rfl | rfl | rfl | rfl <;> simp [noDigit, noColon]
  · rename_i g h c m n
    simp only [List.mem_cons, List.not_mem_nil, or_false] at member
    rcases member with rfl | rfl | rfl | rfl | rfl <;> simp [noDigit, noColon]
  · rfl

theorem foreign_of_le {c : Char} (above : 0xFFFD ≤ c.toNat) : Foreign digit (· = ':') c := by
  refine ⟨if_neg ?_, decide_eq_false fun same => ?_⟩
  · simp only [Bool.and_eq_true, decide_eq_true_eq]
    omega
  · subst same
    exact absurd above (by decide)

theorem foreign_of_high {u : UInt16} (high : isHighSurrogate u = true) : Foreign Server.digit (· = 58) u := by
  simp only [isHighSurrogate, Bool.and_eq_true, decide_eq_true_eq] at high
  refine ⟨if_neg ?_, decide_eq_false fun same => ?_⟩
  · simp only [Bool.and_eq_true, decide_eq_true_eq]
    omega
  · subst same
    exact absurd high.1 (by decide)

theorem toNat_scalar_eq {u : UInt16} {n : Nat} (small : n < 0xD800) : (scalar u).toNat = n ↔ u.toNat = n := by
  by_cases surrogate : (isHighSurrogate u || isLowSurrogate u) = true
  · rw [toNat_scalar_of_surrogate surrogate]
    simp only [isHighSurrogate, isLowSurrogate, Bool.or_eq_true, Bool.and_eq_true, decide_eq_true_eq] at surrogate
    omega
  · rw [Bool.not_eq_true, Bool.or_eq_false_iff] at surrogate
    rw [toNat_scalar surrogate.1 surrogate.2]

theorem digit_scalar (u : UInt16) : digit (scalar u) = Server.digit u := by
  unfold digit Server.digit
  by_cases here : 48 ≤ u.toNat ∧ u.toNat ≤ 57
  · rw [(toNat_scalar_eq (by omega)).mpr rfl]
  · have apart : ¬(48 ≤ (scalar u).toNat ∧ (scalar u).toNat ≤ 57) := fun inside =>
      here ((toNat_scalar_eq (u := u) (n := (scalar u).toNat) (by omega)).mp rfl ▸ inside)
    rw [if_neg (by simpa using apart), if_neg (by simpa using here)]

theorem colon_scalar (u : UInt16) : decide (scalar u = ':') = decide (u = 58) := by
  refine decide_eq_decide.mpr ?_
  rw [← Char.toNat_inj, ← UInt16.toNat_inj]
  exact toNat_scalar_eq (by decide)

/-- Both sides read the same time of day in a text. -/
theorem HHMM_scalars (s : Units) : HHMM_RE digit (· = ':') (scalars s) = HHMM_RE Server.digit (· = 58) s := by
  by_cases paired : ∃ u ∈ s, isHighSurrogate u = true
  · obtain ⟨u, member, high⟩ := paired
    obtain ⟨c, there, above⟩ := exists_of_high member high
    rw [HHMM_foreign there (foreign_of_le above), HHMM_foreign member (foreign_of_high high)]
  · have single : ∀ u ∈ s, isHighSurrogate u = false := fun u member => Bool.eq_false_iff.mpr fun high =>
      paired ⟨u, member, high⟩
    have digits : digit ∘ scalar = Server.digit := funext digit_scalar
    have colons : (fun c => decide (c = ':')) ∘ scalar = fun u => decide (u = 58) := funext colon_scalar
    rw [scalars_eq_map single, HHMM_map, digits, colons]

theorem decodeText_spec {v : Option Json} (text : isText v = true) : ∃ t, decodeText v = some t ∧
    parseHHMM t = Server.parseHHMM v ∧ truthy v = decide (t ≠ []) := by
  unfold isText at text
  split at text
  · exact ⟨[], rfl, rfl, rfl⟩
  · exact ⟨[], rfl, rfl, rfl⟩
  · rename_i s
    refine ⟨scalars s, rfl, ?_, decide_eq_decide.mpr (not_congr scalars_eq_nil.symm)⟩
    unfold parseHHMM Server.parseHHMM
    rw [HHMM_scalars]
  · cases text

theorem decodeInt_day {d : Json} (day : isDay d = true) : ∃ n, ∃ i : Int, d = .number n ∧ n = ((i : ℚ) : JsNumber) ∧
    decodeInt d = some i := by
  unfold isDay at day
  split at day
  case h_2 => cases day
  case h_1 n =>
    obtain ⟨i, integer, small⟩ := (Option.any_eq_true _ _).mp day
    rw [decide_eq_true_eq, abs_lt] at small
    refine ⟨n, i, rfl, JsNumber.integer?_eq integer, ?_⟩
    have range : (-2 ^ 63 ≤ i && i < 2 ^ 63) = true := by
      rw [Bool.and_eq_true, decide_eq_true_eq, decide_eq_true_eq]
      omega
    unfold decodeInt
    dsimp only
    rw [integer, Option.filter_some, if_pos range]

theorem decodeDays_items {items : List Json} (days : items.all isDay = true) : ∃ decoded, items.mapM decodeInt = some decoded ∧
    (items.isEmpty = decide (decoded = [])) ∧ ∀ weekday : Nat, decoded.contains (weekday : Int) = items.any fun d =>
      match d with
      | .number n => n = ((weekday : Int) : ℚ)
      | _ => false := by
  induction items with
  | nil => exact ⟨[], rfl, rfl, fun _ => rfl⟩
  | cons item items ih =>
    rw [List.all_cons, Bool.and_eq_true] at days
    obtain ⟨decoded, all, -, same⟩ := ih days.2
    obtain ⟨n, i, rfl, number, here⟩ := decodeInt_day days.1
    refine ⟨i :: decoded, by rw [List.mapM_cons, here, all]; rfl, rfl, fun weekday => ?_⟩
    rw [List.contains_cons, List.any_cons, same weekday, number, Bool.beq_eq_decide_eq]
    have equal : (((i : ℚ) : JsNumber) = (((weekday : Int) : ℚ) : JsNumber)) ↔ ((weekday : Int) = i) := by
      rw [WithBotTop.coe_injective.eq_iff, Rat.intCast_inj, eq_comm]
    simp only [equal]

/-- Days that the agent can decode are the same days. -/
theorem decodeDays_spec {v : Option Json} (days : isDays v = true) : ∃ decoded, decodeDays v = some decoded ∧
    truthyLength v = decide (decoded ≠ []) ∧
    ∀ weekday, Server.includes weekday v = (decide (decoded = []) || decoded.contains (weekday : Int)) := by
  unfold isDays at days
  split at days
  · exact ⟨[], rfl, rfl, fun _ => rfl⟩
  · exact ⟨[], rfl, rfl, fun _ => rfl⟩
  · rename_i items
    obtain ⟨decoded, all, empty, same⟩ := decodeDays_items days
    refine ⟨decoded, all, ?_, fun weekday => ?_⟩
    · have both : items = [] ↔ decoded = [] := by rw [← List.isEmpty_iff, empty, decide_eq_true_eq]
      exact decide_eq_decide.mpr (not_congr both)
    · unfold Server.includes
      dsimp only
      rw [same, empty]
  · cases days

/-- The members sent under a key are those of the window. -/
theorem lookup_sent (field : WindowKey → Option Json) (k : WindowKey) (keys : List WindowKey) :
    (keys.filterMap fun k => (field k).map fun v => (k, v)).lookup k = if k ∈ keys then field k else none := by
  induction keys with
  | nil => rfl
  | cons j keys ih =>
    by_cases same : k = j
    · subst same
      cases here : field k with
      | none => simp [here, ih]
      | some v => simp [here]
    · cases here : field j with
      | none => simp [here, ih, same]
      | some v => simp [here, ih, same, List.lookup_cons, beq_eq_false_iff_ne.mpr same]

/-- What the agent is sent, it decodes: days and times as the server reads them, the same zone. -/
theorem decode_windowForAgent {w : Json} {sent : List (WindowKey × Json)} (window : windowForAgent w = some sent) :
    (∃ members, w = .object members) ∧ ∃ decoded, decodeWindow sent = some decoded ∧
      (truthyLength (w.get WindowKey.weekdays.name) = decide (decoded.weekdays ≠ []) ∧
        ∀ weekday, Server.includes weekday (w.get WindowKey.weekdays.name) =
          (decide (decoded.weekdays = []) || decoded.weekdays.contains (weekday : Int))) ∧
      (parseHHMM decoded.start = Server.parseHHMM (w.get WindowKey.start.name) ∧
        truthy (w.get WindowKey.start.name) = decide (decoded.start ≠ [])) ∧
      (parseHHMM decoded.end_ = Server.parseHHMM (w.get WindowKey.end_.name) ∧
        truthy (w.get WindowKey.end_.name) = decide (decoded.end_ ≠ [])) ∧
      isText (w.get WindowKey.tz.name) = true ∧ decodeText (w.get WindowKey.tz.name) = some decoded.tz := by
  unfold windowForAgent at window
  split at window
  case h_2 => cases window
  case h_1 members =>
    dsimp only at window
    split at window
    case isFalse => cases window
    case isTrue types =>
      cases window
      simp only [Bool.and_eq_true] at types
      obtain ⟨⟨⟨start, end_⟩, tz⟩, days⟩ := types
      obtain ⟨t₁, start₁, same₁⟩ := decodeText_spec start
      obtain ⟨t₂, end₂, same₂⟩ := decodeText_spec end_
      obtain ⟨t₃, tz₃, -⟩ := decodeText_spec tz
      obtain ⟨decoded, days₄, same₄⟩ := decodeDays_spec days
      refine ⟨⟨members, rfl⟩, ⟨decoded, t₁, t₂, t₃⟩, ?_, same₄, same₁, same₂, tz, tz₃⟩
      have found : ∀ k, (WINDOW_KEYS.filterMap fun k => ((Json.object members).get k.name).map fun v => (k, v)).lookup k =
          (Json.object members).get k.name := by
        intro k
        rw [lookup_sent (fun k => (Json.object members).get k.name), if_pos (by cases k <;> decide)]
      unfold decodeWindow
      rw [found, found, found, found, days₄, start₁, end₂, tz₃]
      rfl

variable {now : Instant} {w : Json}

/-- The zone that the server takes is the one that the agent loads. -/
theorem format_tz {v : Option Json} {tz : List Char} (text : isText v = true) (decoded : decodeText v = some tz) :
    now.format ((v.filter fun tz => truthy (some tz)).getD (.string (ascii "UTC"))) =
      if tz = [] then some now.utc else now.location tz := by
  unfold isText at text
  split at text
  · cases decoded
    exact now.format_utc
  · cases decoded
    exact now.format_utc
  · rename_i s
    cases decoded
    by_cases empty : s = []
    · subst empty
      exact now.format_utc
    · have filled : truthy (some (.string s)) = true := decide_eq_true empty
      rw [Option.filter_some, if_pos filled, Option.getD_some, if_neg (scalars_eq_nil.not.mpr empty)]
      exact now.format_string s empty
  · cases text

/-- The agent's verdict on the window that it is sent is the server's. -/
theorem isActive_windowForAgent {sent : List (WindowKey × Json)} (window : windowForAgent w = some sent) :
    ∃ decoded, decodeWindow sent = some decoded ∧
      isActive now (some decoded) = Server.isMaintenanceWindowActive now w := by
  obtain ⟨⟨members, rfl⟩, decoded, read, ⟨days, includes⟩, ⟨start, startFilled⟩, ⟨end_, endFilled⟩, text, tz⟩ :=
    decode_windowForAgent window
  refine ⟨decoded, read, ?_⟩
  unfold isActive Server.isMaintenanceWindowActive
  dsimp only
  rw [days, startFilled, endFilled, format_tz text tz, start, end_]
  simp only [ne_eq, decide_not, Bool.not_or, Bool.not_not, includes]

/-- A window that is sent is open on the server exactly when it is open on the agent, and the agent
never finds closed what the server finds open. -/
theorem windows_agree (now : Instant) (w : Json) :
    (∀ sent, windowForAgent w = some sent → ∃ decoded, decodeWindow sent = some decoded ∧
      isActive now (some decoded) = Server.isMaintenanceWindowActive now w) ∧
    (Server.isMaintenanceWindowActive now w = true →
      ∃ window, received (windowForAgent w) = some window ∧ isActive now window = true) := by
  refine ⟨fun sent window => isActive_windowForAgent window, fun active => ?_⟩
  cases window : windowForAgent w with
  | none => exact ⟨none, rfl, rfl⟩
  | some sent =>
    obtain ⟨decoded, read, same⟩ := isActive_windowForAgent window
    exact ⟨some decoded, congrArg (·.map some) read, same.trans active⟩

/-- A Monday, 23:15, where only UTC is a zone. -/
def mondayNight : Instant where
  format
    | .string s => if scalars s = "UTC".toList then some ⟨1, 23, 15⟩ else none
    | _ => none
  location name := if name = "UTC".toList then some ⟨1, 23, 15⟩ else none
  utc := ⟨1, 23, 15⟩
  format_utc := rfl
  format_string _ _ := rfl

/-- Monday nights, from 22:00 to 6:00. -/
def mondayNights : Json := .object [(ascii "weekdays", .array [.number (1 : ℚ)]), (ascii "start", .string (ascii "22:00")),
  (ascii "end", .string (ascii "6:00"))]

theorem windows_agree_monday : ∃ window, received (windowForAgent mondayNights) = some window ∧
    isActive mondayNight window = true := (windows_agree mondayNight mondayNights).2 rfl

end Opale.AgentGo
