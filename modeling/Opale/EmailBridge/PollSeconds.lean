import Opale.EmailBridge.PollSearch
import Opale.EmailBridge.PollValve

namespace Opale.EmailBridge.PollCursor

/-- The ticks of a mailbox, each with the settings it has read: it saves them, its save is lost, or an
admin writes them. -/
inductive Ticks : List (Environment × Saved) → Saved → Prop
  | start (s) : Ticks [] s
  | saved {ticks s} (env) : Ticks ticks s → Ticks (ticks ++ [(env, s)]) (pollMailboxCursor env s).saved
  | unsaved {ticks s} (env) : Ticks ticks s → Ticks (ticks ++ [(env, s)]) s
  | edited {ticks s} (s₁) : Ticks ticks s → Ticks ticks s₁

/-- In a run whose ticks never jump back, the valve fires on full seconds only. -/
theorem valve_saturated {ticks : List (Environment × Saved)} {s : Saved} (run : Ticks ticks s)
    (stays : ∀ t ∈ ticks, ¬JumpsBack t.2 (pollMailboxCursor t.1 t.2).answers) :
    ∀ t ∈ ticks, SkipsFull t.1 t.2 := by
  induction run with
  | start s => exact List.forall_mem_nil _
  | saved env _ ih | unsaved env _ ih =>
    obtain ⟨earlier, last⟩ := List.forall_mem_append.mp stays
    exact List.forall_mem_append.mpr ⟨ih earlier, List.forall_mem_singleton.mpr
      (skipsFull_of_stays (last _ List.mem_cons_self))⟩
  | edited s₁ _ ih => exact ih stays

section

def mailAt (date : Int) (id : MailId) : Message := ⟨id, none, date, true⟩

theorem sorted_mailAt (date : Int) (ids : List MailId) :
    (ids.map (mailAt date)).Pairwise fun m m₁ => m.date ≤ m₁.date :=
  List.pairwise_map.mpr (List.pairwise_of_forall fun _ _ => Int.le_refl date)

def early : Int := 1700000000000

def late : Int := 1700000060000

def treatedMails : List Message := (List.range' 0 2000).map (mailAt late)

theorem treated_of_mem {m : Message} (member : m ∈ treatedMails) : m.date = late ∧ m.id ∈ List.range' 0 2000 := by
  obtain ⟨id, listed, rfl⟩ := List.mem_map.mp member
  exact ⟨rfl, listed⟩

/-- A second of 2001 mails. -/
def crowd : Mailbox where
  mails := treatedMails ++ [mailAt late 2000]
  sorted := by
    have whole := sorted_mailAt late (List.range' 0 2000 ++ [2000])
    rwa [List.map_append] at whole
  unique := by
    have own (ids : List MailId) : (ids.map (mailAt late)).map (·.id) = ids := by
      simp [List.map_map, Function.comp_def, mailAt]
    have ids : (treatedMails ++ [mailAt late 2000]).map (·.id) = List.range' 0 2001 := by
      rw [treatedMails, List.map_append, own]
      change List.range' 0 2000 ++ List.range' 2000 1 = _
      rw [List.range'_append_1]
    rw [ids]
    exact List.nodup_range'

def crowdTick : Environment := ⟨fun _ => some crowd, fun _ _ _ => .settled false, fun _ => late + 3600000⟩

/-- All of them are treated but the last one. -/
def crowdSaved : Saved := ⟨late, some ⟨⟨late, (List.range' 0 2000).toFinset⟩, none, none⟩⟩

theorem since_crowd : crowd.since late = treatedMails ++ [mailAt late 2000] := by
  refine List.filter_eq_self.mpr fun m member => decide_eq_true ?_
  rcases List.mem_append.mp member with member | member
  · rw [(treated_of_mem member).1]
  · rw [List.mem_singleton.mp member]
    decide

/-- Forty pages of treated mails fill the tick. -/
theorem crowd_fills : ∃ w, (pageLoop crowdTick).run (.start crowdSaved) = w ∧ (Walk.start crowdSaved).Skipped w 40 ∧
    w.graphNext.isSome = true := by
  have reads : crowdTick.Reads crowd := fun _ => rfl
  have all : ∀ m ∈ treatedMails, (Walk.start crowdSaved).position.Skips m := by
    intro m member
    exact ⟨(treated_of_mem member).1.le, List.mem_toFinset.mpr (treated_of_mem member).2⟩
  have size : treatedMails.length = 2000 := by rw [treatedMails, List.length_map, List.length_range']
  obtain ⟨w₁, skipped, same⟩ := skip_run (j := 39) reads rfl since_crowd all (List.cons_ne_nil _ _) rfl rfl (by decide)
    (by decide) (by rw [size]; decide) (by decide)
  obtain ⟨w₂, turn, skipped₂, next⟩ := readPage_skipped reads skipped since_crowd all (by rw [size]; decide)
    (by rw [size]; decide) rfl rfl
  refine ⟨w₂, same.trans ((DoWhile.run_of_yield turn).trans (if_neg ?_)), skipped₂, next⟩
  change ¬w₂.again = true
  simp [Walk.again, skipped₂.skipPages, Walk.start, MAX_SKIP_PAGES]

/-- The valve fires, and the second was full. -/
theorem valve_saturated_crowd : (∃ a ∈ (pollMailboxCursor crowdTick crowdSaved).audits, a.skipsSecond = true) ∧
    SkipsFull crowdTick crowdSaved := by
  constructor
  · obtain ⟨w, loop, skipped, more⟩ := crowd_fills
    have result : pollMailboxCursor crowdTick crowdSaved = valve crowdTick late (clearRetry w) := by
      unfold pollMailboxCursor
      rw [loop, closeSearch_of_none (by rw [skipped.same]; rfl)]
      rfl
    have full : MAX_SKIP_PAGES ≤ w.skipPages := skipped.skipPages.ge
    rw [valve, clearRetry_eq, if_pos ⟨by rw [skipped.same]; rfl, by rw [skipped.same]; rfl, more, full⟩] at result
    rw [result]
    exact ⟨_, List.mem_append_right _ List.mem_cons_self, rfl⟩
  · have run : Ticks [(crowdTick, crowdSaved)] crowdSaved := .unsaved crowdTick (.start crowdSaved)
    refine valve_saturated run ?_ (crowdTick, crowdSaved) List.mem_cons_self
    intro t member back
    rw [List.mem_singleton.mp member] at back
    cases back.1

def earlyMails : List Message := (List.range 49).map (mailAt early) ++ [mailAt early 49]

def lateMails : List Message := (List.range' 50 1950).map (mailAt late)

theorem early_of_mem {m : Message} (member : m ∈ earlyMails) : m.date = early ∧ m.id < 50 := by
  rcases List.mem_append.mp member with member | member
  · obtain ⟨id, small, rfl⟩ := List.mem_map.mp member
    exact ⟨rfl, Nat.lt_succ_of_lt (List.mem_range.mp small)⟩
  · rw [List.mem_singleton.mp member]
    exact ⟨rfl, Nat.lt_succ_self 49⟩

theorem late_of_mem {m : Message} (member : m ∈ lateMails) : m.date = late ∧ m.id ∈ List.range' 50 1950 := by
  obtain ⟨id, listed, rfl⟩ := List.mem_map.mp member
  exact ⟨rfl, listed⟩

/-- The mail 49 fails, and 2000 is the first after it that writes. -/
def burst : Mailbox where
  mails := earlyMails ++ (lateMails ++ [mailAt late 2000])
  sorted := by
    have first : earlyMails.Pairwise fun m m₁ => m.date ≤ m₁.date := by
      have whole := sorted_mailAt early (List.range 49 ++ [49])
      rwa [List.map_append] at whole
    have second : (lateMails ++ [mailAt late 2000]).Pairwise fun m m₁ => m.date ≤ m₁.date := by
      have whole := sorted_mailAt late (List.range' 50 1950 ++ [2000])
      rwa [List.map_append] at whole
    refine List.pairwise_append.mpr ⟨first, second, fun m member m₁ member₁ => ?_⟩
    have date₁ : m₁.date = late := by
      rcases List.mem_append.mp member₁ with member₁ | member₁
      · exact (late_of_mem member₁).1
      · rw [List.mem_singleton.mp member₁]
        rfl
    rw [(early_of_mem member).1, date₁]
    decide
  unique := by
    have own (date : Int) (ids : List MailId) : (ids.map (mailAt date)).map (·.id) = ids := by
      simp [List.map_map, Function.comp_def, mailAt]
    have ids : (earlyMails ++ (lateMails ++ [mailAt late 2000])).map (·.id) = List.range' 0 2001 := by
      rw [earlyMails, lateMails, List.map_append, List.map_append, List.map_append, own, own, List.range_eq_range']
      change List.range' 0 49 ++ List.range' 49 1 ++ (List.range' 50 1950 ++ List.range' 2000 1) = _
      rw [List.range'_append_1, List.range'_append_1, List.range'_append_1]
    rw [ids]
    exact List.nodup_range'

def burstTick : Environment where
  mailbox _ := some burst
  handle _ m _ := if m.id = 49 then .retry none none else .settled (m.id = 2000)
  now _ := late + 3600000

def burstRetry : Retry := ⟨49, none, 6, [], early, none, ⟨false, false⟩⟩

def burstScan : Scan := ⟨49, ⟨late, (List.range' 50 1950).toFinset⟩, late⟩

def burstSaved : Saved := ⟨early, some ⟨⟨early, Finset.range 49⟩, some burstRetry, some burstScan⟩⟩

theorem since_early : burst.since early = earlyMails ++ (lateMails ++ [mailAt late 2000]) := by
  refine List.filter_eq_self.mpr fun m member => decide_eq_true ?_
  rcases List.mem_append.mp member with member | member
  · rw [(early_of_mem member).1]
  · rcases List.mem_append.mp member with member | member
    · rw [(late_of_mem member).1]
      decide
    · rw [List.mem_singleton.mp member]
      decide

theorem since_late : burst.since late = lateMails ++ [mailAt late 2000] := by
  have none_ : earlyMails.filter (fun m => decide (late ≤ m.date)) = [] := by
    refine List.filter_eq_nil_iff.mpr fun m member => ?_
    rw [(early_of_mem member).1]
    decide
  have all : (lateMails ++ [mailAt late 2000]).filter (fun m => decide (late ≤ m.date)) = lateMails ++ [mailAt late 2000] := by
    refine List.filter_eq_self.mpr fun m member => decide_eq_true ?_
    rcases List.mem_append.mp member with member | member
    · rw [(late_of_mem member).1]
    · rw [List.mem_singleton.mp member]
      decide
  unfold Mailbox.since burst
  rw [List.filter_append, none_, all, List.nil_append]

theorem scanned_early : (burst.page early 0).scanned = earlyMails := by
  simp only [Mailbox.page, since_early, List.drop_zero]
  exact List.take_left' (by rw [earlyMails, List.length_append, List.length_map, List.length_range]; rfl)

theorem nextLink_early : (burst.page early 0).nextLink = some (.page early 50) := by
  simp only [Mailbox.page, since_early, List.drop_zero]
  refine if_pos ?_
  simp only [earlyMails, lateMails, List.length_append, List.length_map, List.length_range, List.length_range']
  decide

/-- The mail 49 fails: the tick jumps to the later second. -/
theorem burst_jumps : ∃ w, (pageLoop burstTick).run (.start burstSaved) = (pageLoop burstTick).run w ∧
    (Walk.start burstSaved).Resumed w (mailAt early 49) burstRetry burstScan (burst.page early 0) := by
  have resumes : Resumes burstTick (.start burstSaved) (mailAt early 49) burstRetry burstScan :=
    ⟨rfl, fun _ _ => ⟨none, none, rfl⟩, rfl, rfl, rfl, by decide, by decide, rfl, rfl⟩
  have new : ¬(Walk.start burstSaved).position.Skips (mailAt early 49) := fun skips => absurd skips.2 Finset.notMem_range_self
  have skips : ∀ m ∈ (List.range 49).map (mailAt early), (Walk.start burstSaved).position.Skips m := by
    intro m member
    obtain ⟨id, small, rfl⟩ := List.mem_map.mp member
    exact ⟨Int.le_refl early, Finset.mem_range.mpr (List.mem_range.mp small)⟩
  obtain ⟨w, turn, resumed⟩ := readPage_resumes resumes new rfl rfl scanned_early skips
  refine ⟨w, DoWhile.run_of_again turn ?_, resumed⟩
  change w.again = true
  simp [Walk.again, resumed.graphNext, resumed.pages, resumed.skipPages, resumed.processed, Walk.start, MAX_PAGES,
    MAX_SKIP_PAGES, PAGE_SIZE]

/-- After the pages of the later second a mail writes: the tick jumps back, and the first page of treated
mails in the earlier second is the fortieth in all. -/
theorem burst_back : ∃ w, (pageLoop burstTick).run (.start burstSaved) = w ∧ w.suspect = none ∧ w.blocked = false ∧
    w.progressed = false ∧ w.graphNext.isSome = true ∧ w.skipPages = MAX_SKIP_PAGES ∧ w.position.atDate = early ∧
    ∃ more r r₁ r₂, w.reads = [r] ++ more ++ [r₁] ++ [r₂] ∧ ∀ r ∈ more, r.mails ≠ [] ∧ ∀ m ∈ r.mails, late ≤ m.date := by
  obtain ⟨w, start, resumed⟩ := burst_jumps
  have reads : burstTick.Reads burst := fun _ => rfl
  have writes : ∀ n memo, (burstTick.handle n (mailAt late 2000) memo).Writes := fun _ _ => rfl
  obtain ⟨suspect, found, again⟩ := resumed.suspect
  have rest : ∀ m ∈ lateMails, w.position.Skips m := by
    intro m member
    rw [resumed.position]
    exact ⟨(late_of_mem member).1.le, List.mem_toFinset.mpr (late_of_mem member).2⟩
  have listed : burst.since w.listFrom = lateMails ++ [mailAt late 2000] := by
    rw [resumed.listFrom]
    exact since_late
  have size : lateMails.length = 1950 := by rw [lateMails, List.length_map, List.length_range']
  obtain ⟨w₁, skipped, same⟩ := skip_run (j := 39) reads resumed.nextLink listed rest
    (List.cons_ne_nil _ _) resumed.blocked resumed.jumpTo (by rw [resumed.pages]; decide)
    (by rw [resumed.processed]; decide) (by rw [size]; decide) (by rw [resumed.skipPages]; decide)
  have new : ¬w₁.position.Skips (mailAt late 2000) := by
    rw [skipped.position, resumed.position]
    intro skips
    have listed₁ := List.mem_toFinset.mp skips.2
    rw [List.mem_range'_1] at listed₁
    exact absurd listed₁.2 (by decide)
  have found₁ : w₁.suspect = some suspect := by rw [skipped.same]; exact found
  obtain ⟨w₂, turn, returned⟩ := readPage_back found₁ again.jumped rfl new writes (skipped.blocked.trans resumed.blocked)
    (list_of_skipped reads skipped) (scanned_new listed (by rw [size]; decide) (by rw [size]; decide))
    (fun m member => skipped.position ▸ rest m (List.mem_of_mem_drop member))
  have back : suspect.back = ⟨early, insert 49 (Finset.range 49)⟩ := by
    unfold Suspect.back
    rw [again.message, again.rollback]
    rfl
  have goes : w₂.again = true := by
    simp [Walk.again, returned.graphNext, returned.pages, returned.skipPages, returned.processed, skipped.pages,
      skipped.skipPages, skipped.processed, resumed.pages, resumed.skipPages, resumed.processed, Walk.start, MAX_PAGES,
      MAX_SKIP_PAGES, PAGE_SIZE]
  have listed₂ : burstTick.list w₂.listings w₂.listFrom w₂.nextLink = some (burst.page early 0) := by
    rw [returned.nextLink, returned.listFrom, back]
    rfl
  have treated : ∀ m ∈ (burst.page early 0).scanned, w₂.position.Skips m := by
    intro m member
    rw [scanned_early] at member
    rw [returned.position, back]
    obtain ⟨date, id⟩ := early_of_mem member
    refine ⟨date.le, ?_⟩
    rcases Nat.lt_succ_iff_lt_or_eq.mp id with small | same₁
    · exact Finset.mem_insert_of_mem (Finset.mem_range.mpr small)
    · rw [same₁]
      exact Finset.mem_insert_self _ _
  obtain ⟨w₃, same₃, last⟩ : ∃ w₃, w₃ = { w₂.opened (burst.page early 0) with
      skipPages := w₂.skipPages + 1
      graphNext := (burst.page early 0).nextLink
      nextLink := (burst.page early 0).nextLink } ∧ (pageLoop burstTick).body w₂ = .yield w₃ :=
    ⟨_, rfl, readPage_of_skips listed₂ treated returned.blocked returned.jumpTo⟩
  have full : w₃.skipPages = MAX_SKIP_PAGES := by
    rw [same₃]
    change w₂.skipPages + 1 = 40
    rw [returned.skipPages, skipped.skipPages, resumed.skipPages]
    rfl
  have stops : ¬(pageLoop burstTick).again w₃ = true := by
    change ¬w₃.again = true
    simp [Walk.again, full]
  have ends : (pageLoop burstTick).run w₂ = w₃ := (DoWhile.run_of_yield last).trans (if_neg stops)
  refine ⟨w₃, (start.trans same).trans ((DoWhile.run_of_again turn goes).trans ends), ?_, ?_, ?_, ?_, full, ?_, ?_⟩
  · rw [same₃]
    exact returned.suspect
  · rw [same₃]
    exact returned.blocked
  · rw [same₃]
    change w₂.progressed = false
    rw [returned.progressed, skipped.same]
    exact resumed.progressed
  · have link : w₃.graphNext = (burst.page early 0).nextLink := by rw [same₃]
    rw [link, nextLink_early]
    rfl
  · rw [same₃]
    change w₂.position.atDate = early
    rw [returned.position, back]
  · obtain ⟨more, reads₁, late_⟩ := skipped.reads
    rw [resumed.listFrom] at late_
    have first : (Walk.start burstSaved).reads = [] := rfl
    have whole : w₃.reads = w₂.reads ++ [⟨(burst.page early 0).scanned, w₂.position.done⟩] := by
      rw [same₃]
      rfl
    rw [returned.reads, reads₁, resumed.reads, first, List.nil_append] at whole
    exact ⟨more, _, _, _, whole, late_⟩

/-- One page of treated mails of the earlier second has been read before its rest is given up. -/
theorem not_skipsFull_burst : ¬SkipsFull burstTick burstSaved := by
  obtain ⟨w, loop, free, blocked, progressed, more, full, date, others, r, r₁, r₂, reads, late_⟩ := burst_back
  have result : pollMailboxCursor burstTick burstSaved = valve burstTick early (clearRetry w) := by
    unfold pollMailboxCursor
    rw [loop, closeSearch_of_none free]
    rfl
  rw [valve, clearRetry_eq, if_pos ⟨progressed, blocked, more, full.ge⟩] at result
  intro skipsFull
  have saturated := skipsFull _ _ _ _ _ (by
    rw [result]
    exact List.mem_append_right _ List.mem_cons_self)
  have filled := saturated.full
  rw [result] at filled
  change MAX_SKIP_PAGES ≤ w.reads.countP _ at filled
  have second : secondOf (w.position.atDate / 1000 * 1000 + 1000) - 1 = secondOf early := by
    rw [date]
    decide
  have none_ : others.countP (fun r => decide (r.Full (secondOf (w.position.atDate / 1000 * 1000 + 1000) - 1))) = 0 := by
    refine List.countP_eq_zero.mpr fun r member is_ => ?_
    rw [second] at is_
    obtain ⟨some_, all⟩ := late_ r member
    obtain ⟨m, mail⟩ := List.exists_mem_of_ne_nil _ some_
    have same := ((of_decide_eq_true is_).2 m mail).1
    have later : late ≤ m.date := all m mail
    simp only [secondOf, early, late] at same later
    omega
  rw [reads, List.countP_append, List.countP_append, List.countP_append, none_] at filled
  have le (p : Read → Bool) (r : Read) : [r].countP p ≤ 1 := List.countP_le_length
  have three (p : Read → Bool) : [r].countP p + 0 + [r₁].countP p + [r₂].countP p ≤ 3 :=
    Nat.add_le_add (Nat.add_le_add (le p r) (le p r₁)) (le p r₂)
  exact absurd (filled.trans (three _)) (by decide)

/-- The tick that jumps back counts the pages of both seconds together. -/
theorem not_valve_saturated :
    ¬∀ ticks s, Ticks ticks s → ∀ t ∈ ticks, SkipsFull t.1 t.2 := by
  intro all
  exact not_skipsFull_burst (all [(burstTick, burstSaved)] burstSaved (.unsaved burstTick (.start burstSaved)) _ List.mem_cons_self)

end

end Opale.EmailBridge.PollCursor
