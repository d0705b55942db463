import Opale.EmailBridge.PollSkips
import Opale.EmailBridge.PollValve

namespace Opale.EmailBridge.PollCursor

/-- The position that a tick finds in the settings. -/
def Saved.position (s : Saved) : Position := ⟨s.cursor, (parseState s.state s.cursor).1⟩

theorem position_saved (w : Walk) : w.saved.position = w.position := by
  simp [Saved.position, Walk.saved, parseState]

/-- The listings of the loop, and the pages it counts, stay within the budget. -/
structure Walk.Within (w : Walk) : Prop where
  listings : w.listings < MAX_PAGES + MAX_SKIP_PAGES
  pages : w.pages ≤ MAX_PAGES
  skipPages : w.skipPages ≤ MAX_SKIP_PAGES

section

variable {env : Environment} {s : Saved} {w : Walk} {m : Message} {p : Position}

theorem counted_counts (w : Walk) :
    w.pages ≤ w.counted.pages ∧ w.skipPages ≤ w.counted.skipPages ∧
      w.counted.pages + w.counted.skipPages = w.pages + w.skipPages + 1 := by
  unfold Walk.counted
  split
  · exact ⟨Nat.le_refl _, Nat.le_succ _, rfl⟩
  · exact ⟨Nat.le_succ _, Nat.le_refl _, by dsimp only; omega⟩

/-- A turn lists one page and counts at most one. -/
theorem counts_turn (env : Environment) (w : Walk) :
    (readPage env w).value.listings = w.listings + 1 ∧ w.pages ≤ (readPage env w).value.pages ∧
      w.skipPages ≤ (readPage env w).value.skipPages ∧
      (readPage env w).value.pages + (readPage env w).value.skipPages ≤ w.pages + w.skipPages + 1 := by
  cases listed : env.list w.listings w.listFrom w.nextLink with
  | none =>
    rw [readPage_of_none listed]
    exact ⟨rfl, Nat.le_refl _, Nat.le_refl _, Nat.le_succ _⟩
  | some page =>
    have frame := frame_readMails env page.scanned (w.opened page)
    rw [readPage_eq listed]
    generalize forOf (readMail env) page.scanned (w.opened page) = w₁ at *
    have listings : w₁.listings = w.listings + 1 := frame.listings
    have pages : w₁.pages = w.pages := frame.pages
    have skipPages : w₁.skipPages = w.skipPages := frame.skipPages
    obtain ⟨more, moreSkips, count⟩ := counted_counts w₁
    obtain ⟨_, _, _, _, _, same⟩ := turnPage_eq page w.position.atDate w₁
    rw [same]
    dsimp only
    omega

/-- The loop ends within its budget. -/
theorem within_run (env : Environment) (s : Saved) : ((pageLoop env).run (.start s)).Within := by
  let inside (w : Walk) := w.listings = w.pages + w.skipPages ∧ w.pages < MAX_PAGES ∧ w.skipPages < MAX_SKIP_PAGES
  have turn (w w₁ : Walk) (holds : inside w) (value : (readPage env w).value = w₁) : w₁.Within := by
    obtain ⟨listings, pages, skipPages, count⟩ := counts_turn env w
    obtain ⟨same, more, moreSkips⟩ := holds
    rw [value] at listings pages skipPages count
    exact ⟨by omega, by omega, by omega⟩
  refine DoWhile.run_rule (I := inside) (J := Walk.Within) ?_ ?_ ?_ _ ⟨rfl, Nat.zero_lt_succ _, Nat.zero_lt_succ _⟩
  · intro w w₁ holds yields goes
    have body : readPage env w = .yield w₁ := yields
    have again : w₁.again = true := goes
    obtain ⟨listings, _, _, _⟩ := counts_turn env w
    have count := counts_readPage body
    rw [body] at listings
    change w₁.listings = w.listings + 1 at listings
    simp only [Walk.again, Bool.and_eq_true, decide_eq_true_eq] at again
    exact ⟨by rw [listings, count, holds.1], again.1.1.2, again.1.2⟩
  · intro w w₁ holds yields _
    have body : readPage env w = .yield w₁ := yields
    exact turn w w₁ holds (by rw [body]; rfl)
  · intro w w₁ holds stops
    have body : readPage env w = .done w₁ := stops
    exact turn w w₁ holds (by rw [body]; rfl)

/-- A mail fails, or the position has moved beyond `p` and nothing holds it back. -/
def Progressed (p : Position) (w : Walk) : Prop :=
  (∃ a ∈ w.answers, a.Fails) ∨
    p.Before w.position ∧ w.progressed = true ∧ w.suspect = none ∧ w.jumpTo = none ∧ w.blocked = false

theorem progressed_of_new (here : w.position = p ∨ p.Before w.position) (free : w.suspect = none)
    (stays : w.jumpTo = none) (open_ : w.blocked = false) (new : ¬w.position.Skips m) :
    Progressed p (readMail env m w).value := by
  have read := mailRead env m w
  generalize readMail env m w = step at read
  cases read with
  | skipped skips => exact absurd skips new
  | passed answers processed _ _ =>
    have moves : w.position.Before (advance m (w.noting answers processed)).position := before_advance new
    refine .inr ⟨?_, rfl, free, stays, open_⟩
    obtain rfl | before := here
    · exact moves
    · exact before.trans moves
  | waits error memo w₁ _ _ answers _ _ _ _ _ =>
    refine .inl ⟨.retry error memo, ?_, error, memo, rfl⟩
    change _ ∈ w₁.answers
    rw [answers]
    exact List.mem_append_right _ List.mem_cons_self
  | suspected error memo _ _ _ _ _ _ _ =>
    exact .inl ⟨.retry error memo, List.mem_append_right _ List.mem_cons_self, error, memo, rfl⟩
  | jumps error memo _ _ _ _ _ _ _ _ _ =>
    exact .inl ⟨.retry error memo, List.mem_append_right _ List.mem_cons_self, error, memo, rfl⟩
  | systemic _ _ _ _ found => cases free.symm.trans found
  | verdict _ _ found => cases free.symm.trans found

theorem progressed_readMail (progressed : Progressed p w) : Progressed p (readMail env m w).value := by
  by_cases skips : w.position.Skips m
  · rw [readMail_of_skips skips]
    exact progressed
  · obtain ⟨a, member, fails⟩ | ⟨before, _, free, stays, open_⟩ := progressed
    · obtain ⟨more, answers⟩ := answers_readMail env m w
      exact .inl ⟨a, answers ▸ List.mem_append_left more member, fails⟩
    · exact progressed_of_new (.inr before) free stays open_ skips

theorem progressed_turnPage {page : Page} {atBefore : Int} (progressed : Progressed p w) :
    Progressed p (turnPage page atBefore w).value := by
  obtain fails | ⟨before, moved, free, stays, open_⟩ := progressed
  · obtain ⟨_, _, _, _, _, same⟩ := turnPage_eq page atBefore w
    rw [same]
    exact .inl fails
  · rw [turnPage_of_stays page atBefore open_ stays, counted_eq]
    exact .inr ⟨before, moved, free, stays, open_⟩

theorem progressed_readPage (progressed : Progressed p w) : Progressed p (readPage env w).value := by
  cases listed : env.list w.listings w.listFrom w.nextLink with
  | none =>
    rw [readPage_of_none listed]
    exact progressed
  | some page =>
    rw [readPage_eq listed]
    have opened : Progressed p (w.opened page) := progressed
    exact progressed_turnPage (forOf_keeps (fun _ _ _ => progressed_readMail) _ opened)

/-- From the first mail that is not done, when it comes within the pages of a tick. -/
theorem progressed_run {mailbox : Mailbox} {before after : List Message} (reads : env.Reads mailbox)
    (listed : mailbox.since s.cursor = before ++ m :: after) (skips : ∀ m ∈ before, s.position.Skips m)
    (new : ¬s.position.Skips m) (few : before.length / PAGE_SIZE < MAX_SKIP_PAGES) :
    Progressed s.position ((pageLoop env).run (.start s)) := by
  have first : PAGE_SIZE * (before.length / PAGE_SIZE) ≤ before.length := Nat.mul_div_le _ _
  have last : before.length < PAGE_SIZE * (before.length / PAGE_SIZE) + PAGE_SIZE := Nat.lt_mul_div_succ _ (by decide)
  obtain ⟨w₁, skipped, same⟩ := skip_run (w := .start s) reads rfl listed skips (List.cons_ne_nil _ _) rfl rfl
    (Nat.zero_lt_succ _) (Nat.zero_lt_succ _) first ((Nat.zero_add _).symm ▸ few)
  rw [same]
  refine DoWhile.run_first w₁ ?_ fun _ => progressed_readPage
  change Progressed s.position (readPage env w₁).value
  have here : w₁.position = s.position := skipped.position
  rw [readPage_new (list_of_skipped reads skipped) (scanned_new listed first last)
    fun m member => here ▸ skips m (List.mem_of_mem_drop member)]
  refine progressed_turnPage (forOf_first ?_ fun _ _ _ => progressed_readMail)
  have free : w₁.suspect = none := by rw [skipped.same]; rfl
  exact progressed_of_new (w := w₁.opened _) (.inl here) free skipped.jumpTo skipped.blocked (here ▸ new)

/-- The pages of mails that are done fill the tick: the valve fires. -/
theorem fires_of_many {mailbox : Mailbox} {before rest : List Message} (reads : env.Reads mailbox)
    (listed : mailbox.since s.cursor = before ++ rest) (some_ : rest ≠ []) (skips : ∀ m ∈ before, s.position.Skips m)
    (many : MAX_SKIP_PAGES ≤ before.length / PAGE_SIZE) :
    ∃ cursor nextCursor handled lost exhaustive,
      .secondSkipped cursor nextCursor handled lost exhaustive ∈ (pollMailboxCursor env s).audits := by
  have long : PAGE_SIZE * MAX_SKIP_PAGES ≤ before.length := by
    rw [Nat.mul_comm]
    exact (Nat.le_div_iff_mul_le (by decide)).mp many
  simp only [PAGE_SIZE, MAX_SKIP_PAGES] at long
  have rest_ := List.length_pos_iff.mpr some_
  obtain ⟨w₁, skipped, same⟩ := skip_run (w := .start s) (j := 39) reads rfl listed skips some_ rfl rfl
    (Nat.zero_lt_succ _) (Nat.zero_lt_succ _) (by simp only [PAGE_SIZE]; omega) (by decide : 0 + 39 < 40)
  obtain ⟨w₂, turn, skipped₂, more⟩ := readPage_skipped reads skipped listed skips (by simp only [PAGE_SIZE]; omega)
    (by simp only [PAGE_SIZE]; omega) rfl rfl
  have full : w₂.skipPages = MAX_SKIP_PAGES := skipped₂.skipPages
  have stops : ¬(pageLoop env).again w₂ = true := by
    change ¬w₂.again = true
    simp [Walk.again, full]
  have ends : (pageLoop env).run (.start s) = w₂ := same.trans ((DoWhile.run_of_yield turn).trans (if_neg stops))
  have free : w₂.suspect = none := by rw [skipped₂.same]; rfl
  have still : w₂.progressed = false := by rw [skipped₂.same]; rfl
  have open_ : w₂.blocked = false := skipped₂.blocked
  have result : pollMailboxCursor env s = valve env s.cursor (clearRetry w₂) := by
    unfold pollMailboxCursor
    rw [ends, closeSearch_of_none free]
  rw [result, valve, clearRetry_eq, if_pos ⟨still, open_, more, full.ge⟩]
  exact ⟨_, _, _, _, _, List.mem_append_right _ List.mem_cons_self⟩

/-- A walk that has moved, with nothing to hold it back, is what the tick saves. -/
theorem position_of_progressed {p : Position} (progressed : Progressed p ((pageLoop env).run (.start s)))
    (calm : ∀ a ∈ (pollMailboxCursor env s).answers, ¬a.Fails) : p.Before (pollMailboxCursor env s).position := by
  rw [answers_pollMailboxCursor] at calm
  unfold pollMailboxCursor
  generalize (pageLoop env).run (.start s) = w at *
  obtain ⟨a, member, fails⟩ | ⟨before, moved, free, _, _⟩ := progressed
  · exact absurd fails (calm a member)
  · rw [closeSearch_of_none free, clearRetry_eq, valve, if_neg (fun fired => by rw [moved] at fired; cases fired.1)]
    exact before

end

/-- Every tick ends within its budget, and one that meets no failure moves the position saved forward
while a mail is left to treat, or skips a second that is full. -/
theorem cursor_progresses (env : Environment) (s : Saved) :
    ((pageLoop env).run (.start s)).Within ∧
    ∀ mailbox, env.Reads mailbox → (∀ a ∈ (pollMailboxCursor env s).answers, ¬a.Fails) →
      (∃ m ∈ mailbox.mails, s.cursor ≤ m.date ∧ m.id ∉ s.position.done) →
      s.position.Before (pollMailboxCursor env s).saved.position ∨
        ∃ cursor nextCursor handled lost exhaustive,
          .secondSkipped cursor nextCursor handled lost exhaustive ∈ (pollMailboxCursor env s).audits ∧
          Saturated (secondOf nextCursor - 1) (pollMailboxCursor env s).reads := by
  refine ⟨within_run env s, fun mailbox reads calm ⟨m, member, late, todo⟩ => ?_⟩
  have listed : m ∈ mailbox.since s.cursor := List.mem_filter.mpr ⟨member, decide_eq_true late⟩
  obtain ⟨before, m, after, whole, skips, new⟩ := exists_new ⟨m, listed, fun skips => todo skips.2⟩
  rw [position_saved]
  by_cases few : before.length / PAGE_SIZE < MAX_SKIP_PAGES
  · exact .inl (position_of_progressed (progressed_run reads whole skips new few) calm)
  · obtain ⟨cursor, nextCursor, handled, lost, exhaustive, skipped⟩ :=
      fires_of_many reads whole (List.cons_ne_nil _ _) skips (Nat.not_lt.mp few)
    have stays : ¬JumpsBack s (pollMailboxCursor env s).answers := by
      rintro ⟨_, a, b, both, fails, _⟩
      exact calm a (both.subset List.mem_cons_self) fails
    exact .inr ⟨_, _, _, _, _, skipped, skipsFull_of_stays stays _ _ _ _ _ skipped⟩

section

def threeMails : Mailbox where
  mails := [⟨1, none, 1000, true⟩, ⟨2, none, 1000, true⟩, ⟨3, none, 1000, true⟩]
  sorted := by decide
  unique := by decide

def threeMailsTick : Environment := ⟨fun _ => some threeMails, fun _ _ _ => .settled true, fun _ => 2000⟩

/-- Two of the three are treated. -/
def threeMailsSaved : Saved := ⟨1000, some ⟨⟨1000, {1, 2}⟩, none, none⟩⟩

theorem answers_threeMails : (pollMailboxCursor threeMailsTick threeMailsSaved).answers = [.settled true] := by
  rw [answers_pollMailboxCursor, DoWhile.run_of_stops (by decide)]
  rfl

/-- The page starts with the mails treated before. -/
theorem cursor_progresses_threeMails :
    threeMailsSaved.position.Before (pollMailboxCursor threeMailsTick threeMailsSaved).saved.position ∨
      ∃ cursor nextCursor handled lost exhaustive,
        .secondSkipped cursor nextCursor handled lost exhaustive ∈ (pollMailboxCursor threeMailsTick threeMailsSaved).audits ∧
        Saturated (secondOf nextCursor - 1) (pollMailboxCursor threeMailsTick threeMailsSaved).reads := by
  refine (cursor_progresses threeMailsTick threeMailsSaved).2 threeMails (fun _ => rfl) ?_
    ⟨⟨3, none, 1000, true⟩, by decide, by decide, by decide⟩
  intro a member
  rw [answers_threeMails, List.mem_singleton] at member
  rintro ⟨_, _, fails⟩
  cases member.symm.trans fails

end

end Opale.EmailBridge.PollCursor
