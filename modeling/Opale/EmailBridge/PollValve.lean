import Opale.EmailBridge.PollPages

namespace Opale.EmailBridge.PollCursor

def secondOf (date : Int) : Int := date / 1000

/-- A full page of mails of this second that were all done when it was read. -/
def Read.Full (second : Int) (r : Read) : Prop :=
  r.mails.length = PAGE_SIZE ∧ ∀ m ∈ r.mails, secondOf m.date = second ∧ m.id ∈ r.done

instance (second : Int) (r : Read) : Decidable (r.Full second) := inferInstanceAs (Decidable (_ ∧ _))

/-- The pages of one second fill the tick, and none reaches a later one. -/
structure Saturated (second : Int) (reads : List Read) : Prop where
  full : MAX_SKIP_PAGES ≤ reads.countP fun r => r.Full second
  within : ∀ r ∈ reads, ∀ m ∈ r.mails, secondOf m.date ≤ second

/-- With a position to jump to, a mail writes after one that has failed: the tick jumps there and back. -/
def JumpsBack (s : Saved) (answers : List Answer) : Prop :=
  (Walk.start s).scan.isSome = true ∧ ∃ a b, [a, b].Sublist answers ∧ a.Fails ∧ b.Writes

theorem JumpsBack.append {s : Saved} {answers : List Answer} (back : JumpsBack s answers) (more : List Answer) :
    JumpsBack s (answers ++ more) := by
  obtain ⟨scan, a, b, both, fails, writes⟩ := back
  exact ⟨scan, a, b, both.trans (List.sublist_append_left answers more), fails, writes⟩

/-- The suspect has failed again, and the search goes on where it had stopped. -/
def Searching (s : Saved) (w : Walk) : Prop :=
  (Walk.start s).scan.isSome = true ∧ (∃ a ∈ w.answers, a.Fails) ∧ ∃ suspect, w.suspect = some suspect ∧ suspect.jumped = true

theorem Searching.jumpsBack {s : Saved} {w : Walk} (searching : Searching s w) : JumpsBack s (w.answers ++ [.settled true]) := by
  obtain ⟨scan, ⟨a, member, fails⟩, _⟩ := searching
  exact ⟨scan, a, .settled true, (List.singleton_sublist.mpr member).append (List.Sublist.refl [_]), fails, rfl⟩

/-- A mail that was not done has been read. -/
def Moved (s : Saved) (w : Walk) : Prop :=
  JumpsBack s w.answers ∨ w.progressed = true ∨ w.blocked = true ∨ Searching s w

section

variable {env : Environment} {s : Saved} {w : Walk} {m : Message}

theorem moved_verdict {suspect : Suspect} {processed : Nat} (moved : Moved s w) :
    Moved s (verdict suspect m (w.noting [.settled true] processed)).value := by
  unfold verdict
  dsimp only
  split_ifs with jumped
  · obtain back | progressed | blocked | searching := moved
    · exact .inl (back.append _)
    · exact .inr (.inl progressed)
    · exact .inr (.inr (.inl blocked))
    · exact .inl searching.jumpsBack
  · exact .inr (.inl rfl)

theorem moved_readMail (moved : Moved s w) : Moved s (readMail env m w).value := by
  have read := mailRead env m w
  generalize readMail env m w = step at read
  cases read with
  | skipped _ => exact moved
  | passed _ _ _ _ => exact .inr (.inl rfl)
  | waits _ _ w₁ _ _ _ _ blocked _ _ _ => exact .inr (.inr (.inl blocked))
  | suspected _ _ _ _ _ _ _ _ _ => exact .inr (.inl rfl)
  | jumps _ _ _ _ _ _ _ free _ _ _ =>
    obtain back | progressed | blocked | ⟨_, _, suspect, found, _⟩ := moved
    · exact .inl (back.append _)
    · exact .inr (.inl progressed)
    · exact .inr (.inr (.inl blocked))
    · cases free.symm.trans found
  | systemic _ _ _ _ _ => exact .inr (.inr (.inl blocked_systemic))
  | verdict _ _ _ => exact moved_verdict moved

/-- Nothing but pages of mails that were done. -/
structure Quiet (s : Saved) (w : Walk) : Prop where
  position : w.position = (Walk.start s).position
  scan : w.scan = (Walk.start s).scan
  suspect : w.suspect = none
  jumpTo : w.jumpTo = none
  blocked : w.blocked = false
  listFrom : w.listFrom = s.cursor
  nextLink : w.nextLink = none ∨ ∃ k, w.nextLink = some (.page s.cursor k)
  skipPages : w.skipPages = w.reads.length
  treated : ∀ r ∈ w.reads, ∀ m ∈ r.mails, m.date = s.cursor ∧ m.id ∈ r.done

theorem moved_of_new (scan : w.scan = (Walk.start s).scan) (free : w.suspect = none) (new : ¬w.position.Skips m) :
    Moved s (readMail env m w).value := by
  have read := mailRead env m w
  generalize readMail env m w = step at read
  cases read with
  | skipped skips => exact absurd skips new
  | passed _ _ _ _ => exact .inr (.inl rfl)
  | waits _ _ w₁ _ _ _ _ blocked _ _ _ => exact .inr (.inr (.inl blocked))
  | suspected _ _ _ _ _ _ _ _ _ => exact .inr (.inl rfl)
  | jumps error memo suspect _ _ _ _ _ _ jumped found =>
    rw [scan] at found
    refine .inr (.inr (.inr ⟨by rw [found]; rfl, ⟨.retry error memo, ?_, error, memo, rfl⟩, suspect, rfl, jumped⟩))
    exact List.mem_append_right _ List.mem_cons_self
  | systemic _ _ _ _ found => cases free.symm.trans found
  | verdict _ _ found => cases free.symm.trans found

theorem moved_turnPage {page : Page} {atBefore : Int} (moved : Moved s w) : Moved s (turnPage page atBefore w).value := by
  obtain ⟨_, _, _, _, _, same⟩ := turnPage_eq page atBefore w
  rw [same]
  exact moved

theorem moved_readPage (moved : Moved s w) : Moved s (readPage env w).value := by
  cases listed : env.list w.listings w.listFrom w.nextLink with
  | none =>
    rw [readPage_of_none listed]
    exact moved
  | some page =>
    rw [readPage_eq listed]
    have opened : Moved s (w.opened page) := moved
    exact moved_turnPage (forOf_keeps (fun _ _ _ => moved_readMail) _ opened)

/-- One more page of mails that are done, or the first mail that is not. -/
theorem quiet_readPage (quiet : Quiet s w) (full : ∀ r ∈ w.reads, r.mails.length = PAGE_SIZE) :
    Moved s (readPage env w).value ∨ Quiet s (readPage env w).value ∧
      ((readPage env w).value.graphNext.isSome = true → ∀ r ∈ (readPage env w).value.reads, r.mails.length = PAGE_SIZE) := by
  cases listed : env.list w.listings w.listFrom w.nextLink with
  | none =>
    rw [readPage_of_none listed]
    exact .inr ⟨⟨quiet.position, quiet.scan, quiet.suspect, quiet.jumpTo, quiet.blocked, quiet.listFrom, quiet.nextLink,
      quiet.skipPages, quiet.treated⟩, fun _ => full⟩
  | some page =>
    by_cases all : ∀ m ∈ page.scanned, w.position.Skips m
    · obtain ⟨mailbox, k, rfl⟩ : ∃ mailbox : Mailbox, ∃ k, page = mailbox.page s.cursor k := by
        rw [quiet.listFrom] at listed
        exact list_eq_page quiet.nextLink listed
      rw [readPage_of_skips listed all quiet.blocked quiet.jumpTo]
      refine .inr ⟨⟨quiet.position, quiet.scan, quiet.suspect, quiet.jumpTo, quiet.blocked, quiet.listFrom, ?_, ?_, ?_⟩, ?_⟩
      · exact nextLink_page mailbox s.cursor k
      · simp [Walk.opened, quiet.skipPages]
      · refine List.forall_mem_append.mpr ⟨quiet.treated, List.forall_mem_singleton.mpr fun m member => ?_⟩
        obtain ⟨late, done⟩ := all m member
        rw [quiet.position] at late
        exact ⟨Int.le_antisymm late (since_page member), done⟩
      · intro more
        exact List.forall_mem_append.mpr ⟨full, List.forall_mem_singleton.mpr (length_page more)⟩
    · simp only [not_forall] at all
      obtain ⟨m, member, new⟩ := all
      obtain ⟨before, m, after, whole, skips, new⟩ := exists_new ⟨m, member, new⟩
      rw [readPage_new listed whole skips]
      refine .inl (moved_turnPage (forOf_first ?_ fun _ _ _ => moved_readMail))
      exact moved_of_new (w := w.opened page) quiet.scan quiet.suspect new

/-- At the end of the loop. -/
theorem moved_or_quiet (env : Environment) (s : Saved) :
    Moved s ((pageLoop env).run (.start s)) ∨ Quiet s ((pageLoop env).run (.start s)) ∧
      (((pageLoop env).run (.start s)).graphNext.isSome = true →
        ∀ r ∈ ((pageLoop env).run (.start s)).reads, r.mails.length = PAGE_SIZE) := by
  let full (w : Walk) := ∀ r ∈ w.reads, r.mails.length = PAGE_SIZE
  have start : Quiet s (.start s) := ⟨rfl, rfl, rfl, rfl, rfl, rfl, .inl rfl, rfl, List.forall_mem_nil _⟩
  have turn (w w₁ : Walk) (holds : Moved s w ∨ Quiet s w ∧ full w) (value : (readPage env w).value = w₁) :
      Moved s w₁ ∨ Quiet s w₁ ∧ (w₁.graphNext.isSome = true → full w₁) := by
    rw [← value]
    obtain moved | ⟨quiet, all⟩ := holds
    · exact .inl (moved_readPage moved)
    · exact quiet_readPage quiet all
  refine DoWhile.run_rule (I := fun w => Moved s w ∨ Quiet s w ∧ full w)
    (J := fun w => Moved s w ∨ Quiet s w ∧ (w.graphNext.isSome = true → full w)) ?_ ?_ ?_ _
    (.inr ⟨start, List.forall_mem_nil _⟩)
  · intro w w₁ holds yields again
    have body : readPage env w = .yield w₁ := yields
    have more : w₁.graphNext.isSome = true := by
      have goes : w₁.again = true := again
      simp only [Walk.again, Bool.and_eq_true] at goes
      exact goes.1.1.1
    exact (turn w w₁ holds (by rw [body]; rfl)).imp_right fun ⟨quiet, all⟩ => ⟨quiet, all more⟩
  · intro w w₁ holds yields _
    have body : readPage env w = .yield w₁ := yields
    exact turn w w₁ holds (by rw [body]; rfl)
  · intro w w₁ holds stops
    have body : readPage env w = .done w₁ := stops
    exact turn w w₁ holds (by rw [body]; rfl)

/-- Without a position to jump back from, the valve fires on a full second only. -/
theorem saturated_of_quiet {w : Walk} (quiet : Quiet s w) (full : ∀ r ∈ w.reads, r.mails.length = PAGE_SIZE)
    (skips : MAX_SKIP_PAGES ≤ w.skipPages) : Saturated (secondOf s.cursor) w.reads where
  full := by
    have all : ∀ r ∈ w.reads, r.Full (secondOf s.cursor) := fun r member =>
      ⟨full r member, fun m mail => ⟨by rw [(quiet.treated r member m mail).1], (quiet.treated r member m mail).2⟩⟩
    rw [List.countP_eq_length.mpr fun r member => decide_eq_true (all r member), ← quiet.skipPages]
    exact skips
  within r member m mail := by rw [(quiet.treated r member m mail).1]

end

def Audit.skipsSecond : Audit → Bool
  | .secondSkipped .. => true
  | _ => false

/-- No second has been skipped so far. -/
def Unskipped (w : Walk) : Prop := ∀ a ∈ w.audits, a.skipsSecond = false

section

variable {env : Environment} {s : Saved} {w : Walk} {m : Message}

theorem Unskipped.append {a : Audit} {w₁ : Walk} (unskipped : Unskipped w) (other : a.skipsSecond = false)
    (same : w₁.audits = w.audits ++ [a]) : Unskipped w₁ := by
  unfold Unskipped
  rw [same]
  exact List.forall_mem_append.mpr ⟨unskipped, List.forall_mem_singleton.mpr other⟩

theorem unskipped_readMail (unskipped : Unskipped w) : Unskipped (readMail env m w).value := by
  have read := mailRead env m w
  generalize readMail env m w = step at read
  cases read with
  | skipped _ => exact unskipped
  | passed _ _ _ _ => exact unskipped
  | waits _ _ w₁ _ _ _ _ _ _ _ same =>
    change ∀ a ∈ w₁.audits, a.skipsSecond = false
    rw [same]
    exact unskipped
  | suspected _ _ _ _ _ _ _ _ _ => exact unskipped
  | jumps _ _ _ _ _ _ _ _ _ _ _ => exact unskipped
  | systemic _ _ suspect _ _ =>
    unfold systemic
    dsimp only
    split_ifs
    · exact unskipped
    · exact unskipped.append rfl rfl
  | verdict suspect _ _ =>
    unfold verdict
    dsimp only
    split_ifs
    · exact unskipped.append rfl rfl
    · exact unskipped.append rfl rfl

theorem unskipped_readPage (unskipped : Unskipped w) : Unskipped (readPage env w).value := by
  cases listed : env.list w.listings w.listFrom w.nextLink with
  | none =>
    rw [readPage_of_none listed]
    exact unskipped
  | some page =>
    rw [readPage_eq listed]
    have opened : Unskipped (w.opened page) := unskipped
    have read : Unskipped (forOf (readMail env) page.scanned (w.opened page)) :=
      forOf_keeps (fun _ _ _ => unskipped_readMail) _ opened
    obtain ⟨_, _, _, _, _, same⟩ := turnPage_eq page w.position.atDate (forOf (readMail env) page.scanned (w.opened page))
    rw [same]
    exact read

theorem unskipped_closeSearch (env : Environment) (unskipped : Unskipped w) : Unskipped (closeSearch env w) := by
  unfold closeSearch
  split
  · exact unskipped
  · dsimp only
    split_ifs
    · exact unskipped.append rfl rfl
    · exact unskipped

theorem unskipped_clearRetry (unskipped : Unskipped w) : Unskipped (clearRetry w) := by
  unfold clearRetry
  split_ifs
  · exact unskipped
  · exact unskipped

/-- What is so at the end of the loop when the valve fires. -/
structure Fires (env : Environment) (s : Saved) (w : Walk) (a : Audit) : Prop where
  loop : (pageLoop env).run (.start s) = w
  suspect : w.suspect = none
  progressed : w.progressed = false
  blocked : w.blocked = false
  graphNext : w.graphNext.isSome = true
  skipPages : MAX_SKIP_PAGES ≤ w.skipPages
  audit : ∃ count exhaustive, a =
    .secondSkipped s.cursor (w.position.atDate / 1000 * 1000 + 1000) w.position.done.card count exhaustive
  reads : (pollMailboxCursor env s).reads = w.reads
  answers : (pollMailboxCursor env s).answers = w.answers

theorem fires_of_mem {a : Audit} (member : a ∈ (pollMailboxCursor env s).audits) (skips : a.skipsSecond = true) :
    ∃ w, Fires env s w a := by
  have loop : Unskipped ((pageLoop env).run (.start s)) :=
    DoWhile.run_keeps (fun _ => unskipped_readPage) _ (List.forall_mem_nil _)
  have before := unskipped_clearRetry (unskipped_closeSearch env loop)
  generalize whole : (pageLoop env).run (.start s) = w at *
  have result : pollMailboxCursor env s = valve env s.cursor (clearRetry (closeSearch env w)) := by rw [← whole]; rfl
  unfold valve at result
  split_ifs at result with fired
  · obtain ⟨progressed, blocked, more, full⟩ := fired
    have free := free_of_closed blocked
    rw [closeSearch_of_none free] at *
    rw [clearRetry_eq] at *
    rw [result, List.mem_append, List.mem_singleton] at member
    obtain earlier | rfl := member
    · rw [before a earlier] at skips
      cases skips
    · exact ⟨w, whole, free, progressed, blocked, more, full, ⟨_, _, rfl⟩, by rw [result], by rw [result]⟩
  · rw [result] at member
    rw [before a member] at skips
    cases skips

end

/-- Each second that the tick skips is full of pages that were done. -/
def SkipsFull (env : Environment) (s : Saved) : Prop :=
  ∀ cursor nextCursor handled lost exhaustive,
    .secondSkipped cursor nextCursor handled lost exhaustive ∈ (pollMailboxCursor env s).audits →
      Saturated (secondOf nextCursor - 1) (pollMailboxCursor env s).reads

theorem skipsFull_of_stays {env : Environment} {s : Saved} (stays : ¬JumpsBack s (pollMailboxCursor env s).answers) :
    SkipsFull env s := by
  intro cursor nextCursor handled lost exhaustive member
  obtain ⟨w, fires⟩ := fires_of_mem member rfl
  obtain ⟨count, exhaustive₁, same⟩ := fires.audit
  cases same
  rw [fires.answers] at stays
  have ends := moved_or_quiet env s
  rw [fires.loop] at ends
  obtain moved | ⟨quiet, full⟩ := ends
  · obtain back | progressed | blocked | ⟨_, _, suspect, found, _⟩ := moved
    · exact absurd back stays
    · cases fires.progressed.symm.trans progressed
    · cases fires.blocked.symm.trans blocked
    · cases fires.suspect.symm.trans found
  · have saturated := saturated_of_quiet quiet (full fires.graphNext) fires.skipPages
    have second : secondOf (w.position.atDate / 1000 * 1000 + 1000) - 1 = secondOf s.cursor := by
      have at_ : w.position.atDate = s.cursor := congrArg Position.atDate quiet.position
      unfold secondOf
      omega
    rw [fires.reads, second]
    exact saturated

end Opale.EmailBridge.PollCursor
