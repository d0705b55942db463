import Opale.EmailBridge.PollSkips

namespace Opale.EmailBridge.PollCursor

/-- The mail is before the position, or done at its date. -/
def Position.Past (p : Position) (m : Message) : Prop := m.date < p.atDate ∨ p.Skips m

instance (p : Position) : DecidablePred p.Past := fun _ => inferInstanceAs (Decidable (_ ∨ _ ∧ _))

theorem Position.Past.mono {p q : Position} {m : Message} (past : p.Past m) (before : p.Before q) : q.Past m := by
  obtain later | ⟨same, more⟩ := before
  · obtain earlier | ⟨upTo, _⟩ := past
    · exact .inl (earlier.trans later)
    · exact .inl (upTo.trans_lt later)
  · obtain earlier | ⟨upTo, done⟩ := past
    · exact .inl (same ▸ earlier)
    · exact .inr ⟨same ▸ upTo, more.subset done⟩

theorem Position.Past.skips {p : Position} {m : Message} (past : p.Past m) (late : p.atDate ≤ m.date) : p.Skips m := by
  obtain earlier | skips := past
  · exact absurd earlier (Int.not_lt.mpr late)
  · exact skips

theorem past_advance (m : Message) (w : Walk) : (advance m w).position.Past m := by
  unfold advance
  dsimp only
  split
  · exact .inr ⟨Int.le_refl _, Finset.mem_singleton_self _⟩
  next early => exact .inr ⟨Int.not_lt.mp early, Finset.mem_insert_self _ _⟩

theorem date_advance {m : Message} {w : Walk} (later : w.position.atDate < (advance m w).position.atDate) :
    (advance m w).position.atDate = m.date := by
  unfold advance at later ⊢
  dsimp only at later ⊢
  split at later
  next date => rw [if_pos date]
  next => exact absurd later (Int.lt_irrefl _)

/-- The mail is the first one of the mailbox that is not done at the position. -/
def Mailbox.First (mailbox : Mailbox) (p : Position) (m : Message) : Prop :=
  ∃ before after, mailbox.since p.atDate = before ++ m :: after ∧ (∀ m ∈ before, p.Skips m) ∧ ¬p.Skips m

/-- The mails of the listing from `start` on that have been read, and the position that they have led to. -/
structure Reached (mailbox : Mailbox) (start : Int) (passed : List Message) (p : Position) : Prop where
  late : start ≤ p.atDate
  past : ∀ m ∈ passed, p.Past m
  upTo : p.atDate = start ∨ ∃ m ∈ passed, m.date = p.atDate

section

variable {mailbox : Mailbox} {start : Int} {passed after : List Message} {p : Position} {m : Message}

theorem sorted_since (mailbox : Mailbox) (start : Int) : (mailbox.since start).Pairwise fun m m₁ => m.date ≤ m₁.date :=
  mailbox.sorted.sublist List.filter_sublist

theorem Reached.le (reached : Reached mailbox start passed p) (whole : mailbox.since start = passed ++ m :: after) :
    p.atDate ≤ m.date := by
  obtain same | ⟨m₁, member, same⟩ := reached.upTo
  · have listed : m ∈ mailbox.since start := by
      rw [whole]
      exact List.mem_append_right _ List.mem_cons_self
    rw [same]
    exact of_decide_eq_true (List.mem_filter.mp listed).2
  · have sorted := sorted_since mailbox start
    rw [whole] at sorted
    rw [← same]
    exact (List.pairwise_append.mp sorted).2.2 m₁ member m List.mem_cons_self

/-- A later listing is the rest of an earlier one. -/
theorem since_filter {p : Position} (late : start ≤ p.atDate) :
    mailbox.since p.atDate = (mailbox.since start).filter fun m => p.atDate ≤ m.date := by
  unfold Mailbox.since
  rw [List.filter_filter]
  refine List.filter_congr fun m _ => ?_
  rw [Bool.eq_iff_iff]
  simp only [decide_eq_true_eq, Bool.and_eq_true]
  exact ⟨fun here => ⟨here, late.trans here⟩, fun here => here.1⟩

theorem Reached.first (reached : Reached mailbox start passed p) (whole : mailbox.since start = passed ++ m :: after)
    (new : ¬p.Skips m) : mailbox.First p m := by
  have here : p.atDate ≤ m.date := reached.le whole
  refine ⟨passed.filter fun m => p.atDate ≤ m.date, after.filter fun m => p.atDate ≤ m.date, ?_, ?_, new⟩
  · rw [since_filter reached.late, whole, List.filter_append, List.filter_cons, if_pos (decide_eq_true here)]
  · intro m₁ member
    obtain ⟨read, late⟩ := List.mem_filter.mp member
    exact (reached.past m₁ read).skips (of_decide_eq_true late)

theorem Reached.skip (reached : Reached mailbox start passed p) (skips : p.Skips m) :
    Reached mailbox start (passed ++ [m]) p where
  late := reached.late
  past := List.forall_mem_append.mpr ⟨reached.past, List.forall_mem_singleton.mpr (.inr skips)⟩
  upTo := reached.upTo.imp_right fun ⟨m₁, member, same⟩ => ⟨m₁, List.mem_append_left _ member, same⟩

theorem Reached.advance {w : Walk} (reached : Reached mailbox start passed w.position)
    (whole : mailbox.since start = passed ++ m :: after) (new : ¬w.position.Skips m) :
    Reached mailbox start (passed ++ [m]) (advance m w).position := by
  have here := reached.le whole
  have before := before_advance new
  have past := List.forall_mem_append.mpr
    ⟨fun m₁ member => (reached.past m₁ member).mono before, List.forall_mem_singleton.mpr (past_advance m w)⟩
  obtain later | ⟨same, _⟩ := before
  · refine ⟨reached.late.trans later.le, past, .inr ⟨m, List.mem_append_right _ List.mem_cons_self, ?_⟩⟩
    exact (date_advance later).symm
  · refine ⟨same ▸ reached.late, past, ?_⟩
    rw [← same]
    exact reached.upTo.imp_right fun ⟨m₁, member, same⟩ => ⟨m₁, List.mem_append_left _ member, same⟩

end

/-- A suspect that is the first mail to treat, and is to be tried again. -/
structure Suspect.Stands (mailbox : Mailbox) (suspect : Suspect) : Prop where
  first : mailbox.First suspect.rollback suspect.message
  handled : suspect.message.toProcess = true
  id : suspect.record.id = suspect.message.id
  attempts : MAX_INGEST_ATTEMPTS ≤ suspect.record.attempts

/-- The position kept is for a suspect that blocks the mailbox. -/
structure Keeps (mailbox : Mailbox) (w : Walk) (id : MailId) : Prop where
  blocked : w.blocked = true
  suspect : w.suspect = none
  stands : ∃ suspect : Suspect, ∃ r : Retry, suspect.Stands mailbox ∧ id = suspect.message.id ∧ w.position = suspect.rollback ∧
    w.retry = some r ∧ r.id = suspect.message.id ∧ MAX_INGEST_ATTEMPTS ≤ r.attempts

structure Sound (mailbox : Mailbox) (w : Walk) : Prop where
  stands : ∀ suspect, w.suspect = some suspect → suspect.Stands mailbox
  keeps : ∀ scan, w.keepScan = some scan → Keeps mailbox w scan.id

/-- Between two mails of the listing from `start` on. -/
structure Along (mailbox : Mailbox) (start : Int) (passed : List Message) (w : Walk) : Prop where
  stands : ∀ suspect, w.suspect = some suspect → suspect.Stands mailbox
  keepScan : w.keepScan = none
  blocked : w.blocked = false
  jumpTo : w.jumpTo = none
  reached : Reached mailbox start passed w.position

/-- Where a mail has ended the reading of its page. -/
structure Broken (mailbox : Mailbox) (w : Walk) : Prop where
  sound : Sound mailbox w
  breaks : w.blocked = true ∨ w.blocked = false ∧ w.keepScan = none ∧ w.jumpTo.isSome = true

section

variable {env : Environment} {mailbox : Mailbox} {start : Int} {passed after : List Message} {w w₁ : Walk} {m : Message}

theorem Suspect.Of.stands {suspect : Suspect} (is_ : suspect.Of w m) (first : mailbox.First w.position m)
    (handled : m.toProcess = true) : suspect.Stands mailbox where
  first := by rw [is_.message, is_.rollback]; exact first
  handled := by rw [is_.message]; exact handled
  id := by rw [is_.message]; exact is_.id
  attempts := is_.attempts

theorem keeps_systemic {suspect : Suspect} (stands : suspect.Stands mailbox) (error : Option Js.Units) (w : Walk) :
    Sound mailbox (systemic suspect error w) := by
  unfold systemic
  dsimp only
  split_ifs
  · refine ⟨fun _ found => (by cases found), fun scan kept => ?_⟩
    cases kept
    exact ⟨rfl, rfl, suspect, _, stands, rfl, rfl, rfl, stands.id, stands.attempts⟩
  · refine ⟨fun _ found => (by cases found), fun scan kept => ?_⟩
    cases kept
    exact ⟨rfl, rfl, suspect, _, stands, rfl, rfl, rfl, stands.id, stands.attempts⟩

theorem sound_of_none (stands : ∀ suspect, w.suspect = some suspect → suspect.Stands mailbox) (none_ : w.keepScan = none) :
    Sound mailbox w := ⟨stands, fun scan kept => by rw [none_] at kept; cases kept⟩

/-- What one mail does to the walk, whether it ends the page or not. -/
theorem along_readMail (along : Along mailbox start passed w) (whole : mailbox.since start = passed ++ m :: after) :
    (∀ w₁, readMail env m w = .yield w₁ → Along mailbox start (passed ++ [m]) w₁) ∧
      ∀ w₁, readMail env m w = .done w₁ → Broken mailbox w₁ := by
  have read := mailRead env m w
  generalize readMail env m w = step at read
  cases read with
  | skipped skips =>
    refine ⟨fun w₁ yields => ?_, fun _ stops => by cases stops⟩
    cases yields
    exact ⟨along.stands, along.keepScan, along.blocked, along.jumpTo, along.reached.skip skips⟩
  | passed answers processed new _ =>
    refine ⟨fun w₁ yields => ?_, fun _ stops => by cases stops⟩
    cases yields
    have reached : Reached mailbox start passed (w.noting answers processed).position := along.reached
    exact ⟨along.stands, along.keepScan, along.blocked, along.jumpTo, reached.advance whole new⟩
  | waits _ _ w₁ _ _ _ free blocked _ keepScan _ =>
    refine ⟨fun _ yields => (by cases yields), fun w₂ stops => ?_⟩
    cases stops
    exact ⟨sound_of_none (fun _ found => by cases free.symm.trans found) (keepScan.trans along.keepScan), .inl blocked⟩
  | suspected _ _ suspect _ new handled _ is_ _ =>
    refine ⟨fun w₁ yields => ?_, fun _ stops => by cases stops⟩
    cases yields
    refine ⟨fun σ found => ?_, along.keepScan, along.blocked, along.jumpTo, ?_⟩
    · cases found
      exact is_.stands (along.reached.first whole new) handled
    · exact Reached.advance (w := { w.noting _ _ with suspect := some suspect, scan := none, clock := _ }) along.reached whole new
  | jumps _ _ suspect _ _ new handled _ is_ _ _ =>
    refine ⟨fun _ yields => (by cases yields), fun w₁ stops => ?_⟩
    cases stops
    refine ⟨sound_of_none (fun σ found => ?_) along.keepScan, .inr ⟨along.blocked, along.keepScan, rfl⟩⟩
    cases found
    exact is_.stands (along.reached.first whole new) handled
  | systemic _ _ suspect _ found =>
    refine ⟨fun _ yields => (by cases yields), fun w₁ stops => ?_⟩
    cases stops
    exact ⟨keeps_systemic (along.stands suspect found) _ _, .inl blocked_systemic⟩
  | verdict suspect new found =>
    unfold verdict
    dsimp only
    split_ifs
    · refine ⟨fun _ yields => (by cases yields), fun w₁ stops => ?_⟩
      cases stops
      exact ⟨sound_of_none (fun _ found => by cases found) along.keepScan, .inr ⟨along.blocked, along.keepScan, rfl⟩⟩
    · refine ⟨fun w₁ yields => ?_, fun _ stops => by cases stops⟩
      cases yields
      refine ⟨fun _ found => (by cases found), along.keepScan, along.blocked, along.jumpTo, ?_⟩
      exact Reached.advance (w := { w.noting _ _ with audits := _, abandoned := _, suspect := none }) along.reached whole new

/-- Before a page: the listing goes on from the position, behind mails of its date that are all done. -/
structure Ready (mailbox : Mailbox) (w : Walk) : Prop where
  stands : ∀ suspect, w.suspect = some suspect → suspect.Stands mailbox
  keepScan : w.keepScan = none
  blocked : w.blocked = false
  jumpTo : w.jumpTo = none
  listFrom : w.position.atDate = w.listFrom
  offset : ∃ k, (w.nextLink = none ∧ k = 0 ∨ w.nextLink = some (.page w.listFrom k)) ∧
    ∀ m ∈ (mailbox.since w.listFrom).take k, w.position.Skips m

theorem ready_start (mailbox : Mailbox) (s : Saved) : Ready mailbox (.start s) :=
  ⟨fun _ found => (by cases found), rfl, rfl, rfl, rfl, 0, .inl ⟨rfl, rfl⟩, fun _ member => by simp at member⟩

theorem ready_of_stays {k : Nat} {atBefore : Int}
    (along : Along mailbox start ((mailbox.since start).take k ++ (mailbox.page start k).scanned) w)
    (from_ : w.listFrom = start) (before : atBefore = start) :
    ∃ w₁, turnPage (mailbox.page start k) atBefore w = .yield w₁ ∧ Ready mailbox w₁ := by
  refine ⟨_, turnPage_of_stays _ _ along.blocked along.jumpTo, ?_⟩
  rw [counted_eq, before]
  by_cases later : start < w.position.atDate
  · rw [if_pos later, if_pos later]
    exact ⟨along.stands, along.keepScan, along.blocked, along.jumpTo, rfl, 0, .inl ⟨rfl, rfl⟩, fun _ member => by simp at member⟩
  · have same : w.position.atDate = start := Int.le_antisymm (Int.not_lt.mp later) along.reached.late
    rw [if_neg later, if_neg later]
    refine ⟨along.stands, along.keepScan, along.blocked, along.jumpTo, same.trans from_.symm, ?_⟩
    by_cases long : PAGE_SIZE < ((mailbox.since start).drop k).length
    · refine ⟨k + PAGE_SIZE, .inr ?_, fun m member => ?_⟩
      · rw [from_]
        exact if_pos long
      · have listed : m ∈ (mailbox.since start).take k ++ (mailbox.page start k).scanned := by
          rw [from_, List.take_add] at member
          exact member
        have here : start ≤ m.date := by
          rw [from_] at member
          exact of_decide_eq_true (List.mem_filter.mp (List.mem_of_mem_take member)).2
        exact (along.reached.past m listed).skips (same ▸ here)
    · exact ⟨0, .inl ⟨if_neg long, rfl⟩, fun _ member => by simp at member⟩

theorem since_split {k : Nat} {read rest : List Message} (whole : (mailbox.page start k).scanned = read ++ m :: rest) :
    mailbox.since start =
      ((mailbox.since start).take k ++ read) ++ m :: (rest ++ ((mailbox.since start).drop k).drop PAGE_SIZE) := by
  have page : ((mailbox.since start).drop k).take PAGE_SIZE = read ++ m :: rest := whole
  have back : (mailbox.since start).drop k = read ++ m :: rest ++ ((mailbox.since start).drop k).drop PAGE_SIZE := by
    rw [← page, List.take_append_drop]
  calc mailbox.since start
      = (mailbox.since start).take k ++ (mailbox.since start).drop k := (List.take_append_drop k _).symm
    _ = _ := by
      conv_lhs => rw [back]
      simp only [List.append_assoc, List.cons_append]

theorem along_page (env : Environment) {k : Nat} (opened : Along mailbox start ((mailbox.since start).take k) w) :
    Along mailbox start ((mailbox.since start).take k ++ (mailbox.page start k).scanned)
        (forOf (readMail env) (mailbox.page start k).scanned w) ∨
      Broken mailbox (forOf (readMail env) (mailbox.page start k).scanned w) := by
  refine forOf_rule (I := fun read w => Along mailbox start ((mailbox.since start).take k ++ read) w)
    (J := Broken mailbox) ?_ ?_ w (by rwa [List.append_nil])
  · intro read m rest s s₁ whole along turn
    rw [← List.append_assoc]
    exact (along_readMail along (since_split whole)).1 s₁ turn
  · intro read m rest s s₁ whole along turn
    exact (along_readMail along (since_split whole)).2 s₁ turn

/-- A turn of the loop over the pages of a mailbox that stays as it is. -/
theorem ready_readPage (reads : env.Reads mailbox) (ready : Ready mailbox w) :
    (∀ w₁, readPage env w = .yield w₁ → Ready mailbox w₁) ∧ ∀ w₁, readPage env w = .done w₁ → Sound mailbox w₁ := by
  obtain ⟨k, link, skips⟩ := ready.offset
  have listed : env.list w.listings w.listFrom w.nextLink = some (mailbox.page w.listFrom k) := by
    obtain ⟨none_, rfl⟩ | more := link
    · rw [none_]
      simp [Environment.list, reads w.listings]
    · rw [more]
      simp [Environment.list, reads w.listings]
  have opened : Along mailbox w.listFrom ((mailbox.since w.listFrom).take k) (w.opened (mailbox.page w.listFrom k)) :=
    ⟨ready.stands, ready.keepScan, ready.blocked, ready.jumpTo, ready.listFrom.ge, fun m member => .inr (skips m member),
      .inl ready.listFrom⟩
  have frame := frame_readMails env (mailbox.page w.listFrom k).scanned (w.opened (mailbox.page w.listFrom k))
  have read := along_page env opened
  rw [readPage_eq listed]
  generalize forOf (readMail env) (mailbox.page w.listFrom k).scanned (w.opened (mailbox.page w.listFrom k)) = w₂ at *
  obtain along | broken := read
  · obtain ⟨w₃, turn, ready₃⟩ := ready_of_stays along frame.listFrom ready.listFrom
    rw [turn]
    exact ⟨fun _ yields => (by cases yields; exact ready₃), fun _ stops => by cases stops⟩
  · obtain blocked | ⟨free, keepScan, jump⟩ := broken.breaks
    · rw [turnPage_of_blocked blocked, counted_eq]
      refine ⟨fun _ yields => (by cases yields), fun _ stops => ?_⟩
      cases stops
      exact ⟨broken.sound.stands, fun scan kept =>
        ⟨(broken.sound.keeps scan kept).blocked, (broken.sound.keeps scan kept).suspect, (broken.sound.keeps scan kept).stands⟩⟩
    · obtain ⟨p, jump⟩ := Option.isSome_iff_exists.mp jump
      rw [turnPage_of_jump _ _ free jump, counted_eq]
      refine ⟨fun _ yields => ?_, fun _ stops => by cases stops⟩
      cases yields
      exact ⟨broken.sound.stands, keepScan, free, rfl, rfl, 0, .inl ⟨rfl, rfl⟩, fun _ member => by simp at member⟩

theorem sound_run (reads : env.Reads mailbox) (s : Saved) : Sound mailbox ((pageLoop env).run (.start s)) := by
  refine DoWhile.run_rule (I := Ready mailbox) (J := Sound mailbox) ?_ ?_ ?_ _ (ready_start mailbox s)
  · exact fun w w₁ ready yields _ => (ready_readPage reads ready).1 w₁ yields
  · intro w w₁ ready yields _
    have ready₁ := (ready_readPage reads ready).1 w₁ yields
    exact sound_of_none ready₁.stands ready₁.keepScan
  · exact fun w w₁ ready stops => (ready_readPage reads ready).2 w₁ stops

theorem keeps_closeSearch (sound : Sound mailbox w) {scan : Scan} (kept : (closeSearch env w).keepScan = some scan) :
    Keeps mailbox (closeSearch env w) scan.id := by
  cases found : w.suspect with
  | none =>
    rw [closeSearch_of_none found] at kept ⊢
    exact sound.keeps scan kept
  | some suspect =>
    have stands := sound.stands suspect found
    unfold closeSearch at kept ⊢
    simp only [found] at kept ⊢
    split_ifs at kept ⊢
    · cases kept
      exact ⟨rfl, rfl, suspect, _, stands, rfl, rfl, rfl, stands.id, stands.attempts⟩
    · cases kept
      exact ⟨rfl, rfl, suspect, _, stands, rfl, rfl, rfl, stands.id, stands.attempts⟩

theorem clearRetry_of_blocked (blocked : w.blocked = true) : clearRetry w = w := by
  rw [clearRetry, blocked, if_neg (by simp)]

theorem valve_of_blocked {cursor : Int} (blocked : w.blocked = true) : valve env cursor w = w := by
  rw [valve, blocked, if_neg (by simp)]

/-- A tick that saves a position for a mail is blocked just before it. -/
theorem keeps_pollMailboxCursor (reads : env.Reads mailbox) {s : Saved} {scan : Scan}
    (kept : (pollMailboxCursor env s).keepScan = some scan) : Keeps mailbox (pollMailboxCursor env s) scan.id := by
  have sound := sound_run reads s
  unfold pollMailboxCursor at kept ⊢
  generalize (pageLoop env).run (.start s) = w at *
  cases blocked : (closeSearch env w).blocked with
  | true =>
    rw [clearRetry_of_blocked blocked, valve_of_blocked blocked] at kept ⊢
    exact keeps_closeSearch sound kept
  | false =>
    have same : (valve env s.cursor (clearRetry (closeSearch env w))).keepScan = (closeSearch env w).keepScan := by
      rw [clearRetry_eq]
      unfold valve
      split_ifs <;> rfl
    have keeps := keeps_closeSearch sound (same.symm.trans kept)
    cases blocked.symm.trans keeps.blocked

end

end Opale.EmailBridge.PollCursor
