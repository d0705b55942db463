import Opale.EmailBridge.PollPages

namespace Opale.EmailBridge.PollCursor

/-- No listing fails, and the mailbox stays as it is. -/
def Environment.Reads (env : Environment) (mailbox : Mailbox) : Prop := ∀ n, env.mailbox n = some mailbox

/-- The walk has read `j` pages from `w` on, and found all their mails done. -/
structure Walk.Skipped (w w₁ : Walk) (j : Nat) : Prop where
  same : w₁ = { w with
    listings := w₁.listings
    reads := w₁.reads
    skipOnly := w₁.skipOnly
    skipPages := w.skipPages + j
    nextLink := w₁.nextLink
    graphNext := w₁.graphNext }
  nextLink : w₁.nextLink = if j = 0 then none else some (.page w.listFrom (PAGE_SIZE * j))
  reads : ∃ more, w₁.reads = w.reads ++ more ∧ ∀ r ∈ more, r.mails ≠ [] ∧ ∀ m ∈ r.mails, w.listFrom ≤ m.date

namespace Walk.Skipped

variable {w w₁ : Walk} {j : Nat}

theorem zero (fresh : w.nextLink = none) : w.Skipped w 0 :=
  ⟨rfl, fresh, [], (List.append_nil _).symm, List.forall_mem_nil _⟩

theorem position (skipped : w.Skipped w₁ j) : w₁.position = w.position := by rw [skipped.same]

theorem blocked (skipped : w.Skipped w₁ j) : w₁.blocked = w.blocked := by rw [skipped.same]

theorem jumpTo (skipped : w.Skipped w₁ j) : w₁.jumpTo = w.jumpTo := by rw [skipped.same]

theorem listFrom (skipped : w.Skipped w₁ j) : w₁.listFrom = w.listFrom := by rw [skipped.same]

theorem pages (skipped : w.Skipped w₁ j) : w₁.pages = w.pages := by rw [skipped.same]

theorem processed (skipped : w.Skipped w₁ j) : w₁.processed = w.processed := by rw [skipped.same]

theorem skipPages (skipped : w.Skipped w₁ j) : w₁.skipPages = w.skipPages + j := by rw [skipped.same]

end Walk.Skipped

section

variable {env : Environment} {mailbox : Mailbox} {w w₁ : Walk} {j : Nat} {before after : List Message} {m : Message}

theorem list_of_skipped (reads : env.Reads mailbox) (skipped : w.Skipped w₁ j) :
    env.list w₁.listings w₁.listFrom w₁.nextLink = some (mailbox.page w.listFrom (PAGE_SIZE * j)) := by
  rw [skipped.nextLink, skipped.listFrom]
  by_cases first : j = 0
  · rw [if_pos first, first]
    simp [Environment.list, reads w₁.listings]
  · rw [if_neg first]
    simp [Environment.list, reads w₁.listings]

/-- A page before the first mail that is not done, and the page that has it. -/
theorem scanned_skips {rest : List Message} (listed : mailbox.since w.listFrom = before ++ rest)
    (long : PAGE_SIZE * (j + 1) ≤ before.length) :
    (mailbox.page w.listFrom (PAGE_SIZE * j)).scanned = (before.drop (PAGE_SIZE * j)).take PAGE_SIZE := by
  have fits : PAGE_SIZE * j + PAGE_SIZE ≤ before.length := long
  simp only [Mailbox.page, listed]
  rw [List.drop_append_of_le_length (by omega), List.take_append_of_le_length (by rw [List.length_drop]; omega)]

theorem scanned_new (listed : mailbox.since w.listFrom = before ++ m :: after) (reached : PAGE_SIZE * j ≤ before.length)
    (here : before.length < PAGE_SIZE * j + PAGE_SIZE) :
    (mailbox.page w.listFrom (PAGE_SIZE * j)).scanned =
      before.drop (PAGE_SIZE * j) ++ m :: after.take (PAGE_SIZE * j + PAGE_SIZE - before.length - 1) := by
  simp only [Mailbox.page, listed]
  rw [List.drop_append_of_le_length reached, List.take_append]
  have short : (before.drop (PAGE_SIZE * j)).length ≤ PAGE_SIZE := by rw [List.length_drop]; omega
  rw [List.take_of_length_le short, List.length_drop]
  have more : PAGE_SIZE - (before.length - PAGE_SIZE * j) = (PAGE_SIZE * j + PAGE_SIZE - before.length - 1) + 1 := by omega
  rw [more, List.take_succ_cons]

/-- One page more of mails that are done. -/
theorem readPage_skipped {rest : List Message} (reads : env.Reads mailbox) (skipped : w.Skipped w₁ j)
    (listed : mailbox.since w.listFrom = before ++ rest) (all : ∀ m ∈ before, w.position.Skips m)
    (long : PAGE_SIZE * (j + 1) ≤ before.length) (more : PAGE_SIZE * (j + 1) < before.length + rest.length)
    (free : w.blocked = false) (stays : w.jumpTo = none) :
    ∃ w₂, readPage env w₁ = .yield w₂ ∧ w.Skipped w₂ (j + 1) ∧ w₂.graphNext.isSome = true := by
  have fits : PAGE_SIZE * j + PAGE_SIZE < before.length + rest.length := more
  have link : (mailbox.page w.listFrom (PAGE_SIZE * j)).nextLink = some (.page w.listFrom (PAGE_SIZE * j + PAGE_SIZE)) := by
    simp only [Mailbox.page, listed]
    rw [if_pos]
    rw [List.length_drop, List.length_append]
    omega
  have page : ∀ m ∈ (mailbox.page w.listFrom (PAGE_SIZE * j)).scanned, w₁.position.Skips m := by
    rw [scanned_skips listed long, skipped.position]
    exact fun m member => all m (List.mem_of_mem_drop (List.mem_of_mem_take member))
  have turned := readPage_of_skips (list_of_skipped reads skipped) page (skipped.blocked.trans free)
    (skipped.jumpTo.trans stays)
  refine ⟨_, turned, ⟨?_, ?_, ?_⟩, ?_⟩
  · rw [skipped.same]
    rfl
  · rw [link]
    rfl
  · obtain ⟨earlier, reads₁, all₁⟩ := skipped.reads
    refine ⟨earlier ++ [⟨(mailbox.page w.listFrom (PAGE_SIZE * j)).scanned, w₁.position.done⟩], ?_, ?_⟩
    · simp only [Walk.opened, reads₁, List.append_assoc]
    · refine List.forall_mem_append.mpr ⟨all₁, List.forall_mem_singleton.mpr ⟨fun empty => ?_, fun m => since_page⟩⟩
      have size := @length_page mailbox w.listFrom (PAGE_SIZE * j) (by rw [link]; rfl)
      have none_ : (mailbox.page w.listFrom (PAGE_SIZE * j)).scanned = [] := empty
      rw [none_] at size
      cases size
  · rw [link]
    rfl

/-- The walk goes on to any page before the one that has the first mail that is not done. -/
theorem skip_run {rest : List Message} (reads : env.Reads mailbox) (fresh : w.nextLink = none)
    (listed : mailbox.since w.listFrom = before ++ rest) (all : ∀ m ∈ before, w.position.Skips m) (some_ : rest ≠ [])
    (free : w.blocked = false) (stays : w.jumpTo = none) (pages : w.pages < MAX_PAGES) (load : w.processed < PAGE_SIZE)
    (long : PAGE_SIZE * j ≤ before.length) (few : w.skipPages + j < MAX_SKIP_PAGES) :
    ∃ w₁, w.Skipped w₁ j ∧ (pageLoop env).run w = (pageLoop env).run w₁ := by
  induction j with
  | zero => exact ⟨w, .zero fresh, rfl⟩
  | succ j ih =>
    have fits : PAGE_SIZE * j + PAGE_SIZE ≤ before.length := long
    have rest_ := List.length_pos_iff.mpr some_
    obtain ⟨w₁, skipped, same⟩ := ih (by omega) (by omega)
    obtain ⟨w₂, turn, skipped₂, next⟩ := readPage_skipped reads skipped listed all long (by omega) free stays
    refine ⟨w₂, skipped₂, same.trans (DoWhile.run_of_again turn ?_)⟩
    change w₂.again = true
    simp only [Walk.again, Bool.and_eq_true, decide_eq_true_eq]
    exact ⟨⟨⟨next, skipped₂.pages ▸ pages⟩, skipped₂.skipPages ▸ few⟩, skipped₂.processed ▸ load⟩

end

end Opale.EmailBridge.PollCursor
