-- SUMMARY: A mutation is committed at most once exactly when no error that can follow a submission is retried without a lookup.
import TwinServer.Ingestion.Conservation

/-!
# Ambiguous attempts

An error that comes after a submission leaves open whether the ledger has committed the
mutation. The worker looks such a job up only when the error says that the submission is
unknown, and executes it again without a lookup when it says no more than that it is
temporary.
-/

open Js Async Ledger

namespace Ingestion

/-! ## The property -/

/-- A lookup has answered that the ledger does not have the mutation of the job. -/
def Cleared (k : Nat) (later : List Mark) : Prop :=
  ∃ item : QueueItem, item.ticket = k ∧ .looked item (.ok (some false)) ∈ later

/-- Every attempt of the job that may have committed its mutation was followed by a lookup that
has answered that it has not. -/
def Settled (k : Nat) (journal : List Mark) : Prop :=
  ∀ before item outcome later, journal = before ++ .ended item outcome :: later →
    item.ticket = k → outcome.mayHaveCommitted → Cleared k later

/-- A mutation is executed again only when it is settled that it was not committed. -/
def Cautious (journal : List Mark) : Prop :=
  ∀ before item later, journal = before ++ .began item :: later → Settled item.ticket before

def Mark.commits (k : Nat) : Mark → Bool
  | .ended item outcome => item.ticket == k && outcome.committed
  | _ => false

/-- How often the ledger has committed the mutation of a job. -/
def commits (k : Nat) (journal : List Mark) : Nat := journal.countP (Mark.commits k)

/-- Lookups that are answered are answered truly. -/
def accurate : Guard Worker Task Input := fun w t _ i =>
  ∀ item found, t.phase = .looking item → i = .lookup (.ok (some found)) →
    (found = true ↔ 0 < commits item.ticket w.journal)

/-- Only errors of a kind follow a submission. -/
def lostWithin (E : Raised → Prop) : Guard Worker Task Input := fun _ _ _ i =>
  ∀ error committed, i = .outcome (.lost error committed) → E error

/-- The error is retried, and does not say that the submission is unknown. -/
def Blind (writer : Writer) (error : Raised) : Prop :=
  retryable (normalizeError (writer.surface error)) ∧
    submissionUnknown (normalizeError (writer.surface error)) = false

/-- The worker never executes a mutation again that may have been committed, and no mutation is
committed twice, in every run in which errors of the kind follow a submission. -/
def CommitsOnce (maxAttempts : ℕ+) (writer : Writer) (E : Raised → Prop) : Prop :=
  ∀ now es c, (ingestionWorker maxAttempts writer).Meets (accurate.and (lostWithin E)) ⟨.start now, []⟩ es →
    (ingestionWorker maxAttempts writer).run ⟨.start now, []⟩ es = some c →
    Cautious c.shared.journal ∧ ∀ k, commits k c.shared.journal ≤ 1

/-! ## Journals that grow -/

theorem snoc_eq {α : Type} {l before later : List α} {a b : α}
    (h : l ++ [a] = before ++ b :: later) :
    (l = before ∧ a = b ∧ later = []) ∨ ∃ later', later = later' ++ [a] ∧ l = before ++ b :: later' := by
  rcases List.eq_nil_or_concat later with rfl | ⟨later', c, rfl⟩
  · obtain ⟨rfl, hlast⟩ := List.append_inj' h rfl
    exact .inl ⟨rfl, List.singleton_inj.mp hlast, rfl⟩
  · rw [List.concat_eq_append, ← List.cons_append, ← List.append_assoc] at h
    obtain ⟨rfl, hlast⟩ := List.append_inj' h rfl
    obtain rfl := List.singleton_inj.mp hlast
    exact .inr ⟨later', List.concat_eq_append, rfl⟩

variable {journal : List Mark} {k : Nat} {mark : Mark}

theorem Cleared.append {later : List Mark} (h : Cleared k later) (mark : Mark) :
    Cleared k (later ++ [mark]) := by
  obtain ⟨item, hticket, hmem⟩ := h
  exact ⟨item, hticket, List.mem_append_left _ hmem⟩

/-- The job stays settled when no attempt of it ends that may have committed. -/
theorem Settled.snoc (h : Settled k journal)
    (hmark : ∀ item outcome, mark = .ended item outcome → item.ticket = k →
      outcome.mayHaveCommitted = false) : Settled k (journal ++ [mark]) := by
  intro before item outcome later heq hticket hmay
  rcases snoc_eq heq with ⟨-, rfl, -⟩ | ⟨later', rfl, rfl⟩
  · rw [hmark item outcome rfl hticket] at hmay
    cases hmay
  · exact (h before item outcome later' rfl hticket hmay).append mark

/-- A lookup that has found nothing settles the job. -/
theorem settled_looked {item : QueueItem} (hticket : item.ticket = k) :
    Settled k (journal ++ [.looked item (.ok (some false))]) := by
  intro before item' outcome later heq _ _
  rcases snoc_eq heq with ⟨-, hmark, -⟩ | ⟨later', rfl, -⟩
  · cases hmark
  · exact ⟨item, hticket, List.mem_append_right _ List.mem_cons_self⟩

theorem settled_nil (k : Nat) : Settled k [] := by
  intro before item outcome later heq
  cases before <;> cases heq

theorem Cautious.snoc (h : Cautious journal)
    (hmark : ∀ item, mark = .began item → Settled item.ticket journal) :
    Cautious (journal ++ [mark]) := by
  intro before item later heq
  rcases snoc_eq heq with ⟨rfl, rfl, -⟩ | ⟨later', -, rfl⟩
  · exact hmark item rfl
  · exact h before item later' rfl

theorem cautious_nil : Cautious [] := by
  intro before item later heq
  cases before <;> cases heq

theorem commits_snoc (k : Nat) (journal : List Mark) (mark : Mark) :
    commits k (journal ++ [mark]) = commits k journal + if mark.commits k then 1 else 0 := by
  unfold commits
  rw [List.countP_append, List.countP_singleton]

/-- Nothing of the job is on the ledger, and nothing of it is open. -/
structure Fresh (k : Nat) (journal : List Mark) : Prop where
  settled : Settled k journal
  none : commits k journal = 0

/-- What happens to another job leaves the job as it is. -/
theorem Fresh.snoc (h : Fresh k journal)
    (hmark : ∀ item outcome, mark = .ended item outcome → item.ticket ≠ k) :
    Fresh k (journal ++ [mark]) where
  settled := h.settled.snoc fun item outcome hm hticket => absurd hticket (hmark item outcome hm)
  none := by
    rw [commits_snoc, h.none]
    cases mark with
    | ended item outcome =>
      have hne := hmark item outcome rfl
      simp [Mark.commits, hne]
    | began item => rfl
    | looked item answer => rfl

theorem fresh_nil (k : Nat) : Fresh k [] := ⟨settled_nil k, rfl⟩

/-- An attempt that was definitely refused. -/
theorem Fresh.rejected (h : Fresh k journal) (item : QueueItem) (error : Raised) :
    Fresh k (journal ++ [.ended item (.rejected error)]) where
  settled := h.settled.snoc fun item' outcome hm _ => by
    obtain ⟨-, rfl⟩ := Mark.ended.inj hm
    rfl
  none := by
    rw [commits_snoc, h.none]
    simp [Mark.commits, Outcome.committed]

/-! ## The invariant -/

structure Worker.Safe (w : Worker) : Prop where
  cautious : Cautious w.journal
  once : ∀ k, commits k w.journal ≤ 1
  queued : ∀ item ∈ w.queue, Fresh item.ticket w.journal
  unused : ∀ k, w.calls ≤ k → Fresh k w.journal

/-- What is known of the item in hand. -/
def Phase.Safe (w : Worker) : Phase → Prop
  | .enqueueing item | .dequeued (some item) | .executing item | .requeueing item =>
    Fresh item.ticket w.journal
  | _ => True

section
variable {maxAttempts : ℕ+} {writer : Writer} {E : Raised → Prop} {w w' : Worker}

theorem Phase.Safe.of_journal {phase : Phase} (h : phase.Safe w)
    (hjournal : w'.journal = w.journal) : phase.Safe w' := by
  cases phase with
  | dequeued item =>
    cases item with
    | none => trivial
    | some item => exact (hjournal ▸ h : Fresh item.ticket w'.journal)
  | enqueueing item | executing item | requeueing item =>
    exact (hjournal ▸ h : Fresh item.ticket w'.journal)
  | enqueued | started | dequeuing | looking | finishing | returned | threw | sleeping | drained =>
    trivial

theorem Phase.Safe.marked {phase : Phase} (h : phase.Safe w) {mark : Mark}
    (hjournal : w'.journal = w.journal ++ [mark])
    (hmark : ∀ item, phase.held? = some item → ∀ item' outcome, mark = .ended item' outcome →
      item'.ticket ≠ item.ticket) : phase.Safe w' := by
  have hfresh : ∀ item, phase.held? = some item → Fresh item.ticket w.journal →
      Fresh item.ticket w'.journal := by
    intro item hitem hfresh
    rw [hjournal]
    exact hfresh.snoc (hmark item hitem)
  cases phase with
  | dequeued item =>
    cases item with
    | none => trivial
    | some item => exact hfresh item rfl h
  | enqueueing item | executing item | requeueing item => exact hfresh item rfl h
  | enqueued | started | dequeuing | looking | finishing | returned | threw | sleeping | drained =>
    trivial

/-- Something is written into the journal of an item in hand. -/
theorem Worker.Safe.marked (hw : w.Safe) {item : QueueItem} {mark : Mark}
    (hjournal : w'.journal = w.journal ++ [mark]) (hqueue : w'.queue = w.queue)
    (hcalls : w'.calls = w.calls) (hissued : item.ticket < w.calls)
    (hnotMem : item.ticket ∉ w.queue.map QueueItem.ticket)
    (hended : ∀ item' outcome, mark = .ended item' outcome → item'.ticket = item.ticket)
    (hbegan : ∀ item', mark = .began item' → Settled item'.ticket w.journal)
    (honce : commits item.ticket (w.journal ++ [mark]) ≤ 1) : w'.Safe := by
  refine ⟨?_, fun k => ?_, fun q hq => ?_, fun k hk => ?_⟩
  · rw [hjournal]
    exact hw.cautious.snoc hbegan
  · rw [hjournal]
    rcases Nat.decEq item.ticket k with hne | rfl
    · have hcommits : mark.commits k = false := by
        cases mark with
        | ended item' outcome =>
          rw [← hended item' outcome rfl] at hne
          simp [Mark.commits, hne]
        | began item' => rfl
        | looked item' answer => rfl
      rw [commits_snoc, hcommits]
      exact hw.once k
    · exact honce
  · rw [hqueue] at hq
    rw [hjournal]
    refine (hw.queued q hq).snoc fun item' outcome hm heq => hnotMem ?_
    rw [← hended item' outcome hm, heq]
    exact List.mem_map_of_mem hq
  · rw [hcalls] at hk
    rw [hjournal]
    refine (hw.unused k hk).snoc fun item' outcome hm heq => ?_
    rw [hended item' outcome hm] at heq
    exact absurd hissued (Nat.not_lt_of_le (heq ▸ hk))

/-- Nothing is written into the journal. -/
theorem Worker.Safe.quiet (hw : w.Safe) (hjournal : w'.journal = w.journal)
    (hcalls : w'.calls = w.calls) (hqueue : ∀ item ∈ w'.queue, Fresh item.ticket w.journal) :
    w'.Safe := by
  refine ⟨?_, ?_, ?_, ?_⟩
  · exact hjournal ▸ hw.cautious
  · exact hjournal ▸ hw.once
  · exact hjournal ▸ hqueue
  · rw [hjournal, hcalls]
    exact hw.unused

/-- An error that is retried without a lookup was no submission's. -/
theorem rejected_of_again {outcome : Outcome} {error : AppError} {item : QueueItem}
    (hblind : 1 < maxAttempts → ∀ e, E e → ¬ Blind writer e)
    (hlost : ∀ e committed, outcome = .lost e committed → E e)
    (herror : outcome.error? writer = some error) (hretryable : retryable error)
    (hmore : item.payload.attempts + 1 < maxAttempts) (hknown : submissionUnknown error = false) :
    ∃ e, outcome = .rejected e := by
  cases outcome with
  | success => cases herror
  | rejected e => exact ⟨e, rfl⟩
  | lost e committed =>
    obtain rfl := Option.some.inj herror
    have hmany : 1 < maxAttempts := by
      apply PNat.coe_lt_coe _ _ |>.mp
      exact Nat.lt_of_le_of_lt (Nat.le_add_left 1 _) hmore
    exact absurd ⟨hretryable, hknown⟩ (hblind hmany e (hlost e committed rfl))

variable (maxAttempts writer) in
theorem safe_extends (hblind : 1 < maxAttempts → ∀ e, E e → ¬ Blind writer e) :
    Extends (ingestionWorker maxAttempts writer) (accurate.and (lostWithin E)) Worker.Ticketed
      (fun w t => t.Ticketed w) Task.Apart Worker.Safe (fun w t => t.phase.Safe w)
      (fun _ _ => True) where
  symm _ := trivial
  call {w k w' t} hticketed hw hcall := by
    cases k with
    | enqueue job =>
      obtain ⟨rfl, rfl⟩ := Prod.mk.inj (Option.some.inj hcall)
      refine ⟨⟨hw.cautious, hw.once, hw.queued, fun k hk => hw.unused k (Nat.le_of_succ_le hk)⟩, ?_,
        fun u _ hu => ⟨hu, trivial⟩⟩
      exact hw.unused _ (Nat.le_refl _)
    | processNext =>
      obtain ⟨rfl, rfl⟩ := Prod.mk.inj (Option.some.inj hcall)
      exact ⟨hw, trivial, fun u _ hu => ⟨hu, trivial⟩⟩
    | drain maxWaitMs =>
      obtain ⟨rfl, rfl⟩ := Prod.mk.inj (Option.some.inj hcall)
      exact ⟨hw, trivial, fun u _ hu => ⟨hu, trivial⟩⟩
  env hticketed hw henv := by
    obtain rfl := Option.some.inj henv
    exact ⟨⟨hw.cautious, hw.once, hw.queued, hw.unused⟩, fun u _ hu => hu⟩
  resume {w t i w' t' others} hticketed hw ht ht' hothers hguard hresume := by
    obtain ⟨hdeadline, hsegment⟩ := segment_of_resume maxAttempts writer hresume
    obtain ⟨deadline, phase⟩ := t
    obtain ⟨deadline', phase'⟩ := t'
    have hquiet : w'.journal = w.journal → ∀ u ∈ others, u.phase.Safe w' ∧ True :=
      fun hjournal u hu => ⟨(hothers u hu).2.1.of_journal hjournal, trivial⟩
    have hmarked : ∀ {item : QueueItem} {mark : Mark}, phase.held? = some item →
        w'.journal = w.journal ++ [mark] → w'.queue = w.queue → w'.calls = w.calls →
        (∀ item' outcome, mark = .ended item' outcome → item'.ticket = item.ticket) →
        (∀ item', mark = .began item' → Settled item'.ticket w.journal) →
        commits item.ticket (w.journal ++ [mark]) ≤ 1 →
        phase'.Safe w' → w'.Safe ∧ phase'.Safe w' ∧ ∀ u ∈ others, u.phase.Safe w' ∧ True := by
      intro item mark hheld hjournal hqueue hcalls hended hbegan honce hphase
      obtain ⟨hissued, hnotMem⟩ := ht.held item hheld
      refine ⟨hw.marked hjournal hqueue hcalls hissued hnotMem hended hbegan honce, hphase,
        fun u hu => ⟨?_, trivial⟩⟩
      refine (hothers u hu).2.1.marked hjournal fun b hb item' outcome hm => ?_
      rw [hended item' outcome hm]
      exact (hothers u hu).1.2 item b hheld hb
    -- an attempt of the item in hand ends
    have hended : ∀ {item : QueueItem} (outcome : Outcome), phase = .executing item →
        w'.journal = w.journal ++ [.ended item outcome] → w'.queue = w.queue →
        w'.calls = w.calls → phase'.Safe w' →
        w'.Safe ∧ phase'.Safe w' ∧ ∀ u ∈ others, u.phase.Safe w' ∧ True := by
      intro item outcome hphase hjournal hqueue hcalls hphase'
      have hfresh : Fresh item.ticket w.journal := by
        rw [hphase] at ht'
        exact ht'
      refine hmarked (by rw [hphase]; rfl) hjournal hqueue hcalls ?_ ?_ ?_ hphase'
      · intro item' outcome' hm
        obtain ⟨rfl, -⟩ := Mark.ended.inj hm
        rfl
      · intro item' hm
        cases hm
      · rw [commits_snoc, hfresh.none]
        split <;> decide
    -- the item in hand is looked up
    have hlooked : ∀ {item : QueueItem} (answer : Except Raised (Option Bool)),
        phase = .looking item → w'.journal = w.journal ++ [.looked item answer] →
        w'.queue = w.queue → w'.calls = w.calls → phase'.Safe w' →
        w'.Safe ∧ phase'.Safe w' ∧ ∀ u ∈ others, u.phase.Safe w' ∧ True := by
      intro item answer hphase hjournal hqueue hcalls hphase'
      refine hmarked (by rw [hphase]; rfl) hjournal hqueue hcalls ?_ ?_ ?_ hphase'
      · intro item' outcome' hm
        cases hm
      · intro item' hm
        cases hm
      · rw [commits_snoc]
        exact hw.once _
    cases hsegment with
    | accepted item =>
      refine ⟨hw.quiet rfl rfl ?_, trivial, hquiet rfl⟩
      exact List.forall_mem_append.mpr ⟨hw.queued, List.forall_mem_singleton.mpr ht'⟩
    | back item =>
      refine ⟨hw.quiet rfl rfl ?_, trivial, hquiet rfl⟩
      exact List.forall_mem_append.mpr ⟨hw.queued, List.forall_mem_singleton.mpr ht'⟩
    | took hitem =>
      refine ⟨hw.quiet rfl rfl fun q hq => ?_, ?_, hquiet rfl⟩
      · exact hw.queued q ((List.eraseIdx_sublist _ _).subset hq)
      · exact hw.queued _ (List.mem_of_getElem? hitem)
    | tested htests htested =>
      refine ⟨hw, ?_, hquiet rfl⟩
      cases htested <;> trivial
    | finished hphase =>
      refine ⟨hw.quiet rfl rfl hw.queued, ?_, hquiet rfl⟩
      obtain rfl | ⟨error, rfl⟩ := hphase <;> trivial
    | declined | failed | nothing | idle => exact ⟨hw, trivial, hquiet rfl⟩
    | dropped => exact ⟨hw.quiet rfl rfl hw.queued, trivial, hquiet rfl⟩
    | began item =>
      have hfresh : Fresh item.ticket w.journal := ht'
      refine hmarked rfl rfl rfl rfl ?_ ?_ ?_ ?_
      · intro item' outcome hm
        cases hm
      · intro item' hm
        obtain rfl := Mark.began.inj hm
        exact hfresh.settled
      · rw [commits_snoc, hfresh.none]
        exact Nat.zero_le 1
      · exact hfresh.snoc fun item' outcome hm => by cases hm
    | succeeded item => exact hended .success rfl rfl rfl rfl trivial
    | gaveUp herror => exact hended _ rfl rfl rfl rfl trivial
    | unsure herror hretryable hmore hunknown => exact hended _ rfl rfl rfl rfl trivial
    | @again item outcome error herror hretryable hmore hknown =>
      have hlost : ∀ e committed, outcome = .lost e committed → E e := by
        rintro e committed rfl
        exact hguard.2 e committed rfl
      obtain ⟨e, rfl⟩ := rejected_of_again hblind hlost herror hretryable hmore hknown
      exact hended _ rfl rfl rfl rfl (Fresh.rejected ht' item e)
    | confirmed item => exact hlooked _ rfl rfl rfl rfl trivial
    | unavailable item => exact hlooked _ rfl rfl rfl rfl trivial
    | unanswered item error => exact hlooked _ rfl rfl rfl rfl trivial
    | missing item =>
      -- the answer is true: the mutation is not on the ledger
      have hnone : commits item.ticket w.journal = 0 := by
        have hfound := hguard.1 item false rfl rfl
        refine Nat.eq_zero_of_not_pos fun hpos => ?_
        cases hfound.mpr hpos
      refine hlooked _ rfl rfl rfl rfl ⟨settled_looked rfl, ?_⟩
      show commits item.ticket (w.journal ++ [_]) = 0
      rw [commits_snoc, hnone]
      rfl

omit w w' in
theorem safe_start (now : Nat) : (Worker.start now).Safe where
  cautious := cautious_nil
  once _ := Nat.zero_le 1
  queued item hitem := by cases hitem
  unused k _ := fresh_nil k

/-! ## A blind retry -/

/-- The first attempt of a job. -/
def firstAttempt : List (Event Call Input Nat) :=
  [.call (.enqueue (publication "k")), .resume 0 (.enqueued (.ok ())), .call .processNext,
    .resume 1 .go, .resume 1 (.take (.ok (some 0))), .resume 1 .go]

/-- The first attempt of a job fails after the submission, and the next one begins. -/
def retried (error : Raised) (committed : Bool) : List (Event Call Input Nat) :=
  firstAttempt ++ .resume 1 (.outcome (.lost error committed)) ::
    [.resume 1 (.enqueued (.ok ())), .resume 1 .go, .call .processNext, .resume 2 .go,
      .resume 2 (.take (.ok (some 0))), .resume 2 .go]

omit w w' in
theorem handleFailure_again {w : Worker} {item : QueueItem} {e : Raised} (hblind : Blind writer e)
    (hmore : item.payload.attempts + 1 < maxAttempts) :
    handleFailure maxAttempts w item (normalizeError (writer.surface e)) = (w, .requeueing item) := by
  unfold handleFailure
  rw [if_neg, if_neg]
  · rw [hblind.2]
    exact Bool.false_ne_true
  · rw [hblind.1, Bool.not_true, Bool.false_or, decide_eq_true_eq]
    exact Nat.not_le_of_lt hmore

omit w w' in
variable (maxAttempts writer) in
/-- A submission fails with the error, and the job is executed again. -/
theorem run_retried {e : Raised} (hblind : Blind writer e) (hmany : 1 < maxAttempts)
    (committed : Bool) :
    ∃ c, (ingestionWorker maxAttempts writer).run ⟨.start 0, []⟩ (retried e committed) = some c ∧
      c.shared.journal = [.began (itemOf (publication "k") 0),
        .ended (itemOf (publication "k") 0) (.lost e committed),
        .began (itemOf (publication "k") 0).retry] ∧
      c.tasks[2]? = some ⟨none, .executing (itemOf (publication "k") 0).retry⟩ := by
  let item := itemOf (publication "k") 0
  let w₁ : Worker :=
    { now := 0, processing := true, journal := [.began item], calls := 1, accepted := [0],
      taken := [item] }
  let c₁ : Config Worker Task := ⟨w₁, [⟨none, .enqueued⟩, ⟨none, .executing item⟩]⟩
  have hfirst : (ingestionWorker maxAttempts writer).run ⟨.start 0, []⟩ firstAttempt = some c₁ := rfl
  have hmore : item.payload.attempts + 1 < maxAttempts := PNat.coe_lt_coe _ _ |>.mpr hmany
  have hended : ended maxAttempts writer w₁ item (.lost e committed) =
      (w₁.mark (.ended item (.lost e committed)), .requeueing item) := handleFailure_again hblind hmore
  have hresume : resume maxAttempts writer w₁ ⟨none, .executing item⟩
      (.outcome (.lost e committed)) =
      some (w₁.mark (.ended item (.lost e committed)), ⟨none, .requeueing item⟩) := by
    simp only [resume, hended]
  have hstep : (ingestionWorker maxAttempts writer).step c₁ (.resume 1 (.outcome (.lost e committed))) =
      some ⟨_, c₁.tasks.set 1 ⟨none, .requeueing item⟩⟩ := Machine.step_of_resume rfl hresume
  unfold retried
  refine ⟨_, (Machine.run_append _ hfirst _).trans ((Machine.run_cons _ hstep _).trans rfl), rfl, rfl⟩

/-- The second attempt was not settled before it began. -/
theorem not_cautious {item item' : QueueItem} {outcome : Outcome} {before : List Mark}
    (hsame : item'.ticket = item.ticket) (hmay : outcome.mayHaveCommitted) :
    ¬ Cautious (before ++ [.ended item outcome, .began item']) := by
  intro hcautious
  have hsettled : Settled item'.ticket (before ++ [.ended item outcome]) :=
    hcautious _ item' [] (by rw [List.append_assoc]; rfl)
  obtain ⟨looked, -, hmem⟩ := hsettled before item outcome [] rfl hsame.symm hmay
  cases hmem

omit w w' in
variable (maxAttempts writer) in
theorem meets_retried {e : Raised} (committed : Bool) (he : E e) :
    (ingestionWorker maxAttempts writer).Meets (accurate.and (lostWithin E)) ⟨.start 0, []⟩
      (retried e committed) := by
  refine Machine.meets_of_inputs fun n i hi w t others => ?_
  have hinput : (∀ answer, i ≠ .lookup answer) ∧
      ∀ outcome, i = .outcome outcome → outcome = .lost e committed := by
    simp only [retried, firstAttempt, List.cons_append, List.nil_append, List.mem_cons, reduceCtorEq,
      Event.resume.injEq, List.not_mem_nil, or_false, false_or] at hi
    rcases hi with ⟨-, rfl⟩ | ⟨-, rfl⟩ | ⟨-, rfl⟩ | ⟨-, rfl⟩ | ⟨-, rfl⟩ | ⟨-, rfl⟩ | ⟨-, rfl⟩ |
      ⟨-, rfl⟩ | ⟨-, rfl⟩ | ⟨-, rfl⟩ <;> simp
  constructor
  · intro item found _ hi
    exact absurd hi (hinput.1 _)
  · intro error committed' hi
    obtain ⟨rfl, -⟩ := Outcome.lost.inj (hinput.2 _ hi)
    exact he

/-! ## Every run -/

variable (maxAttempts writer E) in
/-- **No mutation is committed twice**, and none is executed again that may have been committed,
exactly when every error that can follow a submission is final or says that the submission is
unknown, or when there is one attempt only. -/
theorem commitsOnce_iff :
    CommitsOnce maxAttempts writer E ↔ (1 < maxAttempts → ∀ e, E e → ¬ Blind writer e) := by
  constructor
  · intro honce hmany e he hblind
    obtain ⟨c, hrun, hjournal, -⟩ := run_retried maxAttempts writer hblind hmany false
    obtain ⟨hcautious, -⟩ := honce 0 _ c (meets_retried maxAttempts writer false he) hrun
    rw [hjournal] at hcautious
    have hsame : (itemOf (publication "k") 0).retry.ticket = (itemOf (publication "k") 0).ticket := rfl
    have hmay : (Outcome.lost e false).mayHaveCommitted := rfl
    exact @not_cautious _ _ _ [_] hsame hmay hcautious
  · intro hblind now es c hmeets hrun
    have hmodular := ((ticket_modular maxAttempts writer).guarded).extend
      (safe_extends maxAttempts writer hblind)
    have hinit : (Worker.start now).Ticketed ∧ (Worker.start now).Safe :=
      ⟨ticketed_start now, safe_start now⟩
    have hsafe := (hmodular.run (Holds.init hinit) hmeets hrun).shared.2
    exact ⟨hsafe.cautious, hsafe.once⟩

end

/-- A submission times out after the ledger has committed it: the mutation is executed again,
and is committed twice. -/
theorem timeout_commits_twice :
    Blind .mutate (.native "Error" "RPC timeout") ∧
    (∃ c, (ingestionWorker 3 .mutate).Meets (accurate.and (lostWithin fun _ => True)) ⟨.start 0, []⟩
        (retried (.native "Error" "RPC timeout") true ++ [.resume 2 (.outcome .success)]) ∧
      (ingestionWorker 3 .mutate).run ⟨.start 0, []⟩
        (retried (.native "Error" "RPC timeout") true ++ [.resume 2 (.outcome .success)]) = some c ∧
      commits 0 c.shared.journal = 2) ∧
    ¬ CommitsOnce 3 .mutate fun _ => True := by
  have hblind : Blind .mutate (.native "Error" "RPC timeout") := ⟨rfl, rfl⟩
  have hmany : (1 : ℕ+) < 3 := PNat.coe_lt_coe _ _ |>.mp (Nat.le.step Nat.le.refl)
  obtain ⟨c, hrun, hjournal, htask⟩ := run_retried 3 .mutate hblind hmany true
  obtain ⟨d, hlast, htwo⟩ : ∃ d, (ingestionWorker 3 .mutate).run ⟨.start 0, []⟩
      (retried (.native "Error" "RPC timeout") true ++ [.resume 2 (.outcome .success)]) = some d ∧
      commits 0 d.shared.journal = 2 := by
    have hstep := Machine.step_of_resume (M := ingestionWorker 3 .mutate) (i := .outcome .success)
      htask rfl
    refine ⟨_, (Machine.run_append _ hrun _).trans (Machine.run_cons _ hstep []), ?_⟩
    show commits 0 (c.shared.journal ++ [.ended _ .success]) = 2
    rw [hjournal]
    rfl
  have hmeets : (ingestionWorker 3 .mutate).Meets (accurate.and (lostWithin fun _ => True))
      ⟨.start 0, []⟩ (retried (.native "Error" "RPC timeout") true ++
        [.resume 2 (.outcome .success)]) := by
    refine (meets_retried 3 .mutate true trivial).append hrun ?_
    refine Machine.meets_of_inputs fun n i hi w t others => ?_
    obtain ⟨-, rfl⟩ := Event.resume.inj (List.mem_singleton.mp hi)
    exact ⟨fun _ _ _ h => (by cases h), fun _ _ h => (by cases h)⟩
  refine ⟨hblind, ⟨d, hmeets, hlast, htwo⟩, fun honce => ?_⟩
  have hle := (honce 0 _ d hmeets hlast).2 0
  rw [htwo] at hle
  exact absurd hle (Nat.not_succ_le_self 1)

end Ingestion
