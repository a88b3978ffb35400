-- SUMMARY: `verifyDigitalThread` over an arbitrary indexer, and when a full thread is valid.
import TwinServer.Thread.Verifier

/-!
# Verification of a thread

`verifyDigitalThread` of `src/thread/service.ts` asks an indexer for pages until one says
that there is no more. An indexer is arbitrary: its answer to a request may depend on the
number of the requests before, so it may deliver anything, fail, or never come to an end.
-/

open Js

namespace Thread

structure IndexedPage where
  items : List TwinEvent
  nextCursor : Option String := none
  hasMore : Bool
  complete : Option Bool := none
  reason : Option String := none

structure TwinIndexer where
  /-- The answer to a request, given how many there were before. -/
  findTwinEvents : Nat → String → PaginationOptions → Except Thrown IndexedPage
  transactionExists : Option TransactionCheck := none

/-- The options of a request for the page at a cursor. -/
def PaginationOptions.page (o : PaginationOptions) (cursor : Option String) : PaginationOptions :=
  { o with cursor, limit := some (o.limit.getD 100) }

/-- A cursor that was not returned before. -/
def freshCursor (seenCursors : List String) (nextCursor : Option String) : Option String :=
  nextCursor.filter fun cursor => cursor != "" && !seenCursors.contains cursor

section
variable (indexer : TwinIndexer) (twinId : String) (options : PaginationOptions)

/-! ## What an indexer delivers -/

/-- The pages an indexer delivers from a request on, and whether they are the whole of what was
asked for: it ends with a page without more, or breaks off with a page that is not complete or
has more but no new cursor. -/
inductive Delivers : Nat → Option String → List String → List IndexedPage → Bool → Prop
  | last {requests cursor seen page}
    (hpage : indexer.findTwinEvents requests twinId (options.page cursor) = .ok page)
    (hcomplete : page.complete ≠ some false) (hmore : page.hasMore = false) :
    Delivers requests cursor seen [page] true
  | incomplete {requests cursor seen page}
    (hpage : indexer.findTwinEvents requests twinId (options.page cursor) = .ok page)
    (hcomplete : page.complete = some false) : Delivers requests cursor seen [page] false
  | stale {requests cursor seen page}
    (hpage : indexer.findTwinEvents requests twinId (options.page cursor) = .ok page)
    (hcomplete : page.complete ≠ some false) (hmore : page.hasMore = true)
    (hcursor : freshCursor seen page.nextCursor = none) : Delivers requests cursor seen [page] false
  | more {requests cursor seen page next pages whole}
    (hpage : indexer.findTwinEvents requests twinId (options.page cursor) = .ok page)
    (hcomplete : page.complete ≠ some false) (hmore : page.hasMore = true)
    (hcursor : freshCursor seen page.nextCursor = some next)
    (hrest : Delivers (requests + 1) (some next) (seen ++ [next]) pages whole) :
    Delivers requests cursor seen (page :: pages) whole

end

/-! ## The loop -/

section
variable [Services] (indexer : TwinIndexer) (twinId : String) (options : PaginationOptions)

/-- The loop of `verifyDigitalThread`, for a number of requests at most. -/
def verifyPages (fuel requests : Nat) (cursor : Option String) (seenCursors : List String)
    (verifier : IncrementalThreadVerifier) : Option (Except Thrown ThreadVerification) :=
  match fuel with
  | 0 => none
  | fuel + 1 =>
    match indexer.findTwinEvents requests twinId (options.page cursor) with
    | .error error => some (.error error)
    | .ok page =>
      let verifier := verifier.appendPage indexer.transactionExists page.items
      if page.complete = some false then some (.ok (verifier.finish false page.reason))
      else if !page.hasMore then some (.ok (verifier.finish true))
      else match freshCursor seenCursors page.nextCursor with
        | none =>
          some (.ok (verifier.finish false (some "Indexer returned hasMore without a new cursor")))
        | some next => verifyPages fuel (requests + 1) (some next) (seenCursors ++ [next]) verifier

def verifyDigitalThread (fuel : Nat) : Option (Except Thrown ThreadVerification) :=
  verifyPages indexer twinId options fuel 0 options.cursor [] { twinId, options }

variable {indexer twinId options}

/-- The loop appends the pages delivered and finishes. -/
theorem verifyPages_of_delivers {requests : Nat} {cursor : Option String} {seen : List String}
    {pages : List IndexedPage} {whole : Bool}
    (h : Delivers indexer twinId options requests cursor seen pages whole) {fuel : Nat}
    (hfuel : pages.length ≤ fuel) (v : IncrementalThreadVerifier) :
    ∃ reason, verifyPages indexer twinId options fuel requests cursor seen v =
      some (.ok (((pages.map IndexedPage.items).foldl
        (IncrementalThreadVerifier.appendPage indexer.transactionExists) v).finish whole reason)) := by
  induction h generalizing fuel v with
  | last hpage hcomplete hmore =>
      obtain ⟨fuel, rfl⟩ := Nat.exists_eq_add_one.mpr hfuel
      refine ⟨none, ?_⟩
      rw [verifyPages, hpage]
      simp [hcomplete, hmore]
  | @incomplete requests cursor seen page hpage hcomplete =>
      obtain ⟨fuel, rfl⟩ := Nat.exists_eq_add_one.mpr hfuel
      refine ⟨page.reason, ?_⟩
      rw [verifyPages, hpage]
      simp [hcomplete]
  | stale hpage hcomplete hmore hcursor =>
      obtain ⟨fuel, rfl⟩ := Nat.exists_eq_add_one.mpr hfuel
      refine ⟨some "Indexer returned hasMore without a new cursor", ?_⟩
      rw [verifyPages, hpage]
      simp only [hcomplete, hmore, hcursor, if_false, Bool.not_true, Bool.false_eq_true]
      rfl
  | @more requests cursor seen page next pages whole hpage hcomplete hmore hcursor hrest ih =>
      obtain ⟨fuel, rfl⟩ := Nat.exists_eq_add_one.mpr (Nat.lt_of_lt_of_le (Nat.succ_pos _) hfuel)
      obtain ⟨reason, hreason⟩ := ih (Nat.le_of_succ_le_succ hfuel)
        (v.appendPage indexer.transactionExists page.items)
      refine ⟨reason, ?_⟩
      rw [verifyPages, hpage]
      simp only [hcomplete, hmore, hcursor, if_false, Bool.not_true, Bool.false_eq_true]
      exact hreason

end

end Thread
