-- SUMMARY: The on-chain indexer: cursors into the sorted copy of a thread, and that a client that follows them receives every event once.
import Mathlib.Data.List.Sort
import TwinServer.Base.Base64
import TwinServer.Base.Serial
import TwinServer.Thread.Service

/-!
# Pagination

`findTwinEventsOnChain` of `src/indexer/objectid.ts` serves pages of a sorted copy of the events
of a Twin, which a cache keeps for a while. A cursor is an offset into the events of the copy
that match the request, so a copy that is read again must continue the one before.
-/

open Js

namespace Thread

/-- The copy `after` is the copy `before` with events that sort after all of it. -/
def Continues [Services] (before after : List TwinEvent) : Prop :=
  ∃ extra, after = before ++ extra ∧ ∀ a ∈ before, ∀ b ∈ extra, compareEvents a b < 0

section
variable [Services]

/-- `[...events].sort(compareEvents)`: the sort is stable. -/
def sortEvents (events : List TwinEvent) : List TwinEvent :=
  events.insertionSort fun a b => compareEvents a b ≤ 0

/-! ## Cursors -/

/-- `Buffer.from(String(offset)).toString("base64url")`. -/
def encodeCursor (offset : Nat) : String :=
  .ofList (Base64.encode (offset.repr.toList.map Char.toNat))

omit [Services] in
/-- The text of a cursor. Bytes that are no digits need not be decoded. -/
def cursorText (cursor : String) : String :=
  .ofList ((Base64.decode cursor.toList).map Char.ofNat)

def invalidCursor : AppError :=
  { code := "INDEXER_CURSOR_INVALID", message := "Digital Thread cursor is invalid", status := 400
    category := .VALIDATION }

def cursorOutside : AppError :=
  { code := "INDEXER_CURSOR_INVALID", message := "Digital Thread cursor is outside the result set"
    status := 400, category := .VALIDATION }

def invalidLimit : AppError :=
  { code := "INDEXER_LIMIT_INVALID", message := "Digital Thread limit must be a positive integer"
    status := 400, category := .VALIDATION }

def decodeCursor (cursor : Option String) : Except Thrown Nat :=
  match cursor with
  | none => .ok 0
  | some cursor =>
    if cursor = "" then .ok 0
    else
      let decoded := cursorText cursor
      match (stringToNumber decoded).safeNat? with
      | some offset => if isDigits decoded then .ok offset else .error (.app invalidCursor)
      | none => .error (.app invalidCursor)

omit [Services] in
def normalizedLimit (limit : Option Number) : Except Thrown Nat :=
  match (limit.getD 100).toInt? with
  | some value => if value < 1 then .error (.app invalidLimit) else .ok (min value 500).toNat
  | none => .error (.app invalidLimit)

/-! ## Pages -/

/-- The error for a thread that cannot be read. -/
def readFailed (twinId cause : String) : AppError :=
  { code := "IOTA_EVENT_READ_FAILED"
    message := "Unable to read OIDTwinEvent objects for Twin '" ++ twinId ++ "'"
    status := 503, category := .NETWORK
    details := [("twinId", .string twinId), ("retryable", .bool true), ("cause", .string cause)] }

/-- The copy of the cache, or the events on chain, sorted. -/
def loadEvents (twinId : String) (cached : Option (List TwinEvent))
    (thread : Except String (List TwinEvent)) : Except Thrown (List TwinEvent) :=
  match cached with
  | some events => .ok events
  | none =>
    match thread with
    | .error cause => .error (.app (readFailed twinId cause))
    | .ok events => .ok (sortEvents events)

/-- The page with items that follow `offset` others, of `total`. -/
def pageWith (offset total : Nat) (items : List TwinEvent) : IndexedPage :=
  let hasMore := decide (offset + items.length < total)
  { items
    nextCursor := if hasMore then some (encodeCursor (offset + items.length)) else none
    hasMore
    complete := some true }

def pageOf (events : List TwinEvent) (options : PaginationOptions) : Except Thrown IndexedPage := do
  let filtered := events.filter (matchesOptions · options)
  let offset ← decodeCursor options.cursor
  let limit ← normalizedLimit options.limit
  if offset > filtered.length then .error (.app cursorOutside)
  else .ok (pageWith offset filtered.length ((filtered.drop offset).take limit))

/-- `findTwinEventsOnChain`: the page, and the copy that is written to the cache if there was none. -/
def findTwinEventsOnChain (twinId : String) (cached : Option (List TwinEvent))
    (thread : Except String (List TwinEvent)) (options : PaginationOptions) :
    Except Thrown (List TwinEvent × IndexedPage) := do
  let events ← loadEvents twinId cached thread
  return (events, ← pageOf events options)

/-! ## Round trip of cursors -/

omit [Services] in
theorem cursorText_encodeCursor (n : Nat) : cursorText (encodeCursor n) = n.repr := by
  have hbyte : ∀ b ∈ n.repr.toList.map Char.toNat, b < 256 := by
    intro b hb
    obtain ⟨c, hc, rfl⟩ := List.mem_map.mp hb
    have hdigit := isDigit_of_mem_repr hc
    simp only [Char.isDigit, Bool.and_eq_true, decide_eq_true_eq, UInt32.le_iff_toNat_le] at hdigit
    exact Nat.lt_of_le_of_lt hdigit.2 (by decide)
  unfold cursorText encodeCursor
  rw [String.toList_ofList, Base64.decode_encode hbyte, List.map_map]
  have hid : (Char.ofNat ∘ Char.toNat) = id := by
    funext c
    exact Char.ofNat_toNat c
  rw [hid, List.map_id, String.ofList_toList]

omit [Services] in
theorem isDigits_repr (n : Nat) : isDigits n.repr := by
  unfold isDigits
  rw [Bool.and_eq_true, List.all_eq_true, Bool.not_eq_true', List.isEmpty_eq_false_iff]
  refine ⟨?_, fun c hc => isDigit_of_mem_repr hc⟩
  rw [Nat.toList_repr]
  exact Nat.toDigits_ne_nil

omit [Services] in
theorem digitsToNat_repr (n : Nat) : digitsToNat n.repr = n := by
  have hrepr : n.repr = .ofList (Nat.toDigits 10 n) := by
    rw [← Nat.toList_repr, String.ofList_toList]
  rw [hrepr, digitsToNat_toDigits]

omit [Services] in
theorem encodeCursor_ne_empty (n : Nat) : encodeCursor n ≠ "" := by
  intro h
  have htext := cursorText_encodeCursor n
  rw [h] at htext
  have hdigits := isDigits_repr n
  rw [← htext] at hdigits
  cases hdigits

theorem decodeCursor_encodeCursor {n : Nat} (h : n ≤ Number.maxSafe) :
    decodeCursor (some (encodeCursor n)) = .ok n := by
  have hnumber : (stringToNumber n.repr).safeNat? = some n := by
    rw [Runtime.stringToNumber_digits _ (isDigits_repr n), digitsToNat_repr, if_pos h]
  unfold decodeCursor
  simp only [encodeCursor_ne_empty, if_false, cursorText_encodeCursor, hnumber, isDigits_repr, if_true]

/-! ## Copies that continue one another -/

theorem Continues.refl (copy : List TwinEvent) : Continues copy copy :=
  ⟨[], (List.append_nil copy).symm, fun _ _ _ hb => absurd hb List.not_mem_nil⟩

theorem Continues.nil (copy : List TwinEvent) : Continues [] copy :=
  ⟨copy, rfl, fun _ ha => absurd ha List.not_mem_nil⟩

theorem Continues.trans {a b c : List TwinEvent} (hab : Continues a b) (hbc : Continues b c) :
    Continues a c := by
  obtain ⟨extra, rfl, hextra⟩ := hab
  obtain ⟨extra', rfl, hextra'⟩ := hbc
  refine ⟨extra ++ extra', List.append_assoc _ _ _, fun x hx y hy => ?_⟩
  rcases List.mem_append.mp hy with hy | hy
  · exact hextra x hx y hy
  · exact hextra' x (List.mem_append_left _ hx) y hy

theorem Continues.filter {before after : List TwinEvent} (h : Continues before after)
    (p : TwinEvent → Bool) : Continues (before.filter p) (after.filter p) := by
  obtain ⟨extra, rfl, hextra⟩ := h
  refine ⟨extra.filter p, List.filter_append _ _, fun a ha b hb => ?_⟩
  exact hextra a (List.mem_filter.mp ha).1 b (List.mem_filter.mp hb).1

theorem Continues.isPrefixOf {before after : List TwinEvent} (h : Continues before after) :
    before <+: after := by
  obtain ⟨extra, rfl, -⟩ := h
  exact List.prefix_append _ _

/-- The order of `compareEvents`. -/
abbrev Before (a b : TwinEvent) : Prop := compareEvents a b ≤ 0

theorem before_total (a b : TwinEvent) : Before a b ∨ Before b a := by
  have hswap := compareEvents_swap b a
  unfold Before
  omega

instance : Std.Total (fun a b : TwinEvent => compareEvents a b ≤ 0) := ⟨before_total⟩

instance : IsTrans TwinEvent (fun a b => compareEvents a b ≤ 0) :=
  ⟨fun _ _ _ => compareEvents_trans⟩

theorem sortEvents_pairwise (events : List TwinEvent) : (sortEvents events).Pairwise Before :=
  List.pairwise_insertionSort _ events

theorem length_sortEvents (events : List TwinEvent) : (sortEvents events).length = events.length :=
  List.length_insertionSort _ events

/-! ## A client -/

/-- What is on chain and in the cache, and a client: its cursor, what it has received, what matched
its request at each page, and whether it was told that there is no more. -/
structure Paging where
  chain : List TwinEvent
  cache : Option (List TwinEvent) := none
  cursor : Option String := none
  received : List TwinEvent := []
  served : List (List TwinEvent) := []
  finished : Bool := false

inductive PagingEvent where
  /-- the cached copy expires, or cannot be read -/
  | expire
  /-- other events are on chain -/
  | extend (chain : List TwinEvent)
  /-- the client asks for the next page; the copy may not be stored -/
  | request (stored : Bool)

variable (twinId : String) (o : PaginationOptions)

/-- The client has received a page of a copy. -/
def Paging.after (s : Paging) (events : List TwinEvent) (page : IndexedPage) (stored : Bool) : Paging :=
  { s with
    cache := if stored then some events else s.cache
    cursor := page.nextCursor
    received := s.received ++ page.items
    served := s.served ++ [events.filter (matchesOptions · o)]
    finished := !page.hasMore }

@[local grind] def Paging.step (s : Paging) : PagingEvent → Except Thrown Paging
  | .expire => .ok { s with cache := none }
  | .extend chain => .ok { s with chain }
  | .request stored =>
    if s.finished then .ok s
    else do
      let (events, page) ←
        findTwinEventsOnChain twinId s.cache (.ok s.chain) { o with cursor := s.cursor }
      return s.after o events page stored

def Paging.run (s : Paging) (es : List PagingEvent) : Except Thrown Paging :=
  es.foldlM (Paging.step twinId o) s

/-- Whenever other events are on chain, their sorted copy continues the one of those before. An
array has fewer than `2 ** 32` elements. -/
def Paging.Meets (s : Paging) : List PagingEvent → Prop
  | [] => True
  | e :: es =>
    (∀ chain, e = .extend chain →
      Continues (sortEvents s.chain) (sortEvents chain) ∧ chain.length < 2 ^ 32) ∧
    ∀ s', s.step twinId o e = .ok s' → s'.Meets es

variable {twinId o} in
theorem Paging.Meets.cons {s s' : Paging} {e : PagingEvent} {es : List PagingEvent}
    (he : ∀ chain, e = .extend chain →
      Continues (sortEvents s.chain) (sortEvents chain) ∧ chain.length < 2 ^ 32)
    (hstep : s.step twinId o e = .ok s') (hes : s'.Meets twinId o es) : s.Meets twinId o (e :: es) := by
  refine ⟨he, fun s₁ hs₁ => ?_⟩
  obtain rfl := Except.ok.inj (hstep.symm.trans hs₁)
  exact hes

/-- A client without a cursor; a copy in the cache is continued by what is on chain. -/
structure Paging.Start (s : Paging) : Prop where
  cursor : s.cursor = none
  received : s.received = []
  served : s.served = []
  unfinished : s.finished = false
  small : s.chain.length < 2 ^ 32
  cache : ∀ copy, s.cache = some copy → Continues copy (sortEvents s.chain)

/-- The client has received the start of what matches in the copy it was served last. -/
structure Paging.Backed (s : Paging) (copy : List TwinEvent) : Prop where
  small : s.chain.length < 2 ^ 32
  chain : Continues copy (sortEvents s.chain)
  cache : ∀ cached, s.cache = some cached → Continues copy cached ∧ Continues cached (sortEvents s.chain)
  received : s.received <+: copy.filter (matchesOptions · o)
  served : ∀ l ∈ s.served, Continues l (copy.filter (matchesOptions · o))
  last : ∀ l, s.served.getLast? = some l → l = copy.filter (matchesOptions · o)
  cursor : s.finished = false → decodeCursor s.cursor = .ok s.received.length
  finished : s.finished = true → s.received = copy.filter (matchesOptions · o) ∧ s.served ≠ []

variable {twinId o} {s s' : Paging} {copy : List TwinEvent}

theorem Paging.Start.backed (h : s.Start) : s.Backed o [] where
  small := h.small
  chain := Continues.nil _
  cache cached hcached := ⟨Continues.nil _, h.cache cached hcached⟩
  received := by rw [h.received]; exact List.prefix_rfl
  served l hl := by rw [h.served] at hl; cases hl
  last l hl := by rw [h.served] at hl; cases hl
  cursor _ := by rw [h.cursor, h.received]; rfl
  finished hfinished := by rw [h.unfinished] at hfinished; cases hfinished

theorem Paging.Backed.expire (h : s.Backed o copy) : { s with cache := none }.Backed o copy :=
  { h with cache := fun _ hnone => by cases hnone }

theorem Paging.Backed.extend (h : s.Backed o copy) {chain : List TwinEvent}
    (hchain : Continues (sortEvents s.chain) (sortEvents chain)) (hsmall : chain.length < 2 ^ 32) :
    { s with chain }.Backed o copy :=
  { h with
    small := hsmall
    chain := h.chain.trans hchain
    cache := fun cached hcached => ⟨(h.cache cached hcached).1, (h.cache cached hcached).2.trans hchain⟩ }

/-- The copy a request is served from. -/
theorem Paging.Backed.load (h : s.Backed o copy) (twinId : String) :
    ∃ events, loadEvents twinId s.cache (.ok s.chain) = .ok events ∧ Continues copy events ∧
      Continues events (sortEvents s.chain) ∧ ∀ (stored : Bool) cached,
        (if stored then some events else s.cache) = some cached → cached = events := by
  cases hcache : s.cache with
  | none =>
    refine ⟨sortEvents s.chain, rfl, h.chain, Continues.refl _, fun stored cached hcached => ?_⟩
    cases stored with
    | true => exact (Option.some.inj hcached).symm
    | false => cases hcached
  | some events =>
    obtain ⟨hbefore, hafter⟩ := h.cache events hcache
    refine ⟨events, rfl, hbefore, hafter, fun stored cached hcached => ?_⟩
    cases stored <;> exact (Option.some.inj hcached).symm

/-- What a request for the page after the events received returns. -/
theorem pageOf_received {events received : List TwinEvent} {cursor : Option String} {limit : Nat}
    (hcursor : decodeCursor cursor = .ok received.length) (hlimit : normalizedLimit o.limit = .ok limit)
    (hreceived : received <+: events.filter (matchesOptions · o)) :
    ∃ items, pageOf events { o with cursor } =
        .ok (pageWith received.length (events.filter (matchesOptions · o)).length items) ∧
      received ++ items <+: events.filter (matchesOptions · o) ∧
      (received.length + items.length < (events.filter (matchesOptions · o)).length →
        items.length = limit) := by
  have hfilter : events.filter (matchesOptions · { o with cursor }) =
      events.filter (matchesOptions · o) := rfl
  obtain ⟨rest, hrest⟩ := hreceived
  refine ⟨rest.take limit, ?_, ?_, ?_⟩
  · unfold pageOf
    rw [hfilter, ← hrest]
    simp only [hcursor, hlimit, bind, Except.bind]
    rw [if_neg (by simp), List.drop_left]
  · rw [← hrest]
    exact (List.prefix_append_right_inj _).mpr (List.take_prefix _ _)
  · rw [← hrest, List.length_append, List.length_take]
    omega

variable (twinId) in
/-- **One request**: it does not fail, the client has received the start of what matches now, and
more than before unless it is told that there is no more. -/
theorem Paging.Backed.request (h : s.Backed o copy) {limit : Nat}
    (hlimit : normalizedLimit o.limit = .ok limit) (hpos : 0 < limit) (stored : Bool)
    (hgoing : s.finished = false) :
    ∃ s' events, s.step twinId o (.request stored) = .ok s' ∧ s'.Backed o events ∧
      s'.chain = s.chain ∧ (s'.finished = false → s.received.length < s'.received.length ∧
        s'.received.length < (events.filter (matchesOptions · o)).length) := by
  obtain ⟨events, hload, hbefore, hafter, hcache⟩ := h.load twinId
  have hfiltered := hbefore.filter (matchesOptions · o)
  have hreceived := h.received.trans hfiltered.isPrefixOf
  obtain ⟨items, hpage, hstart, hfull⟩ := pageOf_received (h.cursor hgoing) hlimit hreceived
  have hsmall : (events.filter (matchesOptions · o)).length ≤ Number.maxSafe := by
    have hlength := hafter.isPrefixOf.length_le
    rw [length_sortEvents] at hlength
    have hfilter := List.length_filter_le (matchesOptions · o) events
    have hbig : 2 ^ 32 ≤ Number.maxSafe := by decide
    have := h.small
    omega
  have hbound := hstart.length_le
  rw [List.length_append] at hbound
  have hstep : s.step twinId o (.request stored) = .ok (s.after o events
      (pageWith s.received.length (events.filter (matchesOptions · o)).length items) stored) := by
    unfold Paging.step
    rw [hgoing]
    simp only [findTwinEventsOnChain, hload, hpage, bind, Except.bind, pure, Except.pure,
      Bool.false_eq_true, if_false]
  refine ⟨_, events, hstep, ⟨h.small, hafter, ?_, hstart, ?_, ?_, ?_, ?_⟩, rfl, ?_⟩
  · intro cached hcached
    obtain rfl := hcache stored cached hcached
    exact ⟨Continues.refl _, hafter⟩
  · intro l hl
    rcases List.mem_append.mp hl with hl | hl
    · exact (h.served l hl).trans hfiltered
    · rw [List.mem_singleton.mp hl]
      exact Continues.refl _
  · intro l hl
    rw [Paging.after, List.getLast?_concat] at hl
    exact (Option.some.inj hl).symm
  · intro hmore
    have hlt : s.received.length + items.length < (events.filter (matchesOptions · o)).length := by
      simpa [Paging.after, pageWith] using hmore
    simp only [Paging.after, pageWith, hlt, decide_true, if_true, List.length_append]
    exact decodeCursor_encodeCursor (Nat.le_trans hbound hsmall)
  · intro hend
    have hle : (events.filter (matchesOptions · o)).length ≤ s.received.length + items.length := by
      simpa [Paging.after, pageWith] using hend
    refine ⟨hstart.eq_of_length_le ?_, by simp [Paging.after]⟩
    rw [List.length_append]
    exact hle
  · intro hmore
    have hlt : s.received.length + items.length < (events.filter (matchesOptions · o)).length := by
      simpa [Paging.after, pageWith] using hmore
    have hitems := hfull hlt
    simp only [Paging.after, pageWith, List.length_append]
    omega

/-! ## Every run -/

theorem Paging.Backed.step (h : s.Backed o copy) {limit : Nat}
    (hlimit : normalizedLimit o.limit = .ok limit) (hpos : 0 < limit) (e : PagingEvent)
    (he : ∀ chain, e = .extend chain →
      Continues (sortEvents s.chain) (sortEvents chain) ∧ chain.length < 2 ^ 32) :
    ∃ s' copy', s.step twinId o e = .ok s' ∧ s'.Backed o copy' := by
  cases e with
  | expire => exact ⟨_, copy, rfl, h.expire⟩
  | extend chain =>
    obtain ⟨hchain, hsmall⟩ := he chain rfl
    exact ⟨_, copy, rfl, h.extend hchain hsmall⟩
  | request stored =>
    cases hend : s.finished with
    | true =>
      refine ⟨s, copy, ?_, h⟩
      unfold Paging.step
      rw [hend]
      rfl
    | false =>
      obtain ⟨s', events, hstep, hbacked, -⟩ := h.request twinId hlimit hpos stored hend
      exact ⟨s', events, hstep, hbacked⟩

/-- No run fails, and the client always has the start of what matches. -/
theorem Paging.Backed.run (h : s.Backed o copy) {limit : Nat}
    (hlimit : normalizedLimit o.limit = .ok limit) (hpos : 0 < limit) {es : List PagingEvent}
    (hes : s.Meets twinId o es) :
    ∃ s' copy', s.run twinId o es = .ok s' ∧ s'.Backed o copy' := by
  induction es generalizing s copy with
  | nil => exact ⟨s, copy, rfl, h⟩
  | cons e es ih =>
      obtain ⟨he, hes⟩ := hes
      obtain ⟨s₁, copy₁, hstep, hbacked⟩ := h.step hlimit hpos e he
      obtain ⟨s', copy', hrun, hbacked'⟩ := ih hbacked (hes s₁ hstep)
      refine ⟨s', copy', ?_, hbacked'⟩
      unfold Paging.run
      rw [List.foldlM_cons, hstep]
      exact hrun

omit [Services] in
/-- The requests of a run. -/
def requests (es : List PagingEvent) : Nat :=
  es.countP fun e => match e with
    | .request _ => true
    | _ => false

theorem Paging.run_finished (hend : s.finished = true) {es : List PagingEvent} :
    ∃ s', s.run twinId o es = .ok s' ∧ s'.finished = true := by
  induction es generalizing s with
  | nil => exact ⟨s, rfl, hend⟩
  | cons e es ih =>
      have hstep : ∃ s₁, s.step twinId o e = .ok s₁ ∧ s₁.finished = true := by
        cases e with
        | expire => exact ⟨_, rfl, hend⟩
        | extend chain => exact ⟨_, rfl, hend⟩
        | request stored =>
          refine ⟨s, ?_, hend⟩
          unfold Paging.step
          rw [hend]
          rfl
      obtain ⟨s₁, hstep, hend₁⟩ := hstep
      obtain ⟨s', hrun, hend'⟩ := ih hend₁
      refine ⟨s', ?_, hend'⟩
      unfold Paging.run
      rw [List.foldlM_cons, hstep]
      exact hrun

/-- Without further events on chain a client stops after as many requests as there are events. -/
theorem Paging.Backed.stops (h : s.Backed o copy) {limit : Nat}
    (hlimit : normalizedLimit o.limit = .ok limit) (hpos : 0 < limit) {es : List PagingEvent}
    (hes : ∀ chain, .extend chain ∉ es) (hmany : s.chain.length < s.received.length + requests es) :
    ∃ s', s.run twinId o es = .ok s' ∧ s'.finished = true := by
  induction es generalizing s copy with
  | nil =>
      have hlength := (h.received.trans (h.chain.filter _).isPrefixOf).length_le
      have hfilter := List.length_filter_le (matchesOptions · o) (sortEvents s.chain)
      rw [length_sortEvents] at hfilter
      have : requests [] = 0 := rfl
      omega
  | cons e es ih =>
      have hes' : ∀ chain, .extend chain ∉ es := fun chain hc => hes chain (List.mem_cons_of_mem _ hc)
      cases e with
      | expire =>
        obtain ⟨s', hrun, hend⟩ := ih h.expire hes' hmany
        exact ⟨s', hrun, hend⟩
      | extend chain => exact absurd List.mem_cons_self (hes chain)
      | request stored =>
        cases hend : s.finished with
        | true => exact Paging.run_finished hend
        | false =>
          obtain ⟨s₁, events, hstep, hbacked, hchain, hprogress⟩ :=
            h.request twinId hlimit hpos stored hend
          have hrun : s.run twinId o (.request stored :: es) = s₁.run twinId o es := by
            unfold Paging.run
            rw [List.foldlM_cons, hstep]
            rfl
          rw [hrun]
          cases hend₁ : s₁.finished with
          | true => exact Paging.run_finished hend₁
          | false =>
            refine ih hbacked hes' ?_
            have hcount : requests (.request stored :: es) = requests es + 1 :=
              List.countP_cons_of_pos rfl
            have := (hprogress hend₁).1
            rw [hchain]
            omega

omit [Services] in
theorem normalizedLimit_ok {limit : Option Number} (h : ∀ n, limit = some n → ∃ k : Nat, 1 ≤ k ∧ n = k) :
    ∃ value, normalizedLimit limit = .ok value ∧ 0 < value := by
  obtain ⟨k, hk, hlimit⟩ : ∃ k : Nat, 1 ≤ k ∧ limit.getD 100 = k := by
    cases limit with
    | none => exact ⟨100, by decide, rfl⟩
    | some n => exact h n rfl
  refine ⟨(min (k : Int) 500).toNat, ?_, by omega⟩
  unfold normalizedLimit
  rw [hlimit, show ((k : Number)).toInt? = some (k : Int) from Number.toInt?_ofInt k]
  exact if_neg (by omega)

/-- Events that are read again in any order, with others after all of them, are sorted into a copy that
continues the one before, provided that no two different events compare as equal. -/
theorem continues_sortEvents {chain chain' extra : List TwinEvent} (hperm : chain'.Perm (chain ++ extra))
    (hextra : ∀ a ∈ chain, ∀ b ∈ extra, compareEvents a b < 0)
    (hequal : ∀ a ∈ chain', ∀ b ∈ chain', compareEvents a b = 0 → a = b) :
    Continues (sortEvents chain) (sortEvents chain') := by
  have hmem {events : List TwinEvent} {a : TwinEvent} : a ∈ sortEvents events ↔ a ∈ events :=
    List.mem_insertionSort _
  refine ⟨sortEvents extra, ?_, fun a ha b hb => hextra a (hmem.mp ha) b (hmem.mp hb)⟩
  have hsorted : (sortEvents chain ++ sortEvents extra).Pairwise Before := by
    refine List.pairwise_append.mpr ⟨sortEvents_pairwise _, sortEvents_pairwise _, fun a ha b hb => ?_⟩
    exact Int.le_of_lt (hextra a (hmem.mp ha) b (hmem.mp hb))
  have hsame : (sortEvents chain').Perm (sortEvents chain ++ sortEvents extra) :=
    ((List.perm_insertionSort _ chain').trans hperm).trans
      ((List.perm_insertionSort _ chain).append (List.perm_insertionSort _ extra)).symm
  refine hsame.eq_of_pairwise (fun a b ha hb hab hba => ?_) (sortEvents_pairwise chain') hsorted
  have hswap := compareEvents_swap a b
  unfold Before at hab hba
  exact hequal a (hmem.mp ha) b (hmem.mp (hsame.symm.subset hb)) (by omega)

/-- **Every event once**: a client that starts without a cursor and follows the cursors it gets never
fails; when it is told that there is no more it has received, in order, the events that matched at
the first page and then those that came later, as they match at the last page; and without further
events on chain it comes to an end. -/
theorem findTwinEventsOnChain_exactly_once (twinId : String) (o : PaginationOptions)
    (hlimit : ∀ n, o.limit = some n → ∃ k : Nat, 1 ≤ k ∧ n = k) (start : Paging) (hstart : start.Start)
    (es : List PagingEvent) (hes : start.Meets twinId o es) :
    ∃ s, start.run twinId o es = .ok s ∧
      (s.finished = true → ∃ first later, s.served.head? = some first ∧
        s.served.getLast? = some s.received ∧ s.received = first ++ later ∧
        (∀ a ∈ first, ∀ b ∈ later, compareEvents a b < 0) ∧ s.received.Pairwise Before) ∧
      ∀ es', (∀ chain, .extend chain ∉ es') → s.chain.length < requests es' →
        ∃ s', s.run twinId o es' = .ok s' ∧ s'.finished = true := by
  obtain ⟨limit, hvalue, hpos⟩ := normalizedLimit_ok hlimit
  obtain ⟨s, copy, hrun, hbacked⟩ := hstart.backed.run hvalue hpos hes
  refine ⟨s, hrun, fun hend => ?_, fun es' hes' hmany => ?_⟩
  · obtain ⟨hall, hne⟩ := hbacked.finished hend
    obtain ⟨first, hfirst⟩ : ∃ first, s.served.head? = some first := ⟨_, List.head?_eq_some_head hne⟩
    obtain ⟨later, heq, hlater⟩ := hbacked.served first (List.mem_of_head? hfirst)
    obtain ⟨last, hlast⟩ : ∃ last, s.served.getLast? = some last :=
      ⟨_, List.getLast?_eq_some_getLast hne⟩
    refine ⟨first, later, hfirst, ?_, hall.trans heq, hlater, ?_⟩
    · rw [hlast, hbacked.last last hlast, hall]
    · rw [hall]
      have hsorted := sortEvents_pairwise s.chain
      exact (hsorted.sublist hbacked.chain.isPrefixOf.sublist).filter _
  · exact hbacked.stops hvalue hpos hes' (Nat.lt_of_lt_of_le hmany (Nat.le_add_left _ _))

end

/-- Two events on chain. -/
def samplePaging : Paging where
  chain := [sampleEvent 2, sampleEvent 1]

/-- A third event after the first page. -/
def sampleRun : List PagingEvent :=
  [.request true, .expire, .extend [sampleEvent 3, sampleEvent 1, sampleEvent 2], .request true,
    .request false]

theorem samplePaging_start : @Paging.Start Services.plain samplePaging :=
  @Paging.Start.mk Services.plain _ rfl rfl rfl rfl (by decide) fun _ hnone => by cases hnone

theorem samplePaging_meets :
    @Paging.Meets Services.plain "0x1" { limit := some 1 } samplePaging sampleRun := by
  have hcontinues : @Continues Services.plain
      (@sortEvents Services.plain [sampleEvent 2, sampleEvent 1])
      (@sortEvents Services.plain [sampleEvent 3, sampleEvent 1, sampleEvent 2]) :=
    ⟨[sampleEvent 3], by decide, by decide⟩
  refine @Paging.Meets.cons Services.plain _ _ _ _ _ _ (fun _ h => by cases h) rfl ?_
  refine @Paging.Meets.cons Services.plain _ _ _ _ _ _ (fun _ h => by cases h) rfl ?_
  refine @Paging.Meets.cons Services.plain _ _ _ _ _ _ (fun chain h => ?_) rfl ?_
  · obtain rfl := PagingEvent.extend.inj h
    exact ⟨hcontinues, by decide⟩
  refine @Paging.Meets.cons Services.plain _ _ _ _ _ _ (fun _ h => by cases h) rfl ?_
  exact @Paging.Meets.cons Services.plain _ _ _ _ _ _ (fun _ h => by cases h) rfl trivial

theorem findTwinEventsOnChain_exactly_once_extended :
    ∃ s, @Paging.run Services.plain "0x1" { limit := some 1 } samplePaging sampleRun = .ok s ∧
      s.received = [sampleEvent 1, sampleEvent 2, sampleEvent 3] ∧
      s.received.Pairwise (@Before Services.plain) := by
  obtain ⟨s, hrun, hall, -⟩ := @findTwinEventsOnChain_exactly_once Services.plain "0x1"
    { limit := some 1 } (fun n hn => ⟨1, Nat.le_refl 1, (Option.some.inj hn).symm⟩) samplePaging
    samplePaging_start sampleRun samplePaging_meets
  obtain rfl := Except.ok.inj (hrun.symm.trans (show _ = Except.ok _ from rfl))
  obtain ⟨first, later, -, -, -, -, hsorted⟩ := hall rfl
  exact ⟨_, hrun, rfl, hsorted⟩

end Thread
