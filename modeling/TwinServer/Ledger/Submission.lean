-- SUMMARY: When an operation submits its transaction to more than one gas station, and when an earlier submission may have taken effect.
import TwinServer.Ledger.Sponsored

/-!
# Submissions

A station that rejects a submission has not executed it. After any other answer the
transaction may have taken effect, so a further station must not be asked. What an
attempt comes to is read off its exchange, and the loop over the stations goes on after
three of the five fates.
-/

open Js Js.Json

namespace Ledger

def Post.submits (p : Post) : Bool := p.path == "/v1/execute_tx"

def submissions (posts : List Post) : List Post := posts.filter Post.submits

/-- Every submission but the last was rejected. -/
def SubmittedOnce (posts : List Post) : Prop :=
  (submissions posts).Pairwise fun earlier _ => earlier.answer.Rejects

theorem submissions_append (posts posts' : List Post) :
    submissions (posts ++ posts') = submissions posts ++ submissions posts' :=
  List.filter_append ..

section
variable [Runtime] (executor : Executor) (operation : String)

/-! ## What an attempt comes to -/

inductive Fate where
  /-- It fails before the submission, and the next station is tried. -/
  | unsent
  /-- It fails before the submission, and the operation fails with it. -/
  | halted
  /-- The submission is rejected, and the next station is tried. -/
  | refused
  /-- The submission is answered without a digest, and the next station is tried. -/
  | silent
  /-- The submission decides the operation. -/
  | settled
  deriving DecidableEq

/-- Everything before the submission. -/
def Exchange.prepared (x : Exchange) : Except Raised (GasReservation × Signed) := do
  x.transaction
  prepare executor x

def Exchange.fate (x : Exchange) : Fate :=
  match x.prepared executor with
  | .error error => if isDefinitiveOrAmbiguousSubmission error then .halted else .unsent
  | .ok _ =>
    match readAnswer executor.parseJson x.submit with
    | .error error =>
      if Number.le 400 (stationStatus error) && (stationStatus error).lt 500 then .refused
      else .settled
    | .ok execution =>
      match transactionDigest execution with
      | .error _ => .silent
      | .ok _ => .settled

/-- The loop goes on without a submission that may have taken effect. -/
def Fate.safe (f : Fate) : Prop := f = .unsent ∨ f = .refused

/-- The transaction was submitted. -/
def Fate.sent (f : Fate) : Prop := f = .refused ∨ f = .silent ∨ f = .settled

/-- What an attempt has sent and how it ends, by its fate. -/
inductive Attempt : Fate → List Post × Except Raised TransactionResponse → Prop
  | unsent {posts : List Post} {error : Raised} (hposts : submissions posts = [])
      (herror : isDefinitiveOrAmbiguousSubmission error = false) :
      Attempt .unsent (posts, .error error)
  | halted {posts : List Post} {error : Raised} (hposts : submissions posts = [])
      (herror : isDefinitiveOrAmbiguousSubmission error = true) :
      Attempt .halted (posts, .error error)
  | refused {posts : List Post} {post : Post} {error : Raised}
      (hposts : submissions posts = [post]) (hanswer : post.answer.Rejects)
      (herror : isDefinitiveOrAmbiguousSubmission error = false) :
      Attempt .refused (posts, .error error)
  | silent {posts : List Post} {post : Post} {error : Raised}
      (hposts : submissions posts = [post]) (hanswer : ¬ post.answer.Rejects)
      (herror : isDefinitiveOrAmbiguousSubmission error = false) :
      Attempt .silent (posts, .error error)
  | settled {posts : List Post} {post : Post} {result : Except Raised TransactionResponse}
      (hposts : submissions posts = [post])
      (herror : ∀ error, result = .error error → isDefinitiveOrAmbiguousSubmission error = true) :
      Attempt .settled (posts, result)

/-! ### The errors of an attempt -/

theorem text_error {value : Json} {error : Raised} (h : text value = .error error) :
    ∃ name message, error = .native name message := by
  unfold text at h
  split at h
  · cases h
  · cases h
    exact ⟨_, _, rfl⟩

theorem gasStationErrorMessage_error {payload : Option Json} {responseText : String}
    {status : Nat} {error : Raised}
    (h : gasStationErrorMessage payload responseText status = .error error) :
    ∃ name message, error = .native name message := by
  unfold gasStationErrorMessage at h
  repeat' split at h
  all_goals first
    | exact text_error h
    | cases h

/-- A request fails with an error of the platform, or is reported with the status of the
answer. -/
theorem readAnswer_error {answer : HttpAnswer} {error : Raised}
    (h : readAnswer executor.parseJson answer = .error error) :
    (∃ name message, error = .native name message) ∨
      ∃ status responseText message, ¬ (200 ≤ status ∧ status < 300) ∧
        answer = .response status responseText ∧
        error = .app
          { code := "OBJECTID_GAS_STATION_REJECTED", message,
            status := if status ≥ 500 then 503 else 502, category := .OBJECTID,
            details := [("stationStatus", .number (.ofNat status))] } := by
  cases answer with
  | failed name message =>
    cases h
    exact .inl ⟨name, message, rfl⟩
  | response status responseText =>
    simp only [readAnswer] at h
    rcases Decidable.em (200 ≤ status ∧ status < 300) with hok | hok
    · rw [if_pos hok] at h
      cases h
    · rw [if_neg hok] at h
      generalize hpayload : (if responseText = "" then none else executor.parseJson responseText)
        = payload at h
      cases hm : gasStationErrorMessage payload responseText status with
      | error e =>
        rw [hm] at h
        cases h
        exact .inl (gasStationErrorMessage_error hm)
      | ok message =>
        rw [hm] at h
        cases h
        exact .inr ⟨status, responseText, message, hok, rfl, rfl⟩

theorem readAnswer_ok {answer : HttpAnswer} {execution : Option Json}
    (h : readAnswer executor.parseJson answer = .ok execution) : ¬ answer.Rejects := by
  cases answer with
  | failed name message => cases h
  | response status responseText =>
    simp only [readAnswer] at h
    intro hrejects
    have hrejects : 400 ≤ status ∧ status < 500 := hrejects
    rw [if_neg (by omega)] at h
    cases hm : gasStationErrorMessage (if responseText = "" then none
        else executor.parseJson responseText) responseText status with
    | error e => rw [hm] at h; cases h
    | ok message => rw [hm] at h; cases h

theorem stationStatus_rejected (status : Nat) (message : String) (n : Nat) :
    stationStatus (.app
      { code := "OBJECTID_GAS_STATION_REJECTED", message, status, category := .OBJECTID,
        details := [("stationStatus", .number (.ofNat n))] }) = .ofNat n := rfl

/-- The status of an error lies in the range of rejections only when a request was
rejected. -/
theorem rejects_of_stationStatus {answer : HttpAnswer} {error : Raised}
    (h : readAnswer executor.parseJson answer = .error error)
    (hstatus : (Number.le 400 (stationStatus error) && (stationStatus error).lt 500) = true) :
    answer.Rejects ∧ isDefinitiveOrAmbiguousSubmission error = false := by
  rcases readAnswer_error executor h with ⟨name, message, rfl⟩ | ⟨status, _, _, -, rfl, rfl⟩
  · change (Number.le 400 0 && Number.lt 0 500) = true at hstatus
    exact absurd hstatus (by decide)
  · rw [stationStatus_rejected] at hstatus
    have hrange : 400 ≤ status ∧ status < 500 := by
      have hle := Number.ofNat_le 400 status
      have hlt := Number.ofNat_lt status 500
      simpa only [Bool.and_eq_true, decide_eq_true_eq] using
        (show (decide (400 ≤ status) && decide (status < 500)) = true from
          hle ▸ hlt ▸ hstatus)
    exact ⟨hrange, rfl⟩

theorem submissionError_unknown {error : Raised}
    (hstatus : ¬ (Number.le 400 (stationStatus error) && (stationStatus error).lt 500) = true) :
    isDefinitiveOrAmbiguousSubmission (submissionError operation error) = true := by
  unfold submissionError
  rw [if_neg hstatus]
  rfl

theorem transactionDigest_error {execution : Option Json} {error : Raised}
    (h : transactionDigest execution = .error error) :
    isDefinitiveOrAmbiguousSubmission error = false := by
  unfold transactionDigest at h
  split at h
  · cases h; rfl
  · cases h; rfl
  · simp only at h
    generalize Option.getD _ Json.null = digest at h
    cases htext : text digest with
    | error e =>
      rw [htext] at h
      cases h
      obtain ⟨name, message, rfl⟩ := text_error htext
      rfl
    | ok digest =>
      rw [htext] at h
      change (if digest = "" then _ else _) = _ at h
      split at h <;> cases h
      rfl

omit [Runtime] in
theorem confirmation_error {digest : String} {confirm : Except Raised TransactionResponse}
    {error : Raised} (h : confirmation operation digest confirm = .error error) :
    isDefinitiveOrAmbiguousSubmission error = true := by
  cases confirm with
  | error e => cases h; rfl
  | ok result =>
    simp only [confirmation] at h
    split at h <;> cases h
    rfl

/-! ### One attempt -/

theorem attempt_fate (station : GasStationConnection) (x : Exchange) :
    Attempt (x.fate executor) (attempt executor operation station x) := by
  unfold attempt Exchange.fate Exchange.prepared
  cases x.transaction with
  | error e =>
    change Attempt (if isDefinitiveOrAmbiguousSubmission e then _ else _) ([], .error e)
    split
    case isTrue h => exact .halted rfl h
    case isFalse h => exact .unsent rfl (Bool.eq_false_iff.mpr h)
  | ok _ =>
    change Attempt (match prepare executor x with | .error error => _ | .ok _ => _)
      (executeAtStation executor operation station x)
    unfold executeAtStation
    cases prepare executor x with
    | error e =>
      change Attempt (if isDefinitiveOrAmbiguousSubmission e then _ else _)
        ([reservePost executor station x], .error e)
      split
      case isTrue h => exact .halted rfl h
      case isFalse h => exact .unsent rfl (Bool.eq_false_iff.mpr h)
    | ok r =>
      obtain ⟨reservation, signed⟩ := r
      have hposts : submissions [reservePost executor station x,
          executePost station x reservation signed] = [executePost station x reservation signed] :=
        rfl
      simp only
      unfold submission
      cases hread : readAnswer executor.parseJson x.submit with
      | error e =>
        simp only
        split
        case isTrue hstatus =>
          obtain ⟨hrejects, hgo⟩ := rejects_of_stationStatus executor hread hstatus
          have hsame : submissionError operation e = e := by
            unfold submissionError
            exact if_pos hstatus
          rw [hsame]
          exact .refused hposts hrejects hgo
        case isFalse hstatus =>
          refine .settled hposts fun error herror => ?_
          cases herror
          exact submissionError_unknown operation hstatus
      | ok execution =>
        simp only
        cases hdigest : transactionDigest execution with
        | error e =>
          exact .silent hposts (readAnswer_ok executor hread) (transactionDigest_error hdigest)
        | ok digest =>
          exact .settled hposts fun error herror => confirmation_error operation herror

/-! ## The loop over the stations -/

/-- What one more station in front adds to the requests of an execution. -/
inductive Extends : Fate → List Post → List Post → Prop
  | unsent {rest : List Post} : Extends .unsent rest rest
  | refused {post : Post} {rest : List Post} (h : post.answer.Rejects) :
      Extends .refused rest (post :: rest)
  | silent {post : Post} {rest : List Post} (h : ¬ post.answer.Rejects) :
      Extends .silent rest (post :: rest)
  | halted {rest : List Post} : Extends .halted rest []
  | settled {post : Post} {rest : List Post} : Extends .settled rest [post]

theorem execute_cons (last : Option Raised) (station : GasStationConnection) (x : Exchange)
    (rest : List (GasStationConnection × Exchange)) :
    ∃ last', Extends (x.fate executor) (submissions (execute executor operation last' rest).1)
      (submissions (execute executor operation last ((station, x) :: rest)).1) := by
  have hattempt := attempt_fate executor operation station x
  generalize hx : attempt executor operation station x = run at hattempt
  rw [execute, hx]
  generalize x.fate executor = fate at hattempt ⊢
  cases hattempt with
  | @unsent posts error hposts herror =>
    refine ⟨some error, ?_⟩
    simp only [herror, Bool.false_eq_true, if_false, submissions_append, hposts, List.nil_append]
    exact .unsent
  | @halted posts error hposts herror =>
    refine ⟨none, ?_⟩
    simp only [herror, if_true, hposts]
    exact .halted
  | @refused posts post error hposts hanswer herror =>
    refine ⟨some error, ?_⟩
    simp only [herror, Bool.false_eq_true, if_false, submissions_append, hposts]
    exact .refused hanswer
  | @silent posts post error hposts hanswer herror =>
    refine ⟨some error, ?_⟩
    simp only [herror, Bool.false_eq_true, if_false, submissions_append, hposts]
    exact .silent hanswer
  | @settled posts post result hposts herror =>
    refine ⟨none, ?_⟩
    cases result with
    | ok result => exact hposts ▸ .settled
    | error error =>
      simp only [herror error rfl, if_true, hposts]
      exact .settled

/-- A later station of the list is reached without a submission, and submits. -/
def SubmitsLater (xs : List Exchange) : Prop :=
  ∃ between y after, xs = between ++ y :: after ∧
    (∀ b ∈ between, b.fate executor = .unsent) ∧ (y.fate executor).sent

/-- A station answers a submission without a digest and a later one submits again; before
it no submission may have taken effect. -/
def DoubleSubmission (xs : List Exchange) : Prop :=
  ∃ before x after, xs = before ++ x :: after ∧ (∀ b ∈ before, (b.fate executor).safe) ∧
    x.fate executor = .silent ∧ SubmitsLater executor after

theorem submitsLater_cons (x : Exchange) (xs : List Exchange) :
    SubmitsLater executor (x :: xs) ↔
      (x.fate executor).sent ∨ x.fate executor = .unsent ∧ SubmitsLater executor xs := by
  constructor
  · rintro ⟨between, y, after, heq, hbetween, hy⟩
    cases between with
    | nil =>
      obtain ⟨rfl, rfl⟩ := List.cons.inj heq
      exact .inl hy
    | cons b between =>
      obtain ⟨rfl, rfl⟩ := List.cons.inj heq
      exact .inr ⟨hbetween x List.mem_cons_self, between, y, after, rfl,
        fun b hb => hbetween b (List.mem_cons_of_mem _ hb), hy⟩
  · rintro (hx | ⟨hx, between, y, after, rfl, hbetween, hy⟩)
    · exact ⟨[], x, xs, rfl, by simp, hx⟩
    · exact ⟨x :: between, y, after, rfl, List.forall_mem_cons.mpr ⟨hx, hbetween⟩, hy⟩

theorem doubleSubmission_cons (x : Exchange) (xs : List Exchange) :
    DoubleSubmission executor (x :: xs) ↔
      x.fate executor = .silent ∧ SubmitsLater executor xs ∨
        (x.fate executor).safe ∧ DoubleSubmission executor xs := by
  constructor
  · rintro ⟨before, y, after, heq, hbefore, hy, hlater⟩
    cases before with
    | nil =>
      obtain ⟨rfl, rfl⟩ := List.cons.inj heq
      exact .inl ⟨hy, hlater⟩
    | cons b before =>
      obtain ⟨rfl, rfl⟩ := List.cons.inj heq
      exact .inr ⟨hbefore x List.mem_cons_self, before, y, after, rfl,
        fun b hb => hbefore b (List.mem_cons_of_mem _ hb), hy, hlater⟩
  · rintro (⟨hx, hlater⟩ | ⟨hx, before, y, after, rfl, hbefore, hy, hlater⟩)
    · exact ⟨[], x, xs, rfl, by simp, hx, hlater⟩
    · exact ⟨x :: before, y, after, rfl, List.forall_mem_cons.mpr ⟨hx, hbefore⟩, hy, hlater⟩

/-- Whether an execution submits at all. -/
theorem submissions_eq_nil (last : Option Raised)
    (stations : List (GasStationConnection × Exchange)) :
    submissions (execute executor operation last stations).1 = [] ↔
      ¬ SubmitsLater executor (stations.map Prod.snd) := by
  induction stations generalizing last with
  | nil =>
      refine iff_of_true rfl ?_
      rintro ⟨between, y, after, heq, -⟩
      cases between <;> cases heq
  | cons station rest ih =>
      obtain ⟨station, x⟩ := station
      obtain ⟨last', hextends⟩ := execute_cons executor operation last station x rest
      rw [List.map_cons, submitsLater_cons]
      have ih := ih last'
      generalize submissions (execute executor operation last' rest).1 = later at hextends ih
      generalize submissions (execute executor operation last ((station, x) :: rest)).1 = all
        at hextends
      generalize x.fate executor = fate at hextends
      cases hextends <;> simp [Fate.sent, ih]

/-- **At most one submission may take effect.** An execution asks a further station only
after every earlier submission was rejected, unless a submission was answered without a
digest before a later station submits. -/
theorem submitted_once_iff (stations : List (GasStationConnection × Exchange)) :
    SubmittedOnce (execute executor operation none stations).1 ↔
      ¬ DoubleSubmission executor (stations.map Prod.snd) := by
  have hgeneral : ∀ last, SubmittedOnce (execute executor operation last stations).1 ↔
      ¬ DoubleSubmission executor (stations.map Prod.snd) := by
    induction stations with
    | nil =>
        refine fun last => iff_of_true List.Pairwise.nil ?_
        rintro ⟨before, y, after, heq, -⟩
        cases before <;> cases heq
    | cons station rest ih =>
        intro last
        obtain ⟨station, x⟩ := station
        obtain ⟨last', hextends⟩ := execute_cons executor operation last station x rest
        have ih := ih last'
        have hnil := submissions_eq_nil executor operation last' rest
        rw [List.map_cons, doubleSubmission_cons]
        unfold SubmittedOnce at ih ⊢
        generalize submissions (execute executor operation last' rest).1 = later
          at hextends ih hnil
        generalize submissions (execute executor operation last ((station, x) :: rest)).1 = all
          at hextends
        generalize x.fate executor = fate at hextends
        cases hextends with
        | unsent => simpa [Fate.safe] using ih
        | refused h => simpa [Fate.safe, h] using ih
        | halted => simp [Fate.safe]
        | settled => simp [Fate.safe]
        | @silent post later h =>
          have hcons : (post :: later).Pairwise (fun a _ => a.answer.Rejects) ↔ later = [] := by
            constructor
            · intro hpairs
              cases later with
              | nil => rfl
              | cons p later =>
                exact absurd ((List.pairwise_cons.mp hpairs).1 p List.mem_cons_self) h
            · rintro rfl
              exact List.pairwise_singleton _ _
          rw [hcons, hnil]
          simp [Fate.safe]
  exact hgeneral none

end

/-- A station that reserves gas and answers the submission with status 200 and the body
given. -/
def Exchange.accepting (body : String) : Exchange where
  transaction := .ok ()
  reserve := .response 200 "\x7b\"sponsor_address\":\"0x9\",\"reservation_id\":42,\"gas_coins\":[\"0x8\"]\x7d"
  signed := .ok { bytes := "AQID", signature := "user-signature" }
  submit := .response 200 body
  confirm := .ok { digest := "tx-digest", effects := some ("success", none) }

/-- A parser that knows the body of the reservation. -/
def parseReservation (text : String) : Option Json :=
  if text = "\x7b\"sponsor_address\":\"0x9\",\"reservation_id\":42,\"gas_coins\":[\"0x8\"]\x7d" then
    some (.object [("sponsor_address", .string "0x9"), ("reservation_id", .number 42),
      ("gas_coins", .array [.string "0x8"])])
  else none

/-- An empty answer to a submission, and a second station is asked to execute. -/
theorem empty_answer_resubmits :
    ¬ SubmittedOnce (@execute Runtime.ascii ⟨100000000, parseReservation⟩ "publish_state" none
      [(⟨"https://m-gas1", "one", 30⟩, .accepting ""),
        (⟨"https://m-gas2", "two", 30⟩, .accepting "")]).1 := by
  have hsent : ∃ first second, submissions (@execute Runtime.ascii
      ⟨100000000, parseReservation⟩ "publish_state" none
      [(⟨"https://m-gas1", "one", 30⟩, .accepting ""),
        (⟨"https://m-gas2", "two", 30⟩, .accepting "")]).1 = [first, second] ∧
      first.answer = .response 200 "" :=
    ⟨_, _, rfl, rfl⟩
  obtain ⟨first, second, hposts, hanswer⟩ := hsent
  intro honce
  unfold SubmittedOnce at honce
  rw [hposts] at honce
  have hrejects := (List.pairwise_cons.mp honce).1 second List.mem_cons_self
  rw [hanswer] at hrejects
  exact absurd hrejects.1 (by decide)

end Ledger
