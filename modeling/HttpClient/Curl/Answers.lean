import HttpClient.Curl.Worker
import Mathlib.Data.List.Perm.Basic

/-!
# Every request of the curl client is answered once

A request is in one place at a time: queued, in the hands of the worker, with libcurl, or
answered. So no promise is fulfilled twice, which would end the program, and none is lost. The
queue holds the latest requests in the order of their submission.

A shutdown waits for the requests: when the worker has left its loop because of the flag,
everything submitted before the shutdown has been answered. What is submitted once the worker has
decided to leave is queued all the same, and nobody answers it any more.

## Main definitions

* `Worker.hand` — the request that the worker has taken and not yet handed to libcurl
* `Worker.Accounts` — the requests that have been taken out of the queue, and where they are
* `Worker.Closed` — the worker has decided to leave
* `Action.ends` — an error after which the worker leaves

## Main results

* `curl_requests_accounted` — each request is in one place
* `curl_answers_kept` — an answer stays what it is
* `curl_shutdown_answers` — what was submitted before a shutdown is answered
* `curl_submitted_late` — what is submitted too late is never answered
-/

set_option autoImplicit false

namespace HttpClient.Curl

open Semantics Text

namespace Worker

variable {s s' t : Worker}

/-! ### Where the requests are -/

def hand (s : Worker) : List Nat :=
  match s.phase with
  | .adding _ ticket => [ticket]
  | _ => []

/-- The tickets of the promises that have been fulfilled. -/
def answeredTickets (s : Worker) : List Nat := s.answered.map Prod.fst

theorem answeredTickets_answer (s : Worker) (ticket : Nat) (response : Response) :
    (s.answer ticket response).answeredTickets = s.answeredTickets ++ [ticket] := by
  rw [answeredTickets, answer, List.map_append]
  rfl

theorem range_eq_append {m n : Nat} (h : m ≤ n) :
    List.range n = List.range m ++ List.range' m (n - m) := by
  have happend := @List.range'_append_1 0 m (n - m)
  rw [Nat.zero_add, Nat.add_sub_cancel' h] at happend
  rw [List.range_eq_range', List.range_eq_range', happend]

/-- The requests up to `taken` have been taken out of the queue. -/
structure Accounts (s : Worker) (taken : Nat) : Prop where
  le : taken ≤ s.submitted
  queue : s.queue = List.range' taken (s.submitted - taken)
  perm : (s.hand ++ s.active ++ s.answeredTickets).Perm (List.range taken)

theorem Accounts.congr {taken : Nat} (h : s.Accounts taken) (hqueue : t.queue = s.queue)
    (hsubmitted : t.submitted = s.submitted) (hhand : t.hand = s.hand)
    (hactive : t.active = s.active) (hanswered : t.answered = s.answered) : t.Accounts taken := by
  refine ⟨hsubmitted ▸ h.le, by rw [hqueue, hsubmitted, h.queue], ?_⟩
  rw [answeredTickets, hhand, hactive, hanswered]
  exact h.perm

theorem Accounts.wakeWorkerLocked {taken : Nat} (h : s.Accounts taken) :
    s.wakeWorkerLocked.Accounts taken := by
  obtain ⟨wakeFd, multiWakeups, heq⟩ := s.wakeWorkerLocked_eq
  rw [heq]
  exact h.congr rfl rfl rfl rfl rfl

theorem hand_eq_nil (h : ∀ place ticket, s.phase ≠ .adding place ticket) : s.hand = [] := by
  unfold hand
  split
  case h_1 place ticket hphase => exact absurd hphase (h place ticket)
  case h_2 => rfl

/-- A request is put into the queue. -/
theorem Accounts.submit {taken : Nat} (h : s.Accounts taken) :
    Accounts { s with queue := s.queue ++ [s.submitted], submitted := s.submitted + 1 } taken := by
  have hle := h.le
  refine ⟨by dsimp only; omega, ?_, h.perm⟩
  have hlength : s.submitted + 1 - taken = s.submitted - taken + 1 := by omega
  rw [hlength, List.range'_1_concat, ← h.queue, Nat.add_sub_cancel' hle]

/-- The worker takes the first request of the queue. -/
theorem Accounts.take {taken : Nat} (h : s.Accounts taken) {place : Place} {ticket : Nat}
    {queue : List Nat} (hphase : s.phase = .draining place) (hqueue : s.queue = ticket :: queue) :
    Accounts { s with queue, phase := .adding place ticket } (taken + 1) := by
  have hrange := h.queue
  -- the queue is a row of numbers, so what is taken is the first number not taken yet
  rw [hqueue, eq_comm, List.range'_eq_cons_iff] at hrange
  obtain ⟨rfl, hpos, hrest⟩ := hrange
  have hle : taken + 1 ≤ s.submitted := by omega
  refine ⟨hle, by rw [hrest, Nat.sub_sub], ?_⟩
  have hperm := h.perm
  rw [hand_eq_nil (fun place ticket hadding => by rw [hphase] at hadding; cases hadding),
    List.nil_append] at hperm
  rw [List.range_succ]
  exact (hperm.cons taken).trans (List.perm_append_singleton taken _).symm

/-- The promise of a request that the worker has in its hands is fulfilled. -/
theorem Accounts.refuse {taken : Nat} (h : s.Accounts taken) {place : Place} {ticket : Nat}
    (response : Response) (hphase : s.phase = .adding place ticket) :
    Accounts { s.answer ticket response with phase := .draining place } taken := by
  refine ⟨h.le, h.queue, ?_⟩
  have hperm := h.perm
  have hhand : s.hand = [ticket] := by rw [hand, hphase]
  rw [hhand, List.append_assoc] at hperm
  change (s.active ++ (s.answer ticket response).answeredTickets).Perm _
  rw [answeredTickets_answer, ← List.append_assoc]
  exact List.perm_append_comm.trans hperm

/-- A request that the worker has in its hands goes to libcurl. -/
theorem Accounts.add {taken : Nat} (h : s.Accounts taken) {place : Place} {ticket : Nat}
    (hphase : s.phase = .adding place ticket) :
    Accounts { s with active := s.active ++ [ticket], phase := .draining place } taken := by
  refine ⟨h.le, h.queue, ?_⟩
  have hperm := h.perm
  have hhand : s.hand = [ticket] := by rw [hand, hphase]
  rw [hhand] at hperm
  change (s.active ++ [ticket] ++ s.answeredTickets).Perm _
  exact (List.perm_append_comm.append_right _).trans hperm

/-- A transfer is complete. -/
theorem Accounts.complete {taken : Nat} (h : s.Accounts taken) {ticket : Nat}
    (response : Response) (hactive : ticket ∈ s.active) :
    Accounts { s.answer ticket response with active := s.active.erase ticket } taken := by
  refine ⟨h.le, h.queue, ?_⟩
  have herase : (s.active.erase ticket ++ [ticket]).Perm s.active :=
    (List.perm_append_singleton ticket _).trans (List.perm_cons_erase hactive).symm
  change (s.hand ++ s.active.erase ticket ++
    (s.answer ticket response).answeredTickets).Perm _
  rw [answeredTickets_answer]
  -- the ticket moves from where it was among the transfers to the end of the answers
  calc s.hand ++ s.active.erase ticket ++ (s.answeredTickets ++ [ticket])
    _ = s.hand ++ (s.active.erase ticket ++ (s.answeredTickets ++ [ticket])) :=
      List.append_assoc ..
    List.Perm _ (s.hand ++ (s.active.erase ticket ++ ([ticket] ++ s.answeredTickets))) :=
      (List.perm_append_comm.append_left _).append_left _
    _ = s.hand ++ (s.active.erase ticket ++ [ticket] ++ s.answeredTickets) := by
      rw [List.append_assoc]
    List.Perm _ (s.hand ++ (s.active ++ s.answeredTickets)) :=
      (herase.append_right _).append_left _
    _ = s.hand ++ s.active ++ s.answeredTickets := (List.append_assoc ..).symm
    List.Perm _ (List.range taken) := h.perm

/-- The promises of everything that is queued are fulfilled. -/
theorem Accounts.fail {taken : Nat} (h : s.Accounts taken) {error : Bytes} {leaves : Bool}
    {phase : Phase} (hphase : s.phase = .failing error leaves)
    (hhand : hand { s.failAll error with phase } = []) :
    Accounts { s.failAll error with phase } s.submitted := by
  have hempty : s.hand = [] := by rw [hand, hphase]
  have hperm := h.perm
  rw [hempty, List.nil_append] at hperm
  have hanswered : (s.failAll error).answeredTickets = s.answeredTickets ++ s.queue := by
    rw [answeredTickets, failAll, List.map_append, List.map_map]
    exact congrArg _ (List.map_id _)
  refine ⟨le_rfl, ?_, ?_⟩
  · change [] = List.range' s.submitted (s.submitted - s.submitted)
    rw [Nat.sub_self]
    rfl
  · -- what is queued goes behind the answers, and completes the numbers up to the last one
    change (hand { s.failAll error with phase } ++ s.active ++
      (s.failAll error).answeredTickets).Perm _
    rw [hhand, hanswered, List.nil_append, ← List.append_assoc, range_eq_append h.le, ← h.queue]
    exact hperm.append_right _

/-- What one step of a caller or of the worker does to the accounts. -/
theorem Accounts.move {taken : Nat} (h : s.Accounts taken) (hmove : Move s t) :
    ∃ taken', taken ≤ taken' ∧ t.Accounts taken' := by
  cases hmove with
  | submit =>
    exact ⟨taken, le_rfl, h.submit.wakeWorkerLocked⟩
  | notify =>
    have hcleared : Accounts { s with notifying := false } taken := h.congr rfl rfl rfl rfl rfl
    exact ⟨taken, le_rfl, hcleared.wakeWorkerLocked⟩
  | shutdown | shutdownAgain => exact ⟨taken, le_rfl, h.congr rfl rfl rfl rfl rfl⟩
  | taken place ticket queue hphase hqueue =>
    exact ⟨taken + 1, Nat.le_succ taken, h.take hphase hqueue⟩
  | refused place ticket response hphase => exact ⟨taken, le_rfl, h.refuse response hphase⟩
  | added place ticket hphase => exact ⟨taken, le_rfl, h.add hphase⟩
  | completed place ticket response hphase hactive =>
    exact ⟨taken, le_rfl, h.complete response hactive⟩
  | failed error hphase | failedOnce error hphase =>
    exact ⟨s.submitted, h.le, h.fail hphase rfl⟩
  | _ =>
    -- the other steps move the worker on, or open and close the descriptors
    refine ⟨taken, le_rfl, h.congr rfl rfl ?_ rfl rfl⟩
    simp [hand, *]

/-! ### The end of the loop -/

/-- The worker has decided to leave, with `n` requests submitted and nothing left to do. -/
structure Closed (s : Worker) (n : Nat) : Prop where
  phase : s.phase = .leaving ∨ s.phase = .closing ∨ s.phase = .ended
  active : s.active = []
  accounts : s.Accounts n

/-- What a step leaves as it is once the worker has decided to leave. -/
theorem Closed.move {n : Nat} (h : s.Closed n) (hmove : Move s t) :
    t.Closed n ∧ t.answered = s.answered ∧ t.closedAt = s.closedAt := by
  have hphase := h.phase
  cases hmove with
  | submit =>
    have haccounts := h.accounts.submit.wakeWorkerLocked
    exact ⟨⟨by simpa using hphase, by simpa using h.active, haccounts⟩, by simp, by simp⟩
  | notify =>
    have hcleared : Accounts { s with notifying := false } n :=
      h.accounts.congr rfl rfl rfl rfl rfl
    have haccounts := hcleared.wakeWorkerLocked
    exact ⟨⟨by simpa using hphase, by simpa using h.active, haccounts⟩, by simp, by simp⟩
  | shutdown => exact ⟨⟨hphase, h.active, h.accounts.congr rfl rfl rfl rfl rfl⟩, rfl, rfl⟩
  | shutdownAgain => exact ⟨h, rfl, rfl⟩
  | left hleaving =>
    have hhand : s.hand = [] := by rw [hand, hleaving]
    exact ⟨⟨.inr (.inl rfl), h.active, h.accounts.congr rfl rfl hhand.symm rfl rfl⟩, rfl, rfl⟩
  | fdsClosed hclosing =>
    have hhand : s.hand = [] := by rw [hand, hclosing]
    exact ⟨⟨.inr (.inr rfl), h.active, h.accounts.congr rfl rfl hhand.symm rfl rfl⟩, rfl, rfl⟩
  | _ =>
    -- the worker has left the loop, from which the other steps are taken
    simp_all

/-- Once the worker has decided to leave, what it has taken is answered. -/
theorem Closed.answeredTickets_perm {n : Nat} (h : s.Closed n) :
    s.answeredTickets.Perm (List.range n) := by
  have hhand : s.hand = [] := by
    refine hand_eq_nil fun place ticket hadding => ?_
    have hphase := h.phase
    rw [hadding] at hphase
    exact hphase.elim (by cases ·) fun h => h.elim (by cases ·) (by cases ·)
  have hperm := h.accounts.perm
  rwa [hhand, h.active] at hperm

/-- A queue that is empty has been taken out of as a whole. -/
theorem Accounts.of_queue_eq_nil {taken : Nat} (h : s.Accounts taken) (hqueue : s.queue = []) :
    s.Accounts s.submitted := by
  have hrange := h.queue
  rw [hqueue, eq_comm, List.range'_eq_nil_iff] at hrange
  have heq : taken = s.submitted := Nat.le_antisymm h.le (Nat.sub_eq_zero_iff_le.mp hrange)
  exact heq ▸ h

/-- Only a worker that has found the flag set decides to leave. -/
structure Orderly (s : Worker) : Prop where
  accounts : ∃ taken, s.Accounts taken
  checking : s.phase = .checking → s.stop = true
  closed : ∀ n, s.closedAt = some n → s.stop = true ∧ s.Closed n

theorem orderly_start : Orderly {} :=
  ⟨⟨0, le_rfl, rfl, .rfl⟩, (by cases ·), fun n h => by cases h⟩

theorem stop_of_move (hmove : Move s t) (hstop : s.stop = true) : t.stop = true := by
  cases hmove with
  | submit | notify => simpa using hstop
  | shutdown => rfl
  | _ => exact hstop

/-- The worker checks only after it has loaded the flag. -/
theorem checking_of_move (hmove : Move s t) (hchecking : t.phase = .checking) :
    s.phase = .checking ∨ s.stop = true := by
  cases hmove with
  | loadedStop hphase hstop => exact .inr hstop
  | _ => simp_all

theorem Orderly.move (h : s.Orderly) (hmove : Move s t) : t.Orderly := by
  obtain ⟨taken, haccounts⟩ := h.accounts
  obtain ⟨taken', -, haccounts'⟩ := haccounts.move hmove
  refine ⟨⟨taken', haccounts'⟩, fun hchecking => ?_, fun n hclosed => ?_⟩
  · exact stop_of_move hmove ((checking_of_move hmove hchecking).elim h.checking id)
  · cases hs : s.closedAt with
    | some m =>
      obtain ⟨hstop, hm⟩ := h.closed m hs
      obtain ⟨ht, -, heq⟩ := hm.move hmove
      obtain rfl : m = n := Option.some.inj (by rw [← hs, ← heq, hclosed])
      exact ⟨stop_of_move hmove hstop, ht⟩
    | none =>
      -- only the check under the lock sets it
      cases hmove with
      -- nothing is queued and nothing is active, so everything that was submitted is answered
      | closed hphase hqueue hactive =>
        obtain rfl := Option.some.inj hclosed
        have hhand : s.hand = [] := by rw [hand, hphase]
        have hall := haccounts.of_queue_eq_nil hqueue
        exact ⟨h.checking hphase, .inl rfl, hactive, hall.congr rfl rfl hhand.symm rfl rfl⟩
      | _ => simp_all

theorem orderly_of_reaches (hreach : Reaches step {} s) : s.Orderly :=
  invariant_of_moves (fun _ _ h => h.move) orderly_start hreach

/-! ### Answers -/

theorem answered_of_move (hmove : Move s t) : s.answered <+: t.answered := by
  cases hmove with
  | refused place ticket response | completed place ticket response =>
    exact List.prefix_append _ _
  | failed error | failedOnce error => exact List.prefix_append _ _
  | submit | notify => simp
  | _ => exact List.prefix_rfl

theorem submitted_of_move (hmove : Move s t) : s.submitted ≤ t.submitted := by
  cases hmove with
  | submit => simp
  | notify => simp
  | _ => exact le_rfl

theorem closedAt_of_move {n : Nat} (hmove : Move s t) (hclosed : t.closedAt = some n) :
    s.closedAt = some n ∨ n = s.submitted := by
  cases hmove with
  | closed => exact .inr (Option.some.inj hclosed).symm
  | _ => simp_all

/-- The worker has met an error after which it leaves. -/
def Doomed (s : Worker) : Bool :=
  match s.phase with
  | .failing _ true => true
  | _ => false

/-- A worker that never leaves on an error leaves on the flag. -/
theorem closed_of_move (hok : s.Doomed = false)
    (h : s.phase = .leaving ∨ s.phase = .closing ∨ s.phase = .ended → s.closedAt ≠ none)
    (hmove : Move s t) :
    t.phase = .leaving ∨ t.phase = .closing ∨ t.phase = .ended → t.closedAt ≠ none := by
  cases hmove with
  | failed error hphase =>
    -- the error is one after which the worker leaves
    rw [Doomed, hphase] at hok
    cases hok
  | _ => simp_all

end Worker

/-- Two requests are submitted while the loop is set up. -/
def submitTwo : List Action := [.start true, .submit, .openFds none, .publish none, .submit]

def twoSubmitted : Worker :=
  { queue := [0, 1], submitted := 2, multi := true, wakeFd := some 1, phase := .draining .top }

/-- Somebody shuts the client down. The worker hands both requests to libcurl, which completes
them in the other order, and leaves. -/
def shutDown : List Action :=
  [.shutdown, .drain, .add .added, .drain, .add .added, .drain, .readDone, .load, .check, .notify,
    .poll [.wake, .curlSocket 5], .handle, .drain, .act none, .complete 1 { status := 200 },
    .readDone, .handle, .act none, .complete 0 { status := 200 }, .readDone, .handle, .drain,
    .readDone, .load, .check, .leave, .close]

def bothAnswered : Worker :=
  { answered := [(1, { status := 200 }), (0, { status := 200 })], submitted := 2, stop := true,
    phase := .ended, closedAt := some 2 }

theorem exec_submitTwo : exec Worker.step {} submitTwo = some twoSubmitted := by decide

theorem exec_shutDown : exec Worker.step twoSubmitted shutDown = some bothAnswered := by decide

/-- In every state that is reached each request is in one place: in the queue, which holds the
latest ones in order, in the hands of the worker, with libcurl, or answered. -/
theorem curl_requests_accounted {s : Worker} (hreach : Reaches Worker.step {} s) :
    (s.queue ++ (s.hand ++ s.active ++ s.answeredTickets)).Perm (List.range s.submitted) ∧
      s.queue = List.range' (s.submitted - s.queue.length) s.queue.length := by
  obtain ⟨taken, hle, hqueue, hperm⟩ := (Worker.orderly_of_reaches hreach).accounts
  have hlength : s.queue.length = s.submitted - taken := by rw [hqueue, List.length_range']
  constructor
  · rw [Worker.range_eq_append hle, ← hqueue]
    exact (hperm.append_left s.queue).trans List.perm_append_comm
  · rw [hlength, Nat.sub_sub_self hle, ← hqueue]

theorem curl_requests_accounted_two :
    (twoSubmitted.queue ++ (twoSubmitted.hand ++ twoSubmitted.active ++
        twoSubmitted.answeredTickets)).Perm (List.range 2) ∧
      twoSubmitted.queue = List.range' (2 - twoSubmitted.queue.length) twoSubmitted.queue.length :=
  curl_requests_accounted ⟨submitTwo, exec_submitTwo⟩

/-- In every run no promise is fulfilled twice, and what it has been fulfilled with stays. -/
theorem curl_answers_kept {s t : Worker} (hs : Reaches Worker.step {} s)
    (ht : Reaches Worker.step s t) :
    s.answered <+: t.answered ∧ t.answeredTickets.Nodup := by
  obtain ⟨before, hbefore⟩ := hs
  obtain ⟨after, hafter⟩ := id ht
  constructor
  · have hstep : ∀ u v, s.answered <+: u.answered → Move u v → s.answered <+: v.answered :=
      fun u v hu hmove => hu.trans (Worker.answered_of_move hmove)
    exact Worker.invariant_of_moves hstep List.prefix_rfl ht
  · obtain ⟨hperm, -⟩ :=
      curl_requests_accounted ⟨before ++ after, exec_append_eq_some.mpr ⟨s, hbefore, hafter⟩⟩
    -- the answers are a part of a list without duplicates
    have hnodup := hperm.nodup_iff.mpr List.nodup_range
    exact (List.nodup_append.mp (List.nodup_append.mp hnodup).2.1).2.1

theorem curl_answers_kept_two :
    twoSubmitted.answered <+: bothAnswered.answered ∧ bothAnswered.answeredTickets.Nodup :=
  curl_answers_kept ⟨submitTwo, exec_submitTwo⟩ ⟨shutDown, exec_shutDown⟩

/-- In every run in which the worker does not leave on an error: when it has left, everything is
answered that was submitted before somebody set the flag. -/
theorem curl_shutdown_answers {before after : List Action} {s t : Worker}
    (hbefore : exec Worker.step {} before = some s) (hopen : s.stop = false)
    (hafter : exec Worker.step s after = some t)
    (hok : Along Worker.step (fun s _ => s.Doomed = false) {} (before ++ after))
    (hended : t.phase = .ended) {ticket : Nat} (hticket : ticket < s.submitted) :
    ticket ∈ t.answeredTickets := by
  have hs : s.Orderly := Worker.orderly_of_reaches ⟨before, hbefore⟩
  have hrun : exec Worker.step {} (before ++ after) = some t :=
    exec_append_eq_some.mpr ⟨s, hbefore, hafter⟩
  -- it has left on the flag
  have hleft : t.closedAt ≠ none := by
    have hstep : ∀ (u : Worker) a v,
        (u.phase = .leaving ∨ u.phase = .closing ∨ u.phase = .ended → u.closedAt ≠ none) →
        u.Doomed = false → u.step a = some v →
          v.phase = .leaving ∨ v.phase = .closing ∨ v.phase = .ended → v.closedAt ≠ none :=
      fun u a v hu hdoomed hv => Worker.closed_of_move hdoomed hu (Worker.step_move hv)
    exact invariant_of_along hstep (by simp) hok hrun (.inr (.inr hended))
  obtain ⟨n, hn⟩ := Option.ne_none_iff_exists'.mp hleft
  -- and not before the state `s`
  have hle : s.submitted ≤ n := by
    have hstep : ∀ u v : Worker,
        s.submitted ≤ u.submitted ∧ (∀ n, u.closedAt = some n → s.submitted ≤ n) → Move u v →
          s.submitted ≤ v.submitted ∧ ∀ n, v.closedAt = some n → s.submitted ≤ n := by
      rintro u v ⟨hsubmitted, hclosed⟩ hmove
      refine ⟨hsubmitted.trans (Worker.submitted_of_move hmove), fun n hn => ?_⟩
      rcases Worker.closedAt_of_move hmove hn with hbefore | rfl
      · exact hclosed n hbefore
      · exact hsubmitted
    have hstart : ∀ n, s.closedAt = some n → s.submitted ≤ n := by
      intro n hclosed
      rw [(hs.closed n hclosed).1] at hopen
      cases hopen
    exact (Worker.invariant_of_moves hstep ⟨le_rfl, hstart⟩ ⟨after, hafter⟩).2 n hn
  obtain ⟨-, hclosed⟩ :=
    (Worker.orderly_of_reaches ⟨before ++ after, hrun⟩).closed n hn
  exact hclosed.answeredTickets_perm.mem_iff.mpr (List.mem_range.mpr (hticket.trans_le hle))

theorem curl_shutdown_answers_two : 1 ∈ bothAnswered.answeredTickets :=
  curl_shutdown_answers exec_submitTwo rfl exec_shutDown (by decide) rfl (by decide)

/-- What is submitted after the worker has decided to leave stays in the queue for ever. -/
theorem curl_submitted_late {s t : Worker} {n : Nat} (hs : Reaches Worker.step {} s)
    (hclosed : s.closedAt = some n) (ht : Reaches Worker.step s t) :
    t.answered = s.answered ∧ t.answeredTickets.Perm (List.range n) ∧
      t.queue = List.range' n (t.submitted - n) := by
  obtain ⟨-, hs⟩ := (Worker.orderly_of_reaches hs).closed n hclosed
  have hstep : ∀ u v : Worker, u.Closed n ∧ u.answered = s.answered → Move u v →
      v.Closed n ∧ v.answered = s.answered := by
    rintro u v ⟨hu, hanswered⟩ hmove
    obtain ⟨hv, heq, -⟩ := hu.move hmove
    exact ⟨hv, heq.trans hanswered⟩
  obtain ⟨ht, hanswered⟩ := Worker.invariant_of_moves hstep ⟨hs, rfl⟩ ht
  exact ⟨hanswered, ht.answeredTickets_perm, ht.accounts.queue⟩

theorem curl_submitted_late_third :
    { bothAnswered with queue := [2], submitted := 3 }.answered = bothAnswered.answered ∧
      bothAnswered.answeredTickets.Perm (List.range 2) ∧
        { bothAnswered with queue := [2], submitted := 3 }.queue = List.range' 2 1 :=
  curl_submitted_late
    ⟨submitTwo ++ shutDown, exec_append_eq_some.mpr ⟨twoSubmitted, exec_submitTwo, exec_shutDown⟩⟩
    rfl ⟨[.submit], by decide⟩

end HttpClient.Curl
