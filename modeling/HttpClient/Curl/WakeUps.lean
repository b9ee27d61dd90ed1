import HttpClient.Curl.Worker

/-!
# No wake-up of the curl worker is lost

The worker sleeps in `epoll_wait` without a timeout. It looks at the queue, reads what is
complete, looks at the flag and only then goes to sleep, so a request or a shutdown that comes in
between must not be slept over. It is not, because whoever brings it writes to the eventfd
afterwards, and the worker reads the eventfd only just before it looks at the queue again.

So a worker that sleeps has nothing queued; and if the flag is set, either the one who has set it
is about to wake the worker, or libcurl has transfers that are going to.

While `multi_` is set the eventfd is open: it is opened before `multi_` is set, and closed after
`multi_` has been cleared. So nobody calls `curl_multi_wakeup`, and a wake-up that finds the
eventfd closed does nothing at all.

## Main definitions

* `Phase.searched` — the queue has been found empty since the eventfd was last read
* `Phase.opened`, `Phase.unpublished` — the descriptors are open, `multi_` is not set
* `Worker.Attended` — the eventfd tells of what the worker has not seen
* `Worker.Asleep` — nothing but libcurl and the callers can end the `epoll_wait`

## Main results

* `Worker.Attended.move` — what every step keeps
* `curl_wakeup_not_lost` — a worker that sleeps has nothing to do
* `curl_multi_wakeup_unused` — the worker is always woken through the eventfd, or not at all
-/

set_option autoImplicit false

namespace HttpClient.Curl

open Semantics Text

/-- Whether the worker is between finding the queue empty and handling the next event. -/
def Phase.searched : Phase → Bool
  | .reading .top | .loading | .checking | .polling => true
  | _ => false

/-- Whether the descriptors are open for certain. -/
def Phase.opened : Phase → Bool
  | .starting | .opening | .failing _ true | .leaving | .closing | .ended => false
  | _ => true

/-- Whether `multi_` has certainly not been set yet, or has been cleared. -/
def Phase.unpublished : Phase → Bool
  | .starting | .opening | .closing | .ended => true
  | _ => false

namespace Worker

variable {s t : Worker}

/-- The worker is in `epoll_wait`, and the eventfd is not going to be reported. -/
def Asleep (s : Worker) : Prop := s.phase = .polling ∧ s.wakeFd = some 0

instance (s : Worker) : Decidable s.Asleep := inferInstanceAs (Decidable (_ ∧ _))

/-- What the worker has not seen can be read off the eventfd, or is going to be. -/
structure Attended (s : Worker) : Prop where
  opened : s.phase.opened = true → s.wakeFd ≠ none
  multi : s.multi = true → s.wakeFd ≠ none
  unpublished : s.phase.unpublished = true → s.multi = false
  unused : s.multiWakeups = 0
  queue : s.phase.searched = true → s.queue ≠ [] → s.wakeFd ≠ some 0
  stop : s.phase = .polling → s.stop = true →
    s.notifying = true ∨ s.active ≠ [] ∨ s.wakeFd ≠ some 0

theorem attended_start : Attended {} :=
  ⟨(by cases ·), (by cases ·), fun _ => rfl, rfl, (by cases ·), (by cases ·)⟩

/-- After a write the eventfd is not empty. -/
theorem wakeFd_wakeWorkerLocked (s : Worker) :
    (s.wakeWorkerLocked.wakeFd = none ↔ s.wakeFd = none) ∧ s.wakeWorkerLocked.wakeFd ≠ some 0 := by
  unfold wakeWorkerLocked
  split
  case h_1 count hfd =>
    refine ⟨by simp [hfd], fun hzero => ?_⟩
    -- a count at its maximum is not zero either
    have hcount := Option.some.inj hzero
    split_ifs at hcount
    omega
  case h_2 hfd =>
    split_ifs
    all_goals exact ⟨Iff.rfl, by simp [hfd]⟩

@[simp] theorem wakeWorkerLocked_multi (s : Worker) : s.wakeWorkerLocked.multi = s.multi := by
  obtain ⟨wakeFd, multiWakeups, heq⟩ := s.wakeWorkerLocked_eq
  rw [heq]

/-- Nobody wakes libcurl while the eventfd is open or `multi_` is not set. -/
theorem multiWakeups_wakeWorkerLocked (h : s.multi = true → s.wakeFd ≠ none) :
    s.wakeWorkerLocked.multiWakeups = s.multiWakeups := by
  unfold wakeWorkerLocked
  split
  case h_1 => rfl
  case h_2 hfd =>
    split_ifs with hmulti
    · exact absurd hfd (h hmulti)
    · rfl

/-- Whoever wakes the worker settles what it has not seen. -/
theorem Attended.wakeWorkerLocked (hopened : s.phase.opened = true → s.wakeFd ≠ none)
    (hmulti : s.multi = true → s.wakeFd ≠ none)
    (hunpublished : s.phase.unpublished = true → s.multi = false) (hunused : s.multiWakeups = 0) :
    s.wakeWorkerLocked.Attended := by
  obtain ⟨hiff, hnonzero⟩ := s.wakeFd_wakeWorkerLocked
  refine ⟨?_, ?_, by simpa using hunpublished, ?_, fun _ _ => hnonzero,
    fun _ _ => .inr (.inr hnonzero)⟩
  · rw [wakeWorkerLocked_phase, ne_eq, hiff]
    exact hopened
  · rw [wakeWorkerLocked_multi, ne_eq, hiff]
    exact hmulti
  · rw [multiWakeups_wakeWorkerLocked hmulti, hunused]

/-- A step of the worker to where it is going to look at the queue, or has left the loop. -/
theorem Attended.unsearched (h : s.Attended) (hwakeFd : t.wakeFd = s.wakeFd)
    (hmulti : t.multi = s.multi) (hunused : t.multiWakeups = s.multiWakeups)
    (hopened : t.phase.opened = true → s.phase.opened = true)
    (hunpublished : t.phase.unpublished = true → s.phase.unpublished = true)
    (hsearched : t.phase.searched = false) : t.Attended := by
  refine ⟨?_, ?_, ?_, hunused.trans h.unused, fun hyes => ?_, fun hpolling => ?_⟩
  · rw [hwakeFd]
    exact fun ht => h.opened (hopened ht)
  · rw [hwakeFd, hmulti]
    exact h.multi
  · rw [hmulti]
    exact fun ht => h.unpublished (hunpublished ht)
  · rw [hsearched] at hyes
    cases hyes
  · rw [hpolling] at hsearched
    cases hsearched

/-- A step of the worker that leads on to the `epoll_wait`, after it has found the queue empty. -/
theorem Attended.searched (h : s.Attended) (hsame : t = { s with phase := t.phase })
    (hopened : s.phase.opened = true) (hunpublished : t.phase.unpublished = false)
    (hqueue : t.phase.searched = true → s.queue ≠ [] → s.wakeFd ≠ some 0)
    (hstop : t.phase = .polling → s.stop = true →
      s.notifying = true ∨ s.active ≠ [] ∨ s.wakeFd ≠ some 0) : t.Attended := by
  rw [hsame]
  refine ⟨fun _ => h.opened hopened, h.multi, fun hyes => ?_, h.unused, hqueue, hstop⟩
  exact absurd (hunpublished.symm.trans hyes) Bool.false_ne_true

/-- A step of the worker before `multi_` is set, or after it has been cleared, whatever becomes of
the eventfd. -/
theorem Attended.unopened (h : s.Attended) (hunpublished : s.phase.unpublished = true)
    (hsame : t = { s with wakeFd := t.wakeFd, phase := t.phase })
    (hopened : t.phase.opened = false) (hsearched : t.phase.searched = false) : t.Attended := by
  have hunset : s.multi = false := h.unpublished hunpublished
  rw [hsame]
  refine ⟨fun hyes => ?_, fun hset => ?_, fun _ => hunset, h.unused, fun hyes => ?_,
    fun hpolling => ?_⟩
  · exact absurd (hopened.symm.trans hyes) Bool.false_ne_true
  · exact absurd (hunset.symm.trans hset) Bool.false_ne_true
  · exact absurd (hsearched.symm.trans hyes) Bool.false_ne_true
  · have hpolls : t.phase = .polling := hpolling
    rw [hpolls] at hsearched
    cases hsearched

/-- What every step keeps. -/
theorem Attended.move (h : s.Attended) (hmove : Move s t) : t.Attended := by
  cases hmove with
  | submit | notify => exact .wakeWorkerLocked h.opened h.multi h.unpublished h.unused
  | shutdown =>
    exact ⟨h.opened, h.multi, h.unpublished, h.unused, h.queue, fun _ _ => .inl rfl⟩
  | shutdownAgain => exact h
  | opened =>
    exact ⟨fun _ => Option.some_ne_none 0, fun _ => Option.some_ne_none 0, (by cases ·), h.unused,
      (by cases ·), (by cases ·)⟩
  | notOpened error wakeFd hphase =>
    -- the eventfd may have been opened, but `multi_` has not been set
    exact h.unopened (by rw [hphase]; rfl) rfl rfl rfl
  | published hphase | publishedFailing error hphase =>
    have hopen : s.wakeFd ≠ none := h.opened (by rw [hphase]; rfl)
    exact ⟨fun _ => hopen, fun _ => hopen, (by cases ·), h.unused, (by cases ·), (by cases ·)⟩
  | drainedTop hphase hqueue =>
    -- the queue has just been seen to be empty
    exact h.searched rfl (by rw [hphase]; rfl) rfl (fun _ hleft => absurd hqueue hleft)
      (by cases ·)
  | completed place ticket response hphase hactive =>
    refine ⟨h.opened, h.multi, h.unpublished, h.unused, h.queue, fun hpolling => ?_⟩
    rw [answer_phase, hphase] at hpolling
    cases hpolling
  | readTop hphase | loadedStop hphase =>
    -- nothing has been read off the eventfd since the queue was empty
    exact h.searched rfl (by rw [hphase]; rfl) rfl (fun _ => h.queue (by rw [hphase]; rfl))
      (by cases ·)
  | loaded hphase hstop =>
    refine h.searched rfl (by rw [hphase]; rfl) rfl (fun _ => h.queue (by rw [hphase]; rfl))
      fun _ hset => ?_
    exact absurd (hstop.symm.trans hset) Bool.false_ne_true
  | stayed hphase hleft =>
    have hqueue := h.queue (by rw [hphase]; rfl)
    refine h.searched rfl (by rw [hphase]; rfl) rfl (fun _ => hqueue) fun _ _ => ?_
    -- it stays because of a transfer, or of a request whose submission is to wake it
    by_cases hactive : s.active = []
    · exact .inr (.inr (hqueue fun hempty => hleft ⟨hempty, hactive⟩))
    · exact .inr (.inl hactive)
  | woken rest hphase =>
    have hopen : s.wakeFd ≠ none := h.opened (by rw [hphase]; rfl)
    -- the count is zero now, but the queue is drained before the worker sleeps again
    have hstill : s.wakeFd.map (fun _ => 0) ≠ none := by simpa using hopen
    exact ⟨fun _ => hstill, fun _ => hstill, (by cases ·), h.unused, (by cases ·), (by cases ·)⟩
  | left =>
    exact ⟨(by cases ·), (by cases ·), fun _ => rfl, h.unused, (by cases ·), (by cases ·)⟩
  | fdsClosed hphase =>
    -- `multi_` has been cleared before
    exact h.unopened (by rw [hphase]; rfl) rfl rfl rfl
  -- every other step leads to a place from which the queue is drained first
  | _ =>
    exact h.unsearched rfl rfl rfl (by simp_all [Phase.opened]) (by simp_all [Phase.unpublished])
      rfl

theorem attended_of_reaches (hreach : Reaches step {} s) : s.Attended :=
  invariant_of_moves (fun _ _ h => h.move) attended_start hreach

end Worker

/-- In no state that is reached does the worker sleep over a request. If it sleeps while the flag
is set, the one who has set it is about to wake it, or libcurl has transfers. -/
theorem curl_wakeup_not_lost {s : Worker} (hreach : Reaches Worker.step {} s)
    (hasleep : s.Asleep) :
    s.queue = [] ∧ (s.stop = true → s.notifying = true ∨ s.active ≠ []) := by
  obtain ⟨hpolling, hzero⟩ := hasleep
  have hattended := Worker.attended_of_reaches hreach
  constructor
  · by_contra hqueue
    exact hattended.queue (by rw [hpolling]; rfl) hqueue hzero
  · intro hstop
    exact (hattended.stop hpolling hstop).imp_right fun h => h.resolve_right (not_not_intro hzero)

/-- A request is on its way when somebody sets the flag, while the worker sleeps. -/
def sleepThrough : List Action :=
  [.start true, .openFds none, .publish none, .submit, .drain, .add .added, .drain, .readDone,
    .load, .poll [.wake], .handle, .drain, .act none, .readDone, .handle, .drain, .readDone,
    .load, .shutdown]

def sleeping : Worker :=
  { active := [0], submitted := 1, stop := true, notifying := true, multi := true,
    wakeFd := some 0, phase := .polling }

theorem curl_wakeup_not_lost_sleeping :
    sleeping.queue = [] ∧ (true = true → sleeping.notifying = true ∨ sleeping.active ≠ []) :=
  curl_wakeup_not_lost ⟨sleepThrough, by decide⟩ (by decide)

/-- The worker is shut down. One request comes after it has decided to leave, and another one after
it has closed the descriptors. -/
def wakeTooLate : List Action :=
  [.start true, .openFds none, .publish none, .drain, .readDone, .shutdown, .load, .check, .submit,
    .leave, .notify, .close, .submit]

def wokenTooLate : Worker :=
  { queue := [0, 1], submitted := 2, stop := true, phase := .ended, closedAt := some 0 }

end HttpClient.Curl
