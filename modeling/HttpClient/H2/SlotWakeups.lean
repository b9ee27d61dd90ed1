import HttpClient.H2.SlotAccounts

/-!
# Waking those in line for a slot

Requests that find no stream slot free sleep in line. A slot that becomes free wakes the
first in line, and whoever is woken passes the slot loop again when it resumes. So while
somebody sleeps in line, there should be as many woken requests on their way as there are
free slots.

Each release and each change of the limit wakes one request, so the limit must not be
raised by several slots at once. What is woken must be a request: a wait that has timed
out stays in line, and so does one that has been cut short at its start. And a request
that has been woken must not time out before it resumes.

## Main definitions

* `Impl.SleepsInLine`, `Impl.freeSlots`, `Impl.wokenWaiters` — what is compared
* `Lined` — the line is in order
* `Wakeful` — free slots are claimed, but for what the running coroutine owes
* `KeepsWakeups` — the steps that lose no wake-up

## Main results

* `Wakeful.wake` — a slot that becomes free wakes a request
* `Wakeful.move` — a move keeps the free slots claimed
* `free_slots_claimed` — runs of steps that lose no wake-up
* `slots_idle_after_settings` — raising the limit leaves slots idle
-/

set_option autoImplicit false

namespace HttpClient.H2

open Semantics Text

variable {options : SessionOptions} {g : Guards} {impl impl' : Impl} {hand hand' : Hand}
  {caller : Caller} {wakes : Prop} {i w : Nat}

/-! ### Sleepers, free slots and woken requests -/

/-- The waiter of a request that waits for a slot. -/
def Phase.slotWaiter : Phase → Option Nat
  | .slotWait w => some w
  | _ => none

/-- A request that has been woken but has not resumed. -/
def Caller.isWoken (waiters : Nat → Waiter) (caller : Caller) : Bool :=
  caller.phase.slotWaiter.any fun w => (waiters w).woken

/-- A request that sleeps in line and has not been cancelled. -/
def Caller.isInLine (line : List Nat) (caller : Caller) : Bool :=
  !caller.cancelled && caller.phase.slotWaiter.any fun w => decide (w ∈ line)

def Impl.SleepsInLine (impl : Impl) : Prop :=
  ∃ c ∈ impl.callers, c.isInLine impl.admission.streamWaiters = true

def Impl.freeSlots (options : SessionOptions) (impl : Impl) : Nat :=
  impl.admission.streamLimit options - impl.admission.activeStreams

def Impl.wokenWaiters (impl : Impl) : Nat :=
  impl.callers.countP (Caller.isWoken impl.admission.waiters)

/-- Every waiter in line that is not cancelled belongs to a request that waits. -/
def Impl.ClearLine (impl : Impl) : Prop :=
  ∀ w ∈ impl.admission.streamWaiters, (impl.admission.waiters w).cancelled = false →
    ∃ c ∈ impl.callers, c.phase.slotWaiter = some w

/-- The line is in order: nobody in it has been woken, its waiters are not those of
requests that wait for the connection, and after a shutdown nobody sleeps in it. -/
structure Lined (impl : Impl) : Prop where
  nodup : impl.admission.streamWaiters.Nodup
  asleep : ∀ w ∈ impl.admission.streamWaiters, (impl.admission.waiters w).woken = false
  fresh : ∀ w ∈ impl.admission.streamWaiters, w < impl.admission.nextWaiter
  connects : ∀ w ∈ impl.admission.connectWaiters,
    w < impl.admission.nextWaiter ∧ w ∉ impl.admission.streamWaiters
  waits : ∀ c ∈ impl.callers, ∀ w, c.phase.slotWaiter = some w → w < impl.admission.nextWaiter
  stopped : impl.link.stopping = true → ¬ impl.SleepsInLine

/-- A slot the running request has been woken for. -/
def Hand.owed (waiters : Nat → Waiter) : Hand → Nat
  | .running caller => if caller.isWoken waiters then 1 else 0
  | _ => 0

/-- The running coroutine wakes nobody any more. -/
def Hand.over : Hand → Bool
  | .failing _ | .ended => true
  | _ => false

/-- While somebody sleeps in line, the free slots are claimed. In a step that may wake
somebody, the line is clear until the step is over. -/
structure Wakeful (options : SessionOptions) (wakes : Prop) (s : Impl × Hand) : Prop where
  lined : Lined s.1
  claimed : s.2 = .broken ∨ (s.1.SleepsInLine →
    s.1.freeSlots options ≤ s.1.wokenWaiters + s.2.owed s.1.admission.waiters)
  clear : wakes → s.2.over = true ∨ s.1.ClearLine ∨ ¬ s.1.SleepsInLine

theorem isWoken_iff {waiters : Nat → Waiter} : caller.isWoken waiters = true ↔
    ∃ w, caller.phase.slotWaiter = some w ∧ (waiters w).woken = true := by
  unfold Caller.isWoken
  rw [Option.any_eq_true]

theorem isInLine_iff {line : List Nat} : caller.isInLine line = true ↔
    caller.cancelled = false ∧ ∃ w, caller.phase.slotWaiter = some w ∧ w ∈ line := by
  unfold Caller.isInLine
  rw [Bool.and_eq_true, Option.any_eq_true]
  simp

theorem isWoken_of_elsewhere {waiters : Nat → Waiter} (h : caller.phase.slotWaiter = none) :
    caller.isWoken waiters = false := by
  simp [Caller.isWoken, h]

theorem isInLine_of_elsewhere {line : List Nat} (h : caller.phase.slotWaiter = none) :
    caller.isInLine line = false := by
  simp [Caller.isInLine, h]

/-- A shorter line has no new sleepers. -/
theorem Impl.SleepsInLine.mono (h : impl'.SleepsInLine)
    (hcallers : ∀ c ∈ impl'.callers, c.isInLine impl'.admission.streamWaiters = true →
      c ∈ impl.callers)
    (hline : ∀ w ∈ impl'.admission.streamWaiters, w ∈ impl.admission.streamWaiters) :
    impl.SleepsInLine := by
  obtain ⟨c, hc, hin⟩ := h
  obtain ⟨hcancelled, w, hphase, hw⟩ := isInLine_iff.mp hin
  exact ⟨c, hcallers c hc hin, isInLine_iff.mpr ⟨hcancelled, w, hphase, hline w hw⟩⟩

/-- Waiters that have been woken stay so. -/
theorem wokenWaiters_mono (hlined : Lined impl) (hcallers : impl'.callers = impl.callers)
    (hwoken : ∀ w < impl.admission.nextWaiter, (impl.admission.waiters w).woken = true →
      (impl'.admission.waiters w).woken = true) : impl.wokenWaiters ≤ impl'.wokenWaiters := by
  unfold Impl.wokenWaiters
  rw [hcallers]
  refine List.countP_mono_left fun c hc hbefore => ?_
  obtain ⟨w, hphase, hw⟩ := isWoken_iff.mp hbefore
  exact isWoken_iff.mpr ⟨w, hphase, hwoken w (hlined.waits c hc w hphase) hw⟩

theorem not_sleepsInLine_of_nil (h : impl.admission.streamWaiters = []) :
    ¬ impl.SleepsInLine := by
  rintro ⟨c, -, hin⟩
  obtain ⟨-, w, -, hw⟩ := isInLine_iff.mp hin
  rw [h] at hw
  exact List.not_mem_nil hw

/-! ### Waking the first in line -/

/-- Either all in line are cancelled, or the first who is not is woken. -/
theorem wakeNext_cases (waiters : Nat → Waiter) (line : List Nat) :
    Admission.wakeNext waiters line = (waiters, []) ∨
      ∃ dropped w rest, line = dropped ++ w :: rest ∧ (waiters w).cancelled = false ∧
        Admission.wakeNext waiters line =
          (Function.update waiters w { waiters w with woken := true }, rest) := by
  induction line with
  | nil => exact Or.inl rfl
  | cons w line ih =>
    rw [Admission.wakeNext]
    -- cancelled waiters at the head of the line are dropped
    split_ifs with hcancelled
    · rcases ih with hnone | ⟨dropped, v, rest, rfl, hv, hsome⟩
      · exact Or.inl hnone
      · exact Or.inr ⟨w :: dropped, v, rest, rfl, hv, hsome⟩
    · have hlive : (waiters w).cancelled = false := by simpa using hcancelled
      refine Or.inr ⟨[], w, line, rfl, hlive, ?_⟩
      unfold wakeWaiter
      rw [if_neg hcancelled]

/-- What a wake-up does to the line: nothing if no slot is free, or the line is empty
afterwards, or the first who is not cancelled leaves it and is woken. -/
inductive Woken (options : SessionOptions) (before after : Admission) : Prop
  | nobody (hfull : after.streamLimit options ≤ after.activeStreams)
      (hwaiters : after.waiters = before.waiters)
      (hline : after.streamWaiters = before.streamWaiters)
  | empty (hwaiters : after.waiters = before.waiters) (hline : after.streamWaiters = [])
  | first (dropped : List Nat) (w : Nat) (rest : List Nat)
      (hbefore : before.streamWaiters = dropped ++ w :: rest)
      (hlive : (before.waiters w).cancelled = false)
      (hwaiters : after.waiters =
        Function.update before.waiters w { before.waiters w with woken := true })
      (hline : after.streamWaiters = rest)

theorem woken_wakeStreamWaiters (admission : Admission) :
    Woken options admission (admission.wakeStreamWaiters options) := by
  unfold Admission.wakeStreamWaiters
  split_ifs with hfree
  · rcases wakeNext_cases admission.waiters admission.streamWaiters with
      hnone | ⟨dropped, w, rest, hbefore, hlive, hsome⟩
    · rw [hnone]
      exact .empty rfl rfl
    · rw [hsome]
      exact .first dropped w rest hbefore hlive rfl rfl
  · exact .nobody (Nat.not_lt.mp hfree) rfl rfl

/-- What a wake-up leaves alone. -/
theorem wakeStreamWaiters_keeps (admission : Admission) :
    (admission.wakeStreamWaiters options).connectWaiters = admission.connectWaiters ∧
      (admission.wakeStreamWaiters options).nextWaiter = admission.nextWaiter := by
  unfold Admission.wakeStreamWaiters
  split_ifs <;> exact ⟨rfl, rfl⟩

/-- After a wake-up: the same session with a slot count and a limit of its own. -/
structure WakesUp (options : SessionOptions) (impl impl' : Impl) : Prop where
  admission : ∃ activeStreams peerMaxConcurrentStreams,
    impl'.admission = { impl.admission with
      activeStreams, peerMaxConcurrentStreams }.wakeStreamWaiters options
  callers : impl'.callers = impl.callers
  stopping : impl'.link.stopping = impl.link.stopping

namespace WakesUp

theorem woken (h : WakesUp options impl impl') :
    Woken options impl.admission impl'.admission := by
  obtain ⟨active, peer, hadmission⟩ := h.admission
  rw [hadmission]
  exact match woken_wakeStreamWaiters { impl.admission with
      activeStreams := active, peerMaxConcurrentStreams := peer } with
    | .nobody hfull hwaiters hline => .nobody hfull hwaiters hline
    | .empty hwaiters hline => .empty hwaiters hline
    | .first dropped w rest hbefore hlive hwaiters hline =>
      .first dropped w rest hbefore hlive hwaiters hline

theorem keeps (h : WakesUp options impl impl') :
    impl'.admission.connectWaiters = impl.admission.connectWaiters ∧
      impl'.admission.nextWaiter = impl.admission.nextWaiter := by
  obtain ⟨active, peer, hadmission⟩ := h.admission
  rw [hadmission]
  exact wakeStreamWaiters_keeps _

theorem mem_line (h : WakesUp options impl impl')
    (hw : w ∈ impl'.admission.streamWaiters) : w ∈ impl.admission.streamWaiters := by
  rcases h.woken with ⟨-, -, hline⟩ | ⟨-, hline⟩ | ⟨dropped, v, rest, hbefore, -, -, hline⟩
  · rwa [hline] at hw
  · rw [hline] at hw
    exact absurd hw List.not_mem_nil
  · rw [hline] at hw
    rw [hbefore]
    exact List.mem_append_right _ (List.mem_cons_of_mem _ hw)

theorem sleeps (h : WakesUp options impl impl') (hsleeps : impl'.SleepsInLine) :
    impl.SleepsInLine :=
  hsleeps.mono (fun _ hc _ => h.callers ▸ hc) fun _ hw => h.mem_line hw

/-- Those who stay in line are left alone. -/
theorem waiter_eq (h : WakesUp options impl impl') (hlined : Lined impl)
    (hw : w ∈ impl'.admission.streamWaiters) :
    impl'.admission.waiters w = impl.admission.waiters w := by
  rcases h.woken with ⟨-, hwaiters, -⟩ | ⟨hwaiters, -⟩ |
    ⟨dropped, v, rest, hbefore, -, hwaiters, hline⟩
  · rw [hwaiters]
  · rw [hwaiters]
  · have hnodup := hbefore ▸ hlined.nodup
    have hne : w ≠ v := by
      rintro rfl
      rw [hline] at hw
      exact (List.nodup_cons.mp (List.nodup_append.mp hnodup).2.1).1 hw
    rw [hwaiters, Function.update_of_ne hne]

theorem lined (h : WakesUp options impl impl') (hlined : Lined impl) : Lined impl' := by
  obtain ⟨hconnects, hnext⟩ := h.keeps
  refine ⟨?_, fun w hw => ?_, fun w hw => ?_, fun w hw => ?_, fun c hc w hphase => ?_, ?_⟩
  · rcases h.woken with ⟨-, -, hline⟩ | ⟨-, hline⟩ | ⟨dropped, v, rest, hbefore, -, -, hline⟩
    · exact hline ▸ hlined.nodup
    · exact hline ▸ List.nodup_nil
    · have hnodup := hbefore ▸ hlined.nodup
      exact hline ▸ (List.nodup_cons.mp (List.nodup_append.mp hnodup).2.1).2
  · rw [h.waiter_eq hlined hw]
    exact hlined.asleep w (h.mem_line hw)
  · exact hnext ▸ hlined.fresh w (h.mem_line hw)
  · obtain ⟨hlt, hout⟩ := hlined.connects w (hconnects ▸ hw)
    exact ⟨hnext ▸ hlt, fun hin => hout (h.mem_line hin)⟩
  · exact hnext ▸ hlined.waits c (h.callers ▸ hc) w hphase
  · exact fun hstopping hsleeps => hlined.stopped (h.stopping ▸ hstopping) (h.sleeps hsleeps)

theorem clearLine (h : WakesUp options impl impl') (hlined : Lined impl) (hclear : impl.ClearLine) :
    impl'.ClearLine := by
  intro w hw hlive
  rw [h.waiter_eq hlined hw] at hlive
  rw [h.callers]
  exact hclear w (h.mem_line hw) hlive

/-- Unless no slot is free or nobody is left in line, a request has been woken. -/
theorem wokenWaiters (h : WakesUp options impl impl') (hlined : Lined impl)
    (hclear : impl.ClearLine) (hsleeps : impl'.SleepsInLine) :
    impl'.freeSlots options = 0 ∨ impl.wokenWaiters + 1 ≤ impl'.wokenWaiters := by
  rcases h.woken with ⟨hfull, -, -⟩ | ⟨-, hline⟩ | ⟨dropped, v, rest, hbefore, hlive, hwaiters, -⟩
  · exact Or.inl (Nat.sub_eq_zero_of_le hfull)
  · exact absurd hsleeps (not_sleepsInLine_of_nil hline)
  · have hv : v ∈ impl.admission.streamWaiters := by simp [hbefore]
    obtain ⟨c, hc, hphase⟩ := hclear v hv hlive
    -- The request that waits on it was asleep and is woken now.
    have hasleep : c.isWoken impl.admission.waiters = false := by
      simp [Caller.isWoken, hphase, hlined.asleep v hv]
    have hawake : c.isWoken impl'.admission.waiters = true := by
      simp [Caller.isWoken, hphase, hwaiters]
    have hmono : ∀ callers : List Caller, callers.countP (Caller.isWoken impl.admission.waiters) ≤
        callers.countP (Caller.isWoken impl'.admission.waiters) := by
      refine fun callers => List.countP_mono_left fun d _ hd => ?_
      obtain ⟨w, hw, hwoken⟩ := isWoken_iff.mp hd
      refine isWoken_iff.mpr ⟨w, hw, ?_⟩
      rw [hwaiters, Function.update_apply]
      split_ifs
      · rfl
      · exact hwoken
    obtain ⟨before, after, hcallers⟩ := List.append_of_mem hc
    have hleft := hmono before
    have hright := hmono after
    refine Or.inr ?_
    unfold Impl.wokenWaiters
    rw [h.callers, hcallers, List.countP_append, List.countP_append, List.countP_cons,
      List.countP_cons, hasleep, hawake]
    simp only [Bool.false_eq_true, if_false, if_true]
    omega

end WakesUp

/-- A slot that becomes free, or a limit raised by one, wakes a request. -/
theorem Wakeful.wake (h : Wakeful options wakes (impl, hand)) (hwakes : wakes)
    (hhand : hand.over = false) (hlive : hand ≠ .broken)
    (howes : hand.owed impl.admission.waiters = 0) (hwake : WakesUp options impl impl')
    (hfree : impl.SleepsInLine → impl'.freeSlots options ≤ impl.freeSlots options + 1) :
    Wakeful options wakes (impl', hand') := by
  obtain ⟨hlined, hclaimed, hclear⟩ := h
  have hline : impl.ClearLine ∨ ¬ impl.SleepsInLine :=
    (hclear hwakes).resolve_left (by simp [hhand])
  refine ⟨hwake.lined hlined, Or.inr fun hsleeps => ?_, fun _ => Or.inr ?_⟩
  · have hbefore := hwake.sleeps hsleeps
    have hslots := hclaimed.resolve_left hlive hbefore
    have hraised := hfree hbefore
    dsimp only at hslots ⊢
    rcases hwake.wokenWaiters hlined (hline.resolve_right (not_not_intro hbefore)) hsleeps with
      hzero | hwoken <;> omega
  · exact hline.imp (hwake.clearLine hlined) fun hnobody hsleeps => hnobody (hwake.sleeps hsleeps)

/-! ### Moves that wake nobody in line -/

/-- No slot becomes free unless a woken request is there to claim it. -/
theorem Wakeful.of_lined (h : Wakeful options wakes (impl, hand)) (hlined : Lined impl')
    (hlive : hand ≠ .broken)
    (hslots : impl'.SleepsInLine → impl'.freeSlots options = 0 ∨ impl.SleepsInLine ∧
      impl'.freeSlots options + impl.wokenWaiters + hand.owed impl.admission.waiters ≤
        impl.freeSlots options + impl'.wokenWaiters + hand'.owed impl'.admission.waiters)
    (hclear : hand'.over = true ∨ hand.over = false ∧ (impl.ClearLine → impl'.ClearLine) ∧
      (impl'.SleepsInLine → impl.SleepsInLine)) : Wakeful options wakes (impl', hand') := by
  refine ⟨hlined, Or.inr fun hsleeps => ?_, fun hwakes => ?_⟩
  · dsimp only
    rcases hslots hsleeps with hzero | ⟨hbefore, hle⟩
    · omega
    · have hclaimed := h.claimed.resolve_left hlive hbefore
      dsimp only at hclaimed
      omega
  · rcases hclear with hover | ⟨hhand, hline, hsleeps⟩
    · exact Or.inl hover
    · refine Or.inr (((h.clear hwakes).resolve_left (by simp [hhand])).imp hline ?_)
      exact fun hnobody hsleeps' => hnobody (hsleeps hsleeps')

theorem freeSlots_congr (h : impl'.admission.activeStreams = impl.admission.activeStreams ∧
    impl'.admission.peerMaxConcurrentStreams = impl.admission.peerMaxConcurrentStreams) :
    impl'.freeSlots options = impl.freeSlots options := by
  unfold Impl.freeSlots Admission.streamLimit
  rw [h.1, h.2]

/-- The line gets no longer, and nobody in it is woken. -/
theorem Lined.of_sublist (h : Lined impl) (hcallers : impl'.callers = impl.callers)
    (hstopping : impl'.link.stopping = impl.link.stopping)
    (hline : impl'.admission.streamWaiters.Sublist impl.admission.streamWaiters)
    (hnext : impl.admission.nextWaiter ≤ impl'.admission.nextWaiter)
    (hwoken : ∀ w ∈ impl'.admission.streamWaiters,
      (impl'.admission.waiters w).woken = (impl.admission.waiters w).woken)
    (hconnects : ∀ w ∈ impl'.admission.connectWaiters,
      w < impl'.admission.nextWaiter ∧ w ∉ impl'.admission.streamWaiters) : Lined impl' where
  nodup := h.nodup.sublist hline
  asleep w hw := (hwoken w hw).trans (h.asleep w (hline.subset hw))
  fresh w hw := (h.fresh w (hline.subset hw)).trans_le hnext
  connects := hconnects
  waits c hc w hphase := (h.waits c (hcallers ▸ hc) w hphase).trans_le hnext
  stopped hstops hsleeps := h.stopped (hstopping ▸ hstops)
    (hsleeps.mono (fun _ hc _ => hcallers ▸ hc) fun _ hw => hline.subset hw)

/-- A waiter joins the line. -/
theorem Lined.enqueueStream (h : Lined impl) :
    Lined { impl with admission := impl.admission.enqueueStream } := by
  have hold : ∀ w ∈ impl.admission.streamWaiters, w ≠ impl.admission.nextWaiter :=
    fun w hw => (h.fresh w hw).ne
  refine ⟨?_, fun w hw => ?_, fun w hw => ?_, fun w hw => ?_, fun c hc w hphase => ?_, ?_⟩
  · refine List.nodup_append.mpr ⟨h.nodup, List.nodup_singleton _, fun a ha b hb => ?_⟩
    rw [List.mem_singleton.mp hb]
    exact hold a ha
  · rcases List.mem_append.mp hw with hmem | hmem
    · simp [Admission.enqueueStream, Function.update_of_ne (hold w hmem), h.asleep w hmem]
    · simp [Admission.enqueueStream, List.mem_singleton.mp hmem]
  · rcases List.mem_append.mp hw with hmem | hmem
    · exact (h.fresh w hmem).trans (Nat.lt_succ_self _)
    · exact List.mem_singleton.mp hmem ▸ Nat.lt_succ_self _
  · obtain ⟨hlt, hout⟩ := h.connects w hw
    refine ⟨hlt.trans (Nat.lt_succ_self _), fun hin => ?_⟩
    rcases List.mem_append.mp hin with hmem | hmem
    · exact hout hmem
    · exact hlt.ne (List.mem_singleton.mp hmem)
  · exact (h.waits c hc w hphase).trans (Nat.lt_succ_self _)
  · rintro hstops ⟨c, hc, hin⟩
    obtain ⟨hcancelled, w, hphase, hw⟩ := isInLine_iff.mp hin
    rcases List.mem_append.mp hw with hmem | hmem
    · exact h.stopped hstops ⟨c, hc, isInLine_iff.mpr ⟨hcancelled, w, hphase, hmem⟩⟩
    · exact (h.waits c hc w hphase).ne (List.mem_singleton.mp hmem)

/-- A request that is suspended elsewhere does not sleep in line. -/
theorem sleeps_suspend {phase : Phase} (hphase : phase.slotWaiter = none)
    (h : (impl.suspend caller phase).SleepsInLine) : impl.SleepsInLine := by
  obtain ⟨c, hc, hin⟩ := h
  rcases List.mem_append.mp hc with hmem | hmem
  · exact ⟨c, hmem, hin⟩
  · obtain rfl := List.mem_singleton.mp hmem
    rw [isInLine_of_elsewhere hphase] at hin
    cases hin

theorem Lined.suspend {phase : Phase} (h : Lined impl) (hphase : phase.slotWaiter = none) :
    Lined (impl.suspend caller phase) where
  nodup := h.nodup
  asleep := h.asleep
  fresh := h.fresh
  connects := h.connects
  waits c hc w hw := by
    rcases List.mem_append.mp hc with hmem | hmem
    · exact h.waits c hmem w hw
    · obtain rfl := List.mem_singleton.mp hmem
      rw [hphase] at hw
      cases hw
  stopped hstops hsleeps := h.stopped hstops (sleeps_suspend hphase hsleeps)

theorem wokenWaiters_suspend {phase : Phase} (hphase : phase.slotWaiter = none) :
    (impl.suspend caller phase).wokenWaiters = impl.wokenWaiters := by
  unfold Impl.wokenWaiters Impl.suspend
  dsimp only
  rw [List.countP_append, List.countP_singleton, isWoken_of_elsewhere hphase]
  rfl

/-- The running request, which owes nothing, is suspended elsewhere. -/
theorem Wakeful.suspend {phase : Phase} (h : Wakeful options wakes (impl, hand))
    (hlive : hand ≠ .broken) (howes : hand.owed impl.admission.waiters = 0)
    (hphase : phase.slotWaiter = none) :
    Wakeful options wakes (impl.suspend caller phase, .ended) := by
  refine h.of_lined (h.lined.suspend hphase) hlive (fun hsleeps => Or.inr ?_) (Or.inl rfl)
  refine ⟨sleeps_suspend hphase hsleeps, ?_⟩
  have hfree : (impl.suspend caller phase).freeSlots options = impl.freeSlots options := rfl
  rw [wokenWaiters_suspend hphase, howes, hfree]
  simp [Hand.owed]

theorem owed_of {waiters : Nat → Waiter} (caller : Caller) :
    (Hand.of caller).owed waiters = if caller.isWoken waiters then 1 else 0 := by
  unfold Hand.of
  cases hphase : caller.phase with
  | responseWait id w => simp [Hand.owed, Caller.isWoken, hphase, Phase.slotWaiter]
  | _ => rfl

/-- A request is taken out to run. -/
theorem Wakeful.take (h : Wakeful options wakes (impl, .nothing))
    (hcaller : impl.callers[i]? = some caller)
    (hwoken : wakes → ∀ w, caller.phase = .slotWait w → (impl.admission.waiters w).woken = true) :
    Wakeful options wakes (impl.without i, .of caller) := by
  have hsub : ∀ c ∈ (impl.without i).callers, c ∈ impl.callers :=
    fun c hc => List.mem_of_mem_eraseIdx hc
  have hsleeps : (impl.without i).SleepsInLine → impl.SleepsInLine :=
    fun hsleeps => hsleeps.mono (fun c hc _ => hsub c hc) fun _ hw => hw
  obtain ⟨hlined, hclaimed, hclear⟩ := h
  refine ⟨⟨hlined.nodup, hlined.asleep, hlined.fresh, hlined.connects,
    fun c hc => hlined.waits c (hsub c hc), fun hstops hin => hlined.stopped hstops (hsleeps hin)⟩,
    Or.inr fun hin => ?_, fun hwakes => Or.inr ?_⟩
  · have hslots := hclaimed.resolve_left (by simp) (hsleeps hin)
    have hsplit : impl.wokenWaiters = (impl.without i).wokenWaiters +
        if caller.isWoken impl.admission.waiters then 1 else 0 := countP_without hcaller _
    have howed : (Hand.of caller).owed (impl.without i).admission.waiters =
        if caller.isWoken impl.admission.waiters then 1 else 0 := owed_of caller
    have hfree : (impl.without i).freeSlots options = impl.freeSlots options := rfl
    have hnone : Hand.nothing.owed impl.admission.waiters = 0 := rfl
    dsimp only at hslots ⊢
    rw [howed, hfree]
    rw [hsplit, hnone] at hslots
    exact hslots
  · -- Nobody asleep in line has been taken out.
    rcases (hclear hwakes).resolve_left (by simp [Hand.over]) with hline | hnobody
    · refine Or.inl fun w hw hlive => ?_
      obtain ⟨c, hc, hphase⟩ := hline w hw hlive
      obtain ⟨hlt, rfl⟩ := List.getElem?_eq_some_iff.mp hcaller
      have hmem := (List.getElem_cons_eraseIdx_perm hlt).mem_iff.mpr hc
      rcases List.mem_cons.mp hmem with rfl | hmem
      · have hslot : impl.callers[i].phase = .slotWait w := by
          cases hp : impl.callers[i].phase <;> simp_all [Phase.slotWaiter]
        have hawake := hwoken hwakes w hslot
        rw [hlined.asleep w hw] at hawake
        cases hawake
      · exact ⟨c, hmem, hphase⟩
    · exact Or.inr fun hin => hnobody (hsleeps hin)

/-- Everybody in line has been woken. -/
theorem Wakeful.of_empty (h : Lined impl) (hline : impl'.admission.streamWaiters = [])
    (hcallers : impl'.callers = impl.callers)
    (hconnects : impl'.admission.connectWaiters = impl.admission.connectWaiters)
    (hnext : impl'.admission.nextWaiter = impl.admission.nextWaiter) :
    Wakeful options wakes (impl', hand') := by
  have hnobody := not_sleepsInLine_of_nil hline
  refine ⟨⟨hline ▸ List.nodup_nil, fun w hw => ?_, fun w hw => ?_, fun w hw => ?_,
    fun c hc w hphase => ?_, fun _ => hnobody⟩, Or.inr fun hsleeps => absurd hsleeps hnobody,
    fun _ => Or.inr (Or.inr hnobody)⟩
  · exact absurd (hline ▸ hw) List.not_mem_nil
  · exact absurd (hline ▸ hw) List.not_mem_nil
  · refine ⟨hnext ▸ (h.connects w (hconnects ▸ hw)).1, ?_⟩
    rw [hline]
    exact List.not_mem_nil
  · exact hnext ▸ h.waits c (hcallers ▸ hc) w hphase

theorem wakeStreamWaiters_of_nil {admission : Admission} (h : admission.streamWaiters = []) :
    admission.wakeStreamWaiters options = admission := by
  unfold Admission.wakeStreamWaiters
  split_ifs
  · rw [h]
    simp [Admission.wakeNext, ← h]
  · rfl

/-- What the end of a connection leaves of the lines. -/
theorem disconnect_keeps (options : SessionOptions) (impl : Impl) :
    (impl.disconnect options).admission.streamWaiters = [] ∧
      (impl.disconnect options).admission.connectWaiters = impl.admission.connectWaiters ∧
      (impl.disconnect options).admission.nextWaiter = impl.admission.nextWaiter := by
  unfold Impl.disconnect Impl.failAllStreams
  dsimp only
  rw [wakeStreamWaiters_of_nil rfl]
  exact ⟨rfl, rfl, rfl⟩

/-- Waiters that are woken elsewhere. -/
theorem woken_foldl_wakeWaiter (ws : List Nat) (waiters : Nat → Waiter) (w : Nat) :
    (w ∉ ws → ws.foldl wakeWaiter waiters w = waiters w) ∧
      ((waiters w).woken = true → (ws.foldl wakeWaiter waiters w).woken = true) := by
  induction ws generalizing waiters with
  | nil => exact ⟨fun _ => rfl, id⟩
  | cons v ws ih =>
    obtain ⟨hsame, hmono⟩ := ih (wakeWaiter waiters v)
    rw [List.foldl_cons]
    -- waking another waiter changes nothing, and who is woken stays so
    refine ⟨fun hw => ?_, fun hwoken => hmono ?_⟩
    · have hne : w ≠ v := fun heq => hw (heq ▸ List.mem_cons_self)
      rw [hsame fun hmem => hw (List.mem_cons_of_mem _ hmem)]
      unfold wakeWaiter
      split_ifs
      · rfl
      · rw [Function.update_of_ne hne]
    · unfold wakeWaiter
      split_ifs
      · exact hwoken
      · rw [Function.update_apply]
        split_ifs
        · rfl
        · exact hwoken

theorem Lined.of_eq (h : Lined impl) (hadmission : impl'.admission = impl.admission)
    (hcallers : impl'.callers = impl.callers)
    (hstopping : impl'.link.stopping = impl.link.stopping) : Lined impl' := by
  refine h.of_sublist hcallers hstopping ?_ ?_ ?_ ?_ <;> rw [hadmission]
  · exact fun w _ => rfl
  · exact h.connects

/-- The line stays as it is; a request that owes nothing goes on. -/
theorem Wakeful.of_eq (h : Wakeful options wakes (impl, hand))
    (hadmission : impl'.admission = impl.admission) (hcallers : impl'.callers = impl.callers)
    (hstopping : impl'.link.stopping = impl.link.stopping)
    (hhand : hand' = hand ∨ hand ≠ .broken ∧ hand.owed impl.admission.waiters = 0 ∧
      (hand.over = true → hand'.over = true)) : Wakeful options wakes (impl', hand') := by
  have hlined := h.lined.of_eq hadmission hcallers hstopping
  have hsleeps : impl'.SleepsInLine → impl.SleepsInLine := by
    unfold Impl.SleepsInLine
    rw [hcallers, hadmission]
    exact id
  have hline : impl.ClearLine → impl'.ClearLine := by
    unfold Impl.ClearLine
    rw [hcallers, hadmission]
    exact id
  have hfree : impl'.freeSlots options = impl.freeSlots options := by
    unfold Impl.freeSlots
    rw [hadmission]
  have hwoken : impl'.wokenWaiters = impl.wokenWaiters := by
    unfold Impl.wokenWaiters
    rw [hcallers, hadmission]
  obtain ⟨-, hclaimed, hclear⟩ := h
  dsimp only at hclaimed hclear
  refine ⟨hlined, ?_, fun hwakes => ?_⟩
  · dsimp only
    rw [hfree, hwoken, hadmission]
    rcases hhand with rfl | ⟨hlive, howes, -⟩
    · exact hclaimed.imp id fun hslots hin => hslots (hsleeps hin)
    · refine Or.inr fun hin => ?_
      have hslots := hclaimed.resolve_left hlive (hsleeps hin)
      omega
  · have hnobody : ¬ impl.SleepsInLine → ¬ impl'.SleepsInLine := fun hnobody hin =>
      hnobody (hsleeps hin)
    rcases hhand with rfl | ⟨-, -, hover⟩
    · exact (hclear hwakes).imp id (Or.imp hline hnobody)
    · exact (hclear hwakes).imp hover (Or.imp hline hnobody)

/-- A wait that is given up while no slot is free, or by a request that owes nothing. -/
theorem Wakeful.giveUp (h : Wakeful options wakes (impl, .running caller))
    (hlined : Lined impl') (hfree : impl'.freeSlots options = impl.freeSlots options)
    (hcallers : impl'.callers = impl.callers)
    (hline : ∀ w ∈ impl'.admission.streamWaiters, w < impl.admission.nextWaiter →
      w ∈ impl.admission.streamWaiters)
    (hwoken : ∀ w < impl.admission.nextWaiter, (impl.admission.waiters w).woken = true →
      (impl'.admission.waiters w).woken = true)
    (howes : impl.SleepsInLine → impl.freeSlots options = 0 ∨
      caller.isWoken impl.admission.waiters = false) :
    Wakeful options wakes (impl', .failing caller) := by
  refine h.of_lined hlined (by simp) (fun hin => ?_) (Or.inl rfl)
  have hsleeps : impl.SleepsInLine := by
    obtain ⟨c, hc, hin⟩ := hin
    obtain ⟨hcancelled, w, hphase, hw⟩ := isInLine_iff.mp hin
    have hmem : c ∈ impl.callers := hcallers ▸ hc
    exact ⟨c, hmem, isInLine_iff.mpr ⟨hcancelled, w, hphase,
      hline w hw (h.lined.waits c hmem w hphase)⟩⟩
  rcases howes hsleeps with hzero | hasleep
  · exact Or.inl (hfree.trans hzero)
  · have hmono : impl.wokenWaiters ≤ impl'.wokenWaiters :=
      wokenWaiters_mono h.lined hcallers hwoken
    refine Or.inr ⟨hsleeps, ?_⟩
    rw [hfree]
    simp only [Hand.owed, hasleep, Bool.false_eq_true, if_false]
    omega

theorem freeSlots_of_not_grants (hlined : Lined impl) (h : impl.grants options = false)
    (hsleeps : impl.SleepsInLine) : impl.freeSlots options = 0 := by
  have hlive : impl.link.stopping = false := by
    by_contra hstops
    exact hlined.stopped (by simpa using hstops) hsleeps
  unfold Impl.grants at h
  unfold Impl.freeSlots
  simp only [hlive, Bool.not_false, Bool.true_and, decide_eq_false_iff_not] at h
  omega

theorem freeSlots_grant (h : impl.grants options = true) :
    Impl.freeSlots options { impl with admission :=
      { impl.admission with activeStreams := impl.admission.activeStreams + 1 } } + 1 =
        impl.freeSlots options := by
  unfold Impl.grants at h
  simp only [Bool.and_eq_true, decide_eq_true_eq] at h
  have hroom := h.2
  unfold Impl.freeSlots Admission.streamLimit at *
  dsimp only
  omega

theorem owed_le_one (waiters : Nat → Waiter) (hand : Hand) : hand.owed waiters ≤ 1 := by
  cases hand with
  | running caller =>
    dsimp only [Hand.owed]
    split_ifs <;> omega
  | _ => exact Nat.zero_le 1

theorem isWoken_of_waitsForSlot {waiters : Nat → Waiter} (h : caller.phase.waitsForSlot = false) :
    caller.isWoken waiters = false := by
  refine isWoken_of_elsewhere ?_
  cases hphase : caller.phase <;> simp_all [Phase.slotWaiter, Phase.waitsForSlot]

theorem streamLimit_wakeStreamWaiters (admission : Admission) :
    (admission.wakeStreamWaiters options).streamLimit options =
      admission.streamLimit options := by
  unfold Admission.wakeStreamWaiters
  split_ifs <;> rfl

theorem wakesUp_releaseStreamSlot (impl : Impl) :
    WakesUp options impl (impl.releaseStreamSlot options) ∧
      (impl.releaseStreamSlot options).freeSlots options ≤ impl.freeSlots options + 1 := by
  refine ⟨⟨⟨impl.admission.activeStreams - 1, impl.admission.peerMaxConcurrentStreams, rfl⟩, rfl,
    rfl⟩, ?_⟩
  have hactive : (impl.releaseStreamSlot options).admission.activeStreams =
      impl.admission.activeStreams - 1 := activeStreams_releaseStreamSlot impl
  have hlimit : (impl.releaseStreamSlot options).admission.streamLimit options =
      impl.admission.streamLimit options := streamLimit_wakeStreamWaiters _
  unfold Impl.freeSlots
  rw [hactive, hlimit]
  omega

/-- The line stays as it is while others are woken or join another line. -/
theorem Wakeful.of_waiters {admission : Admission} (h : Wakeful options wakes (impl, hand))
    (hlive : hand ≠ .broken)
    (hline : admission.streamWaiters = impl.admission.streamWaiters)
    (hsame : ∀ w ∈ impl.admission.streamWaiters, admission.waiters w = impl.admission.waiters w)
    (hwoken : ∀ w < impl.admission.nextWaiter, (impl.admission.waiters w).woken = true →
      (admission.waiters w).woken = true)
    (hnext : impl.admission.nextWaiter ≤ admission.nextWaiter)
    (hconnects : ∀ w ∈ admission.connectWaiters,
      w < admission.nextWaiter ∧ w ∉ admission.streamWaiters)
    (hslots : admission.activeStreams = impl.admission.activeStreams ∧
      admission.peerMaxConcurrentStreams = impl.admission.peerMaxConcurrentStreams)
    (howed : hand.owed impl.admission.waiters ≤ hand.owed admission.waiters) :
    Wakeful options wakes ({ impl with admission }, hand) := by
  have hlined : Lined { impl with admission } := by
    refine h.lined.of_sublist rfl rfl (by rw [hline]) hnext (fun w hw => ?_) hconnects
    rw [hsame w (hline ▸ hw)]
  have hfree : Impl.freeSlots options { impl with admission } = impl.freeSlots options :=
    freeSlots_congr hslots
  have hmono : impl.wokenWaiters ≤ Impl.wokenWaiters { impl with admission } :=
    wokenWaiters_mono h.lined rfl hwoken
  have hsleeps : Impl.SleepsInLine { impl with admission } → impl.SleepsInLine :=
    fun hin => hin.mono (fun _ hc _ => hc) fun w hw => hline ▸ hw
  obtain ⟨-, hclaimed, hclear⟩ := h
  refine ⟨hlined, Or.inr fun hin => ?_, fun hwakes => (hclear hwakes).imp id (Or.imp ?_ ?_)⟩
  · have hbefore := hclaimed.resolve_left hlive (hsleeps hin)
    dsimp only at hbefore ⊢
    rw [hfree]
    omega
  · intro hclear w hw hlive
    have hmem : w ∈ impl.admission.streamWaiters := hline ▸ hw
    exact hclear w hmem (hsame w hmem ▸ hlive)
  · exact fun hnobody hin => hnobody (hsleeps hin)

/-- Waking the waiters for the connection does not concern the line. -/
theorem Wakeful.notify (h : Wakeful options wakes (impl, .running caller)) :
    Wakeful options wakes
      ({ impl with admission := impl.admission.notifyConnectWaiters }, .running caller) := by
  have hwaiters := woken_foldl_wakeWaiter impl.admission.connectWaiters impl.admission.waiters
  refine h.of_waiters (by simp) rfl (fun w hw => (hwaiters w).1 fun hin => ?_)
    (fun w _ hwoken => (hwaiters w).2 hwoken) le_rfl
    (fun w hw => absurd hw List.not_mem_nil) ⟨rfl, rfl⟩ ?_
  · exact (h.lined.connects w hin).2 hw
  · have hstays : caller.isWoken impl.admission.waiters = true →
        caller.isWoken impl.admission.notifyConnectWaiters.waiters = true := by
      intro hwoken
      obtain ⟨w, hphase, hw⟩ := isWoken_iff.mp hwoken
      exact isWoken_iff.mpr ⟨w, hphase, (hwaiters w).2 hw⟩
    dsimp only [Hand.owed]
    split_ifs with hbefore hafter
    · exact le_rfl
    · exact absurd (hstays hbefore) hafter
    · exact Nat.zero_le _
    · exact le_rfl

/-- A cancelled request does not sleep in line any more. -/
theorem Wakeful.signal (h : Wakeful options wakes (impl, .nothing))
    (hcaller : impl.callers[i]? = some caller) :
    Wakeful options wakes
      ({ impl with callers := (impl.without i).callers ++ [{ caller with cancelled := true }] },
        .ended) := by
  have hmem : caller ∈ impl.callers := List.mem_of_getElem? hcaller
  -- the request stays where it waits, but counts no longer as asleep
  have hback : ∀ c ∈ (impl.without i).callers ++ [{ caller with cancelled := true }],
      c ∈ impl.callers ∨ c.cancelled = true ∧ c.phase = caller.phase := by
    intro c hc
    rcases List.mem_append.mp hc with hkept | hlast
    · exact Or.inl (List.mem_of_mem_eraseIdx hkept)
    · obtain rfl := List.mem_singleton.mp hlast
      exact Or.inr ⟨rfl, rfl⟩
  have hsleeps : Impl.SleepsInLine { impl with callers :=
      (impl.without i).callers ++ [{ caller with cancelled := true }] } →
        impl.SleepsInLine := by
    refine fun hin => hin.mono (fun c hc hline => (hback c hc).resolve_right ?_) fun _ hw => hw
    rintro ⟨hcancelled, -⟩
    simp [Caller.isInLine, hcancelled] at hline
  have hwoken : Impl.wokenWaiters { impl with callers :=
      (impl.without i).callers ++ [{ caller with cancelled := true }] } =
        impl.wokenWaiters := countP_signal hcaller rfl
  refine h.of_lined ?_ (by simp) (fun hin => Or.inr ⟨hsleeps hin, ?_⟩) (Or.inl rfl)
  · refine ⟨h.lined.nodup, h.lined.asleep, h.lined.fresh, h.lined.connects,
      fun c hc w hphase => ?_, fun hstops hin => h.lined.stopped hstops (hsleeps hin)⟩
    rcases hback c hc with hkept | ⟨-, hsame⟩
    · exact h.lined.waits c hkept w hphase
    · exact h.lined.waits caller hmem w (hsame ▸ hphase)
  · rw [hwoken]
    exact le_rfl

theorem Wakeful.queueConnect (h : Wakeful options wakes (impl, .running caller))
    (hphase : caller.phase.waitsForSlot = false) :
    Wakeful options wakes
      ({ impl with admission := impl.admission.enqueueConnect }.suspend caller
        (.connectWait impl.admission.nextWaiter), .ended) := by
  have hnone : Hand.owed impl.admission.waiters (.running caller) = 0 := by
    simp [Hand.owed, isWoken_of_waitsForSlot hphase]
  have hqueued : Wakeful options wakes
      ({ impl with admission := impl.admission.enqueueConnect }, .running caller) := by
    refine h.of_waiters (by simp) rfl (fun w hw => ?_) (fun w hw hwoken => ?_) (Nat.le_succ _)
      (fun w hw => ?_) ⟨rfl, rfl⟩ (by omega)
    · simp [Admission.enqueueConnect, Function.update_of_ne (h.lined.fresh w hw).ne]
    · simpa [Admission.enqueueConnect, Function.update_of_ne hw.ne] using hwoken
    · rcases List.mem_append.mp hw with hmem | hmem
      · obtain ⟨hlt, hout⟩ := h.lined.connects w hmem
        exact ⟨hlt.trans (Nat.lt_succ_self _), hout⟩
      · rw [List.mem_singleton.mp hmem]
        exact ⟨Nat.lt_succ_self _, fun hin => (h.lined.fresh _ hin).false⟩
  exact hqueued.suspend (by simp) (by simp [Hand.owed, isWoken_of_waitsForSlot hphase]) rfl

/-- A request queues for a slot when none is free. -/
theorem Wakeful.queue (h : Wakeful options wakes (impl, .running caller))
    (hgrants : impl.grants options = false) (hstopping : impl.link.stopping = false) :
    Wakeful options wakes
      ({ impl with admission := impl.admission.enqueueStream }.suspend caller
        (.slotWait impl.admission.nextWaiter), .ended) := by
  -- it queues because no slot is free, so nothing is owed to those in line
  have hfull : Impl.freeSlots options ({ impl with admission :=
      impl.admission.enqueueStream }.suspend caller (.slotWait impl.admission.nextWaiter)) =
        0 := by
    unfold Impl.grants at hgrants
    simp only [hstopping, Bool.not_false, Bool.true_and, decide_eq_false_iff_not] at hgrants
    exact Nat.sub_eq_zero_of_le (Nat.not_lt.mp hgrants)
  refine h.of_lined ?_ (by simp) (fun _ => Or.inl hfull) (Or.inl rfl)
  have hlined := h.lined.enqueueStream
  refine ⟨hlined.nodup, hlined.asleep, hlined.fresh, hlined.connects, fun c hc w hphase => ?_,
    fun hstops => ?_⟩
  · rcases List.mem_append.mp hc with hmem | hmem
    · exact hlined.waits c hmem w hphase
    · obtain rfl := List.mem_singleton.mp hmem
      obtain rfl := Option.some.inj hphase
      exact Nat.lt_succ_self _
  · have hstops' : impl.link.stopping = true := hstops
    rw [hstopping] at hstops'
    cases hstops'

@[simp] theorem woken_cancelWaiter (admission : Admission) (v w : Nat) :
    ((admission.cancelWaiter w).waiters v).woken = (admission.waiters v).woken := by
  by_cases hv : v = w <;> simp [Admission.cancelWaiter, hv]

theorem Wakeful.leaveConnect {w : Nat} (h : Wakeful options wakes (impl, .running caller))
    (hphase : caller.phase = .connectWait w) :
    Wakeful options wakes
      ({ impl with admission :=
        { impl.admission.cancelWaiter w with
          connectWaiters := impl.admission.connectWaiters.filter (· ≠ w) } }, .failing caller) := by
  refine h.giveUp ?_ rfl rfl (fun _ hw _ => hw) (fun v _ hv => (woken_cancelWaiter _ v w).trans hv)
    fun _ => Or.inr (isWoken_of_elsewhere (by simp [hphase, Phase.slotWaiter]))
  refine h.lined.of_sublist rfl rfl (List.Sublist.refl _) le_rfl
    (fun v _ => woken_cancelWaiter _ v w) ?_
  exact fun v hv => h.lined.connects v (List.mem_of_mem_filter hv)

theorem Wakeful.leaveLine {w : Nat} (h : Wakeful options wakes (impl, .running caller))
    (hphase : caller.phase = .slotWait w) (hasleep : (impl.admission.waiters w).woken = false) :
    Wakeful options wakes
      ({ impl with admission :=
        { impl.admission.cancelWaiter w with
          streamWaiters := impl.admission.streamWaiters.filter (· ≠ w) } }, .failing caller) := by
  refine h.giveUp ?_ rfl rfl (fun _ hv _ => List.mem_of_mem_filter hv)
    (fun v _ hv => (woken_cancelWaiter _ v w).trans hv)
    fun _ => Or.inr (by simp [Caller.isWoken, hphase, Phase.slotWaiter, hasleep])
  refine h.lined.of_sublist rfl rfl List.filter_sublist le_rfl
    (fun v _ => woken_cancelWaiter _ v w) ?_
  exact fun v hv => ⟨(h.lined.connects v hv).1, fun hin =>
    (h.lined.connects v hv).2 (List.mem_of_mem_filter hin)⟩

/-- A slot is taken by a request that was woken for it, or that finds one more free. -/
theorem Wakeful.grant (h : Wakeful options wakes (impl, .running caller))
    (hgrants : impl.grants options = true) :
    Wakeful options wakes
      ({ impl with admission :=
        { impl.admission with activeStreams := impl.admission.activeStreams + 1 } },
        .holding caller) := by
  have htaken := freeSlots_grant hgrants
  have howed := owed_le_one impl.admission.waiters (.running caller)
  refine h.of_lined ?_ (by simp) (fun hsleeps => Or.inr ⟨hsleeps, ?_⟩)
    (Or.inr ⟨rfl, id, id⟩)
  · exact h.lined.of_sublist rfl rfl (List.Sublist.refl _) le_rfl (fun _ _ => rfl)
      h.lined.connects
  · have hsame : Impl.wokenWaiters { impl with admission :=
        { impl.admission with activeStreams := impl.admission.activeStreams + 1 } } =
          impl.wokenWaiters := rfl
    rw [hsame]
    omega

/-- Every move keeps a woken request for each free slot while somebody sleeps in line. -/
theorem Wakeful.move {s t : Impl × Hand} (htidy : wakes → g.tidy) (hwakes : g.wakes → wakes)
    (hexpires : ∀ impl caller, g.expires impl caller →
      caller.isWoken impl.admission.waiters = true → ¬ impl.SleepsInLine)
    (hlimits : ∀ impl value, g.limits impl value → impl.SleepsInLine →
      (impl.onFrame options (.maxConcurrentStreams value)).freeSlots options ≤
        impl.freeSlots options + 1)
    (h : Wakeful options wakes s) (hmove : Move options g s t) : Wakeful options wakes t := by
  cases hmove with
  | elsewhere hview =>
    simp only [Impl.view, Prod.mk.injEq] at hview
    exact h.of_eq hview.1 hview.2.2.1 hview.2.2.2.2 (Or.inl rfl)
  | blur => exact h.of_eq rfl rfl rfl (Or.inl rfl)
  | notify => exact h.notify
  | take hcaller hwoken => exact h.take hcaller fun hg => hwoken (htidy hg)
  | signal hcaller => exact h.signal hcaller
  | @connect impl caller phase attempt hphase hattempt =>
    refine h.suspend (by simp) (by simp [Hand.owed, isWoken_of_waitsForSlot hphase]) ?_
    cases phase <;> first | rfl | cases hattempt
  | queueConnect hphase => exact h.queueConnect hphase
  | leaveConnect hphase => exact h.leaveConnect hphase
  | queue hgrants hstopping => exact h.queue hgrants hstopping
  | @straggle impl caller hgrants =>
    -- its waiter stays in line, but nobody sleeps on it
    refine h.giveUp h.lined.enqueueStream rfl rfl (fun w hw hlt => ?_) (fun w hlt hw => ?_)
      fun hsleeps => Or.inl (freeSlots_of_not_grants h.lined hgrants hsleeps)
    · exact (List.mem_append.mp hw).resolve_right fun hlast =>
        hlt.ne (List.mem_singleton.mp hlast)
    · simpa [Admission.enqueueStream, Function.update_of_ne hlt.ne] using hw
  | leaveLine hphase hasleep => exact h.leaveLine hphase hasleep
  | @expire impl caller hexpired =>
    refine h.giveUp h.lined rfl rfl (fun _ hw _ => hw) (fun _ _ hw => hw) fun hsleeps => ?_
    by_contra hno
    rw [not_or, Bool.not_eq_false] at hno
    exact hexpires impl caller hexpired hno.2 hsleeps
  | @giveUp impl caller hfails =>
    refine h.giveUp h.lined rfl rfl (fun _ hw _ => hw) (fun _ _ hw => hw) fun hsleeps => ?_
    exact hfails.imp (fun hgrants => freeSlots_of_not_grants h.lined hgrants hsleeps)
      isWoken_of_waitsForSlot
  | fail =>
    obtain ⟨hcallers, -, hadmission⟩ := callers_fail
    refine h.of_eq hadmission hcallers ?_ (Or.inr ⟨by simp, rfl, fun _ => rfl⟩)
    unfold Impl.fail
    split <;> rfl
  | grant hgrants => exact h.grant hgrants
  | release hg =>
    obtain ⟨hwake, hfree⟩ := wakesUp_releaseStreamSlot _
    exact h.wake (hwakes hg) rfl (by simp) rfl hwake fun _ => hfree
  | leave hg =>
    obtain ⟨hwake, hfree⟩ := wakesUp_releaseStreamSlot _
    exact h.wake (hwakes hg) rfl (by simp) rfl hwake fun _ => hfree
  | @complete impl entry hg _ =>
    obtain ⟨hwake, hfree⟩ := wakesUp_releaseStreamSlot impl
    unfold Impl.completeEntry
    split_ifs
    · refine h.wake (hwakes hg) rfl (by simp) rfl ⟨hwake.admission, rfl, rfl⟩ fun _ => hfree
    · exact h.of_eq rfl rfl rfl (Or.inl rfl)
  | @failAll impl hg =>
    have hwake : WakesUp options impl (impl.failAllStreams options) :=
      ⟨⟨_, impl.admission.peerMaxConcurrentStreams, rfl⟩, rfl, rfl⟩
    refine ⟨hwake.lined h.lined, Or.inl rfl, fun hw => Or.inr ?_⟩
    exact ((h.clear hw).resolve_left (by simp [Hand.over])).imp (hwake.clearLine h.lined)
      fun hnobody hin => hnobody (hwake.sleeps hin)
  | @limit impl value hg hlimit =>
    exact h.wake (hwakes hg) rfl (by simp) rfl
      ⟨⟨impl.admission.activeStreams, max 1 value, rfl⟩, rfl, rfl⟩ (hlimits impl value hlimit)
  | @awaitStream impl caller id =>
    have hregistered : Wakeful options wakes ({ impl with table := impl.table.register id },
        .opened caller id) := h.of_eq rfl rfl rfl (Or.inl rfl)
    exact hregistered.suspend (by simp) rfl rfl
  | stopped hstops =>
    have hnobody := h.lined.stopped hstops
    exact ⟨h.lined, Or.inr fun hin => absurd hin hnobody, fun _ => Or.inr (Or.inr hnobody)⟩
  | close =>
    obtain ⟨hline, hconnects, hnext⟩ := disconnect_keeps options _
    exact Wakeful.of_empty h.lined hline rfl hconnects hnext
  | @closeHeld impl caller =>
    obtain ⟨hline, hconnects, hnext⟩ := disconnect_keeps options impl
    -- the slot that is given back finds nobody in line
    have hreleased : ((impl.closeConnection options).releaseStreamSlot options).admission =
        { (impl.closeConnection options).admission with
          activeStreams := (impl.closeConnection options).admission.activeStreams - 1 } :=
      wakeStreamWaiters_of_nil hline
    refine Wakeful.of_empty h.lined ?_ rfl ?_ ?_ <;> rw [hreleased]
    · exact hline
    · exact hconnects
    · exact hnext
  | stop =>
    obtain ⟨hline, hconnects, hnext⟩ := disconnect_keeps options _
    exact Wakeful.of_empty h.lined hline rfl hconnects hnext
  | _ => exact h.of_eq rfl rfl rfl (Or.inr ⟨by simp, rfl, by simp [Hand.over]⟩)

/-! ### Runs -/

/-- A frame that sets the limit frees at most one more slot while somebody sleeps in line. -/
def Impl.RaisesByOne (options : SessionOptions) (impl : Impl) : Frame → Prop
  | .maxConcurrentStreams value => impl.SleepsInLine →
    { impl.admission with peerMaxConcurrentStreams := max 1 value }.streamLimit options ≤
      max (impl.admission.streamLimit options) impl.admission.activeStreams + 1
  | _ => True

/-- A step loses no wake-up if it wakes requests only in a clear line, if a woken request
does not time out, and if no frame raises the limit by several slots, each unless nobody
sleeps in line. -/
def KeepsWakeups (options : SessionOptions) (impl : Impl) (action : Action) : Prop :=
  (action.wakes = true → impl.ClearLine ∨ ¬ impl.SleepsInLine) ∧
    match action with
    | .slotExpired i => ∀ caller ∈ impl.callers[i]?,
      caller.isWoken impl.admission.waiters = true → ¬ impl.SleepsInLine
    | .readData _ frames _ _ => Along (Impl.deliver options) (Impl.RaisesByOne options) impl frames
    | _ => True

instance (impl : Impl) : Decidable impl.SleepsInLine :=
  inferInstanceAs (Decidable (∃ c ∈ impl.callers, _ = true))

instance (impl : Impl) : Decidable impl.ClearLine :=
  inferInstanceAs (Decidable (∀ w ∈ impl.admission.streamWaiters, _ = false →
    ∃ c ∈ impl.callers, c.phase.slotWaiter = some w))

instance (impl : Impl) (frame : Frame) : Decidable (impl.RaisesByOne options frame) := by
  cases frame <;> unfold Impl.RaisesByOne <;> infer_instance

instance (action : Action) : Decidable (KeepsWakeups options impl action) := by
  unfold KeepsWakeups
  cases action <;> infer_instance

theorem view_onFrame (hview : impl'.view = impl.view) (frame : Frame) :
    (impl'.onFrame options frame).view = (impl.onFrame options frame).view := by
  simp only [Impl.view, Prod.mk.injEq] at hview
  obtain ⟨hadmission, htable, hcallers, hhandled, hstopping⟩ := hview
  have hcomplete : ∀ id, (impl'.completeStream options id).view =
      (impl.completeStream options id).view := by
    intro id
    unfold Impl.completeStream
    rw [htable]
    cases impl.table.find id with
    | none => simp [Impl.view, hadmission, htable, hcallers, hhandled, hstopping]
    | some entry =>
      dsimp only
      unfold Impl.completeEntry Impl.finishCallback Impl.releaseStreamSlot
      split_ifs <;> simp [Impl.view, hadmission, htable, hcallers, hhandled, hstopping]
  cases frame with
  | maxConcurrentStreams value =>
    simp [Impl.onFrame, Impl.view, hadmission, htable, hcallers, hhandled, hstopping]
  | endStream id => exact hcomplete id
  | rstStream id => exact hcomplete id
  | goaway => simp [Impl.onFrame, Impl.view, hadmission, htable, hcallers, hhandled, hstopping]

/-- Frames meet the same session wherever its loops are. -/
theorem along_deliver_congr {ok ok' : Impl → Frame → Prop}
    (hok : ∀ impl impl' frame, impl'.view = impl.view → ok impl frame → ok' impl' frame)
    {frames : List Frame} (hview : impl'.view = impl.view)
    (h : Along (Impl.deliver options) ok impl frames) :
    Along (Impl.deliver options) ok' impl' frames := by
  induction frames generalizing impl impl' with
  | nil => trivial
  | cons frame frames ih =>
    refine ⟨hok impl impl' frame hview h.1, fun t ht => ?_⟩
    obtain rfl := Option.some.inj ht
    exact ih (view_onFrame hview frame) (h.2 _ rfl)

theorem raisesByOne_of_view {frame : Frame} (hview : impl'.view = impl.view)
    (h : impl.RaisesByOne options frame) : impl'.RaisesByOne options frame := by
  simp only [Impl.view, Prod.mk.injEq] at hview
  cases frame with
  | maxConcurrentStreams value =>
    unfold Impl.RaisesByOne Impl.SleepsInLine at *
    rwa [hview.1, hview.2.2.1]
  | _ => trivial

/-- What is known of the moves when wake-ups are followed. -/
def wakeGuards (options : SessionOptions) (wakes : Prop) : Guards where
  fresh := False
  alone := False
  tidy := wakes
  wakes := wakes
  expires := fun impl caller =>
    caller.isWoken impl.admission.waiters = true → ¬ impl.SleepsInLine
  limits := fun impl value => impl.RaisesByOne options (.maxConcurrentStreams value)

theorem KeepsWakeups.allows {action : Action} (h : KeepsWakeups options impl action) :
    (wakeGuards options (action.wakes = true)).Allows options impl action where
  wakes hwakes := hwakes
  tidy htidy := htidy
  fresh hfresh := hfresh.elim
  alone halone := halone.elim
  expires i caller haction hcaller hwoken hsleeps := by
    subst haction
    exact h.2 caller hcaller hwoken
      (hsleeps.mono (fun c hc _ => List.mem_of_mem_eraseIdx hc) fun _ hw => hw)
  limits i frames fatal output haction base hview := by
    subst haction
    refine along_deliver_congr (fun impl impl' frame hview hraises value hframe => ?_) hview h.2
    subst hframe
    exact raisesByOne_of_view hview hraises

theorem freeSlots_onFrame {value : Nat}
    (h : impl.RaisesByOne options (.maxConcurrentStreams value)) (hsleeps : impl.SleepsInLine) :
    (impl.onFrame options (.maxConcurrentStreams value)).freeSlots options ≤
      impl.freeSlots options + 1 := by
  have hraised := h hsleeps
  have hlimit : (impl.onFrame options (.maxConcurrentStreams value)).admission.streamLimit options =
      { impl.admission with peerMaxConcurrentStreams := max 1 value }.streamLimit options :=
    streamLimit_wakeStreamWaiters _
  have hactive : (impl.onFrame options (.maxConcurrentStreams value)).admission.activeStreams =
      impl.admission.activeStreams := activeStreams_wakeStreamWaiters _
  unfold Impl.freeSlots
  rw [hlimit, hactive]
  omega

theorem wakeful_step {action : Action} (h : Wakeful options False (impl, .nothing))
    (hok : KeepsWakeups options impl action) (hstep : step options impl action = some impl') :
    Wakeful options False (impl', .nothing) := by
  have hstarts : Wakeful options (action.wakes = true) (impl, action.starts) := by
    refine ⟨h.lined, Or.inr fun hsleeps => ?_, fun hwakes => Or.inr (hok.1 hwakes)⟩
    have hslots := h.claimed.resolve_left (by simp) hsleeps
    exact hslots.trans (Nat.add_le_add_left (Nat.zero_le _) _)
  have hkeeps : ∀ s t, Wakeful options (action.wakes = true) s →
      Move options (wakeGuards options (action.wakes = true)) s t →
        Wakeful options (action.wakes = true) t := fun _ _ h hmove =>
    h.move id id (fun _ _ hexpires => hexpires) (fun _ _ hraises => freeSlots_onFrame hraises) hmove
  obtain ⟨hand, hhand, hmoves⟩ := moves_step hok.allows hstep
  have hends := invariant_of_moves hkeeps hstarts hmoves
  refine ⟨hends.lined, Or.inr fun hsleeps => ?_, fun hfalse => hfalse.elim⟩
  rcases hhand with rfl | rfl <;> exact hends.claimed.resolve_left (by simp) hsleeps

/-- In a run of steps that lose no wake-up, no more slots are free than requests have been
woken for, while another request sleeps in line. -/
theorem free_slots_claimed (options : SessionOptions) (actions : List Action) (impl : Impl)
    (hok : Along (step options) (KeepsWakeups options) {} actions)
    (hexec : exec (step options) {} actions = some impl) (hsleeps : impl.SleepsInLine) :
    impl.freeSlots options ≤ impl.wokenWaiters := by
  have hempty : Wakeful options False (({} : Impl), .nothing) :=
    Wakeful.of_empty ⟨List.nodup_nil, fun _ hw => absurd hw List.not_mem_nil,
      fun _ hw => absurd hw List.not_mem_nil, fun _ hw => absurd hw List.not_mem_nil,
      fun _ hc => absurd hc List.not_mem_nil, fun hstops => by cases hstops⟩ rfl rfl rfl rfl
  have hwakeful : Wakeful options False (impl, .nothing) :=
    invariant_of_along (fun _ _ _ h hok hstep => wakeful_step h hok hstep) hempty hok hexec
  exact hwakeful.claimed.resolve_left (by simp) hsleeps

/-- Three requests share a connection that allows only one stream at a time. When the first
is answered, the second is woken and the third sleeps on. -/
def threeInLine : List Action :=
  [.request .awaits {} (submission 1), .resolved 0, .established 0 true [] (submission 1),
    .request .awaits {} (submission 3), .request .awaits {} (submission 5), .readLoopStarts 0,
    .readData 0 [.endStream 1] false [], .responseResumed 0 []]

theorem free_slots_claimed_threeInLine :
    ∃ impl, exec (step { maxConcurrentStreams := 1 }) {} threeInLine = some impl ∧
      impl.SleepsInLine ∧ impl.freeSlots { maxConcurrentStreams := 1 } ≤ impl.wokenWaiters :=
  ⟨_, rfl, by decide +kernel, free_slots_claimed { maxConcurrentStreams := 1 } threeInLine _
    (by decide +kernel) rfl (by decide +kernel)⟩

/-- The server lowers its limit to one stream and later raises it to ten, while two requests
sleep in line. Only one of them is woken, and the other sleeps on beside nine free slots. -/
theorem slots_idle_after_settings :
    ¬ ∀ (options : SessionOptions) (actions : List Action) (impl : Impl),
      exec (step options) {} actions = some impl → impl.SleepsInLine →
        impl.freeSlots options ≤ impl.wokenWaiters := by
  intro h
  have hclaimed := h {}
    [.request .awaits {} (submission 1), .resolved 0, .established 0 true [] (submission 1),
      .readLoopStarts 0, .readData 0 [.maxConcurrentStreams 1] false [],
      .request .awaits {} (submission 3), .request .awaits {} (submission 5),
      .readData 0 [.maxConcurrentStreams 10] false []] _ rfl (by decide +kernel)
  exact absurd hclaimed (by decide +kernel)

end HttpClient.H2
