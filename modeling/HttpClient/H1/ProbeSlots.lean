import Mathlib.Tactic.Tauto
import HttpClient.H1.PoolReservations

/-!
# The connection slot of a probe

A probe takes an idle connection or opens one, and gives it back to the idle list or gives its
place up when its exchange is over. An exchange that throws drops the connection and keeps its
place counted: the slot is lost for the pool.

A probe is followed from its start to its end with nobody else running in between. Its outcome
is given by its own steps: how its wait, its connect and its exchange end.

## Main definitions

* `Pool.lent` — the connections that are not on the idle list
* `ProbedAction.IsStepOf` — the steps of the probe at a position
* `ProbedPool.GivesBack` — the outcomes with which a probe gives its slot back

## Main results

* `lent_of_waiting`, `lent_of_connecting`, `lent_of_exchanging` — a probe from each of its
  suspension points to its end
* `probe_gives_back_iff` — when a probe leaves the counters as it has found them
-/

set_option autoImplicit false

namespace HttpClient.H1

open Semantics

/-- The difference between `active` and the number of idle connections. -/
def Pool.lent (pool : Pool) : Int := (pool.active : Int) - pool.idle.length

namespace ProbedAction

/-- The steps of the probe at a position after it has started. -/
def IsStepOf (n : Nat) : ProbedAction → Prop
  | .probeResume i _ | .probeExpire i | .probeCancelSignal i | .probeAbortWait i
  | .probeConnectSucceeded i _ | .probeConnectFailed i | .probeExchanged i _ => i = n
  | .request _ | .probe .. => False

end ProbedAction

namespace ProbedPool

variable {options : PoolOptions} {pool pool' : ProbedPool} {probe : Caller} {others : List Caller}
  {steps : List ProbedAction}

/-- The exchange of the probe does not throw; and if it has taken an idle connection that is
not counted as active, it returns it. -/
def GivesBack (pool : ProbedPool) (h2 : Bool) (steps : List ProbedAction) : Prop :=
  .probeExchanged pool.probes.length .exception ∉ steps ∧
    (0 < pool.side.active ∨ pool.side.idle = [] ∨ 0 < pool.side.reservedIdle ∨
      h2 = false ∧ .probeExchanged pool.probes.length .errorResponse ∉ steps)

/-! ### From a suspension point to the end -/

theorem takeProbe_last (h : pool.probes = others ++ [probe]) :
    pool.takeProbe others.length = some (probe, { pool with probes := others }) := by
  simp [takeProbe, h, List.eraseIdx_append_of_length_le]

/-- A probe that has ended takes no step. -/
theorem steps_eq_nil {n : Nat} (hown : ∀ a ∈ steps, a.IsStepOf n)
    (hrun : exec (step options) pool steps = some pool') (hlength : pool.probes.length ≤ n) :
    steps = [] ∧ pool' = pool := by
  cases steps with
  | nil => exact ⟨rfl, (Option.some.inj hrun).symm⟩
  | cons a steps =>
    obtain ⟨next, hstep, -⟩ := exec_cons_eq_some.mp hrun
    have hnone : pool.takeProbe n = none := by simp [takeProbe, hlength]
    have hown := hown a List.mem_cons_self
    cases a <;> first
      | exact hown.elim
      | (obtain rfl := hown
         simp [step, hnone] at hstep)

/-- The probe that is taken out is the last one. -/
theorem takeProbe_inj {other : Caller} (hprobes : pool.probes = others ++ [probe])
    (htake : pool.takeProbe others.length = some (other, pool')) :
    other = probe ∧ pool' = { pool with probes := others } := by
  rw [takeProbe_last hprobes] at htake
  obtain ⟨rfl, rfl⟩ := Prod.mk.inj (Option.some.inj htake)
  exact ⟨rfl, rfl⟩

/-- The steps of the probe that was suspended last. -/
inductive OwnStep (options : PoolOptions) (pool : ProbedPool) (others : List Caller)
    (probe : Caller) : ProbedAction → ProbedPool → Prop where
  | cancelSignal : OwnStep options pool others probe (.probeCancelSignal others.length)
      { pool with probes := others ++ [{ probe with cancelled := true }] }
  | resume {w : Nat} {h2 : Bool} {next : ProbedPool} (hphase : probe.phase = .waiting w)
      (hwoken : (pool.side.waiters w).woken = true) :
      OwnStep options pool others probe (.probeResume others.length h2) next
  /-- The wait ends with an exception. -/
  | leave {w : Nat} {a : ProbedAction} {side : Pool} (hphase : probe.phase = .waiting w)
      (hlent : side.lent = pool.side.lent) (hconnecting : side.connecting = pool.side.connecting)
      (ha : ∀ result, a ≠ .probeExchanged others.length result) :
      OwnStep options pool others probe a { side, probes := others }
  | connected {h2 : Bool} (hphase : probe.phase = .connecting) :
      OwnStep options pool others probe (.probeConnectSucceeded others.length h2)
        (proceed
          { side := (pool.side.opened options probe.request).2.wakeOne, probes := others } probe
          (pool.side.opened options probe.request).1 h2)
  | connectFailed (hphase : probe.phase = .connecting) :
      OwnStep options pool others probe (.probeConnectFailed others.length)
        { side := { pool.side with connecting := pool.side.connecting - 1 }.lose
          probes := others }
  | returned {connection : Connection} (hphase : probe.phase = .exchanging connection) :
      OwnStep options pool others probe (.probeExchanged others.length .success)
        { side := pool.side.returnIdle connection, probes := others }
  | lost {connection : Connection} (hphase : probe.phase = .exchanging connection) :
      OwnStep options pool others probe (.probeExchanged others.length .errorResponse)
        { side := pool.side.lose, probes := others }
  | dropped {connection : Connection} (hphase : probe.phase = .exchanging connection) :
      OwnStep options pool others probe (.probeExchanged others.length .exception)
        { pool with probes := others }

theorem ownStep_of_step {a : ProbedAction} (hprobes : pool.probes = others ++ [probe])
    (hown : a.IsStepOf others.length) (hstep : step options pool a = some pool') :
    OwnStep options pool others probe a pool' := by
  cases a with
  | request action => exact hown.elim
  | probe request cancelled h2 => exact hown.elim
  | probeResume i h2 =>
    obtain rfl := hown
    obtain ⟨other, base, w, htake, hphase, hwoken, -⟩ := step_probeResume hstep
    obtain ⟨rfl, rfl⟩ := takeProbe_inj hprobes htake
    exact .resume hphase hwoken
  | probeExpire i =>
    obtain rfl := hown
    obtain ⟨other, w, htake, hphase⟩ := step_probeExpire hstep
    obtain ⟨rfl, rfl⟩ := takeProbe_inj hprobes htake
    exact .leave hphase rfl rfl fun _ => ProbedAction.noConfusion
  | probeCancelSignal i =>
    obtain rfl := hown
    obtain ⟨other, base, htake, rfl⟩ := step_probeCancelSignal hstep
    obtain ⟨rfl, rfl⟩ := takeProbe_inj hprobes htake
    exact .cancelSignal
  | probeAbortWait i =>
    obtain rfl := hown
    obtain ⟨other, base, w, htake, hphase, rfl⟩ := step_probeAbortWait hstep
    obtain ⟨rfl, rfl⟩ := takeProbe_inj hprobes htake
    exact .leave hphase rfl rfl fun _ => ProbedAction.noConfusion
  | probeConnectSucceeded i h2 =>
    obtain rfl := hown
    obtain ⟨other, base, htake, hphase, rfl⟩ := step_probeConnectSucceeded hstep
    obtain ⟨rfl, rfl⟩ := takeProbe_inj hprobes htake
    exact .connected hphase
  | probeConnectFailed i =>
    obtain rfl := hown
    obtain ⟨other, base, htake, hphase, rfl⟩ := step_probeConnectFailed hstep
    obtain ⟨rfl, rfl⟩ := takeProbe_inj hprobes htake
    exact .connectFailed hphase
  | probeExchanged i result =>
    obtain rfl := hown
    obtain ⟨other, base, connection, htake, hphase, hend⟩ := step_probeExchanged hstep
    obtain ⟨rfl, rfl⟩ := takeProbe_inj hprobes htake
    rcases hend with ⟨rfl, rfl⟩ | ⟨rfl, rfl⟩ | ⟨rfl, rfl⟩
    · exact .returned hphase
    · exact .lost hphase
    · exact .dropped hphase

/-! ### What each end does to the counters -/

theorem lent_lose (side : Pool) :
    side.lose.lent = if 0 < side.active then side.lent - 1 else side.lent := by
  simp only [Pool.lent, Pool.lose, Pool.wakeOne]
  split_ifs <;> omega

theorem lent_returnIdle (side : Pool) (connection : Connection) :
    (side.returnIdle connection).lent = side.lent - 1 := by
  simp only [Pool.lent, Pool.returnIdle, Pool.wakeOneWithIdleReservation, List.length_append,
    List.length_singleton]
  omega

theorem not_ended (hprobes : pool.probes = others ++ [probe]) :
    ¬ pool.probes.length ≤ others.length := by
  rw [hprobes, List.length_append, List.length_singleton]
  exact Nat.not_succ_le_self _

/-- A probe in line, whom nobody wakes, leaves without a connection. -/
theorem lent_of_waiting {w : Nat} (hprobes : pool.probes = others ++ [probe])
    (hphase : probe.phase = .waiting w) (hwoken : (pool.side.waiters w).woken = false)
    (hown : ∀ a ∈ steps, a.IsStepOf others.length)
    (hrun : exec (step options) pool steps = some pool')
    (hend : pool'.probes.length ≤ others.length) :
    pool'.side.lent = pool.side.lent ∧ pool'.side.connecting = pool.side.connecting ∧
      ∀ result, .probeExchanged others.length result ∉ steps := by
  -- its cancellation may be signalled any number of times before its wait ends
  induction steps generalizing pool probe with
  | nil =>
    obtain rfl := Option.some.inj hrun
    exact absurd hend (not_ended hprobes)
  | cons a steps ih =>
    obtain ⟨next, hstep, hrest⟩ := exec_cons_eq_some.mp hrun
    have hsteps : ∀ b ∈ steps, b.IsStepOf others.length :=
      fun b hb => hown b (List.mem_cons_of_mem a hb)
    cases ownStep_of_step hprobes (hown a List.mem_cons_self) hstep with
    | cancelSignal =>
      -- the probe stays in its phase
      have hlast : ({ pool with probes := others ++ [{ probe with cancelled := true }] } :
          ProbedPool).probes = _ := rfl
      obtain ⟨hlent, hconnecting, hnone⟩ := ih hlast hphase hwoken hsteps hrest
      refine ⟨hlent, hconnecting, fun result hmem => ?_⟩
      exact hnone result ((List.mem_cons.mp hmem).resolve_left ProbedAction.noConfusion)
    | resume hother hwoken' =>
      obtain rfl := Phase.waiting.inj (hother.symm.trans hphase)
      exact absurd hwoken' (by simp [hwoken])
    | leave hother hlent hconnecting ha =>
      obtain ⟨rfl, rfl⟩ := steps_eq_nil hsteps hrest le_rfl
      refine ⟨hlent, hconnecting, fun result hmem => ?_⟩
      exact ha result (List.mem_singleton.mp hmem).symm
    | connected hother => exact Phase.noConfusion (hother.symm.trans hphase)
    | connectFailed hother => exact Phase.noConfusion (hother.symm.trans hphase)
    | returned hother => exact Phase.noConfusion (hother.symm.trans hphase)
    | lost hother => exact Phase.noConfusion (hother.symm.trans hphase)
    | dropped hother => exact Phase.noConfusion (hother.symm.trans hphase)

/-- A probe in an exchange gives its slot back unless the exchange throws. -/
theorem lent_of_exchanging {connection : Connection} (hprobes : pool.probes = others ++ [probe])
    (hphase : probe.phase = .exchanging connection)
    (hown : ∀ a ∈ steps, a.IsStepOf others.length)
    (hrun : exec (step options) pool steps = some pool')
    (hend : pool'.probes.length ≤ others.length) :
    pool'.side.connecting = pool.side.connecting ∧
      (pool'.side.lent = pool.side.lent - 1 ↔
        .probeExchanged others.length .exception ∉ steps ∧
          (0 < pool.side.active ∨ .probeExchanged others.length .errorResponse ∉ steps)) := by
  induction steps generalizing pool probe with
  | nil =>
    obtain rfl := Option.some.inj hrun
    exact absurd hend (not_ended hprobes)
  | cons a steps ih =>
    obtain ⟨next, hstep, hrest⟩ := exec_cons_eq_some.mp hrun
    have hsteps : ∀ b ∈ steps, b.IsStepOf others.length :=
      fun b hb => hown b (List.mem_cons_of_mem a hb)
    cases ownStep_of_step hprobes (hown a List.mem_cons_self) hstep with
    | cancelSignal =>
      have hlast : ({ pool with probes := others ++ [{ probe with cancelled := true }] } :
          ProbedPool).probes = _ := rfl
      have hlater := ih hlast hphase hsteps hrest
      simpa only [List.mem_cons, reduceCtorEq, false_or] using hlater
    | resume hother => exact Phase.noConfusion (hother.symm.trans hphase)
    | leave hother => exact Phase.noConfusion (hother.symm.trans hphase)
    | connected hother => exact Phase.noConfusion (hother.symm.trans hphase)
    | connectFailed hother => exact Phase.noConfusion (hother.symm.trans hphase)
    | returned hother =>
      obtain ⟨rfl, rfl⟩ := steps_eq_nil hsteps hrest le_rfl
      exact ⟨rfl, by simp [lent_returnIdle]⟩
    | lost hother =>
      obtain ⟨rfl, rfl⟩ := steps_eq_nil hsteps hrest le_rfl
      refine ⟨rfl, ?_⟩
      rw [lent_lose]
      split_ifs with hactive
      · simp [hactive]
      · -- there is no place to give up
        simp [hactive]
        omega
    | dropped hother =>
      -- nothing catches the exception, so nothing is given back
      obtain ⟨rfl, rfl⟩ := steps_eq_nil hsteps hrest le_rfl
      refine ⟨rfl, iff_of_false (fun hlent => ?_) fun hnone => hnone.1 List.mem_cons_self⟩
      dsimp only at hlent
      omega

/-- A probe that connects is counted as active, and gives its slot back unless its exchange
throws. -/
theorem lent_of_connecting (hprobes : pool.probes = others ++ [probe])
    (hphase : probe.phase = .connecting) (hactive : 0 < pool.side.active)
    (hown : ∀ a ∈ steps, a.IsStepOf others.length)
    (hrun : exec (step options) pool steps = some pool')
    (hend : pool'.probes.length ≤ others.length) :
    pool'.side.connecting = pool.side.connecting - 1 ∧
      (pool'.side.lent = pool.side.lent - 1 ↔
        .probeExchanged others.length .exception ∉ steps) := by
  induction steps generalizing pool probe with
  | nil =>
    obtain rfl := Option.some.inj hrun
    exact absurd hend (not_ended hprobes)
  | cons a steps ih =>
    obtain ⟨next, hstep, hrest⟩ := exec_cons_eq_some.mp hrun
    have hsteps : ∀ b ∈ steps, b.IsStepOf others.length :=
      fun b hb => hown b (List.mem_cons_of_mem a hb)
    cases ownStep_of_step hprobes (hown a List.mem_cons_self) hstep with
    | cancelSignal =>
      have hlast : ({ pool with probes := others ++ [{ probe with cancelled := true }] } :
          ProbedPool).probes = _ := rfl
      have hlater := ih hlast hphase hactive hsteps hrest
      simpa only [List.mem_cons, reduceCtorEq, false_or] using hlater
    | resume hother => exact Phase.noConfusion (hother.symm.trans hphase)
    | leave hother => exact Phase.noConfusion (hother.symm.trans hphase)
    | @connected h2 hother =>
      cases h2 with
      | true =>
        -- the connection is closed
        obtain ⟨rfl, rfl⟩ := steps_eq_nil hsteps hrest le_rfl
        refine ⟨rfl, iff_of_true ?_ (by simp)⟩
        have hopened : 0 < (pool.side.opened options probe.request).2.wakeOne.active := hactive
        simp only [proceed, if_true]
        rw [lent_lose, if_pos hopened]
        rfl
      | false =>
        -- the exchange of a connection that has just been counted
        have hlast : (suspendProbe
            { side := (pool.side.opened options probe.request).2.wakeOne, probes := others } probe
            (.exchanging (pool.side.opened options probe.request).1)).probes = others ++ [_] := rfl
        obtain ⟨hconnecting, hlent⟩ := lent_of_exchanging hlast rfl hsteps hrest hend
        refine ⟨hconnecting, hlent.trans ?_⟩
        have hopened : 0 < (pool.side.opened options probe.request).2.wakeOne.active := hactive
        simp [suspendProbe, hopened]
    | connectFailed hother =>
      obtain ⟨rfl, rfl⟩ := steps_eq_nil hsteps hrest le_rfl
      refine ⟨rfl, iff_of_true ?_ (by simp)⟩
      have hcounted : 0 < { pool.side with connecting := pool.side.connecting - 1 }.active :=
        hactive
      dsimp only
      rw [lent_lose, if_pos hcounted]
      rfl
    | returned hother => exact Phase.noConfusion (hother.symm.trans hphase)
    | lost hother => exact Phase.noConfusion (hother.symm.trans hphase)
    | dropped hother => exact Phase.noConfusion (hother.symm.trans hphase)

/-! ### From the start to the end -/

/-- A probe that has taken an idle connection. -/
theorem lent_of_taken {connection : Connection} {h2 : Bool}
    (hrun : exec (step options) (pool.proceed probe connection h2) steps = some pool')
    (hown : ∀ a ∈ steps, a.IsStepOf pool.probes.length)
    (hend : pool'.probes.length ≤ pool.probes.length) :
    pool'.side.connecting = pool.side.connecting ∧
      (pool'.side.lent = pool.side.lent - 1 ↔
        .probeExchanged pool.probes.length .exception ∉ steps ∧
          (0 < pool.side.active ∨
            h2 = false ∧ .probeExchanged pool.probes.length .errorResponse ∉ steps)) := by
  cases h2 with
  | true =>
    obtain ⟨rfl, rfl⟩ := steps_eq_nil hown hrun le_rfl
    refine ⟨rfl, ?_⟩
    simp only [proceed, if_true, lent_lose]
    split_ifs with hactive
    · simp [hactive]
    · simp [hactive]
      omega
  | false =>
    -- an exchange whose connection has come from the idle ones
    have hlast : (pool.proceed probe connection false).probes = pool.probes ++ [_] := rfl
    obtain ⟨hconnecting, hback⟩ := lent_of_exchanging hlast rfl hown hrun hend
    refine ⟨hconnecting, hback.trans ?_⟩
    simp [proceed, suspendProbe]

/-- A probe that must wait. -/
theorem lent_of_enqueued
    (hrun : exec (step options) (pool.enqueueProbe probe) steps = some pool')
    (hown : ∀ a ∈ steps, a.IsStepOf pool.probes.length)
    (hend : pool'.probes.length ≤ pool.probes.length) :
    pool'.side.lent = pool.side.lent ∧ pool'.side.connecting = pool.side.connecting ∧
      ∀ result, .probeExchanged pool.probes.length result ∉ steps := by
  rw [enqueueProbe] at hrun
  split_ifs at hrun with hcancelled
  · -- its wait throws at once
    obtain ⟨rfl, rfl⟩ := steps_eq_nil hown hrun le_rfl
    exact ⟨rfl, rfl, fun _ => List.not_mem_nil⟩
  · have hlast : (suspendProbe { pool with side := pool.side.addWaiter } probe
        (.waiting pool.side.nextWaiter)).probes = pool.probes ++ [_] := rfl
    have hunwoken : (pool.side.addWaiter.waiters pool.side.nextWaiter).woken = false := by
      simp [Pool.addWaiter]
    have hleft := lent_of_waiting hlast rfl hunwoken hown hrun hend
    exact hleft

end ProbedPool

open ProbedPool in
/-- A probe that runs alone from its start to its end leaves `connecting` and the difference of
`active` and the number of idle connections as they were if and only if its exchange does not
throw (and it has a place to give up, if it took an idle connection that it does not return). -/
theorem probe_gives_back_iff (options : PoolOptions) (pool : ProbedPool) (request : Request)
    (cancelled h2 : Bool) (steps : List ProbedAction) {pool' : ProbedPool}
    (hown : ∀ a ∈ steps, a.IsStepOf pool.probes.length)
    (hrun : exec (ProbedPool.step options) pool (.probe request cancelled h2 :: steps) = some pool')
    (hend : pool'.probes.length ≤ pool.probes.length) :
    pool'.side.connecting = pool.side.connecting ∧ pool'.side.lent = pool.side.lent ↔
      pool.GivesBack h2 steps := by
  obtain ⟨next, hstep, hrest⟩ := exec_cons_eq_some.mp hrun
  obtain rfl := Option.some.inj hstep
  rw [probePass] at hrest
  rcases probeAttempt_cases options pool.side false with
    ⟨hwaits, hwait⟩ | ⟨hmay, ⟨connection, hidle, htake⟩ | ⟨hnil, hconnect⟩⟩
  · -- it waits for a connection, and gets none
    rw [hwait] at hrest
    obtain ⟨hlent, hconnecting, hnone⟩ := lent_of_enqueued hrest hown hend
    have hstuck : pool.side.idle = [] ∨ 0 < pool.side.reservedIdle := by
      simp only [Pool.probeWaits, Bool.not_false, Bool.true_and, Bool.or_eq_true, Bool.and_eq_true,
        List.isEmpty_iff, decide_eq_true_eq] at hwaits
      exact hwaits.imp And.right id
    exact iff_of_true ⟨hconnecting, hlent⟩ ⟨hnone _, by tauto⟩
  · -- it takes an idle connection
    rw [htake] at hrest
    obtain ⟨hconnecting, hback⟩ := lent_of_taken hrest hown hend
    have hreserved : pool.side.reservedIdle = 0 := hmay.resolve_left Bool.false_ne_true
    have hne : pool.side.idle ≠ [] := by
      rw [hidle]
      simp
    have hlength := congrArg List.length hidle
    rw [List.length_append, List.length_singleton] at hlength
    have hlent : Pool.lent { pool.side with idle := pool.side.idle.dropLast } - 1 =
        pool.side.lent := by
      simp only [Pool.lent]
      omega
    have hsame : pool'.side.connecting = pool.side.connecting := hconnecting
    rw [and_iff_right hsame, ← hlent]
    refine hback.trans ?_
    simp [GivesBack, hne, hreserved]
  · -- it opens a connection
    rw [hconnect] at hrest
    have hlast : (suspendProbe
        { side :=
            { pool.side with
              active := pool.side.active + 1
              connecting := pool.side.connecting + 1 }
          probes := pool.probes }
        { request, cancelled, cancelState := none, phase := .connecting }
        .connecting).probes = pool.probes ++ [_] := rfl
    obtain ⟨hconnecting, hback⟩ := lent_of_connecting hlast rfl (Nat.succ_pos _) hown hrest hend
    have hlent : Pool.lent
        { pool.side with
          active := pool.side.active + 1
          connecting := pool.side.connecting + 1 } - 1 = pool.side.lent := by
      simp only [Pool.lent]
      omega
    have hsame : pool'.side.connecting = pool.side.connecting := hconnecting
    rw [and_iff_right hsame, ← hlent]
    refine hback.trans ?_
    simp [GivesBack, hnil]

/-- A probe opens a connection, whose exchange ends in the given way. -/
def probeOnce (result : ExchangeResult) : List ProbedAction :=
  [.probeConnectSucceeded 0 false, .probeExchanged 0 result]

theorem probe_gives_back_once :
    ∃ pool, exec (ProbedPool.step {}) {} (.probe {} false false :: probeOnce .success) = some pool ∧
      pool.side.connecting = 0 ∧ pool.side.lent = 0 := by
  refine ⟨_, rfl, ?_⟩
  refine (probe_gives_back_iff {} {} {} false false (probeOnce .success) ?_ rfl le_rfl).mpr ?_
  · intro a ha
    rcases List.mem_pair.mp ha with rfl | rfl <;> rfl
  · simp [ProbedPool.GivesBack, probeOnce]

/-- An exchange that throws takes the only slot of the pool with it: the next request must wait
although there is no connection. -/
theorem probe_loses_slot :
    ∃ options pool, exec (ProbedPool.step options) {}
        (.probe {} false false :: probeOnce .exception) = some pool ∧
      pool.probes = [] ∧ pool.side.lent = 1 ∧ pool.side.idle = [] ∧ pool.side.connects = 0 ∧
        pool.side.exchanges = 0 ∧ (pool.side.attempt options false false).1 = .wait :=
  ⟨{ maxConnectionsPerOrigin := 1 }, _, rfl, rfl, by decide, rfl, rfl, rfl, rfl⟩

end HttpClient.H1
