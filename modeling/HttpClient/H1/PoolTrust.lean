import HttpClient.H1.PoolAccounts

/-!
# Which connections a verifying request is given

Whether a TLS connection verifies its peer is decided by the request it is opened
for. Idle connections are handed to whichever request comes next, so a request that
asks for verification is safe as long as no unverified connection is idle when it
passes through the acquire loop.

## Main definitions

* `Request.verifying` — the request asks for peer and host verification
* `Pool.Trusted` — no verifying request uses an unverified connection
* `IdleVerified` — verifying requests find only verified connections idle

## Main results

* `trusted_of_idleVerified` — runs in which verifying requests find only verified
  connections idle are safe
* `untrusted_reuse` — a verifying request can be given an unverified connection
-/

set_option autoImplicit false

namespace HttpClient

/-- The request asks for its peer to be verified. -/
def Request.verifying (request : Request) : Bool := request.verifyPeer && request.verifyHost

namespace H1

open Semantics

variable {pool pool' : Pool} {caller : Caller} {worker : Worker} {options : PoolOptions}
  {connection : Connection} {i : Nat}

/-- A request that uses a connection, if verifying, uses a verified one. -/
def Caller.Trusted (caller : Caller) : Prop :=
  ∀ connection, caller.phase = .exchanging connection → caller.request.verifying = true →
    connection.verified = true

def Pool.Trusted (pool : Pool) : Prop := ∀ caller ∈ pool.callers, caller.Trusted

/-- Verifying requests pass through the acquire loop only while all idle connections
are verified. -/
def IdleVerified (pool : Pool) : Action → Prop
  | .acquire request _ _ => request.verifying = true → ∀ c ∈ pool.idle, c.verified = true
  | .resume i => ∀ caller ∈ pool.callers[i]?, caller.request.verifying = true →
      ∀ c ∈ pool.idle, c.verified = true
  | _ => True

/-! ### The callers after each piece of code -/

theorem callers_takeWorker (h : pool.takeWorker i = some (worker, pool')) :
    pool'.callers = pool.callers := by
  rw [(takeWorker_perm h).2]

/-- A pass adds at most the caller itself, and a connection it uses was idle. -/
theorem mem_callers_acquirePass {woke reserved : Bool} {c : Caller}
    (h : c ∈ (pool.acquirePass options caller woke reserved).callers) :
    c ∈ pool.callers ∨ (c.request = caller.request ∧
      ∀ connection, c.phase = .exchanging connection → connection ∈ pool.idle) := by
  unfold Pool.acquirePass at h
  have hdrop : (pool.dropReservation reserved).callers = pool.callers := by
    unfold Pool.dropReservation
    split_ifs <;> rfl
  rcases attempt_cases options pool woke reserved with
    ⟨connection, hidle, -, heq⟩ | ⟨-, heq⟩
  · rw [heq] at h
    simp only [Pool.startExchange, Pool.suspend, callers_updateCancelState, List.mem_append,
      List.mem_singleton] at h
    rcases h with h | rfl
    · exact Or.inl h
    · refine Or.inr ⟨rfl, fun c hc => ?_⟩
      obtain rfl := Phase.exchanging.inj hc
      rw [hidle]
      simp
  · rw [heq] at h
    split_ifs at h with hmay
    · simp only [Pool.suspend, hdrop, List.mem_append, List.mem_singleton] at h
      rcases h with h | rfl
      · exact Or.inl h
      · exact Or.inr ⟨rfl, fun c hc => by cases hc⟩
    · simp only [Pool.enqueue] at h
      split_ifs at h with hcancelled
      · rw [callers_updateCancelState, hdrop] at h
        exact Or.inl h
      · simp only [Pool.suspend, callers_updateCancelState, hdrop, List.mem_append,
          List.mem_singleton] at h
        rcases h with h | rfl
        · exact Or.inl h
        · exact Or.inr ⟨rfl, fun c hc => by cases hc⟩

/-! ### Steps and runs -/

/-- Taking a request out leaves the others. -/
theorem Pool.Trusted.of_takeCaller (h : pool.Trusted)
    (htake : pool.takeCaller i = some (caller, pool')) : pool'.Trusted ∧ caller.Trusted := by
  obtain ⟨hperm, -⟩ := takeCaller_perm htake
  exact ⟨fun c hc => h c (hperm.mem_iff.mp (List.mem_cons_of_mem _ hc)),
    h caller (hperm.mem_iff.mp List.mem_cons_self)⟩

/-- A pass of a request that finds only verified connections idle, if verifying. -/
theorem Pool.Trusted.acquirePass {woke reserved : Bool} (h : pool.Trusted)
    (hidle : caller.request.verifying = true → ∀ c ∈ pool.idle, c.verified = true) :
    (pool.acquirePass options caller woke reserved).Trusted := by
  intro c hc connection hphase hverifying
  rcases mem_callers_acquirePass hc with hold | ⟨hrequest, hfrom⟩
  · exact h c hold connection hphase hverifying
  · exact hidle (hrequest ▸ hverifying) connection (hfrom connection hphase)

theorem Pool.Trusted.step {action : Action} (h : pool.Trusted)
    (henabled : options.enableSslVerify = true) (hok : IdleVerified pool action)
    (hstep : step options pool action = some pool') : pool'.Trusted := by
  cases action with
  | acquire request cancelled handler =>
    obtain rfl := Option.some.inj hstep
    exact Pool.Trusted.acquirePass h hok
  | resume i =>
    obtain ⟨caller, base, w, htake, -, -, rfl⟩ := step_resume hstep
    obtain ⟨hat, hidle⟩ := mem_of_takeCaller htake
    refine Pool.Trusted.acquirePass (by simpa [Pool.Trusted] using (h.of_takeCaller htake).1) ?_
    rw [idle_updateCancelState, hidle]
    exact hok caller hat
  | expire i =>
    obtain ⟨caller, base, w, htake, -, rfl⟩ := step_expire hstep
    have hbase := (h.of_takeCaller htake).1
    simpa [Pool.Trusted] using hbase
  | cancelSignal i =>
    obtain ⟨caller, base, htake, rfl⟩ := step_cancelSignal hstep
    obtain ⟨hbase, hcaller⟩ := h.of_takeCaller htake
    intro c hc
    rcases List.mem_append.mp hc with hc | hc
    · exact hbase c hc
    · rw [List.mem_singleton.mp hc]
      exact hcaller
  | abortWait i =>
    obtain ⟨caller, base, w, htake, -, -, rfl⟩ := step_abortWait hstep
    simpa [Pool.Trusted] using (h.of_takeCaller htake).1
  | cancelOnShard id =>
    obtain ⟨closed, waiters, f, rfl, -⟩ := step_cancelOnShard hstep
    simpa [Pool.Trusted] using h
  | connectSucceeded i =>
    -- The connection has been opened for this very request.
    obtain ⟨caller, base, htake, -, rfl⟩ := step_connectSucceeded hstep
    intro c hc connection hphase hverifying
    simp only [Pool.startExchange, Pool.suspend, callers_updateCancelState, callers_wakeOne,
      List.mem_append, List.mem_singleton] at hc
    rcases hc with hc | rfl
    · exact (h.of_takeCaller htake).1 c hc connection hphase hverifying
    · obtain rfl := Phase.exchanging.inj hphase
      simpa [Pool.opened, Pool.verifies, henabled, Request.verifying] using hverifying
  | connectFailed i =>
    obtain ⟨caller, base, htake, -, rfl⟩ := step_connectFailed hstep
    simpa [Pool.Trusted] using (h.of_takeCaller htake).1
  | exchanged i result =>
    obtain ⟨caller, base, connection, f, htake, -, rfl | rfl⟩ := step_exchanged hstep <;>
      simpa [Pool.Trusted] using (h.of_takeCaller htake).1
  | preconnect request targetCount =>
    simp only [H1.step] at hstep
    split_ifs at hstep
    obtain rfl := Option.some.inj hstep
    exact h
  | workerStarts i =>
    obtain ⟨worker, base, htake, -, rfl⟩ := step_workerStarts hstep
    simpa [Pool.Trusted, callers_takeWorker htake] using h
  | workerConnected i =>
    obtain ⟨worker, base, htake, -, rfl⟩ := step_workerConnected hstep
    simpa [Pool.Trusted, Pool.opened, callers_takeWorker htake] using h
  | workerFailed i =>
    obtain ⟨worker, base, htake, -, rfl⟩ := step_workerFailed hstep
    simpa [Pool.Trusted, callers_takeWorker htake] using h

/-- In a run whose verifying requests find only verified connections idle, no
verifying request uses an unverified connection. -/
theorem trusted_of_idleVerified (options : PoolOptions) (actions : List Action)
    (henabled : options.enableSslVerify = true)
    (hok : Along (step options) IdleVerified {} actions)
    (hrun : exec (step options) {} actions = some pool) : pool.Trusted :=
  invariant_of_along (fun _ _ _ (h : Pool.Trusted _) hok hstep => h.step henabled hok hstep)
    (fun _ h => absurd h List.not_mem_nil) hok hrun

/-- A verifying request reuses the connection of another one. -/
def verifyingReuse : List Action :=
  [.acquire {} false false, .connectSucceeded 0, .exchanged 0 .success, .acquire {} false false]

theorem trusted_of_idleVerified_verifyingReuse :
    ∃ pool, exec (step {}) {} verifyingReuse = some pool ∧ pool.callers.length = 1 ∧
      pool.Trusted := by
  refine ⟨_, rfl, rfl, trusted_of_idleVerified {} verifyingReuse rfl ?_ rfl⟩
  refine .cons (fun _ c hc => absurd hc List.not_mem_nil) rfl <| .cons trivial rfl <|
    .cons trivial rfl <| .cons ?_ rfl trivial
  intro _ c hc
  obtain rfl := List.mem_singleton.mp hc
  rfl

/-- A request without verification opens a connection and returns it; the next
request asks for verification and is given that connection. -/
theorem untrusted_reuse :
    ¬ ∀ (options : PoolOptions) (actions : List Action) (pool : Pool),
      options.enableSslVerify = true → exec (step options) {} actions = some pool →
        pool.Trusted := by
  intro h
  have htrusted := h {}
    [.acquire { verifyPeer := false } false false, .connectSucceeded 0, .exchanged 0 .success,
      .acquire {} false false] _ rfl rfl
  exact absurd (htrusted _ List.mem_cons_self _ rfl rfl) (by decide)

end H1

end HttpClient
