import HttpClient.H2.Session
import HttpClient.H2.TransportKey
import HttpClient.Semantics.LruCache

/-!
# The session groups of a client

An HTTP/2 client keeps a group of sessions for every target. A request first looks up the
group of its target, in a small cache of its thread or else in the map of the client, where
a new group may be created and old ones evicted. Then it counts itself as in flight, chooses
a session of the group and is posted to that session's strand. Only when it has arrived
there can the session know of it.

A thread's cache holds groups weakly: a group is still there if the map has it or some
request holds it. What the cache says is checked against the map only if the lock of the map
is free.

Which session is chosen, when a session answers, and what a session does otherwise is left
open. So is the order in which the requests of different threads proceed; a thread looks up
one group at a time.

## Main definitions

* `SessionGroup`, `LocalCache`, `GroupCall` — groups, the cache of a thread, and requests
* `Client` — the state
* `Client.evictSessionGroups`, `Client.groupOnMap` — the operations under the lock
* `GroupAction`, `Client.step` — the steps of the machine
-/

set_option autoImplicit false

namespace HttpClient.H2

open Semantics Text

structure GroupOptions where
  maxSessionGroups : Nat := 4096
  sessionGroupIdleTtl : Int := 300
  sessionsPerOrigin : Nat := 1
  session : SessionOptions := {}

/-- The sessions for one target, and how many requests count themselves as in flight. -/
structure SessionGroup where
  impls : List Impl
  inflight : Nat := 0

/-- `session_group_idle` -/
def SessionGroup.idle (group : SessionGroup) : Bool := group.impls.all Impl.idle

/-! ### The cache of a thread -/

structure LocalEntry where
  key : Bytes
  /-- A weak reference to the group. -/
  group : Nat
  deriving DecidableEq, Repr

/-- The entries of one client; those of other clients are like empty ones. -/
structure LocalCache where
  entries : List (Option LocalEntry) := List.replicate 32 none
  cursor : Nat := 0

namespace LocalCache

/-- The first entry for a key, and its group. -/
def find (cache : LocalCache) (key : Bytes) : Option (Nat × Nat) := do
  let slot ← cache.entries.findIdx? fun entry => entry.any fun entry => entry.key == key
  let entry ← (← cache.entries[slot]?)
  return (slot, entry.group)

def clear (cache : LocalCache) (slot : Nat) : LocalCache :=
  { cache with entries := cache.entries.set slot none }

/-- Replace the entry at the cursor. -/
def put (cache : LocalCache) (entry : Option LocalEntry) : LocalCache where
  entries := cache.entries.set (cache.cursor % cache.entries.length) entry
  cursor := cache.cursor + 1

variable {cache : LocalCache}

theorem find_eq_some {key : Bytes} {slot group : Nat} (h : cache.find key = some (slot, group)) :
    some { key, group } ∈ cache.entries := by
  obtain ⟨at', hat, h⟩ := Option.bind_eq_some_iff.mp h
  obtain ⟨found, hfound, h⟩ := Option.bind_eq_some_iff.mp h
  obtain ⟨entry, hentry, h⟩ := Option.bind_eq_some_iff.mp h
  obtain ⟨hlt, hkey, -⟩ := List.findIdx?_eq_some_iff_getElem.mp hat
  obtain ⟨_, hget⟩ := List.getElem?_eq_some_iff.mp hfound
  rw [hget, hentry, Option.any_some, beq_iff_eq] at hkey
  obtain ⟨rfl, rfl⟩ := Prod.mk.inj (Option.some.inj h)
  rw [← hkey, ← hentry, ← hget]
  exact List.getElem_mem hlt

theorem mem_clear {slot : Nat} {entry : LocalEntry} (h : some entry ∈ (cache.clear slot).entries) :
    some entry ∈ cache.entries := by
  rcases List.mem_or_eq_of_mem_set h with hold | hnew
  · exact hold
  · cases hnew

theorem mem_put {new : Option LocalEntry} {entry : LocalEntry}
    (h : some entry ∈ (cache.put new).entries) : some entry ∈ cache.entries ∨ new = some entry := by
  rcases List.mem_or_eq_of_mem_set h with hold | hnew
  · exact .inl hold
  · exact .inr hnew.symm

end LocalCache

/-! ### Requests -/

/-- Where a request is on its way to a session and back. -/
inductive GroupPhase where
  /-- In `group_for`: the entry of the thread holds this group. -/
  | probing (slot group : Nat)
  /-- In `group_for`: the thread's cache has been no help. -/
  | missed
  /-- `group_for` has returned. -/
  | found (group : Nat)
  /-- Counted as in flight. -/
  | counted (group : Nat)
  /-- Posted to the strand of a session. -/
  | posted (group impl : Nat)
  /-- Running on the strand of a session. -/
  | arrived (group : Nat)
  /-- Answered and no longer counted. -/
  | leaving (group : Nat)
  deriving DecidableEq, Repr

namespace GroupPhase

/-- The group that is held. -/
def group : GroupPhase → Option Nat
  | .probing _ group | .found group | .counted group | .posted group _ | .arrived group
  | .leaving group => some group
  | .missed => none

/-- The group in which the request is counted. -/
def counts : GroupPhase → Option Nat
  | .counted group | .posted group _ | .arrived group => some group
  | _ => none

/-- Whether `group_for` is running. -/
def lookingUp : GroupPhase → Bool
  | .probing .. | .missed => true
  | _ => false

end GroupPhase

/-- A call of `async_request`, `async_request_callback` or `preconnect`. -/
structure GroupCall where
  mode : Mode
  thread : Nat
  request : Request
  key : Bytes
  phase : GroupPhase

/-! ### The client -/

structure Client where
  /-- `groups_` and `group_lru_`. -/
  cache : LruCache Bytes Nat := {}
  groups : Nat → SessionGroup := fun _ => { impls := [] }
  /-- The number of groups created so far, from which groups are named. -/
  created : Nat := 0
  /-- The groups that have been evicted: a shutdown is posted to their sessions. -/
  evicted : List Nat := []
  threads : Nat → LocalCache := fun _ => {}
  calls : List GroupCall := []
  clock : Int := 0

namespace Client

variable (options : GroupOptions)

/-- Whether a weak reference to a group can be locked. -/
def alive (client : Client) (group : Nat) : Bool :=
  (client.cache.map.entries.any fun entry => entry.2.value == group) ||
    client.calls.any fun call => call.phase.group == some group

/-- Whether a call of the thread is in `group_for`. -/
def busy (client : Client) (thread : Nat) : Bool :=
  client.calls.any fun call => call.thread == thread && call.phase.lookingUp

def takeCall (client : Client) (i : Nat) : Option (GroupCall × Client) :=
  client.calls[i]?.map fun call => (call, { client with calls := client.calls.eraseIdx i })

def resume (client : Client) (call : GroupCall) (phase : GroupPhase) : Client :=
  { client with calls := client.calls ++ [{ call with phase }] }

def setThread (client : Client) (thread : Nat) (cache : LocalCache) : Client :=
  { client with threads := Function.update client.threads thread cache }

def setGroup (client : Client) (group : Nat) (f : SessionGroup → SessionGroup) : Client :=
  { client with groups := Function.update client.groups group (f (client.groups group)) }

/-- How an eviction decides. -/
def evictionRule (client : Client) (now : Int) : EvictionRule (Bytes × Entry Nat) :=
  LruCache.agingRule (.reached options.maxSessionGroups) (fun group => (client.groups group).idle)
    options.sessionGroupIdleTtl now

/-- `evict_session_groups_locked` -/
def evictSessionGroups (client : Client) (now : Int) : Client :=
  if options.maxSessionGroups = 0 then client
  else
    let (cache, removed) := client.cache.evict (client.evictionRule options now)
    { client with cache, evicted := client.evicted ++ removed.map fun x => x.2.value }

/-- Create a group and put it in the map. -/
def createGroup (client : Client) (now : Int) (key : Bytes) : Client :=
  { client with
    cache := client.cache.pushFront now key client.created
    groups := Function.update client.groups client.created
      { impls := List.replicate (max 1 options.sessionsPerOrigin) {} }
    created := client.created + 1 }

/-- Store a group in the cache of the call's thread and return it. -/
def found (client : Client) (call : GroupCall) (group : Nat) : Client :=
  (client.setThread call.thread
    ((client.threads call.thread).put (some { key := call.key, group }))).resume call (.found group)

/-- The part of `group_for` that looks the key up in the map. An eviction reads the clock
before a use does. -/
def groupOnMap (client : Client) (call : GroupCall) (evictNow now : Int) : Client :=
  match client.cache.map.lookup call.key with
  | some entry =>
    { client with cache := client.cache.refresh now call.key, clock := now }.found call entry.value
  | none =>
    let client := client.evictSessionGroups options evictNow
    { client.createGroup options now call.key with clock := now }.found call client.created

end Client

/-- The steps of the machine. Calls are named by their position. -/
inductive GroupAction where
  /-- A call enters `group_for` and looks at the entries of its thread. -/
  | call (mode : Mode) (thread : Nat) (request : Request)
  /-- The lock is tried to check what the thread's entry says; `available` says whether it
  is obtained. -/
  | probe (i : Nat) (available : Bool) (now : Int)
  /-- The lock is obtained to look the key up in the map. -/
  | lookUp (i : Nat) (evictNow now : Int)
  /-- The request counts itself as in flight. -/
  | count (i : Nat)
  /-- The request is posted to a session of the group. -/
  | post (i impl : Nat)
  /-- The request starts on the session's strand. -/
  | arrive (i : Nat) (submission : Submission)
  /-- The session has answered; the request is no longer counted. -/
  | answer (i : Nat)
  /-- The call ends and lets go of the group. -/
  | leave (i : Nat)
  /-- Another client stores a group of its own in the cache of a thread. -/
  | foreign (thread : Nat)
  /-- The groups are evicted by the maintenance. -/
  | maintenance (now : Int)
  /-- A session makes a step of its own. -/
  | session (group impl : Nat) (action : Action)

/-- The steps that a session makes without a request of the client: no request starts but one
that only opens the connection. -/
def Action.ownStep : Action → Bool
  | .request .preconnect _ _ => true
  | .request _ _ _ => false
  | _ => true

open Client in
/-- One step of the machine; `none` if the action is not enabled. -/
def Client.step (hash : Bytes → UInt64) (options : GroupOptions) (client : Client) :
    GroupAction → Option Client
  | .call mode thread request =>
    if client.busy thread then none
    else match groupKey hash request with
    -- The call ends with the exception of `parse_url` or of the proxy's settings.
    | .error _ => some client
    | .ok key =>
      let call : GroupCall := { mode, thread, request, key, phase := .missed }
      match (client.threads thread).find key with
      | none => some (client.resume call .missed)
      | some (slot, group) =>
        if client.alive group then some (client.resume call (.probing slot group))
        else
          some ((client.setThread thread
            ((client.threads thread).clear slot)).resume call .missed)
  | .probe i available now => do
    let (call, client) ← client.takeCall i
    let .probing slot group := call.phase | none
    if client.clock ≤ now then
      if available then
        if client.cache.get call.key = some group then
          some ({ client with
            cache := client.cache.refresh now call.key, clock := now }.resume call (.found group))
        else
          some ((client.setThread call.thread
            ((client.threads call.thread).clear slot)).resume call .missed)
      else some (client.resume call (.found group))
    else none
  | .lookUp i evictNow now => do
    let (call, client) ← client.takeCall i
    let .missed := call.phase | none
    if client.clock ≤ evictNow ∧ evictNow ≤ now then
      some (client.groupOnMap options call evictNow now)
    else none
  | .count i => do
    let (call, client) ← client.takeCall i
    let .found group := call.phase | none
    if call.mode = .preconnect then none
    else
      let client := client.setGroup group fun group => { group with inflight := group.inflight + 1 }
      some (client.resume call (.counted group))
  | .post i impl => do
    let (call, client) ← client.takeCall i
    let .counted group := call.phase | none
    if impl < (client.groups group).impls.length then
      some (client.resume call (.posted group impl))
    else none
  | .arrive i submission => do
    let (call, client) ← client.takeCall i
    let .posted group impl := call.phase | none
    let before ← (client.groups group).impls[impl]?
    let after ← H2.step options.session before (.request call.mode call.request submission)
    let client := client.setGroup group fun group =>
      { group with impls := group.impls.set impl after }
    some (client.resume call (.arrived group))
  | .answer i => do
    let (call, client) ← client.takeCall i
    let .arrived group := call.phase | none
    let client := client.setGroup group fun group => { group with inflight := group.inflight - 1 }
    some (client.resume call (.leaving group))
  | .leave i => do
    let (call, client) ← client.takeCall i
    match call.phase with
    | .leaving _ => some client
    -- A preconnect holds its group until the sessions are connected.
    | .found _ => if call.mode = .preconnect then some client else none
    | _ => none
  | .foreign thread =>
    if client.busy thread then none
    else some (client.setThread thread ((client.threads thread).put none))
  | .maintenance now =>
    if client.clock ≤ now then
      some { client.evictSessionGroups options now with clock := now }
    else none
  | .session group impl action =>
    if action.ownStep then do
      let before ← (client.groups group).impls[impl]?
      let after ← H2.step options.session before action
      some (client.setGroup group fun group => { group with impls := group.impls.set impl after })
    else none

/-! ### What each step does -/

variable {hash : Bytes → UInt64} {options : GroupOptions} {client client' base : Client}
  {call : GroupCall} {i : Nat}

namespace Client

/-- Every thread has only entries that it had before. -/
def Forgets (threads threads' : Nat → LocalCache) : Prop :=
  ∀ thread entry, some entry ∈ (threads' thread).entries → some entry ∈ (threads thread).entries

theorem Forgets.refl (threads : Nat → LocalCache) : Forgets threads threads := fun _ _ h => h

theorem Forgets.update {threads : Nat → LocalCache} {thread : Nat} {cache : LocalCache}
    (h : ∀ entry, some entry ∈ cache.entries → some entry ∈ (threads thread).entries) :
    Forgets threads (Function.update threads thread cache) := by
  intro other entry hentry
  by_cases hother : other = thread
  · subst hother
    rw [Function.update_self] at hentry
    exact h entry hentry
  · rwa [Function.update_of_ne hother] at hentry

/-- A call is taken out of the list. -/
theorem takeCall_eq_some (h : client.takeCall i = some (call, base)) :
    client.calls[i]? = some call ∧
      ∃ rest, client.calls.Perm (call :: rest) ∧ base = { client with calls := rest } := by
  obtain ⟨c, hc, hpair⟩ := Option.map_eq_some_iff.mp h
  obtain ⟨rfl, rfl⟩ := Prod.mk.inj hpair
  obtain ⟨hlt, rfl⟩ := List.getElem?_eq_some_iff.mp hc
  exact ⟨hc, _, (List.getElem_cons_eraseIdx_perm hlt).symm, rfl⟩

end Client

open Client

theorem step_call {mode : Mode} {thread : Nat} {request : Request}
    (h : client.step hash options (.call mode thread request) = some client') :
    client' = client ∨ ∃ key threads phase,
      (phase = .missed ∨ ∃ slot group, phase = .probing slot group ∧
        some { key, group } ∈ (client.threads thread).entries) ∧
      Forgets client.threads threads ∧
      client' = { client with
        threads
        calls := client.calls ++ [{ mode, thread, request, key, phase }] } := by
  rw [Client.step] at h
  split_ifs at h with hbusy
  cases hkey : groupKey hash request with
  | error what =>
    rw [hkey] at h
    exact .inl (Option.some.inj h).symm
  | ok key =>
    simp only [hkey] at h
    cases hfind : (client.threads thread).find key with
    | none =>
      simp only [hfind] at h
      exact .inr ⟨key, _, _, .inl rfl, .refl _, (Option.some.inj h).symm⟩
    | some found =>
      obtain ⟨slot, group⟩ := found
      simp only [hfind] at h
      split_ifs at h with halive
      · have hentry := LocalCache.find_eq_some hfind
        exact .inr ⟨key, _, _, .inr ⟨slot, group, rfl, hentry⟩, .refl _, (Option.some.inj h).symm⟩
      · exact .inr ⟨key, _, _, .inl rfl, .update fun _ => LocalCache.mem_clear,
          (Option.some.inj h).symm⟩

theorem step_probe {available : Bool} {now : Int}
    (h : client.step hash options (.probe i available now) = some client') :
    ∃ call rest slot group, client.calls[i]? = some call ∧ client.calls.Perm (call :: rest) ∧
      call.phase = .probing slot group ∧
      (available = true ∧ client.clock ≤ now ∧ client.cache.get call.key = some group ∧
          client' = { client with
            cache := client.cache.refresh now call.key
            clock := now
            calls := rest ++ [{ call with phase := .found group }] } ∨
        available = true ∧ (∃ threads, Forgets client.threads threads ∧ client' = { client with
            threads
            calls := rest ++ [{ call with phase := .missed }] }) ∨
        available = false ∧ client' = { client with
            calls := rest ++ [{ call with phase := .found group }] }) := by
  obtain ⟨⟨call, base⟩, htake, h⟩ := Option.bind_eq_some_iff.mp h
  obtain ⟨hat, rest, hperm, rfl⟩ := takeCall_eq_some htake
  cases hphase : call.phase with
  | probing slot group =>
    refine ⟨call, rest, slot, group, hat, hperm, hphase, ?_⟩
    simp only [hphase] at h
    split_ifs at h with hclock havailable hcurrent
    · exact .inl ⟨havailable, hclock, hcurrent, (Option.some.inj h).symm⟩
    · exact .inr (.inl ⟨havailable, _, .update fun _ => LocalCache.mem_clear,
        (Option.some.inj h).symm⟩)
    · exact .inr (.inr ⟨Bool.eq_false_iff.mpr havailable, (Option.some.inj h).symm⟩)
  | _ => simp [hphase] at h

theorem step_lookUp {evictNow now : Int}
    (h : client.step hash options (.lookUp i evictNow now) = some client') :
    ∃ call rest, client.calls[i]? = some call ∧ client.calls.Perm (call :: rest) ∧
      call.phase = .missed ∧ client.clock ≤ evictNow ∧ evictNow ≤ now ∧
      client' = { client with calls := rest }.groupOnMap options call evictNow now := by
  obtain ⟨⟨call, base⟩, htake, h⟩ := Option.bind_eq_some_iff.mp h
  obtain ⟨hat, rest, hperm, rfl⟩ := takeCall_eq_some htake
  cases hphase : call.phase with
  | missed =>
    simp only [hphase] at h
    split_ifs at h with hclock
    exact ⟨call, rest, hat, hperm, hphase, hclock.1, hclock.2, (Option.some.inj h).symm⟩
  | _ => simp [hphase] at h

theorem step_count (h : client.step hash options (.count i) = some client') :
    ∃ call rest group, client.calls.Perm (call :: rest) ∧ call.phase = .found group ∧
      call.mode ≠ .preconnect ∧
      client' = { client.setGroup group fun group =>
          { group with inflight := group.inflight + 1 } with
        calls := rest ++ [{ call with phase := .counted group }] } := by
  obtain ⟨⟨call, base⟩, htake, h⟩ := Option.bind_eq_some_iff.mp h
  obtain ⟨-, rest, hperm, rfl⟩ := takeCall_eq_some htake
  cases hphase : call.phase with
  | found group =>
    simp only [hphase] at h
    split_ifs at h with hmode
    exact ⟨call, rest, group, hperm, hphase, hmode, (Option.some.inj h).symm⟩
  | _ => simp [hphase] at h

theorem step_post {impl : Nat} (h : client.step hash options (.post i impl) = some client') :
    ∃ call rest group, client.calls[i]? = some call ∧ client.calls.Perm (call :: rest) ∧
      call.phase = .counted group ∧
      client' = { client with calls := rest ++ [{ call with phase := .posted group impl }] } := by
  obtain ⟨⟨call, base⟩, htake, h⟩ := Option.bind_eq_some_iff.mp h
  obtain ⟨hat, rest, hperm, rfl⟩ := takeCall_eq_some htake
  cases hphase : call.phase with
  | counted group =>
    simp only [hphase] at h
    split_ifs at h with himpl
    exact ⟨call, rest, group, hat, hperm, hphase, (Option.some.inj h).symm⟩
  | _ => simp [hphase] at h

theorem step_arrive {submission : Submission}
    (h : client.step hash options (.arrive i submission) = some client') :
    ∃ call rest group impl impls, client.calls.Perm (call :: rest) ∧
      call.phase = .posted group impl ∧
      client' = { client.setGroup group fun group => { group with impls } with
        calls := rest ++ [{ call with phase := .arrived group }] } := by
  obtain ⟨⟨call, base⟩, htake, h⟩ := Option.bind_eq_some_iff.mp h
  obtain ⟨-, rest, hperm, rfl⟩ := takeCall_eq_some htake
  cases hphase : call.phase with
  | posted group impl =>
    simp only [hphase] at h
    obtain ⟨before, -, h⟩ := Option.bind_eq_some_iff.mp h
    obtain ⟨after, -, h⟩ := Option.bind_eq_some_iff.mp h
    exact ⟨call, rest, group, impl, _, hperm, hphase, (Option.some.inj h).symm⟩
  | _ => simp [hphase] at h

theorem step_answer (h : client.step hash options (.answer i) = some client') :
    ∃ call rest group, client.calls.Perm (call :: rest) ∧ call.phase = .arrived group ∧
      client' = { client.setGroup group fun group =>
          { group with inflight := group.inflight - 1 } with
        calls := rest ++ [{ call with phase := .leaving group }] } := by
  obtain ⟨⟨call, base⟩, htake, h⟩ := Option.bind_eq_some_iff.mp h
  obtain ⟨-, rest, hperm, rfl⟩ := takeCall_eq_some htake
  cases hphase : call.phase with
  | arrived group =>
    simp only [hphase] at h
    exact ⟨call, rest, group, hperm, hphase, (Option.some.inj h).symm⟩
  | _ => simp [hphase] at h

theorem step_leave (h : client.step hash options (.leave i) = some client') :
    ∃ call rest, client.calls.Perm (call :: rest) ∧ call.phase.counts = none ∧
      client' = { client with calls := rest } := by
  obtain ⟨⟨call, base⟩, htake, h⟩ := Option.bind_eq_some_iff.mp h
  obtain ⟨-, rest, hperm, rfl⟩ := takeCall_eq_some htake
  cases hphase : call.phase with
  | leaving group =>
    simp only [hphase] at h
    exact ⟨call, rest, hperm, by rw [hphase]; rfl, (Option.some.inj h).symm⟩
  | found group =>
    simp only [hphase] at h
    split_ifs at h with hmode
    exact ⟨call, rest, hperm, by rw [hphase]; rfl, (Option.some.inj h).symm⟩
  | _ => simp [hphase] at h

theorem step_foreign {thread : Nat}
    (h : client.step hash options (.foreign thread) = some client') :
    ∃ threads, Forgets client.threads threads ∧ client' = { client with threads } := by
  rw [Client.step] at h
  split_ifs at h with hbusy
  refine ⟨_, .update fun entry hentry => ?_, (Option.some.inj h).symm⟩
  rcases LocalCache.mem_put hentry with hold | hnew
  · exact hold
  · cases hnew

theorem step_maintenance {now : Int}
    (h : client.step hash options (.maintenance now) = some client') :
    client.clock ≤ now ∧
      client' = { client.evictSessionGroups options now with clock := now } := by
  rw [Client.step] at h
  split_ifs at h with hclock
  exact ⟨hclock, (Option.some.inj h).symm⟩

theorem step_session {group impl : Nat} {action : Action}
    (h : client.step hash options (.session group impl action) = some client') :
    ∃ impls, client' = client.setGroup group fun group => { group with impls } := by
  rw [Client.step] at h
  split_ifs at h with hown
  obtain ⟨before, -, h⟩ := Option.bind_eq_some_iff.mp h
  obtain ⟨after, -, h⟩ := Option.bind_eq_some_iff.mp h
  exact ⟨_, (Option.some.inj h).symm⟩

end HttpClient.H2
