import Mathlib.Logic.Function.Basic
import Mathlib.Tactic.SplitIfs
import HttpClient.Semantics.Machine

/-!
# The sockets that the worker watches

libcurl says by a callback for which readiness of a socket it waits, and the worker keeps a table
of these sockets beside the list of interests that epoll has. An interest carries a pointer to an
entry that says which socket it is about. What epoll reports is translated back and handed to
libcurl.

The callback adds an interest for a socket that the table does not have, and modifies it for one
that it has. If a socket was closed in between, epoll has forgotten it, and the interest is added
again. What libcurl asks last is what it is told of, with two exceptions: a callback that asks
for nothing changes nothing, so a socket that was watched is still reported, and epoll can refuse
an interest, which nobody notices.

The masks of bits are those of `epoll` and of libcurl.

## Main definitions

* `socketActionFromCurl`, `actionFromEpoll` — the translations
* `Watch`, `Watch.updateSocket`, `Watch.step` — the tables, the callback and closed sockets
* `Watch.report` — what the worker tells libcurl about a socket that is ready
* `updateTimer` — the timer

## Main results

* `watch_tells_iff` — the runs in which libcurl is always told what it has asked for
-/

set_option autoImplicit false

namespace HttpClient.Curl

open Semantics

/-! ### Masks -/

def epollIn : UInt32 := 0x1
def epollOut : UInt32 := 0x4
def epollErr : UInt32 := 0x8
def epollHup : UInt32 := 0x10
def epollRdhup : UInt32 := 0x2000

def pollIn : UInt32 := 1
def pollOut : UInt32 := 2
def pollRemove : UInt32 := 4

def cselectIn : UInt32 := 1
def cselectOut : UInt32 := 2
def cselectErr : UInt32 := 4

def socketActionFromCurl (what : UInt32) : UInt32 :=
  (if what &&& pollIn ≠ 0 then epollIn else 0) ||| if what &&& pollOut ≠ 0 then epollOut else 0

def actionFromEpoll (events : UInt32) : UInt32 :=
  (if events &&& epollIn ≠ 0 then cselectIn else 0) |||
    (if events &&& epollOut ≠ 0 then cselectOut else 0) |||
      if events &&& (epollErr ||| epollHup ||| epollRdhup) ≠ 0 then cselectErr else 0

/-- What is watched on a socket on which libcurl waits for something. -/
def watchedEvents (what : UInt32) : UInt32 :=
  socketActionFromCurl what ||| (epollErr ||| epollHup ||| epollRdhup)

/-! ### The tables -/

/-- An interest of epoll, with the key of the entry that it points to. -/
structure Interest where
  events : UInt32
  data : Int
  deriving DecidableEq, Repr

structure Watch where
  sockets : Int → Option UInt32 := fun _ => none
  /-- The socket of each entry; an entry is never erased. -/
  socketEvents : Int → Option Int := fun _ => none
  /-- The interests that epoll has. -/
  interests : Int → Option Interest := fun _ => none
  /-- What libcurl has asked last about a socket that it has not given up. -/
  asked : Int → Option UInt32 := fun _ => none

inductive WatchAction where
  /-- The callback of libcurl; epoll may refuse to add an interest. -/
  | callback (sock : Int) (what : UInt32) (refused : Bool)
  /-- A socket is closed, and epoll forgets it. -/
  | close (sock : Int)
  deriving DecidableEq, Repr

namespace Watch

/-- `EPOLL_CTL_ADD`, which leaves an interest that is there as it is. -/
def add (watch : Watch) (sock : Int) (interest : Interest) (refused : Bool) : Watch :=
  match watch.interests sock with
  | none =>
    if refused then watch
    else { watch with interests := Function.update watch.interests sock interest }
  | some _ => watch

/-- `EPOLL_CTL_MOD`, and `EPOLL_CTL_ADD` where there is nothing to modify. -/
def modify (watch : Watch) (sock : Int) (interest : Interest) (refused : Bool) : Watch :=
  match watch.interests sock with
  | none => watch.add sock interest refused
  | some _ => { watch with interests := Function.update watch.interests sock interest }

def updateSocket (watch : Watch) (sock : Int) (what : UInt32) (refused : Bool) : Watch :=
  if what = pollRemove then
    match watch.sockets sock with
    | none => watch
    | some _ =>
      { watch with
        sockets := Function.update watch.sockets sock none
        interests := Function.update watch.interests sock none }
  else if socketActionFromCurl what = 0 then watch
  else
    let events := watchedEvents what
    let updated :=
      { watch with
        sockets := Function.update watch.sockets sock events
        socketEvents := Function.update watch.socketEvents sock sock }
    match watch.sockets sock with
    | none => updated.add sock { events, data := sock } refused
    | some _ => updated.modify sock { events, data := sock } refused

def step (watch : Watch) : WatchAction → Option Watch
  | .callback sock what refused =>
    let asked := if what = pollRemove then none else some what
    some
      { watch.updateSocket sock what refused with
        asked := Function.update watch.asked sock asked }
  | .close sock =>
    some
      { watch with
        interests := Function.update watch.interests sock none
        asked := Function.update watch.asked sock none }

/-- What libcurl is told when a socket is ready for something: the socket in the entry that the
event points to, and the action. -/
def report (watch : Watch) (sock : Int) (ready : UInt32) : Option (Option Int × UInt32) :=
  (watch.interests sock).bind fun interest =>
    -- errors are reported whatever the interest
    let events := ready &&& (interest.events ||| (epollErr ||| epollHup))
    if events = 0 then none else some (watch.socketEvents interest.data, actionFromEpoll events)

end Watch

/-- The seconds and nanoseconds after which the timer expires; `none` disarms it. -/
def updateTimer (timeoutMs : Int) : Option (Int × Int) :=
  if timeoutMs < 0 then none
  else
    let timeoutMs := if timeoutMs = 0 then 1 else timeoutMs
    some (timeoutMs.tdiv 1000, timeoutMs.tmod 1000 * 1000000)

/-- The timer is given a time that it accepts, and it is the one that libcurl wants, but never at
once. -/
theorem updateTimer_eq_some {timeoutMs sec nsec : Int}
    (h : updateTimer timeoutMs = some (sec, nsec)) :
    0 ≤ sec ∧ 0 ≤ nsec ∧ nsec < 1000000000 ∧
      sec * 1000000000 + nsec = max timeoutMs 1 * 1000000 := by
  unfold updateTimer at h
  split at h
  case isTrue => cases h
  case isFalse hpos =>
    obtain ⟨rfl, rfl⟩ := Prod.mk.inj (Option.some.inj h)
    have hms : (if timeoutMs = 0 then 1 else timeoutMs) = max timeoutMs 1 := by
      split <;> omega
    have hle : 0 ≤ max timeoutMs 1 := by omega
    rw [hms, Int.tdiv_eq_ediv_of_nonneg hle, Int.tmod_eq_emod_of_nonneg hle]
    omega

/-! ### What libcurl is to be told -/

/-- The action for a socket that is ready, as far as libcurl waits for it. -/
def wanted (what ready : UInt32) : UInt32 :=
  (if what &&& pollIn ≠ 0 ∧ ready &&& epollIn ≠ 0 then cselectIn else 0) |||
    (if what &&& pollOut ≠ 0 ∧ ready &&& epollOut ≠ 0 then cselectOut else 0) |||
      if ready &&& (epollErr ||| epollHup ||| epollRdhup) ≠ 0 then cselectErr else 0

/-- What is to be reported of a socket of which libcurl has asked something last. -/
def wantedReport (asked : Option UInt32) (sock : Int) (ready : UInt32) :
    Option (Option Int × UInt32) :=
  asked.bind fun what =>
    if socketActionFromCurl what = 0 ∨ wanted what ready = 0 then none
    else some (some sock, wanted what ready)

namespace Watch

/-- Of every socket libcurl is told the readiness that it has asked for last, and no other. -/
def TellsAsAsked (watch : Watch) : Prop :=
  ∀ sock ready, watch.report sock ready = wantedReport (watch.asked sock) sock ready

/-- A callback that asks for nothing is about a socket that is not watched. No interest is
refused but one that is there to be modified. -/
def Heeds (watch : Watch) : WatchAction → Prop
  | .callback sock what refused =>
    what = pollRemove ∨
      (if socketActionFromCurl what = 0 then watch.interests sock = none
      else refused = true → watch.interests sock ≠ none)
  | .close _ => True

instance (watch : Watch) : ∀ action, Decidable (watch.Heeds action)
  | .callback _ _ _ => inferInstanceAs (Decidable (_ ∨ _))
  | .close _ => isTrue trivial

/-- An interest points to the entry of its socket, which is in the table. -/
def Sound (watch : Watch) : Prop :=
  ∀ sock interest, watch.interests sock = some interest →
    interest.data = sock ∧ watch.socketEvents sock = some sock ∧ watch.sockets sock ≠ none

end Watch

/-! ### Masks of what is watched -/

section Masks

variable (what ready : UInt32)

theorem and_or_left (a b c : UInt32) : a &&& (b ||| c) = a &&& b ||| a &&& c :=
  UInt32.toBitVec_inj.mp <| BitVec.eq_of_getLsbD_eq fun i _ => by
    simp [Bool.and_or_distrib_left]

theorem watchedEvents_and_in :
    watchedEvents what &&& epollIn = if what &&& pollIn ≠ 0 then epollIn else 0 := by
  unfold watchedEvents socketActionFromCurl
  split_ifs <;> decide

theorem watchedEvents_and_out :
    watchedEvents what &&& epollOut = if what &&& pollOut ≠ 0 then epollOut else 0 := by
  unfold watchedEvents socketActionFromCurl
  split_ifs <;> decide

theorem watchedEvents_and_err :
    watchedEvents what &&& (epollErr ||| epollHup ||| epollRdhup) =
      epollErr ||| epollHup ||| epollRdhup := by
  unfold watchedEvents socketActionFromCurl
  split_ifs <;> decide

/-- Errors are part of what is watched. -/
theorem watchedEvents_or : watchedEvents what ||| (epollErr ||| epollHup) = watchedEvents what := by
  unfold watchedEvents socketActionFromCurl
  split_ifs <;> decide

/-- Translated there and back. -/
theorem actionFromEpoll_watched :
    actionFromEpoll (ready &&& watchedEvents what) = wanted what ready := by
  rw [actionFromEpoll, UInt32.and_assoc, UInt32.and_assoc, UInt32.and_assoc,
    watchedEvents_and_in, watchedEvents_and_out, watchedEvents_and_err, wanted]
  by_cases hin : what &&& pollIn = 0 <;> by_cases hout : what &&& pollOut = 0 <;>
    simp [hin, hout]

/-- What is watched is ready if there is something to tell. -/
theorem ready_watched_iff : ready &&& watchedEvents what = 0 ↔ wanted what ready = 0 := by
  have hin : cselectIn ≠ 0 := by decide
  have hout : cselectOut ≠ 0 := by decide
  have herr : cselectErr ≠ 0 := by decide
  rw [watchedEvents, socketActionFromCurl, and_or_left, and_or_left, UInt32.or_eq_zero_iff,
    UInt32.or_eq_zero_iff, wanted, UInt32.or_eq_zero_iff, UInt32.or_eq_zero_iff]
  by_cases hwin : what &&& pollIn = 0 <;> by_cases hwout : what &&& pollOut = 0 <;>
    simp [hwin, hwout, hin, hout, herr]

end Masks

/-! ### The callback -/

namespace Watch

variable {watch watch' : Watch} {sock other : Int} {what ready : UInt32} {refused : Bool}

theorem Sound.interests_eq_none (h : watch.Sound) (hsock : watch.sockets sock = none) :
    watch.interests sock = none := by
  cases hinterest : watch.interests sock with
  | none => rfl
  | some interest => exact absurd hsock (h sock interest hinterest).2.2

theorem report_eq_none (h : watch.interests sock = none) (ready : UInt32) :
    watch.report sock ready = none := by
  rw [report, h, Option.bind_none]

/-- An error is reported for every interest. -/
theorem report_err_ne_none {interest : Interest} (h : watch.interests sock = some interest) :
    watch.report sock epollErr ≠ none := by
  have herr : epollErr &&& (interest.events ||| (epollErr ||| epollHup)) ≠ 0 := by
    rw [and_or_left, Ne, UInt32.or_eq_zero_iff, not_and_or]
    exact .inr (by decide)
  rw [report, h, Option.bind_some, if_neg herr]
  exact Option.some_ne_none _

/-- What the callback has asked for is what is reported. -/
theorem report_watched (hentry : watch.socketEvents sock = some sock)
    (hinterest : watch.interests sock = some { events := watchedEvents what, data := sock })
    (hasks : socketActionFromCurl what ≠ 0) (ready : UInt32) :
    watch.report sock ready = wantedReport (some what) sock ready := by
  rw [report, hinterest, Option.bind_some, wantedReport, Option.bind_some]
  dsimp only
  rw [watchedEvents_or, hentry, actionFromEpoll_watched]
  by_cases hready : ready &&& watchedEvents what = 0
  · rw [if_pos hready, if_pos (.inr ((ready_watched_iff what ready).mp hready))]
  · rw [if_neg hready, if_neg (not_or.mpr ⟨hasks, mt (ready_watched_iff what ready).mpr hready⟩)]

/-- What is reported of a socket depends on its interest and its entry. -/
theorem Sound.report_congr (h : watch.Sound)
    (hinterest : watch'.interests other = watch.interests other)
    (hentry : watch'.socketEvents other = watch.socketEvents other) (ready : UInt32) :
    watch'.report other ready = watch.report other ready := by
  rw [report, report, hinterest]
  cases hsome : watch.interests other with
  | none => rfl
  | some interest => rw [Option.bind_some, Option.bind_some, (h other interest hsome).1, hentry]

/-- A socket that is given up. -/
theorem Sound.updateSocket_remove (h : watch.Sound) (sock : Int) :
    (watch.updateSocket sock pollRemove refused).interests =
        Function.update watch.interests sock none ∧
      (watch.updateSocket sock pollRemove refused).socketEvents = watch.socketEvents ∧
      ∀ other ≠ sock, (watch.updateSocket sock pollRemove refused).sockets other =
        watch.sockets other := by
  rw [updateSocket, if_pos rfl]
  cases hsock : watch.sockets sock with
  | none =>
    refine ⟨?_, rfl, fun _ _ => rfl⟩
    rw [← h.interests_eq_none hsock, Function.update_eq_self]
  | some events => exact ⟨rfl, rfl, fun other hne => Function.update_of_ne hne _ _⟩

/-- A callback that asks for nothing. -/
theorem updateSocket_nothing (hkeeps : what ≠ pollRemove)
    (hnothing : socketActionFromCurl what = 0) :
    watch.updateSocket sock what refused = watch := by
  rw [updateSocket, if_neg hkeeps, if_pos hnothing]

/-- A callback that asks for something. -/
theorem Sound.updateSocket_asks (h : watch.Sound) (hkeeps : what ≠ pollRemove)
    (hasks : socketActionFromCurl what ≠ 0) :
    watch.updateSocket sock what refused =
      { watch with
        sockets := Function.update watch.sockets sock (watchedEvents what)
        socketEvents := Function.update watch.socketEvents sock sock
        interests :=
          if refused = true ∧ watch.interests sock = none then watch.interests
          else
            Function.update watch.interests sock
              (some { events := watchedEvents what, data := sock }) } := by
  rw [updateSocket, if_neg hkeeps, if_neg hasks]
  cases hinterest : watch.interests sock with
  | none =>
    -- whether it is added or modified, it is added
    cases hsock : watch.sockets sock <;> cases refused <;>
      simp [modify, add, hinterest]
  | some interest =>
    obtain ⟨events, hsock⟩ := Option.ne_none_iff_exists'.mp (h sock interest hinterest).2.2
    simp [hsock, modify, hinterest]

/-! ### Runs -/

/-- What the step is about is as it should be, and the tables of the other sockets are as they
were. -/
theorem Sound.update (h : watch.Sound) (sock : Int)
    (hsock : ∀ interest, watch'.interests sock = some interest →
      interest.data = sock ∧ watch'.socketEvents sock = some sock ∧ watch'.sockets sock ≠ none)
    (hothers : ∀ other ≠ sock, watch'.interests other = watch.interests other ∧
      watch'.socketEvents other = watch.socketEvents other ∧
        watch'.sockets other = watch.sockets other) : watch'.Sound := by
  intro other interest hinterest
  by_cases hne : other = sock
  · rw [hne] at hinterest ⊢
    exact hsock interest hinterest
  · obtain ⟨hinterests, hentries, hsockets⟩ := hothers other hne
    rw [hentries, hsockets]
    exact h other interest (hinterests.symm.trans hinterest)

theorem Sound.updateSocket (h : watch.Sound) : (watch.updateSocket sock what refused).Sound := by
  by_cases hremove : what = pollRemove
  · subst hremove
    obtain ⟨hinterests, hentries, hsockets⟩ := h.updateSocket_remove sock
    refine h.update sock (fun interest hinterest => ?_) fun other hne =>
      ⟨?_, ?_, hsockets other hne⟩
    · rw [hinterests, Function.update_self] at hinterest
      cases hinterest
    · rw [hinterests, Function.update_of_ne hne]
    · rw [hentries]
  · by_cases hnothing : socketActionFromCurl what = 0
    · rw [updateSocket_nothing hremove hnothing]
      exact h
    · rw [h.updateSocket_asks hremove hnothing]
      refine h.update sock (fun interest hinterest => ?_) fun other hne => ⟨?_, ?_, ?_⟩
      · refine ⟨?_, Function.update_self _ _ _, ?_⟩
        · dsimp only at hinterest
          split_ifs at hinterest with hrefused
          · -- what was refused was a new interest, and there was none before
            exact nomatch hrefused.2.symm.trans hinterest
          · rw [Function.update_self] at hinterest
            rw [← Option.some.inj hinterest]
        · dsimp only
          rw [Function.update_self]
          exact Option.some_ne_none _
      · dsimp only
        split_ifs
        · rfl
        · exact Function.update_of_ne hne _ _
      · exact Function.update_of_ne hne _ _
      · exact Function.update_of_ne hne _ _

theorem Sound.step {action : WatchAction} (h : watch.Sound)
    (hstep : watch.step action = some watch') : watch'.Sound := by
  cases action with
  | callback sock what refused =>
    obtain rfl := Option.some.inj hstep
    exact h.updateSocket
  | close sock =>
    obtain rfl := Option.some.inj hstep
    refine h.update sock (fun interest hinterest => ?_) fun other hne => ⟨?_, rfl, rfl⟩
    · dsimp only at hinterest
      rw [Function.update_self] at hinterest
      cases hinterest
    · exact Function.update_of_ne hne _ _

/-- What is reported of the other sockets stays as it is. -/
theorem tells_iff (h : watch.Sound) (htells : watch.TellsAsAsked) (sock : Int)
    (hothers : ∀ other ≠ sock, watch'.interests other = watch.interests other ∧
      watch'.socketEvents other = watch.socketEvents other ∧
        watch'.asked other = watch.asked other) :
    watch'.TellsAsAsked ↔
      ∀ ready, watch'.report sock ready = wantedReport (watch'.asked sock) sock ready := by
  refine ⟨fun htells' => htells' sock, fun hsock other ready => ?_⟩
  by_cases hne : other = sock
  · rw [hne]
    exact hsock ready
  · obtain ⟨hinterests, hentries, hasked⟩ := hothers other hne
    rw [h.report_congr hinterests hentries, hasked]
    exact htells other ready

theorem wantedReport_nothing (hnothing : socketActionFromCurl what = 0) :
    wantedReport (some what) sock ready = none := by
  rw [wantedReport, Option.bind_some, if_pos (.inl hnothing)]

/-- An error on a socket is wanted where anything is. -/
theorem wantedReport_err_ne_none (hasks : socketActionFromCurl what ≠ 0) :
    wantedReport (some what) sock epollErr ≠ none := by
  have hwanted : wanted what epollErr ≠ 0 := by
    rw [wanted, Ne, UInt32.or_eq_zero_iff, not_and_or]
    exact .inr (by decide)
  rw [wantedReport, Option.bind_some, if_neg (not_or.mpr ⟨hasks, hwanted⟩)]
  exact Option.some_ne_none _

/-- One step tells libcurl what it has asked for, if and only if it is not one of the two
exceptions. -/
theorem heeds_iff {action : WatchAction} (h : watch.Sound) (htells : watch.TellsAsAsked)
    (hstep : watch.step action = some watch') : watch.Heeds action ↔ watch'.TellsAsAsked := by
  cases action with
  | close sock =>
    obtain rfl := Option.some.inj hstep
    refine iff_of_true trivial ((tells_iff h htells sock fun other hne => ?_).mpr fun ready => ?_)
    · exact ⟨Function.update_of_ne hne _ _, rfl, Function.update_of_ne hne _ _⟩
    · -- epoll has forgotten the socket, and libcurl waits for nothing on it
      rw [report_eq_none (Function.update_self _ _ _)]
      dsimp only
      rw [Function.update_self, wantedReport, Option.bind_none]
  | callback sock what refused =>
    obtain rfl := Option.some.inj hstep
    by_cases hremove : what = pollRemove
    · subst hremove
      obtain ⟨hinterests, hentries, -⟩ := h.updateSocket_remove sock
      refine iff_of_true (.inl rfl)
        ((tells_iff h htells sock fun other hne => ⟨?_, ?_, ?_⟩).mpr fun ready => ?_)
      · dsimp only
        rw [hinterests, Function.update_of_ne hne]
      · dsimp only
        rw [hentries]
      · exact Function.update_of_ne hne _ _
      · rw [report_eq_none (by dsimp only; rw [hinterests, Function.update_self])]
        dsimp only
        rw [Function.update_self, if_pos rfl, wantedReport, Option.bind_none]
    · have hheeds : watch.Heeds (.callback sock what refused) ↔
          if socketActionFromCurl what = 0 then watch.interests sock = none
          else refused = true → watch.interests sock ≠ none := or_iff_right hremove
      rw [hheeds, if_neg hremove]
      by_cases hnothing : socketActionFromCurl what = 0
      · rw [if_pos hnothing, updateSocket_nothing hremove hnothing,
          tells_iff h htells sock fun other hne => ⟨?_, ?_, Function.update_of_ne hne _ _⟩]
        · dsimp only
          rw [Function.update_self]
          constructor
          · intro hnone ready
            rw [wantedReport_nothing hnothing]
            exact report_eq_none hnone ready
          · -- a socket that is still watched would be reported
            intro hall
            by_contra hsome
            obtain ⟨interest, hinterest⟩ := Option.ne_none_iff_exists'.mp hsome
            refine report_err_ne_none hinterest ((hall epollErr).trans ?_)
            exact wantedReport_nothing hnothing
        · rfl
        · rfl
      · rw [if_neg hnothing, h.updateSocket_asks hremove hnothing,
          tells_iff h htells sock fun other hne => ⟨?_, Function.update_of_ne hne _ _,
            Function.update_of_ne hne _ _⟩]
        · dsimp only
          rw [Function.update_self]
          by_cases hrefused : refused = true ∧ watch.interests sock = none
          · refine iff_of_false (fun hok => hok hrefused.1 hrefused.2) fun hall => ?_
            -- a new interest that is refused leaves errors unreported
            refine wantedReport_err_ne_none hnothing ((hall epollErr).symm.trans ?_)
            refine report_eq_none ?_ epollErr
            dsimp only
            rw [if_pos hrefused, hrefused.2]
          · refine iff_of_true (fun h₁ h₂ => hrefused ⟨h₁, h₂⟩) fun ready => ?_
            -- what is watched now is what libcurl has just asked for
            refine report_watched (Function.update_self _ _ _) ?_ hnothing ready
            dsimp only
            rw [if_neg hrefused, Function.update_self]
        · dsimp only
          split_ifs
          · rfl
          · exact Function.update_of_ne hne _ _

end Watch

/-- In every state of a run libcurl is told of every socket the readiness that it has asked for
last, if and only if it never asks for nothing on a socket that is watched, and epoll refuses no
new interest. -/
theorem watch_tells_iff {actions : List WatchAction} {watch : Watch}
    (hrun : exec Watch.step {} actions = some watch) :
    Along Watch.step Watch.Heeds {} actions ↔
      ∀ before after w, actions = before ++ after → exec Watch.step {} before = some w →
        w.TellsAsAsked := by
  have hstart : Watch.TellsAsAsked {} := fun _ _ => rfl
  exact along_iff_throughout_of_invariant (fun _ _ _ h hstep => Watch.Sound.step h hstep)
    (fun _ _ _ h htells hstep => Watch.heeds_iff h htells hstep) (fun _ _ h => nomatch h) hstart
    hrun

/-- A socket is closed while it is watched, and its number is used for another one. -/
def numberReused : List WatchAction :=
  [.callback 7 pollIn false, .close 7, .callback 7 (pollIn ||| pollOut) false]

theorem watch_tells_iff_numberReused :
    Along Watch.step Watch.Heeds {} numberReused ↔
      ∀ before after w, numberReused = before ++ after → exec Watch.step {} before = some w →
        w.TellsAsAsked :=
  watch_tells_iff (rfl : exec Watch.step {} numberReused = some _)

example : Along Watch.step Watch.Heeds {} numberReused := by decide

/-- A socket of which libcurl has said that it waits for nothing is still watched. -/
example : ¬ Along Watch.step Watch.Heeds {} [.callback 7 pollIn false, .callback 7 0 false] := by
  decide

end HttpClient.Curl
