import HttpClient.Proxy
import HttpClient.Semantics.Call
import Mathlib.Algebra.Group.Nat.Defs
import Mathlib.Data.List.TakeWhile

/-!
# SOCKS5 negotiation

Before a request goes through a SOCKS5 proxy, the client greets the proxy with one method of
authentication, authenticates by the method that the proxy names, and asks for a connection to
the target. The client takes the method the proxy names whether or not it was offered, and the
port of the target is read by `std::stoul` and narrowed to 32 bits before its range is checked.

## Main definitions

* `establishSocks5Tunnel` — the negotiation
* `Negotiated` — a negotiation as the protocol has it, from both sides of the connection
* `Finished` — what a proxy sends for the client to go through with the negotiation
* `Sound` — the client throws, or the negotiation is one of the protocol

## Main results

* `establishSocks5Tunnel_ok_iff` — the runs in which nothing is thrown
* `sound_iff` — when the negotiation is sound
* `method_not_offered` — a proxy that skips the authentication
-/

set_option autoImplicit false

namespace HttpClient.ProxySupport

open Text Semantics

/-! ### The connection to the proxy -/

/-- What the proxy sends until it closes the connection, and how many writes the connection
still takes; besides, what was written, and how much was read into the buffer of `discard`. -/
structure Wire where
  sent : List Bytes := []
  incoming : Bytes := []
  writable : Nat := 0
  discarded : Nat := 0
  deriving DecidableEq, Repr

def asyncWrite (data : Bytes) : Call Bytes Wire Unit := do
  let wire ← get
  if wire.writable = 0 then throw (str "Broken pipe")
  else set { wire with sent := wire.sent ++ [data], writable := wire.writable - 1 }

/-- A read is over when all bytes are there; at the end of the stream it throws. -/
def readExact (size : Nat) : Call Bytes Wire Bytes := do
  let wire ← get
  if wire.incoming.length < size then
    set { wire with incoming := [] }
    throw (str "End of file")
  else
    set { wire with incoming := wire.incoming.drop size }
    return wire.incoming.take size

/-- Read into the buffer of 260 bytes. -/
def readDiscard (size : Nat) : Call Bytes Wire Unit := do
  modify fun wire => { wire with discarded := size }
  let _ ← readExact size

/-! ### Messages of the client -/

def hasCredentials (proxyUrl : Url) : Prop := proxyUrl.username ≠ [] ∨ proxyUrl.password ≠ []

instance (proxyUrl : Url) : Decidable (hasCredentials proxyUrl) :=
  inferInstanceAs (Decidable (_ ∨ _))

def greeting (proxyUrl : Url) : Bytes :=
  if hasCredentials proxyUrl then [0x05, 0x01, 0x02] else [0x05, 0x01, 0x00]

def authRequest (proxyUrl : Url) : Bytes :=
  [0x01, proxyUrl.username.length.toUInt8] ++ proxyUrl.username ++
    proxyUrl.password.length.toUInt8 :: proxyUrl.password

def connectRequest (targetHost : Bytes) (port : Nat) : Bytes :=
  [0x05, 0x01, 0x00, 0x03, targetHost.length.toUInt8] ++ targetHost ++
    [(port >>> 8 &&& 0xff).toUInt8, (port &&& 0xff).toUInt8]

/-- `std::stoul` with an `unsigned long` of 64 bits: white space, a sign, digits. It throws
without a digit and for a number that does not fit; a negative number wraps around. -/
def stoul (text : Bytes) : Option Nat :=
  let (negative, rest) :=
    match trimLeft text with
    | 45 :: rest => (true, rest)
    | 43 :: rest => (false, rest)
    | rest => (false, rest)
  let digits := rest.takeWhile isDigit
  let value := readDecimal 0 digits
  if digits = [] ∨ 2 ^ 64 ≤ value then none
  else some (if negative then (2 ^ 64 - value) % 2 ^ 64 else value)

/-- The number is cast to `unsigned` before it is compared. -/
def connectPort (targetPort : Bytes) : Except Bytes Nat :=
  match stoul targetPort with
  | none => .error (str "stoul")
  | some value =>
    let port := value % 2 ^ 32
    if 65535 < port then .error (str "socks5 target port out of range") else .ok port

/-! ### The negotiation -/

/-- What follows the method that the proxy names. -/
def authenticate (proxyUrl : Url) (version method : UInt8) : Call Bytes Wire Unit :=
  if version ≠ 0x05 ∨ method = 0xff then
    throw (str "socks5 proxy did not accept authentication method")
  else if method = 0x02 then
    if 255 < proxyUrl.username.length ∨ 255 < proxyUrl.password.length then
      throw (str "socks5 username/password too long")
    else do
      asyncWrite (authRequest proxyUrl)
      let authResult ← readExact 2
      if authResult.getD 0 0 ≠ 0x01 ∨ authResult.getD 1 0 ≠ 0x00 then
        throw (str "socks5 authentication failed")
      else return ()
  else if method ≠ 0x00 then throw (str "unsupported socks5 authentication method")
  else return ()

def connect (targetHost targetPort : Bytes) : Call Bytes Wire Unit :=
  if 255 < targetHost.length then throw (str "socks5 target host too long")
  else do
    let port ← ofExcept (connectPort targetPort)
    asyncWrite (connectRequest targetHost port)

/-- The length of the bound address, which a domain name gives itself. -/
def addressLength (addressType : UInt8) : Call Bytes Wire Nat :=
  if addressType = 0x01 then return 4
  else if addressType = 0x03 then do
    let len ← readExact 1
    return (len.getD 0 0).toNat
  else if addressType = 0x04 then return 16
  else throw (str "socks5 CONNECT returned invalid address type")

def readReply : Call Bytes Wire Unit := do
  let reply ← readExact 4
  if reply.getD 0 0 ≠ 0x05 ∨ reply.getD 1 0 ≠ 0x00 then throw (str "socks5 CONNECT failed")
  else
    let addrLen ← addressLength (reply.getD 3 0)
    readDiscard (addrLen + 2)

def establishSocks5Tunnel (targetHost targetPort : Bytes) (proxyUrl : Url) :
    Call Bytes Wire Unit := do
  asyncWrite (greeting proxyUrl)
  let method ← readExact 2
  authenticate proxyUrl (method.getD 0 0) (method.getD 1 0)
  connect targetHost targetPort
  readReply

/-! ### Runs in which nothing is thrown -/

section Steps

variable {wire after : Wire} {data : Bytes} {size : Nat}

theorem asyncWrite_ok_iff :
    (asyncWrite data).outcome wire = (.ok (), after) ↔
      ∃ left, wire.writable = left + 1 ∧
        after = { wire with sent := wire.sent ++ [data], writable := left } := by
  rw [asyncWrite, Call.outcome_bind_ok (Call.outcome_get wire), Call.outcome_guard_eq_ok_iff]
  constructor
  · rintro ⟨hsome, hset⟩
    cases hset
    exact ⟨wire.writable - 1, by omega, rfl⟩
  · rintro ⟨left, hleft, rfl⟩
    refine ⟨by omega, ?_⟩
    rw [hleft]
    rfl

theorem readExact_ok_iff :
    (readExact size).outcome wire = (.ok data, after) ↔
      ∃ rest, wire.incoming = data ++ rest ∧ data.length = size ∧
        after = { wire with incoming := rest } := by
  rw [readExact, Call.outcome_bind_ok (Call.outcome_get wire)]
  constructor
  · intro hread
    split at hread
    · cases hread
    · rename_i hlong
      cases hread
      exact ⟨_, (List.take_append_drop size _).symm, by simp; omega, rfl⟩
  · rintro ⟨rest, hincoming, rfl, rfl⟩
    rw [if_neg (by simp [hincoming]), hincoming]
    show (Except.ok ((data ++ rest).take data.length),
      { wire with incoming := (data ++ rest).drop data.length }) = _
    rw [List.take_left, List.drop_left]

theorem readDiscard_ok_iff :
    (readDiscard size).outcome wire = (.ok (), after) ↔
      ∃ bound rest, wire.incoming = bound ++ rest ∧ bound.length = size ∧
        after = { wire with incoming := rest, discarded := size } := by
  rw [readDiscard, Call.outcome_bind_ok (Call.outcome_modify _ _), Call.outcome_bind_eq_ok_iff]
  constructor
  · rintro ⟨bound, after, hread, hreturn⟩
    obtain ⟨rest, hincoming, hsize, rfl⟩ := readExact_ok_iff.mp hread
    cases hreturn
    exact ⟨bound, rest, hincoming, hsize, rfl⟩
  · rintro ⟨bound, rest, hincoming, hsize, rfl⟩
    exact ⟨bound, _, readExact_ok_iff.mpr ⟨rest, hincoming, hsize, rfl⟩, rfl⟩

end Steps

/-- A round of authentication that the client goes through with: the method, what the client
writes, and what the proxy answers. -/
inductive Round (proxyUrl : Url) : UInt8 → List Bytes → Bytes → Prop where
  | none : Round proxyUrl 0x00 [] []
  | password (husername : proxyUrl.username.length ≤ 255)
      (hpassword : proxyUrl.password.length ≤ 255) :
      Round proxyUrl 0x02 [authRequest proxyUrl] [0x01, 0x00]

/-- An address of a reply: its type, how many bytes its type or its length announces, and
its bytes. -/
inductive BoundAddress : UInt8 → Nat → Bytes → Prop where
  | v4 {address : Bytes} (hsize : address.length = 4) : BoundAddress 0x01 4 address
  | name {len : UInt8} {name : Bytes} (hsize : name.length = len.toNat) :
      BoundAddress 0x03 len.toNat (len :: name)
  | v6 {address : Bytes} (hsize : address.length = 16) : BoundAddress 0x04 16 address

/-- A reply that grants the connection, with the bound address and port. -/
def SuccessReply (size : Nat) (reply : Bytes) : Prop :=
  ∃ (reserved addressType : UInt8) (address port : Bytes),
    BoundAddress addressType size address ∧ port.length = 2 ∧
      reply = [0x05, 0x00, reserved, addressType] ++ (address ++ port)

section Stages

variable {proxyUrl : Url} {wire after : Wire} {targetHost targetPort : Bytes}

theorem authenticate_ok_iff {version method : UInt8} :
    (authenticate proxyUrl version method).outcome wire = (.ok (), after) ↔
      version = 0x05 ∧ ∃ requests reply left rest, Round proxyUrl method requests reply ∧
        wire.incoming = reply ++ rest ∧ wire.writable = requests.length + left ∧
        after = { wire with
          sent := wire.sent ++ requests, incoming := rest, writable := left } := by
  rw [authenticate, Call.outcome_guard_eq_ok_iff]
  constructor
  · rintro ⟨haccepted, hround⟩
    obtain ⟨hversion, -⟩ := not_or.mp haccepted
    refine ⟨not_not.mp hversion, ?_⟩
    split at hround
    · rename_i hmethod
      obtain ⟨hshort, hround⟩ := Call.outcome_guard_eq_ok_iff.mp hround
      obtain ⟨_, _, hwrite, hround⟩ := Call.outcome_bind_eq_ok_iff.mp hround
      obtain ⟨left, hleft, rfl⟩ := asyncWrite_ok_iff.mp hwrite
      obtain ⟨reply, _, hread, hround⟩ := Call.outcome_bind_eq_ok_iff.mp hround
      obtain ⟨rest, hincoming, hsize, rfl⟩ := readExact_ok_iff.mp hread
      obtain ⟨hgranted, hreturn⟩ := Call.outcome_guard_eq_ok_iff.mp hround
      obtain ⟨first, second, rfl⟩ := List.length_eq_two.mp hsize
      cases hreturn
      simp only [List.getD_cons_zero, List.getD_cons_succ, not_or, not_not] at hgranted
      obtain ⟨rfl, rfl⟩ := hgranted
      rw [hmethod]
      exact ⟨_, _, left, rest, .password (by omega) (by omega), hincoming,
        hleft.trans (Nat.add_comm left 1), rfl⟩
    · obtain ⟨hnone, hreturn⟩ := Call.outcome_guard_eq_ok_iff.mp hround
      cases hreturn
      rw [not_not.mp hnone]
      exact ⟨[], [], _, _, .none, rfl, (Nat.zero_add _).symm, by rw [List.append_nil]⟩
  · rintro ⟨rfl, requests, reply, left, rest, hround, hincoming, hleft, rfl⟩
    cases hround with
    | none =>
      refine ⟨by decide, ?_⟩
      rw [if_neg (by decide), if_neg (by decide)]
      obtain rfl : left = wire.writable := (hleft.trans (Nat.zero_add left)).symm
      obtain rfl : rest = wire.incoming := hincoming.symm
      rw [List.append_nil]
      rfl
    | password husername hpassword =>
      refine ⟨by decide, ?_⟩
      rw [if_pos rfl, if_neg (by omega)]
      refine Call.outcome_bind_eq_ok_iff.mpr ⟨(), _, asyncWrite_ok_iff.mpr
        ⟨left, hleft.trans (Nat.add_comm 1 left), rfl⟩, ?_⟩
      exact Call.outcome_bind_eq_ok_iff.mpr
        ⟨[0x01, 0x00], _, readExact_ok_iff.mpr ⟨rest, hincoming, rfl, rfl⟩, rfl⟩

theorem connect_ok_iff :
    (connect targetHost targetPort).outcome wire = (.ok (), after) ↔
      targetHost.length ≤ 255 ∧ ∃ port left, connectPort targetPort = .ok port ∧
        wire.writable = left + 1 ∧ after = { wire with
          sent := wire.sent ++ [connectRequest targetHost port], writable := left } := by
  rw [connect, Call.outcome_guard_eq_ok_iff, Nat.not_lt]
  refine and_congr_right fun _ => ?_
  cases hport : connectPort targetPort with
  | error what =>
    constructor
    · intro hthrow
      cases hthrow
    · rintro ⟨port, left, hnone, -⟩
      cases hnone
  | ok port =>
    have hpure : (ofExcept (.ok port : Except Bytes Nat) : Call Bytes Wire Nat).outcome wire =
        (.ok port, wire) := rfl
    rw [Call.outcome_bind_ok hpure, asyncWrite_ok_iff]
    constructor
    · rintro ⟨left, hleft, rfl⟩
      exact ⟨port, left, rfl, hleft, rfl⟩
    · rintro ⟨other, left, hother, hleft, rfl⟩
      cases hother
      exact ⟨left, hleft, rfl⟩

/-- The part of an address that is read before its length is known. -/
inductive LengthPrefix : UInt8 → Nat → Bytes → Prop where
  | v4 : LengthPrefix 0x01 4 []
  | name {len : UInt8} : LengthPrefix 0x03 len.toNat [len]
  | v6 : LengthPrefix 0x04 16 []

theorem boundAddress_iff {addressType : UInt8} {size : Nat} {address : Bytes} :
    BoundAddress addressType size address ↔
      ∃ announced rest, LengthPrefix addressType size announced ∧ rest.length = size ∧
        address = announced ++ rest := by
  constructor
  · intro h
    cases h with
    | v4 hsize => exact ⟨[], _, .v4, hsize, rfl⟩
    | name hsize => exact ⟨[_], _, .name, hsize, rfl⟩
    | v6 hsize => exact ⟨[], _, .v6, hsize, rfl⟩
  · rintro ⟨announced, rest, hprefix, hsize, rfl⟩
    cases hprefix with
    | v4 => exact .v4 hsize
    | name => exact .name hsize
    | v6 => exact .v6 hsize

theorem addressLength_ok_iff {addressType : UInt8} {size : Nat} :
    (addressLength addressType).outcome wire = (.ok size, after) ↔
      ∃ announced rest, LengthPrefix addressType size announced ∧
        wire.incoming = announced ++ rest ∧ after = { wire with incoming := rest } := by
  rw [addressLength]
  constructor
  · intro hlength
    split at hlength
    · rename_i hv4
      cases hlength
      rw [hv4]
      exact ⟨[], _, .v4, rfl, rfl⟩
    split at hlength
    · rename_i _ hname
      obtain ⟨len, _, hread, hreturn⟩ := Call.outcome_bind_eq_ok_iff.mp hlength
      obtain ⟨rest, hincoming, hsize, rfl⟩ := readExact_ok_iff.mp hread
      obtain ⟨first, rfl⟩ := List.length_eq_one_iff.mp hsize
      cases hreturn
      rw [hname]
      exact ⟨[first], rest, .name, hincoming, rfl⟩
    split at hlength
    · rename_i _ _ hv6
      cases hlength
      rw [hv6]
      exact ⟨[], _, .v6, rfl, rfl⟩
    · cases hlength
  · rintro ⟨announced, rest, hprefix, hincoming, rfl⟩
    cases hprefix with
    | v4 =>
      obtain rfl : wire.incoming = rest := hincoming
      rfl
    | name =>
      rw [if_neg (by decide), if_pos rfl]
      exact Call.outcome_bind_eq_ok_iff.mpr
        ⟨[_], _, readExact_ok_iff.mpr ⟨rest, hincoming, rfl, rfl⟩, rfl⟩
    | v6 =>
      obtain rfl : wire.incoming = rest := hincoming
      rfl

theorem readReply_ok_iff :
    readReply.outcome wire = (.ok (), after) ↔
      ∃ size reply rest, SuccessReply size reply ∧ wire.incoming = reply ++ rest ∧
        after = { wire with incoming := rest, discarded := size + 2 } := by
  rw [readReply, Call.outcome_bind_eq_ok_iff]
  constructor
  · rintro ⟨head, _, hread, hreply⟩
    obtain ⟨_, hincoming, hfour, rfl⟩ := readExact_ok_iff.mp hread
    obtain ⟨hgranted, hreply⟩ := Call.outcome_guard_eq_ok_iff.mp hreply
    obtain ⟨version, status, reserved, addressType, rfl⟩ := List.length_eq_four.mp hfour
    simp only [List.getD_cons_zero, List.getD_cons_succ, not_or, not_not] at hgranted
    obtain ⟨rfl, rfl⟩ := hgranted
    obtain ⟨size, _, hlength, hdiscard⟩ := Call.outcome_bind_eq_ok_iff.mp hreply
    obtain ⟨announced, _, hprefix, hrest, rfl⟩ := addressLength_ok_iff.mp hlength
    obtain ⟨bound, rest, hbound, hsize, rfl⟩ := readDiscard_ok_iff.mp hdiscard
    -- the two bytes behind the address are the port
    have haddress : BoundAddress addressType size (announced ++ bound.take size) :=
      boundAddress_iff.mpr ⟨announced, _, hprefix, by simp [hsize], rfl⟩
    refine ⟨size, _, rest, ⟨reserved, addressType, _, bound.drop size, haddress,
      by simp [hsize], rfl⟩, ?_, rfl⟩
    simp only at hrest hbound
    have hsplit : bound.take size ++ (bound.drop size ++ rest) = bound ++ rest := by
      rw [← List.append_assoc, List.take_append_drop]
    rw [hincoming, hrest, hbound, ← hsplit]
    simp only [List.append_assoc]
  · rintro ⟨size, _, rest, ⟨reserved, addressType, address, port, haddress, hport, rfl⟩,
      hincoming, rfl⟩
    obtain ⟨announced, name, hprefix, hsize, rfl⟩ := boundAddress_iff.mp haddress
    refine ⟨[0x05, 0x00, reserved, addressType], _, readExact_ok_iff.mpr ⟨_,
      by simpa using hincoming, rfl, rfl⟩, ?_⟩
    refine Call.outcome_guard_eq_ok_iff.mpr ⟨by simp, ?_⟩
    refine Call.outcome_bind_eq_ok_iff.mpr ⟨size, _, addressLength_ok_iff.mpr
      ⟨announced, name ++ (port ++ rest), hprefix, by simp, rfl⟩, ?_⟩
    exact readDiscard_ok_iff.mpr ⟨name ++ port, rest, by simp, by simp; omega, rfl⟩

end Stages

/-! ### Whole runs -/

section Runs

variable {proxyUrl : Url} {wire after : Wire} {targetHost targetPort : Bytes}

/-- The runs in which nothing is thrown: what the proxy sends, and what the client does. -/
theorem establishSocks5Tunnel_ok_iff :
    (establishSocks5Tunnel targetHost targetPort proxyUrl).outcome wire = (.ok (), after) ↔
      ∃ method requests authReply port size reply rest left,
        Round proxyUrl method requests authReply ∧ targetHost.length ≤ 255 ∧
        connectPort targetPort = .ok port ∧ SuccessReply size reply ∧
        wire.incoming = [0x05, method] ++ (authReply ++ (reply ++ rest)) ∧
        wire.writable = requests.length + 2 + left ∧
        after = {
          sent := wire.sent ++ ([greeting proxyUrl] ++ requests ++ [connectRequest targetHost port])
          incoming := rest
          writable := left
          discarded := size + 2 } := by
  rw [establishSocks5Tunnel]
  constructor
  · intro hrun
    obtain ⟨_, _, hgreeting, hgreeted⟩ := Call.outcome_bind_eq_ok_iff.mp hrun
    obtain ⟨afterGreeting, hwritable, rfl⟩ := asyncWrite_ok_iff.mp hgreeting
    obtain ⟨choice, _, hread, hchosen⟩ := Call.outcome_bind_eq_ok_iff.mp hgreeted
    obtain ⟨afterChoice, hincoming, hsize, rfl⟩ := readExact_ok_iff.mp hread
    obtain ⟨version, method, rfl⟩ := List.length_eq_two.mp hsize
    obtain ⟨_, _, hauthenticate, hauthenticated⟩ := Call.outcome_bind_eq_ok_iff.mp hchosen
    obtain ⟨hversion, requests, authReply, afterAuth, afterRound, hround, hauth, hrequests, rfl⟩ :=
      authenticate_ok_iff.mp hauthenticate
    obtain ⟨_, _, hconnect, hconnected⟩ := Call.outcome_bind_eq_ok_iff.mp hauthenticated
    obtain ⟨hhost, port, left, hport, hleft, rfl⟩ := connect_ok_iff.mp hconnect
    obtain ⟨size, reply, rest, hgranted, hrest, rfl⟩ := readReply_ok_iff.mp hconnected
    obtain rfl : version = 0x05 := hversion
    simp only at hincoming hauth hrequests hleft hrest
    refine ⟨method, requests, authReply, port, size, reply, rest, left, hround, hhost, hport,
      hgranted, ?_, by omega, by simp⟩
    rw [hincoming, hauth, hrest]
  · rintro ⟨method, requests, authReply, port, size, reply, rest, left, hround, hhost, hport,
      hgranted, hincoming, hwritable, rfl⟩
    refine Call.outcome_bind_eq_ok_iff.mpr ⟨(), _, asyncWrite_ok_iff.mpr
      ⟨requests.length + 1 + left, by omega, rfl⟩, ?_⟩
    refine Call.outcome_bind_eq_ok_iff.mpr ⟨[0x05, method], _, readExact_ok_iff.mpr
      ⟨_, hincoming, rfl, rfl⟩, ?_⟩
    refine Call.outcome_bind_eq_ok_iff.mpr ⟨(), _, authenticate_ok_iff.mpr ⟨rfl, requests,
      authReply, left + 1, _, hround, rfl, by simp only; omega, rfl⟩, ?_⟩
    refine Call.outcome_bind_eq_ok_iff.mpr ⟨(), _, connect_ok_iff.mpr ⟨hhost, port, left, hport,
      rfl, rfl⟩, ?_⟩
    exact readReply_ok_iff.mpr ⟨size, reply, rest, hgranted, rfl, by simp⟩

end Runs

/-! ### The buffer of `discard` -/

/-- What was read into the buffer of 260 bytes fits. -/
def Fits (wire : Wire) : Prop := wire.discarded ≤ 260

theorem asyncWrite_fits (data : Bytes) : Call.Keeps Fits (asyncWrite data) := by
  intro wire hfits
  rw [asyncWrite, Call.outcome_bind_ok (Call.outcome_get wire)]
  split
  · exact hfits
  · exact hfits

theorem readExact_fits (size : Nat) : Call.Keeps Fits (readExact size) := by
  intro wire hfits
  rw [readExact, Call.outcome_bind_ok (Call.outcome_get wire)]
  split
  · exact hfits
  · exact hfits

theorem readDiscard_fits {size : Nat} (hsize : size ≤ 260) :
    Call.Keeps Fits (readDiscard size) := by
  have hmodify : Call.Keeps Fits
      (modify fun wire => { wire with discarded := size } : Call Bytes Wire Unit) :=
    Call.Keeps.modify fun _ _ => hsize
  exact hmodify.bind fun _ => (readExact_fits size).bind fun _ => Call.Keeps.pure ()

theorem addressLength_fits (addressType : UInt8) :
    Call.Ensures Fits (· ≤ 255) (fun _ => True) (addressLength addressType) := by
  rw [addressLength]
  split
  · exact Call.Ensures.pure (by decide)
  split
  · have hread : Call.Ensures Fits (fun _ => True) (fun _ => True) (readExact 1) :=
      fun wire hfits => ⟨readExact_fits 1 wire hfits, fun _ _ => trivial, fun _ _ => trivial⟩
    exact hread.bind fun len _ => Call.Ensures.pure (Nat.le_of_lt_succ (UInt8.toNat_lt _))
  split
  · exact Call.Ensures.pure (by decide)
  · exact Call.Ensures.throw trivial

theorem readReply_fits : Call.Keeps Fits readReply := by
  refine (readExact_fits 4).bind fun reply => ?_
  split
  · exact Call.Keeps.throw _
  · refine (addressLength_fits _).bind_keeps fun addrLen hlength => ?_
    exact readDiscard_fits (Nat.le_trans (Nat.add_le_add_right hlength 2) (by decide))

theorem authenticate_fits (proxyUrl : Url) (version method : UInt8) :
    Call.Keeps Fits (authenticate proxyUrl version method) := by
  rw [authenticate]
  split
  · exact Call.Keeps.throw _
  split
  · split
    · exact Call.Keeps.throw _
    · refine (asyncWrite_fits _).bind fun _ => (readExact_fits 2).bind fun _ => ?_
      split
      · exact Call.Keeps.throw _
      · exact Call.Keeps.pure ()
  split
  · exact Call.Keeps.throw _
  · exact Call.Keeps.pure ()

theorem connect_fits (targetHost targetPort : Bytes) :
    Call.Keeps Fits (connect targetHost targetPort) := by
  rw [connect]
  split
  · exact Call.Keeps.throw _
  · exact (Call.Keeps.ofExcept _).bind fun port => asyncWrite_fits _

/-- However the negotiation ends, no more is read into the buffer than it holds. -/
theorem establishSocks5Tunnel_fits (targetHost targetPort : Bytes) (proxyUrl : Url) :
    Call.Keeps Fits (establishSocks5Tunnel targetHost targetPort proxyUrl) :=
  (asyncWrite_fits _).bind fun _ => (readExact_fits 2).bind fun _ =>
    (authenticate_fits proxyUrl _ _).bind fun _ =>
      (connect_fits targetHost targetPort).bind fun _ => readReply_fits

/-! ### The protocol -/

/-- A decimal number: digits and nothing else. -/
def IsNumeral (text : Bytes) : Prop := text ≠ [] ∧ ∀ c ∈ text, isDigit c

/-- A round of authentication of the protocol: a user name and a password have 1 to 255 bytes. -/
inductive Authenticated (proxyUrl : Url) : UInt8 → List Bytes → Bytes → Prop where
  | none : Authenticated proxyUrl 0x00 [] []
  | password {ulen plen : UInt8} (husername : ulen.toNat = proxyUrl.username.length)
      (hpassword : plen.toNat = proxyUrl.password.length) (hulen : 1 ≤ ulen.toNat)
      (hplen : 1 ≤ plen.toNat) :
      Authenticated proxyUrl 0x02
        [[0x01, ulen] ++ proxyUrl.username ++ plen :: proxyUrl.password] [0x01, 0x00]

/-- A negotiation of the protocol, by what was written and what was read: the proxy chooses one
of the methods offered, and grants a connection to the target. -/
def Negotiated (targetHost targetPort : Bytes) (proxyUrl : Url) (before after : Wire) : Prop :=
  ∃ (count method hostLength high low : UInt8) (methods : Bytes) (requests : List Bytes)
    (authReply : Bytes) (size : Nat) (reply : Bytes),
    count.toNat = methods.length ∧ method ∈ methods ∧
    Authenticated proxyUrl method requests authReply ∧
    hostLength.toNat = targetHost.length ∧
    IsNumeral targetPort ∧ high.toNat * 256 + low.toNat = readDecimal 0 targetPort ∧
    SuccessReply size reply ∧
    after.sent = before.sent ++ ([0x05 :: count :: methods] ++ requests ++
      [[0x05, 0x01, 0x00, 0x03, hostLength] ++ targetHost ++ [high, low]]) ∧
    before.incoming = [0x05, method] ++ (authReply ++ (reply ++ after.incoming))

/-- The call throws, or what was negotiated is what the protocol has; the buffer of `discard` is
never overrun. -/
def Sound (targetHost targetPort : Bytes) (proxyUrl : Url) (wire : Wire) : Prop :=
  let (result, after) := (establishSocks5Tunnel targetHost targetPort proxyUrl).outcome wire
  after.discarded ≤ 260 ∧
    ((∃ what, result = .error what) ∨
      result = .ok () ∧ Negotiated targetHost targetPort proxyUrl wire after)

/-- The client goes through with the negotiation: by a method, the strings fit, and the proxy
sends what is read. -/
structure Finished (targetHost targetPort : Bytes) (proxyUrl : Url) (wire : Wire)
    (method : UInt8) : Prop where
  credentials : method = 0x02 → proxyUrl.username.length ≤ 255 ∧ proxyUrl.password.length ≤ 255
  host : targetHost.length ≤ 255
  port : ∃ port, connectPort targetPort = .ok port
  replies : ∃ size reply rest, SuccessReply size reply ∧
    (method = 0x00 ∧ wire.incoming = [0x05, 0x00] ++ (reply ++ rest) ∨
      method = 0x02 ∧ wire.incoming = [0x05, 0x02, 0x01, 0x00] ++ (reply ++ rest))
  writable : (if method = 0x02 then 3 else 2) ≤ wire.writable

/-- The method is the one that was offered, credentials are both there if one is, and the port
is a number of two bytes. -/
structure Proper (targetPort : Bytes) (proxyUrl : Url) (method : UInt8) : Prop where
  method : method = 0x02 ∧ proxyUrl.username ≠ [] ∧ proxyUrl.password ≠ [] ∨
    method = 0x00 ∧ proxyUrl.username = [] ∧ proxyUrl.password = []
  numeral : IsNumeral targetPort
  port : readDecimal 0 targetPort < 65536

/-! ### Lengths, ports and rounds -/

theorem toNat_toUInt8 {n : Nat} (h : n ≤ 255) : n.toUInt8.toNat = n := by
  rw [Nat.toUInt8_eq, UInt8.toNat_ofNat']
  omega

theorem eq_toUInt8 {b : UInt8} {n : Nat} (h : b.toNat = n) : b = n.toUInt8 := by
  rw [← h]
  exact (UInt8.ofNat_toNat).symm

theorem portBytes {port : Nat} (h : port ≤ 65535) :
    (port >>> 8 &&& 0xff).toUInt8.toNat * 256 + (port &&& 0xff).toUInt8.toNat = port := by
  have hlow (n : Nat) : n &&& 0xff = n % 256 := Nat.and_two_pow_sub_one_eq_mod n 8
  rw [hlow, hlow, Nat.shiftRight_eq_div_pow, toNat_toUInt8 (by omega), toNat_toUInt8 (by omega)]
  omega

/-- A text of digits is read as the number it denotes, if that fits. -/
theorem stoul_numeral {text : Bytes} (h : IsNumeral text) :
    stoul text = if 2 ^ 64 ≤ readDecimal 0 text then none else some (readDecimal 0 text) := by
  obtain ⟨hne, hdigits⟩ := h
  cases text with
  | nil => exact absurd rfl hne
  | cons c rest =>
    have hdigit : isDigit c := hdigits c List.mem_cons_self
    have htrim : trimLeft (c :: rest) = c :: rest := by
      rw [trimLeft, List.dropWhile_cons_of_neg]
      simp [isSpace_eq_false_of_isDigit hdigit]
    have hall : (c :: rest).takeWhile isDigit = c :: rest :=
      List.takeWhile_eq_self_iff.mpr hdigits
    have hminus : c ≠ 45 := by
      rintro rfl
      exact absurd hdigit (by decide)
    have hplus : c ≠ 43 := by
      rintro rfl
      exact absurd hdigit (by decide)
    rw [stoul, htrim]
    split
    rename_i negative other hsign
    split at hsign
    · rename_i heq
      exact absurd (List.cons.inj heq).1 hminus
    · rename_i heq
      exact absurd (List.cons.inj heq).1 hplus
    · cases hsign
      simp only [hall, reduceCtorEq, false_or, Bool.false_eq_true, if_false]

theorem connectPort_le {targetPort : Bytes} {port : Nat} (h : connectPort targetPort = .ok port) :
    port ≤ 65535 := by
  rw [connectPort] at h
  cases hvalue : stoul targetPort with
  | none => simp [hvalue] at h
  | some value =>
    simp only [hvalue] at h
    split at h
    · cases h
    · cases h
      omega

/-- The port of a numeral is its number, if the number has two bytes. -/
theorem connectPort_eq_numeral_iff {targetPort : Bytes} {port : Nat}
    (h : connectPort targetPort = .ok port) (hnumeral : IsNumeral targetPort) :
    port = readDecimal 0 targetPort ↔ readDecimal 0 targetPort < 65536 := by
  constructor
  · rintro rfl
    exact Nat.lt_succ_of_le (connectPort_le h)
  · intro hsmall
    rw [connectPort, stoul_numeral hnumeral, if_neg (by omega)] at h
    simp only [Nat.mod_eq_of_lt (Nat.lt_trans hsmall (by decide : 65536 < 2 ^ 32))] at h
    rw [if_neg (by omega)] at h
    exact (Except.ok.inj h).symm

theorem authenticated_iff {proxyUrl : Url} {method : UInt8} {requests : List Bytes}
    {authReply : Bytes} :
    Authenticated proxyUrl method requests authReply ↔
      Round proxyUrl method requests authReply ∧
        (method = 0x02 → proxyUrl.username ≠ [] ∧ proxyUrl.password ≠ []) := by
  constructor
  · intro h
    cases h with
    | none => exact ⟨.none, fun h => absurd h (by decide)⟩
    | password husername hpassword hulen hplen =>
      rw [eq_toUInt8 husername, eq_toUInt8 hpassword]
      refine ⟨.password (husername ▸ Nat.le_of_lt_succ (UInt8.toNat_lt _))
        (hpassword ▸ Nat.le_of_lt_succ (UInt8.toNat_lt _)), fun _ => ?_⟩
      exact ⟨List.ne_nil_of_length_pos (by omega), List.ne_nil_of_length_pos (by omega)⟩
  · rintro ⟨hround, hne⟩
    cases hround with
    | none => exact .none
    | password husername hpassword =>
      obtain ⟨husome, hpsome⟩ := hne rfl
      have hulen := List.length_pos_of_ne_nil husome
      have hplen := List.length_pos_of_ne_nil hpsome
      exact .password (toNat_toUInt8 husername) (toNat_toUInt8 hpassword)
        (by rw [toNat_toUInt8 husername]; exact hulen)
        (by rw [toNat_toUInt8 hpassword]; exact hplen)

/-! ### Soundness -/

section Soundness

variable {proxyUrl : Url} {wire after : Wire} {targetHost targetPort : Bytes} {method : UInt8}
  {requests : List Bytes} {authReply : Bytes} {port size : Nat} {reply rest : Bytes}

/-- The one method of a greeting. -/
theorem greeting_eq (proxyUrl : Url) :
    ∃ offered, greeting proxyUrl = [0x05, 0x01, offered] ∧
      (hasCredentials proxyUrl ∧ offered = 0x02 ∨ ¬hasCredentials proxyUrl ∧ offered = 0x00) := by
  rw [greeting]
  by_cases h : hasCredentials proxyUrl
  · rw [if_pos h]
    exact ⟨0x02, rfl, .inl ⟨h, rfl⟩⟩
  · rw [if_neg h]
    exact ⟨0x00, rfl, .inr ⟨h, rfl⟩⟩

/-- The method of a round is offered, and both credentials are there if it is used. -/
theorem Round.offered_iff (h : Round proxyUrl method requests authReply) {offered : UInt8}
    (hgreeting : greeting proxyUrl = [0x05, 0x01, offered]) :
    (method = offered ∧ (method = 0x02 → proxyUrl.username ≠ [] ∧ proxyUrl.password ≠ [])) ↔
      (method = 0x02 ∧ proxyUrl.username ≠ [] ∧ proxyUrl.password ≠ [] ∨
        method = 0x00 ∧ proxyUrl.username = [] ∧ proxyUrl.password = []) := by
  obtain ⟨other, hother, hcases⟩ := greeting_eq proxyUrl
  obtain rfl : other = offered := by simpa using hother.symm.trans hgreeting
  have hnone : ¬hasCredentials proxyUrl ↔ proxyUrl.username = [] ∧ proxyUrl.password = [] := by
    simp [hasCredentials]
  rw [hnone] at hcases
  cases h with
  | none => grind [hasCredentials]
  | password => grind [hasCredentials]

/-- A negotiation that the client goes through with is one of the protocol exactly if it is
proper. -/
theorem negotiated_iff (hround : Round proxyUrl method requests authReply)
    (hhost : targetHost.length ≤ 255) (hport : connectPort targetPort = .ok port)
    (hreply : SuccessReply size reply)
    (hsent : after.sent = wire.sent ++
      ([greeting proxyUrl] ++ requests ++ [connectRequest targetHost port]))
    (hincoming : wire.incoming = [0x05, method] ++ (authReply ++ (reply ++ after.incoming))) :
    Negotiated targetHost targetPort proxyUrl wire after ↔ Proper targetPort proxyUrl method := by
  obtain ⟨offered, hgreeting, -⟩ := greeting_eq proxyUrl
  have hports := portBytes (connectPort_le hport)
  constructor
  · rintro ⟨count, chosen, hostLength, high, low, methods, others, otherReply, _, otherGrant,
      hcount, hmem, hauth, hlength, hnumeral, hnumber, -, hsent', hincoming'⟩
    have hmessages := List.append_cancel_left (hsent.symm.trans hsent')
    simp only [List.cons_append, List.nil_append, List.cons.injEq] at hmessages
    obtain ⟨hgreet, hmessages⟩ := hmessages
    obtain ⟨rfl, hconnect⟩ := List.append_inj' hmessages rfl
    have hchosen := hincoming.symm.trans hincoming'
    simp only [List.cons_append, List.nil_append, List.cons.injEq, true_and] at hchosen
    obtain ⟨rfl, -⟩ := hchosen
    rw [hgreeting] at hgreet
    simp only [List.cons.injEq, true_and] at hgreet
    obtain ⟨-, rfl⟩ := hgreet
    simp only [connectRequest, List.cons_append, List.nil_append, List.cons.injEq, true_and,
      and_true] at hconnect
    have hbytes := List.append_cancel_left hconnect.2
    simp only [List.cons.injEq, and_true] at hbytes
    obtain ⟨rfl, rfl⟩ := hbytes
    have hport' := hports.symm.trans hnumber
    exact ⟨(hround.offered_iff hgreeting).mp
      ⟨List.mem_singleton.mp hmem, (authenticated_iff.mp hauth).2⟩, hnumeral,
      (connectPort_eq_numeral_iff hport hnumeral).mp hport'⟩
  · rintro ⟨hmethod, hnumeral, hsmall⟩
    obtain ⟨rfl, hne⟩ := (hround.offered_iff hgreeting).mpr hmethod
    have hnumber := (connectPort_eq_numeral_iff hport hnumeral).mpr hsmall
    refine ⟨1, method, targetHost.length.toUInt8, _, _, [method], requests, authReply, size, reply,
      rfl, List.mem_singleton_self method, authenticated_iff.mpr ⟨hround, hne⟩,
      toNat_toUInt8 hhost, hnumeral, hports.trans hnumber, hreply, ?_, hincoming⟩
    rw [hsent, hgreeting, connectRequest]

/-- What it takes for the client to go through with the negotiation. -/
theorem finished_iff :
    Finished targetHost targetPort proxyUrl wire method ↔
      ∃ requests authReply port size reply rest left, Round proxyUrl method requests authReply ∧
        targetHost.length ≤ 255 ∧ connectPort targetPort = .ok port ∧ SuccessReply size reply ∧
        wire.incoming = [0x05, method] ++ (authReply ++ (reply ++ rest)) ∧
        wire.writable = requests.length + 2 + left := by
  constructor
  · rintro ⟨hcredentials, hhost, ⟨port, hport⟩, ⟨size, reply, rest, hgranted, hreplies⟩, hwritable⟩
    obtain ⟨rfl, hincoming⟩ | ⟨rfl, hincoming⟩ := hreplies
    · rw [if_neg (by decide)] at hwritable
      exact ⟨[], [], port, size, reply, rest, wire.writable - 2, .none, hhost, hport, hgranted,
        hincoming, by simp only [List.length_nil]; omega⟩
    · rw [if_pos rfl] at hwritable
      obtain ⟨husername, hpassword⟩ := hcredentials rfl
      exact ⟨_, _, port, size, reply, rest, wire.writable - 3, .password husername hpassword, hhost,
        hport, hgranted, hincoming, by simp only [List.length_singleton]; omega⟩
  · rintro ⟨requests, authReply, port, size, reply, rest, left, hround, hhost, hport, hgranted,
      hincoming, hwritable⟩
    cases hround with
    | none =>
      refine ⟨fun h => absurd h (by decide), hhost, ⟨port, hport⟩,
        ⟨size, reply, rest, hgranted, .inl ⟨rfl, hincoming⟩⟩, ?_⟩
      rw [if_neg (by decide), hwritable]
      exact Nat.le_trans (Nat.le_add_left 2 _) (Nat.le_add_right _ left)
    | password husername hpassword =>
      refine ⟨fun _ => ⟨husername, hpassword⟩, hhost, ⟨port, hport⟩,
        ⟨size, reply, rest, hgranted, .inr ⟨rfl, hincoming⟩⟩, ?_⟩
      rw [if_pos rfl, hwritable]
      exact Nat.le_add_right 3 left

end Soundness

/-- The negotiation is sound exactly if, where the client goes through with it, the method is the
one offered and the port a number of two bytes. -/
theorem sound_iff (targetHost targetPort : Bytes) (proxyUrl : Url) (incoming : Bytes)
    (writable : Nat) :
    Sound targetHost targetPort proxyUrl { incoming, writable } ↔
      ∀ method, Finished targetHost targetPort proxyUrl { incoming, writable } method →
        Proper targetPort proxyUrl method := by
  have hfits := establishSocks5Tunnel_fits targetHost targetPort proxyUrl
    { incoming, writable } (Nat.zero_le _)
  constructor
  · intro hsound method hfinished
    obtain ⟨requests, authReply, port, size, reply, rest, left, hround, hhost, hport, hgranted,
      hincoming, hwritable⟩ := finished_iff.mp hfinished
    have hrun := establishSocks5Tunnel_ok_iff.mpr ⟨method, requests, authReply, port, size, reply,
      rest, left, hround, hhost, hport, hgranted, hincoming, hwritable, rfl⟩
    rw [Sound, hrun] at hsound
    obtain ⟨-, ⟨what, hthrow⟩ | ⟨-, hnegotiated⟩⟩ := hsound
    · cases hthrow
    · exact (negotiated_iff hround hhost hport hgranted rfl hincoming).mp hnegotiated
  · intro hproper
    rw [Sound]
    cases hrun : (establishSocks5Tunnel targetHost targetPort proxyUrl).outcome
        { incoming, writable } with
    | mk result after =>
      rw [hrun] at hfits
      refine ⟨hfits, ?_⟩
      cases result with
      | error what => exact .inl ⟨what, rfl⟩
      | ok _ =>
        obtain ⟨method, requests, authReply, port, size, reply, rest, left, hround, hhost, hport,
          hgranted, hincoming, hwritable, rfl⟩ := establishSocks5Tunnel_ok_iff.mp hrun
        refine .inr ⟨rfl, (negotiated_iff hround hhost hport hgranted rfl hincoming).mpr ?_⟩
        exact hproper method (finished_iff.mpr ⟨requests, authReply, port, size, reply, rest, left,
          hround, hhost, hport, hgranted, hincoming, hwritable⟩)

/-- A proxy that was offered a user name and a password only, and goes on without. -/
theorem method_not_offered :
    ¬ Sound (str "h") (str "80") { username := str "u", password := str "p" }
      { incoming := [5, 0] ++ [5, 0, 0, 1, 127, 0, 0, 1, 0, 80], writable := 3 } := by
  have hrun : (establishSocks5Tunnel (str "h") (str "80")
      { username := str "u", password := str "p" }).outcome
        { incoming := [5, 0] ++ [5, 0, 0, 1, 127, 0, 0, 1, 0, 80], writable := 3 } =
      (.ok (), {
        sent := [[5, 1, 2], [5, 1, 0, 3, 1, 104, 0, 80]], writable := 1, discarded := 6 }) := by
    rfl
  rw [Sound, hrun]
  rintro ⟨-, ⟨what, hthrow⟩ | ⟨-, hnegotiated⟩⟩
  · cases hthrow
  · have hreply : SuccessReply 4 [5, 0, 0, 1, 127, 0, 0, 1, 0, 80] :=
      ⟨0, 1, [127, 0, 0, 1], [0, 80], .v4 rfl, rfl, rfl⟩
    have hport : connectPort (str "80") = .ok 80 := by rfl
    have hproper := (negotiated_iff .none (by decide) hport hreply rfl rfl).mp hnegotiated
    obtain ⟨hmethod, -⟩ | ⟨-, husername, -⟩ := hproper.method
    · exact absurd hmethod (by decide)
    · exact absurd husername (by decide)

end HttpClient.ProxySupport
