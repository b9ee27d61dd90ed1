import HttpClient.H1.Segments
import HttpClient.Proxy

/-!
# Reading the answer to CONNECT

After the request for a tunnel the client reads from the proxy until the head of the answer is
there, and looks at its status. What follows the head belongs to the tunnel. But the client reads
into a buffer of its own, and what has come with the end of the head is dropped with it. So
nothing is lost exactly if the head ends where a read ends.

The stream is given by the parts in which it arrives. The reads fail when there is no part left.

## Main definitions

* `parseHttpStatusCode` — the three digits after the first space
* `readConnectResponse` — the loop
* `Transparent` — the tunnel is open, and what follows the head is still to come

## Main results

* `readConnectResponse_head` — what the loop does with a stream that begins with a head
* `readConnectResponse_without_head` — and with one that has none
* `tunnel_transparent_iff` — when the tunnel loses nothing
-/

set_option autoImplicit false

namespace HttpClient.ProxySupport

open Text H1

/-! ### The loop -/

def parseHttpStatusCode (headers : Bytes) : Nat :=
  match findByte 32 headers with
  | none => 0
  | some firstSpace =>
    if headers.length < firstSpace + 4 then 0
    else
      let digits := (headers.drop (firstSpace + 1)).take 3
      if digits.all isDigit then digits.foldl (fun status c => status * 10 + (c.toNat - 48)) 0
      else 0

inductive TunnelResult where
  | threw (what : Bytes)
  /-- The tunnel is open: what has been read behind the head, and the parts still to come. -/
  | opened (dropped : Bytes) (parts : List Bytes)
  deriving DecidableEq, Repr

/-- The reads of `establish_http_connect_tunnel`, with what has been read so far. -/
def readConnectResponse (response : Bytes) : List Bytes → TunnelResult
  | [] => .threw (str "End of file")
  | part :: parts =>
    match find headerTerminator (response ++ part) with
    | some headEnd =>
      let status := parseHttpStatusCode ((response ++ part).take (headEnd + 4))
      if status < 200 || decide (300 ≤ status) then .threw (str "proxy CONNECT failed")
      else .opened ((response ++ part).drop (headEnd + 4)) parts
    | none =>
      if 65536 < (response ++ part).length then .threw (str "proxy CONNECT response too large")
      else readConnectResponse (response ++ part) parts

/-- The tunnel is open, and everything that follows is still to come. -/
def Transparent (parts : List Bytes) (following : Bytes) : Prop :=
  ∃ later, readConnectResponse [] parts = .opened [] later ∧ later.flatten = following

/-! ### Streams with a head -/

variable {head tail response unread : Bytes} {parts : List Bytes}

/-- The loop on what has been read of a head, with the rest of the head and more to come. It takes
the parts that cover the head, unless there are too many of them. -/
theorem readConnectResponse_unread (hhead : IsHead head) (hsplit : response ++ unread = head)
    (hunread : unread ≠ []) (hlimit : response.length ≤ 65536)
    (hstream : parts.flatten = unread ++ tail) :
    readConnectResponse response parts =
      if 65536 < response.length + (covering unread.length parts).dropLast.flatten.length then
        .threw (str "proxy CONNECT response too large")
      else if parseHttpStatusCode head < 200 || decide (300 ≤ parseHttpStatusCode head) then
        .threw (str "proxy CONNECT failed")
      else
        .opened ((covering unread.length parts).flatten.drop unread.length)
          (beyond unread.length parts) := by
  -- on the parts; what is unread of the head becomes shorter with each of them
  induction parts generalizing response unread with
  | nil =>
    rw [List.flatten_nil] at hstream
    exact absurd (List.append_eq_nil_iff.mp hstream.symm).1 hunread
  | cons part parts ih =>
    rw [List.flatten_cons] at hstream
    rw [covering_cons, beyond_cons, readConnectResponse]
    by_cases hlast : unread.length ≤ part.length
    · -- the head ends in this part
      obtain ⟨dropped, hpart⟩ : unread <+: part :=
        List.prefix_of_prefix_length_le ⟨tail, hstream.symm⟩ ⟨parts.flatten, rfl⟩ hlast
      have hread : response ++ part = head ++ dropped := by
        rw [← hpart, ← hsplit, List.append_assoc]
      have hfound : find headerTerminator (response ++ part) = some (head.length - 4) := by
        rw [hread]
        exact find_of_prefix ⟨dropped, rfl⟩ hhead
      have hnone : ([part] : List Bytes).dropLast.flatten.length = 0 := rfl
      rw [if_pos hlast, if_pos hlast, hnone, Nat.add_zero, if_neg (Nat.not_lt.mpr hlimit), hfound]
      dsimp only
      rw [hhead.end_eq, hread, List.take_left, List.drop_left, List.flatten_singleton, ← hpart,
        List.drop_left]
    · rw [if_neg hlast, if_neg hlast]
      obtain ⟨later, hlater⟩ : part <+: unread :=
        List.prefix_of_prefix_length_le ⟨parts.flatten, rfl⟩ ⟨tail, hstream.symm⟩ (by omega)
      have hlength := congrArg List.length hlater
      rw [List.length_append] at hlength
      -- the head goes on behind this part, so it has not been found yet
      have hlater_ne : later ≠ [] := by
        rintro rfl
        rw [List.length_nil] at hlength
        omega
      have hsplit' : (response ++ part) ++ later = head := by
        rw [List.append_assoc, hlater, hsplit]
      have hnone : find headerTerminator (response ++ part) = none := by
        have hfour : headerTerminator.length = 4 := by decide
        have hshort := congrArg List.length hsplit'
        rw [List.length_append] at hshort
        have hpos := List.length_pos_of_ne_nil hlater_ne
        rw [find_prefix_eq ⟨later, hsplit'⟩ hhead, if_neg (by omega)]
      have hrest : parts.flatten = later ++ tail := by
        rw [← hlater, List.append_assoc, List.append_cancel_left_eq] at hstream
        exact hstream
      have hsize : unread.length - part.length = later.length := by omega
      have hparts_ne : parts ≠ [] := by
        rintro rfl
        exact absurd (List.append_eq_nil_iff.mp hrest.symm).1 hlater_ne
      have hdrop : (part ++ (covering later.length parts).flatten).drop unread.length =
          (covering later.length parts).flatten.drop later.length := by
        rw [← hlength, ← List.drop_drop, List.drop_left]
      have hsum : ∀ more : Bytes,
          response.length + (part ++ more).length = (response ++ part).length + more.length := by
        intro more
        rw [List.length_append, List.length_append, Nat.add_assoc]
      rw [hsize, List.dropLast_cons_of_ne_nil (covering_ne_nil _ hparts_ne), List.flatten_cons,
        List.flatten_cons, hdrop, hsum, hnone]
      dsimp only
      -- too much has arrived by now, or the loop goes on with more of the head
      by_cases hlarge : 65536 < (response ++ part).length
      · rw [if_pos hlarge, if_pos (Nat.lt_add_right _ hlarge)]
      · rw [if_neg hlarge]
        exact ih hsplit' hlater_ne (Nat.not_lt.mp hlarge) hrest

/-- A stream that begins with a head. -/
theorem readConnectResponse_head (hhead : IsHead head) (hstream : parts.flatten = head ++ tail) :
    readConnectResponse [] parts =
      if 65536 < (covering head.length parts).dropLast.flatten.length then
        .threw (str "proxy CONNECT response too large")
      else if parseHttpStatusCode head < 200 || decide (300 ≤ parseHttpStatusCode head) then
        .threw (str "proxy CONNECT failed")
      else
        .opened ((covering head.length parts).flatten.drop head.length)
          (beyond head.length parts) := by
  have hne : head ≠ [] := by
    rintro rfl
    have hfour := hhead.four_le
    rw [List.length_nil] at hfour
    omega
  have hread := readConnectResponse_unread hhead (List.nil_append head) hne (Nat.zero_le _) hstream
  rwa [List.length_nil, Nat.zero_add] at hread

/-- A stream without a head. -/
theorem readConnectResponse_without_head
    (hnone : find headerTerminator (response ++ parts.flatten) = none) :
    ∃ what, readConnectResponse response parts = .threw what := by
  induction parts generalizing response with
  | nil => exact ⟨_, rfl⟩
  | cons part parts ih =>
    rw [List.flatten_cons, ← List.append_assoc] at hnone
    have hpart : find headerTerminator (response ++ part) = none := by
      cases hfind : find headerTerminator (response ++ part) with
      | none => rfl
      | some headEnd =>
        have hstays := find_of_prefix ⟨parts.flatten, rfl⟩ hfind
        rw [hstays] at hnone
        cases hnone
    rw [readConnectResponse, hpart]
    dsimp only
    split_ifs
    · exact ⟨_, rfl⟩
    · exact ih hnone

/-! ### What follows the head -/

/-- The head ends where a read ends. -/
def EndsRead (head : Bytes) (parts : List Bytes) : Prop :=
  (covering head.length parts).flatten.length = head.length

/-- Then the parts that cover the head are the head. -/
theorem EndsRead.flatten_eq (h : EndsRead head parts) (hstream : parts.flatten = head ++ tail) :
    (covering head.length parts).flatten = head ∧ (beyond head.length parts).flatten = tail := by
  have hsplit : (covering head.length parts).flatten ++ (beyond head.length parts).flatten =
      head ++ tail := by
    rw [← List.flatten_append, covering_append_beyond, hstream]
  exact List.append_inj hsplit h

/-- The first head of a stream. -/
theorem isHead_take {text : Bytes} {headEnd : Nat}
    (hfind : find headerTerminator text = some headEnd) :
    IsHead (text.take (headEnd + 4)) := by
  have hfour : headerTerminator.length = 4 := by decide
  have hle := headerEnd_le hfind
  have hlength : (text.take (headEnd + 4)).length = headEnd + 4 := by
    rw [List.length_take, Nat.min_eq_left hle]
  rw [IsHead, hlength, Nat.add_sub_cancel, find_prefix_eq (List.take_prefix _ _) hfind,
    if_pos (by rw [hfour, hlength])]

/-- The tunnel loses nothing if and only if the stream begins with a head with a status of success
that is not too long, and that ends where a read ends. -/
theorem tunnel_transparent_iff (parts : List Bytes) (following : Bytes) :
    Transparent parts following ↔
      ∃ head, IsHead head ∧ parts.flatten = head ++ following ∧
        200 ≤ parseHttpStatusCode head ∧ parseHttpStatusCode head < 300 ∧
        (covering head.length parts).dropLast.flatten.length ≤ 65536 ∧ EndsRead head parts := by
  constructor
  · rintro ⟨later, hopened, rfl⟩
    cases hfind : find headerTerminator parts.flatten with
    | none =>
      obtain ⟨what, hthrew⟩ := readConnectResponse_without_head
        (show find headerTerminator ([] ++ parts.flatten) = none from hfind)
      cases hthrew.symm.trans hopened
    | some headEnd =>
      have hhead := isHead_take hfind
      -- what has been read up to there is the head of the stream
      set head := parts.flatten.take (headEnd + 4) with hdef
      have hstream : parts.flatten = head ++ parts.flatten.drop (headEnd + 4) :=
        (List.take_append_drop _ _).symm
      rw [readConnectResponse_head hhead hstream] at hopened
      split_ifs at hopened with hlarge hstatus
      obtain ⟨hdropped, rfl⟩ := TunnelResult.opened.inj hopened
      have hle : head.length ≤ parts.flatten.length := (List.take_prefix _ _).length_le
      have hends : EndsRead head parts :=
        Nat.le_antisymm (List.drop_eq_nil_iff.mp hdropped) (le_length_covering hle)
      obtain ⟨-, hbeyond⟩ := hends.flatten_eq hstream
      rw [Bool.or_eq_true, decide_eq_true_eq, decide_eq_true_eq, not_or] at hstatus
      refine ⟨head, hhead, by rw [hbeyond]; exact hstream, Nat.le_of_not_lt hstatus.1,
        Nat.lt_of_not_le hstatus.2, Nat.le_of_not_lt hlarge, hends⟩
  · rintro ⟨head, hhead, hstream, hsuccess, hbelow, hsmall, hends⟩
    obtain ⟨hcovering, hbeyond⟩ := hends.flatten_eq hstream
    refine ⟨beyond head.length parts, ?_, hbeyond⟩
    have hstatus : ¬ (decide (parseHttpStatusCode head < 200) ||
        decide (300 ≤ parseHttpStatusCode head)) = true := by
      rw [Bool.or_eq_true, decide_eq_true_eq, decide_eq_true_eq]
      omega
    rw [readConnectResponse_head hhead hstream, if_neg (Nat.not_lt.mpr hsmall), if_neg hstatus,
      hcovering, List.drop_length]

/-- The proxy sends the first bytes of the tunnel together with the head. -/
example : readConnectResponse [] [str "HTTP/1.1 200 OK\r\n", str "\r\nabc", str "def"] =
    .opened (str "abc") [str "def"] := by decide +kernel

end HttpClient.ProxySupport
