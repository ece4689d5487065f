/-
  Speedometer.EndToEnd

  The TCP path from the server's buffer to the client's: the GUI thread's
  setters, the server's `TCPService::run`, one ordered byte stream for each
  connection and the client's `TCPService::run`, in any interleaving.

  `send` may take fewer bytes than it is given; only those enter the stream.
  The history of `m_buf` and the instants of the snapshots are recorded so that
  what the client commits can be compared with them (`FromSnapshots`).
-/

import Speedometer.Server.TcpService
import Speedometer.Client.Receiver
import Speedometer.Lib.History

namespace Speedometer

open Cpp Blocks History Transition Server Client

/-- The two programs, the streams between them and the history of the server's
    buffer.  An instant is a position in that history. -/
structure EndToEnd where
  server : Server.TcpService.State
  /-- every value `m_buf` has had, the first one first -/
  hist : List (Buf SBUFLEN)
  /-- the instant of the worker's last snapshot -/
  snap : Nat := 0
  /-- the least number the next accepted connection can have -/
  next : Nat := 0
  /-- the bytes that have entered each connection's stream -/
  sent : Nat → List (BitVec 8) := fun _ => []
  /-- the instants of the snapshots sent whole on each connection -/
  instants : Nat → List Nat := fun _ => []
  client : Receiver

namespace EndToEnd

/-- What can happen next.  The connections wait for `accept` in the order they
    were established; one that is gone by then may be passed over. -/
inductive Ev
  | insert (call : InsertCall)
  | stop
  | accept (connfd : Int) (k : Nat)
  | server (e : Server.TcpService.Ev)
  | client (e : Receiver.Ev)
deriving DecidableEq, Repr

/-- The connection behind `connfd`. -/
def conn (s : EndToEnd) : Nat := s.next - 1

/-- Recording a step of the server's worker that leads to `server`. -/
def record (s : EndToEnd) (server : Server.TcpService.State) :
    Server.TcpService.Ev → EndToEnd
  | .send bytes_sent =>
      -- only the bytes `send` took enter the stream; a failed `send` takes none
      { s with
        server
        sent := Function.update s.sent s.conn
          (s.sent s.conn ++ s.server.temp_buf.toList.take bytes_sent.toNat)
        instants := Function.update s.instants s.conn
          (s.instants s.conn ++ if bytes_sent = SBUFLEN then [s.snap] else []) }
  | .tau =>
      { s with server, snap := if s.server.loc = .snapshot then s.hist.length - 1 else s.snap }
  | .listen _ | .accept _ => { s with server }

/-- A step of the server's worker. -/
def worker (s : EndToEnd) (e : Server.TcpService.Ev) : Option EndToEnd :=
  match Server.TcpService.step s.server e with
  | some server => some (s.record server e)
  | none => none

/-- A step of the whole system. -/
def step (s : EndToEnd) : Ev → Option EndToEnd
  | .insert call =>
      match call.run s.server.m_buf with
      | .ok m_buf => some { s with server := { s.server with m_buf }, hist := s.hist ++ [m_buf] }
      | .error _ => none
  | .stop => some { s with server := { s.server with m_is_running := false } }
  | .accept connfd k =>
      -- a connection the client has established and the server has not come to yet
      if 0 ≤ connfd ∧ s.next ≤ k ∧ k < s.client.conns then
        { s with next := k + 1 }.worker (.accept connfd)
      else none
  | .server (.accept connfd) => if connfd < 0 then s.worker (.accept connfd) else none
  | .server e => s.worker e
  | .client e =>
      match Receiver.step s.sent s.client e with
      | some client => some { s with client }
      | none => none

/-- Both programs before their first step. -/
def start (m_buf m_buffer : Buf SBUFLEN) : EndToEnd where
  server := { m_buf }
  hist := [m_buf]
  client := Receiver.start m_buffer

/-- Every value the client has committed is what `m_buf` was at one instant, and
    the instants of successive commits never go back. -/
def FromSnapshots (s : EndToEnd) : Prop :=
  ∃ ts : List Nat, ts.Pairwise (· ≤ ·) ∧ s.client.log.map some = ts.map (s.hist[·]?)

/-- Nothing more is sent on a connection after a short `send`: when bytes are sent,
    whole frames have been sent before. -/
def WholeSends (s : EndToEnd) : Ev → Prop
  | .server (.send bytes_sent) => 0 < bytes_sent → (s.sent s.conn).length % SBUFLEN = 0
  | _ => True

instance (s : EndToEnd) : (e : Ev) → Decidable (s.WholeSends e)
  | .server (.send bytes_sent) =>
      inferInstanceAs (Decidable (0 < bytes_sent → (s.sent s.conn).length % SBUFLEN = 0))
  | .server .tau | .server (.listen _) | .server (.accept _) | .insert _ | .stop
  | .accept _ _ | .client _ => isTrue trivial

/-! ## Invariant -/

/-- What holds in every run without sends after a short one: the whole frames of a stream
    are the snapshots sent whole on it. -/
structure Inv (s : EndToEnd) : Prop where
  copied : Copied s.hist s.server.m_buf s.snap (s.server.loc = .send) s.server.temp_buf
  dated : ∀ k, Dated s.hist s.snap (s.sent k) (s.instants k)
  unsent : ∀ k, s.conn < k → s.instants k = []
  ordered : ∀ k k', k < k' → ∀ t ∈ s.instants k, ∀ t' ∈ s.instants k', t ≤ t'
  client : Receiver.Inv s.sent s.client

theorem start_inv (m_buf m_buffer : Buf SBUFLEN) : Inv (start m_buf m_buffer) where
  copied := .start _ _ (by simp [start])
  dated := fun _ => .nil _ _
  unsent := fun _ _ => rfl
  ordered := by simp [start]
  client := Receiver.start_inv _ m_buffer

/-! ## Steps -/

variable {s s' : EndToEnd}

/-- A step of the server's worker that neither takes a snapshot nor sends. -/
theorem Inv.move (h : Inv s) {server : Server.TcpService.State}
    (hbuf : server.m_buf = s.server.m_buf) (hne : server.loc ≠ .send) :
    Inv { s with server } where
  copied := hbuf ▸ h.copied.release hne
  dated := h.dated
  unsent := h.unsent
  ordered := h.ordered
  client := h.client

/-- The worker's copy of `m_buf` is its contents at the latest instant. -/
theorem Inv.snapshotTaken (h : Inv s) {server : Server.TcpService.State}
    (hbuf : server.m_buf = s.server.m_buf) (htemp : server.temp_buf = s.server.m_buf) :
    Inv { s with server, snap := s.hist.length - 1 } where
  copied := by
    rw [hbuf, htemp]
    exact h.copied.take
  dated := fun k => (h.dated k).later h.copied.le_last
  unsent := h.unsent
  ordered := h.ordered
  client := h.client

/-- A setter's critical section adds an instant. -/
theorem Inv.insert (h : Inv s) (m_buf : Buf SBUFLEN) :
    Inv { s with server := { s.server with m_buf }, hist := s.hist ++ [m_buf] } where
  copied := h.copied.store m_buf
  dated := fun k => (h.dated k).store h.copied.snap_lt m_buf
  unsent := h.unsent
  ordered := h.ordered
  client := h.client

/-- The instants after a send. -/
theorem mem_instants_send {k n t : Nat}
    (ht : t ∈ Function.update s.instants s.conn
      (s.instants s.conn ++ if n = SBUFLEN then [s.snap] else []) k) :
    t ∈ s.instants k ∨ k = s.conn ∧ t = s.snap := by
  by_cases hk : k = s.conn
  · subst hk
    simp only [Function.update_self, List.mem_append, List.mem_ite_nil_right,
      List.mem_singleton] at ht
    exact ht.imp_right fun h => ⟨rfl, h.2⟩
  · rw [Function.update_of_ne hk] at ht
    exact .inl ht

/-- Sending a whole number of frames first, then at most one frame more. -/
theorem Inv.send (h : Inv s) (hl : s.server.loc = .send) {n : Nat} (hn : n ≤ SBUFLEN)
    (hwhole : 0 < n → (s.sent s.conn).length % SBUFLEN = 0) {server : Server.TcpService.State}
    (hbuf : server.m_buf = s.server.m_buf) (hne : server.loc ≠ .send) :
    Inv { s with
      server
      sent := Function.update s.sent s.conn
        (s.sent s.conn ++ s.server.temp_buf.toList.take n)
      instants := Function.update s.instants s.conn
        (s.instants s.conn ++ if n = SBUFLEN then [s.snap] else []) } where
  copied := hbuf ▸ h.copied.release hne
  dated := by
    intro k
    by_cases hk : k = s.conn
    · subst hk
      simp only [Function.update_self]
      exact (h.dated _).send (by decide) (h.copied.copied hl) hn hwhole
    · simp only [Function.update_of_ne hk]
      exact h.dated k
  unsent := by
    intro k hk
    have hne : k ≠ s.conn := Nat.ne_of_gt hk
    simp only [Function.update_of_ne hne]
    exact h.unsent k hk
  ordered := by
    intro k k' hlt t ht t' ht'
    rcases mem_instants_send ht with ht | ⟨rfl, rfl⟩ <;>
      rcases mem_instants_send ht' with ht' | ⟨hk', rfl⟩
    · -- both sent before
      exact h.ordered k k' hlt t ht t' ht'
    · -- the later one is sent now, from the latest snapshot
      exact (h.dated k).le t ht
    · -- nothing has been sent on a connection after the current one
      rw [h.unsent k' hlt] at ht'
      cases ht'
    · omega
  client := by
    apply h.client.mono
    intro k
    by_cases hk : k = s.conn
    · subst hk
      simp
    · simp [Function.update_of_ne hk]

/-- A step of the server's worker keeps the invariant, given whole sends. -/
theorem Inv.worker (h : Inv s) {e : Server.TcpService.Ev} (hwhole : s.WholeSends (.server e))
    (hs : s.worker e = some s') : Inv s' := by
  simp only [EndToEnd.worker] at hs
  split at hs
  · rename_i server hsvc
    simp only [Option.some.injEq] at hs
    subst hs
    obtain ⟨hbuf, htemp, -, hsend⟩ := Server.TcpService.step_effect hsvc
    cases e with
    | send bytes_sent =>
        obtain ⟨⟨hl, hle⟩, rfl⟩ := of_guard hsvc
        -- from the signed count to the number of bytes taken
        have hnat : bytes_sent = SBUFLEN ↔ bytes_sent.toNat = SBUFLEN := by
          simp only [SBUFLEN] at hle ⊢
          omega
        have hpos : 0 < bytes_sent.toNat → 0 < bytes_sent := by omega
        simp only [record, hnat]
        refine h.send hl (by omega) (fun h0 => hwhole (hpos h0)) rfl ?_
        simp only
        split <;> simp
    | tau =>
        by_cases hl : s.server.loc = .snapshot
        · rw [if_pos ⟨rfl, hl⟩] at htemp
          simp only [record, if_pos hl]
          exact h.snapshotTaken hbuf htemp
        · simp only [record, if_neg hl]
          exact h.move hbuf fun hl' => hl (hsend hl').2
    | listen rc | accept connfd =>
        apply h.move hbuf
        intro hl'
        have hevent := (hsend hl').1
        cases hevent
  · cases hs

/-- Every step keeps the invariant, given whole sends. -/
theorem Inv.step (h : Inv s) {e : Ev} (hwhole : s.WholeSends e) (hs : step s e = some s') :
    Inv s' := by
  cases e with
  | insert call =>
      simp only [EndToEnd.step] at hs
      split at hs
      · simp only [Option.some.injEq] at hs
        exact hs ▸ h.insert _
      · cases hs
  | stop =>
      simp only [EndToEnd.step, Option.some.injEq] at hs
      subst hs
      exact ⟨h.copied, h.dated, h.unsent, h.ordered, h.client⟩
  | accept connfd k =>
      simp only [EndToEnd.step, Option.ite_none_right_eq_some] at hs
      obtain ⟨⟨-, hnext, -⟩, hs⟩ := hs
      -- connections passed over have numbers below `k`
      have hconn : s.conn ≤ k := by
        simp only [conn]
        omega
      refine Inv.worker (s := { s with next := k + 1 }) ?_
        (show WholeSends _ (.server (.accept connfd)) from trivial) hs
      exact ⟨h.copied, h.dated, fun k' hk' => h.unsent k' (Nat.lt_of_le_of_lt hconn hk'),
        h.ordered, h.client⟩
  | server e =>
      have hworker : s.worker e = some s' := by
        cases e with
        | accept connfd =>
            simp only [EndToEnd.step, Option.ite_none_right_eq_some] at hs
            exact hs.2
        | _ => exact hs
      exact h.worker hwhole hworker
  | client e =>
      simp only [EndToEnd.step] at hs
      split at hs
      · rename_i client hclient
        simp only [Option.some.injEq] at hs
        subst hs
        exact ⟨h.copied, h.dated, h.unsent, h.ordered, h.client.step hclient⟩
      · cases hs

/-! ## Frame integrity -/

/-- What the client has committed of a connection are snapshots sent whole on it, from
    the first one on. -/
theorem Inv.commits_eq (h : Inv s) (k : Nat) :
    (s.client.commits k).map some =
      ((s.instants k).take (s.client.commits k).length).map (s.hist[·]?) := by
  -- the client has taken a prefix of the stream, so its commits begin the blocks sent
  have hprefix : (s.client.commits k).map Vector.toList <+: blocks SBUFLEN (s.sent k) := by
    have hblocks := h.client.framed.blocks_eq k
    rw [blocks_take (h.client.framed.taken_le k)] at hblocks
    exact List.IsPrefix.trans ⟨_, hblocks⟩ (List.take_prefix _ _)
  have htake := List.prefix_iff_eq_take.mp hprefix
  rw [List.length_map] at htake
  have hinj : Function.Injective (Option.map (Vector.toList (α := BitVec 8) (n := SBUFLEN))) :=
    Option.map_injective fun a b hab => Vector.toList_inj.mp hab
  apply List.map_injective_iff.mpr hinj
  calc ((s.client.commits k).map some).map (Option.map Vector.toList)
      = ((s.client.commits k).map Vector.toList).map some := by simp
    _ = ((blocks SBUFLEN (s.sent k)).map some).take (s.client.commits k).length := by
        rw [← List.map_take, ← htake]
    _ = (((s.instants k).take (s.client.commits k).length).map (s.hist[·]?)).map
          (Option.map Vector.toList) := by
        rw [(h.dated k).blocks_eq, List.map_map, List.map_take]
        rfl

/-- Without sends after a short one, every value the client commits is what the
    server's `m_buf` was at one instant, and never at an earlier one than the value
    before it. -/
theorem frames_from_snapshots {m_buf m_buffer : Buf SBUFLEN} {es : List Ev}
    (h : Run step WholeSends (start m_buf m_buffer) es s) : s.FromSnapshots := by
  have hinv : Inv s :=
    h.invariant (start_inv m_buf m_buffer) fun _ _ _ hi hw hs => hi.step hw hs
  -- the instants of the commits, connection by connection
  refine ⟨(List.range s.client.conns).flatMap fun k =>
    (s.instants k).take (s.client.commits k).length, ?_, ?_⟩
  · -- sorted on each connection, and across connections
    rw [List.pairwise_flatMap]
    refine ⟨fun k _ => (hinv.dated k).sorted.sublist (List.take_sublist _ _), ?_⟩
    apply List.pairwise_lt_range.imp
    intro k k' hlt t ht t' ht'
    exact hinv.ordered _ _ hlt t (List.mem_of_mem_take ht) t' (List.mem_of_mem_take ht')
  · rw [hinv.client.framed.log_eq, List.map_flatMap, List.map_flatMap]
    exact List.flatMap_congr fun k _ => hinv.commits_eq k

/-- Both programs connect; the worker on each side is about to send and to read. -/
def connectRun : List Ev :=
  [.server (.listen 0), .server .tau, .client (.worker (.inetPton 1)), .client (.worker .tau),
   .client (.worker .tau), .client (.worker (.socket 5)), .client (.worker (.connect 0)),
   .client (.worker .tau), .client (.worker .tau), .accept 7 0, .server .tau, .server .tau,
   .server .tau]

/-- Two speeds are set and sent, the first one in a `send` of `n` bytes; the client
    reads three bytes and copies them. -/
def twoSpeeds (n : Nat) (bs : List (BitVec 8)) : List Ev :=
  connectRun ++
    [.insert (.speed 1), .server .tau, .server (.send n), .insert (.speed 7), .server .tau,
     .server .tau, .server .tau, .server (.send 3), .client (.worker (.read (.data bs))),
     .client (.worker .tau), .client (.worker .tau), .client (.worker .tau)]

theorem frames_from_snapshots_twoSpeeds :
    ∃ s, Run step WholeSends (start (Buf.zero SBUFLEN) (Buf.zero SBUFLEN))
        (twoSpeeds 3 [1, 0, 0]) s ∧
      s.client.log.length = 1 ∧ s.FromSnapshots := by
  obtain ⟨s, hrun, hlog⟩ : ∃ s, Run step WholeSends (start (Buf.zero SBUFLEN) (Buf.zero SBUFLEN))
      (twoSpeeds 3 [1, 0, 0]) s ∧ s.client.log.length = 1 := Run.exists_of_exec (by decide)
  exact ⟨s, hrun, hlog, frames_from_snapshots hrun⟩

/-- A committed value that comes from snapshots is in the history. -/
theorem FromSnapshots.mem_hist (h : s.FromSnapshots) {b : Buf SBUFLEN} (hb : b ∈ s.client.log) :
    b ∈ s.hist := by
  obtain ⟨ts, -, hts⟩ := h
  have hmem : some b ∈ ts.map (s.hist[·]?) := hts ▸ List.mem_map_of_mem hb
  obtain ⟨t, -, ht⟩ := List.mem_map.mp hmem
  exact List.mem_of_getElem? ht

/-- After a `send` of one byte the client takes that byte and two bytes of the next
    frame for a frame, which `m_buf` never was. -/
theorem short_send_splits_frame :
    ∃ es s, Run step Always (start (Buf.zero SBUFLEN) (Buf.zero SBUFLEN)) es s ∧
      ¬s.FromSnapshots := by
  obtain ⟨s, hrun, b, hb, hnot⟩ : ∃ s, Run step Always (start (Buf.zero SBUFLEN) (Buf.zero SBUFLEN))
      (twoSpeeds 1 [1, 7, 0]) s ∧ ∃ b ∈ s.client.log, b ∉ s.hist := Run.exists_of_exec (by decide)
  exact ⟨_, s, hrun, fun h => hnot (h.mem_hist hb)⟩

end EndToEnd
end Speedometer
