/-
  Speedometer.UartChain

  The UART path from the server's buffer to the client's: the desktop server's
  `UARTService::run`, its serial port and line, the ESP32 server's relay, the
  notifications in the air, the ESP32 client's callbacks, its line, and the desktop
  client's `UARTService::run`, in any interleaving.

  Bytes leave the port one at a time, and what it still holds is lost when it is
  closed.  Notifications may be lost; the others arrive in their order.  The console
  of the ESP32 client is its UART, so that what it logs is on the line as well.  The
  two ends of the radio link are not tied to each other here: either may be connected at
  any time.  Esp32.Link ties them.
-/

import Speedometer.Server.UartService
import Speedometer.Client.UartReceiver
import Speedometer.Esp32.Relay
import Speedometer.Esp32.Forwarding
import Speedometer.EndToEnd

namespace Speedometer

open Cpp Blocks History Line Transition Client
open Server (InsertCall)

/-- The two programs, the two ESP32 and what is between them, with the history of the
    server's buffer.  An instant is a position in that history. -/
structure UartChain where
  server : Server.UartService.State
  /-- every value `m_buf` has had, the first one first -/
  hist : List (Buf SBUFLEN)
  /-- the instant of the worker's last snapshot -/
  snap : Nat := 0
  /-- the bytes the port has taken and not put on the line yet -/
  port : List (BitVec 8) := []
  /-- the bytes that were put on the line to the ESP32 server -/
  line : List (BitVec 8) := []
  /-- the instants of the snapshots on the line and in the port -/
  instants : List Nat := []
  relay : Esp32.Relay := {}
  /-- the notifications on their way -/
  air : List (Buf SBUFLEN) := []
  /-- the notifications the ESP32 client has received -/
  delivered : List (Buf SBUFLEN) := []
  forwarder : Esp32.Client.Forwarder := {}
  client : UartReceiver
deriving DecidableEq

namespace UartChain

/-- What can happen next. -/
inductive Ev
  | insert (call : InsertCall)
  | stopServer
  | server (e : Server.UartService.Ev)
  /-- a byte leaves the port and arrives at the ESP32 server -/
  | transmit
  | relay (e : Esp32.Server.Ev)
  /-- a notification is lost -/
  | lose (i : Nat)
  /-- the ESP32 client is notified; the calls of the callback return `rcs` -/
  | deliver (rcs : List Int)
  /-- any other callback of the ESP32 client -/
  | ble (e : Esp32.Client.Ev)
  /-- the ESP32 client logs a text -/
  | log (text : List (BitVec 8))
  /-- a byte arrives at the desktop client -/
  | arrive
  | stopClient
  | client (e : Client.UartService.Ev)
deriving DecidableEq

/-- The frames on the line to the ESP32 server. -/
def lineFrames (s : UartChain) : Nat → Buf SBUFLEN := ofElems s.line 0

/-- The frames on the line to the desktop client. -/
def uartFrames (s : UartChain) : Nat → Buf SBUFLEN := ofElems s.forwarder.uart 0

/-- Recording a step of the server's worker that leads to `server`. -/
def record (s : UartChain) (server : Server.UartService.State) :
    Server.UartService.Ev → UartChain
  | .write bytes_sent =>
      { s with
        server
        port := s.port ++ s.server.temp_buf.toList.take bytes_sent.toNat
        instants := s.instants ++ if bytes_sent = SBUFLEN then [s.snap] else [] }
  | .tau =>
      match s.server.loc with
      | .snapshot => { s with server, snap := s.hist.length - 1 }
      | .close =>
          -- what the port has not put on the line is lost
          { s with server, port := [], instants := s.instants.take (s.line.length / SBUFLEN) }
      | _ => { s with server }
  | .openPort _ | .waitForBytesWritten _ | .error _ => { s with server }

/-- A step of the whole chain. -/
def step (s : UartChain) : Ev → Option UartChain
  | .insert call =>
      match call.run s.server.m_buf with
      | .ok m_buf => some { s with server := { s.server with m_buf }, hist := s.hist ++ [m_buf] }
      | .error _ => none
  | .stopServer => some { s with server := { s.server with m_isRunning := false } }
  | .server e =>
      match Server.UartService.step s.server e with
      | some server => some (s.record server e)
      | none => none
  | .transmit =>
      match s.port with
      | b :: port =>
          match s.relay.step s.lineFrames .arrive with
          | some relay => some { s with port, line := s.line ++ [b], relay }
          | none => none
      | [] => none
  | .relay e =>
      match s.relay.step s.lineFrames (.server e) with
      | some relay =>
          -- a notification that `ble_gatts_notify_custom` has taken is on its way
          some { s with relay, air := s.air ++ if e = .notify 0 then [s.relay.srv.buffer] else [] }
      | none => none
  | .lose i => some { s with air := s.air.eraseIdx i }
  | .deliver rcs =>
      match s.air with
      | b :: air =>
          match s.forwarder.callback ⟨.gap (.notifyRx b.toList), rcs⟩ with
          | some forwarder => some { s with air, delivered := s.delivered ++ [b], forwarder }
          | none => none
      | [] => none
  | .ble e =>
      if e.event.isNotifyRx then none
      else
        match s.forwarder.callback e with
        | some forwarder => some { s with forwarder }
        | none => none
  | .log text => some { s with forwarder := s.forwarder.log text }
  | .arrive =>
      if s.client.line.arrived < s.forwarder.uart.length then
        match s.client.step s.uartFrames .arrive with
        | some client => some { s with client }
        | none => none
      else none
  | .stopClient =>
      match s.client.step s.uartFrames .stop with
      | some client => some { s with client }
      | none => none
  | .client e =>
      match s.client.step s.uartFrames (.worker e) with
      | some client => some { s with client }
      | none => none

/-- All programs before their first step. -/
def start (m_buf m_buffer : Buf SBUFLEN) : UartChain where
  server := { m_buf }
  hist := [m_buf]
  client := UartReceiver.start m_buffer

/-- Every value the client has committed is what `m_buf` was at one instant, and
    the instants of successive commits never go back. -/
def FromSnapshots (s : UartChain) : Prop :=
  ∃ ts : List Nat, ts.Pairwise (· ≤ ·) ∧ s.client.log.map some = ts.map (s.hist[·]?)

/-- Frames stay whole: the port takes and closes between frames, the relay's flushes and
    the client's clears fall between frames, and the ESP32 client neither logs nor ends
    in `error_led_print`. -/
def Undisturbed (s : UartChain) : Ev → Prop
  | .server (.write bytes_sent) =>
      0 < bytes_sent → (s.line.length + s.port.length) % SBUFLEN = 0
  | .server .tau => s.server.loc = .close → s.line.length % SBUFLEN = 0
  | .relay e => s.relay.FlushedBetween (.server e)
  | .deliver rcs => ∀ b ∈ s.air.head?,
      ∀ f ∈ s.forwarder.callback ⟨.gap (.notifyRx b.toList), rcs⟩, f.client.hung = false
  | .ble e => ∀ f ∈ s.forwarder.callback e, f.client.hung = false
  | .log _ => False
  | .client e => s.client.ClearedBetween (.worker e)
  | _ => True

instance (s : UartChain) : (e : Ev) → Decidable (s.Undisturbed e)
  | .server (.write bytes_sent) => inferInstanceAs (Decidable
      (0 < bytes_sent → (s.line.length + s.port.length) % SBUFLEN = 0))
  | .server .tau =>
      inferInstanceAs (Decidable (s.server.loc = .close → s.line.length % SBUFLEN = 0))
  | .relay e => inferInstanceAs (Decidable (s.relay.FlushedBetween (.server e)))
  | .deliver rcs => inferInstanceAs (Decidable (∀ b ∈ s.air.head?,
      ∀ f ∈ s.forwarder.callback ⟨.gap (.notifyRx b.toList), rcs⟩, f.client.hung = false))
  | .ble e => inferInstanceAs (Decidable (∀ f ∈ s.forwarder.callback e, f.client.hung = false))
  | .log _ => isFalse id
  | .client e => inferInstanceAs (Decidable (s.client.ClearedBetween (.worker e)))
  | .server (.openPort _) | .server (.waitForBytesWritten _) | .server (.error _) | .insert _
  | .stopServer | .transmit | .lose _ | .arrive | .stopClient => isTrue trivial

/-! ## Invariant -/

/-- The whole frames on the line and in the port are snapshots, in their order. -/
structure Sent (s : UartChain) : Prop where
  copied : Copied s.hist s.server.m_buf s.snap (s.server.loc = .write) s.server.temp_buf
  dated : Dated s.hist s.snap (s.line ++ s.port) s.instants

/-- From the line of the first UART to that of the second: what has been notified arrives
    in its order, and goes on the line in whole. -/
structure Carried (s : UartChain) : Prop where
  arrived : s.relay.line.arrived = s.line.length
  in_order : (s.delivered ++ s.air).Sublist s.relay.notified
  returned : s.forwarder.client.hung = false
  uart : s.forwarder.uart = (s.delivered.map Vector.toList).flatten
  client_arrived : s.client.line.arrived ≤ s.forwarder.uart.length

theorem start_sent (m_buf m_buffer : Buf SBUFLEN) : Sent (start m_buf m_buffer) where
  copied := .start _ _ (by simp [start])
  dated := .nil _ _

theorem start_carried (m_buf m_buffer : Buf SBUFLEN) : Carried (start m_buf m_buffer) where
  arrived := rfl
  in_order := by simp [start]
  returned := rfl
  uart := rfl
  client_arrived := Nat.le_refl 0

/-! ## The server's side -/

variable {s s' : UartChain}

/-- A step of the server's worker that neither takes a snapshot nor writes. -/
theorem Sent.move (h : s.Sent) {server : Server.UartService.State}
    (hbuf : server.m_buf = s.server.m_buf) (hne : server.loc ≠ .write) :
    Sent { s with server } where
  copied := hbuf ▸ h.copied.release hne
  dated := h.dated

/-- The worker's copy of `m_buf` is its contents at the latest instant. -/
theorem Sent.snapshotTaken (h : s.Sent) {server : Server.UartService.State}
    (hbuf : server.m_buf = s.server.m_buf) (htemp : server.temp_buf = s.server.m_buf) :
    Sent { s with server, snap := s.hist.length - 1 } where
  copied := by
    rw [hbuf, htemp]
    exact h.copied.take
  dated := h.dated.later h.copied.le_last

/-- Writing after a whole number of frames, and at most one frame. -/
theorem Sent.write (h : s.Sent) (hl : s.server.loc = .write) {n : Nat} (hn : n ≤ SBUFLEN)
    (hwhole : 0 < n → (s.line.length + s.port.length) % SBUFLEN = 0)
    {server : Server.UartService.State} (hbuf : server.m_buf = s.server.m_buf)
    (hne : server.loc ≠ .write) :
    Sent { s with
      server
      port := s.port ++ s.server.temp_buf.toList.take n
      instants := s.instants ++ if n = SBUFLEN then [s.snap] else [] } where
  copied := hbuf ▸ h.copied.release hne
  dated := by
    rw [← List.length_append] at hwhole
    simp only
    rw [← List.append_assoc]
    exact h.dated.send (by decide) (h.copied.copied hl) hn hwhole

/-- Closing the port between two frames keeps the frames on the line. -/
theorem Sent.close (h : s.Sent) (hwhole : s.line.length % SBUFLEN = 0)
    {server : Server.UartService.State} (hbuf : server.m_buf = s.server.m_buf)
    (hne : server.loc ≠ .write) :
    Sent { s with
      server
      port := []
      instants := s.instants.take (s.line.length / SBUFLEN) } where
  copied := hbuf ▸ h.copied.release hne
  dated := by
    simp only
    rw [List.append_nil]
    exact h.dated.cut (by decide) hwhole

/-- A step of the server's worker keeps what it has sent, given whole frames. -/
theorem Sent.worker (h : s.Sent) {e : Server.UartService.Ev}
    (hwhole : s.Undisturbed (.server e)) {server : Server.UartService.State}
    (hsvc : Server.UartService.step s.server e = some server) : Sent (s.record server e) := by
  obtain ⟨hbuf, htemp⟩ := Server.UartService.step_effect hsvc
  have hwrite := Server.UartService.to_write hsvc
  cases e with
  | write bytes_sent =>
      obtain ⟨⟨hl, hle⟩, rfl⟩ := of_guard hsvc
      -- from the signed count to the number of bytes taken
      have hnat : bytes_sent = SBUFLEN ↔ bytes_sent.toNat = SBUFLEN := by
        simp only [SBUFLEN] at hle ⊢
        omega
      have hpos : 0 < bytes_sent.toNat → 0 < bytes_sent := by omega
      simp only [record, hnat]
      exact h.write hl (by omega) (fun h0 => hwhole (hpos h0)) rfl (by simp)
  | tau =>
      by_cases hsnap : s.server.loc = .snapshot
      · rw [if_pos ⟨rfl, hsnap⟩] at htemp
        simp only [record, hsnap]
        exact h.snapshotTaken hbuf htemp
      · have hne : server.loc ≠ .write := fun hl => hsnap (hwrite hl).2
        by_cases hclose : s.server.loc = .close
        · simp only [record, hclose]
          exact h.close (hwhole hclose) hbuf hne
        · have hrecord : s.record server .tau = { s with server } := by
            simp only [record]
          rw [hrecord]
          exact h.move hbuf hne
  | openPort ok | waitForBytesWritten ok | error noError =>
      apply h.move hbuf
      intro hl
      cases (hwrite hl).1

/-- What a step of the relay is to the chain. -/
theorem step_relay {e : Esp32.Server.Ev} (hs : step s (.relay e) = some s') :
    ∃ relay, s.relay.step s.lineFrames (.server e) = some relay ∧
      s' = { s with
        relay, air := s.air ++ if e = .notify 0 then [s.relay.srv.buffer] else [] } := by
  simp only [step] at hs
  split at hs
  · rename_i relay hrelay
    simp only [Option.some.injEq] at hs
    exact ⟨relay, hrelay, hs.symm⟩
  · cases hs

/-- A byte goes from the port to the line, and arrives. -/
theorem step_transmit (hs : step s .transmit = some s') :
    ∃ b port relay, s.port = b :: port ∧ s.relay.step s.lineFrames .arrive = some relay ∧
      s' = { s with port, line := s.line ++ [b], relay } := by
  simp only [step] at hs
  split at hs
  · rename_i b port hport
    split at hs
    · rename_i relay hrelay
      simp only [Option.some.injEq] at hs
      exact ⟨b, port, relay, hport, hrelay, hs.symm⟩
    · cases hs
  · cases hs

/-- The first of the notifications on their way is received. -/
theorem step_deliver {rcs : List Int} (hs : step s (.deliver rcs) = some s') :
    ∃ b air forwarder, s.air = b :: air ∧
      s.forwarder.callback ⟨.gap (.notifyRx b.toList), rcs⟩ = some forwarder ∧
      s' = { s with air, delivered := s.delivered ++ [b], forwarder } := by
  simp only [step] at hs
  split at hs
  · rename_i b air hair
    split at hs
    · rename_i forwarder hforwarder
      simp only [Option.some.injEq] at hs
      exact ⟨b, air, forwarder, hair, hforwarder, hs.symm⟩
    · cases hs
  · cases hs

/-- Another callback of the ESP32 client. -/
theorem step_ble {e : Esp32.Client.Ev} (hs : step s (.ble e) = some s') :
    e.event.isNotifyRx = false ∧
      ∃ forwarder, s.forwarder.callback e = some forwarder ∧ s' = { s with forwarder } := by
  simp only [step] at hs
  split at hs
  · cases hs
  · rename_i hevent
    split at hs
    · rename_i forwarder hforwarder
      simp only [Option.some.injEq] at hs
      exact ⟨Bool.eq_false_iff.mpr hevent, forwarder, hforwarder, hs.symm⟩
    · cases hs

/-- The event of the desktop client that an event of the chain is. -/
def Ev.toClient : Ev → Option UartReceiver.Ev
  | .arrive => some .arrive
  | .stopClient => some .stop
  | .client e => some (.worker e)
  | _ => none

/-- What a step of the desktop client is to the chain. -/
theorem step_client {e : Ev} {e' : UartReceiver.Ev} (he : e.toClient = some e')
    (hs : step s e = some s') :
    (e' = .arrive → s.client.line.arrived < s.forwarder.uart.length) ∧
      ∃ client, s.client.step s.uartFrames e' = some client ∧ s' = { s with client } := by
  cases e with
  | arrive =>
      cases he
      simp only [step, Option.ite_none_right_eq_some] at hs
      obtain ⟨hlt, hs⟩ := hs
      split at hs
      · rename_i client hclient
        simp only [Option.some.injEq] at hs
        exact ⟨fun _ => hlt, client, hclient, hs.symm⟩
      · cases hs
  | stopClient | client e =>
      cases he
      simp only [step] at hs
      split at hs
      · rename_i client hclient
        simp only [Option.some.injEq] at hs
        exact ⟨fun he => (by cases he), client, hclient, hs.symm⟩
      · cases hs
  | _ => cases he

/-- Every step keeps what has been sent, given whole frames. -/
theorem Sent.step (h : s.Sent) {e : Ev} (hwhole : s.Undisturbed e)
    (hs : UartChain.step s e = some s') : s'.Sent := by
  have hkeep : ∀ {relay air delivered forwarder client},
      Sent { s with relay, air, delivered, forwarder, client } := ⟨h.copied, h.dated⟩
  cases e with
  | insert call =>
      simp only [UartChain.step] at hs
      split at hs
      · simp only [Option.some.injEq] at hs
        exact hs ▸ ⟨h.copied.store _, h.dated.store h.copied.snap_lt _⟩
      · cases hs
  | stopServer =>
      simp only [UartChain.step, Option.some.injEq] at hs
      exact hs ▸ ⟨h.copied, h.dated⟩
  | server e =>
      simp only [UartChain.step] at hs
      split at hs
      · rename_i server hsvc
        simp only [Option.some.injEq] at hs
        exact hs ▸ h.worker hwhole hsvc
      · cases hs
  | transmit =>
      obtain ⟨b, port, relay, hport, -, rfl⟩ := step_transmit hs
      refine ⟨h.copied, ?_⟩
      have hdated := h.dated
      rw [hport] at hdated
      simp only
      rw [List.append_assoc]
      exact hdated
  | relay e =>
      obtain ⟨relay, -, rfl⟩ := step_relay hs
      exact hkeep
  | deliver rcs =>
      obtain ⟨b, air, forwarder, -, -, rfl⟩ := step_deliver hs
      exact hkeep
  | ble e =>
      obtain ⟨-, forwarder, -, rfl⟩ := step_ble hs
      exact hkeep
  | lose i | log text =>
      simp only [UartChain.step, Option.some.injEq] at hs
      exact hs ▸ hkeep
  | arrive | stopClient | client e =>
      obtain ⟨-, client, -, rfl⟩ := step_client rfl hs
      exact hkeep

/-! ## From one line to the other -/

/-- The server's worker changes nothing past its port. -/
theorem record_eq (s : UartChain) (server : Server.UartService.State)
    (e : Server.UartService.Ev) :
    ∃ snap port instants, s.record server e = { s with server, snap, port, instants } := by
  cases e with
  | tau =>
      simp only [record]
      split <;> exact ⟨_, _, _, rfl⟩
  | _ => exact ⟨_, _, _, rfl⟩

/-- The relay passes on at the end, and what it passes on may be on its way. -/
theorem Carried.relay (h : s.Carried) {e : Esp32.Server.Ev} {relay : Esp32.Relay}
    (hs : s.relay.step s.lineFrames (.server e) = some relay) :
    Carried { s with
      relay, air := s.air ++ if e = .notify 0 then [s.relay.srv.buffer] else [] } := by
  obtain ⟨-, srv, -, rfl⟩ := Esp32.Relay.step_server hs
  refine ⟨(Esp32.Relay.record_arrived ..).trans h.arrived, ?_, h.returned, h.uart,
    h.client_arrived⟩
  simp only
  rw [← List.append_assoc]
  by_cases hnotify : ∃ rc, e = .notify rc
  · obtain ⟨rc, rfl⟩ := hnotify
    refine h.in_order.append ?_
    split
    · exact List.Sublist.refl _
    · exact List.nil_sublist _
  · have hne : ∀ rc, e ≠ .notify rc := fun rc he => hnotify ⟨rc, he⟩
    rw [Esp32.Relay.record_notified _ _ hne, if_neg (hne 0), List.append_nil]
    exact h.in_order

/-- A callback that returns puts all of its frame on the line. -/
theorem Carried.callback (h : s.Carried) {e : Esp32.Client.Ev} {air delivered : List (Buf SBUFLEN)}
    {forwarder : Esp32.Client.Forwarder} (hs : s.forwarder.callback e = some forwarder)
    (hreturn : forwarder.client.hung = false)
    (horder : (delivered ++ air).Sublist s.relay.notified)
    (hframe : (delivered.map Vector.toList).flatten =
      (s.delivered.map Vector.toList).flatten ++ e.event.frame) :
    Carried { s with air, delivered, forwarder } := by
  obtain ⟨-, bs, -, huart, -, hwhole⟩ := Esp32.Client.Forwarder.callback_writes hs
  have hbs := hwhole hreturn
  refine ⟨h.arrived, horder, hreturn, ?_, ?_⟩
  · simp only
    rw [huart, hframe, h.uart, hbs]
  · have hle := h.client_arrived
    simp only
    rw [huart, List.length_append]
    omega

/-- What the desktop client does concerns its own line only. -/
theorem Carried.client (h : s.Carried) {e : UartReceiver.Ev} {client : UartReceiver}
    (hs : s.client.step s.uartFrames e = some client)
    (harrive : e = .arrive → s.client.line.arrived < s.forwarder.uart.length) :
    Carried { s with client } := by
  refine ⟨h.arrived, h.in_order, h.returned, h.uart, ?_⟩
  have hle := h.client_arrived
  cases e with
  | arrive =>
      have hlt := harrive rfl
      simp only [UartReceiver.step, Option.some.injEq] at hs
      subst hs
      simp only
      split <;> exact hlt
  | stop =>
      simp only [UartReceiver.step, Option.some.injEq] at hs
      exact hs ▸ hle
  | worker e =>
      obtain ⟨-, svc, -, rfl⟩ := UartReceiver.step_worker hs
      simp only
      rw [UartReceiver.record_arrived]
      exact hle

/-- Every step keeps the order, given whole frames. -/
theorem Carried.step (h : s.Carried) {e : Ev} (hwhole : s.Undisturbed e)
    (hs : UartChain.step s e = some s') : s'.Carried := by
  have hkeep : ∀ {server hist snap port instants},
      Carried { s with server, hist, snap, port, instants } :=
    ⟨h.arrived, h.in_order, h.returned, h.uart, h.client_arrived⟩
  cases e with
  | insert call =>
      simp only [UartChain.step] at hs
      split at hs
      · simp only [Option.some.injEq] at hs
        exact hs ▸ hkeep
      · cases hs
  | stopServer =>
      simp only [UartChain.step, Option.some.injEq] at hs
      exact hs ▸ hkeep
  | server e =>
      simp only [UartChain.step] at hs
      split at hs
      · rename_i server hsvc
        simp only [Option.some.injEq] at hs
        obtain ⟨snap, port, instants, heq⟩ := record_eq s server e
        exact hs ▸ heq ▸ hkeep
      · cases hs
  | transmit =>
      obtain ⟨b, port, relay, -, hrelay, rfl⟩ := step_transmit hs
      simp only [Esp32.Relay.step, Option.some.injEq] at hrelay
      subst hrelay
      refine ⟨?_, h.in_order, h.returned, h.uart, h.client_arrived⟩
      simp [Fifo.arrive, h.arrived]
  | relay e =>
      obtain ⟨relay, hrelay, rfl⟩ := step_relay hs
      exact h.relay hrelay
  | lose i =>
      simp only [UartChain.step, Option.some.injEq] at hs
      subst hs
      refine ⟨h.arrived, ?_, h.returned, h.uart, h.client_arrived⟩
      exact ((List.Sublist.refl _).append (List.eraseIdx_sublist ..)).trans h.in_order
  | deliver rcs =>
      obtain ⟨b, air, forwarder, hair, hforwarder, rfl⟩ := step_deliver hs
      refine h.callback hforwarder (hwhole b (by simp [hair]) forwarder hforwarder) ?_ ?_
      · rw [List.append_assoc, List.singleton_append, ← hair]
        exact h.in_order
      · simp [Esp32.Client.Event.frame]
  | ble e =>
      obtain ⟨hevent, forwarder, hforwarder, rfl⟩ := step_ble hs
      refine h.callback hforwarder (hwhole forwarder hforwarder) h.in_order ?_
      rw [Esp32.Client.Event.frame_eq_nil hevent, List.append_nil]
  | log text => exact hwhole.elim
  | arrive | stopClient | client e =>
      obtain ⟨harrive, client, hclient, rfl⟩ := step_client rfl hs
      exact h.client hclient harrive

/-! ## The parts of a run -/

/-- What holds in every run of whole frames. -/
theorem inv_of_run {m_buf m_buffer : Buf SBUFLEN} {es : List Ev}
    (h : Run step Undisturbed (start m_buf m_buffer) es s) : s.Sent ∧ s.Carried :=
  h.invariant (I := fun s => s.Sent ∧ s.Carried)
    ⟨start_sent m_buf m_buffer, start_carried m_buf m_buffer⟩
    (fun _ _ _ hi hw hs => ⟨hi.1.step hw hs, hi.2.step hw hs⟩)

/-- The event of the relay that an event of the chain is. -/
def Ev.toRelay : Ev → Option Esp32.Relay.Ev
  | .transmit => some .arrive
  | .relay e => some (.server e)
  | _ => none

/-- What a step does to the lines, and to the parts it is none of. -/
structure Effect (s : UartChain) (e : Ev) (s' : UartChain) : Prop where
  line : s.line <+: s'.line
  uart : s.forwarder.uart <+: s'.forwarder.uart
  relay : e.toRelay = none → s'.relay = s.relay
  client : e.toClient = none → s'.client = s.client

theorem step_effect {e : Ev} (hs : step s e = some s') : Effect s e s' := by
  have hline := List.prefix_refl s.line
  have huart := List.prefix_refl s.forwarder.uart
  cases e with
  | insert call =>
      simp only [step] at hs
      split at hs
      · simp only [Option.some.injEq] at hs
        exact hs ▸ ⟨hline, huart, fun _ => rfl, fun _ => rfl⟩
      · cases hs
  | stopServer | lose i =>
      simp only [step, Option.some.injEq] at hs
      exact hs ▸ ⟨hline, huart, fun _ => rfl, fun _ => rfl⟩
  | server e =>
      simp only [step] at hs
      split at hs
      · rename_i server hsvc
        simp only [Option.some.injEq] at hs
        obtain ⟨snap, port, instants, heq⟩ := record_eq s server e
        exact hs ▸ heq ▸ ⟨hline, huart, fun _ => rfl, fun _ => rfl⟩
      · cases hs
  | transmit =>
      obtain ⟨b, port, relay, -, -, rfl⟩ := step_transmit hs
      exact ⟨List.prefix_append _ _, huart, fun he => (by cases he), fun _ => rfl⟩
  | relay e =>
      obtain ⟨relay, -, rfl⟩ := step_relay hs
      exact ⟨hline, huart, fun he => (by cases he), fun _ => rfl⟩
  | deliver rcs =>
      obtain ⟨b, air, forwarder, -, hforwarder, rfl⟩ := step_deliver hs
      obtain ⟨-, bs, -, hbs, -⟩ := Esp32.Client.Forwarder.callback_writes hforwarder
      exact ⟨hline, hbs ▸ List.prefix_append _ _, fun _ => rfl, fun _ => rfl⟩
  | ble e =>
      obtain ⟨-, forwarder, hforwarder, rfl⟩ := step_ble hs
      obtain ⟨-, bs, -, hbs, -⟩ := Esp32.Client.Forwarder.callback_writes hforwarder
      exact ⟨hline, hbs ▸ List.prefix_append _ _, fun _ => rfl, fun _ => rfl⟩
  | log text =>
      simp only [step, Option.some.injEq] at hs
      exact hs ▸ ⟨hline, List.prefix_append _ _, fun _ => rfl, fun _ => rfl⟩
  | arrive | stopClient | client e =>
      obtain ⟨-, client, -, rfl⟩ := step_client rfl hs
      exact ⟨hline, huart, fun _ => rfl, fun he => by cases he⟩

/-- Every run of whole frames, with what holds where each of its steps is taken. -/
theorem carried_run {m_buf m_buffer : Buf SBUFLEN} {es : List Ev}
    (h : Run step Undisturbed (start m_buf m_buffer) es s) :
    Run step (fun t e => t.Undisturbed e ∧ t.Carried) (start m_buf m_buffer) es s :=
  h.imp_of (I := Carried) (start_carried m_buf m_buffer)
    (fun _ _ _ hi hw hs => hi.step hw hs) (fun _ _ hi hw => ⟨hw, hi⟩)

/-- The relay's part of a run is a run of the relay, on the line as it is at the end. -/
theorem relay_run {m_buf m_buffer : Buf SBUFLEN} {es : List Ev}
    (h : Run step Undisturbed (start m_buf m_buffer) es s) :
    Run (Esp32.Relay.step s.lineFrames) Esp32.Relay.FlushedBetween {} (es.filterMap Ev.toRelay)
      s.relay := by
  refine (carried_run h).project (f := relay) (K := fun t => t.line <+: s.line)
    (List.prefix_refl _) (fun _ _ _ hs hK => (step_effect hs).line.trans hK) ?_
  rintro t e u hK ⟨hw, hcarried⟩ hs
  cases e with
  | relay e =>
      obtain ⟨relay, hrelay, rfl⟩ := step_relay hs
      refine ⟨hw, Esp32.Relay.step_congr ?_ hrelay⟩
      intro len hlen
      rw [hcarried.arrived] at hlen
      exact (slice_ofElems_of_grown 0 hK hlen).symm
  | transmit =>
      obtain ⟨b, port, relay, -, hrelay, rfl⟩ := step_transmit hs
      exact ⟨trivial, hrelay⟩
  | _ => exact (step_effect hs).relay rfl

/-- The desktop client's part of a run is a run of it, on the line as it is at the end. -/
theorem client_run {m_buf m_buffer : Buf SBUFLEN} {es : List Ev}
    (h : Run step Undisturbed (start m_buf m_buffer) es s) :
    Run (UartReceiver.step s.uartFrames) UartReceiver.ClearedBetween (UartReceiver.start m_buffer)
      (es.filterMap Ev.toClient) s.client := by
  refine (carried_run h).project (f := client)
    (K := fun t => t.forwarder.uart <+: s.forwarder.uart)
    (List.prefix_refl _) (fun _ _ _ hs hK => (step_effect hs).uart.trans hK) ?_
  rintro t e u hK ⟨hw, hcarried⟩ hs
  -- a step of the client is one on the longer line
  have hlonger : ∀ {e' client}, t.client.step t.uartFrames e' = some client →
      u = { t with client } → UartReceiver.step s.uartFrames t.client e' = some u.client := by
    rintro e' client hclient rfl
    refine UartReceiver.step_congr ?_ hclient
    intro len hlen
    have hle := hcarried.client_arrived
    exact (slice_ofElems_of_grown 0 hK (Nat.le_trans hlen hle)).symm
  cases e with
  | arrive | stopClient =>
      obtain ⟨-, client, hclient, heq⟩ := step_client rfl hs
      exact ⟨trivial, hlonger hclient heq⟩
  | client e =>
      obtain ⟨-, client, hclient, heq⟩ := step_client rfl hs
      exact ⟨hw, hlonger hclient heq⟩
  | _ => exact (step_effect hs).client rfl

/-! ## Frame integrity -/

/-- What the desktop client has committed are notifications of the ESP32 server, in their
    order. -/
theorem log_sublist {m_buf m_buffer : Buf SBUFLEN} {es : List Ev}
    (h : Run step Undisturbed (start m_buf m_buffer) es s) :
    s.client.log.Sublist s.relay.notified := by
  obtain ⟨-, hcarried⟩ := inv_of_run h
  have hlog := (UartReceiver.ordered_of_run (client_run h)).log.map Vector.toList
  have hfirst := Nat.le_trans s.client.line.first_le hcarried.client_arrived
  have hlen : ∀ frame ∈ s.delivered.map Vector.toList, frame.length = SBUFLEN := by
    intro frame hframe
    obtain ⟨b, -, rfl⟩ := List.mem_map.mp hframe
    exact Vector.length_toList
  -- the frames of its line are the notifications received
  have hblocks : blocks SBUFLEN s.forwarder.uart = s.delivered.map Vector.toList := by
    rw [hcarried.uart, blocks_flatten (by decide) hlen]
  have hdelivered : (s.client.log.map Vector.toList).Sublist (s.delivered.map Vector.toList) :=
    hblocks ▸ hlog.trans (map_whole_ofElems_sublist 0 hfirst (List.prefix_refl _))
  obtain ⟨l, hl, heq⟩ := List.sublist_map_iff.mp hdelivered
  have hinj : Function.Injective (Vector.toList (α := BitVec 8) (n := SBUFLEN)) :=
    fun a b hab => Vector.toList_inj.mp hab
  rw [List.map_injective_iff.mpr hinj heq]
  exact hl.trans ((List.sublist_append_left _ _).trans hcarried.in_order)

/-- What the ESP32 server has notified are frames the desktop server has sent, in their
    order. -/
theorem notified_sublist {m_buf m_buffer : Buf SBUFLEN} {es : List Ev}
    (h : Run step Undisturbed (start m_buf m_buffer) es s) :
    (s.relay.notified.map Vector.toList).Sublist (blocks SBUFLEN (s.line ++ s.port)) := by
  obtain ⟨-, hcarried⟩ := inv_of_run h
  have hnotified := (Esp32.Relay.ordered_of_run (relay_run h)).notified.map Vector.toList
  have hfirst := hcarried.arrived ▸ s.relay.line.first_le
  exact hnotified.trans (map_whole_ofElems_sublist 0 hfirst (List.prefix_append _ _))

theorem fromSnapshots_of_run {m_buf m_buffer : Buf SBUFLEN} {es : List Ev}
    (h : Run step Undisturbed (start m_buf m_buffer) es s) : s.FromSnapshots := by
  obtain ⟨hsent, -⟩ := inv_of_run h
  have hlog := ((log_sublist h).map Vector.toList).trans (notified_sublist h)
  have hsome := hlog.map some
  rw [hsent.dated.blocks_eq] at hsome
  obtain ⟨ts, hts, heq⟩ := List.sublist_map_iff.mp hsome
  refine ⟨ts, hsent.dated.sorted.sublist hts, ?_⟩
  have hinj : Function.Injective (Option.map (Vector.toList (α := BitVec 8) (n := SBUFLEN))) :=
    Option.map_injective fun a b hab => Vector.toList_inj.mp hab
  apply List.map_injective_iff.mpr hinj
  simpa [Function.comp_def] using heq

/-- The ESP32 connect and subscribe, and the desktop client opens its port. -/
def connectRun : List Ev :=
  [.relay .tau, .relay .tau, .relay (.gap (.subscribe 1)), .relay .gapLed, .relay .tau,
   .relay .tau, .relay .tau] ++
  Esp32.Client.subscribeRun.map .ble ++
  [.client .tau, .client .tau, .client (.openPort true), .client .tau]

/-- The server opens its port, and a speed is set and written. -/
def writeRun : List Ev :=
  [.server (.openPort true), .server .tau, .server .tau, .server .tau, .insert (.speed 7),
   .server .tau, .server .tau, .server (.write 3)]

/-- The frame goes all the way. -/
def carryRun : List Ev :=
  [.transmit, .transmit, .transmit, .relay (.readUart (some [7, 0, 0])), .relay .tau, .relay .tau,
   .relay (.notify 0), .deliver [0, 3], .arrive, .arrive, .arrive,
   .client (.waitForReadyRead true), .client (.read (some [7, 0, 0])), .client .tau]

end UartChain
end Speedometer
