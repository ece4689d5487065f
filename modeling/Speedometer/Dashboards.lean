/-
  Speedometer.Dashboards

  `System` over the two paths there are: the TCP connections of `EndToEnd` and the
  UARTs with the ESP32 between them of `UartChain`.

  Over both, the dashboard shows for every signal what the setters had made of it after
  some of their calls, and the values it is given never go back behind earlier ones, as
  long as frames arrive whole.
-/

import Speedometer.Client.Display
import Speedometer.Client.Embedding
import Speedometer.System
import Speedometer.UartChain

namespace Speedometer

open Cpp Transition Client
open Server (InsertCall)

/-! ## Over TCP -/

namespace EndToEnd

variable {s s' : EndToEnd}

/-- The event of the client that an event is. -/
def Ev.toClient : Ev → Option Receiver.Ev
  | .client e => some e
  | _ => none

/-- The call of a setter that an event is. -/
def Ev.setter : Ev → Option InsertCall
  | .insert call => some call
  | _ => none

/-- What a step does to the streams, the history and the client. -/
structure Effect (s : EndToEnd) (e : Ev) (s' : EndToEnd) : Prop where
  sent : ∀ k, s.sent k <+: s'.sent k
  instants : ∀ k, s.instants k <+: s'.instants k
  hist : e.setter = none → s'.hist = s.hist
  client : e.toClient = none → s'.client = s.client

/-- The server's worker sends at the end of the streams. -/
theorem worker_effect {e : Server.TcpService.Ev} (hs : s.worker e = some s') :
    (∀ k, s.sent k <+: s'.sent k) ∧ (∀ k, s.instants k <+: s'.instants k) ∧
      s'.hist = s.hist ∧ s'.client = s.client := by
  simp only [worker] at hs
  split at hs
  · simp only [Option.some.injEq] at hs
    subst hs
    cases e with
    | send bytes_sent =>
        exact ⟨Receiver.prefix_update _ _ _, Receiver.prefix_update _ _ _, rfl, rfl⟩
    | _ => exact ⟨fun _ => List.prefix_refl _, fun _ => List.prefix_refl _, rfl, rfl⟩
  · cases hs

theorem step_effect {e : Ev} (hs : step s e = some s') : Effect s e s' := by
  have hrefl : ∀ k, s.sent k <+: s.sent k := fun _ => List.prefix_refl _
  have hrefl' : ∀ k, s.instants k <+: s.instants k := fun _ => List.prefix_refl _
  cases e with
  | insert call =>
      simp only [step] at hs
      split at hs
      · simp only [Option.some.injEq] at hs
        exact hs ▸ ⟨hrefl, hrefl', fun he => (by cases he), fun _ => rfl⟩
      · cases hs
  | stop =>
      simp only [step, Option.some.injEq] at hs
      exact hs ▸ ⟨hrefl, hrefl', fun _ => rfl, fun _ => rfl⟩
  | accept connfd k =>
      simp only [step, Option.ite_none_right_eq_some] at hs
      obtain ⟨hsent, hinstants, hhist, hclient⟩ := worker_effect hs.2
      exact ⟨hsent, hinstants, fun _ => hhist, fun _ => hclient⟩
  | server e =>
      have hworker : s.worker e = some s' := by
        cases e with
        | accept connfd =>
            simp only [step, Option.ite_none_right_eq_some] at hs
            exact hs.2
        | _ => exact hs
      obtain ⟨hsent, hinstants, hhist, hclient⟩ := worker_effect hworker
      exact ⟨hsent, hinstants, fun _ => hhist, fun _ => hclient⟩
  | client e =>
      simp only [step] at hs
      split at hs
      · simp only [Option.some.injEq] at hs
        exact hs ▸ ⟨hrefl, hrefl', fun _ => rfl, fun he => by cases he⟩
      · cases hs

/-- What a step of the client is. -/
theorem step_client {e : Receiver.Ev} (hs : step s (.client e) = some s') :
    Receiver.step s.sent s.client e = some s'.client ∧ s' = { s with client := s'.client } := by
  simp only [step] at hs
  split at hs
  · rename_i client hclient
    simp only [Option.some.injEq] at hs
    exact hs ▸ ⟨hclient, rfl⟩
  · cases hs

/-- What a setter's step is. -/
theorem step_insert {call : InsertCall} (hs : step s (.insert call) = some s') :
    ∃ m_buf, call.run s.server.m_buf = .ok m_buf ∧
      s' = { s with server := { s.server with m_buf }, hist := s.hist ++ [m_buf] } := by
  simp only [step] at hs
  split at hs
  · rename_i m_buf hok
    simp only [Option.some.injEq] at hs
    exact ⟨m_buf, hok, hs.symm⟩
  · cases hs

/-- The client's service reads what has been sent. -/
def embedding : Embedding tcpService EndToEnd Ev where
  step := step
  env := sent
  part := client
  setPart := fun s client => { s with client }
  event := Ev.toClient
  family := ⟨fun _ _ => rfl, fun _ _ => rfl, fun _ _ => rfl⟩
  part_set := fun _ _ => rfl
  env_set := fun _ _ => rfl
  step_event := by
    intro s e e' s' he hs
    cases e with
    | client e =>
        cases he
        exact (step_client hs).1
    | _ => cases he
  step_other := fun he hs => (step_effect hs).client he
  inv_env := fun hs h => ⟨h.inv.mono (step_effect hs).sent, h.fresh⟩

/-- The instants of what the client has committed, connection after connection. -/
def committed (s : EndToEnd) : List Nat :=
  (List.range s.client.conns).flatMap fun k => (s.instants k).take (s.client.commits k).length

theorem Inv.committed_sorted (h : Inv s) : s.committed.Pairwise (· ≤ ·) := by
  rw [committed, List.pairwise_flatMap]
  refine ⟨fun k _ => (h.dated k).sorted.sublist (List.take_sublist _ _), ?_⟩
  refine List.pairwise_lt_range.imp fun hlt t ht t' ht' => ?_
  exact h.ordered _ _ hlt t (List.mem_of_mem_take ht) t' (List.mem_of_mem_take ht')

theorem Inv.log_committed (h : Inv s) :
    s.client.log.map some = s.committed.map (s.hist[·]?) := by
  rw [h.client.framed.log_eq, committed, List.map_flatMap, List.map_flatMap]
  exact List.flatMap_congr fun k _ => h.commits_eq k

/-- The copy of a frame is the only thing that adds to the log. -/
theorem log_step {e : Ev} (hs : step s e = some s') :
    s'.client.log = s.client.log ++
      if embedding.kind s e = .commit then [s'.client.svc.m_buffer] else [] := by
  cases e with
  | client e =>
      obtain ⟨hclient, -⟩ := step_client hs
      cases e with
      | stop =>
          simp only [Receiver.step, Option.some.injEq] at hclient
          rw [← hclient]
          simp [Embedding.kind, embedding, Ev.toClient, tcpService, Receiver.kind]
      | worker e =>
          obtain ⟨-, svc, -, heq⟩ := Receiver.step_worker hclient
          have hkind : embedding.kind s (.client (.worker e)) = s.client.kind (.worker e) := rfl
          rw [hkind, heq, Receiver.record_svc]
          split
          · rename_i hk
            obtain ⟨he, hl⟩ := Receiver.kind_commit hk
            cases he
            simp only [Receiver.record, if_pos hl]
          · rename_i hk
            rw [Receiver.record_log (Receiver.not_commit hk), List.append_nil]
  | _ =>
      rw [(step_effect hs).client rfl]
      simp [Embedding.kind, embedding, Ev.toClient]

/-- What is reached with the calls of the setters. -/
structure Reached (calls : List InsertCall) (s : EndToEnd) : Prop where
  inv : s.Inv
  serves : Receiver.Serves s.sent s.client
  recorded : Recorded calls s.hist

theorem Reached.step {calls : List InsertCall} (h : Reached calls s) {e : Ev}
    (hwhole : s.WholeSends e) (hs : EndToEnd.step s e = some s') :
    Reached (calls ++ e.setter.toList) s' where
  inv := h.inv.step hwhole hs
  serves := embedding.service.inv_step h.serves hs
  recorded := by
    cases e with
    | insert call =>
        obtain ⟨m_buf, hok, rfl⟩ := step_insert hs
        exact h.recorded.insert h.inv.copied.current hok
    | _ =>
        rw [(step_effect hs).hist rfl]
        simpa [Ev.setter] using h.recorded

/-- The TCP path. -/
def path : Path EndToEnd Ev where
  service := embedding.service
  start := start (Buf.zero SBUFLEN) (Buf.zero SBUFLEN)
  log := fun s => s.client.log
  setter := Ev.setter
  allowed := WholeSends
  Reached := Reached
  start_inv := tcp_start_inv _ _
  start_reached := ⟨start_inv _ _, tcp_start_inv _ _, recorded_start⟩
  start_buffer := rfl
  log_clear := fun _ => rfl
  log_step := fun _ hs => log_step hs
  reached_clear := by
    intro calls s h
    have hserves := embedding.service.inv_clear (s := s) h.serves
    exact ⟨⟨h.inv.copied, h.inv.dated, h.inv.unsent, h.inv.ordered, hserves.inv⟩, hserves,
      h.recorded⟩
  reached_step := fun h hwhole hs => h.step hwhole hs
  fromCalls := by
    intro calls s h
    exact h.recorded.fromCalls h.inv.committed_sorted h.inv.log_committed

instance (s : EndToEnd) (e : Ev) : Decidable (path.allowed s e) :=
  inferInstanceAs (Decidable (s.WholeSends e))

/-- From the setters to the dashboard over TCP, in every run without sends after a short
    one: each value the dashboard shows is what the last call for its signal had set after
    some number of calls, or 0 if there was none by then.  Of the values read for it, later
    ones never come from fewer calls. -/
theorem dashboard_over_tcp {sounds : Sounds} {es : List (System.Ev Ev)} {s : System EndToEnd}
    (h : Run (System.step path sounds) (System.Allowed path) (System.start path) es s) :
    (∀ sig, ∃ t ≤ s.calls.length,
      System.readout s.dashboard.m_canvas sig = lastSet (s.calls.take t) sig) ∧
    System.Displayed s.calls s.shown :=
  have hinv := System.inv_of_run h
  ⟨hinv.readout, hinv.displayed⟩

/-- A speed is set, sent, received and copied. -/
def speedRun : List Ev :=
  connectRun ++
    [.insert (.speed 7), .server .tau, .server (.send 3),
     .client (.worker (.read (.data [7, 0, 0]))), .client (.worker .tau), .client (.worker .tau),
     .client (.worker .tau)]

theorem dashboard_over_tcp_speed :
    ∃ s, Run (System.step path Dashboard.soundFiles) (System.Allowed path) (System.start path)
        (speedRun.map .path ++ System.tickRun) s ∧
      System.readout s.dashboard.m_canvas .speed = 7 ∧ System.Displayed s.calls s.shown := by
  obtain ⟨s, hrun, hspeed⟩ : ∃ s,
      Run (System.step path Dashboard.soundFiles) (System.Allowed path) (System.start path)
        (speedRun.map .path ++ System.tickRun) s ∧
      System.readout s.dashboard.m_canvas .speed = 7 := Run.exists_of_exec (by decide)
  exact ⟨s, hrun, hspeed, (dashboard_over_tcp hrun).2⟩

end EndToEnd

/-! ## Over the UARTs and the ESP32 -/

namespace UartChain

variable {s s' : UartChain}

/-- The call of a setter that an event is. -/
def Ev.setter : Ev → Option InsertCall
  | .insert call => some call
  | _ => none

/-- What a setter's step is. -/
theorem step_insert {call : InsertCall} (hs : step s (.insert call) = some s') :
    ∃ m_buf, call.run s.server.m_buf = .ok m_buf ∧
      s' = { s with server := { s.server with m_buf }, hist := s.hist ++ [m_buf] } := by
  simp only [step] at hs
  split at hs
  · rename_i m_buf hok
    simp only [Option.some.injEq] at hs
    exact ⟨m_buf, hok, hs.symm⟩
  · cases hs

/-- Only the setters add to the history. -/
theorem step_hist {e : Ev} (he : e.setter = none) (hs : step s e = some s') : s'.hist = s.hist := by
  cases e with
  | insert call => cases he
  | stopServer | lose i | log text =>
      simp only [step, Option.some.injEq] at hs
      exact hs ▸ rfl
  | server e =>
      simp only [step] at hs
      split at hs
      · rename_i server hsvc
        simp only [Option.some.injEq] at hs
        obtain ⟨snap, port, instants, heq⟩ := record_eq s server e
        rw [← hs, heq]
      · cases hs
  | transmit =>
      obtain ⟨_, _, _, -, -, rfl⟩ := step_transmit hs
      rfl
  | relay e =>
      obtain ⟨_, -, rfl⟩ := step_relay hs
      rfl
  | deliver rcs =>
      obtain ⟨_, _, _, -, -, rfl⟩ := step_deliver hs
      rfl
  | ble e =>
      obtain ⟨-, _, -, rfl⟩ := step_ble hs
      rfl
  | arrive | stopClient | client e =>
      obtain ⟨-, _, -, rfl⟩ := step_client rfl hs
      rfl

/-- The client's service reads from its line. -/
def embedding : Embedding uartService UartChain Ev where
  step := step
  env := uartFrames
  part := client
  setPart := fun s client => { s with client }
  event := Ev.toClient
  family := ⟨fun _ _ => rfl, fun _ _ => rfl, fun _ _ => rfl⟩
  part_set := fun _ _ => rfl
  env_set := fun _ _ => rfl
  step_event := by
    intro s e e' s' he hs
    obtain ⟨-, client, hclient, rfl⟩ := step_client he hs
    exact hclient
  step_other := fun he hs => (step_effect hs).client he
  inv_env := fun _ h => h

/-- The copy of a frame is the only thing that adds to the log. -/
theorem log_step {e : Ev} (hs : step s e = some s') :
    s'.client.log = s.client.log ++
      if embedding.kind s e = .commit then [s'.client.svc.m_buffer] else [] := by
  cases he : e.toClient with
  | some e' =>
      have hkind : embedding.kind s e = s.client.kind e' := by
        simp only [Embedding.kind, embedding, he]
        rfl
      obtain ⟨-, client, hclient, rfl⟩ := step_client he hs
      rw [hkind]
      cases e' with
      | arrive | stop =>
          simp only [UartReceiver.step, Option.some.injEq] at hclient
          rw [← hclient]
          simp [UartReceiver.kind]
      | worker e =>
          obtain ⟨-, svc, -, rfl⟩ := UartReceiver.step_worker hclient
          simp only [UartReceiver.record_svc]
          split
          · rename_i hk
            obtain ⟨he, hl⟩ := UartReceiver.kind_commit hk
            cases he
            simp only [UartReceiver.record, hl]
          · rename_i hk
            rw [UartReceiver.record_log (UartReceiver.not_commit hk), List.append_nil]
  | none =>
      rw [(step_effect hs).client he]
      simp [Embedding.kind, embedding, he]

/-! ### Clearing the client's buffer -/

/-- The same state with other contents of the client's buffer. -/
def setBuffer (s : UartChain) (m_buffer : Buf SBUFLEN) : UartChain :=
  { s with client := s.client.setBuffer m_buffer }

/-- Recording a step of the server's worker whatever the client is. -/
theorem record_client (s : UartChain) (client : UartReceiver) (server : Server.UartService.State)
    (e : Server.UartService.Ev) :
    ({ s with client } : UartChain).record server e = { s.record server e with client } := by
  cases e with
  | tau =>
      simp only [record]
      split <;> rfl
  | _ => rfl

/-- The steps of the other parts are the same whatever the client is. -/
theorem step_with_client (client : UartReceiver) {e : Ev} (he : e.toClient = none) :
    step { s with client } e = (step s e).map fun t => { t with client } := by
  cases e with
  | insert call =>
      simp only [step]
      cases call.run s.server.m_buf <;> rfl
  | stopServer | lose i | log text => rfl
  | server e =>
      simp only [step, record_client]
      cases Server.UartService.step s.server e <;> rfl
  | transmit =>
      have hline : ({ s with client } : UartChain).lineFrames = s.lineFrames := rfl
      simp only [step, hline]
      cases s.port with
      | nil => rfl
      | cons b port => cases s.relay.step s.lineFrames .arrive <;> rfl
  | relay e =>
      have hline : ({ s with client } : UartChain).lineFrames = s.lineFrames := rfl
      simp only [step, hline]
      cases s.relay.step s.lineFrames (.server e) <;> rfl
  | deliver rcs =>
      simp only [step]
      cases s.air with
      | nil => rfl
      | cons b air =>
          simp only
          cases s.forwarder.callback ⟨.gap (.notifyRx b.toList), rcs⟩ <;> rfl
  | ble e =>
      simp only [step]
      cases e.event.isNotifyRx with
      | true => rfl
      | false => cases s.forwarder.callback e <;> rfl
  | arrive | stopClient | client e => cases he

/-- A step that the client can take can be taken. -/
theorem step_of_client {e : Ev} {e' : UartReceiver.Ev} {client : UartReceiver}
    (he : e.toClient = some e')
    (harrive : e' = .arrive → s.client.line.arrived < s.forwarder.uart.length)
    (hclient : s.client.step s.uartFrames e' = some client) :
    step s e = some { s with client } := by
  cases e with
  | arrive =>
      cases he
      simp only [step, if_pos (harrive rfl), hclient]
  | stopClient | client e =>
      cases he
      simp only [step, hclient]
  | _ => cases he

/-- What is in the client's buffer when a step is taken matters to nothing else. -/
theorem step_setBuffer {m_buffer : Buf SBUFLEN} {e : Ev}
    (hs : step (s.setBuffer m_buffer) e = some s') :
    ∃ s'', step s e = some s'' ∧ s' = s''.setBuffer s'.client.svc.m_buffer := by
  cases he : e.toClient with
  | some e' =>
      obtain ⟨harrive, client, hclient, rfl⟩ := step_client he hs
      obtain ⟨client', hclient', heq⟩ := UartReceiver.step_setBuffer hclient
      refine ⟨_, step_of_client he harrive hclient', ?_⟩
      simp only [setBuffer]
      rw [← heq]
  | none =>
      rw [setBuffer, step_with_client _ he, Option.map_eq_some_iff] at hs
      obtain ⟨s'', hs'', rfl⟩ := hs
      refine ⟨s'', hs'', ?_⟩
      simp only [setBuffer, (step_effect hs'').client he]
      rfl

/-- Nor does it matter to whether frames stay whole. -/
theorem undisturbed_setBuffer {m_buffer : Buf SBUFLEN} {e : Ev}
    (h : (s.setBuffer m_buffer).Undisturbed e) : s.Undisturbed e := by
  cases e with
  | server e => cases e <;> exact h
  | client e =>
      cases e with
      | read bs => cases bs <;> exact h
      | _ => exact h
  | _ => exact h

/-- What is reached with the calls of the setters: the end of a run, but for the client's
    buffer, which the tick may have cleared. -/
structure Reached (calls : List InsertCall) (s : UartChain) : Prop where
  run : ∃ es t, Run step Undisturbed (start (Buf.zero SBUFLEN) (Buf.zero SBUFLEN)) es t ∧
    s = t.setBuffer s.client.svc.m_buffer
  recorded : Recorded calls s.hist

theorem Reached.step {calls : List InsertCall} (h : Reached calls s) {e : Ev}
    (hwhole : s.Undisturbed e) (hs : UartChain.step s e = some s') :
    Reached (calls ++ e.setter.toList) s' := by
  obtain ⟨es, t, hrun, heq⟩ := h.run
  refine ⟨?_, ?_⟩
  · rw [heq] at hwhole hs
    obtain ⟨t', ht', heq'⟩ := step_setBuffer hs
    exact ⟨es ++ [e], t', hrun.snoc (undisturbed_setBuffer hwhole) ht', heq'⟩
  · have hcurrent : s.hist.getLast? = some s.server.m_buf := by
      rw [heq]
      exact (inv_of_run hrun).1.copied.current
    cases e with
    | insert call =>
        obtain ⟨m_buf, hok, rfl⟩ := step_insert hs
        exact h.recorded.insert hcurrent hok
    | _ =>
        rw [step_hist rfl hs]
        simpa [Ev.setter] using h.recorded

/-- The UART path. -/
def path : Path UartChain Ev where
  service := embedding.service
  start := start (Buf.zero SBUFLEN) (Buf.zero SBUFLEN)
  log := fun s => s.client.log
  setter := Ev.setter
  allowed := Undisturbed
  Reached := Reached
  start_inv := uart_start_inv (uartFrames (start (Buf.zero SBUFLEN) (Buf.zero SBUFLEN))) _
  start_reached := ⟨⟨[], _, Run.nil, rfl⟩, recorded_start⟩
  start_buffer := rfl
  log_clear := fun _ => rfl
  log_step := fun _ hs => log_step hs
  reached_clear := by
    intro calls s h
    obtain ⟨es, t, hrun, heq⟩ := h.run
    refine ⟨⟨es, t, hrun, ?_⟩, h.recorded⟩
    rw [heq]
    rfl
  reached_step := fun h hwhole hs => h.step hwhole hs
  fromCalls := by
    intro calls s h
    obtain ⟨es, t, hrun, heq⟩ := h.run
    obtain ⟨ts, hsorted, hlog⟩ := fromSnapshots_of_run hrun
    refine h.recorded.fromCalls hsorted ?_
    rw [heq]
    exact hlog

instance (s : UartChain) (e : Ev) : Decidable (path.allowed s e) :=
  inferInstanceAs (Decidable (s.Undisturbed e))

/-- A speed is set and carried, and the client sets `m_status`. -/
def speedRun : List Ev := connectRun ++ writeRun ++ carryRun ++ [.client .tau]

end UartChain
end Speedometer
