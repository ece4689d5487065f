/-
  Speedometer.Server.Sockets

  The sockets of the desktop server's `TCPService`: that of the constructor, and those of
  the clients that its worker accepts.

  The constructor starts the worker only if it could bind its socket, and closes it
  otherwise; the destructor closes it under the worker's hands.  `server_closes`: no
  socket is ever closed twice, never are more than two open, and when the destructor
  returns all have been closed.
-/

import Speedometer.Lib.Descriptors
import Speedometer.Server.Shutdown

namespace Speedometer.Server

open Descriptors Transition

/-- The next thing the constructor does. -/
inductive Constructor
  /-- `socket(AF_INET, SOCK_STREAM, IPPROTO_IP)` -/
  | socket
  /-- `setsockopt(sockfd, SOL_SOCKET, SO_REUSEADDR, ...)` -/
  | setsockopt (sockfd : Int)
  /-- `bind(sockfd, &servaddr, sizeof(servaddr))` -/
  | bind (sockfd : Int)
  /-- `close(sockfd)` after a failure -/
  | close (sockfd : Int)
  /-- the constructor has returned -/
  | done
deriving DecidableEq, Repr

/-- A service from its constructor to its destructor, with the sockets it has obtained. -/
structure Sockets where
  ctor : Constructor := .socket
  /-- without a worker until it has been started -/
  down : Shutdown := { svc := { loc := .done }, m_sockfd := -1 }
  fds : Table := []
deriving DecidableEq

/-- The worker has accepted a client and not closed the connection yet. -/
def TcpService.Loc.serving : TcpService.Loc → Bool
  | .setStatus | .whileRunning | .sleep | .snapshot | .send | .clearStatus | .shutdown
  | .close => true
  | .listen | .setRunning | .accept | .ifStopped | .fatalError | .done => false

namespace Sockets

/-- What can happen next; `rc` is what the next call of the constructor returns. -/
inductive Ev
  | ctor (rc : Int)
  | down (e : Shutdown.Ev)
deriving DecidableEq, Repr

/-- A step of the constructor. -/
def stepCtor (s : Sockets) (rc : Int) : Option Sockets :=
  match s.ctor with
  | .socket =>
      if rc = -1 then some { s with ctor := .done }
      else if 0 ≤ rc ∧ s.fds.Fresh rc then
        some { s with ctor := .setsockopt rc, fds := s.fds.add rc }
      else none
  | .setsockopt sockfd => some { s with ctor := if rc < 0 then .close sockfd else .bind sockfd }
  | .bind sockfd =>
      if rc = 0 then
        -- `m_sockfd = sockfd`, and the worker starts
        some { s with ctor := .done, down := { m_sockfd := sockfd } }
      else some { s with ctor := .close sockfd }
  | .close sockfd => some { s with ctor := .done, fds := s.fds.close sockfd }
  | .done => none

/-- The sockets after a step of the worker. -/
def workerFds (svc : TcpService.State) (e : TcpService.Ev) (fds : Table) : Table :=
  match e with
  | .accept connfd => if 0 ≤ connfd then fds.add connfd else fds
  | .tau =>
      match svc.loc with
      | .shutdown => fds.shutdown svc.connfd
      | .close => fds.close svc.connfd
      | _ => fds
  | .listen _ | .send _ => fds

/-- The sockets after a step of the destructor. -/
def dtorFds (s : Sockets) : Table :=
  match s.down.dtor with
  | .shutdown => if s.down.m_sockfd ≠ -1 then s.fds.shutdown s.down.m_sockfd else s.fds
  | .close => s.fds.close s.down.m_sockfd
  | .store | .wait | .done => s.fds

def fdsAfter (s : Sockets) : Shutdown.Ev → Table
  | .dtor => s.dtorFds
  | .worker e => workerFds s.down.svc e s.fds

/-- `accept` returns a number that is not in use. -/
def Possible (s : Sockets) : Shutdown.Ev → Prop
  | .worker (.accept connfd) => 0 ≤ connfd → s.fds.Fresh connfd
  | _ => True

instance (s : Sockets) : (e : Shutdown.Ev) → Decidable (s.Possible e)
  | .worker (.accept connfd) => inferInstanceAs (Decidable (0 ≤ connfd → s.fds.Fresh connfd))
  | .dtor | .worker .tau | .worker (.listen _) | .worker (.send _) => isTrue trivial

/-- A step of the constructor, or, when it has returned, of the destructor or the worker. -/
def step (s : Sockets) : Ev → Option Sockets
  | .ctor rc => s.stepCtor rc
  | .down e =>
      if s.ctor = .done ∧ s.Possible e then
        match Shutdown.step s.down e with
        | some down => some { s with down, fds := s.fdsAfter e }
        | none => none
      else none

/-! ## Invariant -/

/-- The sockets of the clients: all closed, or all but that of the client served. -/
def Clients (svc : TcpService.State) (conns : Table) : Prop :=
  if svc.loc.serving then conns.Held svc.connfd else conns.ClosedOnce

/-- A service whose constructor has failed: there is no worker, and nothing is open. -/
structure Failed (s : Sockets) : Prop where
  sockfd : s.down.m_sockfd = -1
  loc : s.down.svc.loc = .done
  closed : s.fds.ClosedOnce
  dtor : s.down.dtor ≠ .close

/-- A service whose worker has been started: its socket is the oldest. -/
structure Started (s : Sockets) : Prop where
  sockfd : 0 ≤ s.down.m_sockfd
  fds : ∃ conns shut, s.fds = conns ++ [⟨s.down.m_sockfd, if s.down.isOpen then 0 else 1, shut⟩] ∧
    Clients s.down.svc conns ∧ ∀ d ∈ conns, d.fd ≠ s.down.m_sockfd
  isOpen : s.down.isOpen = true ↔
    s.down.dtor = .store ∨ s.down.dtor = .shutdown ∨ s.down.dtor = .close
  joined : s.down.dtor = .done → s.down.svc.loc = .done

def Inv (s : Sockets) : Prop :=
  match s.ctor with
  | .socket => s.fds = [] ∧ s.down = { svc := { loc := .done }, m_sockfd := -1 }
  | .setsockopt sockfd | .bind sockfd | .close sockfd =>
      s.fds = [{ fd := sockfd }] ∧ 0 ≤ sockfd ∧
        s.down = { svc := { loc := .done }, m_sockfd := -1 }
  | .done => s.Failed ∨ s.Started

variable {s t : Sockets}

theorem inv_done (h : s.ctor = .done) : Inv s ↔ s.Failed ∨ s.Started := by
  rw [Inv, h]

theorem Inv.ctor (hi : Inv s) {rc : Int} (hs : s.stepCtor rc = some t) : Inv t := by
  obtain ⟨ctor, down, fds⟩ := s
  cases ctor with
  | socket =>
      obtain ⟨rfl, rfl⟩ := hi
      simp only [stepCtor] at hs
      split at hs
      · cases hs
        exact .inl ⟨rfl, rfl, by simp [Table.ClosedOnce], by simp⟩
      · obtain ⟨⟨hrc, -⟩, rfl⟩ := of_guard hs
        exact ⟨rfl, hrc, rfl⟩
  | setsockopt sockfd =>
      simp only [stepCtor, Option.some.injEq] at hs
      subst hs
      by_cases hrc : rc < 0
      · rw [if_pos hrc]
        exact hi
      · rw [if_neg hrc]
        exact hi
  | bind sockfd =>
      obtain ⟨rfl, hsockfd, rfl⟩ := hi
      simp only [stepCtor] at hs
      split at hs
      · cases hs
        refine .inr ⟨hsockfd, ⟨[], false, rfl, ?_, by simp⟩, by simp, by simp⟩
        exact fun d hd => absurd hd List.not_mem_nil
      · cases hs
        exact ⟨rfl, hsockfd, rfl⟩
  | close sockfd =>
      obtain ⟨rfl, hsockfd, rfl⟩ := hi
      simp only [stepCtor, Option.some.injEq] at hs
      subst hs
      refine .inl ⟨rfl, rfl, ?_, by simp⟩
      have hnone : Table.ClosedOnce [] := fun d hd => absurd hd List.not_mem_nil
      exact (hnone.add sockfd).close
  | done => cases hs

/-- The worker keeps its clients' sockets. -/
theorem Clients.step {svc svc' : TcpService.State} {conns : Table} (h : Clients svc conns)
    {e : TcpService.Ev} (hs : TcpService.step svc e = some svc') :
    Clients svc' (workerFds svc e conns) := by
  unfold Clients at h
  cases e with
  | listen rc =>
      obtain ⟨hl, rfl⟩ := of_guard hs
      simp only [hl, TcpService.Loc.serving, Bool.false_eq_true, if_false] at h
      simp only [Clients, workerFds]
      by_cases hrc : rc = 0
      · simpa [hrc, TcpService.Loc.serving] using h
      · simpa [hrc, TcpService.Loc.serving] using h
  | accept connfd =>
      obtain ⟨hl, rfl⟩ := of_guard hs
      simp only [hl, TcpService.Loc.serving, Bool.false_eq_true, if_false] at h
      simp only [Clients, workerFds]
      by_cases hfd : 0 ≤ connfd
      · simpa [hfd, TcpService.Loc.serving] using h.add connfd
      · simpa [hfd, TcpService.Loc.serving] using h
  | send bytes_sent =>
      obtain ⟨⟨hl, -⟩, rfl⟩ := of_guard hs
      simp only [hl, TcpService.Loc.serving, if_true] at h
      simp only [Clients, workerFds]
      by_cases hsent : bytes_sent ≤ 0
      · simpa [hsent, TcpService.Loc.serving] using h
      · simpa [hsent, TcpService.Loc.serving] using h
  | tau =>
      simp only [TcpService.step] at hs
      cases hl : svc.loc <;>
        simp only [hl, TcpService.Loc.serving, Bool.false_eq_true, if_false, if_true] at h <;>
        simp only [TcpService.stepTau, hl, Option.some.injEq] at hs
      case listen | accept | send | done => cases hs
      case whileRunning =>
          subst hs
          simp only [Clients, workerFds, hl]
          cases svc.m_is_running <;> simpa [TcpService.Loc.serving] using h
      case ifStopped =>
          subst hs
          simp only [Clients, workerFds, hl]
          cases svc.m_is_running <;> simpa [TcpService.Loc.serving] using h
      case shutdown =>
          subst hs
          simpa [Clients, workerFds, hl, TcpService.Loc.serving] using h.shutdown svc.connfd
      case close =>
          subst hs
          simpa [Clients, workerFds, hl, TcpService.Loc.serving] using h.close
      all_goals
        subst hs
        simpa [Clients, workerFds, hl, TcpService.Loc.serving] using h

/-- It leaves older sockets alone. -/
theorem Clients.workerFds_append {svc svc' : TcpService.State} {conns : Table}
    (h : Clients svc conns) {e : TcpService.Ev} (hs : TcpService.step svc e = some svc')
    (older : Table) : workerFds svc e (conns ++ older) = workerFds svc e conns ++ older := by
  cases e with
  | listen | send => rfl
  | accept connfd =>
      simp only [workerFds]
      split <;> rfl
  | tau =>
      unfold Clients at h
      simp only [workerFds]
      split
      · rename_i hl
        rw [hl, TcpService.Loc.serving, if_pos rfl] at h
        exact Table.update_append_left h.mem
      · rename_i hl
        rw [hl, TcpService.Loc.serving, if_pos rfl] at h
        exact Table.update_append_left h.mem
      · rfl

/-- No client's socket has the number of the service's, as long as that is open. -/
theorem workerFds_fresh {svc : TcpService.State} {e : TcpService.Ev} {conns : Table} {fd : Int}
    (h : ∀ d ∈ conns, d.fd ≠ fd) (hnew : ∀ connfd, e = .accept connfd → 0 ≤ connfd → connfd ≠ fd) :
    ∀ d ∈ workerFds svc e conns, d.fd ≠ fd := by
  have hkept : ∀ (fd' : Int) (f : Entry → Entry), (∀ d, (f d).fd = d.fd) →
      ∀ d ∈ Table.update fd' f conns, d.fd ≠ fd := by
    intro fd' f hf d hd
    have hmem : d.fd ∈ (Table.update fd' f conns).map (·.fd) := List.mem_map_of_mem hd
    rw [Table.map_fd_update hf, List.mem_map] at hmem
    obtain ⟨d', hd', heq⟩ := hmem
    exact heq ▸ h d' hd'
  cases e with
  | listen | send => exact h
  | accept connfd =>
      simp only [workerFds]
      split
      · rename_i hfd
        intro d hd
        rcases List.mem_cons.mp hd with rfl | hd
        · exact hnew connfd rfl hfd
        · exact h d hd
      · exact h
  | tau =>
      simp only [workerFds]
      split
      · exact hkept _ _ fun _ => rfl
      · exact hkept _ _ fun _ => rfl
      · exact h

/-- What a step of the destructor or of the worker is. -/
theorem step_down {e : Shutdown.Ev} (hs : step s (.down e) = some t) :
    s.ctor = .done ∧ s.Possible e ∧ ∃ down, Shutdown.step s.down e = some down ∧
      t = { s with down, fds := s.fdsAfter e } := by
  simp only [step, Option.ite_none_right_eq_some] at hs
  obtain ⟨⟨hctor, hposs⟩, hs⟩ := hs
  split at hs
  · rename_i down hdown
    simp only [Option.some.injEq] at hs
    exact ⟨hctor, hposs, down, hdown, hs.symm⟩
  · cases hs

/-- Without a worker the destructor has nothing to close. -/
theorem Failed.down (h : s.Failed) {e : Shutdown.Ev} {down : Shutdown}
    (hs : Shutdown.step s.down e = some down) : Failed { s with down, fds := s.fdsAfter e } := by
  cases e with
  | dtor =>
      have hdtor := h.dtor
      cases hd : s.down.dtor <;>
        simp only [Shutdown.step, Shutdown.stepDtor, hd, Option.some.injEq] at hs
      case store =>
          subst hs
          simp only [fdsAfter, dtorFds, hd]
          exact ⟨h.sockfd, h.loc, h.closed, by simp⟩
      case shutdown =>
          subst hs
          simp only [fdsAfter, dtorFds, hd, h.sockfd, ne_eq, not_true_eq_false, if_false]
          exact ⟨rfl, h.loc, h.closed, by simp⟩
      case close => exact absurd hd hdtor
      case wait =>
          obtain ⟨-, rfl⟩ := of_guard hs
          simp only [fdsAfter, dtorFds, hd]
          exact ⟨h.sockfd, h.loc, h.closed, by simp⟩
      case done => cases hs
  | worker e =>
      obtain ⟨-, svc, hsvc, rfl⟩ := Shutdown.step_worker hs
      cases e <;> simp [TcpService.step, TcpService.stepTau, h.loc] at hsvc

/-- The destructor shuts down and closes the service's socket, and then joins. -/
theorem Started.dtor (h : s.Started) {down : Shutdown}
    (hs : Shutdown.step s.down .dtor = some down) :
    Started { s with down, fds := s.fdsAfter .dtor } := by
  obtain ⟨conns, shut, hfds, hclients, hnot⟩ := h.fds
  have hnone : s.down.m_sockfd ≠ -1 := by
    have hsockfd := h.sockfd
    omega
  have hopen := h.isOpen
  cases hd : s.down.dtor <;>
    simp only [Shutdown.step, Shutdown.stepDtor, hd, Option.some.injEq] at hs
  case store =>
      subst hs
      simp only [fdsAfter, dtorFds, hd]
      exact ⟨h.sockfd, ⟨conns, shut, hfds, hclients, hnot⟩, by simp [hopen, hd], by simp⟩
  case shutdown =>
      subst hs
      simp only [fdsAfter, dtorFds, hd, if_pos hnone]
      refine ⟨h.sockfd, ⟨conns, true, ?_, hclients, hnot⟩, by simp [hopen, hd], by simp⟩
      rw [hfds, Table.shutdown, Table.update_append_right hnot, Table.update, if_pos rfl]
  case close =>
      subst hs
      simp only [fdsAfter, dtorFds, hd]
      refine ⟨h.sockfd, ⟨conns, shut, ?_, hclients, hnot⟩, by simp, by simp⟩
      have hisOpen : s.down.isOpen = true := hopen.mpr (.inr (.inr hd))
      rw [hfds, Table.close, Table.update_append_right hnot, Table.update, if_pos rfl, hisOpen]
      rfl
  case wait =>
      obtain ⟨hdone, rfl⟩ := of_guard hs
      simp only [fdsAfter, dtorFds, hd]
      exact ⟨h.sockfd, ⟨conns, shut, hfds, hclients, hnot⟩, by simp [hopen, hd], fun _ => hdone⟩
  case done => cases hs

/-- The worker accepts clients only while the service's socket is open. -/
theorem Started.worker (h : s.Started) {e : TcpService.Ev} (hposs : s.Possible (.worker e))
    {down : Shutdown} (hs : Shutdown.step s.down (.worker e) = some down) :
    Started { s with down, fds := s.fdsAfter (.worker e) } := by
  obtain ⟨conns, shut, hfds, hclients, hnot⟩ := h.fds
  obtain ⟨haccept, svc, hsvc, rfl⟩ := Shutdown.step_worker hs
  have hnew : ∀ connfd, e = .accept connfd → 0 ≤ connfd → connfd ≠ s.down.m_sockfd := by
    rintro connfd rfl hfd rfl
    have hmem : ⟨s.down.m_sockfd, if s.down.isOpen then 0 else 1, shut⟩ ∈ s.fds := by
      rw [hfds]
      exact List.mem_append_right _ (List.mem_singleton_self _)
    have hclosed := hposs hfd _ hmem rfl
    rw [haccept hfd] at hclosed
    cases hclosed
  refine ⟨h.sockfd, ⟨workerFds s.down.svc e conns, shut, ?_, hclients.step hsvc,
    workerFds_fresh hnot hnew⟩, h.isOpen, fun hdone => ?_⟩
  · simp only [fdsAfter]
    rw [hfds, hclients.workerFds_append hsvc]
  · -- a worker that has been joined takes no step
    have hl := h.joined hdone
    cases e <;> simp [TcpService.step, TcpService.stepTau, hl] at hsvc

theorem Inv.step (hi : Inv s) {e : Ev} (hs : step s e = some t) : Inv t := by
  cases e with
  | ctor rc => exact hi.ctor hs
  | down e =>
      obtain ⟨hctor, hposs, down, hdown, rfl⟩ := step_down hs
      refine (inv_done ?_).mpr ?_
      · exact hctor
      rcases (inv_done hctor).mp hi with hfailed | hstarted
      · exact .inl (hfailed.down hdown)
      · cases e with
        | dtor => exact .inr (hstarted.dtor hdown)
        | worker e => exact .inr (hstarted.worker hposs hdown)

/-! ## Result -/

/-- What the worker leaves of its clients' sockets. -/
theorem Clients.opened {svc : TcpService.State} {conns : Table} (h : Clients svc conns) :
    conns.opened ≤ 1 ∧ ∀ d ∈ conns, d.closes ≤ 1 := by
  unfold Clients at h
  split at h
  · exact ⟨Nat.le_of_eq h.opened, h.closes_le⟩
  · exact ⟨by rw [h.opened]; exact Nat.zero_le 1, fun d hd => Nat.le_of_eq (h d hd)⟩

/-- What holds of the sockets in every state. -/
def Kept (s : Sockets) : Prop :=
  (∀ d ∈ s.fds, d.closes ≤ 1) ∧ s.fds.opened ≤ 2 ∧ (s.down.dtor = .done → s.fds.ClosedOnce)

theorem Failed.kept (h : s.Failed) : s.Kept :=
  ⟨fun d hd => Nat.le_of_eq (h.closed d hd), by rw [h.closed.opened]; exact Nat.zero_le 2,
    fun _ => h.closed⟩

theorem Started.kept (h : s.Started) : s.Kept := by
  obtain ⟨conns, shut, hfds, hclients, -⟩ := h.fds
  obtain ⟨hone, hcloses⟩ := hclients.opened
  refine ⟨fun d hd => ?_, ?_, fun hdone => ?_⟩
  · rw [hfds] at hd
    rcases List.mem_append.mp hd with hd | hd
    · exact hcloses d hd
    · rw [List.mem_singleton.mp hd]
      simp only
      split <;> omega
  · have hlast : ∀ d : Entry, Table.opened [d] ≤ 1 := fun d => List.countP_le_length
    rw [hfds, Table.opened, List.countP_append]
    exact Nat.add_le_add hone (hlast _)
  · -- the worker has returned, and `m_sockfd` has been closed
    have hclosed : s.down.isOpen = false := by
      refine Bool.eq_false_iff.mpr fun hopen => ?_
      have hd := h.isOpen.mp hopen
      rw [hdone] at hd
      simp at hd
    unfold Clients at hclients
    rw [h.joined hdone, TcpService.Loc.serving] at hclients
    rw [hfds, hclosed]
    intro d hd
    rcases List.mem_append.mp hd with hd | hd
    · exact hclients d hd
    · rw [List.mem_singleton.mp hd]
      rfl

theorem Inv.kept (hi : Inv s) : s.Kept := by
  unfold Inv at hi
  split at hi
  · obtain ⟨hfds, hdown⟩ := hi
    rw [Kept, hfds, hdown]
    exact ⟨by simp, by decide, by simp⟩
  -- the constructor has its socket, and the destructor has not been called
  iterate 3
    obtain ⟨hfds, -, hdown⟩ := hi
    rw [Kept, hfds, hdown]
    exact ⟨by simp, by simp [Table.opened], by simp⟩
  · exact hi.elim Failed.kept Started.kept

/-- Whatever the calls return and however the destructor and the worker interleave: no
    socket is closed twice, no more than two are open, and when the destructor returns
    every one has been closed. -/
theorem server_closes {es : List Ev} (hrun : Run step Always {} es s) :
    (∀ d ∈ s.fds, d.closes ≤ 1) ∧ s.fds.opened ≤ 2 ∧
      (s.down.dtor = .done → s.fds.ClosedOnce) := by
  have hi : Inv s := hrun.invariant ⟨rfl, rfl⟩ fun _ _ _ hi _ hs => hi.step hs
  exact hi.kept

/-- A client is served, and the service destroyed while it is. -/
def servedRun : List Ev :=
  [.ctor 3, .ctor 0, .ctor 0, .down (.worker (.listen 0)), .down (.worker .tau),
   .down (.worker (.accept 4)), .down (.worker .tau), .down .dtor, .down .dtor, .down .dtor,
   .down (.worker .tau), .down (.worker .tau), .down (.worker .tau),
   .down (.worker (.accept (-1))), .down (.worker .tau), .down .dtor]

theorem server_closes_served :
    ∃ s, Run step Always {} servedRun s ∧ s.fds.length = 2 ∧ s.fds.ClosedOnce := by
  obtain ⟨s, hrun, hlen, hdone⟩ : ∃ s, Run step Always {} servedRun s ∧ s.fds.length = 2 ∧
      s.down.dtor = .done := Run.exists_of_exec (by decide)
  exact ⟨s, hrun, hlen, (server_closes hrun).2.2 hdone⟩

end Sockets
end Speedometer.Server
