/-
  Speedometer.Client.Receiver

  Framing of the TCP client: `TCPService::run` against any sequence of
  connections and byte streams.

  `Receiver` puts the worker on top of the streams the connections deliver and
  records what it reads and commits.  `receiver_framing` is the result: the
  committed values are, connection by connection and in order, the whole blocks
  of the bytes read from that connection.
-/

import Mathlib.Logic.Function.Basic
import Speedometer.Client.TcpService
import Speedometer.Lib.Blocks
import Speedometer.Lib.Run

namespace Speedometer.Client

open Cpp Blocks Transition

/-- The worker, what it has read and what it has committed.  Connections are
    numbered in the order they are established. -/
structure Receiver where
  svc : TcpService.State
  /-- connections established so far -/
  conns : Nat := 0
  /-- bytes read from each connection -/
  taken : Nat → Nat := fun _ => 0
  /-- values copied into `m_buffer` while each connection was the latest -/
  commits : Nat → List (Buf SBUFLEN) := fun _ => []
  /-- all values copied into `m_buffer`, in the order of the copies -/
  log : List (Buf SBUFLEN) := []

namespace Receiver

/-- What can happen next: `m_stop` becomes true, or the worker takes a step. -/
inductive Ev
  | stop
  | worker (e : TcpService.Ev)
deriving DecidableEq, Repr

/-- The latest connection. -/
def latest (r : Receiver) : Nat := r.conns - 1

/-- What `read` stores is the next part of the latest connection's stream. -/
def Delivers (streams : Nat → List (BitVec 8)) (r : Receiver) : TcpService.Ev → Prop
  | .read (.data bs) => bs <+: (streams r.latest).drop (r.taken r.latest)
  | _ => True

instance (streams : Nat → List (BitVec 8)) (r : Receiver) :
    (e : TcpService.Ev) → Decidable (Delivers streams r e)
  | .read (.data bs) =>
      inferInstanceAs (Decidable (bs <+: (streams r.latest).drop (r.taken r.latest)))
  | .read .eof | .read .eintr | .read .error | .tau | .inetPton _ | .socket _ | .connect _ =>
      isTrue trivial

/-- Recording a step of the worker that leads to `svc`. -/
def record (r : Receiver) (svc : TcpService.State) : TcpService.Ev → Receiver
  | .connect rc => { r with svc, conns := if rc = 0 then r.conns + 1 else r.conns }
  | .read (.data bs) =>
      { r with svc, taken := Function.update r.taken r.latest (r.taken r.latest + bs.length) }
  | .tau =>
      if r.svc.loc = .commit then
        { r with
          svc
          commits := Function.update r.commits r.latest (r.commits r.latest ++ [svc.m_buffer])
          log := r.log ++ [svc.m_buffer] }
      else { r with svc }
  | _ => { r with svc }

@[simp] theorem record_svc (r : Receiver) (svc : TcpService.State) (e : TcpService.Ev) :
    (r.record svc e).svc = svc := by
  cases e with
  | tau =>
      simp only [record]
      split <;> rfl
  | read res => cases res <;> rfl
  | _ => rfl

/-- Only the copy adds to the log. -/
theorem record_log {r : Receiver} {e : TcpService.Ev} (h : ¬(e = .tau ∧ r.svc.loc = .commit))
    (svc : TcpService.State) : (r.record svc e).log = r.log := by
  cases e with
  | tau => simp only [record, if_neg fun hl => h ⟨rfl, hl⟩]
  | read res => cases res <;> rfl
  | _ => rfl

/-- A step of the client over the given streams, one for each connection. -/
def step (streams : Nat → List (BitVec 8)) (r : Receiver) : Ev → Option Receiver
  | .stop => some { r with svc := { r.svc with m_stop := true } }
  | .worker e =>
      if Delivers streams r e then
        match TcpService.step r.svc e with
        | some svc => some (r.record svc e)
        | none => none
      else none

/-- The client before its first step, with any contents of the buffer. -/
def start (m_buffer : Buf SBUFLEN) : Receiver where
  svc := { m_buffer }

/-- The block that has been read in full but not been copied yet. -/
def pending (r : Receiver) : List (Buf SBUFLEN) :=
  if r.svc.loc ∈ [.whileReading, .ifComplete, .commit] ∧ r.svc.ok ∧ r.svc.nread = SBUFLEN then
    [r.svc.tmpbuf]
  else []

/-! ## Invariant -/

/-- The blocks of every connection are its commits and, on the latest connection,
    the pending block. -/
structure Framed (streams : Nat → List (BitVec 8)) (r : Receiver) : Prop where
  taken_le : ∀ k, r.taken k ≤ (streams k).length
  taken_fresh : ∀ k, r.conns ≤ k → r.taken k = 0
  commits_fresh : ∀ k, r.conns ≤ k → r.commits k = []
  log_eq : r.log = (List.range r.conns).flatMap r.commits
  blocks_eq : ∀ k, (r.commits k).map Vector.toList ++
      (if k + 1 = r.conns then r.pending.map Vector.toList else []) =
    blocks SBUFLEN ((streams k).take (r.taken k))

/-- The bytes of the unfinished block of the latest connection are in `tmpbuf`. -/
structure Reading (streams : Nat → List (BitVec 8)) (r : Receiver) : Prop where
  connected : 0 < r.conns
  status : r.svc.m_status = true
  nread_le : r.svc.nread ≤ SBUFLEN
  position : ∃ m, r.taken r.latest = m * SBUFLEN + r.svc.nread ∧
    r.svc.tmpbuf.toList.take r.svc.nread =
      ((streams r.latest).drop (m * SBUFLEN)).take r.svc.nread

/-- The worker is between two blocks of the latest connection. -/
structure Between (r : Receiver) : Prop where
  connected : 0 < r.conns
  position : ∃ m, r.taken r.latest = m * SBUFLEN

/-- What holds at each point of the worker. -/
def AtLoc (streams : Nat → List (BitVec 8)) (r : Receiver) : Prop :=
  match r.svc.loc with
  | .whileRunning | .ifDisconnected => r.svc.m_status = true → r.Between
  | .setStatus => r.Between
  | .whileReading => r.Reading streams ∧ r.svc.ok = true
  | .read => r.Reading streams ∧ r.svc.ok = true ∧ r.svc.nread < SBUFLEN
  | .ifComplete => r.Reading streams
  | .commit => r.Reading streams ∧ r.svc.ok = true ∧ r.svc.nread = SBUFLEN
  | .clearStatus | .done => True
  | .inetPton | .socket | .connect | .closeFailed | .resetFailed | .sleep | .shutdown | .close
  | .reset => r.svc.m_status = false

/-- What a step of the worker is. -/
theorem step_worker {streams : Nat → List (BitVec 8)} {r r' : Receiver} {e : TcpService.Ev}
    (hs : step streams r (.worker e) = some r') :
    Delivers streams r e ∧ ∃ svc, TcpService.step r.svc e = some svc ∧ r' = r.record svc e := by
  simp only [step, Option.ite_none_right_eq_some] at hs
  obtain ⟨hd, hs⟩ := hs
  split at hs
  · rename_i svc hsvc
    simp only [Option.some.injEq] at hs
    exact ⟨hd, svc, hsvc, hs.symm⟩
  · cases hs

/-- The invariant of the client over given streams. -/
structure Inv (streams : Nat → List (BitVec 8)) (r : Receiver) : Prop where
  framed : r.Framed streams
  atLoc : r.AtLoc streams

theorem start_inv (streams : Nat → List (BitVec 8)) (m_buffer : Buf SBUFLEN) :
    Inv streams (start m_buffer) where
  framed :=
    { taken_le := fun _ => Nat.zero_le _
      taken_fresh := fun _ _ => rfl
      commits_fresh := fun _ _ => rfl
      log_eq := rfl
      blocks_eq := fun k => by simp [start] }
  atLoc := rfl

/-! ## Steps that neither read nor commit -/

variable {streams : Nat → List (BitVec 8)} {r r' : Receiver}

/-- Moving the worker keeps the framing while the pending block stays. -/
theorem Framed.move (h : r.Framed streams) {svc : TcpService.State}
    (hp : ({ r with svc } : Receiver).pending = r.pending) :
    ({ r with svc } : Receiver).Framed streams where
  taken_le := h.taken_le
  taken_fresh := h.taken_fresh
  commits_fresh := h.commits_fresh
  log_eq := h.log_eq
  blocks_eq := by
    rw [hp]
    exact h.blocks_eq

/-- A new connection starts with nothing read and nothing committed. -/
theorem Framed.connect (h : r.Framed streams) {svc : TcpService.State}
    (hp : r.pending = []) (hp' : ({ r with svc, conns := r.conns + 1 } : Receiver).pending = []) :
    ({ r with svc, conns := r.conns + 1 } : Receiver).Framed streams where
  taken_le := h.taken_le
  taken_fresh := fun k hk => h.taken_fresh k (by simp at hk; omega)
  commits_fresh := fun k hk => h.commits_fresh k (by simp at hk; omega)
  log_eq := by
    simp only [List.range_succ, List.flatMap_append, ← h.log_eq]
    simp [h.commits_fresh r.conns (Nat.le_refl _)]
  blocks_eq := by
    intro k
    have hk := h.blocks_eq k
    rw [hp] at hk
    rw [hp']
    simpa using hk

/-! ## Reading -/

theorem Reading.conns_eq (h : r.Reading streams) : r.conns = r.latest + 1 :=
  (Nat.sub_add_cancel h.connected).symm

/-- A connection not made yet is not the latest one. -/
theorem Reading.ne_latest (h : r.Reading streams) {k : Nat} (hk : r.conns ≤ k) :
    k ≠ r.latest := by
  have hc := h.conns_eq
  omega

/-- Only the latest connection is followed by those not made yet. -/
theorem Reading.succ_ne_conns (h : r.Reading streams) {k : Nat} (hk : k ≠ r.latest) :
    k + 1 ≠ r.conns := by
  have hc := h.conns_eq
  omega

/-- Reading keeps the bytes of the unfinished block in `tmpbuf`. -/
theorem Reading.read (h : r.Reading streams) {bs : List (BitVec 8)}
    (hbs : bs <+: (streams r.latest).drop (r.taken r.latest))
    (hfit : r.svc.nread + bs.length ≤ SBUFLEN) (loc : TcpService.Loc) :
    Reading streams
      { r with
        svc := { r.svc with tmpbuf := r.svc.tmpbuf.write r.svc.nread bs,
                            nread := r.svc.nread + bs.length, loc }
        taken := Function.update r.taken r.latest (r.taken r.latest + bs.length) } where
  connected := h.connected
  status := h.status
  nread_le := hfit
  position := by
    obtain ⟨m, htaken, hbuf⟩ := h.position
    -- the bytes read follow those already in `tmpbuf`
    have hnext :
        (((streams r.latest).drop (m * SBUFLEN)).drop r.svc.nread).take bs.length = bs := by
      rw [List.drop_drop, ← htaken]
      exact (List.prefix_iff_eq_take.mp hbs).symm
    refine ⟨m, ?_, ?_⟩
    · simp only [latest, Function.update_self]
      rw [← latest, htaken, Nat.add_assoc]
    · simp only [latest]
      rw [← latest, Buf.take_write _ _ _ hfit, hbuf, List.take_add, hnext]

/-- A read stays inside the latest connection's stream. -/
theorem Framed.taken_le_read (h : r.Framed streams) {bs : List (BitVec 8)}
    (hbs : bs <+: (streams r.latest).drop (r.taken r.latest)) (k : Nat) :
    Function.update r.taken r.latest (r.taken r.latest + bs.length) k ≤ (streams k).length := by
  by_cases hk : k = r.latest
  · subst hk
    have hle := hbs.length_le
    have htaken := h.taken_le r.latest
    rw [List.length_drop] at hle
    rw [Function.update_self]
    omega
  · rw [Function.update_of_ne hk]
    exact h.taken_le k

/-- Reading inside a block leaves the whole blocks as they were; reading its last
    byte makes `tmpbuf` the next block. -/
theorem Framed.read (h : r.Framed streams) (hr : r.Reading streams) (hloc : r.svc.loc = .read)
    (hok : r.svc.ok = true) {bs : List (BitVec 8)}
    (hbs : bs <+: (streams r.latest).drop (r.taken r.latest)) (hpos : 0 < bs.length)
    (hfit : r.svc.nread + bs.length ≤ SBUFLEN) :
    Framed streams
      { r with
        svc := { r.svc with tmpbuf := r.svc.tmpbuf.write r.svc.nread bs,
                            nread := r.svc.nread + bs.length, loc := .whileReading }
        taken := Function.update r.taken r.latest (r.taken r.latest + bs.length) } where
  taken_le := h.taken_le_read hbs
  taken_fresh := by
    intro k hk
    simp only [Function.update_of_ne (hr.ne_latest hk)]
    exact h.taken_fresh k hk
  commits_fresh := h.commits_fresh
  log_eq := h.log_eq
  blocks_eq := by
    intro k
    have hk := h.blocks_eq k
    -- before the read no block is pending, so the commits are all the whole blocks
    have hnone : r.pending = [] := by simp [pending, hloc]
    rw [hnone, List.map_nil, ite_self, List.append_nil] at hk
    by_cases hlatest : k = r.latest
    · subst hlatest
      obtain ⟨m, htaken, hbuf⟩ := (hr.read hbs hfit .whileReading).position
      have hlen := h.taken_le_read hbs r.latest
      obtain ⟨m₀, htaken₀, -⟩ := hr.position
      simp only [latest, Function.update_self] at htaken hbuf hlen
      rw [← latest] at htaken hbuf hlen
      -- the read stays inside the block that begins at `m * SBUFLEN`
      have hm : m = m₀ := by
        simp only [SBUFLEN] at htaken htaken₀ hfit
        omega
      subst hm
      have hbefore : (r.commits r.latest).map Vector.toList =
          blocks SBUFLEN ((streams r.latest).take (m * SBUFLEN)) := by
        rw [hk, htaken₀]
        exact blocks_take_add (by omega) (by omega)
      simp only [Function.update_self, if_pos hr.conns_eq.symm, hbefore]
      rw [htaken] at hlen ⊢
      by_cases hfull : r.svc.nread + bs.length = SBUFLEN
      · -- the last byte of the block: it becomes the pending one
        rw [hfull] at hlen ⊢
        rw [hfull, List.take_of_length_le (by simp)] at hbuf
        rw [blocks_take_succ (by decide) hlen, ← hbuf]
        simp [pending, hok]
      · -- the block is still short
        rw [blocks_take_add (by omega) hlen]
        simp [pending, hfull]
    · -- the other connections are not touched
      simp only [Function.update_of_ne hlatest, if_neg (hr.succ_ne_conns hlatest),
        List.append_nil]
      exact hk

/-! ## Copying a block -/

/-- Copying moves the pending block to the end of the commits. -/
theorem Framed.commit (h : r.Framed streams) (hr : r.Reading streams) (hloc : r.svc.loc = .commit)
    (hok : r.svc.ok = true) (hfull : r.svc.nread = SBUFLEN) {svc : TcpService.State}
    (hsvc : svc.loc = .whileRunning) :
    Framed streams
      { r with
        svc
        commits := Function.update r.commits r.latest (r.commits r.latest ++ [r.svc.tmpbuf])
        log := r.log ++ [r.svc.tmpbuf] } where
  taken_le := h.taken_le
  taken_fresh := h.taken_fresh
  commits_fresh := by
    intro k hk
    simp only [Function.update_of_ne (hr.ne_latest hk)]
    exact h.commits_fresh k hk
  log_eq := by
    have hc := hr.conns_eq
    have hlog := h.log_eq
    rw [hc, List.range_succ, List.flatMap_append] at hlog
    -- the commits of earlier connections stay, and the latest comes last in the log
    have hearlier : (List.range r.latest).flatMap
          (Function.update r.commits r.latest (r.commits r.latest ++ [r.svc.tmpbuf])) =
        (List.range r.latest).flatMap r.commits := by
      apply List.flatMap_congr
      intro k hk
      rw [Function.update_of_ne (Nat.ne_of_lt (List.mem_range.mp hk))]
    simp only [hc, List.range_succ, List.flatMap_append, hearlier, hlog]
    simp
  blocks_eq := by
    intro k
    have hk := h.blocks_eq k
    have hpend : r.pending = [r.svc.tmpbuf] := by simp [pending, hloc, hok, hfull]
    have hnone : ({ r with
        svc
        commits := Function.update r.commits r.latest (r.commits r.latest ++ [r.svc.tmpbuf])
        log := r.log ++ [r.svc.tmpbuf] } : Receiver).pending = [] := by simp [pending, hsvc]
    rw [hpend] at hk
    rw [hnone, List.map_nil, ite_self, List.append_nil, ← hk]
    by_cases hlatest : k = r.latest
    · subst hlatest
      simp only [Function.update_self, if_pos hr.conns_eq.symm, List.map_append, List.map_cons, List.map_nil]
    · simp only [Function.update_of_ne hlatest, if_neg (hr.succ_ne_conns hlatest),
        List.append_nil]

/-! ## Every step keeps the invariant -/

/-- The invariant of a point of the worker carries over to a state that agrees
    on the worker's locals. -/
theorem AtLoc.imp {streams' : Nat → List (BitVec 8)} (h : r.AtLoc streams)
    (hloc : r'.svc.loc = r.svc.loc) (hok : r'.svc.ok = r.svc.ok)
    (hnread : r'.svc.nread = r.svc.nread) (hstatus : r'.svc.m_status = r.svc.m_status)
    (hreading : r.Reading streams → r'.Reading streams') (hbetween : r.Between → r'.Between) :
    r'.AtLoc streams' := by
  unfold AtLoc at h ⊢
  rw [hloc, hok, hnread, hstatus]
  cases hl : r.svc.loc <;> simp only [hl] at h ⊢
  case whileRunning | ifDisconnected => exact fun hs => hbetween (h hs)
  case setStatus => exact hbetween h
  case ifComplete => exact hreading h
  case whileReading | read | commit => exact ⟨hreading h.1, h.2⟩
  all_goals exact h

/-- Steps that make no system call neither end nor drop a block, apart from the copy. -/
theorem pending_tau {svc : TcpService.State} (hs : TcpService.stepTau r.svc = some svc)
    (hne : r.svc.loc ≠ .commit) : ({ r with svc } : Receiver).pending = r.pending := by
  cases hl : r.svc.loc <;> simp only [TcpService.stepTau, hl, Option.some.injEq] at hs
  case commit => exact absurd hl hne
  case inetPton | socket | connect | read | done => cases hs
  case whileReading =>
      -- back to `read` the block is short, and past the loop it stays what it was
      subst hs
      by_cases hcond : r.svc.nread < SBUFLEN ∧ r.svc.m_stop = false
      · simp [pending, hl, hcond, Nat.ne_of_lt hcond.1]
      · simp [pending, hl, hcond]
  case ifComplete =>
      subst hs
      by_cases hcond : r.svc.ok = true ∧ r.svc.nread = SBUFLEN
      · simp [pending, hl, hcond]
      · simp [pending, hl, hcond]
  case ifDisconnected =>
      subst hs
      cases hstatus : r.svc.m_status <;>
        simp [pending, hl, TcpService.State.enterReading, SBUFLEN]
  case setStatus =>
      subst hs
      simp [pending, hl, TcpService.State.enterReading, SBUFLEN]
  case whileRunning =>
      subst hs
      cases r.svc.m_stop <;> simp [pending, hl]
  all_goals
    subst hs
    simp [pending, hl]

/-- A new block starts where the last one ended. -/
theorem Between.enterReading (h : r.Between) {svc : TcpService.State}
    (hstatus : svc.m_status = true) :
    ({ r with svc := svc.enterReading } : Receiver).Reading streams where
  connected := h.connected
  status := hstatus
  nread_le := Nat.zero_le _
  position := by
    obtain ⟨m, hm⟩ := h.position
    exact ⟨m, hm, rfl⟩

/-- Steps that make no system call keep what holds at each point, apart from the copy. -/
theorem atLoc_tau (h : r.AtLoc streams) {svc : TcpService.State}
    (hs : TcpService.stepTau r.svc = some svc) (hne : r.svc.loc ≠ .commit) :
    ({ r with svc } : Receiver).AtLoc streams := by
  unfold AtLoc at h
  cases hl : r.svc.loc <;> simp only [hl] at h <;>
    simp only [TcpService.stepTau, hl, Option.some.injEq] at hs
  case commit => exact absurd hl hne
  case inetPton | socket | connect | read | done => cases hs
  case whileRunning =>
      subst hs
      cases hstop : r.svc.m_stop with
      | true => exact trivial
      | false => exact fun hstatus => ⟨(h hstatus).connected, (h hstatus).position⟩
  case ifDisconnected =>
      -- still connected: the next block begins; otherwise on to `socket`
      subst hs
      cases hstatus : r.svc.m_status with
      | true => exact ⟨(h hstatus).enterReading hstatus, rfl⟩
      | false => exact hstatus
  case setStatus =>
      subst hs
      exact ⟨h.enterReading rfl, rfl⟩
  case whileReading =>
      subst hs
      obtain ⟨⟨hconn, hstatus, hle, hpos⟩, hok⟩ := h
      by_cases hcond : r.svc.nread < SBUFLEN ∧ r.svc.m_stop = false
      · simp only [if_pos hcond, AtLoc]
        exact ⟨⟨hconn, hstatus, hle, hpos⟩, hok, hcond.1⟩
      · simp only [if_neg hcond, AtLoc]
        exact ⟨hconn, hstatus, hle, hpos⟩
  case ifComplete =>
      subst hs
      obtain ⟨hconn, hstatus, hle, hpos⟩ := h
      by_cases hcond : r.svc.ok = true ∧ r.svc.nread = SBUFLEN
      · simp only [if_pos hcond, AtLoc]
        exact ⟨⟨hconn, hstatus, hle, hpos⟩, hcond⟩
      · simp only [if_neg hcond, AtLoc]
  case sleep | reset =>
      -- `m_status` is false here, so nothing is asked of `whileRunning`
      subst hs
      intro hstatus
      rw [h] at hstatus
      cases hstatus
  case closeFailed | resetFailed | shutdown | close =>
      subst hs
      exact h
  case clearStatus =>
      subst hs
      rfl

/-- A step of the worker keeps the invariant. -/
theorem Inv.worker (h : Inv streams r) {e : TcpService.Ev} {svc : TcpService.State}
    (hd : Delivers streams r e) (hs : TcpService.step r.svc e = some svc) :
    Inv streams (r.record svc e) := by
  have hat := h.atLoc
  unfold AtLoc at hat
  cases e with
  | tau =>
      by_cases hcommit : r.svc.loc = .commit
      · -- the copy: the block is full, and the position is a block boundary again
        simp only [hcommit] at hat
        obtain ⟨hr, hok, hfull⟩ := hat
        simp only [TcpService.step, TcpService.stepTau, hcommit, Option.some.injEq] at hs
        subst hs
        simp only [record, if_pos hcommit]
        refine ⟨h.framed.commit hr hcommit hok hfull rfl, fun _ => ⟨hr.connected, ?_⟩⟩
        obtain ⟨m, hm, -⟩ := hr.position
        rw [hfull, ← Nat.succ_mul] at hm
        exact ⟨m + 1, hm⟩
      · simp only [record, if_neg hcommit]
        exact ⟨h.framed.move (pending_tau hs hcommit), atLoc_tau h.atLoc hs hcommit⟩
  | inetPton rc =>
      obtain ⟨hl, rfl⟩ := of_guard hs
      simp only [hl] at hat
      by_cases hrc : rc = 1
      · exact ⟨h.framed.move (by simp [pending, hl, hrc]), by simp [record, AtLoc, hrc, hat]⟩
      · exact ⟨h.framed.move (by simp [pending, hl, hrc]), by simp [record, AtLoc, hrc]⟩
  | socket fd =>
      obtain ⟨hl, rfl⟩ := of_guard hs
      simp only [hl] at hat
      by_cases hfd : fd < 0
      · exact ⟨h.framed.move (by simp [pending, hl, hfd]), by simp [record, AtLoc, hfd]⟩
      · exact ⟨h.framed.move (by simp [pending, hl, hfd]), by simp [record, AtLoc, hfd, hat]⟩
  | connect rc =>
      obtain ⟨hl, rfl⟩ := of_guard hs
      simp only [hl] at hat
      by_cases hrc : rc = 0
      · -- a new connection, of which nothing has been read
        simp only [record, if_pos hrc]
        refine ⟨h.framed.connect (by simp [pending, hl]) (by simp [pending]), ?_⟩
        exact ⟨Nat.succ_pos _, 0, by simp [latest, h.framed.taken_fresh r.conns (Nat.le_refl _)]⟩
      · simp only [record, if_neg hrc]
        exact ⟨h.framed.move (by simp [pending, hl]), hat⟩
  | read res =>
      simp only [TcpService.step, Option.ite_none_right_eq_some] at hs
      obtain ⟨hl, hs⟩ := hs
      simp only [hl] at hat
      obtain ⟨hr, hok, hlt⟩ := hat
      cases res with
      | data bs =>
          obtain ⟨⟨hpos, hfit⟩, rfl⟩ := of_guard hs
          exact ⟨h.framed.read hr hl hok hd hpos hfit, hr.read hd hfit _, hok⟩
      | eintr =>
          -- nothing was read: back to the test of the loop
          simp only [TcpService.stepRead, Option.some.injEq] at hs
          subst hs
          refine ⟨h.framed.move ?_, ⟨hr.connected, hr.status, hr.nread_le, hr.position⟩, hok⟩
          simp [pending, hl, Nat.ne_of_lt hlt]
      | eof | error =>
          -- `ok` becomes false, so what `tmpbuf` holds is not a pending block
          simp only [TcpService.stepRead, Option.some.injEq] at hs
          subst hs
          exact ⟨h.framed.move (by simp [pending, hl]),
            hr.connected, hr.status, hr.nread_le, hr.position⟩

/-- Every step of the client keeps the invariant. -/
theorem Inv.step (h : Inv streams r) {e : Ev} (hs : step streams r e = some r') :
    Inv streams r' := by
  cases e with
  | stop =>
      simp only [Receiver.step, Option.some.injEq] at hs
      subst hs
      exact ⟨h.framed.move rfl, h.atLoc.imp rfl rfl rfl rfl
        (fun hr => ⟨hr.connected, hr.status, hr.nread_le, hr.position⟩)
        (fun hb => ⟨hb.connected, hb.position⟩)⟩
  | worker e =>
      obtain ⟨hd, svc, hsvc, rfl⟩ := step_worker hs
      exact h.worker hd hsvc

/-- The invariant holds in every reachable state. -/
theorem inv_of_run {m_buffer : Buf SBUFLEN} {es : List Ev}
    (h : Run (step streams) Always (start m_buffer) es r) : Inv streams r :=
  h.invariant (start_inv streams m_buffer) fun _ _ _ hi _ hs => hi.step hs

/-! ## Streams that grow -/

/-- What has been read of a stream stays the same when the stream grows. -/
theorem take_of_grown {l l' : List (BitVec 8)} (h : l <+: l') {t : Nat} (ht : t ≤ l.length) :
    l'.take t = l.take t := by
  obtain ⟨rest, rfl⟩ := h
  rw [List.take_append_of_le_length ht]

/-- The invariant over growing streams. -/
theorem Inv.mono (h : Inv streams r) {streams' : Nat → List (BitVec 8)}
    (hgrow : ∀ k, streams k <+: streams' k) : Inv streams' r where
  framed :=
    { taken_le := fun k => Nat.le_trans (h.framed.taken_le k) (hgrow k).length_le
      taken_fresh := h.framed.taken_fresh
      commits_fresh := h.framed.commits_fresh
      log_eq := h.framed.log_eq
      blocks_eq := by
        intro k
        rw [take_of_grown (hgrow k) (h.framed.taken_le k)]
        exact h.framed.blocks_eq k }
  atLoc := by
    refine h.atLoc.imp rfl rfl rfl rfl (fun hr => ⟨hr.connected, hr.status, hr.nread_le, ?_⟩) id
    obtain ⟨m, htaken, hbuf⟩ := hr.position
    have hle := h.framed.taken_le r.latest
    refine ⟨m, htaken, ?_⟩
    rw [hbuf, List.take_drop, List.take_drop, take_of_grown (hgrow _) (by omega)]

/-! ## Framing -/

/-- Without a clearing of the buffer, `m_buffer` is the last value copied into it. -/
theorem m_buffer_step {m_buffer : Buf SBUFLEN} {e : Ev}
    (h : r.svc.m_buffer = r.log.getLastD m_buffer) (hs : step streams r e = some r') :
    r'.svc.m_buffer = r'.log.getLastD m_buffer := by
  cases e with
  | stop =>
      simp only [step, Option.some.injEq] at hs
      exact hs ▸ h
  | worker e =>
      obtain ⟨-, svc, hsvc, rfl⟩ := step_worker hs
      by_cases hcopy : e = .tau ∧ r.svc.loc = .commit
      · obtain ⟨rfl, hl⟩ := hcopy
        simp [record, hl]
      · have hkeep := (TcpService.step_effect hsvc).m_buffer
        rw [if_neg hcopy] at hkeep
        rw [record_log hcopy, record_svc, hkeep, h]

/-- What is added at the end of one list is added at the end of all of them. -/
theorem prefix_update {α : Type} (f : Nat → List α) (k : Nat) (l : List α) (k' : Nat) :
    f k' <+: Function.update f k (f k ++ l) k' := by
  rw [Function.update_apply]
  split
  · rename_i hk
    exact hk ▸ List.prefix_append _ _
  · exact List.prefix_refl _

/-- Commits are only added. -/
theorem commits_prefix {e : Ev} (hs : step streams r e = some r') (k : Nat) :
    r.commits k <+: r'.commits k := by
  cases e with
  | stop =>
      simp only [step, Option.some.injEq] at hs
      exact hs ▸ List.prefix_refl _
  | worker e =>
      obtain ⟨-, svc, -, rfl⟩ := step_worker hs
      cases e with
      | tau =>
          simp only [record]
          split
          · exact prefix_update _ _ _ _
          · exact List.prefix_refl _
      | read res => cases res <;> exact List.prefix_refl _
      | _ => exact List.prefix_refl _

/-- From the copy on: the copy itself. -/
theorem exec_commit (streams : Nat → List (BitVec 8)) (hl : r.svc.loc = .commit) :
    ∃ r', exec (step streams) Always r [.worker .tau] = some r' ∧
      r'.log = r.log ++ [r.svc.tmpbuf] := by
  refine ⟨r.record { r.svc with m_buffer := r.svc.tmpbuf, loc := .whileRunning } .tau, ?_, ?_⟩
  · simp [exec, step, Delivers, Always, TcpService.step, TcpService.stepTau, hl]
  · simp [record, hl]

/-- A step that makes no system call, followed by others. -/
theorem exec_tau {svc : TcpService.State} (hs : TcpService.stepTau r.svc = some svc)
    {es : List Ev} :
    exec (step streams) Always r (.worker .tau :: es) =
      exec (step streams) Always (r.record svc .tau) es :=
  exec_cons trivial (by simp only [step, TcpService.step, hs, Delivers, if_true])

/-- From the test of a full block on: the test and the copy. -/
theorem exec_ifComplete (streams : Nat → List (BitVec 8)) (hl : r.svc.loc = .ifComplete)
    (hok : r.svc.ok = true) (hfull : r.svc.nread = SBUFLEN) :
    ∃ r', exec (step streams) Always r (List.replicate 2 (.worker .tau)) = some r' ∧
      r'.log = r.log ++ [r.svc.tmpbuf] := by
  have hs : TcpService.stepTau r.svc = some { r.svc with loc := .commit } := by
    simp [TcpService.stepTau, hl, hok, hfull]
  obtain ⟨r', hr', hlog⟩ := exec_commit streams
    (r := r.record { r.svc with loc := .commit } .tau) (by simp)
  refine ⟨r', (exec_tau hs).trans hr', ?_⟩
  rw [hlog, record_log (by simp [hl]), record_svc]

/-- A block that has been read in full is copied by the worker's next steps. -/
theorem pending_committed {b : Buf SBUFLEN} (hb : b ∈ r.pending) :
    ∃ n ≤ 3, ∃ r', exec (step streams) Always r (List.replicate n (.worker .tau)) = some r' ∧
      r'.log = r.log ++ [b] := by
  simp only [pending, List.mem_ite_nil_right, List.mem_singleton] at hb
  obtain ⟨⟨hloc, hok, hfull⟩, rfl⟩ := hb
  simp only [List.mem_cons, List.not_mem_nil, or_false] at hloc
  -- one step for each point on the way to the copy
  obtain hl | hl | hl := hloc
  · have hs : TcpService.stepTau r.svc = some { r.svc with loc := .ifComplete } := by
      simp [TcpService.stepTau, hl, hfull]
    obtain ⟨r', hr', hlog⟩ := exec_ifComplete streams
      (r := r.record { r.svc with loc := .ifComplete } .tau) (by simp) (by simpa) (by simpa)
    refine ⟨3, Nat.le_refl _, r', (exec_tau hs).trans hr', ?_⟩
    rw [hlog, record_log (by simp [hl]), record_svc]
  · exact ⟨2, by omega, exec_ifComplete streams hl hok hfull⟩
  · exact ⟨1, by omega, exec_commit streams hl⟩

/-- Framing of the TCP client: on every connection the committed values and the
    pending one are the whole blocks of the bytes read from it, a pending block is
    the next one copied, and `m_buffer` is the last value copied. -/
theorem receiver_framing (streams : Nat → List (BitVec 8)) {m_buffer : Buf SBUFLEN}
    {es : List Ev} (h : Run (step streams) Always (start m_buffer) es r) :
    (∀ k, (r.commits k).map Vector.toList ++
        (if k + 1 = r.conns then r.pending.map Vector.toList else []) =
      blocks SBUFLEN ((streams k).take (r.taken k))) ∧
    r.log = (List.range r.conns).flatMap r.commits ∧
    r.svc.m_buffer = r.log.getLastD m_buffer ∧
    ∀ b ∈ r.pending, ∃ n ≤ 3, ∃ r',
      exec (step streams) Always r (List.replicate n (.worker .tau)) = some r' ∧
      r'.log = r.log ++ [b] := by
  have hinv := inv_of_run h
  refine ⟨hinv.framed.blocks_eq, hinv.framed.log_eq, ?_, fun b hb => pending_committed hb⟩
  exact h.invariant (I := fun r => r.svc.m_buffer = r.log.getLastD m_buffer) rfl
    fun _ _ _ hi _ hs => m_buffer_step hi hs

/-- A run with a split block, an interrupted `read`, a block cut short by the end of
    its connection, and a second connection. -/
def reconnectRun : List Ev :=
  [.worker (.inetPton 1), .worker .tau, .worker .tau, .worker (.socket 5), .worker (.connect 0),
   .worker .tau, .worker .tau, .worker (.read (.data [1, 2])), .worker .tau,
   .worker (.read .eintr), .worker .tau, .worker (.read (.data [3])), .worker .tau, .worker .tau,
   .worker .tau, .worker .tau, .worker .tau, .worker .tau, .worker (.read (.data [4, 5])),
   .worker .tau, .worker (.read .eof), .worker .tau, .worker .tau, .worker .tau, .worker .tau,
   .worker .tau, .worker .tau, .worker .tau, .worker (.socket 6), .worker (.connect 0),
   .worker .tau, .worker .tau, .worker (.read (.data [6, 7, 8])), .stop, .worker .tau,
   .worker .tau, .worker .tau]

/-- The streams of its two connections. -/
def reconnectStreams : Nat → List (BitVec 8)
  | 0 => [1, 2, 3, 4, 5]
  | 1 => [6, 7, 8, 9]
  | _ => []

/-- What it copies: the whole blocks of the two streams. -/
def reconnectLog : List (Buf SBUFLEN) := [#v[1, 2, 3], #v[6, 7, 8]]

theorem receiver_framing_reconnect :
    ∃ r, Run (step reconnectStreams) Always (start (Buf.zero SBUFLEN)) reconnectRun r ∧
      r.log = reconnectLog ∧
      r.log = (List.range r.conns).flatMap r.commits := by
  obtain ⟨r, hrun, hlog⟩ : ∃ r, Run (step reconnectStreams) Always (start (Buf.zero SBUFLEN))
      reconnectRun r ∧ r.log = reconnectLog := Run.exists_of_exec (by decide)
  exact ⟨r, hrun, hlog, (receiver_framing reconnectStreams hrun).2.1⟩

end Receiver
end Speedometer.Client
