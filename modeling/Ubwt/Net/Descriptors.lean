import Mathlib.Data.Finset.Basic
import Mathlib.Logic.Relation
import Ubwt.Config.Options
import Ubwt.Lib.Handles

/-!
# Ubwt.Net.Descriptors

The descriptors of a process, from `net_init` to `net_destroy`: the sockets of main, those that
`current_fork` and `net_listener_accept` make for the workers and `current_join` closes, and the
files that the process has open meanwhile.

Each worker of a test has a descriptor of its own, and no `close` hits one of somebody else, **with
one exception**: main of a listener has never set one of the two descriptors that
`_net_listener_stop` closes, and closes its standard input instead (`descriptors_accounted`). Over
UDP the only worker has closed the other one before.
-/

namespace Ubwt

open Lib Lib.Posix

/-! ### The kernel -/

/-- The open descriptors of the process, and the calls of `close()` that failed. -/
structure FdTable where
  opened : Finset Nat
  missed : List Nat

/-- `socket()`, `accept()` and `fopen()`, with the descriptor that they return. -/
def FdTable.alloc (t : FdTable) (fd : Nat) : FdTable := { t with opened := insert fd t.opened }

/-- `close()`. -/
def FdTable.close (t : FdTable) (fd : Nat) : FdTable :=
  if fd ∈ t.opened then { t with opened := t.opened.erase fd }
  else { t with missed := t.missed ++ [fd] }

/-! ### net.c and current.c -/

/-- The descriptors in `struct ubwt_net`. -/
structure NetFds where
  fd : Nat
  fdListen : Nat
  deriving Repr, DecidableEq

/-- What `socket()` and `bind()` return for an address that `getaddrinfo()` has found. -/
structure AddrResult where
  socket : Option Nat
  bound : Bool

/-- The loop of `_net_listener_start()`; without a socket the program ends. -/
def netListenerStart (cfg : Config) :
    List AddrResult → NetFds → FdTable → Option (NetFds × FdTable)
  | [], _, _ => none
  | r :: rs, net, t =>
      match r.socket with
      | none => netListenerStart cfg rs net t
      | some fd =>
          let t := t.alloc fd
          let net := if cfg.netL4ProtoValue = .tcp then { net with fdListen := fd }
            else { net with fd := fd }
          if r.bound then some (net, t) else netListenerStart cfg rs net (t.close fd)

/-- The loop of `_net_connector_start()`. -/
def netConnectorStart : List AddrResult → NetFds → FdTable → Option (NetFds × FdTable)
  | [], _, _ => none
  | r :: rs, net, t =>
      match r.socket with
      | none => netConnectorStart rs net t
      | some fd => some ({ net with fd := fd }, t.alloc fd)

/-- The sockets of `net_init()`. -/
def netInit (cfg : Config) (addrs : List AddrResult) (net : NetFds) (t : FdTable) :
    Option (NetFds × FdTable) :=
  if cfg.imListener then netListenerStart cfg addrs net t else netConnectorStart addrs net t

/-- `_net_listener_stop()`. -/
def netListenerStop (net : NetFds) (t : FdTable) : FdTable := (t.close net.fd).close net.fdListen

/-- `_net_connector_stop()`. -/
def netConnectorStop (net : NetFds) (t : FdTable) : FdTable := t.close net.fd

/-- The sockets of `net_destroy()`. -/
def netDestroy (cfg : Config) (net : NetFds) (t : FdTable) : FdTable :=
  if cfg.imListener then netListenerStop net t else netConnectorStop net t

/-- The copy of `struct ubwt_net` in `current_fork()`, when `socket()` returned `fd`. -/
def currentForkNet (cfg : Config) (main : NetFds) (fd : Nat) (t : FdTable) : NetFds × FdTable :=
  if cfg.imConnector then ({ main with fd := fd }, t.alloc fd) else (main, t)

/-- `net_listener_accept()` or `net_connector_connect()` in `talk_init()`, when `accept()` returned
`fd`. -/
def talkInitNet (cfg : Config) (net : NetFds) (fd : Nat) (t : FdTable) : NetFds × FdTable :=
  if cfg.imListener ∧ cfg.netL4ProtoValue = .tcp then ({ net with fd := fd }, t.alloc fd)
  else (net, t)

/-! ### A process -/

/-- Where main is: before `net_init()`, in `runtime_do()`, or behind `net_destroy()`. -/
inductive NetPhase
  | idle
  | up
  | down
  deriving Repr, DecidableEq

/-- Where a worker is, and its copy of `struct ubwt_net`: it is forked, it is back from
`talk_init()`, or it is joined. -/
inductive WorkerNet
  | absent
  | forked (net : NetFds)
  | ready (net : NetFds)
  | joined
  deriving Repr, DecidableEq

/-- A process of `n` workers; `files` are the streams that it has open. -/
structure ProcessNet (n : Nat) where
  table : FdTable
  main : NetFds
  phase : NetPhase
  worker : Fin n → WorkerNet
  files : Nat → Option Nat

namespace ProcessNet

variable {n : Nat} {cfg : Config} {base : Finset Nat} {s s' : ProcessNet n} {c : Fin n}

/-- No worker is joined yet. -/
def Testing (s : ProcessNet n) : Prop := ∀ c, s.worker c ≠ .joined

/-- All workers are back from their tests, as `runtime_do()` waits for. -/
def Tested (s : ProcessNet n) : Prop := ∀ c, s.worker c = .joined ∨ ∃ net, s.worker c = .ready net

/-- A process that has inherited the descriptors `base`. -/
def init (base : Finset Nat) : ProcessNet n where
  table := ⟨base, []⟩
  main := ⟨0, 0⟩
  phase := .idle
  worker := fun _ => .absent
  files := fun _ => none

/-- The steps. The kernel chooses descriptors that are not open; files are opened by `config_init`,
`net_init`, `runtime_do` and `process_report`, all of them before the first worker is joined. -/
inductive Step (cfg : Config) (s : ProcessNet n) : ProcessNet n → Prop
  | netInit (addrs : List AddrResult) (net : NetFds) (t : FdTable) (hphase : s.phase = .idle)
      (hnew : ∀ r ∈ addrs, ∀ fd, r.socket = some fd → fd ∉ s.table.opened)
      (h : netInit cfg addrs s.main s.table = some (net, t)) :
      Step cfg s { s with main := net, table := t, phase := .up }
  | currentFork (c : Fin n) (fd : Nat) (hphase : s.phase = .up) (hc : s.worker c = .absent)
      (hnew : fd ∉ s.table.opened) :
      Step cfg s { s with
        worker := Function.update s.worker c (.forked (currentForkNet cfg s.main fd s.table).1)
        table := (currentForkNet cfg s.main fd s.table).2 }
  | talkInit (c : Fin n) (net : NetFds) (fd : Nat) (hc : s.worker c = .forked net)
      (hnew : fd ∉ s.table.opened) :
      Step cfg s { s with
        worker := Function.update s.worker c (.ready (talkInitNet cfg net fd s.table).1)
        table := (talkInitNet cfg net fd s.table).2 }
  | currentJoin (c : Fin n) (net : NetFds) (hc : s.worker c = .ready net) (htested : s.Tested) :
      Step cfg s { s with
        worker := Function.update s.worker c .joined
        table := s.table.close net.fd }
  | netDestroy (hphase : s.phase = .up) (hjoined : ∀ c, s.worker c = .joined) :
      Step cfg s { s with
        main := ⟨0, 0⟩
        table := netDestroy cfg s.main s.table
        phase := .down }
  | fopen (k fd : Nat) (htesting : s.Testing) (hphase : s.phase ≠ .down) (hk : s.files k = none)
      (hnew : fd ∉ s.table.opened) :
      Step cfg s { s with
        files := Function.update s.files k (some fd)
        table := s.table.alloc fd }
  | fclose (k fd : Nat) (hk : s.files k = some fd) :
      Step cfg s { s with
        files := Function.update s.files k none
        table := s.table.close fd }

/-- The states of a process. -/
def Reachable (cfg : Config) (base : Finset Nat) (s : ProcessNet n) : Prop :=
  Relation.ReflTransGen (Step cfg) (init base) s

end ProcessNet

/-! ### The calls -/

namespace FdTable

variable {t : FdTable} {fd : Nat}

theorem close_mem (h : fd ∈ t.opened) : t.close fd = { t with opened := t.opened.erase fd } :=
  if_pos h

theorem close_not_mem (h : fd ∉ t.opened) : t.close fd = { t with missed := t.missed ++ [fd] } :=
  if_neg h

/-- A new descriptor that is closed again. -/
theorem close_alloc (h : fd ∉ t.opened) : (t.alloc fd).close fd = t := by
  rw [close_mem (Finset.mem_insert_self ..), alloc, Finset.erase_insert h]

end FdTable

/-- The three kinds of processes. -/
inductive NetKind
  | connector
  | tcpListener
  | udpListener
  deriving Repr, DecidableEq

def Config.netKind (cfg : Config) : NetKind :=
  if cfg.imConnector then .connector
  else if cfg.netL4ProtoValue = .tcp then .tcpListener else .udpListener

/-- Where the socket of main goes. -/
def NetKind.store : NetKind → NetFds → Nat → NetFds
  | connector, net, fd => { net with fd := fd }
  | tcpListener, net, fd => { net with fdListen := fd }
  | udpListener, net, fd => { net with fd := fd }

section

variable {cfg : Config} {addrs : List AddrResult} {net net' : NetFds} {t t' : FdTable}

/-- The sockets that could not be bound are closed, and overwritten. -/
theorem netListenerStart_inv (hnew : ∀ r ∈ addrs, ∀ fd, r.socket = some fd → fd ∉ t.opened)
    (h : netListenerStart cfg addrs net t = some (net', t')) :
    ∃ fd, fd ∉ t.opened ∧ t' = t.alloc fd ∧
      net' = if cfg.netL4ProtoValue = .tcp then { net with fdListen := fd }
        else { net with fd := fd } := by
  induction addrs generalizing net with
  | nil => cases h
  | cons r rs ih =>
      obtain ⟨hr, hrs⟩ := List.forall_mem_cons.mp hnew
      unfold netListenerStart at h
      cases hsocket : r.socket with
      | none =>
          rw [hsocket] at h
          exact ih hrs h
      | some fd =>
          rw [hsocket] at h
          have hfd := hr fd hsocket
          cases hbound : r.bound with
          | true =>
              simp only [hbound, if_true, Option.some.injEq, Prod.mk.injEq] at h
              exact ⟨fd, hfd, h.2.symm, h.1.symm⟩
          | false =>
              simp only [hbound, Bool.false_eq_true, if_false, FdTable.close_alloc hfd] at h
              obtain ⟨fd', hfd', ht, hnet⟩ := ih hrs h
              refine ⟨fd', hfd', ht, ?_⟩
              rw [hnet]
              split <;> rfl

theorem netConnectorStart_inv (hnew : ∀ r ∈ addrs, ∀ fd, r.socket = some fd → fd ∉ t.opened)
    (h : netConnectorStart addrs net t = some (net', t')) :
    ∃ fd, fd ∉ t.opened ∧ t' = t.alloc fd ∧ net' = { net with fd := fd } := by
  induction addrs with
  | nil => cases h
  | cons r rs ih =>
      obtain ⟨hr, hrs⟩ := List.forall_mem_cons.mp hnew
      unfold netConnectorStart at h
      cases hsocket : r.socket with
      | none =>
          rw [hsocket] at h
          exact ih hrs h
      | some fd =>
          rw [hsocket] at h
          cases h
          exact ⟨fd, hr fd hsocket, rfl, rfl⟩

variable (hrole : cfg.imListener = !cfg.imConnector)

include hrole

theorem netKind_cases : (cfg.netKind = .connector ∧ cfg.imConnector = true ∧ cfg.imListener = false) ∨
    (cfg.netKind = .tcpListener ∧ cfg.imConnector = false ∧ cfg.imListener = true ∧
      cfg.netL4ProtoValue = .tcp) ∨
    (cfg.netKind = .udpListener ∧ cfg.imConnector = false ∧ cfg.imListener = true ∧
      cfg.netL4ProtoValue ≠ .tcp) := by
  unfold Config.netKind
  rw [hrole]
  cases cfg.imConnector with
  | true => exact .inl ⟨rfl, rfl, rfl⟩
  | false =>
      by_cases hproto : cfg.netL4ProtoValue = .tcp
      · exact .inr (.inl ⟨by simp [hproto], rfl, rfl, hproto⟩)
      · exact .inr (.inr ⟨by simp [hproto], rfl, rfl, hproto⟩)

/-- One new socket, whatever the kind of the process. -/
theorem netInit_inv (hnew : ∀ r ∈ addrs, ∀ fd, r.socket = some fd → fd ∉ t.opened)
    (h : netInit cfg addrs net t = some (net', t')) :
    ∃ fd, fd ∉ t.opened ∧ t' = t.alloc fd ∧ net' = cfg.netKind.store net fd := by
  unfold netInit at h
  rcases netKind_cases hrole with ⟨hk, hc, hl⟩ | ⟨hk, hc, hl, hproto⟩ | ⟨hk, hc, hl, hproto⟩
  · rw [hl, if_neg Bool.false_ne_true] at h
    obtain ⟨fd, hfd, ht, rfl⟩ := netConnectorStart_inv hnew h
    exact ⟨fd, hfd, ht, by rw [hk, NetKind.store]⟩
  · rw [hl, if_pos rfl] at h
    obtain ⟨fd, hfd, ht, rfl⟩ := netListenerStart_inv hnew h
    exact ⟨fd, hfd, ht, by rw [hk, if_pos hproto, NetKind.store]⟩
  · rw [hl, if_pos rfl] at h
    obtain ⟨fd, hfd, ht, rfl⟩ := netListenerStart_inv hnew h
    exact ⟨fd, hfd, ht, by rw [hk, if_neg hproto, NetKind.store]⟩

/-- A worker of a connector gets a socket of its own. -/
theorem currentForkNet_eq (main : NetFds) (fd : Nat) (t : FdTable) :
    currentForkNet cfg main fd t =
      if cfg.netKind = .connector then ({ main with fd := fd }, t.alloc fd) else (main, t) := by
  unfold currentForkNet
  rcases netKind_cases hrole with ⟨hk, hc, -⟩ | ⟨hk, hc, -⟩ | ⟨hk, hc, -⟩ <;> simp [hk, hc]

/-- A worker of a TCP listener gets the connection that it has accepted. -/
theorem talkInitNet_eq (net : NetFds) (fd : Nat) (t : FdTable) :
    talkInitNet cfg net fd t =
      if cfg.netKind = .tcpListener then ({ net with fd := fd }, t.alloc fd) else (net, t) := by
  unfold talkInitNet
  rcases netKind_cases hrole with ⟨hk, -, hl⟩ | ⟨hk, -, hl, hproto⟩ | ⟨hk, -, hl, hproto⟩
  · simp [hk, hl]
  · simp [hk, hl, hproto]
  · simp [hk, hl, hproto]

theorem netDestroy_eq (net : NetFds) (t : FdTable) :
    netDestroy cfg net t =
      if cfg.netKind = .connector then t.close net.fd else (t.close net.fd).close net.fdListen := by
  unfold netDestroy
  rcases netKind_cases hrole with ⟨hk, -, hl⟩ | ⟨hk, -, hl, -⟩ | ⟨hk, -, hl, -⟩ <;>
    simp [hk, hl, netListenerStop, netConnectorStop]

end

/-! ### Who holds what -/

/-- Those who have a descriptor: the two sockets of main, the workers and the streams. -/
inductive NetOwner (n : Nat)
  | main
  | listen
  | worker (c : Fin n)
  | file (k : Nat)
  deriving DecidableEq

namespace ProcessNet

variable {n : Nat} {cfg : Config} {base : Finset Nat} {s s' : ProcessNet n} {c : Fin n}

instance : Decidable s.Testing := inferInstanceAs (Decidable (∀ c, s.worker c ≠ .joined))

/-- What a worker holds. -/
def workerHolder : NetKind → WorkerNet → Option Nat
  | .connector, .forked net => some net.fd
  | .connector, .ready net => some net.fd
  | .tcpListener, .ready net => some net.fd
  | _, _ => none

/-- What main holds. The worker of a UDP listener closes the socket of main. -/
def mainHolder (s : ProcessNet n) : NetKind → Option Nat
  | .connector => if s.phase = .up then some s.main.fd else none
  | .tcpListener => none
  | .udpListener => if s.phase = .up ∧ s.Testing then some s.main.fd else none

/-- The descriptors that are held, and by whom. -/
def holder (kind : NetKind) (s : ProcessNet n) : NetOwner n → Option Nat
  | .main => s.mainHolder kind
  | .listen => if kind = .tcpListener ∧ s.phase = .up then some s.main.fdListen else none
  | .worker c => workerHolder kind (s.worker c)
  | .file k => s.files k

/-- The descriptors that the process has inherited and not closed. -/
def inherited (kind : NetKind) (base : Finset Nat) (phase : NetPhase) : Finset Nat :=
  if phase = .down ∧ kind ≠ .connector then base.erase 0 else base

/-- The descriptor that a listener never sets. -/
def Unset : NetKind → NetFds → Prop
  | .connector, _ => True
  | .tcpListener, net => net.fd = 0
  | .udpListener, net => net.fdListen = 0

structure Inv (kind : NetKind) (base : Finset Nat) (s : ProcessNet n) : Prop where
  holds : Holds (inherited kind base s.phase) s.table.opened (s.holder kind)
  idle : s.phase = .idle → s.main = ⟨0, 0⟩ ∧ ∀ c, s.worker c = .absent
  down : s.phase = .down → ∀ c, s.worker c = .joined
  unset : Unset kind s.main
  copied : kind = .udpListener → ∀ c net,
    s.worker c = .forked net ∨ s.worker c = .ready net → net = s.main
  gone : kind = .udpListener → s.phase = .up → ¬s.Testing → s.main.fd ∉ s.table.opened
  missed : kind ≠ .udpListener → s.table.missed = []

theorem inv_init (kind : NetKind) : (init base : ProcessNet n).Inv kind base where
  holds := .init (by rintro (_ | _ | c | k) <;> cases kind <;> rfl)
  idle := fun _ => ⟨rfl, fun _ => rfl⟩
  down := fun h => by cases h
  unset := by cases kind <;> simp [Unset, init]
  copied := by
    rintro - c net (h | h) <;> cases h
  gone := fun _ h => by cases h
  missed := fun _ => rfl

variable {kind : NetKind} {fd k : Nat} {net : NetFds}

/-- `net_init()`. -/
theorem Inv.netInit (h : s.Inv kind base) (hphase : s.phase = .idle) (hfd : fd ∉ s.table.opened) :
    ({ s with main := kind.store s.main fd, table := s.table.alloc fd, phase := .up }
      : ProcessNet n).Inv kind base := by
  obtain ⟨hmain, hworker⟩ := h.idle hphase
  have hholds := h.holds
  rw [hphase] at hholds
  have htesting : s.Testing := fun c => by rw [hworker c]; exact WorkerNet.noConfusion
  refine ⟨?_, fun h => (by cases h), fun h => (by cases h), ?_, ?_, ?_, h.missed⟩
  · cases kind with
    | connector =>
        refine hholds.acquire (i := NetOwner.main) hfd (by simp [holder, mainHolder, hphase])
          (by simp [holder, mainHolder, NetKind.store]) ?_
        rintro (_ | _ | c | k) hj
        · exact absurd rfl hj
        · simp [holder]
        · rfl
        · rfl
    | tcpListener =>
        refine hholds.acquire (i := NetOwner.listen) hfd (by simp [holder, hphase])
          (by simp [holder, NetKind.store]) ?_
        rintro (_ | _ | c | k) hj
        · rfl
        · exact absurd rfl hj
        · rfl
        · rfl
    | udpListener =>
        refine hholds.acquire (i := NetOwner.main) hfd (by simp [holder, mainHolder, hphase])
          (if_pos ⟨rfl, htesting⟩) ?_
        rintro (_ | _ | c | k) hj
        · exact absurd rfl hj
        · simp [holder]
        · rfl
        · rfl
  · cases kind <;> simp [Unset, NetKind.store, hmain]
  · rintro - c net (hc | hc) <;> rw [hworker c] at hc <;> cases hc
  · exact fun _ _ hnot => absurd htesting hnot

/-- A worker that takes a step and is not joined leaves main with what it holds. -/
theorem testing_update {w : WorkerNet} (hw : w ≠ .joined) (hc : s.worker c ≠ .joined)
    {t : FdTable} :
    ({ s with worker := Function.update s.worker c w, table := t } : ProcessNet n).Testing
      ↔ s.Testing := by
  refine forall_congr' fun c' => ?_
  by_cases hne : c' = c
  · subst hne
    simp [hw, hc]
  · simp [hne]

theorem mainHolder_update {w : WorkerNet} (hw : w ≠ .joined) (hc : s.worker c ≠ .joined)
    {t : FdTable} :
    ({ s with worker := Function.update s.worker c w, table := t } : ProcessNet n).mainHolder kind
      = s.mainHolder kind := by
  cases kind <;> simp [mainHolder, testing_update hw hc]

/-- Everybody but a worker holds what they held. -/
theorem holder_update {w : WorkerNet} (hw : w ≠ .joined) (hc : s.worker c ≠ .joined)
    {t : FdTable} (j : NetOwner n) (hj : j ≠ .worker c) :
    ({ s with worker := Function.update s.worker c w, table := t } : ProcessNet n).holder kind j
      = s.holder kind j := by
  rcases j with _ | _ | c' | k
  · exact mainHolder_update hw hc
  · rfl
  · have hne : c' ≠ c := fun heq => hj (congrArg _ heq)
    simp [holder, hne]
  · rfl

/-- A step of a worker that makes no descriptor of its own. -/
theorem Inv.pass {w : WorkerNet} (h : s.Inv kind base) (hw : w ≠ .joined)
    (hc : s.worker c ≠ .joined) (hidle : s.phase ≠ .idle)
    (hheld : workerHolder kind w = workerHolder kind (s.worker c))
    (hcopied : kind = .udpListener → ∀ net, w = .forked net ∨ w = .ready net → net = s.main) :
    ({ s with worker := Function.update s.worker c w } : ProcessNet n).Inv kind base where
  holds := by
    refine h.holds.congr fun j => ?_
    by_cases hj : j = .worker c
    · subst hj
      simp [holder, hheld]
    · exact holder_update hw hc j hj
  idle := fun hphase => absurd hphase hidle
  down := fun hphase => absurd (h.down hphase c) hc
  unset := h.unset
  copied := by
    intro hkind c' net hc'
    by_cases hne : c' = c
    · subst hne
      simp only [Function.update_self] at hc'
      exact hcopied hkind net hc'
    · simp only [Function.update_of_ne hne] at hc'
      exact h.copied hkind c' net hc'
  gone := by
    intro hkind hphase hnot
    exact h.gone hkind hphase fun ht => hnot ((testing_update hw hc).mpr ht)
  missed := h.missed

/-- A step of a worker that makes a descriptor of its own. -/
theorem Inv.gain {w : WorkerNet} (h : s.Inv kind base) (hw : w ≠ .joined)
    (hc : s.worker c ≠ .joined) (hidle : s.phase ≠ .idle) (hfd : fd ∉ s.table.opened)
    (hkind : kind ≠ .udpListener) (hnone : workerHolder kind (s.worker c) = none)
    (hheld : workerHolder kind w = some fd) :
    ({ s with worker := Function.update s.worker c w, table := s.table.alloc fd }
      : ProcessNet n).Inv kind base where
  holds := h.holds.acquire (i := NetOwner.worker c) hfd hnone (by simpa [holder] using hheld) fun j hj =>
    holder_update hw hc j hj
  idle := fun hphase => absurd hphase hidle
  down := fun hphase => absurd (h.down hphase c) hc
  unset := h.unset
  copied := fun hkind' => absurd hkind' hkind
  gone := fun hkind' => absurd hkind' hkind
  missed := h.missed

/-- A worker that exists works while main is in `runtime_do()`. -/
theorem Inv.up (h : s.Inv kind base) (hc : s.worker c = .forked net ∨ s.worker c = .ready net) :
    s.phase = .up := by
  cases hphase : s.phase with
  | up => rfl
  | idle => rcases hc with hc | hc <;> cases hc.symm.trans ((h.idle hphase).2 c)
  | down => rcases hc with hc | hc <;> cases hc.symm.trans (h.down hphase c)

theorem not_testing_update {t : FdTable} :
    ¬({ s with worker := Function.update s.worker c .joined, table := t } : ProcessNet n).Testing :=
  fun h => h c (Function.update_self ..)

/-- `current_join()` of a worker that holds a descriptor. -/
theorem Inv.join_held (h : s.Inv kind base) (hc : s.worker c = .ready net)
    (hkind : kind ≠ .udpListener) :
    ({ s with worker := Function.update s.worker c .joined, table := s.table.close net.fd }
      : ProcessNet n).Inv kind base := by
  have hphase := h.up (.inr hc)
  have hheld : s.holder kind (.worker c) = some net.fd := by
    simp only [holder, hc]
    cases kind <;> first | rfl | exact absurd rfl hkind
  rw [FdTable.close_mem (h.holds.mem hheld)]
  refine ⟨?_, fun hidle => (by cases hphase.symm.trans hidle),
    fun hdown => (by cases hphase.symm.trans hdown), h.unset, fun heq => absurd heq hkind,
    fun heq => absurd heq hkind, h.missed⟩
  refine h.holds.release hheld ?_ ?_
  · simp only [holder, Function.update_self]
    cases kind <;> rfl
  · rintro (_ | _ | c' | k) hj
    · cases kind <;> first | rfl | exact absurd rfl hkind
    · rfl
    · have hne : c' ≠ c := fun heq => hj (congrArg _ heq)
      simp [holder, hne]
    · rfl

/-- The first `current_join()` of a UDP listener, and one that comes after it. -/
theorem Inv.join_shared (h : s.Inv .udpListener base) (hc : s.worker c = .ready net) :
    ({ s with worker := Function.update s.worker c .joined, table := s.table.close net.fd }
      : ProcessNet n).Inv .udpListener base := by
  have hphase := h.up (.inr hc)
  have hnet := h.copied rfl c net (.inr hc)
  have hcopied : ∀ c' net, Function.update s.worker c .joined c' = .forked net ∨
      Function.update s.worker c .joined c' = .ready net → net = s.main := by
    intro c' net hc'
    by_cases hne : c' = c
    · subst hne
      rw [Function.update_self] at hc'
      rcases hc' with hc' | hc' <;> cases hc'
    · rw [Function.update_of_ne hne] at hc'
      exact h.copied rfl c' net hc'
  by_cases htesting : s.Testing
  · have hheld : s.holder .udpListener .main = some s.main.fd := if_pos ⟨hphase, htesting⟩
    rw [hnet, FdTable.close_mem (h.holds.mem hheld)]
    refine ⟨?_, fun hidle => (by cases hphase.symm.trans hidle),
      fun hdown => (by cases hphase.symm.trans hdown), h.unset, fun _ => hcopied, ?_, h.missed⟩
    · refine h.holds.release hheld (if_neg fun hnot => not_testing_update hnot.2) ?_
      rintro (_ | _ | c' | k) hj
      · exact absurd rfl hj
      · rfl
      · rfl
      · rfl
    · exact fun _ _ _ => Finset.notMem_erase _ _
  · have hgone := h.gone rfl hphase htesting
    rw [hnet, FdTable.close_not_mem hgone]
    refine ⟨?_, fun hidle => (by cases hphase.symm.trans hidle),
      fun hdown => (by cases hphase.symm.trans hdown), h.unset, fun _ => hcopied, fun _ _ _ => hgone,
      fun hne => absurd rfl hne⟩
    refine h.holds.congr ?_
    rintro (_ | _ | c' | k)
    · exact (if_neg fun hnot => not_testing_update hnot.2).trans
        (if_neg fun hnot => htesting hnot.2).symm
    · rfl
    · rfl
    · rfl

/-- The state behind `net_destroy()`. -/
theorem Inv.of_down {t : FdTable} (hjoined : ∀ c, s.worker c = .joined)
    (hholds : Holds (inherited kind base .down) t.opened
      (({ s with main := ⟨0, 0⟩, table := t, phase := .down } : ProcessNet n).holder kind))
    (hmissed : kind ≠ .udpListener → t.missed = []) :
    ({ s with main := ⟨0, 0⟩, table := t, phase := .down } : ProcessNet n).Inv kind base where
  holds := hholds
  idle := fun h => by cases h
  down := fun _ => hjoined
  unset := by cases kind <;> simp [Unset]
  copied := by
    rintro - c net (hc | hc) <;> cases hc.symm.trans (hjoined c)
  gone := fun _ h => by cases h
  missed := hmissed

/-- `net_destroy()`: a listener closes descriptor 0. -/
theorem Inv.netDestroy (h : s.Inv kind base) (hzero : 0 ∈ base) (hphase : s.phase = .up)
    (hjoined : ∀ c, s.worker c = .joined) :
    ({ s with
        main := ⟨0, 0⟩
        table := if kind = .connector then s.table.close s.main.fd
          else (s.table.close s.main.fd).close s.main.fdListen
        phase := .down } : ProcessNet n).Inv kind base := by
  have hholds := h.holds
  rw [hphase] at hholds
  have hzero' : 0 ∈ s.table.opened := hholds.base_subset hzero
  cases kind with
  | connector =>
      have hheld : s.holder .connector .main = some s.main.fd := if_pos hphase
      rw [if_pos rfl, FdTable.close_mem (hholds.mem hheld)]
      refine .of_down hjoined ?_ h.missed
      refine hholds.release hheld rfl ?_
      rintro (_ | _ | c | k) hj
      · exact absurd rfl hj
      · rfl
      · rfl
      · rfl
  | tcpListener =>
      -- Descriptor 0, and then the socket.
      have hunset : s.main.fd = 0 := h.unset
      have hheld : s.holder .tcpListener .listen = some s.main.fdListen := if_pos ⟨rfl, hphase⟩
      have hlost := hholds.lose hzero
      rw [if_neg (by decide), hunset, FdTable.close_mem hzero',
        FdTable.close_mem (hlost.mem hheld)]
      refine .of_down hjoined ?_ h.missed
      refine hlost.release hheld rfl ?_
      rintro (_ | _ | c | k) hj
      · rfl
      · exact absurd rfl hj
      · rfl
      · rfl
  | udpListener =>
      have hunset : s.main.fdListen = 0 := h.unset
      rw [if_neg (by decide), hunset]
      by_cases htesting : s.Testing
      · -- There are no workers.
        have hheld : s.holder .udpListener .main = some s.main.fd := if_pos ⟨hphase, htesting⟩
        have hne : 0 ≠ s.main.fd := fun heq => hholds.apart _ _ hheld (heq ▸ hzero)
        rw [FdTable.close_mem (hholds.mem hheld),
          FdTable.close_mem (Finset.mem_erase.mpr ⟨hne, hzero'⟩)]
        refine .of_down hjoined ?_ h.missed
        refine Holds.lose (hholds.release hheld rfl ?_) hzero
        rintro (_ | _ | c | k) hj
        · exact absurd rfl hj
        · rfl
        · rfl
        · rfl
      · rw [FdTable.close_not_mem (h.gone rfl hphase htesting),
          FdTable.close_mem (t := ⟨s.table.opened, s.table.missed ++ [s.main.fd]⟩) hzero']
        refine .of_down hjoined ?_ fun hne => absurd rfl hne
        refine (hholds.lose hzero).congr ?_
        rintro (_ | _ | c | k)
        · exact (if_neg fun hnot => htesting hnot.2).symm
        · rfl
        · rfl
        · rfl

theorem holder_files_update {v : Option Nat} {t : FdTable} (j : NetOwner n) (hj : j ≠ .file k) :
    ({ s with files := Function.update s.files k v, table := t } : ProcessNet n).holder kind j
      = s.holder kind j := by
  rcases j with _ | _ | c | k'
  · cases kind <;> rfl
  · rfl
  · rfl
  · have hne : k' ≠ k := fun heq => hj (congrArg _ heq)
    simp [holder, hne]

/-- `fopen()`. -/
theorem Inv.fopen (h : s.Inv kind base) (htesting : s.Testing) (hk : s.files k = none)
    (hfd : fd ∉ s.table.opened) :
    ({ s with files := Function.update s.files k (some fd), table := s.table.alloc fd }
      : ProcessNet n).Inv kind base where
  holds := h.holds.acquire (i := NetOwner.file k) hfd hk (by simp [holder]) fun j hj =>
    holder_files_update j hj
  idle := h.idle
  down := h.down
  unset := h.unset
  copied := h.copied
  gone := fun _ _ hnot => absurd htesting hnot
  missed := h.missed

/-- `fclose()`. -/
theorem Inv.fclose (h : s.Inv kind base) (hk : s.files k = some fd) :
    ({ s with files := Function.update s.files k none, table := s.table.close fd }
      : ProcessNet n).Inv kind base := by
  have hheld : s.holder kind (.file k) = some fd := hk
  rw [FdTable.close_mem (h.holds.mem hheld)]
  exact {
    holds := h.holds.release hheld (by simp [holder]) fun j hj => holder_files_update j hj
    idle := h.idle
    down := h.down
    unset := h.unset
    copied := h.copied
    gone := fun hkind hphase hnot hmem =>
      h.gone hkind hphase hnot (Finset.mem_of_mem_erase hmem)
    missed := h.missed }

/-- One step of the process. -/
theorem Inv.step (hrole : cfg.imListener = !cfg.imConnector) (hzero : 0 ∈ base)
    (h : s.Inv cfg.netKind base) (hstep : Step cfg s s') : s'.Inv cfg.netKind base := by
  cases hstep with
  | netInit addrs net t hphase hnew hinit =>
      obtain ⟨fd, hfd, rfl, rfl⟩ := netInit_inv hrole hnew hinit
      exact h.netInit hphase hfd
  | currentFork c fd hphase hc hnew =>
      have hne : s.worker c ≠ .joined := by rw [hc]; exact WorkerNet.noConfusion
      have hidle : s.phase ≠ .idle := by rw [hphase]; exact NetPhase.noConfusion
      rw [currentForkNet_eq hrole]
      split
      · rename_i hkind
        rw [hkind] at h ⊢
        exact h.gain WorkerNet.noConfusion hne hidle hnew NetKind.noConfusion (by rw [hc]; rfl) rfl
      · rename_i hkind
        refine h.pass WorkerNet.noConfusion hne hidle ?_ ?_
        · rw [hc]
          cases hk : cfg.netKind <;> first | rfl | exact absurd hk hkind
        · rintro - net (hw | hw) <;> cases hw
          rfl
  | talkInit c net fd hc hnew =>
      have hphase := h.up (.inl hc)
      have hne : s.worker c ≠ .joined := by rw [hc]; exact WorkerNet.noConfusion
      have hidle : s.phase ≠ .idle := by rw [hphase]; exact NetPhase.noConfusion
      rw [talkInitNet_eq hrole]
      split
      · rename_i hkind
        rw [hkind] at h ⊢
        exact h.gain WorkerNet.noConfusion hne hidle hnew NetKind.noConfusion (by rw [hc]; rfl) rfl
      · rename_i hkind
        refine h.pass WorkerNet.noConfusion hne hidle ?_ ?_
        · rw [hc]
          cases hk : cfg.netKind <;> first | rfl | exact absurd hk hkind
        · rintro hudp net (hw | hw) <;> cases hw
          exact h.copied hudp c _ (.inl hc)
  | currentJoin c net hc htested =>
      by_cases hkind : cfg.netKind = .udpListener
      · rw [hkind] at h ⊢
        exact h.join_shared hc
      · exact h.join_held hc hkind
  | netDestroy hphase hjoined =>
      rw [netDestroy_eq hrole]
      exact h.netDestroy hzero hphase hjoined
  | fopen k fd htesting hphase hk hnew => exact h.fopen htesting hk hnew
  | fclose k fd hk => exact h.fclose hk

/-- All states of a process, by induction on its steps. -/
theorem Reachable.inv (hrole : cfg.imListener = !cfg.imConnector) (hzero : 0 ∈ base)
    (h : s.Reachable cfg base) : s.Inv cfg.netKind base := by
  induction h with
  | refl => exact inv_init _
  | tail _ hstep ih => exact ih.step hrole hzero hstep

/-- A worker that is ready holds its descriptor, or shares the one of main. -/
theorem Inv.holder_ready (h : s.Inv kind base) (hc : s.worker c = .ready net) :
    if kind = .udpListener then s.Testing → s.holder kind .main = some net.fd
    else s.holder kind (.worker c) = some net.fd := by
  cases kind with
  | connector => simp [holder, hc, workerHolder]
  | tcpListener => simp [holder, hc, workerHolder]
  | udpListener =>
      rw [if_pos rfl]
      intro htesting
      rw [h.copied rfl c net (.inr hc)]
      exact if_pos ⟨h.up (.inr hc), htesting⟩

theorem Inv.exists_holder (h : s.Inv kind base) (htesting : s.Testing)
    (hc : s.worker c = .ready net) :
    ∃ i, s.holder kind i = some net.fd ∧ ∀ k, i ≠ .file k := by
  have hholder := h.holder_ready hc
  split at hholder
  · exact ⟨.main, hholder htesting, fun k hk => by cases hk⟩
  · exact ⟨.worker c, hholder, fun k hk => by cases hk⟩

/-- Behind `net_destroy()` only the streams hold anything. -/
theorem Inv.exists_holder_down (h : s.Inv kind base) (hphase : s.phase = .down) :
    (∃ i, s.holder kind i = some fd) ↔ ∃ k, s.files k = some fd := by
  constructor
  · rintro ⟨_ | _ | c | k, hi⟩
    · cases kind <;> simp [holder, mainHolder, hphase] at hi
    · simp [holder, hphase] at hi
    · rw [holder, h.down hphase c] at hi
      cases kind <;> cases hi
    · exact ⟨k, hi⟩
  · rintro ⟨k, hk⟩
    exact ⟨.file k, hk⟩

end ProcessNet

/-- What the process has open, and what it has closed. -/
structure DescriptorsAccounted {n : Nat} (cfg : Config) (base : Finset Nat) (s : ProcessNet n) :
    Prop where
  /-- The descriptor of a worker that tests is open, and it is none that the process has inherited
  or has a stream on. -/
  worker : s.Testing → ∀ c net, s.worker c = .ready net →
    net.fd ∈ s.table.opened ∧ net.fd ∉ base ∧ ∀ k, s.files k ≠ some net.fd
  /-- Two workers do not share one, unless they are those of a UDP listener. -/
  apart : cfg.imConnector = true ∨ cfg.netL4ProtoValue = .tcp → ∀ c c' net net',
    s.worker c = .ready net → s.worker c' = .ready net' → net.fd = net'.fd → c = c'
  /-- The streams are open. -/
  files : ∀ k fd, s.files k = some fd → fd ∈ s.table.opened
  /-- No `close()` fails, unless it is one of a UDP listener. -/
  missed : cfg.imConnector = true ∨ cfg.netL4ProtoValue = .tcp → s.table.missed = []
  /-- What the process has inherited is open until `net_destroy()`. -/
  inherited : s.phase ≠ .down → base ⊆ s.table.opened
  /-- Then what it has inherited is left, but for descriptor 0 of a listener. -/
  left : s.phase = .down → ∀ fd, fd ∈ s.table.opened ↔
    (fd ∈ base ∧ ¬ (cfg.imListener = true ∧ fd = 0)) ∨ ∃ k, s.files k = some fd

/-- **The descriptors of a process.** For every accepted command line, any number of workers and any
order of their steps, any sockets that cannot be opened or bound, and any files that are open
meanwhile. -/
theorem descriptors_accounted {env : Env} {args : List CString} {cfg : Config}
    (hcfg : configInit env args = .ok cfg) {n : Nat} {base : Finset Nat} (hzero : 0 ∈ base)
    {s : ProcessNet n} (h : s.Reachable cfg base) : DescriptorsAccounted cfg base s := by
  have hrole := configInit_role hcfg
  have hinv := h.inv hrole hzero
  have hkind : cfg.imConnector = true ∨ cfg.netL4ProtoValue = .tcp →
      cfg.netKind ≠ .udpListener := by
    intro h hudp
    rcases netKind_cases hrole with ⟨hk, -⟩ | ⟨hk, -⟩ | ⟨-, hc, -, hproto⟩
    · cases hk.symm.trans hudp
    · cases hk.symm.trans hudp
    · rcases h with h | h
      · cases hc.symm.trans h
      · exact hproto h
  refine ⟨?_, ?_, fun k fd hk => hinv.holds.mem (i := NetOwner.file k) hk,
    fun h => hinv.missed (hkind h), ?_, ?_⟩
  · intro htesting c net hc
    obtain ⟨i, hi, hfile⟩ := hinv.exists_holder htesting hc
    refine ⟨hinv.holds.mem hi, ?_, fun k hk => hfile k (hinv.holds.unique i (.file k) _ hi hk)⟩
    have hphase := hinv.up (.inr hc)
    have hapart := hinv.holds.apart i _ hi
    rwa [hphase] at hapart
  · intro htcp c c' net net' hc hc' heq
    have hi := hinv.holder_ready hc
    have hi' := hinv.holder_ready hc'
    rw [if_neg (hkind htcp)] at hi hi'
    rw [← heq] at hi'
    exact NetOwner.worker.inj (hinv.holds.unique _ _ _ hi hi')
  · intro hphase
    have hsubset := hinv.holds.base_subset
    rwa [ProcessNet.inherited, if_neg fun h => hphase h.1] at hsubset
  · intro hphase fd
    rw [hinv.holds.mem_iff fd, hinv.exists_holder_down hphase, ProcessNet.inherited, hphase]
    refine or_congr_left ?_
    rcases netKind_cases hrole with ⟨hk, -, hl⟩ | ⟨hk, -, hl, -⟩ | ⟨hk, -, hl, -⟩ <;>
      simp [hk, hl, and_comm]

/-- A TCP listener with one worker, whose first address cannot be bound. -/
theorem exists_down {cfg : Config} (hl : cfg.imListener = true) (hc : cfg.imConnector = false)
    (hproto : cfg.netL4ProtoValue = .tcp) :
    ∃ s : ProcessNet 1, s.Reachable cfg {0, 1, 2} ∧ s.phase = .down ∧ ∀ k, s.files k = none := by
  have hinit : netInit cfg [⟨some 3, false⟩, ⟨some 3, true⟩] ⟨0, 0⟩ ⟨{0, 1, 2}, []⟩
      = some (⟨0, 3⟩, FdTable.alloc ⟨{0, 1, 2}, []⟩ 3) := by
    simp [netInit, hl, netListenerStart, hproto, FdTable.close_alloc]
  have hone : ∀ c : Fin 1, c = ⟨0, Nat.one_pos⟩ := fun c => Fin.ext (by omega)
  let s₁ : ProcessNet 1 := ⟨FdTable.alloc ⟨{0, 1, 2}, []⟩ 3, ⟨0, 3⟩, .up, fun _ => .absent,
    fun _ => none⟩
  have h₁ : s₁.Reachable cfg {0, 1, 2} :=
    .single (.netInit _ _ _ rfl (by simp [ProcessNet.init]) hinit)
  have h₂ := h₁.tail (.currentFork ⟨0, Nat.one_pos⟩ 4 rfl rfl (by simp [s₁, FdTable.alloc]))
  have h₃ := h₂.tail (.talkInit ⟨0, Nat.one_pos⟩ _ 4
    (by dsimp only; exact Function.update_self ..)
    (by simp [currentForkNet, hc, s₁, FdTable.alloc]))
  have h₄ := h₃.tail (.currentJoin ⟨0, Nat.one_pos⟩ _
    (by dsimp only; exact Function.update_self ..)
    fun c => .inr ⟨_, by rw [hone c]; dsimp only; exact Function.update_self ..⟩)
  have h₅ := h₄.tail (.netDestroy rfl fun c => by
    rw [hone c]
    dsimp only
    exact Function.update_self ..)
  exact ⟨_, h₅, rfl, fun _ => rfl⟩

/-- `ubwt listener 10.0.0.1` closes its standard input, and nothing else that it has inherited. -/
theorem descriptors_accounted_listener :
    ∃ cfg, ∃ s : ProcessNet 1, configInit ⟨false, false, fun _ _ => false⟩
        ["listener".toList, "10.0.0.1".toList] = .ok cfg
      ∧ s.Reachable cfg {0, 1, 2} ∧ s.phase = .down ∧ s.table.opened = {1, 2} := by
  obtain ⟨cfg, hcfg, hl, hc, hproto⟩ : ∃ cfg, configInit ⟨false, false, fun _ _ => false⟩
      ["listener".toList, "10.0.0.1".toList] = .ok cfg
    ∧ cfg.imListener = true ∧ cfg.imConnector = false ∧ cfg.netL4ProtoValue = .tcp :=
    ⟨_, rfl, rfl, rfl, rfl⟩
  obtain ⟨s, hs, hphase, hfiles⟩ := exists_down hl hc hproto
  refine ⟨cfg, s, hcfg, hs, hphase, ?_⟩
  ext fd
  rw [(descriptors_accounted hcfg (by simp) hs).left hphase fd]
  simp [hl, hfiles]
  omega

end Ubwt
